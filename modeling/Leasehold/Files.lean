import Leasehold.Assoc
import Leasehold.Error

/-! # Files

Paths, and a tree of files to find them in. The tree is seen from its own root directory; what lies
outside of it is known only as directories, by the dots that lead there. -/

namespace Leasehold

/-- A path: slashes at its beginning, and the names after them. -/
structure Path where
  root : String
  names : List String
deriving DecidableEq, Repr

namespace Path

/-- The slashes that count at the beginning of a path: one, unless there are exactly two. -/
def rootOf (cs : List Char) : String :=
  match (cs.takeWhile (· = '/')).length with
  | 0 => ""
  | 2 => "//"
  | _ => "/"

/-- The path that a text writes. Empty names and single dots go nowhere and are dropped; two dots
are kept. -/
def ofText (s : String) : Path :=
  ⟨rootOf s.toList, (s.splitOn "/").filter fun name => name ≠ "" && name ≠ "."⟩

def text (p : Path) : String :=
  if p.root = "" && p.names.isEmpty then "." else p.root ++ "/".intercalate p.names

/-- Whether a zero character is in the path. Such a path names nothing. -/
def hasZero (p : Path) : Bool := p.text.toList.contains '\x00'

end Path

/-- What a path may lead to. -/
inductive Content where
  | file (octets : List UInt8)
  | directory
deriving DecidableEq, Repr

/-- Files and directories by the names that lead to them. -/
abbrev Files := Assoc (List String) Content

namespace Files

/-- The longest name, in bytes. -/
def maxName : Nat := 255

/-- The longest path, in bytes. -/
def maxPath : Nat := 4095

/-- Makes the directories that lead to `names`, as far as they are missing. -/
def makeParents (f : Files) (names : List String) : Files :=
  ((List.range names.length).filter (0 < ·)).foldl (fun f n =>
    let dir := names.take n
    if (Assoc.find? f dir).isSome then f else Assoc.put f dir .directory) f

/-- Puts a file or a directory under a relative path. -/
def add (f : Files) (p : Path) (c : Content) : Files := Assoc.put (f.makeParents p.names) p.names c

/-- The directory around a directory; `none` stands for all directories outside the tree. -/
def parent : Option (List String) → Option (List String)
  | some [] => none
  | some dir => some dir.dropLast
  | none => none

/-- What `names` lead to from the directory `here`. -/
def walk (f : Files) : (here : Option (List String)) → (names : List String) → Except FileError Content
  | _, [] => .ok .directory
  | here, name :: names =>
    if name = ".." then f.walk (parent here) names
    else if maxName < name.utf8ByteSize then .error .nameTooLong
    else match here.bind fun dir => Assoc.find? f (dir ++ [name]) with
      | none => .error .notFound
      | some .directory => f.walk (here.map (· ++ [name])) names
      | some (.file octets) => if names.isEmpty then .ok (.file octets) else .error .notDirectory

def find (f : Files) (p : Path) : Except FileError Content :=
  if maxPath < p.text.utf8ByteSize then .error .nameTooLong
  else f.walk (if p.root = "" then some [] else none) p.names

def read (f : Files) (p : Path) : Except Error (List UInt8) :=
  if p.hasZero then .error (.fault .zeroInName)
  else match f.find p with
    | .ok (.file octets) => .ok octets
    | .ok .directory => .error (.unreadableFile p.text .isDirectory)
    | .error e => .error (.unreadableFile p.text e)

/-- Whether a path leads anywhere. Of a path that is too long this cannot be said. -/
def has (f : Files) (p : Path) : Except Error Bool :=
  if p.hasZero then .ok false
  else match f.find p with
    | .ok _ => .ok true
    | .error .nameTooLong => .error (.fault (.nameTooLong p.text))
    | .error _ => .ok false

end Files

end Leasehold
