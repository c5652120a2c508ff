import Leasehold.Config.Overlay
import Leasehold.Config.Schema
import Leasehold.Files
import Leasehold.Text.Utf8
import Leasehold.Yaml.Document

/-! # Settings from files

Settings are read from a base file, over which the file of an environment is laid when it is there.
A file holds a map, or nothing; the backend it names must have its section. -/

namespace Leasehold.Config

/-- The document of a text, in which every line end counts as a line feed. -/
def parse (path : Path) (text : List Char) : Except Error Value :=
  match Yaml.load (Text.Utf8.unifyLines text) with
  | .ok v => .ok v
  | .error .markup => .error (.badMarkup path.text)
  | .error (.fault f) => .error (.fault f)

/-- The map at the root of a document. A document of nothing, or of an empty value, counts as
empty. -/
def root (path : Path) (v : Value) : Except Error Value.Fields :=
  if v.isTruthy then
    match v with
    | .map fields => .ok fields
    | _ => .error (.rootNotMap path.text)
  else .ok []

def decode (octets : List UInt8) : Except Error (List Char) :=
  match Text.Utf8.decode octets with
  | .ok text => .ok text
  | .error e => .error (.undecodable e.message)

def readFile (files : Files) (path : Path) : Except Error Value.Fields := do
  let text ← decode (← files.read path)
  root path (← parse path text)

/-- The map of the base file with that of the environment laid over it. -/
def readAll (files : Files) (base : Path) (env : Option Path) : Except Error Value.Fields := do
  let fields ← readFile files base
  match env with
  | none => return fields
  | some env =>
    if ← files.has env then merge fields (← readFile files env) else return fields

def settle (fields : Value.Fields) : Except Error Settings := do
  requireSection fields
  match Settings.read (.map fields) with
  | .ok s => return s
  | .issues found => throw (.badConfig Settings.model found)

/-- The settings of a base file and the file of an environment, if one is named. -/
def load (files : Files) (base : Path) (env : Option Path) : Except Error Settings := do
  settle (← readAll files base env)

end Leasehold.Config
