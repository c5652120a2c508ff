import Leasehold.Yaml.Tag
import Leasehold.Yaml.Token

/-! # Nodes of a YAML document

A document is a graph of nodes, since an alias stands for a node that has a place already, possibly
around the alias itself. `Graph.ofTokens` reads the tokens of a text that holds at most one
document. -/

namespace Leasehold.Yaml

/-- What a node holds. Nodes are named by their places in the graph. -/
inductive Shape where
  | scalar (text : String)
  | sequence (items : List Nat)
  | mapping (entries : List (Nat × Nat))
deriving Repr, Inhabited

structure Node where
  tag : String
  shape : Shape
deriving Repr, Inhabited

structure Graph where
  nodes : Array Node
  root : Nat

/-- A graph under construction, with the tokens still to be read. -/
structure Builder where
  tokens : List Token
  nodes : Array Node := #[]
  anchors : Assoc String Nat := []
  /-- How many collections are open. -/
  depth : Nat := 0

abbrev Build := StateT Builder (Except Trouble)

namespace Build

/-- What a tag handle stands for. -/
abbrev Handles := Assoc String String

def defaultHandles : Handles := [("!", "!"), ("!!", Tag.core)]

/-- The next token. The place where the text breaks cannot be passed. -/
def peek : Build Token := fun b =>
  match b.tokens with
  | .broken t :: _ => .error t
  | t :: _ => .ok (t, b)
  | [] => .error .markup

def next : Build Unit := modify fun b => { b with tokens := b.tokens.tail }

def refuse {α : Type} : Build α := throw .markup

/-- Reads past `t`, which must come next. -/
def expect (t : Token) : Build Unit := do
  if (← peek) = t then next else refuse

/-- Reads past `t` if it comes next; answers whether it did. -/
def accept (t : Token) : Build Bool := do
  if (← peek) = t then
    next
    return true
  else return false

def addNode (tag : String) (shape : Shape) : Build Nat := fun b =>
  .ok (b.nodes.size, { b with nodes := b.nodes.push ⟨tag, shape⟩ })

/-- Names a node. A name cannot be given twice. -/
def name (anchor : Option String) (id : Nat) : Build Unit := do
  match anchor with
  | none => return
  | some a =>
    let b ← get
    if (b.anchors.find? a).isSome then refuse
    else set { b with anchors := b.anchors.put a id }

def scalar (anchor : Option String) (tag text : String) : Build Nat := do
  let id ← addNode tag (.scalar text)
  name anchor id
  return id

/-- The scalar that stands where nothing is written. -/
def empty : Build Nat := addNode Tag.null (.scalar "")

/-- How many collections may be open at once. -/
def maxDepth : Nat := 488

/-- Opens a collection inside those that are open. -/
def enter : Build Unit := fun b =>
  if b.depth < maxDepth then .ok ((), { b with depth := b.depth + 1 }) else .error (.fault .tooDeep)

/-- A collection, which may contain aliases of itself. -/
def collection (anchor : Option String) (tag : String) (read : Build Shape) : Build Nat := do
  let id ← addNode tag (.sequence [])
  name anchor id
  enter
  let shape ← read
  modify fun b => { b with nodes := b.nodes.setIfInBounds id ⟨tag, shape⟩, depth := b.depth - 1 }
  return id

def resolve (handles : Handles) : (handle : Option String) → (suffix : String) → Build String
  | none, suffix => return suffix
  | some h, suffix => match handles.find? h with
    | some full => return full ++ suffix
    | none => refuse

def anchor? : Build (Option String) := do
  match ← peek with
  | .anchor a =>
    next
    return some a
  | _ => return none

def tag? : Build (Option (Option String × String)) := do
  match ← peek with
  | .tag handle suffix =>
    next
    return some (handle, suffix)
  | _ => return none

/-- An anchor and a tag, both optional, in either order. -/
def properties (handles : Handles) : Build (Option String × Option String) := do
  let first ← anchor?
  let written ← tag?
  let anchor ← if first.isNone && written.isSome then anchor? else pure first
  match written with
  | some (handle, suffix) => return (anchor, some (← resolve handles handle suffix))
  | none => return (anchor, none)

def openTag : String := "!"

def collectionTag (default : String) (tag : Option String) : String :=
  match tag with
  | some t => if t = openTag then default else t
  | none => default

/-- The tag of a scalar: a plain one without a tag has the type of its text. -/
def scalarTag (text : String) (plain : Bool) (tag : Option String) : String :=
  match tag with
  | some t => if t = openTag then Tag.ofPlain text else t
  | none => if plain then Tag.ofPlain text else Tag.str

variable (handles : Handles)

mutual

/-- A node. Block collections may stand only in blocks, and a sequence without indentation of its
own only as the value of a key. -/
def node : (fuel : Nat) → (block bare : Bool) → Build Nat
  | 0, _, _ => refuse
  | fuel + 1, block, bare => do
    if let .alias a := ← peek then
      next
      match (← get).anchors.find? a with
      | some id => return id
      | none => refuse
    else
      let (anchor, tag) ← properties handles
      let sequence (read : Build Shape) := collection anchor (collectionTag Tag.seq tag) read
      let mapping (read : Build Shape) := collection anchor (collectionTag Tag.map tag) read
      let nothing : Build Nat :=
        if anchor.isSome || tag.isSome then scalar anchor (scalarTag "" true tag) "" else refuse
      match ← peek with
      | .scalar text plain =>
        next
        scalar anchor (scalarTag text plain tag) text
      | .flowSequenceStart =>
        next
        sequence (return .sequence (← flowItems fuel true))
      | .flowMappingStart =>
        next
        mapping (return .mapping (← flowEntries fuel true))
      | .blockSequenceStart =>
        if block then
          next
          sequence do
            let items ← blockItems fuel false
            expect .blockEnd
            return .sequence items
        else nothing
      | .blockMappingStart =>
        if block then
          next
          mapping do
            let entries ← blockEntries fuel
            expect .blockEnd
            return .mapping entries
        else nothing
      | .blockEntry => if bare then sequence (return .sequence (← blockItems fuel true)) else nothing
      | _ => nothing

/-- The items of a block sequence. The items of a `bare` one end at the next key. -/
def blockItems : (fuel : Nat) → (bare : Bool) → Build (List Nat)
  | 0, _ => refuse
  | fuel + 1, bare => do
    if ← accept .blockEntry then
      let t ← peek
      let isEmpty := t = .blockEntry || t = .blockEnd || (bare && (t = .key || t = .value))
      let item ← if isEmpty then empty else node fuel true false
      return item :: (← blockItems fuel bare)
    else return []

/-- The entries of a block mapping. The value of a key may be left out, the key may not. -/
def blockEntries : (fuel : Nat) → Build (List (Nat × Nat))
  | 0 => refuse
  | fuel + 1 => do
    if ← accept .key then
      let k ← blockPart fuel
      let v ← if ← accept .value then blockPart fuel else empty
      return (k, v) :: (← blockEntries fuel)
    else return []

/-- A key or a value of a block mapping. -/
def blockPart : (fuel : Nat) → Build Nat
  | 0 => refuse
  | fuel + 1 => do
    let t ← peek
    if t = .key || t = .value || t = .blockEnd then empty else node fuel true true

/-- A key or a value inside brackets, which may be left out before a comma or the closing
bracket. -/
def flowPart : (fuel : Nat) → (close : Token) → (isKey : Bool) → Build Nat
  | 0, _, _ => refuse
  | fuel + 1, close, isKey => do
    let t ← peek
    if t = .flowEntry || t = close || (isKey && t = .value) then empty else node fuel false false

/-- The items of a flow sequence up to its closing bracket. An item may be a single entry of a
mapping. -/
def flowItems : (fuel : Nat) → (first : Bool) → Build (List Nat)
  | 0, _ => refuse
  | fuel + 1, first => do
    if ← accept .flowSequenceEnd then return []
    if !first then expect .flowEntry
    if ← accept .key then
      let item ← collection none Tag.map do
        let k ← flowPart fuel .flowSequenceEnd true
        let v ← if ← accept .value then flowPart fuel .flowSequenceEnd false else empty
        return .mapping [(k, v)]
      return item :: (← flowItems fuel false)
    if ← accept .flowSequenceEnd then return []
    let item ← node fuel false false
    return item :: (← flowItems fuel false)

/-- The entries of a flow mapping up to its closing brace. A node without a colon is a key of
nothing. -/
def flowEntries : (fuel : Nat) → (first : Bool) → Build (List (Nat × Nat))
  | 0, _ => refuse
  | fuel + 1, first => do
    if ← accept .flowMappingEnd then return []
    if !first then expect .flowEntry
    if ← accept .key then
      let k ← flowPart fuel .flowMappingEnd true
      let v ← if ← accept .value then flowPart fuel .flowMappingEnd false else empty
      return (k, v) :: (← flowEntries fuel false)
    if ← accept .flowMappingEnd then return []
    let k ← node fuel false false
    let v ← empty
    return (k, v) :: (← flowEntries fuel false)

end

/-- The directives of a document. Of a version only the first may be given, and it must be 1. -/
def directives : (fuel : Nat) → (versioned : Bool) → Handles → Build Handles
  | 0, _, _ => refuse
  | fuel + 1, versioned, given => do
    match ← peek with
    | .directive d =>
      next
      match d with
      | .version major => if versioned || major ≠ 1 then refuse else directives fuel true given
      | .handle h full =>
        if (given.find? h).isSome then refuse else directives fuel versioned (given.put h full)
      | .other => directives fuel versioned given
    | _ => return given

/-- The ends of documents. -/
def documentEnds : (fuel : Nat) → Build Unit
  | 0 => refuse
  | fuel + 1 => do if ← accept .documentEnd then documentEnds fuel

/-- The root of the only document, if there is one. -/
def document (fuel : Nat) : Build (Option Nat) := do
  match ← peek with
  | .streamEnd => return none
  | first =>
    let isExplicit := match first with
      | .directive _ => true
      | .documentStart => true
      | _ => false
    let root ←
      if isExplicit then do
        let given ← directives fuel false []
        expect .documentStart
        match ← peek with
        | .directive _ => empty
        | .documentStart => empty
        | .documentEnd => empty
        | .streamEnd => empty
        | _ => node (Assoc.putAll defaultHandles given) fuel true false
      else node defaultHandles fuel true false
    documentEnds fuel
    if (← peek) ≠ .streamEnd then
      let _ ← directives fuel false []
      refuse
    return some root

end Build

/-- The graph of a text's only document; nothing when the text holds none. -/
def Graph.ofTokens (tokens : List Token) : Except Trouble (Option Graph) := do
  let (root, b) ← (Build.document (4 * tokens.length + 8)).run { tokens }
  return root.map fun root => ⟨b.nodes, root⟩

end Leasehold.Yaml
