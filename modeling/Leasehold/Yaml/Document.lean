import Leasehold.Yaml.Content
import Leasehold.Yaml.Node

/-! # Values of YAML documents

The value of a document is read off its graph. First the graph is surveyed, level by level from the
root: merge keys are replaced by the entries they stand for, every scalar is read and must name a
value, and no collection may be a key. Then collections are built, level by level from the deepest
that calls reach, since aliases may nest a document without end. -/

namespace Leasehold.Yaml

namespace Graph

def node (g : Graph) (id : Nat) : Node := g.nodes[id]?.getD default

def entries (g : Graph) (id : Nat) : List (Nat × Nat) :=
  match (g.node id).shape with
  | .mapping entries => entries
  | _ => []

def isMapping (g : Graph) (id : Nat) : Bool :=
  match (g.node id).shape with
  | .mapping _ => true
  | _ => false

def setEntries (g : Graph) (id : Nat) (entries : List (Nat × Nat)) : Graph :=
  { g with nodes := g.nodes.modify id fun n => { n with shape := .mapping entries } }

def setTag (g : Graph) (id : Nat) (tag : String) : Graph :=
  { g with nodes := g.nodes.modify id fun n => { n with tag } }

/-! ### Merging -/

/-- The mappings that the value of a merge key names, those that count more first. -/
def merged (g : Graph) (id : Nat) : Except Trouble (List Nat) :=
  match (g.node id).shape with
  | .mapping _ => .ok [id]
  | .sequence items => if items.all g.isMapping then .ok items else .error .markup
  | .scalar _ => .error .markup

/-- A graph, and entries taken from it. -/
abbrev Taken := Graph × List (Nat × Nat)

/-- Replaces the merge keys of a mapping. The entries merged in come before its own, so that its own
count; a key that stands for the value of its mapping becomes a text. -/
def flatten : (calls : Nat) → (g : Graph) → (id : Nat) → Except Trouble Graph
  | 0, _, _ => .error (.fault .tooDeep)
  | calls + 1, g, id => do
    let isMerge (e : Nat × Nat) : Bool := (g.node e.1).tag = Tag.merge
    let merges := (g.entries id).filter isMerge
    let own := (g.entries id).filter (!isMerge ·)
    let g := own.foldl (fun g e => if (g.node e.1).tag = Tag.value then g.setTag e.1 Tag.str else g) g
    let g := g.setEntries id own
    let take (acc : Taken) (source : Nat) : Except Trouble Taken := do
      let g ← flatten calls acc.1 source
      return (g, g.entries source ++ acc.2)
    let absorb (acc : Taken) (e : Nat × Nat) : Except Trouble Taken := do
      let (g, before) ← (← merged acc.1 e.2).foldlM take (acc.1, [])
      return (g, acc.2 ++ before)
    let (g, before) ← merges.foldlM absorb (g, [])
    return g.setEntries id (before ++ g.entries id)

/-! ### Surveying -/

/-- The text of a scalar. A mapping stands for the value under its value key, which may be a mapping
again, but not without end. -/
def text (g : Graph) : (calls : Nat) → (id : Nat) → Except Trouble String
  | 0, _ => .error (.fault .tooDeep)
  | calls + 1, id => match (g.node id).shape with
    | .scalar text => .ok text
    | .mapping entries => match entries.find? fun e => (g.node e.1).tag = Tag.value with
      | some e => text g calls e.2
      | none => .error .markup
    | .sequence _ => .error .markup

def collectionTags : List String := [Tag.seq, Tag.map, Tag.set, Tag.omap, Tag.pairs]

def isCollection (g : Graph) (id : Nat) : Bool := collectionTags.contains (g.node id).tag

/-- The value of a node that is no collection by its tag. Only a text is searched for a point in
time. -/
def scalar (g : Graph) (id : Nat) : Except Trouble Value := do
  let text ← g.text maxCalls id
  let tag := (g.node id).tag
  if tag = Tag.timestamp && g.isMapping id then throw (.fault (.notSearchable "list"))
  Content.value tag text

/-- A graph with what has been met of it. A scalar keeps the value that it has when it is met,
whatever becomes of its keys when it is merged later. -/
structure Survey where
  graph : Graph
  /-- The values of the nodes met. A collection is empty as yet. -/
  values : Array (Option Value)
  /-- The collections that are still to be looked into. -/
  pending : List Nat := []

namespace Survey

/-- The value of a node, as far as it is known. -/
def value (s : Survey) (id : Nat) : Value := (s.values.getD id none).getD .null

def setValue (s : Survey) (id : Nat) (v : Value) : Survey :=
  { s with values := s.values.setIfInBounds id (some v) }

/-- Meets a node: a scalar is read, a collection is put off. -/
def meet (s : Survey) (id : Nat) : Except Trouble Survey :=
  if (s.values.getD id none).isSome then .ok s
  else if s.graph.isCollection id then
    let blank := if (s.graph.node id).tag = Tag.map then .map [] else .list []
    .ok { s.setValue id blank with pending := id :: s.pending }
  else s.setValue id <$> s.graph.scalar id

/-- Meets the entries of a mapping; a key must not be a collection. -/
def meetEntries (s : Survey) (entries : List (Nat × Nat)) : Except Trouble Survey :=
  entries.foldlM (fun s e => do
    let s ← s.meet e.1
    if s.graph.isCollection e.1 then throw .markup
    s.meet e.2) s

def single? (s : Survey) (id : Nat) : Option (Nat × Nat) :=
  match (s.graph.node id).shape with
  | .mapping [e] => some e
  | _ => none

/-- Looks into a collection, whose form must be that of its tag. -/
def enter (s : Survey) (id : Nat) : Except Trouble Survey := do
  let n := s.graph.node id
  match n.shape with
  | .scalar _ => throw .markup
  | .mapping _ =>
    if n.tag = Tag.map || n.tag = Tag.set then
      let graph ← s.graph.flatten maxCalls id
      meetEntries { s with graph } (graph.entries id)
    else throw .markup
  | .sequence items =>
    if n.tag = Tag.seq then items.foldlM meet s
    else if n.tag = Tag.omap || n.tag = Tag.pairs then
      items.foldlM (fun s item => do
        match s.single? item with
        | some e => (← s.meet e.1).meet e.2
        | none => throw .markup) s
    else throw .markup

/-- Looks into the pending collections, level by level. -/
def finish : (fuel : Nat) → Survey → Except Trouble Survey
  | 0, s => .ok s
  | fuel + 1, s =>
    if s.pending.isEmpty then .ok s
    else do finish fuel (← s.pending.reverse.foldlM enter { s with pending := [] })

/-! ### Building -/

/-- What the value of a key is filed under. -/
def key (s : Survey) (id : Nat) : String :=
  match (s.graph.node id).shape with
  | .scalar text => Content.key text (s.value id)
  | _ => Content.key "" (s.value id)

/-- A node's value with those of its parts in it. Sets and lists of pairs count as lists. -/
def build (s : Survey) (id : Nat) : Value :=
  let n := s.graph.node id
  if s.graph.isCollection id then
    match n.shape with
    | .sequence items => .list (items.map s.value)
    | .mapping entries =>
      if n.tag = Tag.map then
        .map (Assoc.ofPairs (entries.map fun e => (s.key e.1, s.value e.2)))
      else .list (entries.map fun e => s.value e.1)
    | .scalar _ => .null
  else s.value id

/-- The survey with its collections built down to a depth, and empty below it. -/
def built (s : Survey) : (depth : Nat) → Survey
  | 0 => s
  | depth + 1 =>
    let below := s.built depth
    { s with values := (Array.range s.graph.nodes.size).map fun id => some (below.build id) }

end Survey

/-- The survey of a graph, every part of which must have a value. -/
def survey (g : Graph) : Except Trouble Survey := do
  let s : Survey := { graph := g, values := Array.replicate g.nodes.size none }
  Survey.finish (g.nodes.size + 1) (← s.meet g.root)

end Graph

/-- The value of a text: that of its only document, or null. -/
def load (text : List Char) : Except Trouble Value := do
  match ← Graph.ofTokens (Token.scan text) with
  | none => return .null
  | some g => return ((← g.survey).built (maxCalls + 1)).value g.root

end Leasehold.Yaml
