import Leasehold.Number.Error
import Leasehold.Text.Utf8
import Leasehold.Yaml.Scalar

/-! # Tokens of a YAML text

`Token.scan` cuts a text into tokens. Indentation becomes explicit: a block collection has a token
at either end. What stands before a colon is recognised as a key only afterwards, so every token
that may begin a key is remembered until its line ends, and the tokens that announce the key are put
in front of it then. -/

namespace Leasehold.Yaml

/-- A line that begins with a percent sign. -/
inductive Directive where
  | version (major : Nat)
  | handle (name value : String)
  | other
deriving DecidableEq, Repr

inductive Token where
  | directive (d : Directive)
  | documentStart
  | documentEnd
  | blockSequenceStart
  | blockMappingStart
  | blockEnd
  | flowSequenceStart
  | flowSequenceEnd
  | flowMappingStart
  | flowMappingEnd
  | blockEntry
  | flowEntry
  | key
  | value
  | alias (name : String)
  | anchor (name : String)
  /-- A tag; without a handle it is written in full. -/
  | tag (handle : Option String) (suffix : String)
  | scalar (text : String) (plain : Bool)
  | streamEnd
  /-- The place from which the text cannot be read. -/
  | broken (t : Trouble)
deriving DecidableEq, Repr

namespace Token

/-! ### Words -/

def versionNumber (c : Cursor) : Except Trouble (Nat × Cursor) :=
  let (digits, c) := c.run Char.isDigit
  if digits.isEmpty then .error .markup
  else if maxDigits < digits.length then .error (.fault (.number (.tooLong digits.length)))
  else .ok (digits.foldl (fun n d => 10 * n + (d.toNat - '0'.toNat)) 0, c)

/-- An exclamation mark, or a word between two of them. -/
def tagHandle (c : Cursor) : Except Trouble (String × Cursor) :=
  if c.peek ≠ '!' then .error .markup
  else if c.peek 1 = ' ' then .ok ("!", c.forward)
  else
    let (word, c) := c.forward.run isWordChar
    if c.peek = '!' then .ok (String.ofList ('!' :: word ++ ['!']), c.forward) else .error .markup

def isUriChar (c : Char) : Bool :=
  isWordChar c ||
    [';', '/', '?', ':', '@', '&', '=', '+', '$', ',', '.', '!', '~', '*', '\'', '(', ')',
      '[', ']'].contains c

/-- A row of percent signs with two hexadecimal digits each. -/
def uriEscapes : (fuel : Nat) → Cursor → (acc : List UInt8) → Except Trouble (List UInt8 × Cursor)
  | 0, c, acc => .ok (acc, c)
  | fuel + 1, c, acc =>
    if c.peek = '%' then
      match Text.hexValue? (c.peek 1), Text.hexValue? (c.peek 2) with
      | some a, some b => uriEscapes fuel (c.skip 3) (acc ++ [UInt8.ofNat (16 * a + b)])
      | _, _ => .error .markup
    else .ok (acc, c)

/-- The text of a tag or of the beginning of one, in which escaped bytes are read as UTF-8. -/
def uriFrom : (fuel : Nat) → Cursor → (acc : List Char) → Except Trouble (List Char × Cursor)
  | 0, c, acc => .ok (acc, c)
  | fuel + 1, c, acc =>
    let (cs, c) := c.run isUriChar
    let acc := acc ++ cs
    if c.peek = '%' then do
      let (bytes, c) ← uriEscapes c.fuel c []
      match Text.Utf8.decode bytes with
      | .ok cs => uriFrom fuel c (acc ++ cs)
      | .error _ => throw .markup
    else .ok (acc, c)

def uri (c : Cursor) : Except Trouble (String × Cursor) := do
  let (cs, d) ← uriFrom c.fuel c []
  if c.index = d.index then throw .markup else return (String.ofList cs, d)

def directiveAt (c : Cursor) : Except Trouble (Token × Cursor) := do
  let (name, c) := c.forward.run isWordChar
  if name.isEmpty || !isSpaceOrEnd c.peek then throw .markup
  let spaces (c : Cursor) := c.skipWhile (· = ' ')
  let (d, c) ← match String.ofList name with
    | "YAML" => do
      let (major, c) ← versionNumber (spaces c)
      if c.peek ≠ '.' then throw .markup
      let (_, c) ← versionNumber c.forward
      if !isSpaceOrEnd c.peek then throw .markup
      pure (Directive.version major, c)
    | "TAG" => do
      let (handle, c) ← tagHandle (spaces c)
      if c.peek ≠ ' ' then throw .markup
      let (full, c) ← uri (spaces c)
      if !isSpaceOrEnd c.peek then throw .markup
      pure (Directive.handle handle full, c)
    | _ => pure (Directive.other, c.skipLine)
  return (.directive d, ← c.closeLine)

def isNameEnd (c : Char) : Bool :=
  isBlankOrEnd c || ['?', ':', ',', ']', '\x7d', '%', '@', '\x60'].contains c

def anchorName (c : Cursor) : Except Trouble (String × Cursor) :=
  let (name, c) := c.forward.run isWordChar
  if name.isEmpty || !isNameEnd c.peek then .error .markup else .ok (String.ofList name, c)

def tagAt (c : Cursor) : Except Trouble (Token × Cursor) := do
  let next := c.peek 1
  let (token, c) ←
    if next = '<' then do
      let (suffix, c) ← uri (c.skip 2)
      if c.peek ≠ '>' then throw .markup
      pure (tag none suffix, c.forward)
    else if isBlankOrEnd next then pure (tag none "!", c.forward)
    else do
      let word := (c.forward.run (!isSpaceOrEnd ·)).1
      let (handle, c) ← if word.contains '!' then tagHandle c else pure ("!", c.forward)
      let (suffix, c) ← uri c
      pure (tag (some handle) suffix, c)
  if isSpaceOrEnd c.peek then return (token, c) else throw .markup

/-! ### The scanner -/

/-- A token that may turn out to begin a key. -/
structure KeyStart where
  /-- The place of the token among all tokens. -/
  token : Nat
  /-- Whether it must be a key: it stands where the keys of its mapping stand. -/
  required : Bool
  index : Nat
  line : Nat
  column : Nat

structure Scanner where
  cursor : Cursor
  tokens : Array Token := #[]
  /-- How many flow collections are open. -/
  flow : Nat := 0
  /-- The column of the innermost block collection, or -1. -/
  indent : Int := -1
  /-- The columns of the block collections around it. -/
  indents : List Int := []
  /-- Whether a key may begin here. -/
  keyAllowed : Bool := true
  /-- The tokens that may begin a key, at most one for each depth of flow collections. -/
  keyStarts : Assoc Nat KeyStart := []

namespace Scanner

def emit (s : Scanner) (t : Token) : Scanner := { s with tokens := s.tokens.push t }

def emitAt (s : Scanner) (t : Token) (cursor : Cursor) : Scanner :=
  { s with tokens := s.tokens.push t, cursor }

/-- The greatest distance between the beginning of a key and its colon. -/
def maxKeyLength : Nat := 1024

/-- Whether a key start can be a key no more: a key ends on its line. -/
def isStale (s : Scanner) (k : KeyStart) : Bool :=
  k.line ≠ s.cursor.line || maxKeyLength < s.cursor.index - k.index

/-- Forgets the stale key starts. -/
def dropStale (s : Scanner) : Except Trouble Scanner :=
  if s.keyStarts.any fun e => s.isStale e.2 && e.2.required then .error .markup
  else .ok { s with keyStarts := s.keyStarts.filter fun e => !s.isStale e.2 }

/-- The tokens before the first that may still turn out to begin a key. -/
def settled (s : Scanner) : Array Token :=
  s.tokens.take <| s.keyStarts.foldl (fun n e => if s.isStale e.2 then n else min n e.2.token) s.tokens.size

/-- Forgets the key start at the present depth. -/
def dropKey (s : Scanner) : Except Trouble Scanner :=
  match s.keyStarts.find? s.flow with
  | some k => if k.required then .error .markup else .ok { s with keyStarts := s.keyStarts.erase s.flow }
  | none => .ok s

/-- Remembers the next token as one that may begin a key. -/
def saveKey (s : Scanner) : Except Trouble Scanner :=
  if s.keyAllowed then do
    let s ← s.dropKey
    let c := s.cursor
    let start := ⟨s.tokens.size, s.flow = 0 && s.indent = c.column, c.index, c.line, c.column⟩
    return { s with keyStarts := s.keyStarts.put s.flow start }
  else .ok s

/-- Puts a token before the one at `place`. -/
def insertAt (s : Scanner) (place : Nat) (t : Token) : Scanner :=
  { s with tokens := s.tokens.insertIdxIfInBounds place t }

/-- Closes the block collections that stand deeper than `column`. -/
def unwindTo (column : Int) : (indents : List Int) → Scanner → Scanner
  | [], s => s
  | outer :: indents, s =>
    if column < s.indent then unwindTo column indents ({ s with indent := outer, indents }.emit .blockEnd)
    else s

def unwind (s : Scanner) (column : Int) : Scanner := if s.flow = 0 then unwindTo column s.indents s else s

/-- Opens a block collection at `column` unless one is open there; answers whether it did. -/
def openBlock (s : Scanner) (column : Nat) : Bool × Scanner :=
  if s.indent < column then (true, { s with indents := s.indent :: s.indents, indent := column })
  else (false, s)

/-- Opens a block collection at the cursor, with `start` as its first token. -/
def openHere (s : Scanner) (start : Token) : Scanner :=
  let (opened, s) := s.openBlock s.cursor.column
  if opened then s.emit start else s

/-- Skips blanks, comments and empty lines. Outside flow collections a new line may begin with a
key. -/
def skipBlanks : (fuel : Nat) → Scanner → Scanner
  | 0, s => s
  | fuel + 1, s =>
    let c := s.cursor.skipWhile (· = ' ')
    let c := if c.peek = '#' then c.skipLine else c
    match c.lineBreak with
    | ([], c) => { s with cursor := c }
    | (_, c) => skipBlanks fuel { s with cursor := c, keyAllowed := s.keyAllowed || s.flow = 0 }

/-- A token that ends every open block. -/
def atMargin (s : Scanner) : Except Trouble Scanner := do
  return { ← (s.unwind (-1)).dropKey with keyAllowed := false }

def openFlow (s : Scanner) (t : Token) : Except Trouble Scanner := do
  let s ← s.saveKey
  return { s with flow := s.flow + 1, keyAllowed := true }.emitAt t s.cursor.forward

def closeFlow (s : Scanner) (t : Token) : Except Trouble Scanner := do
  let s ← s.dropKey
  if s.flow = 0 then throw .markup
  return { s with flow := s.flow - 1, keyAllowed := false }.emitAt t s.cursor.forward

/-- Outside flow collections, opens the block collection that an indicator here belongs to. -/
def openForIndicator (s : Scanner) (start : Token) : Except Trouble Scanner :=
  if s.flow ≠ 0 then .ok s
  else if s.keyAllowed then .ok (s.openHere start)
  else .error .markup

/-- A hyphen or a question mark, with the token that opens its collection. -/
def blockIndicator (s : Scanner) (start indicator : Token) (keyAllowed : Bool) :
    Except Trouble Scanner := do
  let s ← s.openForIndicator start
  let s ← { s with keyAllowed }.dropKey
  return s.emitAt indicator s.cursor.forward

/-- A colon. The token that may begin a key begins one. -/
def valueIndicator (s : Scanner) : Except Trouble Scanner := do
  let s ← match s.keyStarts.find? s.flow with
    | some k =>
      let s := { s.insertAt k.token .key with keyStarts := s.keyStarts.erase s.flow, keyAllowed := false }
      if s.flow = 0 then
        let (opened, s) := s.openBlock k.column
        pure (if opened then s.insertAt k.token .blockMappingStart else s)
      else pure s
    | none => do
      let s ← s.openForIndicator .blockMappingStart
      { s with keyAllowed := s.flow = 0 }.dropKey
  return s.emitAt .value s.cursor.forward

/-- A token that may begin a key, read by `read`. -/
def node (s : Scanner) (read : Cursor → Except Trouble (Token × Cursor)) : Except Trouble Scanner := do
  let s ← s.saveKey
  let (t, c) ← read s.cursor
  return { s with keyAllowed := false }.emitAt t c

def named (make : String → Token) (read : Cursor → Except Trouble (String × Cursor)) (c : Cursor) :
    Except Trouble (Token × Cursor) := do
  let (name, c) ← read c
  return (make name, c)

def plainNode (s : Scanner) : Except Trouble Scanner := do
  let s ← s.saveKey
  let (text, c, lineEnded) := Scalar.plain (s.flow ≠ 0) s.indent s.cursor
  return { s with keyAllowed := lineEnded }.emitAt (.scalar text true) c

def blockNode (s : Scanner) (folded : Bool) : Except Trouble Scanner := do
  let s ← { s with keyAllowed := true }.dropKey
  let (text, c) ← Scalar.block folded s.indent s.cursor
  return s.emitAt (.scalar text false) c

/-- The characters that no plain scalar begins with. -/
def isIndicator (c : Char) : Bool :=
  ['-', '?', ':', ',', '[', ']', '\x7b', '\x7d', '#', '&', '*', '!', '|', '>', '\'', '"', '%', '@',
    '\x60'].contains c

/-- Whether a plain scalar begins here. Some indicators begin one when no blank follows them. -/
def startsPlain (flow : Nat) (ch next : Char) : Bool :=
  !(isBlankOrEnd ch || isIndicator ch)
    || (!isBlankOrEnd next && (ch = '-' || (flow = 0 && (ch = '?' || ch = ':'))))

def step (s : Scanner) : Except Trouble Scanner := do
  let marked := s.cursor.index = 0 && s.cursor.peek = '\ufeff'
  let s := if marked then { s with cursor := s.cursor.forward } else s
  let s ← (s.skipBlanks s.cursor.fuel).dropStale
  let c := s.cursor
  let s := s.unwind c.column
  let ch := c.peek
  let next := c.peek 1
  let inFlow := s.flow ≠ 0
  if ch = nul then return (← s.atMargin).emit .streamEnd
  else if c.column = 0 && ch = '%' then
    let s ← s.atMargin
    let (t, c) ← directiveAt c
    return s.emitAt t c
  else if c.column = 0 && c.hasMark '-' then return (← s.atMargin).emitAt .documentStart (c.skip 3)
  else if c.column = 0 && c.hasMark '.' then return (← s.atMargin).emitAt .documentEnd (c.skip 3)
  else if ch = '[' then s.openFlow .flowSequenceStart
  else if ch = '\x7b' then s.openFlow .flowMappingStart
  else if ch = ']' then s.closeFlow .flowSequenceEnd
  else if ch = '\x7d' then s.closeFlow .flowMappingEnd
  else if ch = ',' then return (← { s with keyAllowed := true }.dropKey).emitAt .flowEntry c.forward
  else if ch = '-' && isBlankOrEnd next then s.blockIndicator .blockSequenceStart .blockEntry true
  else if ch = '?' && (inFlow || isBlankOrEnd next) then s.blockIndicator .blockMappingStart .key (!inFlow)
  else if ch = ':' && (inFlow || isBlankOrEnd next) then s.valueIndicator
  else if ch = '*' then s.node (named .alias anchorName)
  else if ch = '&' then s.node (named .anchor anchorName)
  else if ch = '!' then s.node tagAt
  else if ch = '|' && !inFlow then s.blockNode false
  else if ch = '>' && !inFlow then s.blockNode true
  else if ch = '\'' then s.node (named (.scalar · false) (Scalar.quoted false))
  else if ch = '"' then s.node (named (.scalar · false) (Scalar.quoted true))
  else if startsPlain s.flow ch next then s.plainNode
  else throw .markup

/-- Reads tokens up to the end of the text or to the place where it breaks. Whoever asks for a token
that may begin a key asks for those up to the colon too, and meets what breaks the text among
them. -/
def finish : (fuel : Nat) → Scanner → Array Token
  | 0, s => s.tokens.push (.broken .markup)
  | fuel + 1, s =>
    match s.step with
    | .error t => s.settled.push (.broken t)
    | .ok s => if s.tokens.back? = some .streamEnd then s.tokens else s.finish fuel

end Scanner

/-- The tokens of a text. The last one is `streamEnd`, or `broken` where the text cannot be read. -/
def scan (text : List Char) : List Token :=
  if text.all isAllowed then (Scanner.finish (text.length + 2) { cursor := { rest := text } }).toList
  else [.broken .markup]

end Token

end Leasehold.Yaml
