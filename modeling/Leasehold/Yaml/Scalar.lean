import Leasehold.Text.Surrogate
import Leasehold.Yaml.Cursor

/-! # Texts of scalars

A scalar is written plain, in quotes, or as an indented block. Each form folds line breaks: a single
break becomes a blank, of several the first is dropped. Functions here take the place where a scalar
begins and give its text and the place behind it. -/

namespace Leasehold.Yaml.Scalar

open Cursor

/-! ### Folding -/

/-- A break and those after it as they count in a folded text. -/
def fold (first others : List Char) : List Char :=
  (if first ≠ ['\n'] then first else if others.isEmpty then [' '] else []) ++ others

/-! ### Quoted -/

/-- Line breaks, and the blanks that begin their lines. A mark of a document may not stand there. -/
def breaks : (fuel : Nat) → Cursor → (acc : List Char) → Except Trouble (List Char × Cursor)
  | 0, c, acc => .ok (acc, c)
  | fuel + 1, c, acc =>
    if c.atDocumentMark then .error .markup
    else match (c.skipWhile isSpaceOrTab).lineBreak with
      | ([], c) => .ok (acc, c)
      | (b, c) => breaks fuel c (acc ++ b)

/-- Blanks inside quotes, which count unless a line break follows them. -/
def spaces (c : Cursor) : Except Trouble (List Char × Cursor) :=
  let (blanks, c) := c.run isSpaceOrTab
  if c.peek = nul then .error .markup
  else match c.lineBreak with
    | ([], c) => .ok (blanks, c)
    | (first, c) => do
      let (others, c) ← breaks c.fuel c []
      return (fold first others, c)

/-- What a character after a backslash stands for. -/
def escaped? (c : Char) : Option Char :=
  ([('0', '\x00'), ('a', '\x07'), ('b', '\x08'), ('t', '\t'), ('\t', '\t'), ('n', '\n'), ('v', '\x0b'),
    ('f', '\x0c'), ('r', '\r'), ('e', '\x1b'), (' ', ' '), ('"', '"'), ('\\', '\\'), ('/', '/'),
    ('N', '\x85'),
    ('_', '\u00a0'), ('L', '\u2028'), ('P', '\u2029')].find? fun e => e.1 = c).map Prod.snd

/-- How many hexadecimal digits follow a letter after a backslash. -/
def escapeWidth? : Char → Option Nat
  | 'x' => some 2
  | 'u' => some 4
  | 'U' => some 8
  | _ => none

/-- Code points end at 10FFFF, and a number of 32 bits with a sign is all that can be asked for. -/
def codePoint (n : Nat) : Except Trouble Nat :=
  if n < 0x110000 then .ok n
  else if n < 0x80000000 then .error (.fault .notCharacter)
  else .error (.fault .characterTooLarge)

/-- The code points of an escape whose backslash has been read. An escaped line break disappears. -/
def escape (c : Cursor) : Except Trouble (List Nat × Cursor) :=
  let ch := c.peek
  match escaped? ch, escapeWidth? ch with
  | some x, _ => .ok ([x.toNat], c.forward)
  | none, some width =>
    let c := c.forward
    let digits := c.rest.take width
    match Text.ofHex? digits with
    | some n =>
      if digits.length = width then do
        return ([← codePoint n], c.skip width)
      else .error .markup
    | none => .error .markup
  | none, none =>
    if isBreak ch then do
      let (cs, c) ← breaks c.fuel c.lineBreak.2 []
      return (cs.map Char.toNat, c)
    else .error .markup

/-- A text up to its closing quote; `acc` holds the code points read so far, backwards. -/
def quotedFrom (double : Bool) :
    (fuel : Nat) → Cursor → (acc : List Nat) → Except Trouble (String × Cursor)
  | 0, _, _ => .error .markup
  | fuel + 1, c, acc =>
    let ch := c.peek
    let quote := if double then '"' else '\''
    if isBlankOrEnd ch then do
      let (cs, c) ← spaces c
      quotedFrom double fuel c ((cs.map Char.toNat).reverse ++ acc)
    else if ch = quote then
      if !double && c.peek 1 = quote then quotedFrom double fuel (c.skip 2) (quote.toNat :: acc)
      else .ok (String.ofList (Text.joinSurrogates acc.reverse), c.forward)
    else if double && ch = '\\' then do
      let (points, c) ← escape c.forward
      quotedFrom double fuel c (points.reverse ++ acc)
    else quotedFrom double fuel c.forward (ch.toNat :: acc)

def quoted (double : Bool) (c : Cursor) : Except Trouble (String × Cursor) :=
  quotedFrom double c.fuel c.forward []

/-! ### Plain -/

/-- The characters that structure a flow collection. -/
def isFlowIndicator (c : Char) : Bool := [',', '?', '[', ']', '\x7b', '\x7d'].contains c

/-- What ends a plain scalar after a colon inside a flow collection. -/
def isFlowEnd (c : Char) : Bool := [',', '[', ']', '\x7b', '\x7d'].contains c

/-- The characters of a plain scalar up to a blank, a colon that separates, or an indicator. -/
def plainRun (flow : Bool) : List Char → List Char
  | [] => []
  | ch :: rest =>
    let next := rest.headD nul
    if isBlankOrEnd ch || (ch = ':' && (isBlankOrEnd next || (flow && isFlowEnd next)))
        || (flow && isFlowIndicator ch) then []
    else ch :: plainRun flow rest

/-- Further line breaks of a plain scalar, and the blanks that begin their lines. Nothing counts
when a mark of a document follows. -/
def plainBreaks : (fuel : Nat) → Cursor → (acc : List Char) → Option (List Char) × Cursor
  | 0, c, acc => (some acc, c)
  | fuel + 1, c, acc =>
    if c.atDocumentMark && c.column = 0 then (none, c)
    else match (c.skipWhile (· = ' ')).lineBreak with
      | ([], c) => (some acc, c)
      | (b, c) => plainBreaks fuel c (acc ++ b)

/-- Blanks and line breaks after a part of a plain scalar, as they count if another part follows;
and whether there was a break. -/
def plainSpaces (c : Cursor) : List Char × Cursor × Bool :=
  let (blanks, c) := c.run (· = ' ')
  match c.lineBreak with
  | ([], c) => (blanks, c, false)
  | (first, c) =>
    let (others, c) := plainBreaks c.fuel c []
    ((others.map (fold first)).getD [], c, true)

/-- The parts of a plain scalar, backwards in `acc`. `before` stands between the last part and this
place, `broken` says whether a line break is in it. -/
def plainFrom (flow : Bool) (indent : Int) :
    (fuel : Nat) → Cursor → (acc before : List Char) → (broken : Bool) → String × Cursor × Bool
  | 0, c, acc, _, broken => (String.ofList acc.reverse, c, broken)
  | fuel + 1, c, acc, before, broken =>
    let part := plainRun flow c.rest
    if c.peek = '#' || part.isEmpty then (String.ofList acc.reverse, c, broken)
    else
      let acc := part.reverse ++ (before.reverse ++ acc)
      let (before, c, broken) := plainSpaces (c.skip part.length)
      if before.isEmpty || c.peek = '#' || (!flow && c.column < indent) then
        (String.ofList acc.reverse, c, broken)
      else plainFrom flow indent fuel c acc before broken

/-- A plain scalar that begins here, inside a flow collection or in a block of the given
indentation; and whether a line break ends it. -/
def plain (flow : Bool) (indent : Int) (c : Cursor) : String × Cursor × Bool :=
  plainFrom flow (indent + 1) c.fuel c [] [] false

/-! ### Blocks -/

/-- What becomes of the line breaks at the end of a block. -/
inductive Chomping where
  | clip
  | strip
  | keep
deriving DecidableEq

/-- The header of a block: chomping and indentation in either order, both optional. -/
def blockHeader (c : Cursor) : Except Trouble (Chomping × Option Nat × Cursor) := do
  let chomping (c : Cursor) : Option Chomping :=
    if c.peek = '+' then some .keep else if c.peek = '-' then some .strip else none
  let indentation (c : Cursor) : Except Trouble (Option Nat × Cursor) :=
    match Text.asciiDigit? c.peek with
    | some 0 => .error .markup
    | some n => .ok (some n, c.forward)
    | none => .ok (none, c)
  let (mode, indent, c) ← match chomping c with
    | some mode => do
      let (indent, c) ← indentation c.forward
      pure (mode, indent, c)
    | none => do
      let (indent, c) ← indentation c
      pure <| match indent, chomping c with
        | some _, some mode => (mode, indent, c.forward)
        | _, _ => (Chomping.clip, indent, c)
  if isSpaceOrEnd c.peek then return (mode, indent, ← c.closeLine) else throw .markup

/-- The empty lines before a block whose indentation is not given, and the greatest indentation in
them. -/
def leadingBreaks : (fuel : Nat) → Cursor → (acc : List Char) → (deepest : Nat) → List Char × Nat × Cursor
  | 0, c, acc, deepest => (acc, deepest, c)
  | fuel + 1, c, acc, deepest =>
    let c := c.skipWhile (· = ' ')
    let deepest := max deepest c.column
    match c.lineBreak with
    | ([], c) => (acc, deepest, c)
    | (b, c) => leadingBreaks fuel c (acc ++ b) deepest

/-- Up to `n` blanks further. -/
def skipSpaces : (n : Nat) → Cursor → Cursor
  | 0, c => c
  | n + 1, c => if c.peek = ' ' then skipSpaces n c.forward else c

/-- To column `indent`, as far as there are blanks. -/
def indentTo (indent : Nat) (c : Cursor) : Cursor := skipSpaces (indent - c.column) c

/-- Empty lines inside a block. -/
def innerBreaks (indent : Nat) : (fuel : Nat) → Cursor → (acc : List Char) → List Char × Cursor
  | 0, c, acc => (acc, c)
  | fuel + 1, c, acc =>
    let c := indentTo indent c
    match c.lineBreak with
    | ([], c) => (acc, c)
    | (b, c) => innerBreaks indent fuel c (acc ++ b)

/-- The lines of a block, backwards in `acc`. `before` holds the empty lines above this place. Gives
the text, the last line break and the empty lines behind it. -/
def blockLines (folded : Bool) (indent : Nat) :
    (fuel : Nat) → Cursor → (acc before last : List Char) → List Char × List Char × List Char × Cursor
  | 0, c, acc, before, last => (acc.reverse, last, before, c)
  | fuel + 1, c, acc, before, last =>
    if c.column = indent && c.peek ≠ nul then
      let isText := !isSpaceOrTab c.peek
      let (line, c) := c.run (!isBreak ·)
      let (last, c) := c.lineBreak
      let acc := line.reverse ++ (before.reverse ++ acc)
      let (before, c) := innerBreaks indent c.fuel c []
      if c.column = indent && c.peek ≠ nul then
        let folds := folded && last = ['\n'] && isText && !isSpaceOrTab c.peek
        let joint := if !folds then last else if before.isEmpty then [' '] else []
        blockLines folded indent fuel c (joint.reverse ++ acc) before last
      else (acc.reverse, last, before, c)
    else (acc.reverse, last, before, c)

/-- A block scalar that begins here, in a block of indentation `parent`. -/
def block (folded : Bool) (parent : Int) (c : Cursor) : Except Trouble (String × Cursor) := do
  let (chomping, given, c) ← blockHeader c.forward
  let least := max (parent + 1) 1
  let fuel := c.fuel
  let (before, indent, c) := match given with
    | some n =>
      let indent := (least + n - 1).toNat
      let (before, c) := innerBreaks indent fuel c []
      (before, indent, c)
    | none =>
      let (before, deepest, c) := leadingBreaks fuel c [] 0
      (before, max least.toNat deepest, c)
  let (text, last, after, c) := blockLines folded indent fuel c [] before []
  let tail := match chomping with
    | .strip => []
    | .clip => last
    | .keep => last ++ after
  return (String.ofList (text ++ tail), c)

end Leasehold.Yaml.Scalar
