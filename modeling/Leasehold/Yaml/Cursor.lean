import Leasehold.Fault

/-! # Places in a YAML text

A `Cursor` is a place in a text: what is still to be read, and where that stands. Line ends are
single line breaks. Past the end of the text every character reads as NUL, which no text holds. -/

namespace Leasehold.Yaml

/-- What stops a text from being read: the markup is broken, or a value in it is impossible. -/
inductive Trouble where
  | markup
  | fault (f : Fault)
deriving DecidableEq, Repr

/-- The characters that a text may hold: no control characters besides tab and the line breaks, and
no noncharacters at the end of the basic plane. -/
def isAllowed (c : Char) : Bool :=
  let n := c.toNat
  n = 0x09 || n = 0x0a || n = 0x0d || (0x20 ≤ n && n ≤ 0x7e) || n = 0x85 || (0xa0 ≤ n && n ≤ 0xd7ff)
    || (0xe000 ≤ n && n ≤ 0xfffd) || 0x10000 ≤ n

def nul : Char := '\x00'

def isBreak (c : Char) : Bool := c = '\n' || c = '\x85' || c = '\u2028' || c = '\u2029'

/-- The end of a line or of the text. -/
def isLineEnd (c : Char) : Bool := c = nul || isBreak c

def isSpaceOrEnd (c : Char) : Bool := c = ' ' || isLineEnd c

def isSpaceOrTab (c : Char) : Bool := c = ' ' || c = '\t'

def isBlankOrEnd (c : Char) : Bool := isSpaceOrTab c || isLineEnd c

/-- The characters of directive names, anchors and tag handles. -/
def isWordChar (c : Char) : Bool := c.isAlphanum || c = '-' || c = '_'

structure Cursor where
  rest : List Char
  /-- How many characters are left, counted along so that it need not be counted again. -/
  left : Nat := rest.length
  left_eq : left = rest.length := by rfl
  /-- How many characters have been read. -/
  index : Nat := 0
  line : Nat := 0
  column : Nat := 0

namespace Cursor

def peek (c : Cursor) (k : Nat := 0) : Char := c.rest.getD k nul

/-- One character further. A line break starts a new line; a byte order mark takes no column. -/
def forward (c : Cursor) : Cursor :=
  match h : c.rest with
  | [] => c
  | ch :: rest =>
    have left_eq : c.left - 1 = rest.length := by simp [c.left_eq, h]
    let (line, column) :=
      if isBreak ch then (c.line + 1, 0)
      else (c.line, if ch = '\ufeff' then c.column else c.column + 1)
    { rest, left := c.left - 1, left_eq, index := c.index + 1, line, column }

/-- More than the steps that any loop over the rest of the text takes. -/
def fuel (c : Cursor) : Nat := c.left + 1

def skip (c : Cursor) : Nat → Cursor
  | 0 => c
  | n + 1 => c.forward.skip n

/-- The characters of class `p` from here on, and what follows them. -/
def run (c : Cursor) (p : Char → Bool) : List Char × Cursor :=
  let cs := c.rest.takeWhile p
  (cs, c.skip cs.length)

def skipWhile (c : Cursor) (p : Char → Bool) : Cursor := (c.run p).2

def skipLine (c : Cursor) : Cursor := c.skipWhile (!isBreak ·)

/-- A line break, if one stands here, as it counts in a scalar. -/
def lineBreak (c : Cursor) : List Char × Cursor :=
  let ch := c.peek
  if ch = '\n' || ch = '\x85' then (['\n'], c.forward)
  else if ch = '\u2028' || ch = '\u2029' then ([ch], c.forward)
  else ([], c)

/-- Three of `ch` with a blank or an end behind them. -/
def hasMark (c : Cursor) (ch : Char) : Bool :=
  [ch, ch, ch].isPrefixOf c.rest && isBlankOrEnd (c.peek 3)

/-- A line of three hyphens or three points, which begins or ends a document. -/
def atDocumentMark (c : Cursor) : Bool := c.hasMark '-' || c.hasMark '.'

/-- Blanks and a comment up to the end of the line, and the line break; anything else is refused. -/
def closeLine (c : Cursor) : Except Trouble Cursor :=
  let c := c.skipWhile (· = ' ')
  let c := if c.peek = '#' then c.skipLine else c
  if isLineEnd c.peek then .ok c.lineBreak.2 else .error .markup

end Cursor

end Leasehold.Yaml
