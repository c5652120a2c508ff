import Leasehold.Text.Hex

/-! # UTF-8

Decoding bytes into text, with the place and the reason when they are not UTF-8, and the rule that
makes one line feed of every line end. -/

namespace Leasehold.Text.Utf8

inductive Reason where
  /-- No character starts with this byte. -/
  | invalidStart
  /-- A byte that cannot go on with the character begun. -/
  | invalidContinuation
  /-- The bytes end inside a character. -/
  | unexpectedEnd
deriving DecidableEq, Repr

/-- Bytes from `start` on, `length` of them, that are no character; `byte` is the first. -/
structure Error where
  start : Nat
  length : Nat
  byte : Nat
  reason : Reason
deriving DecidableEq, Repr

def Reason.text : Reason → String
  | .invalidStart => "invalid start byte"
  | .invalidContinuation => "invalid continuation byte"
  | .unexpectedEnd => "unexpected end of data"

/-- The wording: one bad byte is shown, several are counted. -/
def Error.message (e : Error) : String :=
  let place :=
    if e.length = 1 then s!"byte 0x" ++ String.ofList (hex 2 e.byte) ++ s!" in position {e.start}"
    else s!"bytes in position {e.start}-" ++ toString (e.start + e.length - 1)
  "'utf-8' codec can't decode " ++ place ++ ": " ++ e.reason.text

/-- How many bytes follow a first byte, and the range of the second one: it rules out overlong
forms, surrogates and code points beyond the last. -/
def lead? (b : Nat) : Option (Nat × Nat × Nat) :=
  if 0xc2 ≤ b && b ≤ 0xdf then some (1, 0x80, 0xbf)
  else if b = 0xe0 then some (2, 0xa0, 0xbf)
  else if b = 0xed then some (2, 0x80, 0x9f)
  else if 0xe1 ≤ b && b ≤ 0xef then some (2, 0x80, 0xbf)
  else if b = 0xf0 then some (3, 0x90, 0xbf)
  else if 0xf1 ≤ b && b ≤ 0xf3 then some (3, 0x80, 0xbf)
  else if b = 0xf4 then some (3, 0x80, 0x8f)
  else none

/-- The payload of a first byte that `n` more bytes follow. -/
def leadBits (b n : Nat) : Nat := if n = 1 then b % 32 else if n = 2 then b % 16 else b % 8

/-- A character under way: how many bytes it still needs, the range of the next one, its bits so
far, and its first byte with its place. -/
structure Pending where
  more : Nat
  low : Nat
  high : Nat
  bits : Nat
  byte : Nat
  start : Nat

/-- The fault of a character under way that ends before `place`. -/
def Pending.broken (p : Pending) (place : Nat) (reason : Reason) : Error :=
  ⟨p.start, place - p.start, p.byte, reason⟩

/-- Decodes `bytes`, the first of which stands at `place`, after the characters `acc`, backwards. -/
def decodeFrom : (bytes : List UInt8) → (place : Nat) → Option Pending → (acc : List Char) →
    Except Error (List Char)
  | [], _, none, acc => .ok acc.reverse
  | [], place, some p, _ => .error (p.broken place .unexpectedEnd)
  | b :: bytes, place, none, acc =>
    let n := b.toNat
    if n < 0x80 then decodeFrom bytes (place + 1) none (Char.ofNat n :: acc)
    else match lead? n with
      | some (more, low, high) =>
        decodeFrom bytes (place + 1) (some ⟨more, low, high, leadBits n more, n, place⟩) acc
      | none => .error ⟨place, 1, n, .invalidStart⟩
  | b :: bytes, place, some p, acc =>
    let n := b.toNat
    if p.low ≤ n && n ≤ p.high then
      let bits := p.bits * 64 + n % 64
      if p.more = 1 then decodeFrom bytes (place + 1) none (Char.ofNat bits :: acc)
      else
        let next := { p with more := p.more - 1, low := 0x80, high := 0xbf, bits }
        decodeFrom bytes (place + 1) (some next) acc
    else .error (p.broken place .invalidContinuation)

def decode (bytes : List UInt8) : Except Error (List Char) := decodeFrom bytes 0 none []

/-- Every carriage return, with a line feed after it or not, becomes a line feed. -/
def unifyLines : List Char → List Char
  | [] => []
  | '\r' :: '\n' :: cs => '\n' :: unifyLines cs
  | c :: cs => (if c = '\r' then '\n' else c) :: unifyLines cs

end Leasehold.Text.Utf8
