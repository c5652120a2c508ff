import Leasehold.Text.Hex

/-! # Surrogates

Escapes name characters by number, and may name one outside the basic plane by two numbers that no
character has, a high surrogate and a low one. -/

namespace Leasehold.Text

def isHighSurrogate (n : Nat) : Bool := 0xd800 ≤ n && n < 0xdc00

def isLowSurrogate (n : Nat) : Bool := 0xdc00 ≤ n && n < 0xe000

/-- The character that two surrogates name. -/
def ofSurrogates (high low : Nat) : Nat := 0x10000 + (high - 0xd800) * 0x400 + (low - 0xdc00)

/-- The character with code point `n`, or the replacement character when there is none. -/
def charOrReplacement (n : Nat) : Char := (char? n).getD '\ufffd'

/-- The characters that numbers name. A surrogate that stands alone gives the replacement
character. -/
def joinSurrogates : List Nat → List Char
  | [] => []
  | [u] => [charOrReplacement u]
  | u :: v :: us =>
    if isHighSurrogate u && isLowSurrogate v then charOrReplacement (ofSurrogates u v) :: joinSurrogates us
    else charOrReplacement u :: joinSurrogates (v :: us)

end Leasehold.Text
