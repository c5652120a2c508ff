/-! # Blank characters

Two classes: the white space that may surround a numeral, and the white space of the ASCII range. -/

namespace Leasehold.Text

/-- White space of the ASCII range: space, tab, line feed, vertical tab, form feed, carriage
return. -/
def isAsciiBlank (c : Char) : Bool :=
  c = ' ' || (0x09 ≤ c.toNat && c.toNat ≤ 0x0d)

/-- White space around a numeral: the ASCII blanks and every space or separator above ASCII. The
information separators U+001C to U+001F do not count. -/
def isBlank (c : Char) : Bool :=
  isAsciiBlank c || [0x85, 0xa0, 0x1680, 0x2028, 0x2029, 0x202f, 0x205f, 0x3000].contains c.toNat
    || (0x2000 ≤ c.toNat && c.toNat ≤ 0x200a)

/-- `s` without the characters of class `p` at either end. -/
def trim (p : Char → Bool) (s : List Char) : List Char :=
  ((s.dropWhile p).reverse.dropWhile p).reverse

end Leasehold.Text
