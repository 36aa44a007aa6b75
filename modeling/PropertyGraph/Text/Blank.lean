/-!
# White space

The characters with the Unicode property `White_Space`, and trimming by it. This is wider than
the four blanks that separate the tokens of a query.
-/

namespace PropertyGraph.Text

/-- Whether a character is white space in Unicode's sense. -/
def isWhite (c : Char) : Bool :=
  let n := c.toNat
  (0x09 ≤ n && n ≤ 0x0D) || n = 0x20 || n = 0x85 || n = 0xA0 || n = 0x1680 ||
    (0x2000 ≤ n && n ≤ 0x200A) || n = 0x2028 || n = 0x2029 || n = 0x202F || n = 0x205F ||
    n = 0x3000

/-- Drops white space at both ends. -/
def trim (s : List Char) : List Char :=
  ((s.dropWhile isWhite).reverse.dropWhile isWhite).reverse

/-- Whether nothing but white space is there. -/
def isBlank (s : List Char) : Bool := s.all isWhite

end PropertyGraph.Text
