/-
White space.

Text is trimmed in three places: number texts before they are checked, operators before
they are recognised, and the operands of an update expression.  All three mean the
characters with the Unicode property White_Space, and nothing else: a zero-width space or
a byte order mark is ordinary text.
-/

namespace ItemStore.Text

/-- The characters with the Unicode property White_Space. -/
def blanks : List Char :=
  ['\t', '\n', '\x0b', '\x0c', '\r', ' ', '\u0085', '\u00a0', '\u1680', '\u2000', '\u2001',
    '\u2002', '\u2003', '\u2004', '\u2005', '\u2006', '\u2007', '\u2008', '\u2009', '\u200a',
    '\u2028', '\u2029', '\u202f', '\u205f', '\u3000']

/-- The character is white space. -/
def isBlank (c : Char) : Bool :=
  blanks.contains c

/-- The characters without the white space at both ends. -/
def trimChars (cs : List Char) : List Char :=
  ((cs.dropWhile isBlank).reverse.dropWhile isBlank).reverse

/-- The text without the white space at both ends. -/
def trim (s : String) : String :=
  .ofList (trimChars s.toList)

end ItemStore.Text
