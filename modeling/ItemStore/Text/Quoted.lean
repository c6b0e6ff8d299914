/-
Texts and byte strings as messages quote them.

A quoted text keeps what can be seen, escapes the quote, the backslash and four controls
by a letter, and writes everything else as its code point in braces.  A quoted byte string
keeps printable ASCII and writes every other byte as two hexadecimal digits.
-/
import ItemStore.Text.Printable

namespace ItemStore.Text

/-- The hexadecimal digits of a number, without leading zeros and in lower case. -/
def hex (n : Nat) : List Char :=
  Nat.toDigits 16 n

/-- One character of a quoted text. -/
def quoteChar (c : Char) : List Char :=
  match c with
  | '\x00' => ['\\', '0']
  | '\t' => ['\\', 't']
  | '\r' => ['\\', 'r']
  | '\n' => ['\\', 'n']
  | '"' => ['\\', '"']
  | '\\' => ['\\', '\\']
  | c => if isPrintable c then [c] else ['\\', 'u', '\x7b'] ++ hex c.toNat ++ ['\x7d']

/-- The text in double quotes. -/
def quoted (s : String) : String :=
  .ofList ('"' :: s.toList.flatMap quoteChar ++ ['"'])

/-- One byte of a quoted byte string. -/
def quoteByte (b : UInt8) : List Char :=
  match Char.ofNat b.toNat with
  | '\x00' => ['\\', '0']
  | '\t' => ['\\', 't']
  | '\r' => ['\\', 'r']
  | '\n' => ['\\', 'n']
  | '"' => ['\\', '"']
  | '\\' => ['\\', '\\']
  | c =>
    if 32 ≤ b && b < 127 then [c]
    else ['\\', 'x'] ++ (if b < 16 then ['0'] else []) ++ hex b.toNat

/-- The bytes in double quotes, marked as a byte string. -/
def quotedBytes (bytes : List UInt8) : String :=
  .ofList ('b' :: '"' :: bytes.flatMap quoteByte ++ ['"'])

/-- The texts between two brackets, separated by commas. -/
def bracketed (opening closing : String) (items : List String) : String :=
  opening ++ ", ".intercalate items ++ closing

end ItemStore.Text
