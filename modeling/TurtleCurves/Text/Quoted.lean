import TurtleCurves.Text.Printable

/-!
# Quoted texts

A text in double quotes on one line: quotes, backslashes and the usual control characters are
escaped by a backslash, and any other character that cannot stand for itself is written
`\u{hex}`.
-/

namespace TurtleCurves.Text

/-- The code point of a character in lower-case hexadecimal. -/
def hexText (c : Char) : List Char :=
  Nat.toDigits 16 c.toNat

/-- One character between double quotes. -/
def quoteChar (c : Char) : List Char :=
  match c with
  | '\x00' => ['\\', '0']
  | '\t' => ['\\', 't']
  | '\r' => ['\\', 'r']
  | '\n' => ['\\', 'n']
  | '\\' => ['\\', '\\']
  | '\u0022' => ['\\', '\u0022']
  | c => if isPrintable c then [c] else ['\\', 'u', '\x7b'] ++ hexText c ++ ['\x7d']

/-- A text in double quotes. -/
def quoted (s : String) : String :=
  String.ofList ('\u0022' :: s.toList.flatMap quoteChar ++ ['\u0022'])

end TurtleCurves.Text
