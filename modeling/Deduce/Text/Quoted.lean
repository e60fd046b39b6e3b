import Deduce.Text.Printable

/-!
# Quoted text

`quote` writes a text between quotes on one line: the quote is single unless the text holds a
single quote and no double one, the quote in use and the backslash are escaped, line breaks and
tabs have their short forms, and every other character that is not printable is written by its
code point in two, four or eight hexadecimal digits.
-/

namespace Deduce.Text

/-- The digit of a number below sixteen. -/
def hexDigit (n : Nat) : Char :=
  if n < 10 then Char.ofNat (n + 48) else Char.ofNat (n + 87)

/-- The lowest `width` hexadecimal digits of a number, highest first. -/
def hexDigits (width n : Nat) : String :=
  String.ofList ((List.range width).reverse.map fun i => hexDigit (n / Nat.pow 16 i % 16))

/-- A character by its code point, in the shortest of the three escape forms. -/
def escapeCode (c : Char) : String :=
  let n := c.toNat
  if n < 0x100 then "\\x" ++ hexDigits 2 n
  else if n < 0x10000 then "\\u" ++ hexDigits 4 n
  else "\\U" ++ hexDigits 8 n

/-- A character as it is written between the quotes `q`. -/
def escapeChar (q c : Char) : String :=
  if c = q ∨ c = '\\' then String.ofList ['\\', c]
  else if c = '\n' then "\\n"
  else if c = '\r' then "\\r"
  else if c = '\t' then "\\t"
  else if isPrintable c then String.singleton c
  else escapeCode c

/-- The quote around a text. -/
def quoteMark (s : String) : Char :=
  if s.contains '\'' && !s.contains '"' then '"' else '\''

/-- A text between quotes. -/
def quote (s : String) : String :=
  let q := quoteMark s
  String.singleton q ++ String.join (s.toList.map (escapeChar q)) ++ String.singleton q

end Deduce.Text
