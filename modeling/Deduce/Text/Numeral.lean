import Deduce.Text.Decimal

/-!
# Numerals

`parseNumeral?` reads a numeral generously.  A numeral is made of digits, signs, blanks, line
breaks and the marks `/`, `.`, `e` and `E`; no other character may occur in it.  The first mark
divides it, and in each part the digits count and all else is skipped, so that no digits make a
zero.  A minus counts at the very front, and right after the mark of an exponent.

Names and numerals end at the first null character (`untilNull`).
-/

namespace Deduce.Text

/-- A text up to its first null character. -/
def untilNull (s : String) : String := String.ofList (s.toList.takeWhile (· ≠ '\x00'))

/-- The mark of an exponent. -/
def isExponentMark (c : Char) : Bool := c = 'e' || c = 'E'

/-- The marks that divide a numeral. -/
def isMark (c : Char) : Bool := c = '/' || c = '.' || isExponentMark c

/-- The characters of numerals. -/
def isNumeralChar (c : Char) : Bool :=
  c.isDigit || isMark c || c = '-' || c = '+' || c = ' ' || c = '\n'

/-- The number that the digits among some characters stand for. -/
def digitsIn (cs : List Char) : Nat := digitsValue (cs.filter Char.isDigit)

/-- The exponent after its mark, if there is one; it is no place for a fraction. -/
def exponentFrom? : List Char → Option Int
  | [] => some 0
  | _ :: cs =>
    if '/' ∈ cs then none
    else
      let n : Int := digitsIn cs
      some (if cs.head? = some '-' then -n else n)

/-- A fraction of two natural numbers, with a sign; it has no exponent, and the denominator is
not zero. -/
def fractionOf? (negative : Bool) (numerator denominator : List Char) : Option Rat :=
  let d := digitsIn denominator
  if denominator.any isExponentMark || d = 0 then none
  else
    let n : Int := digitsIn numerator
    some (mkRat (if negative then -n else n) d)

/-- A decimal number with the given digits before and after the point. -/
def decimalOf? (negative : Bool) (whole fraction exponent : List Char) : Option Rat :=
  (exponentFrom? exponent).map fun e =>
    Decimal.toRat ⟨negative, digitsIn (whole ++ fraction), e - (fraction.filter Char.isDigit).length⟩

/-- Reads a numeral: an integer, a fraction or a decimal number. -/
def parseNumeral? (s : String) : Option Rat :=
  let cs := (untilNull s).toList
  if cs.all isNumeralChar then
    let cs := cs.dropWhile (· = ' ')
    let negative : Bool := cs.head? = some '-'
    let whole := cs.takeWhile fun c => !isMark c
    match cs.dropWhile fun c => !isMark c with
    | '/' :: rest => fractionOf? negative whole rest
    | '.' :: rest =>
      decimalOf? negative whole (rest.takeWhile fun c => !isExponentMark c)
        (rest.dropWhile fun c => !isExponentMark c)
    | rest => decimalOf? negative whole [] rest
  else none

end Deduce.Text
