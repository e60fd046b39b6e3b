/-!
# Numbers as text

`Decimal` is the meaning of a written decimal number, an integer times a power of ten, read by
`Decimal.parse?` and turned into an exact rational (`Decimal.toRat`) or into the nearest
floating-point number (`Decimal.toFloat`).  `parseRational?` also reads fractions, and
`ratText` writes a rational in lowest terms.  `Double` is a floating-point number together with
the way it is written, and `floatToRat?` is the exact value of one.
-/

namespace Deduce.Text

/-- The number `± digits · 10 ^ exponent`. -/
structure Decimal where
  /-- Whether a minus sign stands in front. -/
  negative : Bool
  /-- The digits, without the point. -/
  digits : Nat
  /-- The power of ten. -/
  exponent : Int
deriving DecidableEq

/-- The number a list of decimal digits stands for. -/
def digitsValue (cs : List Char) : Nat :=
  cs.foldl (fun n c => 10 * n + (c.toNat - 48)) 0

/-- An optional sign, and what follows it. -/
def splitSign : List Char → Bool × List Char
  | '-' :: cs => (true, cs)
  | '+' :: cs => (false, cs)
  | cs => (false, cs)

/-- The exponent after the digits: nothing, or a mark, an optional sign and digits. -/
def parseExponent? : List Char → Option Int
  | [] => some 0
  | c :: cs =>
    if c = 'e' ∨ c = 'E' then
      let (negative, ds) := splitSign cs
      if ds.isEmpty ∨ !ds.all Char.isDigit then none
      else if negative then some (-(digitsValue ds : Int)) else some (digitsValue ds)
    else none

/-- The digits after the point, and what follows them. -/
def splitFraction : List Char → List Char × List Char
  | '.' :: cs => (cs.takeWhile Char.isDigit, cs.dropWhile Char.isDigit)
  | cs => ([], cs)

/-- Reads a sign, digits, digits after a point and an exponent; at least one digit must come
before the point or after it. -/
def Decimal.parse? (s : String) : Option Decimal :=
  let (negative, body) := splitSign s.toList
  let whole := body.takeWhile Char.isDigit
  let (fraction, rest) := splitFraction (body.dropWhile Char.isDigit)
  if whole.isEmpty && fraction.isEmpty then none
  else (parseExponent? rest).map fun e =>
    ⟨negative, digitsValue (whole ++ fraction), e - fraction.length⟩

/-- The exact value. -/
def Decimal.toRat (d : Decimal) : Rat :=
  let m : Int := if d.negative then -(d.digits : Int) else d.digits
  let scale : Nat := Nat.pow 10 d.exponent.natAbs
  if d.exponent < 0 then mkRat m scale else (m * scale : Int)

/-- The nearest floating-point number; a minus sign in front of zero is kept. -/
def Decimal.toFloat (d : Decimal) : Float :=
  let m := Float.ofScientific d.digits (d.exponent < 0) d.exponent.natAbs
  if d.negative then -m else m

/-- Reads an integer: an optional minus sign and digits. -/
def parseInteger? (s : String) : Option Int :=
  let (negative, ds) := splitSign s.toList
  if ds.isEmpty ∨ !ds.all Char.isDigit then none
  else if negative then some (-(digitsValue ds : Int)) else some (digitsValue ds)

/-- Reads a fraction `p/q` with a nonzero `q`, or a decimal number. -/
def parseRational? (s : String) : Option Rat :=
  match s.splitOn "/" with
  | [p, q] => do
    let p ← parseInteger? p
    let q ← parseInteger? q
    if q = 0 then none else some (p / q : Rat)
  | _ => (Decimal.parse? s).map Decimal.toRat

/-- A rational in lowest terms; the denominator one is left out. -/
def ratText (q : Rat) : String :=
  if q.den = 1 then toString q.num else toString q.num ++ "/" ++ toString q.den

/-- A floating-point number and the way it is written. -/
structure Double where
  /-- How the number is written. -/
  text : String
  /-- Its value. -/
  value : Float

/-- Reads a floating-point number: a decimal, an infinity or not-a-number. -/
def Double.parse? (s : String) : Option Double :=
  if s = "nan" then some ⟨s, 0.0 / 0.0⟩
  else if s = "inf" then some ⟨s, 1.0 / 0.0⟩
  else if s = "-inf" then some ⟨s, -1.0 / 0.0⟩
  else (Decimal.parse? s).map fun d => ⟨s, d.toFloat⟩

/-- The exact value of a finite number as it is written. -/
def Double.toRat? (d : Double) : Option Rat :=
  (Decimal.parse? d.text).map Decimal.toRat

/-- The exact value of a finite floating-point number: its mantissa times a power of two. -/
def floatToRat? (x : Float) : Option Rat :=
  let bits := x.toBits.toNat
  let hidden : Nat := Nat.pow 2 52
  let exponent : Nat := bits / hidden % 2048
  let fraction : Nat := bits % hidden
  if exponent = 2047 then none
  else
    let m : Int := (if exponent = 0 then fraction else fraction + hidden : Nat)
    let signed := if bits < Nat.pow 2 63 then m else -m
    let shift : Int := (max exponent 1 : Nat) - 1075
    let scale : Nat := Nat.pow 2 shift.natAbs
    some (if shift < 0 then mkRat signed scale else (signed * scale : Int))

end Deduce.Text
