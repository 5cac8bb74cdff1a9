import QuasiNewton.Decimal.Shortest

/-!
# Text of a double

A double is written with the shortest decimal that reads back as it. A `Layout` decides where the
point goes: `Layout.plain` never writes an exponent and drops the point of a whole number,
`Layout.literal` writes every number so that it is seen not to be an integer.
-/

namespace QuasiNewton

/-- How the digits of a decimal are laid out. -/
structure Layout where
  /-- Whether a number whose leading digit has this exponent is written without an exponent. -/
  positional : Int → Bool
  /-- What follows a whole number that is written without an exponent. -/
  whole : String

/-- Always positional, with no point after a whole number. -/
def Layout.plain : Layout where
  positional _ := true
  whole := ""

/-- Positional from `1e-4` up to, but not including, `1e16`. -/
def Layout.literal : Layout where
  positional e := -5 < e && e < 16
  whole := ".0"

namespace Decimal

/-- The exponent of the leading digit. -/
def leading (d : Decimal) : Int :=
  d.exponent + (Nat.toDigits 10 d.digits).length - 1

/-- Write the digits around the point, with the zeros that it takes. -/
def positionalText (d : Decimal) (whole : String) : String :=
  let digits := Nat.toDigits 10 d.digits
  if 0 ≤ d.exponent then
    String.ofList (digits ++ List.replicate d.exponent.toNat '0') ++ whole
  else
    let places := (-d.exponent).toNat
    let padded := List.replicate (places + 1 - digits.length) '0' ++ digits
    String.ofList (padded.take (padded.length - places)) ++ "." ++
      String.ofList (padded.drop (padded.length - places))

/-- Write the leading digit, the other digits after a point, and the exponent. -/
def exponentText (d : Decimal) : String :=
  let mantissa :=
    match Nat.toDigits 10 d.digits with
    | first :: second :: rest => String.ofList (first :: '.' :: second :: rest)
    | digits => String.ofList digits
  mantissa ++ "e" ++ toString d.leading

/-- Write a decimal as the layout says; zero has no exponent. -/
def text (l : Layout) (d : Decimal) : String :=
  if d.digits = 0 || l.positional d.leading then d.positionalText l.whole else d.exponentText

end Decimal

/-- The text of a double: a word for what is not finite, else a sign and the shortest decimal. -/
def Layout.text (l : Layout) (x : Float) : String :=
  if x.isNaN then
    "NaN"
  else
    let sign := if x.toBits >>> 63 = 1 then "-" else ""
    sign ++ if x.isFinite then (Binary.ofBits x.toBits).shortest.text l else "inf"

example : Layout.plain.text 1e21 = "1000000000000000000000" := by decide +kernel

example : Layout.plain.text (-2.5e-7) = "-0.00000025" := by decide +kernel

example : Layout.literal.text 1000 = "1000.0" := by decide +kernel

example : Layout.literal.text 1e-4 = "0.0001" := by decide +kernel

example : Layout.literal.text 5e-324 = "5e-324" := by decide +kernel

-- Half way between two shortest decimals.
example : Layout.literal.text 2.98023223876953125e-8 = "2.9802322387695313e-8" := by decide +kernel

end QuasiNewton
