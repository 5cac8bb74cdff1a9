/-!
# Shortest decimals

The shortest decimal that reads back as a given binary number. A binary number is the one nearest
to every real in an interval around it, and any decimal in that interval reads back as the
number. Of the decimals with the fewest digits in it, the nearest to the number is chosen.
-/

namespace QuasiNewton

/-- The number `mantissa * 2 ^ exponent`. -/
structure Binary where
  mantissa : Nat
  exponent : Int

/-- The number `digits * 10 ^ exponent`. -/
structure Decimal where
  digits : Nat
  exponent : Int
deriving DecidableEq

namespace Binary

/-- The leading bit of the mantissa of a normal double. -/
def implicitBit : Nat := 4503599627370496

/-- The finite double with these bits, without its sign: the leading bit of the mantissa is
implicit unless the exponent field is zero. -/
def ofBits (bits : UInt64) : Binary :=
  let fraction := (bits % implicitBit.toUInt64).toNat
  let field := (bits / implicitBit.toUInt64 % 2048).toNat
  if field = 0 then ⟨fraction, -1074⟩ else ⟨fraction + implicitBit, (field : Int) - 1075⟩

/-- The pair of naturals that relate as `n * 2 ^ p * 10 ^ q` relates to one. -/
def ratio (n : Nat) (p q : Int) : Nat × Nat :=
  (n * Nat.pow 2 p.toNat * Nat.pow 10 q.toNat, Nat.pow 2 (-p).toNat * Nat.pow 10 (-q).toNat)

/-- The exponent of the leading decimal digit of a number that is not zero. -/
def magnitude (b : Binary) : Int :=
  let (num, den) := ratio b.mantissa b.exponent 0
  if den ≤ num then
    (Nat.toDigits 10 (num / den)).length - 1
  else
    -(Nat.toDigits 10 ((den - 1) / num)).length

/-- The lower end of the interval, in quarters of the last binary place. Below a power of two
doubles lie twice as close. -/
def lowerEnd (b : Binary) : Nat :=
  if b.mantissa = implicitBit ∧ -1074 < b.exponent then 4 * b.mantissa - 1 else 4 * b.mantissa - 2

/-- The upper end of the interval, in quarters of the last binary place. -/
def upperEnd (b : Binary) : Nat :=
  4 * b.mantissa + 2

/-- Compare `n` quarters of the last binary place with a decimal. -/
def compareQuarters (b : Binary) (n : Nat) (d : Decimal) : Ordering :=
  let (num, den) := ratio n (b.exponent - 2) (-d.exponent)
  compare num (d.digits * den)

/-- Whether a decimal reads back as the number. The ends of the interval lie half way to a
neighbour, and half ways are read as the number with the even mantissa. -/
def reads (b : Binary) (d : Decimal) : Bool :=
  match b.compareQuarters b.lowerEnd d, b.compareQuarters b.upperEnd d with
  | .lt, .gt => true
  | .eq, _ => b.mantissa % 2 = 0
  | _, .eq => b.mantissa % 2 = 0
  | _, _ => false

/-- The greatest decimal with this exponent that is not above the number. -/
def floorAt (b : Binary) (exponent : Int) : Decimal :=
  let (num, den) := ratio b.mantissa b.exponent (-exponent)
  ⟨num / den, exponent⟩

/-- Whether the next decimal of the grid is at least as near to the number as the one below. -/
def nearerAbove (b : Binary) (exponent : Int) : Bool :=
  let (num, den) := ratio b.mantissa b.exponent (-exponent)
  den ≤ 2 * (num % den)

/-- The decimal with `n` digits that reads back as the number, if there is one; of two, the
nearer, and the upper one half way between. -/
def withDigits? (b : Binary) (n : Nat) : Option Decimal :=
  let exponent := b.magnitude - n + 1
  let below := b.floorAt exponent
  -- one more than a row of nines has a digit too many
  let above : Decimal :=
    if below.digits + 1 = Nat.pow 10 n then ⟨1, exponent + n⟩ else ⟨below.digits + 1, exponent⟩
  match b.reads below, b.reads above with
  | true, true => some (if b.nearerAbove exponent then above else below)
  | true, false => some below
  | false, true => some above
  | false, false => none

theorem reads_of_withDigits?_eq_some {b : Binary} {n : Nat} {d : Decimal}
    (h : b.withDigits? n = some d) : b.reads d = true := by
  unfold withDigits? at h
  dsimp only at h
  split at h
  · split at h <;> obtain rfl := Option.some.inj h <;> assumption
  · obtain rfl := Option.some.inj h
    assumption
  · obtain rfl := Option.some.inj h
    assumption
  · cases h

/-- The shortest decimal that reads back as the number. Seventeen digits always do. -/
def shortest (b : Binary) : Decimal :=
  if b.mantissa = 0 then ⟨0, 0⟩
  else ((List.range' 1 17).findSome? b.withDigits?).getD ⟨0, 0⟩

end Binary

end QuasiNewton
