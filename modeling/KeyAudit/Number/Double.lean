namespace KeyAudit

/-!
# Double-precision numbers

A finite number is a sign, a mantissa below 2^53 and an exponent of two that is
at least -1074; the mantissa is at least 2^52 unless the exponent is -1074.
Rounding goes to the nearest such number, and a tie to the even mantissa.
-/

/-- A number of the binary64 format; all not-a-number values are one. -/
inductive Double where
  | nan
  | infinite (negative : Bool)
  | finite (negative : Bool) (mantissa : Nat) (exponent : Int)
  deriving Repr, DecidableEq

namespace Double

/-- Zero with a sign. -/
def zero (negative : Bool) : Double :=
  .finite negative 0 (-1074)

/-- The number with the given 64 bits. -/
def ofBits (bits : UInt64) : Double :=
  let number := bits.toNat
  let negative := number / Nat.pow 2 63 == 1
  let exponent : Nat := number / Nat.pow 2 52 % Nat.pow 2 11
  let fraction := number % Nat.pow 2 52
  if exponent = 2047 then
    if fraction = 0 then .infinite negative else .nan
  else if exponent = 0 then
    .finite negative fraction (-1074)
  else
    .finite negative (Nat.pow 2 52 + fraction) ((exponent : Int) - 1075)

/-- Quotient rounded to the nearest integer, a tie to the even one. -/
def roundedQuotient (numerator denominator : Nat) : Nat :=
  let quotient := numerator / denominator
  let twice := 2 * (numerator % denominator)
  if denominator < twice ∨ (twice = denominator ∧ quotient % 2 = 1) then
    quotient + 1
  else
    quotient

/-- The number of binary digits. -/
def bitLength (number : Nat) : Nat :=
  if number = 0 then 0 else number.log2 + 1

/-- A quotient scaled down by a power of two, rounded to an integer. -/
def scaledQuotient (numerator denominator : Nat) (exponent : Int) : Nat :=
  match exponent with
  | .ofNat power => roundedQuotient numerator (denominator * Nat.pow 2 power)
  | .negSucc power => roundedQuotient (numerator * Nat.pow 2 (power + 1)) denominator

/-- The double nearest to a quotient; too large a quotient gives infinity. -/
def ofQuotient (negative : Bool) (numerator denominator : Nat) : Double :=
  if numerator = 0 then
    zero negative
  else
    let estimate : Int := (bitLength numerator : Int) - bitLength denominator - 53
    -- the estimate leaves at most 54 binary digits before the point
    let least := max estimate (-1074)
    let exponent :=
      if Nat.pow 2 53 ≤ scaledQuotient numerator denominator least then least + 1 else least
    let mantissa := scaledQuotient numerator denominator exponent
    let (mantissa, exponent) :=
      if mantissa = Nat.pow 2 53 then (Nat.pow 2 52, exponent + 1) else (mantissa, exponent)
    if 971 < exponent then .infinite negative else .finite negative mantissa exponent

/-- The double nearest to a decimal number `digits * 10 ^ exponent`. -/
def ofDecimal (negative : Bool) (digits : Nat) (exponent : Int) : Double :=
  match exponent with
  | .ofNat power => ofQuotient negative (digits * Nat.pow 10 power) 1
  | .negSucc power => ofQuotient negative digits (Nat.pow 10 (power + 1))

/-- The number with the given 32 bits of the binary32 format. -/
def ofSingleBits (bits : UInt32) : Double :=
  let number := bits.toNat
  let negative := number / Nat.pow 2 31 == 1
  let exponent : Nat := number / Nat.pow 2 23 % Nat.pow 2 8
  let fraction := number % Nat.pow 2 23
  if exponent = 255 then
    if fraction = 0 then .infinite negative else .nan
  else if exponent = 0 then
    ofQuotient negative fraction (Nat.pow 2 149)
  else if 150 ≤ exponent then
    ofQuotient negative ((Nat.pow 2 23 + fraction) * Nat.pow 2 (exponent - 150)) 1
  else
    ofQuotient negative (Nat.pow 2 23 + fraction) (Nat.pow 2 (150 - exponent))

/-- The negated number. -/
def negate : Double → Double
  | .nan => .nan
  | .infinite negative => .infinite !negative
  | .finite negative mantissa exponent => .finite (!negative) mantissa exponent

/-- Numerator and denominator of the magnitude of a finite number. -/
def ratio (mantissa : Nat) (exponent : Int) : Nat × Nat :=
  match exponent with
  | .ofNat power => (mantissa * Nat.pow 2 power, 1)
  | .negSucc power => (mantissa, Nat.pow 2 (power + 1))

/-- The integer that a number equals, if it equals one. -/
def toInt? : Double → Option Int
  | .finite negative mantissa exponent =>
      let (numerator, denominator) := ratio mantissa exponent
      if numerator % denominator = 0 then
        let magnitude : Int := (numerator / denominator : Nat)
        some (if negative then -magnitude else magnitude)
      else
        none
  | _ => none

/-- Equality as numbers: the two zeros are equal, and nothing equals not-a-number. -/
def sameNumber : Double → Double → Bool
  | .nan, _ => false
  | _, .nan => false
  | .infinite first, .infinite second => first == second
  | .finite n₁ m₁ e₁, .finite n₂ m₂ e₂ =>
      (m₁ == 0 && m₂ == 0) || (n₁ == n₂ && m₁ == m₂ && e₁ == e₂)
  | _, _ => false

/-- The signed numerator of a number with a denominator. -/
def numerator (negative : Bool) (magnitude : Nat) : Int :=
  if negative then -magnitude else magnitude

/-- Sum, rounded.  A sum of zero has a minus sign only if both numbers have. -/
def add : Double → Double → Double
  | .nan, _ => .nan
  | _, .nan => .nan
  | .infinite first, .infinite second => if first = second then .infinite first else .nan
  | .infinite negative, _ => .infinite negative
  | _, .infinite negative => .infinite negative
  | .finite s₁ m₁ e₁, .finite s₂ m₂ e₂ =>
      let (n₁, d₁) := ratio m₁ e₁
      let (n₂, d₂) := ratio m₂ e₂
      let sum := numerator s₁ (n₁ * d₂) + numerator s₂ (n₂ * d₁)
      let negative := if sum = 0 then s₁ && s₂ else decide (sum < 0)
      ofQuotient negative sum.natAbs (d₁ * d₂)

/-- Whether a number is zero. -/
def isZero : Double → Bool
  | .finite _ mantissa _ => mantissa == 0
  | _ => false

/-- Whether a number has a minus sign. -/
def isNegative : Double → Bool
  | .nan => false
  | .infinite negative => negative
  | .finite negative _ _ => negative

/-- Product, rounded.  An infinite number times zero is not a number. -/
def mul (first second : Double) : Double :=
  let negative := first.isNegative != second.isNegative
  match first, second with
  | .nan, _ => .nan
  | _, .nan => .nan
  | .finite _ m₁ e₁, .finite _ m₂ e₂ =>
      let (n₁, d₁) := ratio m₁ e₁
      let (n₂, d₂) := ratio m₂ e₂
      ofQuotient negative (n₁ * n₂) (d₁ * d₂)
  | first, second => if first.isZero || second.isZero then .nan else .infinite negative

/-- The double nearest to a natural number, unless it is too large. -/
def ofNat? (number : Nat) : Option Double :=
  match ofQuotient false number 1 with
  | .infinite _ => none
  | nearest => some nearest

end Double

end KeyAudit
