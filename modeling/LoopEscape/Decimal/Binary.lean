/-!
# Binary floating-point numbers

The nonnegative numbers of the 64-bit format, exactly: a mantissa of at most 53 bits and a power of
two.  A decimal is read by rounding to the nearest such number, a tie going to the even mantissa.
-/

namespace LoopEscape

/-- `finite m e` is `m · 2 ^ (e - 1074)`; `infinite` is what lies beyond the largest of them. -/
inductive Binary64
  | finite (mantissa exponent : Nat)
  | infinite
deriving DecidableEq, Repr, Inhabited

def roundDiv (n d : Nat) : Nat :=
  let q := n / d
  let r := n % d
  if 2 * r < d then q else if d < 2 * r then q + 1 else q + q % 2

namespace Binary64

def largestExponent : Nat := 2045

def ofRatio (n d : Nat) : Binary64 :=
  let scaled := n * Nat.pow 2 1074
  let bits := if scaled / d = 0 then 0 else (scaled / d).log2 + 1
  let e := bits - 53
  let m := roundDiv scaled (d * Nat.pow 2 e)
  let (m, e) := if m = Nat.pow 2 53 then (Nat.pow 2 52, e + 1) else (m, e)
  if e ≤ largestExponent then finite m e else infinite

/-- The number nearest to `digits · 10 ^ exponent`, where `digits` has `count` decimal digits.  What
is far out of range is not computed. -/
def ofDecimal (digits count : Nat) (exponent : Int) : Binary64 :=
  if digits = 0 then finite 0 0
  else if (count : Int) + exponent < -330 then finite 0 0
  else if 320 < (digits.log2 : Int) / 4 + exponent then infinite
  else if 0 ≤ exponent then ofRatio (digits * Nat.pow 10 exponent.toNat) 1
  else ofRatio digits (Nat.pow 10 (-exponent).toNat)

example : ofDecimal 1 1 (-1) = finite 0x1999999999999a 1018 := by decide +kernel

example : ofDecimal 1 1 309 = infinite ∧ ofDecimal 5 1 (-324) = finite 1 0 := by decide +kernel

end Binary64

end LoopEscape
