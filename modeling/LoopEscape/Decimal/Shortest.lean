import LoopEscape.Decimal.Binary

/-!
# Shortest decimals

The shortest decimal that reads back as a given binary number; of several, the nearest.  A number of
the format stands for an interval of reals, whose ends count when the mantissa is even.
-/

namespace LoopEscape

structure Decimal where
  digits : Nat
  exponent : Int
deriving DecidableEq, Repr

namespace Decimal

/-- An interval of positive rationals over one denominator, and a point in it. -/
structure Range where
  low : Nat
  value : Nat
  high : Nat
  denominator : Nat
  closed : Bool

def Range.of (mantissa exponent : Nat) : Range :=
  let below := if mantissa = Nat.pow 2 52 && exponent != 0 then 1 else 2
  let scale := Nat.pow 2 exponent
  ⟨(4 * mantissa - below) * scale, 4 * mantissa * scale, (4 * mantissa + 2) * scale, Nat.pow 2 1076,
    mantissa % 2 == 0⟩

def Range.contains (r : Range) (n d : Nat) : Bool :=
  let low := r.low * d
  let high := r.high * d
  let x := n * r.denominator
  if r.closed then low ≤ x && x ≤ high else low < x && x < high

def leadingZeros (r : Range) : Nat → Nat → Nat
  | 0, j => j
  | fuel + 1, j => if r.denominator ≤ r.value * Nat.pow 10 j then j else leadingZeros r fuel (j + 1)

def countDigits (n : Nat) : Nat := (Nat.toDigits 10 n).length

def magnitude (r : Range) : Int :=
  if r.denominator ≤ r.value then countDigits (r.value / r.denominator)
  else 1 - (leadingZeros r 400 1 : Int)

/-- The multiple of `10 ^ e` in the range that is nearest to the value, if there is one. -/
def onGrid (r : Range) (e : Int) : Option Nat :=
  let up := Nat.pow 10 e.toNat
  let down := Nat.pow 10 (-e).toNat
  let num := r.value * down
  let den := r.denominator * up
  let lower := num / den
  let isIn := fun (n : Nat) => r.contains (n * up) down
  let nearest := roundDiv num den
  if isIn nearest then some nearest
  else if isIn lower then some lower
  else if isIn (lower + 1) then some (lower + 1)
  else none

def search (r : Range) (top : Int) : Nat → Nat → Decimal
  | 0, n => ⟨(onGrid r (top - n)).getD 0, top - n⟩
  | fuel + 1, n =>
    match onGrid r (top - n) with
    | some digits => if digits = 0 then search r top fuel (n + 1) else ⟨digits, top - n⟩
    | none => search r top fuel (n + 1)

def strip : Nat → Nat → Int → Decimal
  | 0, n, e => ⟨n, e⟩
  | fuel + 1, n, e => if n % 10 = 0 && n != 0 then strip fuel (n / 10) (e + 1) else ⟨n, e⟩

def shortest (mantissa exponent : Nat) : Decimal :=
  let r := Range.of mantissa exponent
  let d := search r (magnitude r) 17 1
  strip 20 d.digits d.exponent

end Decimal

structure NumberStyle where
  wholeEnd : String
  infinity : String

namespace NumberStyle

def zeros (n : Nat) : String := String.ofList (List.replicate n '0')

def power (e : Int) : String :=
  let n := toString e.natAbs
  "e" ++ (if e < 0 then "-" else "+") ++ (if n.length < 2 then "0" ++ n else n)

def decimal (style : NumberStyle) (d : Decimal) : String :=
  let ds := toString d.digits
  let point := (ds.length : Int) + d.exponent
  if point ≤ -4 || 16 < point then
    let rest := ds.toList.drop 1
    String.ofList (ds.toList.take 1) ++ (if rest.isEmpty then "" else "." ++ String.ofList rest) ++
      power (point - 1)
  else if point ≤ 0 then "0." ++ zeros (-point).toNat ++ ds
  else if (ds.length : Int) ≤ point then ds ++ zeros (point.toNat - ds.length) ++ style.wholeEnd
  else String.ofList (ds.toList.take point.toNat) ++ "." ++ String.ofList (ds.toList.drop point.toNat)

def write (style : NumberStyle) : Binary64 → String
  | .infinite => style.infinity
  | .finite m e => if m = 0 then "0" ++ style.wholeEnd else style.decimal (Decimal.shortest m e)

example : (NumberStyle.mk ".0" "inf").write (Binary64.ofDecimal 1 1 (-1)) = "0.1" := by
  decide +kernel

example : (NumberStyle.mk ".0" "inf").write (Binary64.ofDecimal 1 1 16) = "1e+16" ∧
    (NumberStyle.mk ".0" "inf").write (Binary64.ofDecimal 5 1 (-324)) = "5e-324" ∧
    (NumberStyle.mk "" "inf").write (Binary64.ofDecimal 25 2 (-1)) = "2.5" := by
  decide +kernel

end NumberStyle

end LoopEscape
