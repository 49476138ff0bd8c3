import LoopEscape.Text.NormalData
import LoopEscape.Text.CharClass

/-!
# The compatibility normal form of identifiers

Identifiers are equal when their compatibility normal forms are: every character is decomposed,
combining marks are put in the order of their classes, and pairs are composed again from the left.
-/

namespace LoopEscape.Text

/-- Reads a decomposition; one that starts with a mark goes to the base of the one before. -/
def readDecomposition (before : List Nat) (cs : List Char) : List Nat :=
  (cs.splitOn ',').flatMap fun part =>
    match part.splitOn '+' with
    | [] :: marks => before.take 1 ++ marks.map (0x300 + readHex ·)
    | base :: marks => readHex base :: marks.map (0x300 + readHex ·)
    | [] => []

def decompositions : CodeTable (List Nat) := CodeTable.read readDecomposition [] decompositionText

def combiningClasses : CodeTable Nat := CodeTable.read (fun _ => readHex) 0 combiningClassText

def decomposeHangul (code : Nat) : List Nat :=
  let s := code - 0xac00
  let lead := 0x1100 + s / 588
  let vowel := 0x1161 + (s % 588) / 28
  let tail := 0x11a7 + s % 28
  if s % 28 = 0 then [lead, vowel] else [lead, vowel, tail]

def decompose (code : Nat) : List Nat :=
  if code < 128 then [code]
  else if 0xac00 ≤ code && code ≤ 0xd7a3 then decomposeHangul code
  else match decompositions.find? code with
    | some (first, [target]) => [target + (code - first)]
    | some (_, targets) => targets
    | none => [code]

def pairKey (a b : Nat) : Nat := a * 0x110000 + b

def composites : List (List Nat × Nat) := compositeRanges.codes.map fun c => (decompose c, c)

/-- A composite is composed from its last part and from what the other parts are composed to. -/
def compositions : CodeTable Nat where
  entries := ((composites.filterMap fun (parts, c) => do
    let last ← parts.getLast?
    let first ← match parts.dropLast with
      | [first] => some first
      | front => composites.lookup front
    some (pairKey first last, pairKey first last, c)).mergeSort (·.1 ≤ ·.1)).toArray

def combiningClass (code : Nat) : Nat :=
  if code < 128 then 0 else ((combiningClasses.find? code).map (·.2)).getD 0

def insertMark (mark : Nat) : List Nat → List Nat
  | [] => [mark]
  | m :: ms =>
    if combiningClass m ≤ combiningClass mark then m :: insertMark mark ms else mark :: m :: ms

/-- Orders each run of marks by class; `run` holds the marks since the last base character. -/
def orderMarks (run : List Nat) : List Nat → List Nat
  | [] => run
  | c :: cs =>
    if combiningClass c = 0 then run ++ c :: orderMarks [] cs
    else orderMarks (insertMark c run) cs

def composePair (a b : Nat) : Option Nat :=
  if 0x1100 ≤ a && a ≤ 0x1112 && 0x1161 ≤ b && b ≤ 0x1175 then
    some (0xac00 + ((a - 0x1100) * 21 + (b - 0x1161)) * 28)
  else if 0xac00 ≤ a && a ≤ 0xd7a3 && (a - 0xac00) % 28 = 0 && 0x11a8 ≤ b && b ≤ 0x11c2 then
    some (a + (b - 0x11a7))
  else (compositions.find? (pairKey a b)).map (·.2)

/-- Composes from the left.  `base` is the last starter and `marks` what stands between it and the
next character, the latest first: a mark meets the base unless one of its own class or a higher one,
or another starter, stands between. -/
def composeFrom (base : Nat) (marks : List Nat) : List Nat → List Nat
  | [] => base :: marks.reverse
  | c :: cs =>
    let free := match marks with
      | [] => true
      | m :: _ => combiningClass m < combiningClass c
    match if free then composePair base c else none with
    | some composite => composeFrom composite marks cs
    | none =>
      if combiningClass c = 0 then base :: marks.reverse ++ composeFrom c [] cs
      else composeFrom base (c :: marks) cs

def compose : List Nat → List Nat
  | [] => []
  | c :: cs => if combiningClass c = 0 then composeFrom c [] cs else c :: compose cs

def normalForm (name : String) : String :=
  if name.toList.all (·.toNat < 128) then name
  else
    let codes := name.toList.flatMap fun c => decompose c.toNat
    String.ofList ((compose (orderMarks [] codes)).map Char.ofNat)

end LoopEscape.Text
