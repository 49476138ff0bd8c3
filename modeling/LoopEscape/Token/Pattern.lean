import LoopEscape.Text.CharClass

/-!
# Patterns of the scanner

Each pattern gives the length of the text it matches at the front of a line, zero for no match.  The
scanner takes the first pattern that matches, so `number` comes before `operator` and `operator`
before `word`.
-/

namespace LoopEscape.Pattern

open Text

def digits (p : Char → Bool) : List Char → Nat
  | [] => 0
  | c :: '_' :: d :: cs => if p c then (if p d then 2 + digits p (d :: cs) else 1) else 0
  | c :: cs => if p c then 1 + digits p cs else 0

def prefixedDigits (p : Char → Bool) : List Char → Nat
  | '_' :: cs => let n := digits p cs; if n = 0 then 0 else n + 1
  | cs => digits p cs

def isHexDigit (c : Char) : Bool := (hexDigit? c).isSome

def exponent : List Char → Nat
  | e :: s :: cs =>
    if e == 'e' || e == 'E' then
      if s == '+' || s == '-' then
        let n := digits isAsciiDigit cs; if n = 0 then 0 else n + 2
      else
        let n := digits isAsciiDigit (s :: cs); if n = 0 then 0 else n + 1
    else 0
  | _ => 0

def pointFloat (cs : List Char) : Nat :=
  let whole := digits isAsciiDigit cs
  match cs.drop whole with
  | '.' :: rest =>
    let frac := digits isAsciiDigit rest
    if whole = 0 && frac = 0 then 0
    else
      let n := whole + 1 + frac
      n + exponent (cs.drop n)
  | _ => 0

def expFloat (cs : List Char) : Nat :=
  let whole := digits isAsciiDigit cs
  let e := exponent (cs.drop whole)
  if whole = 0 || e = 0 then 0 else whole + e

def float (cs : List Char) : Nat :=
  let n := pointFloat cs
  if n = 0 then expFloat cs else n

def isImaginaryMark (c : Char) : Bool := c == 'j' || c == 'J'

def withMark (cs : List Char) (n : Nat) : Nat :=
  if n = 0 then 0
  else match cs.drop n with
    | c :: _ => if isImaginaryMark c then n + 1 else 0
    | [] => 0

def imaginary (cs : List Char) : Nat :=
  let n := withMark cs (digits isAsciiDigit cs)
  if n = 0 then withMark cs (float cs) else n

def based (letters : List Char) (p : Char → Bool) : List Char → Nat
  | '0' :: b :: cs =>
    if letters.contains b then
      let n := prefixedDigits p cs; if n = 0 then 0 else n + 2
    else 0
  | _ => 0

def decimal : List Char → Nat
  | c :: cs =>
    if c == '0' then digits (· == '0') (c :: cs)
    else digits isAsciiDigit (c :: cs)
  | [] => 0

def integer (cs : List Char) : Nat :=
  let hex := based ['x', 'X'] isHexDigit cs
  let bin := based ['b', 'B'] (fun c => c == '0' || c == '1') cs
  let oct := based ['o', 'O'] (fun c => '0' ≤ c && c ≤ '7') cs
  if hex ≠ 0 then hex else if bin ≠ 0 then bin else if oct ≠ 0 then oct else decimal cs

def number (cs : List Char) : Nat :=
  let i := imaginary cs
  let f := float cs
  if i ≠ 0 then i else if f ≠ 0 then f else integer cs

def longOperators : List String := ["**=", "//=", ">>=", "<<=", "..."]

def pairOperators : List String :=
  ["!=", "%=", "&=", "**", "*=", "+=", "-=", "->", "//", "/=", ":=", "<<", "<=", "==", ">=", ">>",
   "@=", "^=", "|="]

def singleOperators : List String :=
  ["%", "&", "(", ")", "*", "+", ",", "-", ".", "/", ":", ";", "<", "=", ">", "@", "[", "]", "^",
   "\x7b", "|", "\x7d", "~"]

def operator (cs : List Char) : Nat :=
  if longOperators.contains (String.ofList (cs.take 3)) then 3
  else if pairOperators.contains (String.ofList (cs.take 2)) then 2
  else if singleOperators.contains (String.ofList (cs.take 1)) then 1
  else 0

def word (cs : List Char) : Nat := (cs.takeWhile isWord).length

def isQuote (c : Char) : Bool := c == '\'' || c == '"'

def stringPrefixes : List String := ["", "b", "r", "u", "f", "br", "rb", "fr", "rf"]

def stringStart (cs : List Char) : Option Nat :=
  let n := (cs.take 2).takeWhile (! isQuote ·) |>.length
  match cs.drop n with
  | q :: _ =>
    if isQuote q &&
        stringPrefixes.contains (String.ofList ((cs.take n).map Char.toLower)) then some n
    else none
  | [] => none

def isTriple (q : Char) (cs : List Char) : Bool := cs.take 3 == [q, q, q]

inductive Reach
  | closed (n : Nat)
  | continued
  | broken
deriving DecidableEq, Repr

namespace Reach

def add (k : Nat) : Reach → Reach
  | closed n => closed (n + k)
  | r => r

end Reach

def toQuote (q : Char) : List Char → Reach
  | [] => .broken
  | '\\' :: '\n' :: _ => .continued
  | '\\' :: '\r' :: '\n' :: _ => .continued
  | '\\' :: _ :: cs => (toQuote q cs).add 2
  | c :: cs =>
    if c == '\n' || c == '\\' then .broken
    else if c == q then .closed 1
    else (toQuote q cs).add 1

/-- From the start of a line that continues a string in single quotes: the length up to and
including the closing quote, zero without one. -/
def closingQuote (q : Char) : List Char → Nat
  | [] => 0
  | '\\' :: d :: cs =>
    if d == '\n' then 0
    else let n := closingQuote q cs; if n = 0 then 0 else n + 2
  | c :: cs =>
    if c == '\\' then 0
    else if c == q then 1
    else let n := closingQuote q cs; if n = 0 then 0 else n + 1

def closingTriple (q : Char) : List Char → Nat
  | [] => 0
  | '\\' :: d :: cs =>
    if d == '\n' then 0
    else let n := closingTriple q cs; if n = 0 then 0 else n + 2
  | c :: cs =>
    if c == '\\' then 0
    else if c == q && cs.take 2 == [q, q] then 3
    else let n := closingTriple q cs; if n = 0 then 0 else n + 1

example : number "0x_1F+".toList = 5 ∧ number "1_000j".toList = 6 ∧ number "0777".toList = 1 := by
  decide

example : number "1.e5".toList = 4 ∧ number ".5".toList = 2 ∧ number "...".toList = 0 := by decide

example : operator "**=1".toList = 3 ∧ operator "!".toList = 0 := by decide

example : toQuote '\'' "a\\'b'c".toList = .closed 5 := by decide

example : closingTriple '"' "a\"\"\"\"".toList = 4 := by decide

end LoopEscape.Pattern
