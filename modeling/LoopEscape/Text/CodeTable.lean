/-!
# Tables of code points

A table lists ascending, disjoint ranges of code points, each with a value.  It is written as text, in
hexadecimal with blanks or line ends between the entries: `gap-more` or `gap`, the distance of a range's
first code from the last one before and how many more follow it.  It is searched by halving.
-/

namespace LoopEscape.Text

def hexDigit? (c : Char) : Option Nat :=
  if '0' ≤ c && c ≤ '9' then some (c.toNat - 48)
  else if 'a' ≤ c && c ≤ 'f' then some (c.toNat - 87)
  else if 'A' ≤ c && c ≤ 'F' then some (c.toNat - 55)
  else none

def readHex (cs : List Char) : Nat :=
  cs.foldl (fun n c => 16 * n + (hexDigit? c).getD 0) 0

example : readHex "1d4Ff".toList = 0x1d4ff := by decide

structure CodeTable (α : Type) where
  entries : Array (Nat × Nat × α)

namespace CodeTable

variable {α : Type}

/-- Looks for the range that holds `code` among the entries `lo` to `hi`, halving `fuel` times. -/
def search (t : CodeTable α) (code : Nat) : Nat → Nat → Nat → Option (Nat × α)
  | 0, _, _ => none
  | fuel + 1, lo, hi =>
    if lo < hi then
      let mid := (lo + hi) / 2
      match t.entries[mid]? with
      | none => none
      | some (first, last, value) =>
        if code < first then search t code fuel lo mid
        else if last < code then search t code fuel (mid + 1) hi
        else some (first, value)
    else none

def find? (t : CodeTable α) (code : Nat) : Option (Nat × α) :=
  t.search code (t.entries.size + 1) 0 t.entries.size

def readRange (last : Nat) (cs : List Char) : Nat × Nat :=
  let first := last + readHex (cs.takeWhile (· != '-'))
  (first, first + readHex ((cs.dropWhile (· != '-')).drop 1))

def words (text : String) : List (List Char) :=
  (text.toList.splitOnP fun c => c == ' ' || c == '\n').filter (! ·.isEmpty)

/-- Adds an entry `range>value`, or `value` for the code behind `last`.  A value is read with the one
before at hand. -/
def add (readValue : α → List Char → α) : Array (Nat × Nat × α) × Nat × α → List Char →
    Array (Nat × Nat × α) × Nat × α
  | (entries, last, before), entry =>
    let (range, value) := match entry.splitOn '>' with
      | range :: value :: _ => (readRange last range, value)
      | _ => ((last + 1, last + 1), entry)
    let value := readValue before value
    (entries.push (range.1, range.2, value), range.2, value)

def read (readValue : α → List Char → α) (start : α) (text : String) : CodeTable α where
  entries := ((words text).foldl (add readValue) (#[], 0, start)).1

end CodeTable

abbrev CodeRanges := CodeTable Unit

namespace CodeRanges

def read (text : String) : CodeRanges where
  entries := ((CodeTable.words text).foldl (fun (entries, last) entry =>
    let range := CodeTable.readRange last entry
    (entries.push (range.1, range.2, ()), range.2)) ((#[], 0) : Array (Nat × Nat × Unit) × Nat)).1

def codes (t : CodeRanges) : List Nat :=
  t.entries.toList.flatMap fun (first, last, _) => List.range' first (last + 1 - first)

def contains (t : CodeRanges) (code : Nat) : Bool := (t.find? code).isSome

end CodeRanges

end LoopEscape.Text
