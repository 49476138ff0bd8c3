import LoopEscape.Text.Lines

/-!
# Source annotations

An annotation shows the line an error is on with some lines around it, a caret under the column and,
if asked for, line numbers with an arrow before the line itself.
-/

namespace LoopEscape

open Text

inductive AnnotationFault
  | outOfRange
  | marginCount
  | marginKind
  | noNumber
deriving DecidableEq, Repr

namespace AnnotationFault

def message : AnnotationFault → String
  | outOfRange => "Line number is out of range"
  | marginCount => "Must provide indentation chars for each line"
  | marginKind => "Unrecognized indentation characters value"
  | noNumber => "list index out of range"

end AnnotationFault

inductive Margin
  | same (text : String)
  | each (texts : List String)
deriving Repr

def indentText (text : String) (margin : Option Margin) (level : Int) :
    Except AnnotationFault String :=
  let ls := (lines text.toList).map String.ofList
  match margin with
  | none => .error .marginKind
  | some (.same m) => .ok (String.join (ls.map fun l => repeated m level.toNat ++ l))
  | some (.each ms) =>
    if ms.length ≠ ls.length then .error .marginCount
    else .ok (String.join (List.zipWith (fun m l => repeated m level.toNat ++ l) ms ls))

def endLine (line : List Char) : List Char :=
  if (line.drop (line.length - 2)).contains '\n' then line else line ++ ['\n']

/-- The margins of the shown lines `first` to `last`: right-justified numbers, an arrow before
`line`, and a row of dashes for the caret after it. -/
def numberMargins (first last line : Nat) (caret : Bool) : List String :=
  let number := fun i => if i = line then "---> " ++ toString i ++ " " else toString i ++ " "
  let numbers := (List.range' first (last + 1 - first)).map number
  let width := (numbers.map String.length).foldl max 0
  let justified := numbers.map (padLeft width)
  let before := line + 1 - first
  if caret then justified.take before ++ [repeated "-" width] ++ justified.drop before
  else justified

def annotate (source : String) (line : Int) (column : Option Int) (context : Nat)
    (numbers : Bool) : Except AnnotationFault String :=
  let ls := lines source.toList
  if line < 1 || (ls.length : Int) < line then .error .outOfRange
  else
    let index := line.toNat - 1
    let first := index - context
    let last := min ls.length (index + context + 1)
    let mark : List Char := match column with
      | none => []
      | some c => List.replicate c.toNat '-' ++ ['^', '\n']
    let shown := ((ls.take index).drop first).flatten ++ endLine (ls.getD index []) ++ mark ++
      ((ls.take last).drop (index + 1)).flatten
    let withMargins := if numbers then
        indentText (String.ofList shown)
          (some (.each (numberMargins (first + 1) last line.toNat column.isSome))) 1
      else .ok (String.ofList shown)
    withMargins.map fun text =>
      let cleaned := (bareLines text.toList).map fun l => String.ofList (trimRight l)
      let count := last - first + (if column.isSome then 1 else 0)
      "\n".intercalate (cleaned ++ List.replicate (count - cleaned.length) "")

def annotateAround (source : String) (line : Int) (column : Option Int) (context : Int)
    (numbers : Bool) : Except AnnotationFault String := do
  let shown ← annotate source line column context.toNat false
  if !numbers then return shown
  else if context < 0 then throw .noNumber
  else annotate source line column context.toNat true

example : (annotate "one\n  two\nthree\n" 2 (some 2) 1 true).toOption =
    some "     1 one\n---> 2   two\n---------^\n     3 three" := by decide +kernel

example : (annotate "one\n" 3 none 0 false).toOption = none := by decide +kernel

end LoopEscape
