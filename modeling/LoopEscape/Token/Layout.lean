import LoopEscape.Token.Basic
import LoopEscape.Text.Lines

/-!
# Laying tokens out

Tokens are written back at their places: blanks fill a gap in a row, and a backslash with a line end
stands for every row that is skipped.  Indentation is written as it was in the source.
-/

namespace LoopEscape

inductive LayoutFault
  | overlap (start stop : Position)
  | unopened
deriving DecidableEq, Repr

namespace LayoutFault

def message : LayoutFault → String
  | overlap s e =>
    s!"start ({s.row},{s.col}) precedes previous end ({e.row},{e.col})"
  | unopened => "pop from empty list"

end LayoutFault

structure Layout where
  pieces : List String := []
  at_ : Position := ⟨1, 0⟩
  indents : List String := []
  atRowStart : Bool := false

namespace Layout

def advance (l : Layout) (start : Position) : Except LayoutFault Layout :=
  if start.before l.at_ then .error (.overlap start l.at_)
  else
    let skipped := start.row - l.at_.row
    let pieces := if skipped = 0 then l.pieces else Text.repeated "\\\n" skipped :: l.pieces
    let col := if skipped = 0 then l.at_.col else 0
    .ok { l with pieces := Text.repeated " " (start.col - col) :: pieces }

/-- Writes the indentation before the first token of a row, when the token stands beyond it. -/
def indent (l : Layout) (start : Position) : Layout :=
  match l.atRowStart, l.indents with
  | true, i :: _ =>
    if i.length ≤ start.col then
      { l with pieces := i :: l.pieces, at_ := ⟨l.at_.row, i.length⟩, atRowStart := false }
    else { l with atRowStart := false }
  | _, _ => l

def write (l : Layout) (t : Token) : Layout :=
  let ends := t.kind == .newline || t.kind == .lineBreak
  { l with
    pieces := t.text :: l.pieces
    at_ := if ends then ⟨t.stop.row + 1, 0⟩ else t.stop }

def add (l : Layout) (t : Token) : Except LayoutFault Layout :=
  match t.kind with
  | .encoding => .ok l
  | .indent => .ok { l with indents := t.text :: l.indents }
  | .dedent =>
    match l.indents with
    | [] => .error .unopened
    | _ :: is => .ok { l with indents := is, at_ := t.stop }
  | .newline | .lineBreak =>
    (advance { l with atRowStart := true } t.start).map fun l => l.write t
  | _ => ((l.indent t.start).advance t.start).map fun l => l.write t

def addAll (l : Layout) : List Token → Except LayoutFault Layout
  | [] => .ok l
  | t :: ts =>
    if t.kind = .endMarker then .ok l
    else match l.add t with
      | .error e => .error e
      | .ok l => addAll l ts

end Layout

def layout (ts : List Token) : Except LayoutFault String :=
  (({} : Layout).addAll ts).map fun l => String.join l.pieces.reverse

end LoopEscape
