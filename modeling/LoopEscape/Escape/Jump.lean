import LoopEscape.Text.Quoted

/-!
# Labels and jumps at run time

Every declaration of a label has two exceptions of its own, one for breaking to it and one for
continuing it.  Two declarations of the same name share nothing.
-/

namespace LoopEscape

inductive JumpKind
  | break_
  | continue_
deriving DecidableEq, Repr

def JumpKind.name : JumpKind → String
  | break_ => "Break"
  | continue_ => "Continue"

structure JumpLabel where
  number : Nat
  name : String
deriving DecidableEq, Repr

namespace JumpLabel

def render (l : JumpLabel) : String := "Label(" ++ Text.quote l.name ++ ")"

def className (l : JumpLabel) (kind : JumpKind) : String := kind.name ++ "[" ++ l.name ++ "]"

def catches (clause jump : JumpLabel × JumpKind) : Bool :=
  clause.1.number == jump.1.number && clause.2 == jump.2

theorem catches_self (jump : JumpLabel × JumpKind) : catches jump jump = true := by
  simp [catches]

end JumpLabel

end LoopEscape
