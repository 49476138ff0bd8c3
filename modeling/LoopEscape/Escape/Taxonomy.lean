import LoopEscape.Dialect.Basic

/-!
# The escapes of a callback loop

The body of a callback loop can end the loop by returning from the function around it, by breaking the
loop, by breaking to a label of the break clause, or by continuing to one that was declared a loop.
Generated code carries the reason, and uses names that belong to the loop alone.
-/

namespace LoopEscape

inductive EscapeReason
  | earlyReturn
  | earlyBreak
  | breakTo (label : String)
  | continueTo (label : String)
deriving DecidableEq, Repr

namespace EscapeReason

def kind : EscapeReason → String
  | earlyReturn => "EarlyReturn"
  | earlyBreak => "EarlyBreak"
  | breakTo _ => "BreakTo"
  | continueTo _ => "ContinueTo"

def label : EscapeReason → Option String
  | earlyReturn | earlyBreak => none
  | breakTo l | continueTo l => some l

def hasPayload : EscapeReason → Bool
  | continueTo _ => false
  | _ => true

def text (r : EscapeReason) : String :=
  match r.label with
  | none => r.kind
  | some l => r.kind ++ "(" ++ l ++ ")"

end EscapeReason

/-! ### Generated names -/

def generatedName (parts : List String) : String := reservedStart ++ "_".intercalate parts

structure LoopNames where
  task : String
  item : String
  slot : String
  value : String
  brk : String
  once : String
  result : String
deriving DecidableEq, Repr

def LoopNames.of (id : Nat) : LoopNames :=
  let n := toString id
  { task := generatedName ["task", n]
    item := generatedName ["item", n]
    slot := generatedName ["slot", n]
    value := generatedName ["value", n]
    brk := generatedName [n, "brk"]
    once := generatedName ["once", n]
    result := generatedName ["res", n] }

/-- The variable for the value of a jump to a label out of the loop with the given number. -/
def breakVariable (id : Nat) (label : String) : String := generatedName [toString id, "brk", label]

structure Taxonomy where
  id : Nat
  escapes : List EscapeLabel
  names : LoopNames
deriving DecidableEq, Repr

namespace Taxonomy

def of (id : Nat) (header : LoopHeader) : Taxonomy := ⟨id, header.escapes, LoopNames.of id⟩

def variants (t : Taxonomy) : List EscapeReason :=
  [.earlyReturn, .earlyBreak] ++ t.escapes.map (fun e => .breakTo e.label) ++
    (t.escapes.filter (·.loops)).map fun e => .continueTo e.label

def payloadVariants (t : Taxonomy) : List EscapeReason := t.variants.filter (·.hasPayload)

def breakVar (t : Taxonomy) (label : String) : String := breakVariable t.id label

def breakVars (t : Taxonomy) : List (String × String) :=
  t.escapes.map fun e => (e.label, t.breakVar e.label)

def hasVariant (t : Taxonomy) (kind : String) (label : Option String) : Bool :=
  t.variants.any fun v => v.kind == kind && v.label == label

def escapeLoops (t : Taxonomy) (label : String) : Option Bool :=
  (t.escapes.find? fun e => e.label == label).map (·.loops)

end Taxonomy

example : (LoopNames.of 3).task = "_cbit_task_3" := by decide +kernel

end LoopEscape
