import LoopEscape.Generate.Expand
import LoopEscape.Generate.Lower
import LoopEscape.Label.Resolve

/-!
# Stages of code generation

Labels are resolved, callback loops expanded and labels lowered, in this order.  The stages share one
count of generated names.
-/

namespace LoopEscape

structure Draft where
  body : List Stmt
  nextId : Nat := 1
deriving Inhabited

def unprintable : String := "Unable to avoid backslash in f-string expression part"

def unprintableLoop (source : Source) (loc : Loc) : Failure :=
  .report (Report.unforeseen (source.siteOf loc) (some "while expanding a cbit loop") unprintable)

namespace Draft

def expand (source : Source) (debug : Bool) (d : Draft) : Except Failure (Draft × List LoopSummary) :=
  let e := expandLoops debug d.nextId d.body
  match Expansion.summaries e.loops with
  | .error loc => .error (unprintableLoop source loc)
  | .ok summaries => .ok (⟨e.body, e.nextId⟩, summaries)

def lower (source : Source) (d : Draft) : Except Failure Draft :=
  match lowerLabels d.nextId d.body with
  | .error f => .error (.report (f.report source))
  | .ok (body, nextId) => .ok ⟨body, nextId⟩

def text (d : Draft) : Except Failure String :=
  match moduleText? d.body with
  | none => .error (.invalidValue unprintable)
  | some t => .ok t

end Draft

end LoopEscape
