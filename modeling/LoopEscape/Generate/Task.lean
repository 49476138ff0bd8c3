import LoopEscape.Generate.Code
import LoopEscape.Scope.Declared

/-!
# The task of a callback loop

The body of a callback loop becomes a generator function that the iterator function's callback polls
once for every element.  The body is wrapped in layers, one for the loop itself and one for each label
of the break clause; a jump to a label leaves its layer, behind which the reason is recorded and the
task suspended for good.
-/

namespace LoopEscape.Generate

def abort (t : Taxonomy) (loc : Loc) (flow : Expr) : Stmt :=
  let s := loc.span
  .expr loc (.yield s (some (call s (attr s (load s t.names.slot) "record") [flow])))

def continueFlow (s : Span) (value : Expr) : Expr := call s (support s "Continue") [value]

def breakFlow (s : Span) (reason : String) (args : List Expr) : Expr :=
  call s (support s "Break") [call s (support s reason) args]

/-- A loop that makes one pass: its `else` clause runs when the pass is finished or continued, and not
when it is broken. -/
def onceLoop (t : Taxonomy) (loc : Loc) (label : Option String) (valueTarget : String)
    (body orElse : List Stmt) : Stmt :=
  .for_ loc false ⟨label, some valueTarget⟩ (store loc.span t.names.once)
    (support loc.span "ONCE") body orElse

def withValue (t : Taxonomy) : List Stmt → List Stmt
  | [] => []
  | [.expr loc value] => [assign loc t.names.value value]
  | s :: rest => s :: withValue t rest

def ownLayer (t : Taxonomy) (loc : Loc) (label : Option String) (body : List Stmt) : List Stmt :=
  let s := loc.span
  [ assign loc t.names.brk (nothing s),
    onceLoop t loc label t.names.brk (withValue t body)
      [abort t loc (continueFlow s (load s t.names.value))],
    abort t loc (breakFlow s "EarlyBreak" [load s t.names.brk]) ]

def escapeLayer (t : Taxonomy) (loc : Loc) (inner : List Stmt) (e : EscapeLabel) : List Stmt :=
  let s := loc.span
  let brk := t.breakVar e.label
  let onBreak := abort t loc (breakFlow s "BreakTo" [text s e.label, load s brk])
  if e.loops then
    let onContinue := abort t loc (breakFlow s "ContinueTo" [text s e.label])
    [assign loc brk (nothing s), onceLoop t loc (some e.label) brk inner [onContinue], onBreak]
  else [.block loc e.label (some brk) inner, onBreak]

def layers (t : Taxonomy) (loc : Loc) (label : Option String) (body : List Stmt) : List Stmt :=
  t.escapes.foldl (escapeLayer t loc) (ownLayer t loc label body)

/-- The task: the declarations, the element bound to the loop's target, and the layers. -/
def task (t : Taxonomy) (loc : Loc) (label : Option String) (decls : Declarations) (target : Expr)
    (extra body : List Stmt) : Stmt :=
  let s := loc.span
  let params := [t.names.item, t.names.slot].map fun n => Param.mk s n none none
  let body := extra ++ declarations loc decls.globals decls.nonlocals ++
    .assign loc [target] (load s t.names.item) ::
    assign loc t.names.value (nothing s) :: layers t loc label body
  .function loc false t.names.task (.mk [] params none [] none) body [] none

end LoopEscape.Generate
