import LoopEscape.Generate.Code

/-!
# Calling the iterator function

The iterator function is called with the callback as its last argument.  What it returns is then taken
apart: the result is assigned, or the jump that the body wanted is made in the code around the loop.
-/

namespace LoopEscape.Generate

def relay (t : Taxonomy) (s : Span) (debug : Bool) : Expr :=
  let keywords := if debug then [Keyword.mk s (some "debug") (.const s .true)] else []
  .call s (support s "relay") [load s t.names.task] keywords

def callWith (s : Span) (extra : Expr) : CallForm → Expr
  | .free callee args keywords => .call s callee (args ++ [extra]) keywords
  | .method receiver name none args keywords =>
    .call s (attr s receiver name) (args ++ [extra]) keywords
  | .method receiver name (some typeArgs) args keywords =>
    .call s (.subscript s (attr s receiver name) typeArgs .load) (args ++ [extra]) keywords

def setResult (loc : Loc) (result : Option String) (value : Expr) : Stmt :=
  match result with
  | none => .pass loc
  | some name => assign loc name value

def outcome (t : Taxonomy) (s : Span) : Expr := load s t.names.result

/-- The value of a flow: of the one that was returned, the reason for which the loop was left. -/
def reason (t : Taxonomy) (s : Span) : Expr := attr s (outcome t s) "value"

def payload (t : Taxonomy) (s : Span) : Expr := attr s (reason t s) "value"

def protocolError (t : Taxonomy) (loc : Loc) : Stmt :=
  .raise loc (some (call loc.span (support loc.span "protocol_error") [outcome t loc.span])) none

def isBreakTo (t : Taxonomy) (s : Span) (label : String) : Expr :=
  .boolOp s .and
    [isInstance s (reason t s) "BreakTo",
     .compare s (attr s (reason t s) "label") [(.eq, text s label)]]

def isContinueTo (t : Taxonomy) (s : Span) (label : String) : Expr :=
  .compare s (reason t s) [(.eq, call s (support s "ContinueTo") [text s label])]

/-- The jump to a label of the break clause; it carries the value if the label's construct takes
one. -/
def breakTo (t : Taxonomy) (loc : Loc) (header : CallbackHeader) (label : String) : Stmt :=
  let takesValue := ((header.takesValue.getD []).lookup label).getD true
  .break_ loc (some label) (if takesValue then some (payload t loc.span) else none)

/-- The conditions on what was returned, in order; returning needs a function to return from. -/
def branches (t : Taxonomy) (loc : Loc) (header : CallbackHeader) (inFunction : Bool) :
    List (Expr × List Stmt) :=
  let s := loc.span
  [ (isInstance s (outcome t s) "Continue", [setResult loc header.result (reason t s)]),
    (.unary s .not (isInstance s (outcome t s) "Break"), [protocolError t loc]) ] ++
  (if inFunction then
    [(isInstance s (reason t s) "EarlyReturn", [.return_ loc (some (payload t s))])] else []) ++
  [(isInstance s (reason t s) "EarlyBreak", [setResult loc header.result (payload t s)])] ++
  (header.escapes.map fun e => (isBreakTo t s e.label, [breakTo t loc header e.label])) ++
  ((header.escapes.filter (·.loops)).map fun e =>
    (isContinueTo t s e.label, [.continue_ loc (some e.label)]))

def dispatch (t : Taxonomy) (loc : Loc) (header : CallbackHeader) (iter : Expr) (inFunction debug : Bool) :
    List Stmt :=
  let s := loc.span
  let called := ((CallForm.of? iter).map (callWith s (relay t s debug))).getD iter
  assign loc t.names.result called ::
    ifChain loc [protocolError t loc] (branches t loc header inFunction)

end LoopEscape.Generate
