import LoopEscape.Dialect.Attach
import LoopEscape.Diagnostic.Warning

/-!
# Resolving labels

Labels are visible inside the construct that they name, within one function, class or module.  The body
of a callback loop runs in a function of its own, so it sees only the loop's label, the labels of the
loop's break clause and those declared inside.  Every jump has to name a visible label, or stand in a
loop, and be of a kind that its target takes.
-/

namespace LoopEscape

/-! ### Faults -/

inductive LabelProblem
  | loopInClass
  | returnOutsideFunction
  | undeclaredEscape (label : String)
  | escapeNoLoop (label : String)
  | undeclared (label : String)
  | outsideLoop (keyword : String)
  | valueInPlainLoop
  | valueToPlainLoop (label : String)
  | continueBlock (label : String)
  | continueNoLoop (label : String)
deriving DecidableEq, Repr

namespace LabelProblem

def message : LabelProblem → String
  | loopInClass => "cbit loops cannot be used in a class body"
  | returnOutsideFunction => "`return` inside a cbit loop outside of a function"
  | undeclaredEscape l => "label `" ++ l ++ "` is not declared in an enclosing scope"
  | escapeNoLoop l => "`loop " ++ l ++ "`: `" ++ l ++ "` does not name a loop"
  | undeclared l => "use of undeclared label `" ++ l ++ "`"
  | outsideLoop k => "`" ++ k ++ "` outside of a loop"
  | valueInPlainLoop => "`break with` a value inside a native loop"
  | valueToPlainLoop l => "`break " ++ l ++ " with` a value: `" ++ l ++ "` is a native loop"
  | continueBlock l => "cannot `continue` the labeled block `" ++ l ++ "`"
  | continueNoLoop l => "cannot `continue " ++ l ++ "`: it is not declared as a loop"

def hint : LabelProblem → Option String
  | escapeNoLoop l => some ("use `break " ++ l ++ "` instead")
  | valueInPlainLoop | valueToPlainLoop _ =>
    some "only cbit loops and labeled blocks take a value"
  | continueNoLoop l => some ("declare it with `break loop " ++ l ++ "` in the cbit loop header")
  | _ => none

end LabelProblem

/-- What a report on labels is about: a statement, or an entry of a break clause. -/
inductive LabelPlace
  | stmt (loc : Loc)
  | entry (at_ : Position)
deriving DecidableEq, Repr

def LabelPlace.site (source : Source) : LabelPlace → Site
  | stmt loc => source.siteOf loc
  | entry p => p.site source.text

structure LabelFault where
  problem : LabelProblem
  place : LabelPlace
deriving DecidableEq, Repr

def LabelFault.report (source : Source) (f : LabelFault) : Report :=
  Report.make .labelling f.problem.message [f.place.site source] f.problem.hint none

structure UnusedLabel where
  label : String
  at_ : Position
deriving DecidableEq, Repr

def UnusedLabel.report (source : Source) (u : UnusedLabel) : Report :=
  Report.make .unusedLabel
    ("label `" ++ u.label ++ "` is declared in the `break` clause but the loop body never jumps to it")
    [u.at_.site source.text] none none

/-! ### Visible labels -/

inductive LabelKind
  | loop
  | callback
  | block
  | escape
deriving DecidableEq, Repr

structure LabelDecl where
  name : String
  kind : LabelKind
  continues : Bool
  takesValue : Bool
deriving DecidableEq, Repr

namespace LabelDecl

def loop (name : String) : LabelDecl := ⟨name, .loop, true, false⟩

def callback (name : String) : LabelDecl := ⟨name, .callback, true, true⟩

def block (name : String) : LabelDecl := ⟨name, .block, false, true⟩

end LabelDecl

inductive ScopeKind
  | module
  | function
  | class_
deriving DecidableEq, Repr

structure LabelScope where
  kind : ScopeKind
  labels : List LabelDecl := []
  innermost : Option Bool := none
  inCallback : Bool := false
deriving Repr

namespace LabelScope

def lookup (scope : LabelScope) (name : String) : Option LabelDecl :=
  scope.labels.find? fun d => d.name == name

def declare (scope : LabelScope) (d : Option LabelDecl) : LabelScope :=
  { scope with labels := d.toList ++ scope.labels }

def enterLoop (scope : LabelScope) (label : Option String) : LabelScope :=
  { scope.declare (label.map LabelDecl.loop) with innermost := some false }

def enterBlock (scope : LabelScope) (label : String) : LabelScope :=
  scope.declare (some (.block label))

def escape (scope : LabelScope) (e : EscapeLabel) : Except LabelFault LabelDecl :=
  match scope.lookup e.label with
  | none => .error ⟨.undeclaredEscape e.label, .entry e.at_⟩
  | some outer =>
    if e.loops && !outer.continues then .error ⟨.escapeNoLoop e.label, .entry e.at_⟩
    else .ok ⟨e.label, .escape, e.loops, outer.takesValue⟩

def escapes (scope : LabelScope) : List EscapeLabel → Except LabelFault (List LabelDecl)
  | [] => .ok []
  | e :: es =>
    match scope.escape e with
    | .error f => .error f
    | .ok d =>
      match escapes scope es with
      | .error f => .error f
      | .ok ds => .ok (d :: ds)

def enterCallback (scope : LabelScope) (label : Option String) (escapes : List LabelDecl) :
    LabelScope :=
  { kind := scope.kind
    labels := (label.map LabelDecl.callback).toList ++ escapes.reverse
    innermost := some true
    inCallback := true }

end LabelScope

/-! ### Jumps -/

def breakProblem (scope : LabelScope) (label : Option String) (hasValue : Bool) :
    Option LabelProblem :=
  match label with
  | some l =>
    match scope.lookup l with
    | none => some (.undeclared l)
    | some d => if hasValue && !d.takesValue then some (.valueToPlainLoop l) else none
  | none =>
    match scope.innermost with
    | none => some (.outsideLoop "break")
    | some isCallback => if hasValue && !isCallback then some .valueInPlainLoop else none

def continueProblem (scope : LabelScope) (label : Option String) : Option LabelProblem :=
  match label with
  | some l =>
    match scope.lookup l with
    | none => some (.undeclared l)
    | some d =>
      if d.continues then none
      else if d.kind = .block then some (.continueBlock l)
      else some (.continueNoLoop l)
  | none => if scope.innermost.isNone then some (.outsideLoop "continue") else none

/-! ### Checking -/

/-- What checking statements finds: faults, labels never used, and the labels that jumps name and that
are declared outside of the statements. -/
structure LabelCheck where
  faults : List LabelFault := []
  unused : List UnusedLabel := []
  used : List String := []
deriving Repr

namespace LabelCheck

def append (a b : LabelCheck) : LabelCheck :=
  ⟨a.faults ++ b.faults, a.unused ++ b.unused, a.used ++ b.used⟩

instance : Append LabelCheck := ⟨append⟩

def leave (label : Option String) (c : LabelCheck) : LabelCheck :=
  { c with used := c.used.filter fun l => some l != label }

end LabelCheck

/-- What checking a statement finds, and the fault that ended it, if one did.  A fault ends the
innermost statement of a module, definition, loop or block. -/
structure LabelVerdict where
  found : LabelCheck := {}
  fault : Option LabelFault := none
deriving Repr

namespace LabelVerdict

def andThen (a b : LabelVerdict) : LabelVerdict :=
  match a.fault with
  | some _ => a
  | none => ⟨a.found ++ b.found, b.fault⟩

def settle (v : LabelVerdict) : LabelCheck :=
  { v.found with faults := v.found.faults ++ v.fault.toList }

def ofCheck (c : LabelCheck) : LabelVerdict := ⟨c, none⟩

def ofFault (f : LabelFault) : LabelVerdict := ⟨{}, some f⟩

def ofJump (loc : Loc) (label : Option String) : Option LabelProblem → LabelVerdict
  | some (.undeclared l) => ofFault ⟨.undeclared l, .stmt loc⟩
  | problem => ⟨{ used := label.toList }, problem.map fun p => ⟨p, .stmt loc⟩⟩

end LabelVerdict

/-- The labels of a break clause that a body has not used; after a fault in the body none is told. -/
def unusedEscapes (header : LoopHeader) (body : LabelCheck) : List UnusedLabel :=
  if body.faults.isEmpty then
    (header.escapes.filter fun e => !(body.used.filter (some · != header.label)).contains e.label).map
      fun e => ⟨e.label, e.at_⟩
  else []

mutual

def Stmt.checkLabels (scope : LabelScope) : Stmt → LabelVerdict
  | .function _ _ _ _ body _ _ =>
    .ofCheck { Stmt.checkEach { kind := .function } body with used := [] }
  | .class_ _ _ _ _ body _ => .ofCheck { Stmt.checkEach { kind := .class_ } body with used := [] }
  | .return_ loc _ =>
    if scope.inCallback && scope.kind = .module then
      .ofFault ⟨.returnOutsideFunction, .stmt loc⟩ else {}
  | .for_ _ _ mark _ _ body orElse | .while_ _ mark _ body orElse =>
    .ofCheck ((Stmt.checkEach (scope.enterLoop mark.label) body).leave mark.label ++
      Stmt.checkEach scope orElse)
  | .if_ _ _ body orElse =>
    (Stmt.checkUntil scope body).andThen (Stmt.checkUntil scope orElse)
  | .with_ _ _ _ body => Stmt.checkUntil scope body
  | .match_ _ _ cases => MatchCase.checkUntil scope cases
  | .try_ _ _ body handlers orElse final =>
    (Stmt.checkUntil scope body).andThen ((Handler.checkUntil scope handlers).andThen
      ((Stmt.checkUntil scope orElse).andThen (Stmt.checkUntil scope final)))
  | .break_ loc label value => .ofJump loc label (breakProblem scope label value.isSome)
  | .continue_ loc label => .ofJump loc label (continueProblem scope label)
  | .callbackLoop loc header _ _ body =>
    if scope.kind = .class_ then .ofFault ⟨.loopInClass, .stmt loc⟩
    else match scope.escapes header.escapes with
      | .error f => .ofFault f
      | .ok escapes =>
        let inner := Stmt.checkEach (scope.enterCallback header.label escapes) body
        .ofCheck ⟨inner.faults, inner.unused ++ unusedEscapes header.toLoopHeader inner, []⟩
  | .block _ label _ body =>
    .ofCheck ((Stmt.checkEach (scope.enterBlock label) body).leave (some label))
  | _ => {}

/-- Checks statements one by one; a fault in one does not keep the others from being checked. -/
def Stmt.checkEach (scope : LabelScope) : List Stmt → LabelCheck
  | [] => {}
  | s :: rest => (Stmt.checkLabels scope s).settle ++ Stmt.checkEach scope rest

def Stmt.checkUntil (scope : LabelScope) : List Stmt → LabelVerdict
  | [] => {}
  | s :: rest => (Stmt.checkLabels scope s).andThen (Stmt.checkUntil scope rest)

def Handler.checkUntil (scope : LabelScope) : List Handler → LabelVerdict
  | [] => {}
  | .mk _ _ _ body :: rest => (Stmt.checkUntil scope body).andThen (Handler.checkUntil scope rest)

def MatchCase.checkUntil (scope : LabelScope) : List MatchCase → LabelVerdict
  | [] => {}
  | .mk _ _ body :: rest => (Stmt.checkUntil scope body).andThen (MatchCase.checkUntil scope rest)

end

/-! ### Noting what labels take -/

def escapeValues (scope : LabelScope) (header : CallbackHeader) : CallbackHeader :=
  match scope.escapes header.escapes with
  | .error _ => header
  | .ok ds => { header with takesValue := some (ds.map fun d => (d.name, d.takesValue)) }

def LabelScope.enterHeader (scope : LabelScope) (header : CallbackHeader) : LabelScope :=
  match scope.escapes header.escapes with
  | .error _ => scope.enterCallback header.label []
  | .ok ds => scope.enterCallback header.label ds

mutual

def Stmt.noteLabels (scope : LabelScope) : Stmt → Stmt
  | .function loc isAsync name params body decorators returns =>
    .function loc isAsync name params (Stmt.noteAll { kind := .function } body) decorators returns
  | .class_ loc name bases keywords body decorators =>
    .class_ loc name bases keywords (Stmt.noteAll { kind := .class_ } body) decorators
  | .for_ loc isAsync mark target iter body orElse =>
    .for_ loc isAsync mark target iter (Stmt.noteAll (scope.enterLoop mark.label) body)
      (Stmt.noteAll scope orElse)
  | .while_ loc mark test body orElse =>
    .while_ loc mark test (Stmt.noteAll (scope.enterLoop mark.label) body)
      (Stmt.noteAll scope orElse)
  | .if_ loc test body orElse =>
    .if_ loc test (Stmt.noteAll scope body) (Stmt.noteAll scope orElse)
  | .with_ loc isAsync items body => .with_ loc isAsync items (Stmt.noteAll scope body)
  | .match_ loc subject cases => .match_ loc subject (MatchCase.noteAll scope cases)
  | .try_ loc isStar body handlers orElse final =>
    .try_ loc isStar (Stmt.noteAll scope body) (Handler.noteAll scope handlers)
      (Stmt.noteAll scope orElse) (Stmt.noteAll scope final)
  | .callbackLoop loc header target iter body =>
    .callbackLoop loc (escapeValues scope header) target iter
      (Stmt.noteAll (scope.enterHeader header) body)
  | .block loc label target body =>
    .block loc label target (Stmt.noteAll (scope.enterBlock label) body)
  | s => s

def Stmt.noteAll (scope : LabelScope) : List Stmt → List Stmt
  | [] => []
  | s :: rest => Stmt.noteLabels scope s :: Stmt.noteAll scope rest

def Handler.noteAll (scope : LabelScope) : List Handler → List Handler
  | [] => []
  | .mk loc type name body :: rest =>
    .mk loc type name (Stmt.noteAll scope body) :: Handler.noteAll scope rest

def MatchCase.noteAll (scope : LabelScope) : List MatchCase → List MatchCase
  | [] => []
  | .mk pattern guard body :: rest =>
    .mk pattern guard (Stmt.noteAll scope body) :: MatchCase.noteAll scope rest

end

/-! ### Modules -/

def LabelScope.top : LabelScope := { kind := .module }

def checkLabels (body : List Stmt) : LabelCheck := Stmt.checkEach LabelScope.top body

def resolveLabels (body : List Stmt) : List Stmt := Stmt.noteAll LabelScope.top body

/-- Resolves the labels of a source's module: warnings are issued first, then all faults are reported
together. -/
def Source.resolve (d : Display) (log : WarningLog) (source : Source) (body : List Stmt) :
    WarningLog × Except Failure (List Stmt) :=
  let check := checkLabels body
  let (log, raised) := log.issueAll d (check.unused.map (·.report source))
  match raised.or (Report.combine d (check.faults.map (·.report source))) with
  | some r => (log, .error (.report r))
  | none => (log, .ok (resolveLabels body))

end LoopEscape
