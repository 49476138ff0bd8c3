import LoopEscape.Generate.Task
import LoopEscape.Generate.Dispatch
import LoopEscape.Scope.Bound
import LoopEscape.Tree.Printer

/-!
# Expanding callback loops

Every callback loop is replaced by its task, the call of the iterator function and the conditions on
what it returned.  Outer loops come first: the body of a loop, with the loops in it, becomes the body
of its task, and the inner loops are expanded there.

A task is a function, so the names that the body binds are declared in it.  A function that only binds
a name inside its loops gets a variable for it, and what loops declare is declared by the function.
-/

namespace LoopEscape

open Generate

/-! ### Summaries -/

inductive CallSummary
  | free (callee : String) (args : List String)
  | method (receiver name : String) (typeArgs : Option String) (args : List String)
deriving DecidableEq, Repr

def CallForm.summary? : CallForm → Option CallSummary
  | .free callee args _ => do return .free (← callee.text?) (← args.mapM Expr.text?)
  | .method receiver name none args _ => do
    return .method (← receiver.text?) name none (← args.mapM Expr.text?)
  | .method receiver name (some typeArgs) args _ => do
    return .method (← receiver.text?) name (some (← typeArgs.text?)) (← args.mapM Expr.text?)

structure LoopSummary where
  taxonomy : Taxonomy
  loc : Loc
  header : LoopHeader
  binding : String
  call : CallSummary
  declared : Declarations

def LoopSummary.of? (t : Taxonomy) (loc : Loc) (header : LoopHeader) (target iter : Expr)
    (declared : Declarations) : Option LoopSummary := do
  let binding ← target.text?
  let call ← (CallForm.of? iter).bind CallForm.summary?
  return { taxonomy := t, loc, header, binding, call, declared }

/-! ### Scopes -/

structure NameScope where
  isModule : Bool
  params : List String := []
  globals : List String := []
  nonlocals : List String := []
deriving Repr

namespace NameScope

def ofFunction (params : Params) (body : List Stmt) : NameScope :=
  let d := declaredNames body
  { isModule := false, params := params.names, globals := d.globals, nonlocals := d.nonlocals }

def declare (scope : NameScope) (bound : List String) : Declarations :=
  if scope.isModule then ⟨bound, []⟩
  else ⟨bound.filter scope.globals.contains, bound.filter (!scope.globals.contains ·)⟩

def missing (scope : NameScope) (d : Declarations) : List String :=
  d.nonlocals.filter fun n => !scope.params.contains n && !scope.nonlocals.contains n

end NameScope

def hoistedDeclarations (before : Declarations) (body : List Stmt) : Declarations :=
  (hoistedNames body).without (before ++ declaredNames (Stmt.stripLoopsAll body))

/-! ### Expanding -/

structure ExpandState where
  nextId : Nat := 1
  loops : List (Loc × Option LoopSummary) := []
  wanted : List String := []

abbrev Expand := StateM ExpandState

namespace Expand

def freshId : Expand Nat := modifyGet fun s => (s.nextId, { s with nextId := s.nextId + 1 })

def want (names : List String) : Expand Unit :=
  modify fun s => { s with wanted := s.wanted ++ names }

def record (loc : Loc) (summary : Option LoopSummary) : Expand Unit :=
  modify fun s => { s with loops := (loc, summary) :: s.loops }

def inScope {α : Type} (work : Expand α) : Expand (α × List String) := do
  let outer := (← get).wanted
  modify fun s => { s with wanted := [] }
  let result ← work
  let own := (← get).wanted
  modify fun s => { s with wanted := outer }
  return (result, own)

end Expand

structure ExpandContext where
  debug : Bool
  scope : NameScope
  inClass : Bool := false
  dropping : Bool := false

def scopeStart (loc : Loc) (hoisted : Declarations) (wanted : List String) : List Stmt :=
  declarations loc hoisted.globals hoisted.nonlocals ++ wanted.eraseDups.map (variable_ loc)

namespace ExpandContext

def function (ctx : ExpandContext) (params : Params) (body : List Stmt) : ExpandContext :=
  { debug := ctx.debug, scope := NameScope.ofFunction params body }

def class_ (ctx : ExpandContext) : ExpandContext := { ctx with inClass := true, dropping := false }

/-- Inside a task.  The scope around the loop has taken over what the loop declares, unless a class
keeps it from seeing the loop. -/
def task (ctx : ExpandContext) (t : Taxonomy) (decls : Declarations) (body : List Stmt) :
    ExpandContext :=
  let declared := if ctx.inClass then decls ++ declaredNames body else decls
  { debug := ctx.debug
    scope := { isModule := false, params := [t.names.item, t.names.slot],
               globals := declared.globals, nonlocals := declared.nonlocals }
    dropping := !ctx.inClass }

def taskHoisted (ctx : ExpandContext) (decls : Declarations) (body : List Stmt) : Declarations :=
  if ctx.inClass then hoistedDeclarations decls body else {}

end ExpandContext

mutual

def Stmt.expand (ctx : ExpandContext) : Stmt → Expand (List Stmt)
  | .callbackLoop loc header target iter body => do
    let t := Taxonomy.of (← Expand.freshId) header.toLoopHeader
    let decls := ctx.scope.declare (loopBoundNames target body)
    if !ctx.scope.isModule then Expand.want (ctx.scope.missing decls)
    Expand.record loc (LoopSummary.of? t loc header.toLoopHeader target iter decls)
    let (expanded, wanted) ← Expand.inScope (Stmt.expandAll (ctx.task t decls body) body)
    let start := scopeStart loc (ctx.taskHoisted decls body) wanted
    return task t loc header.label decls target start (orPass loc expanded) ::
      dispatch t loc header iter (!ctx.scope.isModule) ctx.debug
  | .function loc isAsync name params body decorators returns => do
    let (expanded, wanted) ← Expand.inScope (Stmt.expandAll (ctx.function params body) body)
    let start := scopeStart loc (hoistedDeclarations {} body) wanted
    return [.function loc isAsync name params (insertAfterDoc start expanded) decorators returns]
  | .class_ loc name bases keywords body decorators => do
    let body ← Stmt.expandAll ctx.class_ body
    return [.class_ loc name bases keywords body decorators]
  | .global loc names => return if ctx.dropping then [] else [.global loc names]
  | .nonlocal loc names => return if ctx.dropping then [] else [.nonlocal loc names]
  | .for_ loc isAsync mark target iter body orElse => do
    let body ← Stmt.expandAll ctx body
    let orElse ← Stmt.expandAll ctx orElse
    return [.for_ loc isAsync mark target iter (orPass loc body) orElse]
  | .while_ loc mark test body orElse => do
    let body ← Stmt.expandAll ctx body
    let orElse ← Stmt.expandAll ctx orElse
    return [.while_ loc mark test (orPass loc body) orElse]
  | .if_ loc test body orElse => do
    let body ← Stmt.expandAll ctx body
    let orElse ← Stmt.expandAll ctx orElse
    return [.if_ loc test (orPass loc body) orElse]
  | .with_ loc isAsync items body => do
    let body ← Stmt.expandAll ctx body
    return [.with_ loc isAsync items (orPass loc body)]
  | .match_ loc subject cases => do
    let cases ← MatchCase.expandAll ctx loc cases
    return [.match_ loc subject cases]
  | .try_ loc isStar body handlers orElse final => do
    let body ← Stmt.expandAll ctx body
    let handlers ← Handler.expandAll ctx handlers
    let orElse ← Stmt.expandAll ctx orElse
    let final ← Stmt.expandAll ctx final
    return [.try_ loc isStar (orPass loc body) handlers orElse final]
  | .block loc label target body => do
    let body ← Stmt.expandAll ctx body
    return [.block loc label target (orPass loc body)]
  | s => return [s]

def Stmt.expandAll (ctx : ExpandContext) : List Stmt → Expand (List Stmt)
  | [] => return []
  | s :: rest => do
    let stmts ← Stmt.expand ctx s
    let rest ← Stmt.expandAll ctx rest
    return stmts ++ rest

def Handler.expandAll (ctx : ExpandContext) : List Handler → Expand (List Handler)
  | [] => return []
  | .mk loc type name body :: rest => do
    let body ← Stmt.expandAll ctx body
    let rest ← Handler.expandAll ctx rest
    return .mk loc type name (orPass loc body) :: rest

def MatchCase.expandAll (ctx : ExpandContext) (loc : Loc) : List MatchCase → Expand (List MatchCase)
  | [] => return []
  | .mk pattern guard body :: rest => do
    let body ← Stmt.expandAll ctx body
    let rest ← MatchCase.expandAll ctx loc rest
    return .mk pattern guard (orPass loc body) :: rest

end

/-! ### Modules -/

/-- An expanded module: its statements, its loops in the order of their numbers, and the number after
the last. -/
structure Expansion where
  body : List Stmt
  loops : List (Loc × Option LoopSummary)
  nextId : Nat

def Expansion.summaries : List (Loc × Option LoopSummary) → Except Loc (List LoopSummary)
  | [] => .ok []
  | (loc, none) :: _ => .error loc
  | (_, some summary) :: rest => (summaries rest).map (summary :: ·)

def expandLoops (debug : Bool) (firstId : Nat) (body : List Stmt) : Expansion :=
  let work := Stmt.expandAll { debug, scope := { isModule := true } } body
  let (expanded, state) := work.run { nextId := firstId }
  let loc := (expanded.head?.map (·.loc)).getD default
  let expanded := insertAfterDoc (scopeStart loc (hoistedDeclarations {} body) []) expanded
  { body := if state.loops.isEmpty then expanded else (ensureImport expanded).1
    loops := state.loops.reverse
    nextId := state.nextId }

end LoopEscape
