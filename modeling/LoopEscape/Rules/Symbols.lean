import LoopEscape.Rules.Future
import LoopEscape.Tree.Rose

/-!
# Rules on names

Every block of a program, that is every module, function, class, lambda and comprehension, has a table
of the names used in it.  Declarations have to come before use, must not clash, and a nonlocal name
must be bound by a function around the block.
-/

namespace LoopEscape

structure SymbolUse where
  param : Bool := false
  bound : Bool := false
  imported : Bool := false
  used : Bool := false
  hinted : Bool := false
  global : Bool := false
  nonlocal : Bool := false
  iterated : Bool := false
deriving DecidableEq, Repr, Inhabited

namespace SymbolUse

def merge (a b : SymbolUse) : SymbolUse :=
  { param := a.param || b.param
    bound := a.bound || b.bound
    imported := a.imported || b.imported
    used := a.used || b.used
    hinted := a.hinted || b.hinted
    global := a.global || b.global
    nonlocal := a.nonlocal || b.nonlocal
    iterated := a.iterated || b.iterated }

def isOwn (u : SymbolUse) : Bool := u.param || u.bound || u.imported

end SymbolUse

inductive BlockKind
  | module
  | function
  | class_
  | comprehension
  | hint
deriving DecidableEq, Repr, Inhabited

abbrev Symbols := List (String × SymbolUse)

inductive Block
  | mk (kind : BlockKind) (symbols : Symbols) (children : List Block)

structure OpenBlock where
  kind : BlockKind
  symbols : Symbols := []
  children : List Block := []
deriving Inhabited

def OpenBlock.get (b : OpenBlock) (name : String) : SymbolUse :=
  (b.symbols.lookup name).getD {}

def OpenBlock.set (b : OpenBlock) (name : String) (u : SymbolUse) : OpenBlock :=
  { b with symbols := (name, u) :: b.symbols.filter fun e => e.1 != name }

abbrev SymbolReader := StateT (List OpenBlock) (Except RuleFault)

structure SymbolContext where
  owner : Option String := none
  hintsAreTexts : Bool := false
  inIterable : Bool := false
  inIteration : Bool := false

namespace SymbolReader

def fail (problem : RuleProblem) (span : Span) : SymbolReader Unit := throw ⟨problem, span⟩

def mangle (owner : Option String) (name : String) : String :=
  match owner with
  | none => name
  | some cls =>
    let cs := name.toList
    let stripped := cls.toList.dropWhile (· == '_')
    if "__".toList.isPrefixOf cs && !"__".toList.isSuffixOf cs && !cs.contains '.' &&
        !stripped.isEmpty then
      "_" ++ String.ofList stripped ++ name
    else name

def current : SymbolReader OpenBlock := do return (← get).headD default

def note (ctx : SymbolContext) (span : Span) (name : String) (u : SymbolUse) : SymbolReader Unit := do
  let name' := mangle ctx.owner name
  let old := (← current).get name'
  if u.param && old.param then fail (.repeatedParam name) span
  let new := old.merge u
  if ctx.inIteration && (new.global || new.nonlocal) then fail (.innerIteration name) span
  let new := if ctx.inIteration then { new with iterated := true } else new
  modify fun
    | [] => []
    | b :: rest => b.set name' new :: rest

def inBlock (kind : BlockKind) (work : SymbolReader Unit) : SymbolReader Unit := do
  modify ({ kind } :: ·)
  work
  modify fun
    | b :: outer :: rest =>
      if b.kind = .hint then outer :: rest
      else { outer with children := outer.children ++ [.mk b.kind b.symbols b.children] } :: rest
    | bs => bs

def noteAt (ctx : SymbolContext) (depth : Nat) (name : String) (u : SymbolUse) : SymbolReader Unit :=
  let name := mangle ctx.owner name
  modify fun bs => bs.mapIdx fun i b => if i = depth then b.set name ((b.get name).merge u) else b

/-- An assignment expression in a comprehension binds in the block around all comprehensions. -/
def bindOutside (ctx : SymbolContext) (span : Span) (name : String) (depth : Nat) :
    List OpenBlock → SymbolReader Unit
  | [] => return ()
  | b :: rest => do
    match b.kind with
    | .comprehension =>
      let u := b.get name
      if u.iterated && u.bound then fail (.rebindsIteration name) span
      bindOutside ctx span name (depth + 1) rest
    | .hint => bindOutside ctx span name (depth + 1) rest
    | .class_ => fail .assignedInClass span
    | .function =>
      note ctx span name (if (b.get name).global then { global := true } else { nonlocal := true })
      noteAt ctx depth name { bound := true }
    | .module =>
      note ctx span name { global := true }
      noteAt ctx depth name { global := true }

def refuseInHint (form : String) (span : Span) : SymbolReader Unit := do
  if (← current).kind = .hint then fail (.inHint form) span

def noteYield (span : Span) : SymbolReader Unit := do
  if (← current).kind = .comprehension then fail .yieldInComprehension span

def nameUse : Access → SymbolUse
  | .load => { used := true }
  | _ => { bound := true }

def noteParams (ctx : SymbolContext) (params : Params) : SymbolReader Unit :=
  (params.positional ++ params.either ++ params.named ++ params.rest.toList ++
    params.namedRest.toList).forM fun p => note ctx p.span p.name { param := true }

def declare (ctx : SymbolContext) (span : Span) (isGlobal : Bool) (names : List String) :
    SymbolReader Unit :=
  names.forM fun name => do
    let u := (← current).get (mangle ctx.owner name)
    let kind := if isGlobal then "global" else "nonlocal"
    if u.param then fail (.declaredParam name kind) span
    if u.used then fail (.declaredAfterUse name kind) span
    if u.hinted then fail (.annotatedDeclared name kind) span
    if u.bound then fail (.declaredAfterAssign name kind) span
    note ctx span name (if isGlobal then { global := true } else { nonlocal := true })

def noteImport (ctx : SymbolContext) (a : Alias) : SymbolReader Unit := do
  if a.name = "*" then
    if (← current).kind ≠ .module then fail .importAll a.span
  else
    let name := a.asName.getD a.name
    note ctx a.span (String.ofList (name.toList.takeWhile (· != '.'))) { imported := true }

end SymbolReader

open SymbolReader

mutual

def Expr.symbols (ctx : SymbolContext) : Expr → SymbolReader Unit
  | .boolOp _ _ values => Expr.symbolsAll ctx values
  | .named s target value => do
    refuseInHint "named expression" s
    if ctx.inIterable then fail .assignedInIterable s
    match target with
    | .name _ id _ =>
      if (← current).kind = .comprehension then bindOutside ctx s id 0 (← get)
    | _ => return ()
    Expr.symbols ctx value
    Expr.symbols ctx target
  | .binary _ left _ right => do
    Expr.symbols ctx left
    Expr.symbols ctx right
  | .unary _ _ operand => Expr.symbols ctx operand
  | .lambda _ params body => do
    Params.defaultSymbols ctx params
    inBlock .function (do
      noteParams { ctx with inIteration := false } params
      Expr.symbols { ctx with inIteration := false } body)
  | .conditional _ test body orElse => do
    Expr.symbols ctx test
    Expr.symbols ctx body
    Expr.symbols ctx orElse
  | .dict _ items => DictItem.symbols ctx items
  | .set _ elements => Expr.symbolsAll ctx elements
  | .comp _ _ element clauses => do
    CompClause.firstSymbols ctx clauses
    inBlock .comprehension (do
      CompClause.symbols { ctx with inIteration := false } true clauses
      Expr.symbols { ctx with inIteration := false } element)
  | .dictComp _ key value clauses => do
    CompClause.firstSymbols ctx clauses
    inBlock .comprehension (do
      CompClause.symbols { ctx with inIteration := false } true clauses
      Expr.symbols { ctx with inIteration := false } value
      Expr.symbols { ctx with inIteration := false } key)
  | .await s value => do
    refuseInHint "await expression" s
    Expr.symbols ctx value
  | .yield s value => do
    refuseInHint "yield expression" s
    Expr.symbolsOption ctx value
    noteYield s
  | .yieldFrom s value => do
    refuseInHint "yield expression" s
    Expr.symbols ctx value
    noteYield s
  | .compare _ left rest => do
    Expr.symbols ctx left
    Expr.comparedSymbols ctx rest
  | .call _ func args keywords => do
    Expr.symbols ctx func
    Expr.symbolsAll ctx args
    Keyword.symbols ctx keywords
  | .formatted _ value _ format => do
    Expr.symbols ctx value
    Expr.symbolsOption ctx format
  | .joined _ parts => Expr.symbolsAll ctx parts
  | .const .. => return ()
  | .member _ value _ _ => Expr.symbols ctx value
  | .subscript _ value index _ => do
    Expr.symbols ctx value
    Expr.symbols ctx index
  | .starred _ value _ => Expr.symbols ctx value
  | .name s id access => note ctx s id (nameUse access)
  | .list _ elements _ => Expr.symbolsAll ctx elements
  | .tuple _ elements _ => Expr.symbolsAll ctx elements
  | .slice _ lower upper step => do
    Expr.symbolsOption ctx lower
    Expr.symbolsOption ctx upper
    Expr.symbolsOption ctx step

def Expr.symbolsAll (ctx : SymbolContext) : List Expr → SymbolReader Unit
  | [] => return ()
  | e :: es => do
    Expr.symbols ctx e
    Expr.symbolsAll ctx es

def Expr.symbolsOption (ctx : SymbolContext) : Option Expr → SymbolReader Unit
  | none => return ()
  | some e => Expr.symbols ctx e

def Expr.comparedSymbols (ctx : SymbolContext) : List (CompareOp × Expr) → SymbolReader Unit
  | [] => return ()
  | (_, e) :: rest => do
    Expr.symbols ctx e
    Expr.comparedSymbols ctx rest

def DictItem.symbols (ctx : SymbolContext) : List DictItem → SymbolReader Unit
  | [] => return ()
  | .pair key value :: items => do
    Expr.symbols ctx key
    Expr.symbols ctx value
    DictItem.symbols ctx items
  | .spread value :: items => do
    Expr.symbols ctx value
    DictItem.symbols ctx items

def CompClause.firstSymbols (ctx : SymbolContext) : List CompClause → SymbolReader Unit
  | [] => return ()
  | .mk _ _ iter _ :: _ => Expr.symbols { ctx with inIterable := true } iter

def CompClause.symbols (ctx : SymbolContext) (isFirst : Bool) : List CompClause → SymbolReader Unit
  | [] => return ()
  | .mk _ target iter conditions :: clauses => do
    Expr.symbols { ctx with inIteration := true } target
    if isFirst then
      Expr.symbolsAll ctx conditions
    else
      Expr.symbols { ctx with inIterable := true } iter
      Expr.symbolsAll ctx conditions
    CompClause.symbols ctx false clauses

def Keyword.symbols (ctx : SymbolContext) : List Keyword → SymbolReader Unit
  | [] => return ()
  | .mk _ _ value :: keywords => do
    Expr.symbols ctx value
    Keyword.symbols ctx keywords

def Param.defaultSymbols (ctx : SymbolContext) : List Param → SymbolReader Unit
  | [] => return ()
  | .mk _ _ _ default :: params => do
    Expr.symbolsOption ctx default
    Param.defaultSymbols ctx params

def Params.defaultSymbols (ctx : SymbolContext) : Params → SymbolReader Unit
  | .mk positional either _ named _ => do
    Param.defaultSymbols ctx positional
    Param.defaultSymbols ctx either
    Param.defaultSymbols ctx named

end

def hintSymbols (ctx : SymbolContext) (hint : Expr) : SymbolReader Unit :=
  if ctx.hintsAreTexts then inBlock .hint (hint.symbols ctx) else hint.symbols ctx

def Params.hintSymbols (ctx : SymbolContext) (params : Params) : SymbolReader Unit :=
  let hints := (params.positional ++ params.either ++ params.rest.toList ++
    params.namedRest.toList ++ params.named).filterMap (·.typeHint)
  hints.forM (LoopEscape.hintSymbols ctx)

mutual

def CasePattern.symbols (ctx : SymbolContext) : CasePattern → SymbolReader Unit
  | .value _ e => e.symbols ctx
  | .singleton .. => return ()
  | .sequence _ patterns => CasePattern.symbolsAll ctx patterns
  | .mapping s keys patterns rest => do
    Expr.symbolsAll ctx keys
    CasePattern.symbolsAll ctx patterns
    rest.forM fun n => note ctx s n { bound := true }
  | .ofClass _ cls patterns _ named => do
    cls.symbols ctx
    CasePattern.symbolsAll ctx patterns
    CasePattern.symbolsAll ctx named
  | .star s name => name.forM fun n => note ctx s n { bound := true }
  | .as_ s none name => name.forM fun n => note ctx s n { bound := true }
  | .as_ s (some pattern) name => do
    CasePattern.symbols ctx pattern
    name.forM fun n => note ctx s n { bound := true }
  | .or_ _ patterns => CasePattern.symbolsAll ctx patterns

def CasePattern.symbolsAll (ctx : SymbolContext) : List CasePattern → SymbolReader Unit
  | [] => return ()
  | p :: ps => do
    CasePattern.symbols ctx p
    CasePattern.symbolsAll ctx ps

end

mutual

def Stmt.symbols (ctx : SymbolContext) : Stmt → SymbolReader Unit
  | .function loc _ name params body decorators returns => do
    note ctx loc.span name { bound := true }
    params.defaultSymbols ctx
    params.hintSymbols ctx
    returns.forM (hintSymbols ctx)
    Expr.symbolsAll ctx decorators
    inBlock .function (do
      noteParams ctx params
      Stmt.symbolsAll ctx body)
  | .class_ loc name bases keywords body decorators => do
    note ctx loc.span name { bound := true }
    Expr.symbolsAll ctx bases
    Keyword.symbols ctx keywords
    Expr.symbolsAll ctx decorators
    inBlock .class_ (Stmt.symbolsAll { ctx with owner := some name } body)
  | .return_ _ value => Expr.symbolsOption ctx value
  | .delete _ targets => Expr.symbolsAll ctx targets
  | .assign _ targets value => do
    Expr.symbolsAll ctx targets
    value.symbols ctx
  | .augAssign _ target _ value => do
    target.symbols ctx
    value.symbols ctx
  | .annAssign _ target typeHint value simple => do
    match target with
    | .name s id _ =>
      let block ← current
      let u := block.get (mangle ctx.owner id)
      if (u.global || u.nonlocal) && block.kind ≠ .module && simple then
        fail (.annotatedDeclared id (if u.global then "global" else "nonlocal")) s
      if simple then note ctx s id { hinted := true, bound := true }
      else if value.isSome then note ctx s id { bound := true }
    | target => target.symbols ctx
    hintSymbols ctx typeHint
    Expr.symbolsOption ctx value
  | .for_ _ _ _ target iter body orElse => do
    target.symbols ctx
    iter.symbols ctx
    Stmt.symbolsAll ctx body
    Stmt.symbolsAll ctx orElse
  | .while_ _ _ test body orElse => do
    test.symbols ctx
    Stmt.symbolsAll ctx body
    Stmt.symbolsAll ctx orElse
  | .if_ _ test body orElse => do
    test.symbols ctx
    Stmt.symbolsAll ctx body
    Stmt.symbolsAll ctx orElse
  | .with_ _ _ items body => do
    items.forM fun item => do
      item.context.symbols ctx
      Expr.symbolsOption ctx item.target
    Stmt.symbolsAll ctx body
  | .match_ _ subject cases => do
    subject.symbols ctx
    MatchCase.symbols ctx cases
  | .raise _ exc cause => do
    Expr.symbolsOption ctx exc
    Expr.symbolsOption ctx cause
  | .try_ _ _ body handlers orElse final => do
    Stmt.symbolsAll ctx body
    Stmt.symbolsAll ctx orElse
    Handler.symbols ctx handlers
    Stmt.symbolsAll ctx final
  | .assert_ _ test message => do
    test.symbols ctx
    Expr.symbolsOption ctx message
  | .import_ _ names | .importFrom _ _ names _ | .supportImport _ names => names.forM (noteImport ctx)
  | .global loc names => declare ctx loc.span true names
  | .nonlocal loc names => declare ctx loc.span false names
  | .expr _ value => value.symbols ctx
  | .pass .. | .break_ .. | .continue_ .. => return ()
  | .callbackLoop _ _ target iter body => do
    target.symbols ctx
    iter.symbols ctx
    Stmt.symbolsAll ctx body
  | .block _ _ _ body => Stmt.symbolsAll ctx body

def Stmt.symbolsAll (ctx : SymbolContext) : List Stmt → SymbolReader Unit
  | [] => return ()
  | s :: rest => do
    Stmt.symbols ctx s
    Stmt.symbolsAll ctx rest

def Handler.symbols (ctx : SymbolContext) : List Handler → SymbolReader Unit
  | [] => return ()
  | .mk loc type name body :: rest => do
    Expr.symbolsOption ctx type
    name.forM fun n => note ctx loc.span n { bound := true }
    Stmt.symbolsAll ctx body
    Handler.symbols ctx rest

def MatchCase.symbols (ctx : SymbolContext) : List MatchCase → SymbolReader Unit
  | [] => return ()
  | .mk pattern guard body :: rest => do
    pattern.symbols ctx
    Expr.symbolsOption ctx guard
    Stmt.symbolsAll ctx body
    MatchCase.symbols ctx rest

end

/-! ### Nonlocal names -/

/-- What is wrong with a name of a block; `visible` are the names that functions around it bind, and
there are none around a module. -/
def SymbolUse.problem (visible : Option (List String)) (name : String) (u : SymbolUse) :
    Option RuleProblem :=
  if u.global then if u.nonlocal then some (.bothDeclared name) else none
  else if u.nonlocal then
    match visible with
    | none => some .nonlocalModule
    | some names => if names.contains name then none else some (.unboundNonlocal name)
  else none

def Block.ownNames (symbols : Symbols) : List String :=
  (symbols.filter fun e => !e.2.global && !e.2.nonlocal && e.2.isOwn).map (·.1)

def Block.globalNames (symbols : Symbols) : List String :=
  (symbols.filter fun e => e.2.global).map (·.1)

mutual

def Block.check (visible : Option (List String)) : Block → Rule
  | .mk kind symbols children => do
    match symbols.findSome? fun e => e.2.problem visible e.1 with
    | some problem => Rule.broken problem default
    | none => Rule.ok
    let around := visible.getD []
    let unhidden := around.filter (!(Block.globalNames symbols).contains ·)
    let inner := match kind with
      | .class_ => "__class__" :: around
      | .function | .comprehension => Block.ownNames symbols ++ unhidden
      | .module | .hint => unhidden
    Block.checkAll (some inner) children

def Block.checkAll (visible : Option (List String)) : List Block → Rule
  | [] => Rule.ok
  | b :: bs => do
    Block.check visible b
    Block.checkAll visible bs

end

def checkSymbols (future : Future) (body : List Stmt) : Rule := do
  let work := Stmt.symbolsAll { hintsAreTexts := future.hintsAreTexts } body
  let ((), blocks) ← work.run [{ kind := .module }]
  match blocks with
  | b :: _ => Block.check none (.mk b.kind b.symbols b.children)
  | [] => Rule.ok

end LoopEscape
