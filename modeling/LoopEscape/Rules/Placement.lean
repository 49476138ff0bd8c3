import LoopEscape.Rules.Future
import LoopEscape.Tree.Rose

/-!
# Rules on placing

Some forms may stand only in some places: a return in a function, an await in an asynchronous one, a
star in a list.  A module, class, function, lambda or comprehension is a unit of code of its own.
-/

namespace LoopEscape

/-! ### Yields and awaits of a unit -/

mutual

def ExprTree.yields : ExprTree → Bool
  | .node (some (.yield ..)) _ => true
  | .node (some (.yieldFrom ..)) _ => true
  | .node (some (.lambda ..)) (params :: _) => ExprTree.yields params
  | .node _ children => ExprTree.yieldsAny children

def ExprTree.yieldsAny : List ExprTree → Bool
  | [] => false
  | t :: ts => ExprTree.yields t || ExprTree.yieldsAny ts

end

mutual

/-- Whether an expression awaits something in the unit that it stands in.  A comprehension hands its
awaits on, unless it is a generator. -/
def ExprTree.awaits : ExprTree → Bool
  | .node (some (.await ..)) _ => true
  | .node (some (.lambda ..)) (params :: _) => ExprTree.awaits params
  | .node (some (.comp _ .generator _ _)) (_ :: .node _ (_ :: iter :: _) :: _) =>
    ExprTree.awaits iter
  | .node (some (.comp _ _ _ clauses)) children =>
    clauses.any (·.isAsync) || ExprTree.awaitsAny children
  | .node (some (.dictComp _ _ _ clauses)) children =>
    clauses.any (·.isAsync) || ExprTree.awaitsAny children
  | .node _ children => ExprTree.awaitsAny children

def ExprTree.awaitsAny : List ExprTree → Bool
  | [] => false
  | t :: ts => ExprTree.awaits t || ExprTree.awaitsAny ts

end

/-- Whether a comprehension's own unit awaits something; what its first clause iterates over stands
outside. -/
def compIsAsync (elements : List Expr) (clauses : List CompClause) : Bool :=
  let first := (clauses.take 1).flatMap fun c => c.target :: c.conditions
  let others := (clauses.drop 1).flatMap fun c => c.target :: c.iter :: c.conditions
  clauses.any (·.isAsync) || (elements ++ first ++ others).any fun e => e.tree.awaits

def Params.exprs (ps : Params) : List Expr :=
  (ps.positional ++ ps.either ++ ps.rest.toList ++ ps.named ++ ps.namedRest.toList).flatMap fun p =>
    p.typeHint.toList ++ p.default.toList

/-- The expressions of a statement that belong to its unit, without those of statements in it. -/
def Stmt.ownExprs : Stmt → List Expr
  | .function _ _ _ params _ decorators returns => params.exprs ++ decorators ++ returns.toList
  | .class_ _ _ bases keywords _ decorators => bases ++ keywords.map (·.value) ++ decorators
  | .return_ _ value => value.toList
  | .delete _ targets => targets
  | .assign _ targets value => targets ++ [value]
  | .augAssign _ target _ value => [target, value]
  | .annAssign _ target typeHint value _ => target :: typeHint :: value.toList
  | .for_ _ _ _ target iter _ _ => [target, iter]
  | .while_ _ _ test _ _ | .if_ _ test _ _ => [test]
  | .with_ _ _ items _ => items.flatMap fun i => i.context :: i.target.toList
  | .match_ _ subject _ => [subject]
  | .raise _ exc cause => exc.toList ++ cause.toList
  | .assert_ _ test message => test :: message.toList
  | .expr _ value => [value]
  | .callbackLoop _ _ target iter _ => [target, iter]
  | _ => []

def Stmt.ownYields (s : Stmt) : Bool := s.ownExprs.any fun e => e.tree.yields

mutual

def Stmt.yieldsAny : List Stmt → Bool
  | [] => false
  | s :: rest => s.ownYields || Stmt.innerYields s || Stmt.yieldsAny rest

def Stmt.innerYields : Stmt → Bool
  | .for_ _ _ _ _ _ body orElse | .while_ _ _ _ body orElse | .if_ _ _ body orElse =>
    Stmt.yieldsAny body || Stmt.yieldsAny orElse
  | .with_ _ _ _ body | .callbackLoop _ _ _ _ body | .block _ _ _ body => Stmt.yieldsAny body
  | .match_ _ _ cases => MatchCase.yieldsAny cases
  | .try_ _ _ body handlers orElse final =>
    Stmt.yieldsAny body || Handler.yieldsAny handlers || Stmt.yieldsAny orElse ||
      Stmt.yieldsAny final
  | _ => false

def Handler.yieldsAny : List Handler → Bool
  | [] => false
  | .mk _ type _ body :: rest =>
    type.any (·.tree.yields) || Stmt.yieldsAny body || Handler.yieldsAny rest

def MatchCase.yieldsAny : List MatchCase → Bool
  | [] => false
  | .mk _ guard body :: rest =>
    guard.any (·.tree.yields) || Stmt.yieldsAny body || MatchCase.yieldsAny rest

end

/-! ### Places -/

inductive UnitKind
  | module
  | class_
  | function
  | asyncFunction
  | lambda
  | comprehension
deriving DecidableEq, Repr

def UnitKind.isFunction : UnitKind → Bool
  | module | class_ => false
  | _ => true

structure Place where
  unit : UnitKind
  asyncGenerator : Bool := false
  inLoop : Option Bool := none
  inGroup : Bool := false
  depth : Nat := 0
  future : Future := {}
  strict : Bool := false

def Place.maxDepth : Nat := 20

namespace Place

def enter (p : Place) (unit : UnitKind) : Place :=
  { unit, future := p.future, strict := p.strict }

def nest (p : Place) : Place := { p with depth := p.depth + 1 }

def loop (p : Place) : Place := { p.nest with inLoop := some true }

def handlers (p : Place) (isStar : Bool) : Place :=
  if isStar then { p.nest with inLoop := some false, inGroup := true } else p.nest

def checkDepth (p : Place) (span : Span) : Rule :=
  Rule.require (p.depth ≤ maxDepth) .nestedTooDeep span

def doubt (p : Place) (holds : Bool) (form : String) (span : Span) : Rule :=
  Rule.require (!(p.strict && holds)) (.doubtful form) span

end Place

/-! ### Doubtful forms -/

inductive ValueKind
  | singleton
  | int
  | number
  | text
  | tuple
  | list
  | dict
  | set
  | generator
  | function
deriving DecidableEq, Repr

def Literal.valueKind : Literal → ValueKind
  | .none | .true | .false | .ellipsis => .singleton
  | .int _ => .int
  | .float _ | .imaginary _ => .number
  | .str .. | .bytes _ => .text

mutual

def Expr.constantKind : Expr → Option ValueKind
  | .const _ c => some c.valueKind
  | .name _ "__debug__" .load => some .singleton
  | .unary _ .not operand => (Expr.constantKind operand).map fun _ => .singleton
  | .unary _ _ operand => Expr.constantKind operand
  | .binary _ left _ right =>
    match Expr.constantKind left, Expr.constantKind right with
    | some .int, some .int => some .int
    | some a, some b => if a = .number || b = .number then some .number else none
    | _, _ => none
  | .tuple _ elements .load => if Expr.allConstant elements then some .tuple else none
  | _ => none

def Expr.allConstant : List Expr → Bool
  | [] => true
  | e :: es => (Expr.constantKind e).isSome && Expr.allConstant es

end

def Expr.valueKind (e : Expr) : Option ValueKind :=
  match e with
  | .tuple .. => some .tuple
  | .list .. | .comp _ .list _ _ => some .list
  | .dict .. | .dictComp .. => some .dict
  | .set .. | .comp _ .set _ _ => some .set
  | .comp _ .generator _ _ => some .generator
  | .lambda .. => some .function
  | .joined .. | .formatted .. => some .text
  | e => e.constantKind

def Expr.isPlainLiteral (e : Expr) : Bool :=
  match e.constantKind with
  | some .singleton | none => false
  | some _ => true

def comparesLiteral (left : Expr) : List (CompareOp × Expr) → Bool
  | [] => false
  | (op, right) :: rest =>
    ((op = .is || op = .isNot) && (left.isPlainLiteral || right.isPlainLiteral)) ||
      comparesLiteral right rest

def Expr.isUncallable (e : Expr) : Bool :=
  match e with
  | .lambda .. => false
  | e => e.valueKind.isSome

/-- Whether a value that has no elements is asked for one, or one with positions for something else. -/
def isDoubtfulIndex (value index : Expr) : Bool :=
  match value.valueKind with
  | some .singleton => !(value matches .name ..) && !(value matches .const _ .true) &&
      !(value matches .const _ .false)
  | some .int | some .number | some .set | some .generator | some .function => true
  | some .tuple | some .list | some .text =>
    match index.valueKind, index with
    | none, _ => false
    | some .int, _ => false
    | _, .const _ .true | _, .const _ .false => false
    | some _, _ => true
  | some .dict | none => false

/-! ### Expressions -/

def checkKeywords (keywords : List Keyword) : Rule :=
  let rec go : List Keyword → List String → Rule
    | [], _ => Rule.ok
    | .mk _ none _ :: rest, seen => go rest seen
    | .mk s (some n) _ :: rest, seen =>
      if n = "__debug__" then Rule.broken .debugName s
      else if seen.contains n then Rule.broken (.repeatedKeyword n) s
      else go rest (n :: seen)
  go keywords []

def checkStored (access : Access) (name : String) (span : Span) : Rule :=
  Rule.require (access = .load || name ≠ "__debug__") .debugName span

def checkParams (params : Params) (span : Span) : Rule :=
  Rule.require (!params.names.contains "__debug__") .debugName span

def Expr.isStarred : Expr → Bool
  | .starred .. => true
  | _ => false

mutual

def Expr.place (p : Place) : Expr → Rule
  | .boolOp _ _ values => Expr.placeAll p values
  | .named _ target value => do
    Expr.place p value
    Expr.place p target
  | .binary _ left _ right => do
    Expr.place p left
    Expr.place p right
  | .unary _ _ operand => Expr.place p operand
  | .lambda s params body => do
    checkParams params s
    Params.placeDefaults p params
    Expr.place (p.enter .lambda) body
  | .conditional _ test body orElse => do
    Expr.place p test
    Expr.place p body
    Expr.place p orElse
  | .dict _ items => DictItem.placeAll p items
  | .set _ elements => Expr.placeElements p elements
  | .comp s kind element clauses => do
    let isAsync := compIsAsync [element] clauses
    let allowed := kind = .generator || p.unit = .asyncFunction || p.unit = .comprehension
    Rule.require (!isAsync || allowed) (.outsideAsync "async for") s
    CompClause.placeFirst p clauses
    CompClause.placeAll (p.enter .comprehension) true clauses
    Expr.place (p.enter .comprehension) element
  | .dictComp s key value clauses => do
    let isAsync := compIsAsync [key, value] clauses
    let allowed := p.unit = .asyncFunction || p.unit = .comprehension
    Rule.require (!isAsync || allowed) (.outsideAsync "async for") s
    CompClause.placeFirst p clauses
    CompClause.placeAll (p.enter .comprehension) true clauses
    Expr.place (p.enter .comprehension) key
    Expr.place (p.enter .comprehension) value
  | .await s value => do
    Rule.require p.unit.isFunction (.outsideFunction "await") s
    Rule.require (p.unit = .asyncFunction || p.unit = .comprehension) (.outsideAsync "await") s
    Expr.place p value
  | .yield s value => do
    Rule.require p.unit.isFunction (.outsideFunction "yield") s
    Expr.placeOption p value
  | .yieldFrom s value => do
    Rule.require p.unit.isFunction (.outsideFunction "yield") s
    Rule.require (p.unit ≠ .asyncFunction) .yieldFromAsync s
    Expr.place p value
  | .compare s left rest => do
    p.doubt (comparesLiteral left rest) "comparison" s
    Expr.place p left
    Expr.placeCompared p rest
  | .call s func args keywords => do
    p.doubt func.isUncallable "call" s
    checkKeywords keywords
    Expr.place p func
    Expr.placeElements p args
    Keyword.placeAll p keywords
  | .formatted _ value _ format => do
    Expr.place p value
    Expr.placeOption p format
  | .joined _ parts => Expr.placeAll p parts
  | .const .. => Rule.ok
  | .member s value name access => do
    checkStored access name s
    Expr.place p value
  | .subscript s value index access => do
    p.doubt (access = .load && isDoubtfulIndex value index) "index" s
    Expr.place p value
    Expr.place p index
  | .starred s _ access =>
    Rule.broken (if access = .store then .starredTarget else .misplacedStar) s
  | .name s id access => checkStored access id s
  | .list s elements access | .tuple s elements access => do
    Rule.require (access ≠ .store || (elements.filter (·.isStarred)).length ≤ 1)
      .twoStarredTargets s
    Expr.placeElements p elements
  | .slice _ lower upper step => do
    Expr.placeOption p lower
    Expr.placeOption p upper
    Expr.placeOption p step

def Expr.placeAll (p : Place) : List Expr → Rule
  | [] => Rule.ok
  | e :: es => do
    Expr.place p e
    Expr.placeAll p es

def Expr.placeElements (p : Place) : List Expr → Rule
  | [] => Rule.ok
  | .starred _ value _ :: es => do
    Expr.place p value
    Expr.placeElements p es
  | e :: es => do
    Expr.place p e
    Expr.placeElements p es

def Expr.placeOption (p : Place) : Option Expr → Rule
  | none => Rule.ok
  | some e => Expr.place p e

def Expr.placeCompared (p : Place) : List (CompareOp × Expr) → Rule
  | [] => Rule.ok
  | (_, e) :: rest => do
    Expr.place p e
    Expr.placeCompared p rest

def DictItem.placeAll (p : Place) : List DictItem → Rule
  | [] => Rule.ok
  | .pair key value :: items => do
    Expr.place p key
    Expr.place p value
    DictItem.placeAll p items
  | .spread value :: items => do
    Expr.place p value
    DictItem.placeAll p items

def CompClause.placeFirst (p : Place) : List CompClause → Rule
  | [] => Rule.ok
  | .mk _ _ iter _ :: _ => Expr.place p iter

def CompClause.placeAll (p : Place) (isFirst : Bool) : List CompClause → Rule
  | [] => Rule.ok
  | .mk _ target iter conditions :: clauses => do
    if isFirst then Rule.ok else Expr.place p iter
    Expr.place p target
    Expr.placeAll p conditions
    CompClause.placeAll p false clauses

def Keyword.placeAll (p : Place) : List Keyword → Rule
  | [] => Rule.ok
  | .mk _ _ value :: keywords => do
    Expr.place p value
    Keyword.placeAll p keywords

def Param.placeDefaults (p : Place) : List Param → Rule
  | [] => Rule.ok
  | .mk _ _ _ default :: params => do
    Expr.placeOption p default
    Param.placeDefaults p params

def Params.placeDefaults (p : Place) : Params → Rule
  | .mk positional either _ named _ => do
    Param.placeDefaults p positional
    Param.placeDefaults p either
    Param.placeDefaults p named

end

/-- The types of parameters and of the result; the rest of the positional arguments may have a star. -/
def placeHints (p : Place) (params : Params) (returns : Option Expr) : Rule :=
  if p.future.hintsAreTexts then Rule.ok
  else do
    (params.positional ++ params.either ++ params.named ++ params.namedRest.toList).forM fun q =>
      Expr.placeOption p q.typeHint
    Expr.placeElements p (params.rest.toList.filterMap (·.typeHint))
    Expr.placeOption p returns

/-! ### Patterns -/

/-- A constant that a pattern can ask for twice: equal numbers count as one. -/
inductive PatternKey
  | literal (c : Literal)
  | number (negative : Bool) (value : Nat)
deriving DecidableEq

def Expr.patternKey? : Expr → Option PatternKey
  | .const _ .true => some (.number false 1)
  | .const _ .false => some (.number false 0)
  | .const _ (.int n) => some (.number false n)
  | .const _ (.str text _) => some (.literal (.str text false))
  | .const _ (.float x) =>
    match x with
    | .finite m e =>
      let value := m * Nat.pow 2 e
      if value % Nat.pow 2 1074 = 0 then some (.number false (value / Nat.pow 2 1074))
      else some (.literal (.float x))
    | .infinite => some (.literal (.float x))
  | .const _ c => some (.literal c)
  | .unary _ .minus (.const _ (.int n)) => some (.number (n ≠ 0) n)
  | _ => none

def Expr.isPatternValue : Expr → Bool
  | .const .. | .member .. => true
  | .unary _ .minus (.const ..) => true
  | .binary .. => true
  | _ => false

def hasRepeated {α : Type} [BEq α] : List α → Bool
  | [] => false
  | x :: xs => xs.contains x || hasRepeated xs

/-- The names that a pattern binds, with the rest checked.  `mayMatchAll` tells that nothing comes
after the pattern that it could keep from being reached. -/
abbrev PatternRule := Except RuleFault (List String)

def captureRule (span : Span) (bound : List String) (name : Option String) : PatternRule :=
  match name with
  | none => .ok bound
  | some n =>
    if n = "__debug__" then .error ⟨.debugName, span⟩
    else if bound.contains n then .error ⟨.captureTwice n, span⟩
    else .ok (n :: bound)

def CasePattern.isStar : CasePattern → Bool
  | .star .. => true
  | _ => false

def sameNames (a b : List String) : Bool := a.all b.contains && b.all a.contains

mutual

def CasePattern.place (p : Place) (mayMatchAll : Bool) (bound : List String) :
    CasePattern → PatternRule
  | .value s e => do
    Rule.require e.isPatternValue .badPatternValue s
    e.place p
    return bound
  | .singleton .. => return bound
  | .sequence s patterns => do
    Rule.require ((patterns.filter (·.isStar)).length ≤ 1) .twoStarPatterns s
    CasePattern.placeAll p bound patterns
  | .mapping s keys patterns rest => do
    Rule.require (keys.all (·.isPatternValue)) .badPatternValue s
    Rule.require (!hasRepeated (keys.filterMap (·.patternKey?))) .repeatedKey s
    Expr.placeAll p keys
    let bound ← CasePattern.placeAll p bound patterns
    captureRule s bound rest
  | .ofClass s cls patterns names named => do
    cls.place p
    Rule.require (!names.contains "__debug__") .debugName s
    Rule.require (!hasRepeated names) (.repeatedAttribute "") s
    let bound ← CasePattern.placeAll p bound patterns
    CasePattern.placeAll p bound named
  | .star s name => captureRule s bound name
  | .as_ s none name => do
    Rule.require mayMatchAll .unreachableCase s
    captureRule s bound name
  | .as_ s (some pattern) name => do
    let bound ← CasePattern.place p mayMatchAll bound pattern
    captureRule s bound name
  | .or_ s patterns => do
    let names ← CasePattern.placeAlternatives p mayMatchAll patterns
    match names with
    | [] => return bound
    | first :: rest =>
      Rule.require (rest.all (sameNames first)) .differentNames s
      first.foldlM (fun bound n => captureRule s bound (some n)) bound

def CasePattern.placeAll (p : Place) (bound : List String) : List CasePattern → PatternRule
  | [] => return bound
  | q :: qs => do
    let bound ← CasePattern.place p true bound q
    CasePattern.placeAll p bound qs

/-- The names that each of several alternatives binds; only the last may match everything. -/
def CasePattern.placeAlternatives (p : Place) (mayMatchAll : Bool) :
    List CasePattern → Except RuleFault (List (List String))
  | [] => return []
  | q :: qs => do
    let names ← CasePattern.place p (mayMatchAll && qs.isEmpty) [] q
    let rest ← CasePattern.placeAlternatives p mayMatchAll qs
    return names :: rest

end

/-! ### Statements -/

def bareIsLast : List Handler → Bool
  | [] => true
  | .mk _ none _ _ :: rest => rest.isEmpty
  | .mk _ (some _) _ _ :: rest => bareIsLast rest

def placeJump (p : Place) (problem : RuleProblem) (span : Span) : Rule :=
  match p.inLoop with
  | some true => Rule.ok
  | some false => Rule.broken .jumpInGroup span
  | none => Rule.broken problem span

def placeVariable (p : Place) (target typeHint : Expr) (value : Option Expr) (simple : Bool) : Rule := do
  let isKept := (p.unit = .module || p.unit = .class_) && !p.future.hintsAreTexts
  Expr.placeOption p value
  match target with
  | .name s id _ => checkStored .store id s
  | .member s v name _ =>
    checkStored .store name s
    Expr.place p v
  | .subscript _ v index _ =>
    Expr.place p v
    Expr.place p index
  | _ => Rule.ok
  match target with
  | .name .. => if isKept then Expr.place p typeHint else Rule.ok
  | _ => if isKept && !simple then Expr.place p typeHint else Rule.ok

def placeImports (names : List Alias) : Rule :=
  names.forM fun a =>
    checkStored .store (a.asName.getD (String.ofList (a.name.toList.takeWhile (· != '.')))) a.span

mutual

def Stmt.place (p : Place) : Stmt → Rule
  | .function loc isAsync name params body decorators returns => do
    Expr.placeAll p decorators
    params.placeDefaults p
    placeHints p params returns
    checkParams params loc.span
    checkStored .store name loc.span
    let inner := p.enter (if isAsync then .asyncFunction else .function)
    Stmt.placeAll { inner with asyncGenerator := isAsync && Stmt.yieldsAny body } body
  | .class_ loc name bases keywords body decorators => do
    Expr.placeAll p decorators
    checkKeywords keywords
    Expr.placeElements p bases
    Keyword.placeAll p keywords
    checkStored .store name loc.span
    Stmt.placeAll (p.enter .class_) body
  | .return_ loc value => do
    Rule.require p.unit.isFunction (.outsideFunction "return") loc.span
    Rule.require (value.isNone || !p.asyncGenerator) .returnInAsyncGenerator loc.span
    Expr.placeOption p value
    Rule.require (!p.inGroup) .jumpInGroup loc.span
  | .delete _ targets => Expr.placeAll p targets
  | .assign _ targets value => do
    value.place p
    Expr.placeAll p targets
  | .augAssign _ target _ value => do
    target.place p
    value.place p
  | .annAssign _ target typeHint value simple => placeVariable p target typeHint value simple
  | .for_ loc isAsync _ target iter body orElse => do
    Rule.require (!isAsync || p.unit = .asyncFunction) (.outsideAsync "async for") loc.span
    p.loop.checkDepth loc.span
    iter.place p
    target.place p
    Stmt.placeAll p.loop body
    Stmt.placeAll p orElse
  | .while_ loc _ test body orElse => do
    p.loop.checkDepth loc.span
    test.place p
    Stmt.placeAll p.loop body
    Stmt.placeAll p orElse
  | .if_ _ test body orElse => do
    test.place p
    Stmt.placeAll p body
    Stmt.placeAll p orElse
  | .with_ loc isAsync items body => do
    Rule.require (!isAsync || p.unit = .asyncFunction) (.outsideAsync "async with") loc.span
    let inner := { p with depth := p.depth + items.length }
    inner.checkDepth loc.span
    items.forM fun item => do
      item.context.place p
      Expr.placeOption p item.target
    Stmt.placeAll inner body
  | .match_ _ subject cases => do
    subject.place p
    MatchCase.placeAll p cases
  | .raise _ exc cause => do
    Expr.placeOption p exc
    Expr.placeOption p cause
  | .try_ loc isStar body handlers orElse final => do
    Rule.require (bareIsLast handlers) .bareExceptNotLast loc.span
    let outer := if final.isEmpty then p else p.nest
    let guarded := if handlers.isEmpty then outer else outer.nest
    guarded.checkDepth loc.span
    Stmt.placeAll guarded body
    Stmt.placeAll outer orElse
    Handler.placeAll (outer.handlers isStar) handlers
    Stmt.placeAll outer final
  | .assert_ loc test message => do
    let isTuple := match test with
      | .tuple _ (_ :: _) _ => true
      | _ => false
    p.doubt isTuple "assertion" loc.span
    test.place p
    Expr.placeOption p message
  | .import_ _ names | .supportImport _ names => placeImports names
  | .importFrom loc module names _ => do
    Rule.require (module ≠ some "__future__" || !p.future.isLate loc.span.line) .lateFuture loc.span
    placeImports names
  | .global .. | .nonlocal .. | .pass .. => Rule.ok
  | .expr _ value => value.place p
  | .break_ loc _ _ => placeJump p .breakOutsideLoop loc.span
  | .continue_ loc _ => placeJump p .continueOutsideLoop loc.span
  | .callbackLoop _ _ _ _ body => Stmt.placeAll p body
  | .block _ _ _ body => Stmt.placeAll p body

def Stmt.placeAll (p : Place) : List Stmt → Rule
  | [] => Rule.ok
  | s :: rest => do
    Stmt.place p s
    Stmt.placeAll p rest

def Handler.placeAll (p : Place) : List Handler → Rule
  | [] => Rule.ok
  | .mk loc type name body :: rest => do
    p.nest.checkDepth loc.span
    Expr.placeOption p type
    checkStored .store (name.getD "") loc.span
    Stmt.placeAll p.nest body
    Handler.placeAll p rest

def MatchCase.placeAll (p : Place) : List MatchCase → Rule
  | [] => Rule.ok
  | .mk pattern guard body :: rest => do
    let _ ← CasePattern.place p (guard.isSome || rest.isEmpty) [] pattern
    Expr.placeOption p guard
    Stmt.placeAll p body
    MatchCase.placeAll p rest

end

def checkPlacement (strict : Bool) (future : Future) (body : List Stmt) : Rule :=
  Stmt.placeAll { unit := .module, future, strict } body

end LoopEscape
