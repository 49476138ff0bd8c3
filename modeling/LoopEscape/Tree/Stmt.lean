import LoopEscape.Tree.Expr
import LoopEscape.Dialect.Basic

/-!
# Statements

The statements of the plain language together with those of the dialect: labels on loops, labelled
blocks, jumps with labels and values, and loops driven by callbacks.
-/

namespace LoopEscape

/-- Where a statement is: its span and the innermost function around it. -/
structure Loc where
  span : Span
  function : Option String := none
deriving DecidableEq, Repr, Inhabited

structure Alias where
  span : Span
  name : String
  asName : Option String := none
deriving DecidableEq, Repr, Inhabited

structure WithItem where
  context : Expr
  target : Option Expr := none
deriving Inhabited

/-- What belongs to a loop beyond the plain language: its label, and the variable that receives the
value of a jump out of it. -/
structure LoopMark where
  label : Option String := none
  valueTarget : Option String := none
deriving DecidableEq, Repr, Inhabited

/-- The header of a callback loop.  `takesValue` tells, once labels are resolved, for each label of
the break clause whether the construct it names takes a value. -/
structure CallbackHeader extends LoopHeader where
  takesValue : Option (List (String × Bool)) := none
deriving DecidableEq, Repr, Inhabited

mutual

inductive Stmt
  | function (loc : Loc) (isAsync : Bool) (name : String) (params : Params) (body : List Stmt)
      (decorators : List Expr) (returns : Option Expr)
  | class_ (loc : Loc) (name : String) (bases : List Expr) (keywords : List Keyword)
      (body : List Stmt) (decorators : List Expr)
  | return_ (loc : Loc) (value : Option Expr)
  | delete (loc : Loc) (targets : List Expr)
  | assign (loc : Loc) (targets : List Expr) (value : Expr)
  | augAssign (loc : Loc) (target : Expr) (op : BinOp) (value : Expr)
  | annAssign (loc : Loc) (target typeHint : Expr) (value : Option Expr) (simple : Bool)
  | for_ (loc : Loc) (isAsync : Bool) (mark : LoopMark) (target iter : Expr)
      (body orElse : List Stmt)
  | while_ (loc : Loc) (mark : LoopMark) (test : Expr) (body orElse : List Stmt)
  | if_ (loc : Loc) (test : Expr) (body orElse : List Stmt)
  | with_ (loc : Loc) (isAsync : Bool) (items : List WithItem) (body : List Stmt)
  | match_ (loc : Loc) (subject : Expr) (cases : List MatchCase)
  | raise (loc : Loc) (exc cause : Option Expr)
  | try_ (loc : Loc) (isStar : Bool) (body : List Stmt) (handlers : List Handler)
      (orElse final : List Stmt)
  | assert_ (loc : Loc) (test : Expr) (message : Option Expr)
  | import_ (loc : Loc) (names : List Alias)
  | importFrom (loc : Loc) (module : Option String) (names : List Alias) (level : Nat)
  | supportImport (loc : Loc) (names : List Alias)
  | global (loc : Loc) (names : List String)
  | nonlocal (loc : Loc) (names : List String)
  | expr (loc : Loc) (value : Expr)
  | pass (loc : Loc)
  | break_ (loc : Loc) (label : Option String) (value : Option Expr)
  | continue_ (loc : Loc) (label : Option String)
  | callbackLoop (loc : Loc) (header : CallbackHeader) (target iter : Expr) (body : List Stmt)
  | block (loc : Loc) (label : String) (target : Option String) (body : List Stmt)

inductive Handler
  | mk (loc : Loc) (type : Option Expr) (name : Option String) (body : List Stmt)

inductive MatchCase
  | mk (pattern : CasePattern) (guard : Option Expr) (body : List Stmt)

end

instance : Inhabited Stmt := ⟨.pass default⟩

namespace Stmt

def loc : Stmt → Loc
  | function l .. | class_ l .. | return_ l .. | delete l .. | assign l .. | augAssign l ..
  | annAssign l .. | for_ l .. | while_ l .. | if_ l .. | with_ l .. | match_ l .. | raise l ..
  | try_ l .. | assert_ l .. | import_ l .. | importFrom l .. | supportImport l .. | global l ..
  | nonlocal l .. | expr l .. | pass l | break_ l .. | continue_ l .. | callbackLoop l ..
  | block l .. => l

def isText : Stmt → Bool
  | expr _ (.const _ (.str ..)) => true
  | _ => false

end Stmt

/-- The call of a callback loop: of a method, with type arguments if it has them, or of anything
else. -/
inductive CallForm
  | free (callee : Expr) (args : List Expr) (keywords : List Keyword)
  | method (receiver : Expr) (name : String) (typeArgs : Option Expr) (args : List Expr)
      (keywords : List Keyword)

namespace CallForm

def of? : Expr → Option CallForm
  | .call _ func args keywords =>
    match func with
    | .subscript _ (.member _ receiver name _) typeArgs _ =>
      some (.method receiver name (some typeArgs) args keywords)
    | .member _ receiver name _ => some (.method receiver name none args keywords)
    | func => some (.free func args keywords)
  | _ => none

def args : CallForm → List Expr
  | free _ args _ | method _ _ _ args _ => args

def keywords : CallForm → List Keyword
  | free _ _ keywords | method _ _ _ _ keywords => keywords

end CallForm

end LoopEscape
