import LoopEscape.Tree.Rose

/-!
# Names bound in a scope

The names that statements bind in the scope they stand in, in order of binding.  What nested functions,
classes and comprehensions bind stays inside them, but an assignment expression in a comprehension
binds outside.
-/

namespace LoopEscape

def ExprTree.assigned (t : ExprTree) : List String :=
  t.walk.filterMap fun
    | some (.named _ (.name _ id _) _) => some id
    | _ => none

mutual

def ExprTree.bound : ExprTree → List String
  | .node (some (.name _ id access)) _ => if access = .load then [] else [id]
  | .node (some (.lambda ..)) _ => []
  | .node (some (.comp s kind element clauses)) children =>
    ExprTree.assigned (.node (some (.comp s kind element clauses)) children)
  | .node (some (.dictComp s key value clauses)) children =>
    ExprTree.assigned (.node (some (.dictComp s key value clauses)) children)
  | .node _ children => ExprTree.boundAll children

def ExprTree.boundAll : List ExprTree → List String
  | [] => []
  | t :: ts => ExprTree.bound t ++ ExprTree.boundAll ts

end

def Expr.bound (e : Expr) : List String := e.tree.bound

def Expr.boundAll (es : List Expr) : List String := es.flatMap Expr.bound

def Expr.boundOption (e : Option Expr) : List String := Expr.boundAll e.toList

mutual

def CasePattern.bound : CasePattern → List String
  | .value _ e => e.bound
  | .singleton .. => []
  | .sequence _ patterns => CasePattern.boundAll patterns
  | .mapping _ keys patterns rest =>
    rest.toList ++ Expr.boundAll keys ++ CasePattern.boundAll patterns
  | .ofClass _ cls patterns _ named =>
    cls.bound ++ CasePattern.boundAll patterns ++ CasePattern.boundAll named
  | .star _ name => name.toList
  | .as_ _ none name => name.toList
  | .as_ _ (some pattern) name => name.toList ++ CasePattern.bound pattern
  | .or_ _ patterns => CasePattern.boundAll patterns

def CasePattern.boundAll : List CasePattern → List String
  | [] => []
  | p :: ps => CasePattern.bound p ++ CasePattern.boundAll ps

end

/-- The name that an import binds: the new name, or the first part of the module's; a star binds
none. -/
def Alias.bound (a : Alias) : Option String :=
  if a.name = "*" then none
  else some (a.asName.getD (String.ofList (a.name.toList.takeWhile (· != '.'))))

def WithItem.bound (item : WithItem) : List String :=
  item.context.bound ++ Expr.boundOption item.target

mutual

/-- The names that a statement binds in its scope, in order.  A value that a jump carries is not looked
at. -/
def Stmt.bound : Stmt → List String
  | .function _ _ name .. => [name]
  | .class_ _ name .. => [name]
  | .return_ _ value => Expr.boundOption value
  | .delete _ targets => Expr.boundAll targets
  | .assign _ targets value => Expr.boundAll targets ++ value.bound
  | .augAssign _ target _ value => target.bound ++ value.bound
  | .annAssign _ target typeHint value _ =>
    target.bound ++ typeHint.bound ++ Expr.boundOption value
  | .for_ _ _ _ target iter body orElse =>
    target.bound ++ iter.bound ++ Stmt.boundAll body ++ Stmt.boundAll orElse
  | .while_ _ _ test body orElse => test.bound ++ Stmt.boundAll body ++ Stmt.boundAll orElse
  | .if_ _ test body orElse => test.bound ++ Stmt.boundAll body ++ Stmt.boundAll orElse
  | .with_ _ _ items body => items.flatMap WithItem.bound ++ Stmt.boundAll body
  | .match_ _ subject cases => subject.bound ++ MatchCase.boundAll cases
  | .raise _ exc cause => Expr.boundOption exc ++ Expr.boundOption cause
  | .try_ _ _ body handlers orElse final =>
    Stmt.boundAll body ++ Handler.boundAll handlers ++ Stmt.boundAll orElse ++ Stmt.boundAll final
  | .assert_ _ test message => test.bound ++ Expr.boundOption message
  | .import_ _ names | .importFrom _ _ names _ | .supportImport _ names => names.filterMap Alias.bound
  | .global .. | .nonlocal .. | .pass .. | .break_ .. | .continue_ .. => []
  | .expr _ value => value.bound
  | .callbackLoop _ header target iter body =>
    header.result.toList ++ target.bound ++ iter.bound ++ Stmt.boundAll body
  | .block _ _ target body => target.toList ++ Stmt.boundAll body

def Stmt.boundAll : List Stmt → List String
  | [] => []
  | s :: rest => Stmt.bound s ++ Stmt.boundAll rest

def Handler.boundAll : List Handler → List String
  | [] => []
  | .mk _ type name body :: rest =>
    name.toList ++ Expr.boundOption type ++ Stmt.boundAll body ++ Handler.boundAll rest

def MatchCase.boundAll : List MatchCase → List String
  | [] => []
  | .mk pattern guard body :: rest =>
    pattern.bound ++ Expr.boundOption guard ++ Stmt.boundAll body ++ MatchCase.boundAll rest

end

def boundNames (body : List Stmt) : List String := (Stmt.boundAll body).eraseDups

def loopBoundNames (target : Expr) (body : List Stmt) : List String :=
  (target.bound ++ Stmt.boundAll body).eraseDups

end LoopEscape
