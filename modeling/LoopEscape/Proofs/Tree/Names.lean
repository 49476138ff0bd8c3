import LoopEscape.Scope.Bound

/-!
# Names that occur in statements

Every name that statements read, assign, delete or bind, at any depth.  Names that are only declared
global or nonlocal do not count, and labels are no names.
-/

namespace LoopEscape

def ExprTree.names (t : ExprTree) : List String :=
  t.labels.filterMap fun
    | some (.name _ id _) => some id
    | _ => none

def Expr.names (e : Expr) : List String := e.tree.names

def Expr.namesOption (e : Option Expr) : List String := e.toList.flatMap Expr.names

def Keyword.names (k : Keyword) : List String := k.value.names

def WithItem.names (item : WithItem) : List String :=
  item.context.names ++ Expr.namesOption item.target

mutual

def CasePattern.names : CasePattern → List String
  | .value _ e => e.names
  | .singleton .. => []
  | .sequence _ patterns => CasePattern.namesAll patterns
  | .mapping _ keys patterns rest =>
    rest.toList ++ keys.flatMap Expr.names ++ CasePattern.namesAll patterns
  | .ofClass _ cls patterns _ named =>
    cls.names ++ CasePattern.namesAll patterns ++ CasePattern.namesAll named
  | .star _ name => name.toList
  | .as_ _ none name => name.toList
  | .as_ _ (some pattern) name => name.toList ++ CasePattern.names pattern
  | .or_ _ patterns => CasePattern.namesAll patterns

def CasePattern.namesAll : List CasePattern → List String
  | [] => []
  | p :: ps => CasePattern.names p ++ CasePattern.namesAll ps

end

mutual

def Stmt.names : Stmt → List String
  | .function _ _ name params body decorators returns =>
    name :: (params.names ++ params.tree.names ++ Stmt.namesAll body ++
      decorators.flatMap Expr.names ++ Expr.namesOption returns)
  | .class_ _ name bases keywords body decorators =>
    name :: (bases.flatMap Expr.names ++ keywords.flatMap Keyword.names ++ Stmt.namesAll body ++
      decorators.flatMap Expr.names)
  | .return_ _ value => Expr.namesOption value
  | .delete _ targets => targets.flatMap Expr.names
  | .assign _ targets value => targets.flatMap Expr.names ++ value.names
  | .augAssign _ target _ value => target.names ++ value.names
  | .annAssign _ target typeHint value _ =>
    target.names ++ typeHint.names ++ Expr.namesOption value
  | .for_ _ _ _ target iter body orElse =>
    target.names ++ iter.names ++ Stmt.namesAll body ++ Stmt.namesAll orElse
  | .while_ _ _ test body orElse => test.names ++ Stmt.namesAll body ++ Stmt.namesAll orElse
  | .if_ _ test body orElse => test.names ++ Stmt.namesAll body ++ Stmt.namesAll orElse
  | .with_ _ _ items body => items.flatMap WithItem.names ++ Stmt.namesAll body
  | .match_ _ subject cases => subject.names ++ MatchCase.namesAll cases
  | .raise _ exc cause => Expr.namesOption exc ++ Expr.namesOption cause
  | .try_ _ _ body handlers orElse final =>
    Stmt.namesAll body ++ Handler.namesAll handlers ++ Stmt.namesAll orElse ++ Stmt.namesAll final
  | .assert_ _ test message => test.names ++ Expr.namesOption message
  | .import_ _ names | .importFrom _ _ names _ | .supportImport _ names => names.filterMap Alias.bound
  | .global .. | .nonlocal .. | .pass .. | .continue_ .. => []
  | .expr _ value => value.names
  | .break_ _ _ value => Expr.namesOption value
  | .callbackLoop _ header target iter body =>
    header.result.toList ++ target.names ++ iter.names ++ Stmt.namesAll body
  | .block _ _ target body => target.toList ++ Stmt.namesAll body

def Stmt.namesAll : List Stmt → List String
  | [] => []
  | s :: rest => Stmt.names s ++ Stmt.namesAll rest

def Handler.namesAll : List Handler → List String
  | [] => []
  | .mk _ type name body :: rest =>
    name.toList ++ Expr.namesOption type ++ Stmt.namesAll body ++ Handler.namesAll rest

def MatchCase.namesAll : List MatchCase → List String
  | [] => []
  | .mk pattern guard body :: rest =>
    pattern.names ++ Expr.namesOption guard ++ Stmt.namesAll body ++ MatchCase.namesAll rest

end

/-! ### Names of the forms that generated code has -/

namespace Expr

theorem labelsAll_append {α : Type} (a b : List (Rose α)) :
    Rose.labelsAll (a ++ b) = Rose.labelsAll a ++ Rose.labelsAll b := by
  induction a with
  | nil => rfl
  | cons t ts ih => rw [List.cons_append, Rose.labelsAll, Rose.labelsAll, ih, List.append_assoc]

theorem names_trees (es : List Expr) :
    (Rose.labelsAll (Expr.trees es)).filterMap (fun
      | some (.name _ id _) => some id
      | _ => none) = es.flatMap names := by
  induction es with
  | nil => rfl
  | cons e es ih =>
    rw [Expr.trees, Rose.labelsAll, List.filterMap_append, ih]
    rfl

@[simp]
theorem names_name (s : Span) (x : String) (a : Access) : (Expr.name s x a).names = [x] := rfl

@[simp]
theorem names_member (s : Span) (e : Expr) (field : String) (a : Access) :
    (Expr.member s e field a).names = e.names := by
  simp [names, ExprTree.names, Expr.tree, Rose.labels, Rose.labelsAll]

@[simp]
theorem names_unary (s : Span) (op : UnaryOp) (e : Expr) :
    (Expr.unary s op e).names = e.names := by
  simp [names, ExprTree.names, Expr.tree, Rose.labels, Rose.labelsAll]

@[simp]
theorem names_boolOp (s : Span) (op : BoolOp) (es : List Expr) :
    (Expr.boolOp s op es).names = es.flatMap names := by
  rw [← names_trees]
  simp [names, ExprTree.names, Expr.tree, Rose.labels]

@[simp]
theorem names_compare (s : Span) (a b : Expr) (op : CompareOp) :
    (Expr.compare s a [(op, b)]).names = a.names ++ b.names := by
  simp [names, ExprTree.names, Expr.tree, Expr.comparedTrees, Rose.labels, Rose.labelsAll]

@[simp]
theorem names_yield (s : Span) (e : Expr) : (Expr.yield s (some e)).names = e.names := by
  simp [names, ExprTree.names, Expr.tree, Expr.optionTrees, Rose.labels, Rose.labelsAll]

theorem names_keywords (ks : List Keyword) :
    (Rose.labelsAll (Keyword.trees ks)).filterMap (fun
      | some (.name _ id _) => some id
      | _ => none) = ks.flatMap Keyword.names := by
  induction ks with
  | nil => rfl
  | cons k ks ih =>
    obtain ⟨s, n, v⟩ := k
    rw [Keyword.trees, Rose.labelsAll, List.filterMap_append, ih]
    simp [Rose.labels, Rose.labelsAll, Keyword.names, Keyword.value, names, ExprTree.names]

@[simp]
theorem names_call (s : Span) (func : Expr) (args : List Expr) (keywords : List Keyword) :
    (Expr.call s func args keywords).names =
      func.names ++ args.flatMap names ++ keywords.flatMap Keyword.names := by
  rw [← names_trees, ← names_keywords]
  simp [names, ExprTree.names, Expr.tree, Rose.labels, Rose.labelsAll, labelsAll_append,
    List.filterMap_append]

end Expr

end LoopEscape
