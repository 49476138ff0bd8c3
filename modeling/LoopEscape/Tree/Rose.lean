import LoopEscape.Tree.Stmt

/-!
# Expressions as plain trees

For questions that treat most forms of expression alike, an expression is seen as a tree of its parts.
Parts that are no expressions themselves, such as named arguments or parameters, are nodes without a
label.
-/

namespace LoopEscape

inductive Rose (α : Type)
  | node (label : α) (children : List (Rose α))

namespace Rose

variable {α : Type}

def besides {β : Type} : List (List β) → List (List β) → List (List β)
  | [], ys => ys
  | xs, [] => xs
  | x :: xs, y :: ys => (x ++ y) :: besides xs ys

mutual

def levels : Rose α → List (List α)
  | .node label children => [label] :: levelsAll children

def levelsAll : List (Rose α) → List (List α)
  | [] => []
  | t :: ts => besides (levels t) (levelsAll ts)

end

def walk (t : Rose α) : List α := t.levels.flatten

mutual

def labels : Rose α → List α
  | .node label children => label :: labelsAll children

def labelsAll : List (Rose α) → List α
  | [] => []
  | t :: ts => labels t ++ labelsAll ts

end

end Rose

abbrev ExprTree := Rose (Option Expr)

mutual

def Expr.tree : Expr → ExprTree
  | .boolOp s op values => .node (some (.boolOp s op values)) (Expr.trees values)
  | .named s target value => .node (some (.named s target value)) [Expr.tree target, Expr.tree value]
  | .binary s left op right =>
    .node (some (.binary s left op right)) [Expr.tree left, Expr.tree right]
  | .unary s op operand => .node (some (.unary s op operand)) [Expr.tree operand]
  | .lambda s params body => .node (some (.lambda s params body)) [Params.tree params, Expr.tree body]
  | .conditional s test body orElse =>
    .node (some (.conditional s test body orElse))
      [Expr.tree test, Expr.tree body, Expr.tree orElse]
  | .dict s items =>
    .node (some (.dict s items)) (DictItem.keyTrees items ++ DictItem.valueTrees items)
  | .set s elements => .node (some (.set s elements)) (Expr.trees elements)
  | .comp s kind element clauses =>
    .node (some (.comp s kind element clauses)) (Expr.tree element :: CompClause.trees clauses)
  | .dictComp s key value clauses =>
    .node (some (.dictComp s key value clauses))
      (Expr.tree key :: Expr.tree value :: CompClause.trees clauses)
  | .await s value => .node (some (.await s value)) [Expr.tree value]
  | .yield s value => .node (some (.yield s value)) (Expr.optionTrees value)
  | .yieldFrom s value => .node (some (.yieldFrom s value)) [Expr.tree value]
  | .compare s left rest =>
    .node (some (.compare s left rest)) (Expr.tree left :: Expr.comparedTrees rest)
  | .call s func args keywords =>
    .node (some (.call s func args keywords))
      (Expr.tree func :: (Expr.trees args ++ Keyword.trees keywords))
  | .formatted s value conversion format =>
    .node (some (.formatted s value conversion format))
      (Expr.tree value :: Expr.optionTrees format)
  | .joined s parts => .node (some (.joined s parts)) (Expr.trees parts)
  | .const s value => .node (some (.const s value)) []
  | .member s value name access => .node (some (.member s value name access)) [Expr.tree value]
  | .subscript s value index access =>
    .node (some (.subscript s value index access)) [Expr.tree value, Expr.tree index]
  | .starred s value access => .node (some (.starred s value access)) [Expr.tree value]
  | .name s id access => .node (some (.name s id access)) []
  | .list s elements access => .node (some (.list s elements access)) (Expr.trees elements)
  | .tuple s elements access => .node (some (.tuple s elements access)) (Expr.trees elements)
  | .slice s lower upper step =>
    .node (some (.slice s lower upper step))
      (Expr.optionTrees lower ++ Expr.optionTrees upper ++ Expr.optionTrees step)

def Expr.trees : List Expr → List ExprTree
  | [] => []
  | e :: es => Expr.tree e :: Expr.trees es

def Expr.optionTrees : Option Expr → List ExprTree
  | none => []
  | some e => [Expr.tree e]

def Expr.comparedTrees : List (CompareOp × Expr) → List ExprTree
  | [] => []
  | (_, e) :: rest => Expr.tree e :: Expr.comparedTrees rest

def DictItem.keyTrees : List DictItem → List ExprTree
  | [] => []
  | .pair key _ :: items => Expr.tree key :: DictItem.keyTrees items
  | .spread _ :: items => DictItem.keyTrees items

def DictItem.valueTrees : List DictItem → List ExprTree
  | [] => []
  | .pair _ value :: items => Expr.tree value :: DictItem.valueTrees items
  | .spread value :: items => Expr.tree value :: DictItem.valueTrees items

def CompClause.trees : List CompClause → List ExprTree
  | [] => []
  | .mk _ target iter conditions :: clauses =>
    .node none (Expr.tree target :: Expr.tree iter :: Expr.trees conditions) ::
      CompClause.trees clauses

def Keyword.trees : List Keyword → List ExprTree
  | [] => []
  | .mk _ _ value :: keywords => .node none [Expr.tree value] :: Keyword.trees keywords

def Param.trees : List Param → List ExprTree
  | [] => []
  | .mk _ _ typeHint _ :: params => .node none (Expr.optionTrees typeHint) :: Param.trees params

def Param.optionTrees : Option Param → List ExprTree
  | none => []
  | some (.mk _ _ typeHint _) => [.node none (Expr.optionTrees typeHint)]

def Param.defaultTrees : List Param → List ExprTree
  | [] => []
  | .mk _ _ _ default :: params => Expr.optionTrees default ++ Param.defaultTrees params

def Params.tree : Params → ExprTree
  | .mk positional either rest named namedRest =>
    .node none (Param.trees positional ++ Param.trees either ++ Param.optionTrees rest ++
      Param.trees named ++ Param.defaultTrees named ++ Param.optionTrees namedRest ++
      Param.defaultTrees positional ++ Param.defaultTrees either)

end

/-! ### Statements level by level -/

mutual

/-- The statements of a statement, itself first, level by level; a clause of a compound statement is a
level of its own. -/
def Stmt.levels : Stmt → List (List Stmt)
  | .function loc isAsync name params body decorators returns =>
    [.function loc isAsync name params body decorators returns] :: Stmt.levelsAll body
  | .class_ loc name bases keywords body decorators =>
    [.class_ loc name bases keywords body decorators] :: Stmt.levelsAll body
  | .for_ loc isAsync mark target iter body orElse =>
    [.for_ loc isAsync mark target iter body orElse] ::
      Rose.besides (Stmt.levelsAll body) (Stmt.levelsAll orElse)
  | .while_ loc mark test body orElse =>
    [.while_ loc mark test body orElse] ::
      Rose.besides (Stmt.levelsAll body) (Stmt.levelsAll orElse)
  | .if_ loc test body orElse =>
    [.if_ loc test body orElse] :: Rose.besides (Stmt.levelsAll body) (Stmt.levelsAll orElse)
  | .with_ loc isAsync items body => [.with_ loc isAsync items body] :: Stmt.levelsAll body
  | .match_ loc subject cases => [.match_ loc subject cases] :: MatchCase.levelsAll cases
  | .try_ loc isStar body handlers orElse final =>
    [.try_ loc isStar body handlers orElse final] ::
      Rose.besides (Stmt.levelsAll body) (Rose.besides (Handler.levelsAll handlers)
        (Rose.besides (Stmt.levelsAll orElse) (Stmt.levelsAll final)))
  | .callbackLoop loc header target iter body =>
    [.callbackLoop loc header target iter body] :: Stmt.levelsAll body
  | .block loc label target body => [.block loc label target body] :: Stmt.levelsAll body
  | s => [[s]]

def Stmt.levelsAll : List Stmt → List (List Stmt)
  | [] => []
  | s :: rest => Rose.besides (Stmt.levels s) (Stmt.levelsAll rest)

def Handler.levelsAll : List Handler → List (List Stmt)
  | [] => []
  | .mk _ _ _ body :: rest =>
    Rose.besides ([] :: Stmt.levelsAll body) (Handler.levelsAll rest)

def MatchCase.levelsAll : List MatchCase → List (List Stmt)
  | [] => []
  | .mk _ _ body :: rest => Rose.besides ([] :: Stmt.levelsAll body) (MatchCase.levelsAll rest)

end

def Stmt.walk (body : List Stmt) : List Stmt := (Stmt.levelsAll body).flatten

end LoopEscape
