import LoopEscape.Tree.Printer
import LoopEscape.Tree.Rose

/-!
# Outlines

An outline shows a tree by the names of its node classes and of their fields.  It is what dumps are
written from, and it gives the order in which the nodes of a tree are met level by level.
-/

namespace LoopEscape

open Text

inductive Outline
  | node (kind : String) (span : Option Span) (fields : List (String × Outline))
  | list (items : List Outline)
  | leaf (text : String)
  | missing
deriving Inhabited

namespace Outline

/-! ### Dumps -/

def lineStart (level : Nat) : String := "\n" ++ String.ofList (List.replicate (2 * level) ' ')

def spread (level : Nat) (parts : List String) : String :=
  lineStart level ++ ("," ++ lineStart level).intercalate parts

mutual

/-- The dump of an outline, and whether it is simple: a node stays on one line if it has at most three
fields and all of them are simple. -/
def format (level : Nat) : Outline → String × Bool
  | .leaf text => (text, true)
  | .missing => ("", true)
  | .list items =>
    let items := formatItems (level + 1) items
    (if items.isEmpty then "[]" else "[" ++ spread (level + 1) items ++ "]", items.isEmpty)
  | .node kind _ fields =>
    let (fields, allSimple) := formatFields (level + 1) fields
    if allSimple && fields.length ≤ 3 then
      (kind ++ "(" ++ ", ".intercalate fields ++ ")", fields.isEmpty)
    else (kind ++ "(" ++ spread (level + 1) fields ++ ")", false)

def formatItems (level : Nat) : List Outline → List String
  | [] => []
  | item :: items => (format level item).1 :: formatItems level items

def formatFields (level : Nat) : List (String × Outline) → List String × Bool
  | [] => ([], true)
  | (_, .missing) :: fields => formatFields level fields
  | (name, value) :: fields =>
    let (text, simple) := format level value
    let (texts, allSimple) := formatFields level fields
    ((name ++ "=" ++ text) :: texts, simple && allSimple)

end

def dump (o : Outline) : String := (o.format 0).1

/-! ### Levels -/

mutual

def levels : Outline → List (List (String × Span))
  | .node kind span fields => (span.toList.map fun s => (kind, s)) :: levelsOfFields fields
  | .list items => levelsOfItems items
  | .leaf _ => []
  | .missing => []

def levelsOfItems : List Outline → List (List (String × Span))
  | [] => []
  | item :: items => Rose.besides (levels item) (levelsOfItems items)

def levelsOfFields : List (String × Outline) → List (List (String × Span))
  | [] => []
  | (_, value) :: fields => Rose.besides (levels value) (levelsOfFields fields)

end

def walk (o : Outline) : List (String × Span) := o.levels.flatten

/-! ### Parts of outlines -/

def mark (kind : String) : Outline := .node kind none []

def text (s : String) : Outline := .leaf (quote s)

def optionText : Option String → Outline
  | none => .missing
  | some s => text s

def texts (ss : List String) : Outline := .list (ss.map text)

def number (n : Int) : Outline := .leaf (toString n)

def flag (b : Bool) : Outline := .leaf (if b then "1" else "0")

def nothing : Outline := .leaf "None"

end Outline

open Outline

def Access.outline : Access → Outline
  | .load => mark "Load"
  | .store => mark "Store"
  | .del => mark "Del"

def BoolOp.kind : BoolOp → String
  | .and => "And"
  | .or => "Or"

def BinOp.kind : BinOp → String
  | .add => "Add"
  | .sub => "Sub"
  | .mult => "Mult"
  | .matMult => "MatMult"
  | .div => "Div"
  | .mod => "Mod"
  | .pow => "Pow"
  | .leftShift => "LShift"
  | .rightShift => "RShift"
  | .bitOr => "BitOr"
  | .bitXor => "BitXor"
  | .bitAnd => "BitAnd"
  | .floorDiv => "FloorDiv"

def UnaryOp.kind : UnaryOp → String
  | .invert => "Invert"
  | .not => "Not"
  | .plus => "UAdd"
  | .minus => "USub"

def CompareOp.kind : CompareOp → String
  | .eq => "Eq"
  | .notEq => "NotEq"
  | .less => "Lt"
  | .lessEq => "LtE"
  | .greater => "Gt"
  | .greaterEq => "GtE"
  | .is => "Is"
  | .isNot => "IsNot"
  | .isIn => "In"
  | .notIn => "NotIn"

def CompKind.kind : CompKind → String
  | .list => "ListComp"
  | .set => "SetComp"
  | .generator => "GeneratorExp"

/-- A constant by its value; unlike printed code a dump names what is too large for a number. -/
def Literal.value : Literal → Outline
  | .ellipsis => .leaf "Ellipsis"
  | .float x => .leaf ((NumberStyle.mk ".0" "inf").write x)
  | .imaginary x => .leaf ((NumberStyle.mk "" "inf").write x ++ "j")
  | .str text _ => .leaf (quoteCodes text)
  | c => .leaf (c.render Bool.false)

def Literal.mark : Literal → Outline
  | .str _ Bool.true => Outline.text "u"
  | _ => .missing

mutual

def Expr.outline : Expr → Outline
  | .boolOp s op values =>
    .node "BoolOp" (some s) [("op", mark op.kind), ("values", .list (Expr.outlines values))]
  | .named s target value =>
    .node "NamedExpr" (some s) [("target", Expr.outline target), ("value", Expr.outline value)]
  | .binary s left op right =>
    .node "BinOp" (some s)
      [("left", Expr.outline left), ("op", mark op.kind), ("right", Expr.outline right)]
  | .unary s op operand =>
    .node "UnaryOp" (some s) [("op", mark op.kind), ("operand", Expr.outline operand)]
  | .lambda s params body =>
    .node "Lambda" (some s) [("args", Params.outline params), ("body", Expr.outline body)]
  | .conditional s test body orElse =>
    .node "IfExp" (some s)
      [("test", Expr.outline test), ("body", Expr.outline body), ("orelse", Expr.outline orElse)]
  | .dict s items =>
    .node "Dict" (some s)
      [("keys", .list (DictItem.keyOutlines items)), ("values", .list (DictItem.valueOutlines items))]
  | .set s elements => .node "Set" (some s) [("elts", .list (Expr.outlines elements))]
  | .comp s kind element clauses =>
    .node kind.kind (some s)
      [("elt", Expr.outline element), ("generators", .list (CompClause.outlines clauses))]
  | .dictComp s key value clauses =>
    .node "DictComp" (some s)
      [("key", Expr.outline key), ("value", Expr.outline value),
       ("generators", .list (CompClause.outlines clauses))]
  | .await s value => .node "Await" (some s) [("value", Expr.outline value)]
  | .yield s value => .node "Yield" (some s) [("value", Expr.outlineOption value)]
  | .yieldFrom s value => .node "YieldFrom" (some s) [("value", Expr.outline value)]
  | .compare s left rest =>
    .node "Compare" (some s)
      [("left", Expr.outline left), ("ops", .list (rest.map fun r => mark r.1.kind)),
       ("comparators", .list (Expr.comparedOutlines rest))]
  | .call s func args keywords =>
    .node "Call" (some s)
      [("func", Expr.outline func), ("args", .list (Expr.outlines args)),
       ("keywords", .list (Keyword.outlines keywords))]
  | .formatted s value conversion format =>
    .node "FormattedValue" (some s)
      [("value", Expr.outline value),
       ("conversion", number ((conversion.map fun c => (c.toNat : Int)).getD (-1))),
       ("format_spec", Expr.outlineOption format)]
  | .joined s parts => .node "JoinedStr" (some s) [("values", .list (Expr.outlines parts))]
  | .const s value => .node "Constant" (some s) [("value", value.value), ("kind", value.mark)]
  | .member s value name access =>
    .node "Attribute" (some s)
      [("value", Expr.outline value), ("attr", text name), ("ctx", access.outline)]
  | .subscript s value index access =>
    .node "Subscript" (some s)
      [("value", Expr.outline value), ("slice", Expr.outline index), ("ctx", access.outline)]
  | .starred s value access =>
    .node "Starred" (some s) [("value", Expr.outline value), ("ctx", access.outline)]
  | .name s id access => .node "Name" (some s) [("id", text id), ("ctx", access.outline)]
  | .list s elements access =>
    .node "List" (some s) [("elts", .list (Expr.outlines elements)), ("ctx", access.outline)]
  | .tuple s elements access =>
    .node "Tuple" (some s) [("elts", .list (Expr.outlines elements)), ("ctx", access.outline)]
  | .slice s lower upper step =>
    .node "Slice" (some s)
      [("lower", Expr.outlineOption lower), ("upper", Expr.outlineOption upper),
       ("step", Expr.outlineOption step)]

def Expr.outlines : List Expr → List Outline
  | [] => []
  | e :: es => Expr.outline e :: Expr.outlines es

def Expr.outlineOption : Option Expr → Outline
  | none => .missing
  | some e => Expr.outline e

def Expr.comparedOutlines : List (CompareOp × Expr) → List Outline
  | [] => []
  | (_, e) :: rest => Expr.outline e :: Expr.comparedOutlines rest

def DictItem.keyOutlines : List DictItem → List Outline
  | [] => []
  | .pair key _ :: items => Expr.outline key :: DictItem.keyOutlines items
  | .spread _ :: items => nothing :: DictItem.keyOutlines items

def DictItem.valueOutlines : List DictItem → List Outline
  | [] => []
  | .pair _ value :: items => Expr.outline value :: DictItem.valueOutlines items
  | .spread value :: items => Expr.outline value :: DictItem.valueOutlines items

def CompClause.outlines : List CompClause → List Outline
  | [] => []
  | .mk isAsync target iter conditions :: clauses =>
    .node "comprehension" none
      [("target", Expr.outline target), ("iter", Expr.outline iter),
       ("ifs", .list (Expr.outlines conditions)), ("is_async", flag isAsync)] ::
      CompClause.outlines clauses

def Keyword.outlines : List Keyword → List Outline
  | [] => []
  | .mk s name value :: keywords =>
    .node "keyword" (some s) [("arg", optionText name), ("value", Expr.outline value)] ::
      Keyword.outlines keywords

def Param.outlines : List Param → List Outline
  | [] => []
  | .mk s name typeHint _ :: params =>
    .node "arg" (some s) [("arg", text name), ("annotation", Expr.outlineOption typeHint)] ::
      Param.outlines params

def Param.outlineOption : Option Param → Outline
  | none => .missing
  | some (.mk s name typeHint _) =>
    .node "arg" (some s) [("arg", text name), ("annotation", Expr.outlineOption typeHint)]

def Param.defaultOutlines : List Param → List Outline
  | [] => []
  | .mk _ _ _ none :: params => Param.defaultOutlines params
  | .mk _ _ _ (some e) :: params => Expr.outline e :: Param.defaultOutlines params

def Param.namedDefaultOutlines : List Param → List Outline
  | [] => []
  | .mk _ _ _ none :: params => nothing :: Param.namedDefaultOutlines params
  | .mk _ _ _ (some e) :: params => Expr.outline e :: Param.namedDefaultOutlines params

def Params.outline : Params → Outline
  | .mk positional either rest named namedRest =>
    .node "arguments" none
      [("posonlyargs", .list (Param.outlines positional)), ("args", .list (Param.outlines either)),
       ("vararg", Param.outlineOption rest), ("kwonlyargs", .list (Param.outlines named)),
       ("kw_defaults", .list (Param.namedDefaultOutlines named)),
       ("kwarg", Param.outlineOption namedRest),
       ("defaults", .list (Param.defaultOutlines positional ++ Param.defaultOutlines either))]

end

mutual

def CasePattern.outline : CasePattern → Outline
  | .value s e => .node "MatchValue" (some s) [("value", e.outline)]
  | .singleton s c => .node "MatchSingleton" (some s) [("value", c.value)]
  | .sequence s patterns =>
    .node "MatchSequence" (some s) [("patterns", .list (CasePattern.outlines patterns))]
  | .mapping s keys patterns rest =>
    .node "MatchMapping" (some s)
      [("keys", .list (Expr.outlines keys)), ("patterns", .list (CasePattern.outlines patterns)),
       ("rest", optionText rest)]
  | .ofClass s cls patterns names named =>
    .node "MatchClass" (some s)
      [("cls", cls.outline), ("patterns", .list (CasePattern.outlines patterns)),
       ("kwd_attrs", texts names), ("kwd_patterns", .list (CasePattern.outlines named))]
  | .star s name => .node "MatchStar" (some s) [("name", optionText name)]
  | .as_ s none name => .node "MatchAs" (some s) [("pattern", .missing), ("name", optionText name)]
  | .as_ s (some pattern) name =>
    .node "MatchAs" (some s) [("pattern", CasePattern.outline pattern), ("name", optionText name)]
  | .or_ s patterns => .node "MatchOr" (some s) [("patterns", .list (CasePattern.outlines patterns))]

def CasePattern.outlines : List CasePattern → List Outline
  | [] => []
  | p :: ps => CasePattern.outline p :: CasePattern.outlines ps

end

def Alias.outline (a : Alias) : Outline :=
  .node "alias" (some a.span) [("name", Outline.text a.name), ("asname", optionText a.asName)]

def WithItem.outline (item : WithItem) : Outline :=
  .node "withitem" none
    [("context_expr", item.context.outline), ("optional_vars", Expr.outlineOption item.target)]

def Stmt.kind : Stmt → String
  | .function _ isAsync .. => if isAsync then "AsyncFunctionDef" else "FunctionDef"
  | .class_ .. => "ClassDef"
  | .return_ .. => "Return"
  | .delete .. => "Delete"
  | .assign .. => "Assign"
  | .augAssign .. => "AugAssign"
  | .annAssign .. => "AnnAssign"
  | .for_ _ isAsync .. => if isAsync then "AsyncFor" else "For"
  | .while_ .. => "While"
  | .if_ .. => "If"
  | .with_ _ isAsync .. => if isAsync then "AsyncWith" else "With"
  | .match_ .. => "Match"
  | .raise .. => "Raise"
  | .try_ _ isStar .. => if isStar then "TryStar" else "Try"
  | .assert_ .. => "Assert"
  | .import_ .. | .supportImport .. => "Import"
  | .importFrom .. => "ImportFrom"
  | .global .. => "Global"
  | .nonlocal .. => "Nonlocal"
  | .expr .. => "Expr"
  | .pass .. => "Pass"
  | .break_ .. => "Break"
  | .continue_ .. => "Continue"
  | .callbackLoop .. => "CbitFor"
  | .block .. => "Block"

mutual

def Stmt.fields : Stmt → List (String × Outline)
  | .function _ _ name params body decorators returns =>
    [("name", text name), ("args", params.outline), ("body", .list (Stmt.outlines body)),
     ("decorator_list", .list (Expr.outlines decorators)), ("returns", Expr.outlineOption returns)]
  | .class_ _ name bases keywords body decorators =>
    [("name", text name), ("bases", .list (Expr.outlines bases)),
     ("keywords", .list (Keyword.outlines keywords)), ("body", .list (Stmt.outlines body)),
     ("decorator_list", .list (Expr.outlines decorators))]
  | .return_ _ value => [("value", Expr.outlineOption value)]
  | .delete _ targets => [("targets", .list (Expr.outlines targets))]
  | .assign _ targets value =>
    [("targets", .list (Expr.outlines targets)), ("value", value.outline)]
  | .augAssign _ target op value =>
    [("target", target.outline), ("op", mark op.kind), ("value", value.outline)]
  | .annAssign _ target typeHint value simple =>
    [("target", target.outline), ("annotation", typeHint.outline),
     ("value", Expr.outlineOption value), ("simple", flag simple)]
  | .for_ _ _ _ target iter body orElse =>
    [("target", target.outline), ("iter", iter.outline), ("body", .list (Stmt.outlines body)),
     ("orelse", .list (Stmt.outlines orElse))]
  | .while_ _ _ test body orElse | .if_ _ test body orElse =>
    [("test", test.outline), ("body", .list (Stmt.outlines body)),
     ("orelse", .list (Stmt.outlines orElse))]
  | .with_ _ _ items body =>
    [("items", .list (items.map WithItem.outline)), ("body", .list (Stmt.outlines body))]
  | .match_ _ subject cases =>
    [("subject", subject.outline), ("cases", .list (MatchCase.outlines cases))]
  | .raise _ exc cause => [("exc", Expr.outlineOption exc), ("cause", Expr.outlineOption cause)]
  | .try_ _ _ body handlers orElse final =>
    [("body", .list (Stmt.outlines body)), ("handlers", .list (Handler.outlines handlers)),
     ("orelse", .list (Stmt.outlines orElse)), ("finalbody", .list (Stmt.outlines final))]
  | .assert_ _ test message => [("test", test.outline), ("msg", Expr.outlineOption message)]
  | .import_ _ names | .supportImport _ names => [("names", .list (names.map Alias.outline))]
  | .importFrom _ module names level =>
    [("module", optionText module), ("names", .list (names.map Alias.outline)),
     ("level", number level)]
  | .global _ names | .nonlocal _ names => [("names", texts names)]
  | .expr _ value => [("value", value.outline)]
  | .pass _ => []
  | .break_ .. => []
  | .continue_ .. => []
  | .callbackLoop _ _ target iter body =>
    [("target", target.outline), ("iter", iter.outline), ("body", .list (Stmt.outlines body))]
  | .block _ _ _ body => [("body", .list (Stmt.outlines body))]

def Stmt.outlines : List Stmt → List Outline
  | [] => []
  | s :: rest => .node s.kind (some s.loc.span) (Stmt.fields s) :: Stmt.outlines rest

def Handler.outlines : List Handler → List Outline
  | [] => []
  | .mk loc type name body :: rest =>
    .node "ExceptHandler" (some loc.span)
      [("type", Expr.outlineOption type), ("name", optionText name),
       ("body", .list (Stmt.outlines body))] :: Handler.outlines rest

def MatchCase.outlines : List MatchCase → List Outline
  | [] => []
  | .mk pattern guard body :: rest =>
    .node "match_case" none
      [("pattern", pattern.outline), ("guard", Expr.outlineOption guard),
       ("body", .list (Stmt.outlines body))] :: MatchCase.outlines rest

end

def moduleOutline (body : List Stmt) : Outline :=
  .node "Module" none [("body", .list (Stmt.outlines body)), ("type_ignores", .list [])]

end LoopEscape
