import LoopEscape.Tree.Stmt
import LoopEscape.Decimal.Shortest
import LoopEscape.Text.Literal

/-!
# Printing trees

Trees as plain code.  An expression is printed for a place of some rank and gets brackets if it binds
less tightly than the place asks for.  Inside a field of a formatted text no backslash may be written,
so a tree that would need one there has no printed form.
-/

namespace LoopEscape

open Text

/-! ### Ranks -/

abbrev Rank := Nat

namespace Rank

def named : Rank := 0

def tuple : Rank := 1

def yield : Rank := 2

def test : Rank := 3

def or : Rank := 4

def and : Rank := 5

def not : Rank := 6

def compare : Rank := 7

def bitOr : Rank := 8

def bitXor : Rank := 9

def bitAnd : Rank := 10

def shift : Rank := 11

def sum : Rank := 12

def term : Rank := 13

def factor : Rank := 14

def power : Rank := 15

def await : Rank := 16

def atom : Rank := 17

def next (r : Rank) : Rank := min (r + 1) atom

end Rank

def bracketed (place own : Rank) (s : String) : String := if own < place then "(" ++ s ++ ")" else s

namespace BoolOp

def text : BoolOp → String
  | .and => "and"
  | .or => "or"

def rank : BoolOp → Rank
  | .and => Rank.and
  | .or => Rank.or

end BoolOp

namespace BinOp

def text : BinOp → String
  | .add => "+"
  | .sub => "-"
  | .mult => "*"
  | .matMult => "@"
  | .div => "/"
  | .mod => "%"
  | .pow => "**"
  | .leftShift => "<<"
  | .rightShift => ">>"
  | .bitOr => "|"
  | .bitXor => "^"
  | .bitAnd => "&"
  | .floorDiv => "//"

def rank : BinOp → Rank
  | .add | .sub => Rank.sum
  | .mult | .matMult | .div | .mod | .floorDiv => Rank.term
  | .pow => Rank.power
  | .leftShift | .rightShift => Rank.shift
  | .bitOr => Rank.bitOr
  | .bitXor => Rank.bitXor
  | .bitAnd => Rank.bitAnd

def operandRanks (op : BinOp) : Rank × Rank :=
  if op = .pow then (op.rank.next, op.rank) else (op.rank, op.rank.next)

end BinOp

namespace UnaryOp

def text : UnaryOp → String
  | .invert => "~"
  | .not => "not "
  | .plus => "+"
  | .minus => "-"

def rank : UnaryOp → Rank
  | .not => Rank.not
  | _ => Rank.factor

end UnaryOp

def CompareOp.text : CompareOp → String
  | .eq => "=="
  | .notEq => "!="
  | .less => "<"
  | .lessEq => "<="
  | .greater => ">"
  | .greaterEq => ">="
  | .is => "is"
  | .isNot => "is not"
  | .isIn => "in"
  | .notIn => "not in"

namespace Literal

def floatStyle : NumberStyle := ⟨".0", "1e309"⟩

def imaginaryStyle : NumberStyle := ⟨"", "1e309"⟩

def render (inField : Bool) : Literal → String
  | .none => "None"
  | .true => "True"
  | .false => "False"
  | .ellipsis => "..."
  | .int n => toString n
  | .float x => floatStyle.write x
  | .imaginary x => imaginaryStyle.write x ++ "j"
  | .str text marked =>
    (if marked then "u" else "") ++
      if inField then literal allQuotes text else quoteCodes text
  | .bytes bs => quoteBytes bs

def renderDoc : Literal → String
  | .str text marked => (if marked then "u" else "") ++ literal tripleQuotes text
  | c => c.render Bool.false

end Literal

/-! ### Expressions -/

def doubleBraces (cs : List Code) : List Code :=
  cs.flatMap fun c => if c = 123 || c = 125 then [c, c] else [c]

def fieldCodes (value : String) (conversion : Option Char) (format : List Code) : List Code :=
  let value := codes value
  let gap := if value.head? = some 123 then [32] else []
  let conversion := (conversion.map fun c => [33, c.toNat]).getD []
  [123] ++ gap ++ value ++ conversion ++ format ++ [125]

def tupleItems : List String → String
  | [item] => item ++ ","
  | items => ", ".intercalate items

def CompKind.bracket (s : String) : CompKind → String
  | .list => "[" ++ s ++ "]"
  | .set => "\x7b" ++ s ++ "\x7d"
  | .generator => "(" ++ s ++ ")"

/-- Whether a literal is a whole number, before which a point needs a gap; the truth values count. -/
def Expr.isWhole : Expr → Bool
  | .const _ (.int _) | .const _ .true | .const _ .false => true
  | _ => false

mutual

def Expr.render? (inField : Bool) (place : Rank) : Expr → Option String
  | .boolOp _ op values => do
    let parts ← Expr.renderRising? inField op.rank values
    return bracketed place op.rank ((" " ++ op.text ++ " ").intercalate parts)
  | .named _ target value => do
    let target ← Expr.render? inField Rank.atom target
    let value ← Expr.render? inField Rank.atom value
    return bracketed place Rank.named (target ++ " := " ++ value)
  | .binary _ left op right => do
    let left ← Expr.render? inField op.operandRanks.1 left
    let right ← Expr.render? inField op.operandRanks.2 right
    return bracketed place op.rank (left ++ " " ++ op.text ++ " " ++ right)
  | .unary _ op operand => do
    let operand ← Expr.render? inField op.rank operand
    return bracketed place op.rank (op.text ++ operand)
  | .lambda _ params body => do
    let params ← Params.render? inField params
    let body ← Expr.render? inField Rank.test body
    let gap := if params.isEmpty then "" else " "
    return bracketed place Rank.test ("lambda" ++ gap ++ params ++ ": " ++ body)
  | .conditional _ test body orElse => do
    let body ← Expr.render? inField Rank.test.next body
    let test ← Expr.render? inField Rank.test.next test
    let orElse ← Expr.render? inField Rank.test orElse
    return bracketed place Rank.test (body ++ " if " ++ test ++ " else " ++ orElse)
  | .dict _ items => do
    let items ← DictItem.renderAll? inField items
    return "\x7b" ++ ", ".intercalate items ++ "\x7d"
  | .set _ elements => do
    let elements ← Expr.renderAll? inField Rank.test elements
    return if elements.isEmpty then "\x7b*()\x7d" else "\x7b" ++ ", ".intercalate elements ++ "\x7d"
  | .comp _ kind element clauses => do
    let element ← Expr.render? inField Rank.test element
    let clauses ← CompClause.renderAll? inField clauses
    return kind.bracket (element ++ clauses)
  | .dictComp _ key value clauses => do
    let key ← Expr.render? inField Rank.test key
    let value ← Expr.render? inField Rank.test value
    let clauses ← CompClause.renderAll? inField clauses
    return "\x7b" ++ key ++ ": " ++ value ++ clauses ++ "\x7d"
  | .await _ value => do
    let value ← Expr.render? inField Rank.atom value
    return bracketed place Rank.await ("await " ++ value)
  | .yield _ none => some (bracketed place Rank.yield "yield")
  | .yield _ (some value) => do
    let value ← Expr.render? inField Rank.atom value
    return bracketed place Rank.yield ("yield " ++ value)
  | .yieldFrom _ value => do
    let value ← Expr.render? inField Rank.atom value
    return bracketed place Rank.yield ("yield from " ++ value)
  | .compare _ left rest => do
    let left ← Expr.render? inField Rank.compare.next left
    let rest ← Expr.renderCompared? inField rest
    return bracketed place Rank.compare (left ++ rest)
  | .call _ func args keywords => do
    let func ← Expr.render? inField Rank.atom func
    let args ← Expr.renderAll? inField Rank.test args
    let keywords ← Keyword.renderAll? inField keywords
    return func ++ "(" ++ ", ".intercalate (args ++ keywords) ++ ")"
  | .formatted _ value conversion format => do
    let value ← Expr.render? true Rank.test.next value
    let format ← Expr.renderFormat? format
    if value.contains '\\' then none else return ofCodes (fieldCodes value conversion format)
  | .joined _ parts => do
    let parts ← Expr.renderParts? parts
    return "f" ++ if inField then literal allQuotes (parts.flatMap (·.1)) else literalOfParts parts
  | .const _ value => some (value.render inField)
  | .member _ value name _ => do
    let text ← Expr.render? inField Rank.atom value
    return text ++ (if value.isWhole then " ." else ".") ++ name
  | .subscript _ value (.tuple _ (e :: es) _) _ => do
    let value ← Expr.render? inField Rank.atom value
    let e ← Expr.render? inField Rank.test e
    let es ← Expr.renderAll? inField Rank.test es
    return value ++ "[" ++ tupleItems (e :: es) ++ "]"
  | .subscript _ value index _ => do
    let value ← Expr.render? inField Rank.atom value
    let index ← Expr.render? inField Rank.test index
    return value ++ "[" ++ index ++ "]"
  | .starred _ value _ => do
    let value ← Expr.render? inField Rank.bitOr value
    return "*" ++ value
  | .name _ id _ => some id
  | .list _ elements _ => do
    let elements ← Expr.renderAll? inField Rank.test elements
    return "[" ++ ", ".intercalate elements ++ "]"
  | .tuple _ elements _ => do
    let elements ← Expr.renderAll? inField Rank.test elements
    return if elements.isEmpty then "()" else bracketed place Rank.tuple (tupleItems elements)
  | .slice _ lower upper step => do
    let lower ← Expr.renderOption? inField "" lower
    let upper ← Expr.renderOption? inField "" upper
    let step ← Expr.renderOption? inField ":" step
    return lower ++ ":" ++ upper ++ step

def Expr.renderAll? (inField : Bool) (place : Rank) : List Expr → Option (List String)
  | [] => some []
  | e :: es => do
    let e ← Expr.render? inField place e
    let es ← Expr.renderAll? inField place es
    return e :: es

def Expr.renderRising? (inField : Bool) (place : Rank) : List Expr → Option (List String)
  | [] => some []
  | e :: es => do
    let e ← Expr.render? inField place.next e
    let es ← Expr.renderRising? inField place.next es
    return e :: es

def Expr.renderOption? (inField : Bool) (mark : String) : Option Expr → Option String
  | none => some ""
  | some e => do
    let e ← Expr.render? inField Rank.test e
    return mark ++ e

def Expr.renderCompared? (inField : Bool) : List (CompareOp × Expr) → Option String
  | [] => some ""
  | (op, e) :: rest => do
    let e ← Expr.render? inField Rank.compare.next e
    let rest ← Expr.renderCompared? inField rest
    return " " ++ op.text ++ " " ++ e ++ rest

def Expr.renderParts? : List Expr → Option (List (List Code × Bool))
  | [] => some []
  | e :: es => do
    let part ← Expr.renderPart? e
    let parts ← Expr.renderParts? es
    return part :: parts

def Expr.renderPart? : Expr → Option (List Code × Bool)
  | .const _ (.str text _) => some (doubleBraces text, true)
  | .formatted _ value conversion format => do
    let value ← Expr.render? true Rank.test.next value
    let format ← Expr.renderFormat? format
    if value.contains '\\' then none else return (fieldCodes value conversion format, false)
  | .joined _ parts => do
    let parts ← Expr.renderParts? parts
    return (parts.flatMap (·.1), false)
  | _ => none

def Expr.renderFormat? : Option Expr → Option (List Code)
  | none => some []
  | some e => do
    let (format, _) ← Expr.renderPart? e
    return 58 :: format

def DictItem.renderAll? (inField : Bool) : List DictItem → Option (List String)
  | [] => some []
  | .pair key value :: items => do
    let key ← Expr.render? inField Rank.test key
    let value ← Expr.render? inField Rank.test value
    let items ← DictItem.renderAll? inField items
    return (key ++ ": " ++ value) :: items
  | .spread value :: items => do
    let value ← Expr.render? inField Rank.bitOr value
    let items ← DictItem.renderAll? inField items
    return ("**" ++ value) :: items

def CompClause.renderAll? (inField : Bool) : List CompClause → Option String
  | [] => some ""
  | .mk isAsync target iter conditions :: clauses => do
    let target ← Expr.render? inField Rank.tuple target
    let iter ← Expr.render? inField Rank.test.next iter
    let conditions ← Expr.renderAll? inField Rank.test.next conditions
    let clauses ← CompClause.renderAll? inField clauses
    return (if isAsync then " async for " else " for ") ++ target ++ " in " ++ iter ++
      String.join (conditions.map (" if " ++ ·)) ++ clauses

def Keyword.renderAll? (inField : Bool) : List Keyword → Option (List String)
  | [] => some []
  | .mk _ name value :: keywords => do
    let value ← Expr.render? inField Rank.test value
    let keywords ← Keyword.renderAll? inField keywords
    let start := match name with
      | none => "**"
      | some name => name ++ "="
    return (start ++ value) :: keywords

def Param.renderAll? (inField : Bool) : List Param → Option (List String)
  | [] => some []
  | .mk _ name typeHint default :: params => do
    let typeHint ← Expr.renderOption? inField ": " typeHint
    let default ← Expr.renderOption? inField "=" default
    let params ← Param.renderAll? inField params
    return (name ++ typeHint ++ default) :: params

def Param.renderRest? (inField : Bool) (stars : String) : Option Param → Option (List String)
  | none => some []
  | some (.mk _ name typeHint _) => do
    let typeHint ← Expr.renderOption? inField ": " typeHint
    return [stars ++ name ++ typeHint]

def Params.render? (inField : Bool) : Params → Option String
  | .mk positional either rest named namedRest => do
    let positional ← Param.renderAll? inField positional
    let either ← Param.renderAll? inField either
    let rest ← Param.renderRest? inField "*" rest
    let named ← Param.renderAll? inField named
    let namedRest ← Param.renderRest? inField "**" namedRest
    let slash := if positional.isEmpty then [] else ["/"]
    let star := if rest.isEmpty && !named.isEmpty then ["*"] else rest
    return ", ".intercalate (positional ++ slash ++ either ++ star ++ named ++ namedRest)

end

def Expr.text? (e : Expr) : Option String := e.render? false Rank.test

def Keyword.text? (k : Keyword) : Option String := do
  let texts ← Keyword.renderAll? false [k]
  return ", ".intercalate texts

def Params.text? (ps : Params) : Option String := ps.render? false

def CallForm.describe? : CallForm → Option String
  | .free callee _ _ => callee.text?
  | .method receiver name typeArgs _ _ => do
    let receiver ← receiver.text?
    match typeArgs with
    | none => return receiver ++ "." ++ name
    | some t => return receiver ++ "." ++ name ++ "[" ++ (← t.text?) ++ "]"

/-! ### Patterns -/

mutual

def CasePattern.render? (place : Rank) : CasePattern → Option String
  | .value _ e => e.text?
  | .singleton _ c => some (c.render false)
  | .sequence _ patterns => do
    let patterns ← CasePattern.renderAll? Rank.test patterns
    return "[" ++ ", ".intercalate patterns ++ "]"
  | .mapping _ keys patterns rest => do
    let keys ← keys.mapM Expr.text?
    let patterns ← CasePattern.renderAll? Rank.test patterns
    let items := List.zipWith (fun k p => k ++ ": " ++ p) keys patterns
    let rest := rest.toList.map ("**" ++ ·)
    return "\x7b" ++ ", ".intercalate (items ++ rest) ++ "\x7d"
  | .ofClass _ cls patterns names named => do
    let cls ← cls.render? false Rank.atom
    let patterns ← CasePattern.renderAll? Rank.test patterns
    let named ← CasePattern.renderAll? Rank.test named
    let named := List.zipWith (fun n p => n ++ "=" ++ p) names named
    return cls ++ "(" ++ ", ".intercalate (patterns ++ named) ++ ")"
  | .star _ name => some ("*" ++ name.getD "_")
  | .as_ _ _ none => some "_"
  | .as_ _ none (some name) => some name
  | .as_ _ (some pattern) (some name) => do
    let pattern ← CasePattern.render? Rank.bitOr pattern
    return bracketed place Rank.test (pattern ++ " as " ++ name)
  | .or_ _ patterns => do
    let patterns ← CasePattern.renderAll? Rank.bitOr.next patterns
    return bracketed place Rank.bitOr (" | ".intercalate patterns)

def CasePattern.renderAll? (place : Rank) : List CasePattern → Option (List String)
  | [] => some []
  | p :: ps => do
    let p ← CasePattern.render? place p
    let ps ← CasePattern.renderAll? place ps
    return p :: ps

end

def CasePattern.text? (p : CasePattern) : Option String := p.render? Rank.test

/-! ### Statements -/

def Alias.text (a : Alias) : String :=
  a.name ++ (a.asName.map (" as " ++ ·)).getD ""

def WithItem.text? (item : WithItem) : Option String := do
  let context ← item.context.text?
  match item.target with
  | none => return context
  | some target => return context ++ " as " ++ (← target.text?)

/-- The text of an expression that may be missing, with a mark in front if it is there. -/
def optionText? (mark : String) (e : Option Expr) : Option String := Expr.renderOption? false mark e

def aliasList (names : List Alias) : String := ", ".intercalate (names.map Alias.text)

def targetsText? (targets : List Expr) : Option String := do
  let targets ← targets.mapM (·.render? false Rank.tuple)
  return String.join (targets.map (· ++ " = "))

/-- A printed line.  A cut drops all lines before it: a construct of the dialect has no text in plain
code, and what is printed starts anew with each of its statements. -/
inductive PrintedLine
  | text (s : String)
  | cut
deriving DecidableEq, Repr

namespace PrintedLine

def text? : PrintedLine → Option String
  | text s => some s
  | cut => none

def texts (lines : List PrintedLine) : List String :=
  (lines.reverse.takeWhile (· != cut)).reverse.filterMap text?

end PrintedLine

def indented (depth : Nat) (text : String) : PrintedLine :=
  .text (String.ofList (List.replicate (4 * depth) ' ') ++ text)

def decoratorLines? (depth : Nat) (decorators : List Expr) : Option (List PrintedLine) :=
  decorators.mapM fun e => do return indented depth ("@" ++ (← e.text?))

def docLine? (depth : Nat) : Stmt → Option PrintedLine
  | .expr _ (.const _ (.str text marked)) =>
    some (indented depth (Literal.renderDoc (.str text marked)))
  | _ => none

mutual

def Stmt.lines? (depth : Nat) : Stmt → Option (List PrintedLine)
  | .function _ isAsync name params body decorators returns => do
    let decorators ← decoratorLines? depth decorators
    let params ← params.text?
    let returns ← optionText? " -> " returns
    let body ← Stmt.docLines? (depth + 1) body
    let word := if isAsync then "async def " else "def "
    return [PrintedLine.text ""] ++ decorators ++
      indented depth (word ++ name ++ "(" ++ params ++ ")" ++ returns ++ ":") :: body
  | .class_ _ name bases keywords body decorators => do
    let decorators ← decoratorLines? depth decorators
    let bases ← Expr.renderAll? false Rank.test bases
    let keywords ← Keyword.renderAll? false keywords
    let body ← Stmt.docLines? (depth + 1) body
    let args := bases ++ keywords
    let args := if args.isEmpty then "" else "(" ++ ", ".intercalate args ++ ")"
    return [PrintedLine.text ""] ++ decorators ++ indented depth ("class " ++ name ++ args ++ ":") :: body
  | .return_ _ value => do
    return [indented depth ("return" ++ (← optionText? " " value))]
  | .delete _ targets => do
    let targets ← Expr.renderAll? false Rank.test targets
    return [indented depth ("del " ++ ", ".intercalate targets)]
  | .assign _ targets value => do
    let targets ← targetsText? targets
    return [indented depth (targets ++ (← value.text?))]
  | .augAssign _ target op value => do
    let target ← target.text?
    return [indented depth (target ++ " " ++ op.text ++ "= " ++ (← value.text?))]
  | .annAssign _ target typeHint value simple => do
    let text ← target.text?
    let text := match target with
      | .name .. => if simple then text else "(" ++ text ++ ")"
      | _ => text
    let typeHint ← typeHint.text?
    let value ← optionText? " = " value
    return [indented depth (text ++ ": " ++ typeHint ++ value)]
  | .for_ _ isAsync _ target iter body orElse => do
    let target ← target.render? false Rank.tuple
    let iter ← iter.text?
    let body ← Stmt.bodyLines? (depth + 1) body
    let orElse ← Stmt.clauseLines? depth "else" orElse
    let word := if isAsync then "async for " else "for "
    return indented depth (word ++ target ++ " in " ++ iter ++ ":") :: body ++ orElse
  | .while_ _ _ test body orElse => do
    let test ← test.text?
    let body ← Stmt.bodyLines? (depth + 1) body
    let orElse ← Stmt.clauseLines? depth "else" orElse
    return indented depth ("while " ++ test ++ ":") :: body ++ orElse
  | .if_ _ test body orElse => do
    let test ← test.text?
    let body ← Stmt.bodyLines? (depth + 1) body
    let orElse ← Stmt.elseLines? depth orElse
    return indented depth ("if " ++ test ++ ":") :: body ++ orElse
  | .with_ _ isAsync items body => do
    let items ← items.mapM WithItem.text?
    let body ← Stmt.bodyLines? (depth + 1) body
    let word := if isAsync then "async with " else "with "
    return indented depth (word ++ ", ".intercalate items ++ ":") :: body
  | .match_ _ subject cases => do
    let subject ← subject.text?
    let cases ← MatchCase.lines? (depth + 1) cases
    return indented depth ("match " ++ subject ++ ":") :: cases
  | .raise _ none _ => some [indented depth "raise"]
  | .raise _ (some exc) cause => do
    let exc ← exc.text?
    return [indented depth ("raise " ++ exc ++ (← optionText? " from " cause))]
  | .try_ _ isStar body handlers orElse final => do
    let body ← Stmt.bodyLines? (depth + 1) body
    let handlers ← Handler.lines? depth (if isStar then "except*" else "except") handlers
    let orElse ← Stmt.clauseLines? depth "else" orElse
    let final ← Stmt.clauseLines? depth "finally" final
    return indented depth "try:" :: body ++ handlers ++ orElse ++ final
  | .assert_ _ test message => do
    let test ← test.text?
    return [indented depth ("assert " ++ test ++ (← optionText? ", " message))]
  | .import_ _ names | .supportImport _ names => some [indented depth ("import " ++ aliasList names)]
  | .importFrom _ module names level =>
    let dots := String.ofList (List.replicate level '.')
    some [indented depth ("from " ++ dots ++ module.getD "" ++ " import " ++ aliasList names)]
  | .global _ names => some [indented depth ("global " ++ ", ".intercalate names)]
  | .nonlocal _ names => some [indented depth ("nonlocal " ++ ", ".intercalate names)]
  | .expr _ value => do
    return [indented depth (← value.render? false Rank.yield)]
  | .pass _ => some [indented depth "pass"]
  | .break_ .. => some [indented depth "break"]
  | .continue_ .. => some [indented depth "continue"]
  | .callbackLoop _ _ target iter body => do
    let _ ← target.render? false Rank.tuple
    let _ ← iter.text?
    Stmt.cutLines? depth body
  | .block _ _ _ body => Stmt.cutLines? depth body

def Stmt.bodyLines? (depth : Nat) : List Stmt → Option (List PrintedLine)
  | [] => some []
  | s :: rest => do
    let lines ← Stmt.lines? depth s
    let rest ← Stmt.bodyLines? depth rest
    return lines ++ rest

def Stmt.cutLines? (depth : Nat) : List Stmt → Option (List PrintedLine)
  | [] => some []
  | s :: rest => do
    let lines ← Stmt.lines? depth s
    let rest ← Stmt.cutLines? depth rest
    return PrintedLine.cut :: lines ++ rest

def Stmt.docLines? (depth : Nat) : List Stmt → Option (List PrintedLine)
  | [] => some []
  | s :: rest => do
    let rest ← Stmt.bodyLines? depth rest
    match docLine? depth s with
    | some line => return line :: rest
    | none => return (← Stmt.lines? depth s) ++ rest

def Stmt.clauseLines? (depth : Nat) (word : String) : List Stmt → Option (List PrintedLine)
  | [] => some []
  | s :: rest => do
    let lines ← Stmt.lines? (depth + 1) s
    let rest ← Stmt.bodyLines? (depth + 1) rest
    return indented depth (word ++ ":") :: lines ++ rest

def Stmt.elseLines? (depth : Nat) : List Stmt → Option (List PrintedLine)
  | [.if_ _ test body orElse] => do
    let test ← test.text?
    let body ← Stmt.bodyLines? (depth + 1) body
    let orElse ← Stmt.elseLines? depth orElse
    return indented depth ("elif " ++ test ++ ":") :: body ++ orElse
  | [] => some []
  | s :: rest => do
    let lines ← Stmt.lines? (depth + 1) s
    let rest ← Stmt.bodyLines? (depth + 1) rest
    return indented depth "else:" :: lines ++ rest

def Handler.lines? (depth : Nat) (word : String) : List Handler → Option (List PrintedLine)
  | [] => some []
  | .mk _ type name body :: rest => do
    let type ← optionText? " " type
    let name := (name.map (" as " ++ ·)).getD ""
    let body ← Stmt.bodyLines? (depth + 1) body
    let rest ← Handler.lines? depth word rest
    return indented depth (word ++ type ++ name ++ ":") :: body ++ rest

def MatchCase.lines? (depth : Nat) : List MatchCase → Option (List PrintedLine)
  | [] => some []
  | .mk pattern guard body :: rest => do
    let pattern ← pattern.text?
    let guard ← optionText? " if " guard
    let body ← Stmt.bodyLines? (depth + 1) body
    let rest ← MatchCase.lines? depth rest
    return indented depth ("case " ++ pattern ++ guard ++ ":") :: body ++ rest

end

def moduleText? (body : List Stmt) : Option String := do
  match PrintedLine.texts (← Stmt.docLines? 0 body) with
  | "" :: lines => return "\n".intercalate lines
  | lines => return "\n".intercalate lines

end LoopEscape
