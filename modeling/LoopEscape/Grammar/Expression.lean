import LoopEscape.Grammar.Parser

/-!
# Parsing expressions

The grammar of expressions, by precedence.  What is nested inside brackets or after a prefix operator
is parsed by a grammar of one level less, so that every parser here is an ordinary function of the
parsers one level below.
-/

namespace LoopEscape

open Text LoopEscape.Parser

/-- The parsers that expressions are nested by, and where places of the plain code lie in the
source. -/
structure Grammar where
  place : Position → Position
  expression : Parser Expr
  inversion : Parser Expr
  factor : Parser Expr

namespace Grammar

def spanFrom (g : Grammar) (start : Position) : Parser Span := do
  let s := g.place start
  let e := g.place (← lastStop)
  return ⟨s.row, s.col, e.row, e.col⟩

def tokenSpan (g : Grammar) (t : Token) : Span :=
  let s := g.place t.start
  let e := g.place t.stop
  ⟨s.row, s.col, e.row, e.col⟩

def startWords : List String := ["not", "lambda", "await", "None", "True", "False"]

def startOps : List String := ["(", "[", "\x7b", "-", "+", "~", "..."]

def startsExpression (t : Token) : Bool :=
  match t.kind with
  | .name => t.isIdentifier || startWords.contains t.text
  | .number | .string => true
  | .op => startOps.contains t.text
  | _ => false

def startsStarred (t : Token) : Bool := startsExpression t || t.isOp "*"

end Grammar

/-! ### Targets -/

mutual

def Expr.target? (access : Access) : Expr → Option Expr
  | .name s id _ => some (.name s id access)
  | .member s v n _ => some (.member s v n access)
  | .subscript s v i _ => some (.subscript s v i access)
  | .starred s v _ =>
    if access = .del then none else (Expr.target? access v).map fun v => .starred s v access
  | .tuple s es _ => (Expr.targets? access es).map fun es => .tuple s es access
  | .list s es _ => (Expr.targets? access es).map fun es => .list s es access
  | _ => none

def Expr.targets? (access : Access) : List Expr → Option (List Expr)
  | [] => some []
  | e :: es =>
    match Expr.target? access e, Expr.targets? access es with
    | some e, some es => some (e :: es)
    | _, _ => none

end

def Expr.singleTarget? : Expr → Option Expr
  | .name s id _ => some (.name s id .store)
  | .member s v n _ => some (.member s v n .store)
  | .subscript s v i _ => some (.subscript s v i .store)
  | _ => none

namespace Grammar

variable (g : Grammar)

/-! ### Operators -/

def leftBinary (operand : Parser Expr) (ops : List (String × BinOp)) : Parser Expr := do
  let start ← here
  let first ← operand
  let step : Expr → Parser (Option Expr) := fun left => do
    let t ← peek
    match if t.kind == .op then ops.lookup t.text else none with
    | none => return none
    | some op =>
      let _ ← next
      let right ← operand
      return some (.binary (← g.spanFrom start) left op right)
  chain step first

def joinedBy (operand : Parser Expr) (name : String) (op : BoolOp) : Parser Expr := do
  let start ← here
  let first ← operand
  let rest ← many (do if ← word? name then return some (← operand) else return none)
  if rest.isEmpty then return first
  else return .boolOp (← g.spanFrom start) op (first :: rest)

def compareOps : List (String × CompareOp) :=
  [("==", .eq), ("!=", .notEq), ("<=", .lessEq), ("<", .less), (">=", .greaterEq), (">", .greater)]

def compareOp : Parser (Option CompareOp) := do
  let t ← peek
  if t.kind == .op then
    match compareOps.lookup t.text with
    | none => return none
    | some op =>
      let _ ← next
      return some op
  else if t.isName "in" then
    let _ ← next
    return some .isIn
  else if t.isName "is" then
    let _ ← next
    if ← word? "not" then return some .isNot else return some .is
  else if t.isName "not" then
    if (← peekSecond).isName "in" then
      let _ ← next
      let _ ← next
      return some .notIn
    else return none
  else return none

/-! ### Lists of expressions -/

def assignment? : Parser (Option Expr) := do
  let t ← peek
  if t.isIdentifier && (← peekSecond).isOp ":=" then
    let start ← here
    let _ ← next
    let _ ← next
    let value ← g.expression
    let target := Expr.name (g.tokenSpan t) (identifierText t) .store
    return some (.named (← g.spanFrom start) target value)
  else return none

def namedExpression : Parser Expr := do
  match ← g.assignment? with
  | some e => return e
  | none => g.expression

end Grammar

def BinOp.ranks : List (List (String × BinOp)) :=
  [[("|", .bitOr)], [("^", .bitXor)], [("&", .bitAnd)], [("<<", .leftShift), (">>", .rightShift)],
   [("+", .add), ("-", .sub)],
   [("*", .mult), ("/", .div), ("//", .floorDiv), ("%", .mod), ("@", .matMult)]]

namespace Grammar

variable (g : Grammar)

def bitOr : Parser Expr :=
  BinOp.ranks.foldr (fun ops operand => g.leftBinary operand ops) g.factor

def starred (value : Parser Expr) : Parser Expr := do
  let start ← here
  op "*"
  let v ← value
  return .starred (← g.spanFrom start) v .load

def starNamed : Parser Expr := do
  if ← isAtOp ["*"] then g.starred g.bitOr else g.namedExpression

def starExpression : Parser Expr := do
  if ← isAtOp ["*"] then g.starred g.bitOr else g.expression

def tupleOf (item : Parser Expr) : Parser Expr := do
  let start ← here
  let (es, comma) ← commaList item startsStarred
  match es, comma with
  | [e], false => return e
  | es, _ => return .tuple (← g.spanFrom start) es .load

def starExpressions : Parser Expr := g.tupleOf g.starExpression

def yieldExpression : Parser Expr := do
  let start ← here
  word "yield"
  if ← word? "from" then
    let v ← g.expression
    return .yieldFrom (← g.spanFrom start) v
  else if startsStarred (← peek) then
    let v ← g.starExpressions
    return .yield (← g.spanFrom start) (some v)
  else return .yield (← g.spanFrom start) none

def rightSide : Parser Expr := do
  if ← isAtWord ["yield"] then g.yieldExpression else g.starExpressions

/-! ### Parameters -/

structure ParamList where
  positional : List Param := []
  either : List Param := []
  rest : Option Param := none
  named : List Param := []
  namedRest : Option Param := none
  slash : Bool := false
  star : Bool := false
  waiting : Bool := false

def param (lambda starAnnotation : Bool) : Parser (Option Expr → Param) := do
  let start ← here
  let name ← identifier
  if ← opIf (!lambda) ":" then
    let typeHint ← if starAnnotation then g.starExpression else g.expression
    let span ← g.spanFrom start
    return fun d => .mk span name (some typeHint) d
  else
    let span ← g.spanFrom start
    return fun d => .mk span name none d

def isParamsEnd (lambda : Bool) (t : Token) : Bool := if lambda then t.isOp ":" else t.isOp ")"

def paramEntry (lambda : Bool) (acc : ParamList) : Parser ParamList := do
  if acc.namedRest.isSome then fail
  else if ← op? "/" then
    if acc.slash || acc.star || acc.either.isEmpty then fail
    else return { acc with positional := acc.either, either := [], slash := true }
  else if ← op? "**" then
    if acc.waiting then fail
    else return { acc with namedRest := some ((← g.param lambda false) none), star := true }
  else if ← op? "*" then
    if acc.star then fail
    else if (← peek).isOp "," then return { acc with star := true, waiting := true }
    else return { acc with rest := some ((← g.param lambda true) none), star := true }
  else
    let p ← g.param lambda false
    let value ← if ← op? "=" then some <$> g.expression else pure none
    if acc.star then return { acc with named := acc.named ++ [p value], waiting := false }
    else
      let hasDefault := (acc.positional ++ acc.either).any (·.default.isSome)
      if hasDefault && value.isNone then fail
      else return { acc with either := acc.either ++ [p value] }

def paramList (lambda : Bool) : Parser Params := do
  if isParamsEnd lambda (← peek) then return Params.empty
  else
    let step : ParamList × Bool → Parser (Option (ParamList × Bool)) := fun (acc, comma) => do
      if comma then
        if isParamsEnd lambda (← peek) then return none
        else return some (← g.paramEntry lambda acc, false)
      else if ← op? "," then return some (acc, true)
      else return none
    let first ← g.paramEntry lambda {}
    let (acc, _) ← chain step (first, false)
    if acc.waiting then fail
    else return .mk acc.positional acc.either acc.rest acc.named acc.namedRest

def lambda : Parser Expr := do
  let start ← here
  word "lambda"
  let params ← g.paramList true
  op ":"
  let body ← g.expression
  return .lambda (← g.spanFrom start) params body

/-! ### Strings -/

def fieldExpression (text : List Char) (start : Position) : Option Expr :=
  let code := String.ofList ('(' :: text ++ [')'])
  let move := fun (p : Position) =>
    (if p.row = 1 then ⟨start.row, start.col + p.col⟩ else ⟨start.row + p.row - 1, p.col⟩ : Position)
  let lexed := lex code
  let tokens := lexed.tokens.map fun t => { t with start := move t.start, stop := move t.stop }
  if lexed.problem.isSome then none else onTokens g.starExpressions tokens

mutual

def pieceNodes (span : Span) (marked : Bool) (token : Token) (lead : Nat) :
    List Reading.Piece → Option (List Expr)
  | [] => some []
  | p :: ps =>
    match pieceNode span marked token lead p, pieceNodes span marked token lead ps with
    | some e, some es => some (e :: es)
    | _, _ => none

def pieceNode (span : Span) (marked : Bool) (token : Token) (lead : Nat) :
    Reading.Piece → Option Expr
  | .text codes => some (.const span (.str codes marked))
  | .field offset expr conversion format =>
    let before := token.text.toList.take (lead + offset)
    match g.fieldExpression expr (Reading.fieldStart token.start before expr) with
    | none => none
    | some value =>
      match format with
      | none => some (.formatted span value conversion none)
      | some ps =>
        (pieceNodes span marked token lead ps).map fun es =>
          .formatted span value conversion (some (.joined span es))

end

/-- A piece of a concatenation of strings: a node, or a text that may be joined to others. -/
inductive StringPart
  | text (codes : List Code)
  | node (e : Expr)

def stringParts (span : Span) (marked : Bool) (t : Token) (q : Reading.Quoted) :
    Option (List StringPart) :=
  if q.formatted then do
    let ps ← Reading.allPieces q.raw q.body
    ps.mapM fun p => match p with
      | .text codes => some (.text codes)
      | p => (g.pieceNode span marked t q.lead p).map .node
  else (Reading.decode q.raw false q.body).map fun codes => [.text codes]

def joinParts (span : Span) (marked : Bool) : List Code → List StringPart → List Expr
  | acc, [] => if acc.isEmpty then [] else [.const span (.str acc marked)]
  | acc, .text codes :: ps => joinParts span marked (acc ++ codes) ps
  | acc, .node e :: ps =>
    (if acc.isEmpty then [] else [.const span (.str acc marked)]) ++
      e :: joinParts span marked [] ps

def strings : Parser Expr := do
  let start ← here
  let tokens ← many (do
    let t ← peek
    if t.kind == .string then return some (← next) else return none)
  let span ← g.spanFrom start
  let quoted := tokens.map fun t => (t, Reading.Quoted.of t.text.toList)
  if quoted.all fun q => q.2.bytes then
    let ascii := quoted.all fun q => q.2.body.all (·.toNat < 128)
    let bytes ← ofOption (quoted.mapM fun q => Reading.decode q.2.raw true q.2.body)
    if ascii then return .const span (.bytes bytes.flatten) else fail
  else if quoted.any fun q => q.2.bytes then fail
  else
    let marked := (quoted.head?.map (·.2.marked)).getD false
    let parts ← ofOption (quoted.mapM fun q => g.stringParts span marked q.1 q.2)
    if quoted.any fun q => q.2.formatted then
      return .joined span (joinParts span marked [] parts.flatten)
    else
      let codes := parts.flatten.flatMap fun p => match p with
        | .text codes => codes
        | .node _ => []
      return .const span (.str codes marked)

/-! ### Comprehensions -/

def disjunction : Parser Expr :=
  g.joinedBy (g.joinedBy g.inversion "and" .and) "or" .or

end Grammar

namespace Grammar

variable (g : Grammar)

def loopTargets (primary : Parser Expr) : Parser Expr := do
  let item : Parser Expr := do
    if ← isAtOp ["*"] then g.starred primary else primary
  let e ← g.tupleOf item
  ofOption (e.target? .store)

def compClauses (primary : Parser Expr) : Parser (List CompClause) := many (do
  let isAsync ← if (← peekSecond).isName "for" then word? "async" else pure false
  if ← word? "for" then
    let target ← g.loopTargets primary
    word "in"
    let iter ← g.disjunction
    let conditions ← many (do if ← word? "if" then return some (← g.disjunction) else return none)
    return some (.mk isAsync target iter conditions)
  else return none)

def isAtComp : Parser Bool := do
  let t ← peek
  return t.isName "for" || (t.isName "async" && (← peekSecond).isName "for")

/-! ### Atoms -/

def parenthesised (primary : Parser Expr) : Parser Expr := do
  let start ← here
  op "("
  if ← op? ")" then return .tuple (← g.spanFrom start) [] .load
  else if ← isAtWord ["yield"] then
    let e ← g.yieldExpression
    op ")"
    return e
  else
    let isStar ← isAtOp ["*"]
    let first ← g.starNamed
    if !isStar && (← isAtComp) then
      let clauses ← g.compClauses primary
      op ")"
      return .comp (← g.spanFrom start) .generator first clauses
    else if ← isAtOp [","] then
      let rest ← moreItems g.starNamed startsStarred
      op ")"
      return .tuple (← g.spanFrom start) (first :: rest) .load
    else if isStar then fail
    else
      op ")"
      return first

def listDisplay (primary : Parser Expr) : Parser Expr := do
  let start ← here
  op "["
  if ← op? "]" then return .list (← g.spanFrom start) [] .load
  else
    let isStar ← isAtOp ["*"]
    let first ← g.starNamed
    if !isStar && (← isAtComp) then
      let clauses ← g.compClauses primary
      op "]"
      return .comp (← g.spanFrom start) .list first clauses
    else
      let rest ← moreItems g.starNamed startsStarred
      op "]"
      return .list (← g.spanFrom start) (first :: rest) .load

def dictItem : Parser DictItem := do
  if ← op? "**" then return .spread (← g.bitOr)
  else
    let key ← g.expression
    op ":"
    return .pair key (← g.expression)

def startsDictItem (t : Token) : Bool := startsExpression t || t.isOp "**"

def dictTail (start : Position) (first : DictItem) : Parser Expr := do
  let rest ← moreItems g.dictItem startsDictItem
  op "\x7d"
  return .dict (← g.spanFrom start) (first :: rest)

def braced (primary : Parser Expr) : Parser Expr := do
  let start ← here
  op "\x7b"
  if ← op? "\x7d" then return .dict (← g.spanFrom start) []
  else if ← isAtOp ["**"] then g.dictTail start (← g.dictItem)
  else
    let isStar ← isAtOp ["*"]
    let isNamed := (← peek).isIdentifier && (← peekSecond).isOp ":="
    let first ← g.starNamed
    if ← opIf (!isStar && !isNamed) ":" then
      let value ← g.expression
      if ← isAtComp then
        let clauses ← g.compClauses primary
        op "\x7d"
        return .dictComp (← g.spanFrom start) first value clauses
      else g.dictTail start (.pair first value)
    else if !isStar && (← isAtComp) then
      let clauses ← g.compClauses primary
      op "\x7d"
      return .comp (← g.spanFrom start) .set first clauses
    else
      let rest ← moreItems g.starNamed startsStarred
      op "\x7d"
      return .set (← g.spanFrom start) (first :: rest)

def atom (primary : Parser Expr) : Parser Expr := do
  let t ← peek
  match t.kind with
  | .number =>
    let _ ← next
    return .const (g.tokenSpan t) (← ofOption (Reading.number? t.text.toList))
  | .string => g.strings
  | .name =>
    if t.isIdentifier then
      let _ ← next
      return .name (g.tokenSpan t) (identifierText t) .load
    else
      let constants : List (String × Literal) :=
        [("None", .none), ("True", .true), ("False", .false)]
      match constants.lookup t.text with
      | some c =>
        let _ ← next
        return .const (g.tokenSpan t) c
      | none => fail
  | .op =>
    if t.text == "(" then g.parenthesised primary
    else if t.text == "[" then g.listDisplay primary
    else if t.text == "\x7b" then g.braced primary
    else if t.text == "..." then
      let _ ← next
      return .const (g.tokenSpan t) .ellipsis
    else fail
  | _ => fail

/-! ### Calls and subscripts -/

structure Arguments where
  args : List Expr := []
  keywords : List Keyword := []
  named : Bool := false
  mapped : Bool := false

def argument (acc : Arguments) : Parser Arguments := do
  let t ← peek
  let start ← here
  if t.isOp "**" then
    let _ ← next
    let v ← g.expression
    let k := Keyword.mk (← g.spanFrom start) none v
    return { acc with keywords := acc.keywords ++ [k], named := true, mapped := true }
  else if t.isOp "*" then
    if acc.mapped then fail
    else
      let e ← g.starred g.expression
      return { acc with args := acc.args ++ [e] }
  else if t.isIdentifier && (← peekSecond).isOp "=" then
    let _ ← next
    let _ ← next
    let v ← g.expression
    let k := Keyword.mk (← g.spanFrom start) (some (identifierText t)) v
    return { acc with keywords := acc.keywords ++ [k], named := true }
  else if acc.named then fail
  else
    let e ← g.namedExpression
    return { acc with args := acc.args ++ [e] }

def argumentsFrom (first : Arguments) : Parser Arguments := do
  let step : Arguments × Bool → Parser (Option (Arguments × Bool)) := fun (acc, comma) => do
    if comma then
      if (← peek).isOp ")" then return none
      else return some (← g.argument acc, false)
    else if ← op? "," then return some (acc, true)
    else return none
  let (acc, _) ← chain step (first, false)
  return acc

def arguments : Parser Arguments := do
  if (← peek).isOp ")" then return {}
  else g.argumentsFrom (← g.argument {})

/-- The arguments of a call with their brackets; a lone generator needs no brackets of its own. -/
def callArguments (primary : Parser Expr) : Parser Arguments := do
  let start ← here
  op "("
  if ← op? ")" then return {}
  else
    let first ← g.argument {}
    if first.args.length = 1 && (← isAtComp) then
      match first.args with
      | [.starred ..] => fail
      | [element] =>
        let clauses ← g.compClauses primary
        op ")"
        return { args := [.comp (← g.spanFrom start) .generator element clauses] }
      | _ => fail
    else
      let acc ← g.argumentsFrom first
      op ")"
      return acc

def slicePart : Parser (Option Expr) := do
  if startsExpression (← peek) then return some (← g.expression) else return none

def sliceTail (start : Position) (lower : Option Expr) : Parser Expr := do
  let upper ← g.slicePart
  let step ← if ← op? ":" then g.slicePart else pure none
  return .slice (← g.spanFrom start) lower upper step

def subscriptItem : Parser Expr := do
  let start ← here
  if ← isAtOp ["*"] then g.starred g.expression
  else if ← op? ":" then g.sliceTail start none
  else
    let isNamed := (← peek).isIdentifier && (← peekSecond).isOp ":="
    let e ← g.namedExpression
    if ← opIf (!isNamed) ":" then g.sliceTail start (some e) else return e

def startsSubscript (t : Token) : Bool := startsStarred t || t.isOp ":"

def subscriptIndex : Parser Expr := do
  let start ← here
  let isStar ← isAtOp ["*"]
  let (es, comma) ← commaList g.subscriptItem startsSubscript
  match es, comma, isStar with
  | [e], false, false => return e
  | es, _, _ => return .tuple (← g.spanFrom start) es .load

def trailer (primary : Parser Expr) (start : Position) (e : Expr) : Parser (Option Expr) := do
  let t ← peek
  if t.isOp "." then
    let _ ← next
    let name ← identifier
    return some (.member (← g.spanFrom start) e name .load)
  else if t.isOp "(" then
    let acc ← g.callArguments primary
    return some (.call (← g.spanFrom start) e acc.args acc.keywords)
  else if t.isOp "[" then
    let _ ← next
    let index ← g.subscriptIndex
    op "]"
    return some (.subscript (← g.spanFrom start) e index .load)
  else return none

end Grammar

namespace Grammar

/-- Atoms with what follows them.  Targets of comprehensions inside an atom are again of this kind, one
level down. -/
def primaryOver (g : Grammar) (inner : Parser Expr) : Parser Expr := do
  let start ← here
  let a ← g.atom inner
  chain (g.trailer inner start) a

variable (g : Grammar)

def powerOver (inner : Parser Expr) : Parser Expr := do
  let start ← here
  let base ← if ← word? "await" then (do
      let v ← g.primaryOver inner
      return .await (← g.spanFrom start) v)
    else g.primaryOver inner
  if ← op? "**" then
    let exponent ← g.factor
    return .binary (← g.spanFrom start) base .pow exponent
  else return base

def signs : List (String × UnaryOp) := [("+", .plus), ("-", .minus), ("~", .invert)]

def factorOver (inner : Parser Expr) : Parser Expr := do
  let t ← peek
  match if t.kind == .op then signs.lookup t.text else none with
  | some sign =>
    let start ← here
    let _ ← next
    let operand ← g.factor
    return .unary (← g.spanFrom start) sign operand
  | none => g.powerOver inner

def comparison (operand : Parser Expr) : Parser Expr := do
  let start ← here
  let left ← operand
  let rest ← many (do
    match ← compareOp with
    | none => return none
    | some c => return some (c, ← operand))
  if rest.isEmpty then return left else return .compare (← g.spanFrom start) left rest

def inversionOver (operand : Parser Expr) : Parser Expr := do
  let start ← here
  if ← word? "not" then
    let operand ← g.inversion
    return .unary (← g.spanFrom start) .not operand
  else g.comparison operand

def expressionOver (disjunction : Parser Expr) : Parser Expr := do
  if ← isAtWord ["lambda"] then g.lambda
  else
    let start ← here
    let body ← disjunction
    if ← word? "if" then
      let test ← disjunction
      word "else"
      let orElse ← g.expression
      return .conditional (← g.spanFrom start) test body orElse
    else return body

end Grammar

structure Level where
  grammar : Grammar
  primary : Parser Expr

namespace Level

def above (l : Level) : Level :=
  let g := l.grammar
  let primary := g.primaryOver l.primary
  let factor := g.factorOver l.primary
  let operand := BinOp.ranks.foldr (fun ops operand => g.leftBinary operand ops) factor
  let inversion := g.inversionOver operand
  let disjunction := g.joinedBy (g.joinedBy inversion "and" .and) "or" .or
  { grammar := { g with expression := g.expressionOver disjunction, inversion, factor }, primary }

def ofDepth (place : Position → Position) : Nat → Level
  | 0 => ⟨⟨place, Parser.fail, Parser.fail, Parser.fail⟩, Parser.fail⟩
  | n + 1 => (ofDepth place n).above

end Level

end LoopEscape
