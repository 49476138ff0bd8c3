import LoopEscape.Grammar.Expression
import LoopEscape.Tree.Stmt

/-!
# Parsing statements

The grammar of statements.  Blocks inside blocks are parsed one level down, as expressions inside
brackets are.
-/

namespace LoopEscape

open Text LoopEscape.Parser

namespace Level

variable (l : Level)

def locFrom (start : Position) : Parser Loc := do return { span := ← l.grammar.spanFrom start }

/-! ### Simple statements -/

def dottedName : Parser String := do
  let first ← identifier
  let rest ← many (do if ← op? "." then return some (← identifier) else return none)
  return ".".intercalate (first :: rest)

def asName : Parser (Option String) := do
  if ← word? "as" then some <$> identifier else pure none

def aliasOf (name : Parser String) : Parser Alias := do
  let start ← here
  let name ← name
  let asName ← asName
  return ⟨← l.grammar.spanFrom start, name, asName⟩

def never (_ : Token) : Bool := false

def strictList {α : Type} (item : Parser α) : Parser (List α) := do
  let first ← item
  let rest ← many (do if ← op? "," then return some (← item) else return none)
  return first :: rest

def importStmt : Parser Stmt := do
  let start ← here
  word "import"
  let names ← strictList (l.aliasOf dottedName)
  return .import_ (← l.locFrom start) names

def relativeLevel : Parser Nat := do
  let dots ← many (do
    if ← op? "." then return some 1
    else if ← op? "..." then return some 3
    else return none)
  return dots.foldl (· + ·) 0

def importTargets : Parser (List Alias) := do
  let start ← here
  if ← op? "*" then return [⟨← l.grammar.spanFrom start, "*", none⟩]
  else if ← op? "(" then
    let (names, _) ← commaList (l.aliasOf identifier) Token.isIdentifier
    op ")"
    return names
  else strictList (l.aliasOf identifier)

def importFrom : Parser Stmt := do
  let start ← here
  word "from"
  let level ← relativeLevel
  let module ← if level ≠ 0 && (← isAtWord ["import"]) then pure none else some <$> dottedName
  word "import"
  let names ← l.importTargets
  return .importFrom (← l.locFrom start) module names level

def augmentedOps : List (String × BinOp) :=
  [("+=", .add), ("-=", .sub), ("*=", .mult), ("@=", .matMult), ("/=", .div), ("%=", .mod),
   ("&=", .bitAnd), ("|=", .bitOr), ("^=", .bitXor), ("<<=", .leftShift), (">>=", .rightShift),
   ("**=", .pow), ("//=", .floorDiv)]

def assignTail (start : Position) (first : Expr) : Parser Stmt := do
  let step : List Expr → Parser (Option (List Expr)) := fun es => do
    if ← op? "=" then return some (es ++ [← l.grammar.rightSide]) else return none
  let es ← chain step [first]
  match es.getLast? with
  | none => fail
  | some value =>
    let targets ← ofOption (es.dropLast.mapM fun e => e.target? .store)
    return .assign (← l.locFrom start) targets value

/-- A statement that starts with an expression: a declaration, an assignment or the expression
alone. -/
def expressionStmt : Parser Stmt := do
  let start ← here
  let isName := (← peek).isIdentifier
  let e ← l.grammar.rightSide
  let t ← peek
  if t.isOp ":" then
    let target ← ofOption e.singleTarget?
    let simple := match e with
      | .name .. => isName
      | _ => false
    let _ ← next
    let typeHint ← l.grammar.expression
    let value ← if ← op? "=" then some <$> l.grammar.rightSide else pure none
    return .annAssign (← l.locFrom start) target typeHint value simple
  else if t.isOp "=" then l.assignTail start e
  else match if t.kind == .op then augmentedOps.lookup t.text else none with
    | some op =>
      let target ← ofOption e.singleTarget?
      let _ ← next
      let value ← l.grammar.rightSide
      return .augAssign (← l.locFrom start) target op value
    | none => return .expr (← l.locFrom start) e

def deleteStmt : Parser Stmt := do
  let start ← here
  word "del"
  let (es, _) ← commaList l.primary Grammar.startsExpression
  let targets ← ofOption (es.mapM fun e => e.target? .del)
  return .delete (← l.locFrom start) targets

def optionalExpressions : Parser (Option Expr) := do
  if Grammar.startsStarred (← peek) then some <$> l.grammar.starExpressions else pure none

def raiseStmt : Parser Stmt := do
  let start ← here
  word "raise"
  if Grammar.startsExpression (← peek) then
    let exc ← l.grammar.expression
    let cause ← if ← word? "from" then some <$> l.grammar.expression else pure none
    return .raise (← l.locFrom start) (some exc) cause
  else return .raise (← l.locFrom start) none none

def simpleStmt : Parser Stmt := do
  let t ← peek
  let start ← here
  if t.kind != .name || t.isIdentifier then l.expressionStmt
  else match t.text with
    | "return" =>
      let _ ← next
      let value ← l.optionalExpressions
      return .return_ (← l.locFrom start) value
    | "import" => l.importStmt
    | "from" => l.importFrom
    | "raise" => l.raiseStmt
    | "pass" =>
      let _ ← next
      return .pass (← l.locFrom start)
    | "del" => l.deleteStmt
    | "assert" =>
      let _ ← next
      let test ← l.grammar.expression
      let message ← if ← op? "," then some <$> l.grammar.expression else pure none
      return .assert_ (← l.locFrom start) test message
    | "break" =>
      let _ ← next
      return .break_ (← l.locFrom start) none none
    | "continue" =>
      let _ ← next
      return .continue_ (← l.locFrom start) none
    | "global" =>
      let _ ← next
      let names ← strictList identifier
      return .global (← l.locFrom start) names
    | "nonlocal" =>
      let _ ← next
      let names ← strictList identifier
      return .nonlocal (← l.locFrom start) names
    | _ => l.expressionStmt

def isLineEnd (t : Token) : Bool := t.kind == .newline

def simpleStmts : Parser (List Stmt) := do
  let first ← l.simpleStmt
  let rest ← many (do
    if ← op? ";" then
      if isLineEnd (← peek) then return none else return some (← l.simpleStmt)
    else return none)
  let _ ← ofKind .newline
  return first :: rest

/-! ### Patterns -/

def signedNumber : Parser Expr := do
  let start ← here
  let g := l.grammar
  let number : Parser Expr := do
    let t ← ofKind .number
    return .const (g.tokenSpan t) (← ofOption (Reading.number? t.text.toList))
  let isReal : Expr → Bool
    | .const _ (.imaginary _) => false
    | _ => true
  let negative ← op? "-"
  let n ← number
  let span ← g.spanFrom start
  let real := if negative then .unary span .minus n else n
  let sum (op : BinOp) : Parser Expr := do
    let m ← number
    if isReal n && !isReal m then return .binary (← g.spanFrom start) real op m else fail
  if ← op? "+" then sum .add
  else if ← op? "-" then sum .sub
  else return real

def memberChain : Parser Expr := do
  let start ← here
  let t ← expect Token.isIdentifier
  let g := l.grammar
  let step : Expr → Parser (Option Expr) := fun e => do
    if ← op? "." then
      let name ← identifier
      return some (.member (← g.spanFrom start) e name .load)
    else return none
  chain step (.name (g.tokenSpan t) (identifierText t) .load)

def captureName : Parser String := do
  let t ← expect fun t => t.isIdentifier && t.text != "_"
  return identifierText t

def singletons : List (String × Literal) := [("None", .none), ("True", .true), ("False", .false)]

def startsLiteral (t : Token) : Bool :=
  t.kind == .number || t.kind == .string || t.isOp "-" ||
    (t.kind == .name && (singletons.lookup t.text).isSome)

def literalExpr : Parser Expr := do
  let t ← peek
  if t.kind == .string then l.grammar.strings
  else match if t.kind == .name then singletons.lookup t.text else none with
    | some c =>
      let _ ← next
      return .const (l.grammar.tokenSpan t) c
    | none => l.signedNumber

def startsPattern (t : Token) : Bool :=
  startsLiteral t || t.isIdentifier || t.isOp "(" || t.isOp "[" || t.isOp "\x7b"

def startsStarPattern (t : Token) : Bool := startsPattern t || t.isOp "*"

variable (inner : Parser CasePattern)

def starPattern : Parser CasePattern := do
  let start ← here
  if ← op? "*" then
    let t ← expect Token.isIdentifier
    let name := if t.text == "_" then none else some (identifierText t)
    return .star (← l.grammar.spanFrom start) name
  else inner

def mappingItem : Parser (Expr × CasePattern) := do
  let key ← if startsLiteral (← peek) then l.literalExpr else (do
    let e ← l.memberChain
    match e with
    | .member .. => return e
    | _ => fail)
  op ":"
  return (key, ← inner)

def mappingPattern : Parser CasePattern := do
  let start ← here
  op "\x7b"
  let starts := fun (t : Token) => startsLiteral t || t.isIdentifier
  let (items, open_) ← if starts (← peek) then commaList (l.mappingItem inner) starts
    else pure ([], true)
  let rest ← if ← opIf open_ "**" then (do
      let name ← captureName
      let _ ← op? ","
      return some name)
    else pure none
  op "\x7d"
  return .mapping (← l.grammar.spanFrom start) (items.map (·.1)) (items.map (·.2)) rest

def classArgument : Parser (Option String × CasePattern) := do
  let t ← peek
  if t.isIdentifier && (← peekSecond).isOp "=" then
    let _ ← next
    let _ ← next
    return (some (identifierText t), ← inner)
  else return (none, ← inner)

def isOrdered : List (Option String × CasePattern) → Bool
  | [] => true
  | (none, _) :: rest => isOrdered rest
  | (some _, _) :: rest => rest.all fun a => a.1.isSome

def namePattern : Parser CasePattern := do
  let start ← here
  let t ← peek
  let g := l.grammar
  let e ← l.memberChain
  if ← op? "(" then
    let args ← if startsPattern (← peek) then (do
        let (args, _) ← commaList (classArgument inner) startsPattern
        return args)
      else pure []
    op ")"
    if isOrdered args then
      let named := args.filterMap fun a => a.1.map fun n => (n, a.2)
      let positional := args.filterMap fun a => if a.1.isNone then some a.2 else none
      return .ofClass (← g.spanFrom start) e positional (named.map (·.1)) (named.map (·.2))
    else fail
  else match e with
    | .name span id _ =>
      if t.text == "_" then return .as_ span none none else return .as_ span none (some id)
    | e => return .value (← g.spanFrom start) e

def closedPattern : Parser CasePattern := do
  let start ← here
  let t ← peek
  let g := l.grammar
  if t.isIdentifier then
    if t.text == "_" then
      let _ ← next
      return .as_ (g.tokenSpan t) none none
    else l.namePattern inner
  else if t.isOp "(" then
    let _ ← next
    if ← op? ")" then return .sequence (← g.spanFrom start) []
    else
      let isStar ← isAtOp ["*"]
      let first ← l.starPattern inner
      if ← isAtOp [","] then
        let rest ← moreItems (l.starPattern inner) startsStarPattern
        op ")"
        return .sequence (← g.spanFrom start) (first :: rest)
      else if isStar then fail
      else
        op ")"
        return first
  else if t.isOp "[" then
    let _ ← next
    if ← op? "]" then return .sequence (← g.spanFrom start) []
    else
      let (ps, _) ← commaList (l.starPattern inner) startsStarPattern
      op "]"
      return .sequence (← g.spanFrom start) ps
  else if t.isOp "\x7b" then l.mappingPattern inner
  else match if t.kind == .name then singletons.lookup t.text else none with
    | some c =>
      let _ ← next
      return .singleton (g.tokenSpan t) c
    | none =>
      let e ← l.literalExpr
      return .value (← g.spanFrom start) e

def patternOver : Parser CasePattern := do
  let start ← here
  let g := l.grammar
  let first ← l.closedPattern inner
  let rest ← many (do if ← op? "|" then return some (← l.closedPattern inner) else return none)
  let p ← if rest.isEmpty then pure first
    else (do return .or_ (← g.spanFrom start) (first :: rest))
  if ← word? "as" then
    let name ← captureName
    return .as_ (← g.spanFrom start) (some p) (some name)
  else return p

def patternAt : Nat → Parser CasePattern
  | 0 => fail
  | n + 1 => l.patternOver (patternAt n)

def casePattern (depth : Nat) : Parser CasePattern := do
  let start ← here
  let isStar ← isAtOp ["*"]
  let item := l.starPattern (l.patternAt depth)
  let first ← item
  if ← isAtOp [","] then
    let rest ← moreItems item startsStarPattern
    return .sequence (← l.grammar.spanFrom start) (first :: rest)
  else if isStar then fail
  else return first

end Level

/-! ### Compound statements -/

structure Blocks where
  level : Level
  depth : Nat
  block : Parser (List Stmt)

namespace Blocks

variable (b : Blocks)

def suite : Parser (List Stmt) := do
  op ":"
  b.block

def elseSuite : Parser (List Stmt) := do
  if ← word? "else" then b.suite else pure []

def nestElifs (stop : Span) (orElse : List Stmt) : List (Span × Expr × List Stmt) → List Stmt
  | [] => orElse
  | (start, test, body) :: rest =>
    let span := { start with endLine := stop.endLine, endCol := stop.endCol }
    [.if_ { span } test body (nestElifs stop orElse rest)]

def ifStmt : Parser Stmt := do
  let start ← here
  let g := b.level.grammar
  word "if"
  let test ← g.namedExpression
  let body ← b.suite
  let elifs ← many (do
    let start ← here
    if ← word? "elif" then
      let span ← g.spanFrom start
      let test ← g.namedExpression
      let body ← b.suite
      return some (span, test, body)
    else return none)
  let orElse ← b.elseSuite
  let loc ← b.level.locFrom start
  return .if_ loc test body (nestElifs loc.span orElse elifs)

def whileStmt : Parser Stmt := do
  let start ← here
  word "while"
  let test ← b.level.grammar.namedExpression
  let body ← b.suite
  let orElse ← b.elseSuite
  return .while_ (← b.level.locFrom start) {} test body orElse

def forStmt (start : Position) (isAsync : Bool) : Parser Stmt := do
  let g := b.level.grammar
  word "for"
  let target ← g.loopTargets b.level.primary
  word "in"
  let iter ← g.starExpressions
  let body ← b.suite
  let orElse ← b.elseSuite
  return .for_ (← b.level.locFrom start) isAsync {} target iter body orElse

def withItem : Parser WithItem := do
  let g := b.level.grammar
  let context ← g.expression
  if ← word? "as" then
    let e ← if ← isAtOp ["*"] then g.starred b.level.primary else b.level.primary
    return ⟨context, some (← ofOption (e.target? .store))⟩
  else return ⟨context, none⟩

def bracketedItems : Parser (List WithItem) := do
  op "("
  let (items, _) ← commaList b.withItem Grammar.startsExpression
  op ")"
  if ← isAtOp [":"] then return items else fail

def withStmt (start : Position) (isAsync : Bool) : Parser Stmt := do
  word "with"
  let items ← b.bracketedItems <|> Level.strictList b.withItem
  let body ← b.suite
  return .with_ (← b.level.locFrom start) isAsync items body

def handler (isStar : Bool) : Parser Handler := do
  let start ← here
  word "except"
  if isStar then op "*"
  if !isStar && (← isAtOp [":"]) then
    let body ← b.suite
    return .mk (← b.level.locFrom start) none none body
  else
    let type ← b.level.grammar.expression
    let name ← Level.asName
    let body ← b.suite
    return .mk (← b.level.locFrom start) (some type) name body

def tryStmt : Parser Stmt := do
  let start ← here
  word "try"
  let body ← b.suite
  let isStar := (← peekSecond).isOp "*"
  let handlers ← many (do
    if ← isAtWord ["except"] then return some (← b.handler isStar) else return none)
  let orElse ← if handlers.isEmpty then pure [] else b.elseSuite
  let final ← if ← word? "finally" then b.suite else pure []
  if handlers.isEmpty && final.isEmpty then fail
  else return .try_ (← b.level.locFrom start) (isStar && !handlers.isEmpty) body handlers orElse final

def functionStmt (start : Position) (isAsync : Bool) (decorators : List Expr) : Parser Stmt := do
  let g := b.level.grammar
  word "def"
  let name ← identifier
  op "("
  let params ← g.paramList false
  op ")"
  let returns ← if ← op? "->" then some <$> g.expression else pure none
  let body ← b.suite
  return .function (← b.level.locFrom start) isAsync name params body decorators returns

def classStmt (decorators : List Expr) : Parser Stmt := do
  let start ← here
  word "class"
  let name ← identifier
  let args ← if ← op? "(" then (do
      let args ← b.level.grammar.arguments
      op ")"
      return args)
    else pure {}
  let body ← b.suite
  return .class_ (← b.level.locFrom start) name args.args args.keywords body decorators

def decorated : Parser Stmt := do
  let decorators ← many (do
    if ← op? "@" then
      let e ← b.level.grammar.namedExpression
      let _ ← ofKind .newline
      return some e
    else return none)
  let start ← here
  if ← isAtWord ["class"] then b.classStmt decorators
  else
    let isAsync ← word? "async"
    b.functionStmt start isAsync decorators

def matchCase : Parser MatchCase := do
  word "case"
  let pattern ← b.level.casePattern b.depth
  let guard ← if ← word? "if" then some <$> b.level.grammar.namedExpression else pure none
  let body ← b.suite
  return .mk pattern guard body

def subject : Parser Expr := do
  let g := b.level.grammar
  let start ← here
  let isStar ← isAtOp ["*"]
  let first ← g.starNamed
  if ← isAtOp [","] then
    let rest ← moreItems g.starNamed Grammar.startsStarred
    return .tuple (← g.spanFrom start) (first :: rest) .load
  else if isStar then fail
  else return first

def matchStmt : Parser Stmt := do
  let start ← here
  word "match"
  let subject ← b.subject
  op ":"
  let _ ← ofKind .newline
  let _ ← ofKind .indent
  let first ← b.matchCase
  let rest ← many (do if ← isAtWord ["case"] then return some (← b.matchCase) else return none)
  let _ ← ofKind .dedent
  return .match_ (← b.level.locFrom start) subject (first :: rest)

def statement : Parser (List Stmt) := do
  let t ← peek
  let start ← here
  let one (p : Parser Stmt) : Parser (List Stmt) := do return [← p]
  if t.isOp "@" then one b.decorated
  else if t.kind != .name then b.level.simpleStmts
  else match t.text with
    | "if" => one b.ifStmt
    | "while" => one b.whileStmt
    | "for" => one (b.forStmt start false)
    | "with" => one (b.withStmt start false)
    | "try" => one b.tryStmt
    | "def" | "class" => one b.decorated
    | "async" =>
      let s ← peekSecond
      if s.isName "def" then one b.decorated
      else
        let _ ← next
        if s.isName "for" then one (b.forStmt start true) else one (b.withStmt start true)
    | "match" => one b.matchStmt <|> b.level.simpleStmts
    | _ => b.level.simpleStmts

def statements : Parser (List Stmt) := do
  let lines ← many (do
    let t ← peek
    if t.kind == .dedent || t.kind == .endMarker then return none else return some (← b.statement))
  return lines.flatten

/-- An indented block, which holds a statement at least, or simple statements on the same line. -/
def blockOver : Parser (List Stmt) := do
  let t ← peek
  if t.kind == .newline then
    let _ ← next
    let _ ← ofKind .indent
    let body ← b.statements
    let _ ← ofKind .dedent
    if body.isEmpty then fail else return body
  else b.level.simpleStmts

def ofDepth (level : Level) : Nat → Blocks
  | 0 => ⟨level, 0, fail⟩
  | n + 1 => ⟨level, n + 1, (ofDepth level n).blockOver⟩

end Blocks

/-- Why plain code is refused: what is wrong, and the place in the source. -/
structure GrammarFault where
  message : String
  at_ : Position
deriving Repr

/-- Parses plain code.  `place` tells where a place of the code lies in the source; an error says the
first token that cannot continue what comes before it. -/
def parseCode (place : Position → Position) (code : String) : Except GrammarFault (List Stmt) :=
  let lexed := lex code
  let depth := code.length + 1
  let blocks := Blocks.ofDepth (Level.ofDepth place depth) depth
  let whole : Parser (List Stmt) := do
    let body ← blocks.statements
    let _ ← ofKind .endMarker
    return body
  match whole ⟨lexed.tokens, ⟨1, 0⟩⟩ ⟨.endMarker, "", ⟨0, 0⟩, ⟨0, 0⟩⟩ with
  | (some (body, _), _) => .ok body
  | (none, far) =>
    let message := match far.kind, lexed.problem with
      | .stray, some problem => problem.message
      | _, _ => LexProblem.invalidSyntax.message
    .error ⟨message, place far.start⟩

end LoopEscape
