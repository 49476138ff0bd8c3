import LoopEscape.Token.Basic
import LoopEscape.Text.Encoding

/-!
# Lexing plain code

The lexer of the plain language is strict: brackets have to match, indentation has to be consistent
whatever the width of a tab, and every character has to belong to a token.  Columns count bytes.
Comments and line ends that end no statement are left out.
-/

namespace LoopEscape

open Text

inductive LexProblem
  | invalidSyntax
  | unterminatedString
  | invalidNumber
  | leadingZeros
  | invalidCharacter
  | straySlash
  | openEnd
  | unmatched
  | tooNested
  | tooIndented
  | badDedent
  | mixedTabs
deriving DecidableEq, Repr

namespace LexProblem

def message : LexProblem → String
  | invalidSyntax => "invalid syntax"
  | unterminatedString => "unterminated string literal"
  | invalidNumber => "invalid decimal literal"
  | leadingZeros => "leading zeros in decimal integer literals are not permitted; " ++
      "use an 0o prefix for octal integers"
  | invalidCharacter => "invalid non-printable character"
  | straySlash => "unexpected character after line continuation character"
  | openEnd => "unexpected EOF while parsing"
  | unmatched => "unmatched bracket"
  | tooNested => "too many nested parentheses"
  | tooIndented => "too many levels of indentation"
  | badDedent => "unindent does not match any outer indentation level"
  | mixedTabs => "inconsistent use of tabs and spaces in indentation"

end LexProblem

inductive LexResult
  | token (kind : TokenKind) (length : Nat)
  | fault (problem : LexProblem)
deriving DecidableEq, Repr

namespace Lexer

/-! ### Numbers -/

/-- The length of a run of digits with single underscores between them; `none` if an underscore has
no digit after it. -/
def digitRun (isDigit : Char → Bool) (pending : Bool) : List Char → Option Nat
  | [] => if pending then none else some 0
  | c :: cs =>
    if isDigit c then (digitRun isDigit false cs).map (· + 1)
    else if pending then none
    else if c == '_' then (digitRun isDigit true cs).map (· + 1)
    else some 0

def isNamePart (c : Char) : Bool :=
  isAsciiLetter c || isAsciiDigit c || c == '_' || 128 ≤ c.toNat

def wordsAfterNumber : List String := ["and", "else", "for", "if", "in", "is", "or", "not"]

def startsWithWord (cs : List Char) : Bool :=
  wordsAfterNumber.any fun w => w.toList.isPrefixOf cs

def endsNumber (cs : List Char) : Bool :=
  startsWithWord cs || match cs with
    | [] => true
    | c :: _ => !isNamePart c

def finishNumber (cs : List Char) (n : Nat) : LexResult :=
  if endsNumber (cs.drop n) then .token .number n else .fault .invalidNumber

def imaginaryTail (cs : List Char) (n : Nat) : LexResult :=
  match cs.drop n with
  | c :: _ => if c == 'j' || c == 'J' then finishNumber cs (n + 1) else finishNumber cs n
  | [] => finishNumber cs n

def exponentTail (cs : List Char) (n : Nat) : LexResult :=
  match cs.drop n with
  | e :: rest =>
    if e == 'e' || e == 'E' then
      let (sign, rest) := match rest with
        | s :: more => if s == '+' || s == '-' then (1, more) else (0, rest)
        | [] => (0, rest)
      match rest with
      | d :: _ =>
        if isAsciiDigit d then
          match digitRun isAsciiDigit false rest with
          | some k => imaginaryTail cs (n + 1 + sign + k)
          | none => .fault .invalidNumber
        else if sign = 1 then .fault .invalidNumber
        else finishNumber cs n
      | [] => if sign = 1 then .fault .invalidNumber else finishNumber cs n
    else imaginaryTail cs n
  | [] => finishNumber cs n

def fractionTail (cs : List Char) (n : Nat) : LexResult :=
  match cs.drop n with
  | d :: rest =>
    if isAsciiDigit d then
      match digitRun isAsciiDigit false (d :: rest) with
      | some k => exponentTail cs (n + k)
      | none => .fault .invalidNumber
    else exponentTail cs n
  | [] => finishNumber cs n

def based (isDigit : Char → Bool) (cs : List Char) : LexResult :=
  match digitRun isDigit false (cs.drop 2) with
  | none => .fault .invalidNumber
  | some n =>
    if n = 0 then .fault .invalidNumber
    else match cs.drop (n + 2) with
      | c :: _ => if isAsciiDigit c then .fault .invalidNumber else finishNumber cs (n + 2)
      | [] => finishNumber cs (n + 2)

def number (cs : List Char) : LexResult :=
  let base := match cs with
    | '0' :: b :: _ =>
      if b == 'x' || b == 'X' then some fun c => (hexDigit? c).isSome
      else if b == 'o' || b == 'O' then some fun c => '0' ≤ c && c ≤ '7'
      else if b == 'b' || b == 'B' then some fun c => c == '0' || c == '1'
      else none
    | _ => none
  match base with
  | some isDigit => based isDigit cs
  | none =>
    match digitRun isAsciiDigit false cs with
    | none => .fault .invalidNumber
    | some n =>
      match cs.drop n with
      | '.' :: _ => fractionTail cs (n + 1)
      | rest =>
        let isFloat := match rest with
          | c :: _ => ['e', 'E', 'j', 'J'].contains c
          | [] => false
        let digits := (cs.take n).filter (· != '_')
        if digits.head? == some '0' && digits.any (· != '0') && !isFloat
        then .fault .leadingZeros
        else exponentTail cs n

/-! ### Strings -/

def closeSingle (q : Char) : List Char → Option Nat
  | [] => none
  | '\\' :: _ :: cs => (closeSingle q cs).map (· + 2)
  | c :: cs =>
    if c == q then some 1 else if c == '\n' then none else (closeSingle q cs).map (· + 1)

def closeTriple (q : Char) : List Char → Option Nat
  | [] => none
  | '\\' :: _ :: cs => (closeTriple q cs).map (· + 2)
  | c :: cs =>
    if c == q && cs.take 2 == [q, q] then some 3 else (closeTriple q cs).map (· + 1)

def string (n : Nat) (cs : List Char) : LexResult :=
  match cs.drop n with
  | q :: rest =>
    if rest.take 2 == [q, q] then
      match closeTriple q (rest.drop 2) with
      | some k => .token .string (n + 3 + k)
      | none => .fault .unterminatedString
    else match closeSingle q rest with
      | some k => .token .string (n + 1 + k)
      | none => .fault .unterminatedString
  | [] => .fault .unterminatedString

def stringPrefixes : List String := ["b", "r", "u", "f", "br", "rb", "fr", "rf"]

def isQuote (c : Char) : Bool := c == '\'' || c == '"'

def nameOrString (cs : List Char) : LexResult :=
  let name := cs.takeWhile isNamePart
  let isPrefix := stringPrefixes.contains (String.ofList (name.map Char.toLower))
  match cs.drop name.length with
  | q :: _ =>
    if isPrefix && isQuote q then string name.length cs
    else if isIdentifier name then .token .name name.length
    else .fault .invalidCharacter
  | [] => if isIdentifier name then .token .name name.length else .fault .invalidCharacter

/-! ### Operators -/

def longOperators : List String := ["**=", "//=", ">>=", "<<=", "..."]

def pairOperators : List String :=
  ["!=", "%=", "&=", "**", "*=", "+=", "-=", "->", "//", "/=", ":=", "<<", "<=", "<>", "==", ">=",
   ">>", "@=", "^=", "|="]

def operatorLength (cs : List Char) : Nat :=
  if longOperators.contains (String.ofList (cs.take 3)) then 3
  else if pairOperators.contains (String.ofList (cs.take 2)) then 2
  else 1

/-- The token at the front of a text that starts with no blank, comment, line end or backslash. -/
def lexeme (cs : List Char) : LexResult :=
  match cs with
  | [] => .fault .openEnd
  | c :: rest =>
    if isAsciiDigit c then number cs
    else if isNamePart c then nameOrString cs
    else if isQuote c then string 0 cs
    else if c == '.' && (rest.head?.map isAsciiDigit).getD false then fractionTail cs 1
    else if c.toNat < 32 || c.toNat == 127 then .fault .invalidCharacter
    else .token .op (operatorLength cs)

/-! ### Lines -/

def advance (p : Position) (cs : List Char) : Position :=
  cs.foldl (fun p c => if c == '\n' then ⟨p.row + 1, 0⟩ else ⟨p.row, p.col + utf8Width c⟩) p

/-- Leading blanks: the width with tabs to multiples of eight, and with tabs as one. -/
structure Margin where
  width : Nat := 0
  narrow : Nat := 0
  broken : Nat := 0
deriving DecidableEq, Repr

def margin (m : Margin) : List Char → Except LexProblem (Margin × Nat)
  | ' ' :: cs => (margin { m with width := m.width + 1, narrow := m.narrow + 1 } cs).map
      fun r => (r.1, r.2 + 1)
  | '\t' :: cs =>
    (margin { m with width := (m.width / 8 + 1) * 8, narrow := m.narrow + 1 } cs).map
      fun r => (r.1, r.2 + 1)
  | '\x0c' :: cs => (margin { m with width := 0, narrow := 0 } cs).map fun r => (r.1, r.2 + 1)
  | '\\' :: '\n' :: cs =>
    if cs.isEmpty then .error .openEnd
    else (margin { m with broken := if m.broken = 0 then m.width else m.broken } cs).map
      fun r => (r.1, r.2 + 2)
  | '\\' :: _ => .error .straySlash
  | _ => .ok (m, 0)

structure State where
  indents : List (Nat × Nat) := []
  brackets : List Char := []
  fresh : Bool := true
  blank : Bool := false
deriving Repr

def currentIndent (indents : List (Nat × Nat)) : Nat × Nat := indents.headD (0, 0)

def mostIndents : Nat := 99

def mostBrackets : Nat := 200

def leave (width : Nat) : List (Nat × Nat) → Nat × List (Nat × Nat)
  | [] => (0, [])
  | i :: is => if width < i.1 then let (n, r) := leave width is; (n + 1, r) else (0, i :: is)

def reindent (indents : List (Nat × Nat)) (m : Margin) :
    Except LexProblem (List TokenKind × List (Nat × Nat)) :=
  let width := if m.broken = 0 then m.width else m.broken
  let narrow := if m.broken = 0 then m.narrow else m.broken
  let current := currentIndent indents
  if width = current.1 then
    if narrow = current.2 then .ok ([], indents) else .error .mixedTabs
  else if current.1 < width then
    if mostIndents ≤ indents.length then .error .tooIndented
    else if narrow ≤ current.2 then .error .mixedTabs
    else .ok ([.indent], (width, narrow) :: indents)
  else
    let (n, rest) := leave width indents
    let current := currentIndent rest
    if width ≠ current.1 then .error .badDedent
    else if narrow ≠ current.2 then .error .mixedTabs
    else .ok (List.replicate n .dedent, rest)

def bracket (brackets : List Char) (text : List Char) : Except LexProblem (List Char) :=
  match text with
  | ['('] | ['['] | ['\x7b'] =>
    if mostBrackets ≤ brackets.length then .error .tooNested else .ok (text ++ brackets)
  | [')'] => if brackets.head? == some '(' then .ok (brackets.drop 1) else .error .unmatched
  | [']'] => if brackets.head? == some '[' then .ok (brackets.drop 1) else .error .unmatched
  | ['\x7d'] => if brackets.head? == some '\x7b' then .ok (brackets.drop 1) else .error .unmatched
  | _ => .ok brackets

/-- The tokens up to the first problem, the problem marked by a stray token. -/
structure Lexed where
  tokens : List Token
  problem : Option LexProblem := none

def failed (acc : List Token) (p : Position) (problem : LexProblem) : Lexed :=
  ⟨(⟨.stray, "", p, p⟩ :: acc).reverse, some problem⟩

def finish (s : State) (acc : List Token) (p : Position) : Lexed :=
  if s.brackets.isEmpty then
    ⟨acc.reverse ++ s.indents.map (fun _ => (⟨.dedent, "", p, p⟩ : Token)) ++
      [⟨.endMarker, "", p, p⟩], none⟩
  else failed acc p .openEnd

/-- What stands at the start of a row: how many characters the margin takes, the tokens it brings,
and the state behind it. -/
def openRow (s : State) (cs : List Char) : Except LexProblem (Nat × List TokenKind × State) :=
  if !s.fresh then .ok (0, [], s)
  else match margin {} cs with
    | .error e => .error e
    | .ok (m, n) =>
      let blank := match cs.drop n with
        | c :: _ => c == '#' || c == '\n'
        | [] => true
      if blank || !s.brackets.isEmpty then .ok (n, [], { s with fresh := false, blank })
      else match reindent s.indents m with
        | .error e => .error e
        | .ok (kinds, indents) => .ok (n, kinds, { s with indents, fresh := false, blank })

/-- One step inside a row: how many characters it takes, the token that they are, and the state
behind them. -/
def step (s : State) (cs : List Char) : Except LexProblem (Nat × Option TokenKind × State) :=
  match cs with
  | [] => .ok (0, none, s)
  | c :: rest =>
    if isLineSpace c then .ok (1, none, s)
    else if c == '#' then .ok (1 + (rest.takeWhile (· != '\n')).length, none, s)
    else if c == '\n' then
      let kind := if s.brackets.isEmpty && !s.blank then some .newline else none
      .ok (1, kind, { s with fresh := true })
    else if c == '\\' then
      match rest with
      | '\n' :: more => if more.isEmpty then .error .openEnd else .ok (2, none, s)
      | _ => .error .straySlash
    else match lexeme cs with
      | .fault e => .error e
      | .token kind n =>
        (bracket s.brackets (if kind = .op then cs.take n else [])).map fun brackets =>
          (n, some kind, { s with brackets })

def run (s : State) (acc : List Token) (p : Position) (cs : List Char) : Lexed :=
  match cs with
  | [] => finish s acc p
  | c :: rest =>
    match openRow s (c :: rest) with
    | .error e => failed acc p e
    | .ok (n, kinds, s) =>
      let p := advance p ((c :: rest).take n)
      let acc := (kinds.map fun k => (⟨k, "", p, p⟩ : Token)) ++ acc
      match _h : (c :: rest).drop n with
      | [] => finish s acc p
      | d :: more =>
        match step s (d :: more) with
        | .error e => failed acc p e
        | .ok (k, kind, s) =>
          let k := max k 1
          let text := (d :: more).take k
          let stop := advance p text
          let acc := match kind with
            | none => acc
            | some .newline => ⟨.newline, "", p, p⟩ :: acc
            | some kind => ⟨kind, String.ofList text, p, stop⟩ :: acc
          run s acc stop ((d :: more).drop k)
termination_by cs.length
decreasing_by
  have := congrArg List.length _h
  simp only [List.length_drop, List.length_cons] at this ⊢
  omega

end Lexer

def lex (code : String) : Lexer.Lexed :=
  let cs := universalNewlines code.toList
  let cs := if cs.getLast? == some '\n' then cs else cs ++ ['\n']
  Lexer.run {} [] ⟨1, 0⟩ cs

end LoopEscape
