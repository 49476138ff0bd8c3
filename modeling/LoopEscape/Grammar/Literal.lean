import LoopEscape.Grammar.Lexer
import LoopEscape.Tree.Expr

/-!
# Reading literals

Numbers and strings as they are written in a program become constants.  A string with fields is cut
into its texts and its fields, whose expressions stay unread.
-/

namespace LoopEscape.Reading

open LoopEscape.Text

/-! ### Numbers -/

def mostDigits : Nat := 4300

def decimal (cs : List Char) : Nat := cs.foldl (fun n c => 10 * n + (c.toNat - 48)) 0

def based (base : Nat) (cs : List Char) : Nat :=
  cs.foldl (fun n c => base * n + (hexDigit? c).getD 0) 0

def exponent (cs : List Char) : Int :=
  match cs with
  | '-' :: ds => -(decimal ds : Int)
  | '+' :: ds => decimal ds
  | ds => decimal ds

def float (cs : List Char) : Binary64 :=
  let isMark := fun c => c == 'e' || c == 'E'
  let mantissa := cs.takeWhile (! isMark ·)
  let power := exponent ((cs.dropWhile (! isMark ·)).drop 1)
  let whole := mantissa.takeWhile (· != '.')
  let fraction := (mantissa.dropWhile (· != '.')).drop 1
  let digits := whole ++ fraction
  Binary64.ofDecimal (decimal digits) digits.length (power - fraction.length)

def number? (text : List Char) : Option Literal :=
  let cs := text.filter (· != '_')
  match cs with
  | '0' :: b :: ds =>
    if b == 'x' || b == 'X' then some (.int (based 16 ds))
    else if b == 'o' || b == 'O' then some (.int (based 8 ds))
    else if b == 'b' || b == 'B' then some (.int (based 2 ds))
    else plain cs
  | _ => plain cs
where
  plain (cs : List Char) : Option Literal :=
    let isLast := fun c => cs.getLast? == some c
    if isLast 'j' || isLast 'J' then some (.imaginary (float cs.dropLast))
    else if cs.any fun c => c == '.' || c == 'e' || c == 'E' then some (.float (float cs))
    else if mostDigits < cs.length then none
    else some (.int (decimal cs))

/-! ### Strings -/

structure Quoted where
  raw : Bool
  bytes : Bool
  formatted : Bool
  marked : Bool
  body : List Char
  lead : Nat

def Quoted.of (text : List Char) : Quoted :=
  let letters := text.takeWhile (! Lexer.isQuote ·)
  let has := fun (c : Char) => letters.any (·.toLower == c)
  let quoted := text.drop letters.length
  let triple := match quoted with
    | a :: b :: c :: _ :: _ :: _ :: _ => a == b && b == c
    | _ => false
  let n := if triple then 3 else 1
  { raw := has 'r', bytes := has 'b', formatted := has 'f', marked := letters.head? == some 'u'
    body := (quoted.drop n).take (quoted.length - 2 * n), lead := letters.length + n }

def simpleEscape? (c : Char) : Option Nat :=
  match c with
  | '\\' => some 92
  | '\'' => some 39
  | '"' => some 34
  | 'a' => some 7
  | 'b' => some 8
  | 'f' => some 12
  | 'n' => some 10
  | 'r' => some 13
  | 't' => some 9
  | 'v' => some 11
  | _ => none

def isOctal (c : Char) : Bool := '0' ≤ c && c ≤ '7'

def hexDigits? (n : Nat) (cs : List Char) : Option Nat :=
  let ds := cs.take n
  if ds.length = n && ds.all (fun c => (hexDigit? c).isSome) then some (readHex ds) else none

def codeDigits? (bytes : Bool) (c : Char) : Option Nat :=
  if c == 'x' then some 2
  else if bytes then none
  else if c == 'u' then some 4
  else if c == 'U' then some 8
  else none

/-- What an escape stands for, after its backslash: its codes, and how many characters it takes.
Characters by name are not known. -/
def escape? (bytes : Bool) (cs : List Char) : Option (List Code × Nat) :=
  match cs with
  | [] => some ([92], 0)
  | c :: rest =>
    if c == '\n' then some ([], 1)
    else if isOctal c then
      let ds := (cs.take 3).takeWhile isOctal
      let n := based 8 ds
      some ([if bytes then n % 256 else n], ds.length)
    else match simpleEscape? c with
      | some n => some ([n], 1)
      | none =>
        match codeDigits? bytes c with
        | some n =>
          (hexDigits? n rest).bind fun code =>
            if code < 0x110000 then some ([code], n + 1) else none
        | none => if c == 'N' && !bytes then none else some ([92, c.toNat], 1)

def unescape (bytes : Bool) (fuel : Nat) (cs : List Char) : Option (List Code) :=
  match fuel, cs with
  | fuel + 1, '\\' :: rest =>
    (escape? bytes rest).bind fun (codes, n) =>
      (unescape bytes fuel (rest.drop n)).map (codes ++ ·)
  | fuel + 1, c :: rest => (unescape bytes fuel rest).map (c.toNat :: ·)
  | _, _ => some []

def decode (raw bytes : Bool) (cs : List Char) : Option (List Code) :=
  if raw then some (cs.map Char.toNat) else unescape bytes cs.length cs

def hasUnknownEscape (bytes : Bool) : List Char → Bool
  | '\\' :: c :: rest =>
    (c.toNat < 128 && c != '\n' && !isOctal c && (simpleEscape? c).isNone &&
      (codeDigits? bytes c).isNone && (bytes || c != 'N')) || hasUnknownEscape bytes rest
  | _ :: rest => hasUnknownEscape bytes rest
  | [] => false

/-! ### Fields -/

inductive Piece
  | text (codes : List Code)
  /-- An expression that starts, with its brace, `offset` characters into the body, how it is
  converted, and the pieces of its format. -/
  | field (offset : Nat) (expr : List Char) (conversion : Option Char)
      (format : Option (List Piece))

/-- A run of text in a string with fields: what it is, what follows, and whether it ended in a
doubled brace.  Braces inside a format (`nested`) are never doubled. -/
def textRun (raw nested : Bool) : List Char → Option (List Char × List Char × Bool)
  | [] => some ([], [], false)
  | '\\' :: d :: cs =>
    if raw then prepend '\\' (brace d cs (textRun raw nested cs))
    else if d == 'N' then none
    else if d == '\x7b' || d == '\x7d' then prepend '\\' (brace d cs (textRun raw nested cs))
    else prepend '\\' (prepend d (textRun raw nested cs))
  | c :: cs => brace c cs (textRun raw nested cs)
where
  prepend (c : Char) (r : Option (List Char × List Char × Bool)) :
      Option (List Char × List Char × Bool) := r.map fun (t, rest, b) => (c :: t, rest, b)
  brace (c : Char) (cs : List Char) (more : Option (List Char × List Char × Bool)) :
      Option (List Char × List Char × Bool) :=
    if c == '\x7b' || c == '\x7d' then
      if !nested && cs.head? == some c then some ([c], cs.drop 1, true)
      else if !nested && c == '\x7d' then none
      else some ([], c :: cs, false)
    else prepend c more

def closes (opening closing : Char) : Bool :=
  (opening == '(' && closing == ')') || (opening == '[' && closing == ']') ||
    (opening == '\x7b' && closing == '\x7d')

/-- The expression of a field, up to a `!`, `:`, `=` or closing brace outside brackets and strings. -/
def fieldExpr (quote : Option (Char × Bool)) (stack : List Char) :
    List Char → Option (List Char × List Char)
  | [] => none
  | c :: cs =>
    let go := fun (q : Option (Char × Bool)) (s : List Char) =>
      (fieldExpr q s cs).map fun (e, r) => (c :: e, r)
    if c == '\\' then none
    else match quote with
      | some (q, triple) =>
        if c == q && !triple then go none stack
        else if c == q then
          match cs with
          | d :: e :: rest =>
            if d == q && e == q then
              (fieldExpr none stack rest).map fun (x, r) => (c :: d :: e :: x, r)
            else go quote stack
          | _ => go quote stack
        else go quote stack
      | none =>
        if Lexer.isQuote c then
          match cs with
          | d :: e :: rest =>
            if d == c && e == c then
              (fieldExpr (some (c, true)) stack rest).map fun (x, r) => (c :: d :: e :: x, r)
            else go (some (c, false)) stack
          | _ => go (some (c, false)) stack
        else if c == '[' || c == '\x7b' || c == '(' then go none (c :: stack)
        else if c == '#' then none
        else if stack.isEmpty && ['!', ':', '\x7d', '=', '>', '<'].contains c then
          match cs with
          | '=' :: rest =>
            if c == '!' || c == '=' || c == '<' || c == '>' then
              (fieldExpr none stack rest).map fun (x, r) => (c :: '=' :: x, r)
            else some ([], c :: cs)
          | _ => if c == '>' || c == '<' then go none stack else some ([], c :: cs)
        else if c == ']' || c == '\x7d' || c == ')' then
          match stack with
          | [] => none
          | o :: stack => if closes o c then go none stack else none
        else go none stack

def isFieldBlank (c : Char) : Bool := c == ' ' || c == '\t' || c == '\n' || c == '\x0c'

def isShownBlank (c : Char) : Bool := isFieldBlank c || c == '\x0b' || c == '\r'

def conversion? (cs : List Char) : Option (Char × List Char) :=
  match cs with
  | c :: rest =>
    let ends := match rest with
      | d :: _ => d == '\x7d' || d == ':'
      | [] => false
    if (c == 's' || c == 'r' || c == 'a') && ends then some (c, rest) else none
  | [] => none

def shownPart (expr after : List Char) : Option (List Char) × List Char :=
  match after with
  | '=' :: more =>
    let blanks := more.takeWhile isShownBlank
    (some (expr ++ '=' :: blanks), more.drop blanks.length)
  | _ => (none, after)

def conversionPart (after : List Char) : Option (Option Char × List Char) :=
  match after with
  | '!' :: more => (conversion? more).map fun (c, r) => (some c, r)
  | _ => some (none, after)

def formatPart (read : List Char → Option (List Piece × List Char)) (after : List Char) :
    Option (Option (List Piece) × List Char) :=
  match after with
  | ':' :: more => (read more).map fun (f, r) => (some f, r)
  | _ => some (none, after)

/-- The pieces of a string with fields, and what is left.  `total` is the length of the whole body,
`level` how deep in formats the pieces are. -/
def pieces (raw : Bool) (total : Nat) : Nat → Nat → List Char → Option (List Piece × List Char)
  | 0, _, _ => none
  | fuel + 1, level, cs => do
    let (text, rest, doubled) ← textRun raw (level != 0) cs
    let codes ← decode raw false text
    let here := if codes.isEmpty then [] else [Piece.text codes]
    if doubled then
      let (more, left) ← pieces raw total fuel level rest
      return (here ++ more, left)
    else match rest with
      | '\x7b' :: inner =>
        if 2 ≤ level then none
        else
          let offset := total - rest.length
          let (expr, after) ← fieldExpr none [] inner
          if expr.all isFieldBlank then none
          else
            let (shown, after) := shownPart expr after
            let (conversion, after) ← conversionPart after
            let (format, after) ← formatPart (pieces raw total fuel (level + 1)) after
            match after with
            | '\x7d' :: after =>
              let conversion := if shown.isSome && format.isNone && conversion.isNone
                then some 'r' else conversion
              let label := match shown with
                | none => []
                | some t => [Piece.text (t.map Char.toNat)]
              let (more, left) ← pieces raw total fuel level after
              return (here ++ label ++ Piece.field offset expr conversion format :: more, left)
            | _ => none
      | _ => return (here, rest)

def allPieces (raw : Bool) (body : List Char) : Option (List Piece) :=
  match pieces raw body.length (body.length + 1) 0 body with
  | some (ps, []) => some ps
  | _ => none

def joinTexts : List Piece → List Piece
  | .text a :: rest =>
    match joinTexts rest with
    | .text b :: more => .text (a ++ b) :: more
    | more => .text a :: more
  | p :: rest => p :: joinTexts rest
  | [] => []

/-- Where an expression in a field is, relative to the string that starts at `start`: rows and
columns are counted in the text before the brace; columns count bytes. -/
def fieldStart (start : Position) (before expr : List Char) : Position :=
  let rows := (before.filter (· == '\n')).length
  let blankLine := match expr.dropWhile (fun c => c == ' ' || c == '\t' || c == '\x0c') with
    | c :: _ => c == '\n' || c == '\x7d'
    | [] => true
  let line := (before.reverse.takeWhile (· != '\n')).reverse
  let cols := if blankLine then 0 else (utf8Bytes line).length
  if rows = 0 then ⟨start.row, start.col + cols⟩ else ⟨start.row + rows, cols⟩

example : number? "1_0".toList = some (.int 10) ∧ number? "0x1F".toList = some (.int 31) := by
  decide +kernel

example : (decode false false "a\\x41\\n".toList) = some [97, 65, 10] := by decide +kernel

end LoopEscape.Reading
