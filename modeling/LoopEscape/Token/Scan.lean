import LoopEscape.Token.Basic
import LoopEscape.Token.Pattern
import LoopEscape.Text.Encoding

/-!
# Scanning source text

The scanner is lenient: it keeps comments and blank lines, takes characters that begin no token as
stray tokens, and lets closing brackets outnumber opening ones.  It fails on text that ends inside a
string or a statement, on a line whose indentation matches no enclosing one, and on a text whose
declared encoding is unknown or does not fit.
-/

namespace LoopEscape

open Text

inductive ScanFault
  | openString (start : Position)
  | openStatement (row : Nat)
  | badDedent (row width : Nat)
  | declaration (fault : DeclarationFault)
  | undecodable
deriving DecidableEq, Repr

structure OpenString where
  start : Position
  text : List Char
  quote : Char
  triple : Bool
deriving Repr

structure Scanner where
  depth : Int := 0
  continued : Bool := false
  openString : Option OpenString := none
  /-- Set by a string in single quotes that a backslash continues; a later string in three quotes
  inherits it. -/
  needsBackslash : Bool := false
  indents : List Nat := []

/-- The width of leading blanks: a tab goes to the next multiple of eight, a form feed to zero. -/
def indentWidth (width : Nat) : List Char → Nat
  | [] => width
  | c :: cs =>
    if c == ' ' then indentWidth (width + 1) cs
    else if c == '\t' then indentWidth ((width / 8 + 1) * 8) cs
    else if c == '\x0c' then indentWidth 0 cs
    else width

inductive Lexeme
  | token (kind : TokenKind) (length : Nat)
  | unfinished (quote : Char) (triple : Bool)
  | backslash (length : Nat)
  | stray
deriving DecidableEq, Repr

def lineEnd : List Char → Nat
  | '\n' :: _ => 1
  | '\r' :: '\n' :: _ => 2
  | _ => 0

def wordKind (cs : List Char) : TokenKind :=
  match cs with
  | c :: _ => if isIdentifierStart c then .name else .op
  | [] => .op

def stringLexeme (n : Nat) (cs : List Char) : Lexeme :=
  match cs.drop n with
  | q :: rest =>
    if Pattern.isTriple q (q :: rest) then
      let k := Pattern.closingTriple q (rest.drop 2)
      if k = 0 then .unfinished q true else .token .string (n + 3 + k)
    else match Pattern.toQuote q rest with
      | .closed k => .token .string (n + 1 + k)
      | .continued => .unfinished q false
      | .broken => if n = 0 then .stray else .token .name n
  | [] => .stray

def Lexeme.ofLine (cs : List Char) : Lexeme :=
  match cs with
  | [] => .stray
  | '\\' :: rest =>
    let n := lineEnd rest
    if n = 0 then .stray else .backslash (n + 1)
  | '#' :: rest =>
    .token .comment (1 + (rest.takeWhile fun c => c != '\r' && c != '\n').length)
  | _ =>
    let number := Pattern.number cs
    let operator := Pattern.operator cs
    let word := Pattern.word cs
    match Pattern.stringStart cs with
    | some n => stringLexeme n cs
    | none =>
      if number ≠ 0 then .token .number number
      else if lineEnd cs ≠ 0 then .token .newline (lineEnd cs)
      else if operator ≠ 0 then .token .op operator
      else if word ≠ 0 then .token (wordKind cs) word
      else .stray

def bracketChange (kind : TokenKind) (cs : List Char) : Int :=
  match kind, cs with
  | .op, c :: _ =>
    if c == '(' || c == '[' || c == '\x7b' then 1
    else if c == ')' || c == ']' || c == '\x7d' then -1
    else 0
  | _, _ => 0

/-- Scans the rest of a line that stands at column `col`, collecting tokens, the latest first.
Every lexeme takes at least one character. -/
def scanLine (row col : Nat) (s : Scanner) (acc : List Token) (cs : List Char) :
    Scanner × List Token :=
  match cs with
  | [] => (s, acc)
  | c :: cs' =>
    let blanks := (c :: cs').takeWhile isLineSpace
    let rest := (c :: cs').drop blanks.length
    let start := col + blanks.length
    if rest.isEmpty then (s, acc)
    else match Lexeme.ofLine rest with
      | .stray =>
        let token := ⟨.stray, c.toString, ⟨row, col⟩, ⟨row, col + 1⟩⟩
        scanLine row (col + 1) s (token :: acc) cs'
      | .backslash n =>
        scanLine row (start + n) { s with continued := true } acc (rest.drop (max n 1))
      | .unfinished q triple =>
        ({ s with
            openString := some ⟨⟨row, start⟩, rest, q, triple⟩
            needsBackslash := s.needsBackslash || !triple }, acc)
      | .token kind n =>
        let n := max n 1
        let text := rest.take n
        let kind := if kind = .newline && 0 < s.depth then .lineBreak else kind
        let token := ⟨kind, String.ofList text, ⟨row, start⟩, ⟨row, start + n⟩⟩
        scanLine row (start + n) { s with depth := s.depth + bracketChange kind text }
          (token :: acc) (rest.drop n)
termination_by cs.length
decreasing_by
  all_goals simp only [List.length_cons, List.length_drop]
  all_goals omega

def dedents (row width col : Nat) (indents : List Nat) (acc : List Token) :
    Except ScanFault (List Nat × List Token) :=
  match indents with
  | [] => .ok ([], acc)
  | i :: is =>
    if width < i then
      if width = 0 || is.contains width then
        dedents row width col is (⟨.dedent, "", ⟨row, col⟩, ⟨row, col⟩⟩ :: acc)
      else .error (.badDedent row col)
    else .ok (i :: is, acc)

inductive LineResult
  | next (s : Scanner) (acc : List Token)
  | stop (s : Scanner) (acc : List Token)

def scanFresh (row : Nat) (s : Scanner) (acc : List Token) (line : List Char) :
    Except ScanFault LineResult :=
  let blanks := line.takeWhile isLineSpace
  let rest := line.drop blanks.length
  let col := blanks.length
  let width := indentWidth 0 blanks
  match rest with
  | [] => .ok (.stop s acc)
  | c :: _ =>
    if c == '#' then
      let comment := ((rest.reverse.dropWhile fun c => c == '\r' || c == '\n').reverse)
      let stop := col + comment.length
      .ok (.next s
        (⟨.lineBreak, String.ofList (rest.drop comment.length), ⟨row, stop⟩,
            ⟨row, line.length⟩⟩ ::
          ⟨.comment, String.ofList comment, ⟨row, col⟩, ⟨row, stop⟩⟩ :: acc))
    else if c == '\r' || c == '\n' then
      .ok (.next s (⟨.lineBreak, String.ofList rest, ⟨row, col⟩, ⟨row, line.length⟩⟩ :: acc))
    else if s.indents.headD 0 < width then
      let token := ⟨.indent, String.ofList blanks, ⟨row, 0⟩, ⟨row, col⟩⟩
      let (s, acc) := scanLine row col { s with indents := width :: s.indents } (token :: acc) rest
      .ok (.next s acc)
    else match dedents row width col s.indents acc with
      | .error e => .error e
      | .ok (indents, acc) =>
        let (s, acc) := scanLine row col { s with indents } acc rest
        .ok (.next s acc)

def scanOpenString (row : Nat) (s : Scanner) (acc : List Token) (o : OpenString)
    (line : List Char) : Scanner × List Token :=
  let n := if o.triple then Pattern.closingTriple o.quote line
    else Pattern.closingQuote o.quote line
  if n ≠ 0 then
    let token := ⟨.string, String.ofList (o.text ++ line.take n), o.start, ⟨row, n⟩⟩
    scanLine row n { s with openString := none, needsBackslash := false } (token :: acc)
      (line.drop n)
  else if s.needsBackslash && !("\\\n".toList.isSuffixOf line || "\\\r\n".toList.isSuffixOf line)
  then
    let token := ⟨.stray, String.ofList (o.text ++ line), o.start, ⟨row, line.length⟩⟩
    ({ s with openString := none }, token :: acc)
  else ({ s with openString := some { o with text := o.text ++ line } }, acc)

/-- The tokens that close a text: a line end if the last line has none, and what is still
indented. -/
def closing (row : Nat) (last : List Char) (s : Scanner) : List Token :=
  let unended := match last.getLast? with
    | none => false
    | some c => c != '\r' && c != '\n' && (trim last).head? != some '#'
  let newline : List Token :=
    if unended then
      [⟨.newline, "", ⟨row - 1, last.length⟩, ⟨row - 1, last.length + 1⟩⟩]
    else []
  newline ++ s.indents.map (fun _ => ⟨.dedent, "", ⟨row, 0⟩, ⟨row, 0⟩⟩) ++
    [⟨.endMarker, "", ⟨row, 0⟩, ⟨row, 0⟩⟩]

/-- Scans line after line.  `last` is the line before; a line that does not fit the encoding is
`none`. -/
def scanLines (row : Nat) (last : List Char) (s : Scanner) (acc : List Token) :
    List (Option (List Char)) → Except ScanFault (List Token)
  | [] =>
    match s.openString with
    | some o => .error (.openString o.start)
    | none =>
      if s.depth = 0 && !s.continued then .ok (acc.reverse ++ closing row last s)
      else .error (.openStatement row)
  | none :: _ => .error .undecodable
  | some line :: lines =>
    match s.openString with
    | some o =>
      let (s, acc) := scanOpenString row s acc o line
      scanLines (row + 1) line s acc lines
    | none =>
      if s.depth = 0 && !s.continued then
        match scanFresh row s acc line with
        | .error e => .error e
        | .ok (.next s acc) => scanLines (row + 1) line s acc lines
        | .ok (.stop s acc) => .ok (acc.reverse ++ closing row last s)
      else
        let (s, acc) := scanLine row 0 { s with continued := false } acc line
        scanLines (row + 1) line s acc lines

def cutRows (row : List Char) : List Char → List (List Char)
  | [] => if row.isEmpty then [] else [row.reverse]
  | c :: cs => if c == '\n' then (c :: row).reverse :: cutRows [] cs else cutRows (c :: row) cs

def rows (cs : List Char) : List (List Char) := cutRows [] cs

theorem flatten_cutRows (row cs : List Char) : (cutRows row cs).flatten = row.reverse ++ cs := by
  induction cs generalizing row with
  | nil => by_cases h : row.isEmpty <;> simp_all [cutRows]
  | cons c cs ih => by_cases h : c == '\n' <;> simp [cutRows, h, ih]

theorem flatten_rows (cs : List Char) : (rows cs).flatten = cs := by
  simp [rows, flatten_cutRows]

structure TokenStream where
  encoding : Encoding
  tokens : List Token

def scan (source : String) : Except ScanFault TokenStream :=
  let cs := source.toList
  let marked := cs.head? == some byteOrderMark
  let cs := if marked then cs.drop 1 else cs
  let rs := rows cs
  match declaredEncoding marked (rs.map some) with
  | .error e => .error (.declaration e)
  | .ok encoding =>
    let start : Token := ⟨.encoding, "", ⟨0, 0⟩, ⟨0, 0⟩⟩
    (scanLines 1 [] {} [start] (rs.map encoding.reread)).map fun tokens => ⟨encoding, tokens⟩

example : ((scan "x = 'a'\n").toOption.map fun s => s.tokens.map (·.text)) =
    some ["", "x", "=", "'a'", "\n", ""] := by decide +kernel

end LoopEscape
