import LoopEscape.Dialect.Clause

/-!
# Taking the dialect out of a source

The tokens of a source are gone through once.  Labels, headers and tails of jumps are taken out and
kept as marks; all other tokens go on, moved left by as many columns as labels took at the start of
their row.  Pragmas in comments are read on the way.
-/

namespace LoopEscape

open Text

structure Stripper where
  emitted : List Token := []
  shifts : List (Nat × Nat) := []
  depth : Int := 0
  settings : Settings := {}
  marks : Marks := {}
deriving Inhabited

namespace Stripper

def shiftOf (s : Stripper) (row : Nat) : Nat := (s.shifts.lookup row).getD 0

def shift (s : Stripper) (t : Token) : Token :=
  let start : Position := ⟨t.start.row, t.start.col - s.shiftOf t.start.row⟩
  let stop : Position := if t.stop.row = t.start.row
    then ⟨t.stop.row, t.stop.col - s.shiftOf t.stop.row⟩ else t.stop
  { t with start, stop }

def emit (s : Stripper) (t : Token) : Stripper :=
  { s with emitted := s.shift t :: s.emitted, depth := s.depth + t.depthChange }

def emitAll (s : Stripper) (ts : List Token) : Stripper := ts.foldl emit s

def dropLeading (s : Stripper) (first kept : Token) : Except DialectFault Stripper :=
  let row := first.start.row
  if kept.start.row ≠ row then .error ⟨.splitLabel, first.start⟩
  else
    let columns := s.shiftOf row + (kept.start.col - first.start.col)
    .ok { s with shifts := (s.shifts.filter fun e => e.1 != row) ++ [(row, columns)] }

def readPragma (s : Settings) (pragma : List Char) : Except PragmaProblem Settings :=
  match dropStart? "version ".toList pragma with
  | some version =>
    if s.compilerVersion.isSome then .error .versionTwice
    else
      let version := String.ofList (trim version)
      match checkVersion compilerVersion version with
      | .error e => .error (.version e)
      | .ok () => .ok { s with compilerVersion := some version }
  | none =>
    if pragma == "debug".toList then
      if s.debug.isSome then .error .debugTwice else .ok { s with debug := some true }
    else .error (.unknown (String.ofList (firstWord pragma)))

def notePragma (s : Stripper) (t : Token) : Except StripFault Stripper :=
  if t.kind != .comment then .ok s
  else match dropStart? "pragma ".toList (trim (t.text.toList.drop 1)) with
    | none => .ok s
    | some pragma =>
      match readPragma s.settings (trim pragma) with
      | .error p => .error (.pragma p t.start)
      | .ok settings => .ok { s with settings }

def labelLoop (s : Stripper) (label keyword : Token) : Except DialectFault Stripper := do
  let s ← s.dropLeading label keyword
  let place := (s.shift keyword).start
  let s := s.emit keyword
  return { s with marks := { s.marks with
    loops := s.marks.loops.insert place ⟨label.text, label.start⟩ } }

def labelBlock (s : Stripper) (label keyword : Token) (rest : List Token) :
    Except DialectFault (Stripper × List Token) := do
  let s ← s.dropLeading label keyword
  let ⟨row, col⟩ := keyword.start
  let branch : Token := ⟨.name, "if", ⟨row, col⟩, ⟨row, col + 2⟩⟩
  let condition : Token := ⟨.number, "1", ⟨row, col + 3⟩, ⟨row, col + 4⟩⟩
  let place := (s.shift branch).start
  let s := (s.emit branch).emit condition
  let (target, rest) ← asClause rest
  return ({ s with marks := { s.marks with
    blocks := s.marks.blocks.insert place ⟨label.text, target⟩ } }, rest)

def markLoop (s : Stripper) (label : Option Token) (first keyword : Token) (rest : List Token) :
    Except DialectFault (Stripper × List Token) := do
  let s ← s.dropLeading first keyword
  let place := (s.shift keyword).start
  let s := s.emit keyword
  let (plain, header, rest) ← loopHeader (label.map (·.text)) rest
  let s := s.emitAll plain
  return ({ s with marks := { s.marks with
    headers := s.marks.headers.insert place header } }, rest)

def markJump (s : Stripper) (keyword : Token) (rest : List Token) :
    Except DialectFault (Stripper × List Token) := do
  let place := (s.shift keyword).start
  let s := s.emit keyword
  let (tail, rest) ← jumpTail keyword.text rest
  if tail.label.isNone && tail.value.isEmpty then return (s, rest)
  else
    let tail := { tail with value := tail.value.map s.shift }
    return ({ s with marks := { s.marks with jumps := s.marks.jumps.insert place tail } }, rest)

def isBlockHeader : List Token → Bool
  | c :: n :: d :: _ => c.isOp ":" || (c.isName "as" && n.kind != .endMarker && d.isOp ":")
  | c :: _ => c.isOp ":"
  | [] => false

inductive Construct
  | labelledLoop (label keyword : Token)
  | labelledBlock (label keyword : Token)
  | callbackLoop (label : Option Token) (first keyword : Token)
  | jump (keyword : Token)
  | plain
deriving Repr

/-- The construct that the label `t` begins, and the tokens after the construct's keyword. -/
def labelled? (t : Token) (ts : List Token) : Option (Construct × List Token) :=
  match ts with
  | c :: k :: rest =>
    if !t.isIdentifier || !c.isOp ":" then none
    else if k.isName "for" || k.isName "while" then some (.labelledLoop t k, rest)
    else if k.isName "block" && isBlockHeader rest then some (.labelledBlock t k, rest)
    else match rest with
      | f :: rest =>
        if k.isName "cbit" && f.isName "for" then some (.callbackLoop (some t) t f, rest)
        else none
      | [] => none
  | _ => none

def unlabelled? (t : Token) (ts : List Token) : Option (Construct × List Token) :=
  match ts with
  | f :: rest =>
    if t.isName "cbit" && f.isName "for" then some (.callbackLoop none t f, rest) else none
  | [] => none

/-- Which construct starts with the token `t`, and the tokens after its keyword.  Labels, blocks and
callback loops stand where a statement may start. -/
def construct (statementStart : Bool) (t : Token) (ts : List Token) : Construct × List Token :=
  let found := if statementStart then (labelled? t ts).or (unlabelled? t ts) else none
  match found with
  | some c => c
  | none => if t.isName "break" || t.isName "continue" then (.jump t, ts) else (.plain, ts)

theorem construct_length (b : Bool) (t : Token) (ts : List Token) :
    (construct b t ts).2.length ≤ ts.length := by
  have hlabelled {c} (h : labelled? t ts = some c) : c.2.length ≤ ts.length := by
    unfold labelled? at h
    grind
  have hunlabelled {c} (h : unlabelled? t ts = some c) : c.2.length ≤ ts.length := by
    unfold unlabelled? at h
    grind
  unfold construct
  grind [Option.or_eq_some_iff]

def consume (s : Stripper) (t : Token) (rest : List Token) :
    Construct → Except DialectFault (Stripper × List Token)
  | .labelledLoop label keyword => (s.labelLoop label keyword).map fun s => (s, rest)
  | .labelledBlock label keyword => s.labelBlock label keyword rest
  | .callbackLoop label first keyword => s.markLoop label first keyword rest
  | .jump keyword => s.markJump keyword rest
  | .plain => .ok (s.emit t, rest)

theorem consume_length {s s' : Stripper} {t : Token} {ts rest : List Token} {c : Construct}
    (h : s.consume t ts c = .ok (s', rest)) : rest.length ≤ ts.length := by
  cases c <;>
    simp only [consume, labelBlock, markLoop, markJump, Except.map, bind, Except.bind, pure, Except.pure] at h
  all_goals grind [→ asClause_length, → loopHeader_length, → jumpTail_length]

/-- Whether a statement may start after the token before `rest`: a construct of several tokens ends
inside a statement. -/
def startsAfter (t : Token) : Construct → Bool
  | .plain => t.isBoundary
  | _ => false

/-- Goes through the tokens; `fresh` tells whether the token before lets a statement start. -/
def run (s : Stripper) (fresh : Bool) (ts : List Token) : Except StripFault Stripper :=
  match ts with
  | [] => .ok s
  | t :: rest =>
    match s.notePragma t with
    | .error e => .error e
    | .ok s =>
      match checkName t with
      | .error e => .error (.dialect e)
      | .ok () =>
        let found := construct (fresh && s.depth ≤ 0) t rest
        match _h : s.consume t found.2 found.1 with
        | .error e => .error (.dialect e)
        | .ok (s, left) => run s (startsAfter t found.1) left
termination_by ts.length
decreasing_by
  exact Nat.lt_succ_of_le (Nat.le_trans (consume_length _h) (construct_length _ t rest))

end Stripper

/-- A source without the dialect: the plain code, what was taken out of which rows, the marks and the
settings of pragmas. -/
structure Stripped where
  code : String
  shifts : List (Nat × Nat)
  marks : Marks
  settings : Settings
deriving Inhabited

def strip (source : String) : Except StripFault Stripped :=
  match scan source with
  | .error e => .error (.scan e)
  | .ok stream =>
    match ({} : Stripper).run true stream.tokens with
    | .error e => .error e
    | .ok s =>
      match layout s.emitted.reverse with
      | .error e => .error (.layout e)
      | .ok code =>
        match stream.encoding.restore code.toList with
        | none => .error .unencodable
        | some code =>
          .ok ⟨String.ofList code, s.shifts.filter fun e => e.2 != 0, s.marks, s.settings⟩

end LoopEscape
