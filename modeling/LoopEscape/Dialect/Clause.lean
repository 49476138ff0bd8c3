import LoopEscape.Dialect.Basic

/-!
# Clauses of headers and jumps

Readers for the parts of the dialect that follow a keyword.  Each takes the tokens after the keyword
and returns what it read with the tokens that are left, of which there are no more than before.
-/

namespace LoopEscape

def checkName (t : Token) : Except DialectFault Unit :=
  if t.kind == .name && isReserved t.text then .error ⟨.reserved, t.start⟩ else .ok ()

def startOf (ts : List Token) : Position := (ts.head?.map (·.start)).getD ⟨0, 0⟩

def endsPlainHeader (t : Token) : Bool := t.isName "break" || t.isName "as" || t.isOp ":"

/-- The target and the call of a callback loop, up to the first `break`, `as` or `:` outside
brackets, within one statement. -/
def plainHeader (depth : Int) : List Token → Except DialectFault (List Token × List Token)
  | [] => .error ⟨.missingColon, ⟨0, 0⟩⟩
  | t :: ts =>
    if t.kind == .newline || t.kind == .endMarker then .error ⟨.missingColon, t.start⟩
    else if depth == 0 && endsPlainHeader t then .ok ([], t :: ts)
    else do
      checkName t
      let (header, rest) ← plainHeader (depth + t.depthChange) ts
      return (t :: header, rest)

def escapeLabel (clause : Position) (before : List EscapeLabel) (loops : Bool) (t : Token) :
    Except DialectFault EscapeLabel :=
  if !t.isIdentifier || t.text == "loop" then
    if before.isEmpty && !loops then .error ⟨.noLabels, clause⟩ else .error ⟨.badLabel, t.start⟩
  else do
    checkName t
    if before.any fun e => e.label == t.text then .error ⟨.repeatedLabel t.text, t.start⟩
    else .ok ⟨t.text, loops, t.start⟩

/-- The labels of the break clause whose keyword is at `clause`: each may have `loop` before it, and
commas divide them. -/
def escapeLabels (clause : Position) (before : List EscapeLabel) :
    List Token → Except DialectFault (List EscapeLabel × List Token)
  | [] => .error ⟨.noLabels, clause⟩
  | [t] =>
    if t.isName "loop" then .error ⟨.badLabel, t.start⟩
    else (escapeLabel clause before false t).map fun e => (before ++ [e], [])
  | t :: u :: ts =>
    if t.isName "loop" then do
      let e ← escapeLabel clause before true u
      match ts with
      | [] => return (before ++ [e], [])
      | c :: ts =>
        if c.isOp "," then escapeLabels clause (before ++ [e]) ts
        else return (before ++ [e], c :: ts)
    else do
      let e ← escapeLabel clause before false t
      if u.isOp "," then escapeLabels clause (before ++ [e]) ts
      else return (before ++ [e], u :: ts)

def breakClause (ts : List Token) : Except DialectFault (List EscapeLabel × List Token) :=
  match ts with
  | t :: rest => if t.isName "break" then escapeLabels t.start [] rest else .ok ([], ts)
  | [] => .ok ([], [])

def asClause (ts : List Token) : Except DialectFault (Option String × List Token) :=
  match ts with
  | t :: rest =>
    if t.isName "as" then
      match rest with
      | [] => .error ⟨.missingTarget, t.stop⟩
      | n :: rest =>
        if !n.isIdentifier then .error ⟨.missingTarget, n.start⟩
        else do
          checkName n
          return (some n.text, rest)
    else .ok (none, ts)
  | [] => .ok (none, [])

/-- The header of a callback loop after `for`: its plain tokens, its clauses, and the tokens from the
colon on. -/
def loopHeader (label : Option String) (ts : List Token) :
    Except DialectFault (List Token × LoopHeader × List Token) := do
  let (header, rest) ← plainHeader 0 ts
  let (escapes, rest) ← breakClause rest
  let (result, rest) ← asClause rest
  match rest with
  | c :: _ =>
    if c.isOp ":" then return (header, ⟨label, escapes, result⟩, rest)
    else .error ⟨.missingColon, c.start⟩
  | [] => .error ⟨.missingColon, ⟨0, 0⟩⟩

/-- The tokens of a value, up to the end of the statement outside brackets.  Comments are not kept. -/
def valueTokens (depth : Int) : List Token → Except DialectFault (List Token × List Token)
  | [] => .ok ([], [])
  | t :: ts =>
    if (depth == 0 && t.endsStatement) || t.kind == .endMarker then .ok ([], t :: ts)
    else do
      checkName t
      let (value, rest) ← valueTokens (depth + t.depthChange) ts
      return (if t.kind == .comment then value else t :: value, rest)

def jumpLabel (ts : List Token) : Except DialectFault (Option String × List Token) :=
  match ts with
  | t :: rest =>
    if t.isIdentifier then do
      checkName t
      return (some t.text, rest)
    else .ok (none, ts)
  | [] => .ok (none, [])

def jumpValue (keyword : String) (ts : List Token) :
    Except DialectFault (List Token × List Token) :=
  match ts with
  | t :: rest =>
    if t.isName "with" then
      if keyword == "continue" then .error ⟨.continueValue, t.start⟩
      else do
        let (value, rest) ← valueTokens 0 rest
        if value.isEmpty then .error ⟨.missingValue, t.start⟩ else return (value, rest)
    else .ok ([], ts)
  | [] => .ok ([], [])

def jumpTail (keyword : String) (ts : List Token) : Except DialectFault (JumpTail × List Token) := do
  let (label, rest) ← jumpLabel ts
  let (value, rest) ← jumpValue keyword rest
  match rest with
  | t :: _ =>
    if t.endsStatement then return (⟨label, value⟩, rest)
    else .error ⟨.badJump keyword, t.start⟩
  | [] => return (⟨label, value⟩, [])

/-! ### No more is left than was there -/

section

variable {ts rest : List Token}

theorem plainHeader_length {depth : Int} {header : List Token} (h : plainHeader depth ts = .ok (header, rest)) :
    rest.length ≤ ts.length := by
  induction ts generalizing depth header rest with
  | nil => cases h
  | cons t ts ih =>
    simp only [plainHeader, bind, Except.bind, pure, Except.pure] at h
    grind

theorem escapeLabels_length {clause : Position} {before es : List EscapeLabel}
    (h : escapeLabels clause before ts = .ok (es, rest)) : rest.length ≤ ts.length := by
  fun_induction escapeLabels clause before ts with
  | case1 | case2 => cases h
  | case4 before t u ts =>
    simp only [bind, Except.bind, pure, Except.pure] at h
    cases ts <;> grind
  | _ =>
    simp only [bind, Except.bind, pure, Except.pure, Except.map] at h
    grind

theorem breakClause_length {es : List EscapeLabel} (h : breakClause ts = .ok (es, rest)) :
    rest.length ≤ ts.length := by
  unfold breakClause at h
  grind [→ escapeLabels_length]

theorem asClause_length {target : Option String} (h : asClause ts = .ok (target, rest)) :
    rest.length ≤ ts.length := by
  simp only [asClause, bind, Except.bind, pure, Except.pure] at h
  grind

theorem loopHeader_length {label : Option String} {header : List Token} {l : LoopHeader}
    (h : loopHeader label ts = .ok (header, l, rest)) : rest.length ≤ ts.length := by
  simp only [loopHeader, bind, Except.bind, pure, Except.pure] at h
  grind [→ plainHeader_length, → breakClause_length, → asClause_length]

theorem valueTokens_length {depth : Int} {value : List Token} (h : valueTokens depth ts = .ok (value, rest)) :
    rest.length ≤ ts.length := by
  induction ts generalizing depth value rest with
  | nil => grind [valueTokens]
  | cons t ts ih =>
    simp only [valueTokens, bind, Except.bind, pure, Except.pure] at h
    grind

theorem jumpLabel_length {label : Option String} (h : jumpLabel ts = .ok (label, rest)) :
    rest.length ≤ ts.length := by
  simp only [jumpLabel, bind, Except.bind, pure, Except.pure] at h
  grind

theorem jumpValue_length {keyword : String} {value : List Token} (h : jumpValue keyword ts = .ok (value, rest)) :
    rest.length ≤ ts.length := by
  simp only [jumpValue, bind, Except.bind, pure, Except.pure] at h
  grind [→ valueTokens_length]

theorem jumpTail_length {keyword : String} {tail : JumpTail} (h : jumpTail keyword ts = .ok (tail, rest)) :
    rest.length ≤ ts.length := by
  simp only [jumpTail, bind, Except.bind, pure, Except.pure] at h
  grind [→ jumpLabel_length, → jumpValue_length]

end

end LoopEscape
