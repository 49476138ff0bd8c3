import LoopEscape.Proofs.Meaning.Relay

/-!
# Calls of iterator functions and what follows them

Behind the call of an iterator function, generated code takes apart what was returned.  The conditions stand
for the reasons in their order, and the first that is met tells what is done (`execAll_branches`).  A reason is
met by values of its class, but labels, and all of `ContinueTo`, are told by equality, and an object may equal
what it likes.  A reason that a task records meets no other: the branch for it does what the source says
(`dispatch_spec`).
-/

namespace LoopEscape

open Generate Step

variable {σ ε : Type}

section

variable {m : Machine σ ε} {st : State σ ε}

/-! ### Chains of conditions -/

theorem test_of_value? {e : Expr} {b : Bool} (h : m.value? st e = some (.bool b)) :
    m.test e st = (.ok b, st) := by
  simp only [Machine.test, h]

theorem execAll_ifChain_true {test : Expr} (h : m.value? st test = some (.bool true)) (loc : Loc)
    (orElse body : List Stmt) (rest : List (Expr × List Stmt)) :
    Stmt.execAll m (ifChain loc orElse ((test, body) :: rest)) st = Stmt.execAll m body st := by
  rw [ifChain, Stmt.execAll_singleton, Stmt.exec]
  simp only [Query.andThen, test_of_value? h]

theorem execAll_ifChain_false {test : Expr} (h : m.value? st test = some (.bool false)) (loc : Loc)
    (orElse body : List Stmt) (rest : List (Expr × List Stmt)) :
    Stmt.execAll m (ifChain loc orElse ((test, body) :: rest)) st =
      Stmt.execAll m (ifChain loc orElse rest) st := by
  rw [ifChain, Stmt.execAll_singleton, Stmt.exec]
  simp only [Query.andThen, test_of_value? h]

/-! ### Expressions about what was returned -/

variable {k : Nat} {header : LoopHeader} {v r : Datum}

theorem value?_outcome (h : st.frame (LoopNames.of k).result = some (.value v)) (s : Span) :
    m.value? st (outcome (Taxonomy.of k header) s) = some v :=
  value?_load (isReserved_generatedName _) h s

theorem value?_reason (h : st.frame (LoopNames.of k).result = some (.value v))
    (hr : v.attribute? "value" = some r) (s : Span) :
    m.value? st (reason (Taxonomy.of k header) s) = some r := by
  have hres : isReserved (LoopNames.of k).result = true := isReserved_generatedName _
  simp [Machine.value?, reason, outcome, attr, load, Taxonomy.of, Expr.value?, Frame.lookup, hres, h,
    hr]

theorem value?_attr_reason (h : st.frame (LoopNames.of k).result = some (.value v))
    (hr : v.attribute? "value" = some r) (s : Span) (field : String) :
    m.value? st (attr s (reason (Taxonomy.of k header) s) field) = r.attribute? field := by
  have hv : Expr.value? m.globals st.frame (reason (Taxonomy.of k header) s) = some r :=
    value?_reason h hr s
  rw [reason, attr] at hv
  simp [Machine.value?, attr, reason, Expr.value?, hv]

theorem value?_isInstance (hs : m.globals.support = true) {e : Expr} (he : m.value? st e = some v)
    (s : Span) (kind : String) :
    m.value? st (isInstance s e kind) = some (.bool (v.isInstance kind)) := by
  have he' : Expr.value? m.globals st.frame e = some v := he
  simp [Machine.value?, isInstance, call, Expr.value?, support?_support hs, he']

theorem execAll_setResult {e : Expr} (he : e.relayed? = none) (hv : m.value? st e = some v)
    (loc : Loc) (result : Option String) :
    Stmt.execAll m [setResult loc result e] st = m.bind loc result v st := by
  rw [Stmt.execAll_singleton]
  cases result with
  | none => rw [setResult, Stmt.exec]; rfl
  | some x =>
    rw [setResult, exec_assign he]
    simp only [Query.andThen, evaluate_of_value? hv]
    rfl

end

/-! ### Reasons -/

/-- What a reason carries if the condition for it is met by the value that a `Break` holds. -/
def Value.meets? (r : Datum) : EscapeReason → Option Datum
  | .earlyReturn =>
    match r with
    | .earlyReturn v => some v
    | _ => Option.none
  | .earlyBreak =>
    match r with
    | .earlyBreak v => some v
    | _ => Option.none
  | .breakTo l =>
    match r with
    | .breakTo label v => if label.value.same (.text l) then some v else Option.none
    | _ => Option.none
  | .continueTo l => if r.same (.continueTo l) then some .none else Option.none

/-- The reason that a value is by its class, with a text for a label. -/
def Value.escape? : Datum → Option (EscapeReason × Datum)
  | .earlyReturn v => some (.earlyReturn, v)
  | .earlyBreak v => some (.earlyBreak, v)
  | .breakTo (.text l) v => some (.breakTo l, v)
  | .continueTo (.text l) => some (.continueTo l, .none)
  | _ => Option.none

theorem Value.meets?_of_escape? {r x : Datum} {reason : EscapeReason} (h : r.escape? = some (reason, x))
    (reason' : EscapeReason) : r.meets? reason' = if reason' = reason then some x else Option.none := by
  unfold escape? at h
  split at h <;> cases h <;> cases reason' <;> grind [meets?, same, ReasonLabel.value, ReasonLabel.same]

theorem Value.findSome?_meets? {r x : Datum} {reason : EscapeReason} (h : r.escape? = some (reason, x))
    (reasons : List EscapeReason) : (reasons.findSome? fun reason => (r.meets? reason).map (reason, ·)) =
      if reason ∈ reasons then some (reason, x) else Option.none := by
  induction reasons with
  | nil => rfl
  | cons reason' reasons ih =>
    rw [List.findSome?_cons, meets?_of_escape? h]
    by_cases heq : reason' = reason
    · simp [heq]
    · simp [heq, ih, Ne.symm heq]

def CallbackHeader.carries (header : CallbackHeader) (l : String) : Bool :=
  ((header.takesValue.getD []).lookup l).getD true

namespace Machine

variable (m : Machine σ ε)

def act (loc : Loc) (header : CallbackHeader) : EscapeReason → Datum → Step σ ε
  | .earlyReturn, v => exit (.returned v)
  | .earlyBreak, v => m.bind loc header.result v
  | .breakTo l, v => exit (.jump .break_ (some l) (if header.carries l then v else .none))
  | .continueTo l, _ => exit (.jump .continue_ (some l) .none)

/-- What is done about the result of an iterator function: the first of the reasons that it meets is acted
upon, and all other results are refused. -/
def react (loc : Loc) (header : CallbackHeader) (reasons : List EscapeReason) (v : Datum) : Step σ ε :=
  let refused := exit (.raised (.badResult v))
  match v with
  | .continue_ x => m.bind loc header.result x
  | .break_ r =>
    match reasons.findSome? fun reason => (r.meets? reason).map (reason, ·) with
    | some (reason, x) => m.act loc header reason x
    | none => refused
  | _ => refused

end Machine

/-- Returning needs a function to return from. -/
def Taxonomy.reasons (t : Taxonomy) (inFunction : Bool) : List EscapeReason :=
  t.variants.filter fun reason => reason ≠ .earlyReturn || inFunction

/-! ### Branches -/

def branch (t : Taxonomy) (loc : Loc) (header : CallbackHeader) : EscapeReason → Expr × List Stmt
  | .earlyReturn => (isInstance loc.span (reason t loc.span) "EarlyReturn",
      [.return_ loc (some (payload t loc.span))])
  | .earlyBreak => (isInstance loc.span (reason t loc.span) "EarlyBreak",
      [setResult loc header.result (payload t loc.span)])
  | .breakTo l => (isBreakTo t loc.span l, [breakTo t loc header l])
  | .continueTo l => (isContinueTo t loc.span l, [.continue_ loc (some l)])

theorem branches_eq (k : Nat) (loc : Loc) (header : CallbackHeader) (inFunction : Bool) :
    let t := Taxonomy.of k header.toLoopHeader
    branches t loc header inFunction =
      (isInstance loc.span (outcome t loc.span) "Continue",
        [setResult loc header.result (reason t loc.span)]) ::
      (.unary loc.span .not (isInstance loc.span (outcome t loc.span) "Break"),
        [protocolError t loc]) :: (t.reasons inFunction).map (branch t loc header) := by
  have hlabels : (header.escapes.map fun e => EscapeReason.breakTo e.label).filter
      (fun reason => reason ≠ .earlyReturn || inFunction) = header.escapes.map fun e => .breakTo e.label :=
    List.filter_eq_self.2 (by simp)
  have hloops : ((header.escapes.filter (·.loops)).map fun e => EscapeReason.continueTo e.label).filter
      (fun reason => reason ≠ .earlyReturn || inFunction) =
        (header.escapes.filter (·.loops)).map fun e => .continueTo e.label := by
    refine List.filter_eq_self.2 fun _ h => ?_
    obtain ⟨e, -, rfl⟩ := List.mem_map.1 h
    simp
  simp only [Taxonomy.reasons, Taxonomy.variants, Taxonomy.of, List.filter_append, hlabels, hloops]
  cases inFunction <;> simp [branches, branch, Function.comp_def]

section

variable {m : Machine σ ε} {st : State σ ε} {k : Nat} {header : CallbackHeader} {v r : Datum}
variable (hs : m.globals.support = true)

include hs

theorem value?_branch (h : st.frame (LoopNames.of k).result = some (.value (.break_ r))) (loc : Loc)
    (header : CallbackHeader) (why : EscapeReason) :
    m.value? st (branch (Taxonomy.of k header.toLoopHeader) loc header why).1 =
      some (.bool (r.meets? why).isSome) := by
  have hr : m.value? st (reason (Taxonomy.of k header.toLoopHeader) loc.span) = some r :=
    value?_reason h rfl loc.span
  have hkind (kind : String) := value?_isInstance hs hr loc.span kind
  cases why with
  | earlyReturn | earlyBreak =>
    refine (hkind _).trans (congrArg _ (congrArg _ ?_))
    cases r <;> rfl
  | breakTo l =>
    have hlabel : m.value? st (attr loc.span (reason (Taxonomy.of k header.toLoopHeader) loc.span) "label") =
        r.attribute? "label" := value?_attr_reason h rfl loc.span "label"
    have ht : m.value? st (text loc.span l) = some (.text l) := value?_text loc.span l
    have hb := hkind "BreakTo"
    simp only [Machine.value?] at hb hlabel ht ⊢
    cases r <;> simp [branch, isBreakTo, Expr.value?, hb, hlabel, ht, Value.isInstance, Value.classNames,
      Value.attribute?, Value.meets?]
    split <;> simp_all
  | continueTo l =>
    have hc : m.value? st (call loc.span (support loc.span "ContinueTo") [text loc.span l]) =
        some (.continueTo l) := value?_call_one hs (value?_text loc.span l)
    simp only [Machine.value?] at hr hc ⊢
    simp only [branch, isContinueTo, Expr.value?, hr, hc, Option.bind_some, Option.map_some, Value.meets?]
    split <;> simp_all

omit hs in
theorem execAll_branch (h : st.frame (LoopNames.of k).result = some (.value (.break_ r))) (loc : Loc)
    {why : EscapeReason} {x : Datum} (hx : r.meets? why = some x) :
    Stmt.execAll m (branch (Taxonomy.of k header.toLoopHeader) loc header why).2 st =
      m.act loc header why x st := by
  have hp (hv : r.attribute? "value" = some x) :
      m.value? st (payload (Taxonomy.of k header.toLoopHeader) loc.span) = some x :=
    (value?_attr_reason h rfl _ _).trans hv
  cases why with
  | earlyReturn =>
    cases r <;> cases hx
    rw [branch, Stmt.execAll_singleton, Stmt.exec]
    simp only [Machine.evaluateOption, Query.andThen, evaluate_of_value? (hp rfl), Machine.act]
  | earlyBreak =>
    cases r <;> cases hx
    exact execAll_setResult rfl (hp rfl) loc _
  | breakTo l =>
    cases r with
    | breakTo label v =>
      rw [Value.meets?] at hx
      split at hx
      · cases hx
        rw [branch, Stmt.execAll_singleton, breakTo, Stmt.exec, Machine.act, CallbackHeader.carries]
        split
        · simp only [Machine.evaluateOption, Query.andThen, evaluate_of_value? (hp rfl)]
        · rfl
      · cases hx
    | _ => cases hx
  | continueTo l => rw [branch, Stmt.execAll_singleton, Stmt.exec, Machine.act]

theorem execAll_protocolError {h : LoopHeader} (hv : st.frame (LoopNames.of k).result = some (.value v))
    (loc : Loc) :
    Stmt.execAll m [protocolError (Taxonomy.of k h) loc] st = (.raised (.badResult v), st) := by
  have hclass : m.labelClass? (support loc.span "protocol_error") = none := by
    have hne : ¬ "protocol_error" = JumpKind.break_.name ∧
        ¬ "protocol_error" = JumpKind.continue_.name := by decide
    simp [Machine.labelClass?, support, attr, load, hne]
  have hsupport := support?_support hs loc.span "protocol_error"
  have heval : m.evaluate (outcome (Taxonomy.of k h) loc.span) st = (.ok v, st) :=
    evaluate_of_value? (value?_outcome hv loc.span)
  rw [Stmt.execAll_singleton, protocolError, Stmt.exec]
  simp only [Machine.execRaise, call, hclass, hsupport, Query.andThen, heval, exit]

theorem execAll_reasons (h : st.frame (LoopNames.of k).result = some (.value (.break_ r))) (loc : Loc)
    (reasons : List EscapeReason) :
    Stmt.execAll m (ifChain loc [protocolError (Taxonomy.of k header.toLoopHeader) loc]
      (reasons.map (branch (Taxonomy.of k header.toLoopHeader) loc header))) st =
      m.react loc header reasons (.break_ r) st := by
  induction reasons with
  | nil => exact execAll_protocolError hs h loc
  | cons why reasons ih =>
    have hv := value?_branch hs h loc header why
    rw [List.map_cons]
    cases hx : r.meets? why with
    | none =>
      rw [hx] at hv
      rw [execAll_ifChain_false hv, ih]
      simp [Machine.react, hx]
    | some x =>
      rw [hx] at hv
      rw [execAll_ifChain_true hv, execAll_branch h loc hx]
      simp [Machine.react, hx]

theorem execAll_branches (loc : Loc) (inFunction : Bool)
    (h : st.frame (LoopNames.of k).result = some (.value v)) :
    Stmt.execAll m (ifChain loc [protocolError (Taxonomy.of k header.toLoopHeader) loc]
      (branches (Taxonomy.of k header.toLoopHeader) loc header inFunction)) st =
      m.react loc header ((Taxonomy.of k header.toLoopHeader).reasons inFunction) v st := by
  have hv : m.value? st (outcome (Taxonomy.of k header.toLoopHeader) loc.span) = some v :=
    value?_outcome h loc.span
  have hcontinue := value?_isInstance hs hv loc.span "Continue"
  have hbreak : m.value? st (.unary loc.span .not
      (isInstance loc.span (outcome (Taxonomy.of k header.toLoopHeader) loc.span) "Break")) =
      some (.bool !(v.isInstance "Break")) := by
    have hi := value?_isInstance hs hv loc.span "Break"
    simp only [Machine.value?] at hi ⊢
    simp [Expr.value?, hi]
  rw [branches_eq]
  cases v with
  | continue_ x =>
    rw [execAll_ifChain_true hcontinue]
    exact execAll_setResult rfl (value?_reason h rfl _) loc _
  | break_ r =>
    rw [execAll_ifChain_false hcontinue, execAll_ifChain_false hbreak]
    exact execAll_reasons hs h loc _
  | _ =>
    rw [execAll_ifChain_false hcontinue, execAll_ifChain_true hbreak]
    exact execAll_protocolError hs h loc

inductive Dispatched (m : Machine σ ε) (loc : Loc) (header : CallbackHeader) (st : State σ ε) :
    Datum → Exit ε × State σ ε → Prop
  | finished (v : Datum) : Dispatched m loc header st (.continue_ v) (m.bind loc header.result v st)
  | broken (v : Datum) :
      Dispatched m loc header st (.break_ (.earlyBreak v)) (m.bind loc header.result v st)
  | returned (v : Datum) : Dispatched m loc header st (.break_ (.earlyReturn v)) (.returned v, st)
  | breakTo {l : String} (hl : l ∈ header.escapes.map (·.label)) (v : Datum) :
      Dispatched m loc header st (.break_ (.breakTo l v)) (.jump .break_ (some l)
        (if ((header.takesValue.getD []).lookup l).getD true then v else .none), st)
  | continueTo {l : String} (hl : l ∈ (header.escapes.filter (·.loops)).map (·.label)) :
      Dispatched m loc header st (.break_ (.continueTo l)) (.jump .continue_ (some l) .none, st)

omit hs in
theorem react_of_escape? {loc : Loc} {reasons : List EscapeReason} {x : Datum} {why : EscapeReason}
    (h : r.escape? = some (why, x)) : m.react loc header reasons (.break_ r) st =
      if why ∈ reasons then m.act loc header why x st else (.raised (.badResult (.break_ r)), st) := by
  simp only [Machine.react, Value.findSome?_meets? h]
  split <;> simp_all [exit]

theorem dispatch_spec (loc : Loc) (header : CallbackHeader) {result : Exit ε × State σ ε}
    (hd : Dispatched m loc header st v result) (h : st.frame (LoopNames.of k).result = some (.value v)) :
    Stmt.execAll m (ifChain loc [protocolError (Taxonomy.of k header.toLoopHeader) loc]
      (branches (Taxonomy.of k header.toLoopHeader) loc header true)) st = result := by
  rw [execAll_branches hs loc true h]
  cases hd with
  | finished v => rfl
  | broken v => exact (react_of_escape? rfl).trans (if_pos (by simp [Taxonomy.reasons, Taxonomy.variants]))
  | returned v => exact (react_of_escape? rfl).trans (if_pos (by simp [Taxonomy.reasons, Taxonomy.variants]))
  | breakTo hl v =>
    refine (react_of_escape? rfl).trans (if_pos ?_)
    simpa [Taxonomy.reasons, Taxonomy.variants, Taxonomy.of] using hl
  | continueTo hl =>
    refine (react_of_escape? rfl).trans (if_pos ?_)
    simpa [Taxonomy.reasons, Taxonomy.variants, Taxonomy.of] using hl

end

/-! ### The call -/

theorem relayed?_callWith {iter : Expr} {form : CallForm} (h : CallForm.of? iter = some form)
    (k : Nat) (header : LoopHeader) (s : Span) (debug : Bool) :
    (callWith s (relay (Taxonomy.of k header) s debug) form).relayed? =
      some (form, (LoopNames.of k).task, debug) := by
  have hopt : (!(if debug then [Keyword.mk s (some "debug") (.const s .true)] else []).isEmpty) =
      debug := by cases debug <;> rfl
  unfold CallForm.of? at h
  split at h
  · split at h
    all_goals
      cases h
      simp [callWith, relay, Expr.relayed?, CallForm.of?, support, attr, load, Taxonomy.of, hopt]
  · cases h

theorem takesValue_escapeValues {scope : LabelScope} {header : CallbackHeader} {ds : List LabelDecl}
    (hds : scope.escapes header.escapes = .ok ds) {e : EscapeLabel} (he : e ∈ header.escapes)
    {outer : LabelDecl} (ho : scope.lookup e.label = some outer) :
    ((escapeValues scope header).takesValue.getD []).lookup e.label = some outer.takesValue := by
  simp only [escapeValues, hds, Option.getD_some]
  have hall := LabelScope.escapes_ok_iff.1 hds
  clear hds
  generalize header.escapes = es at he hall
  induction hall with
  | nil => exact absurd he (by simp)
  | @cons e' d es ds hd _ ih =>
    obtain ⟨outer', ho', -, rfl⟩ := LabelScope.escape_ok_iff.1 hd
    rw [List.map_cons, List.lookup_cons]
    by_cases heq : e.label = e'.label
    · rw [heq, ho'] at ho
      cases ho
      simp [heq]
    · simp only [beq_false_of_ne heq]
      refine ih ((List.mem_cons.1 he).resolve_left ?_)
      rintro rfl
      exact heq rfl

end LoopEscape
