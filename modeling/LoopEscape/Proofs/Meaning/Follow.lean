import LoopEscape.Proofs.Meaning.Calm
import LoopEscape.Proofs.Lower.Spec

/-!
# Jumps and what they are lowered to

A statement and the statements that it is lowered to are run from the same state.  They do the same and
end in the same way, except that a jump is on its way in one of two forms: as a plain jump to the
innermost loop, with its value already kept, or as an exception that belongs to its target
(`Follows`).  In the target the two forms come together again: a loop takes the plain jump, and the
clause around the body of a loop or block catches the exception.
-/

namespace LoopEscape

open Generate Lower Step

variable {σ ε : Type}

/-! ### Code that can be lowered -/

def Expr.holder? : Expr → Option String
  | .call _ (.member _ (.name _ holder .load) _ .load) _ [] => some holder
  | _ => none

def Stmt.valueTarget? : Stmt → Option String
  | .for_ _ _ mark _ _ _ _ | .while_ _ mark _ _ _ => mark.valueTarget
  | _ => none

def Stmt.clears? : Stmt → Option String
  | .assign _ [.name _ x .store] (.const _ .none) => if isReserved x then some x else none
  | _ => none

mutual

/-- Code as it is before labels are lowered.  Generated names in `names` are left alone; loops that
take a value do so in a variable that is emptied right before.  Plain code has `try`, and no loops that
take values and no tasks; other code has these and no `try`. -/
def Stmt.Drafted (plain : Bool) (names : List String) : Stmt → Prop
  | .function _ isAsync name params body decorators returns => plain = false ∧
      ∀ item slot, taskNames? isAsync name params decorators returns = some (item, slot) →
        name ∉ names ∧ item ≠ jumpVariable ∧ slot ≠ jumpVariable ∧
        Stmt.DraftedAll plain [jumpVariable] none body
  | .assign _ targets value =>
    (∀ t ∈ targets, t.Avoids names) ∧ (value.relayed? ≠ none → plain = false)
  | .for_ _ isAsync mark target _ body orElse =>
    (isAsync = true → plain = false) ∧ target.Avoids (mark.valueTarget.toList ++ names) ∧
      (∀ x, mark.valueTarget = some x → plain = false ∧ isReserved x = true ∧ x ∉ names) ∧
      Stmt.DraftedAll plain (mark.valueTarget.toList ++ names) none body ∧
      Stmt.DraftedAll plain names none orElse
  | .while_ _ mark _ body orElse =>
    (∀ x, mark.valueTarget = some x → plain = false ∧ isReserved x = true ∧ x ∉ names) ∧
      Stmt.DraftedAll plain (mark.valueTarget.toList ++ names) none body ∧
      Stmt.DraftedAll plain names none orElse
  | .if_ _ _ body orElse =>
    Stmt.DraftedAll plain names none body ∧ Stmt.DraftedAll plain names none orElse
  | .raise _ exc _ => ∀ h, exc.bind Expr.holder? = some h → ∀ k, h ≠ holderName k
  | .try_ _ isStar body handlers orElse final =>
    plain = true ∧ isStar = false ∧ handlers = [] ∧ Stmt.DraftedAll plain names none body ∧
      Stmt.DraftedAll plain names none orElse ∧ Stmt.DraftedAll plain names none final
  | .expr _ e => ∀ slot flow, e.abort? = some (slot, flow) → plain = false ∧ slot ∉ names
  | .break_ _ _ value => ∀ e, value = some e → e.relayed? = none ∧ e.abort? = none
  | .block _ _ target body =>
    (∀ x, target = some x → x ∉ names) ∧ Stmt.DraftedAll plain names none body
  | .callbackLoop .. => False
  | .class_ .. | .with_ .. | .match_ .. | .supportImport .. => plain = false
  | _ => True

def Stmt.DraftedAll (plain : Bool) (names : List String) (cleared : Option String) :
    List Stmt → Prop
  | [] => True
  | s :: rest =>
    s.Drafted plain names ∧ (∀ x, s.valueTarget? = some x → cleared = some x) ∧
      Stmt.DraftedAll plain names s.clears? rest

end

/-! ### Jumps on their way -/

structure Machine.Knows (m : Machine σ ε) (made : List String) : Prop where
  blind : m.host.Blind
  label : ∀ h ∈ made, ∃ l, m.globals.labels h = some l
  made : ∀ h l, m.globals.labels h = some l → ∃ k, h = holderName k
  apart : ∀ h h' l l', m.globals.labels h = some l → m.globals.labels h' = some l' →
    l.number = l'.number → h = h'

/-- A state in which no jump has been caught and no loop around has received a value. -/
structure State.Ready (plain : Bool) (names : List String) (ts : List JumpTarget) (st : State σ ε) :
    Prop where
  noJump : jumpVariable ∈ names ∧ st.frame jumpVariable = none
  empty : ∀ t ∈ ts, t.isLoop = true → ∀ x, t.valueTarget = some x →
    plain = false ∧ isReserved x = true ∧ x ∈ names ∧ st.frame x = some (.value .none)

/-- How the run of a statement and that of what it is lowered to end, between the given targets. -/
inductive Follows (m : Machine σ ε) (plain : Bool) (ts : List JumpTarget) :
    Exit ε × State σ ε → Exit ε × State σ ε → Prop
  | calm {r} (h : r.1.Calm plain) : Follows m plain ts r r
  /-- A plain jump to the innermost loop: the value is already where the loop puts it. -/
  | native {kind label v st i t} (hi : targetIndex ts label = some i) (ht : ts[i]? = some t)
      (hin : isInnermost ts i = true) (hc : kind = .continue_ → v = .none) :
      Follows m plain ts (.jump kind label v, st) (.jump kind none .none, st.receive t.valueTarget v)
  /-- An exception of the target, which notes that it catches it. -/
  | raised {kind label v st i t h l} (hi : targetIndex ts label = some i) (ht : ts[i]? = some t)
      (hc : kind = .continue_ → v = .none) (hr : t.raises kind = true) (hh : t.holder = some h)
      (hl : m.globals.labels h = some l) :
      Follows m plain ts (.jump kind label v, st) (.raised (.raised (.jump l kind v)), st)

def Simulates (m : Machine σ ε) (plain : Bool) (names : List String) (ts : List JumpTarget)
    (st : State σ ε) (a a' : Step σ ε) : Prop :=
  State.Keeps names st (a st).2 ∧ Follows m plain ts (a st) (a' st)

section

variable {m : Machine σ ε} {plain : Bool} {names : List String} {ts : List JumpTarget}
  {st : State σ ε}

theorem State.Ready.of_keeps {st' : State σ ε} (h : st.Ready plain names ts)
    (hk : State.Keeps names st st') : st'.Ready plain names ts where
  noJump := ⟨h.noJump.1, (hk _ h.noJump.1).trans h.noJump.2⟩
  empty t ht hl x hx := by
    obtain ⟨hp, hr, hn, he⟩ := h.empty t ht hl x hx
    exact ⟨hp, hr, hn, (hk x hn).trans he⟩

theorem Simulates.of_calm {a : Step σ ε} (h : a.Calm plain names) :
    Simulates m plain names ts st a a := ⟨(h st).1, .calm (h st).2⟩

theorem Simulates.andThen {a a' b b' : Step σ ε} (h : Simulates m plain names ts st a a')
    (hb : ∀ st', a st = (.normal, st') → State.Keeps names st st' →
      Simulates m plain names ts st' b b') :
    Simulates m plain names ts st (a.andThen b) (a'.andThen b') := by
  obtain ⟨hk, hf⟩ := h
  unfold Simulates Step.andThen
  generalize a st = r at hk hf hb
  generalize a' st = r' at hf
  cases hf with
  | calm hc =>
    obtain ⟨e, st'⟩ := r
    cases e with
    | normal => exact ⟨hk.trans (hb st' rfl hk).1, (hb st' rfl hk).2⟩
    | jump => exact hc.elim
    | _ => exact ⟨hk, .calm hc⟩
  | native hi ht hin hc => exact ⟨hk, .native hi ht hin hc⟩
  | raised hi ht hc hr hh hl => exact ⟨hk, .raised hi ht hc hr hh hl⟩

theorem Simulates.first {a b b' : Step σ ε} (more : List String) (ha : a.Calm plain (more ++ names))
    (hb : ∀ st', State.Keeps (more ++ names) st st' → Simulates m plain names ts st' b b') :
    Simulates m plain names ts st (a.andThen b) (a.andThen b') := by
  have hcalm : a.Calm plain names := fun st =>
    ⟨(ha st).1.mono fun _ => List.mem_append_right _, (ha st).2⟩
  refine .andThen (.of_calm hcalm) fun st' hst' _ => hb st' ?_
  have hk := (ha st).1
  rwa [hst'] at hk

theorem Simulates.query {α : Type} {q : Query σ ε α} {f f' : α → Step σ ε} (more : List String)
    (hq : q.Calm plain (more ++ names))
    (hf : ∀ a st', State.Keeps (more ++ names) st st' →
      Simulates m plain names ts st' (f a) (f' a)) :
    Simulates m plain names ts st (q.andThen f) (q.andThen f') := by
  obtain ⟨hk, he⟩ := hq st
  have hk' : State.Keeps names st (q st).2 := hk.mono fun _ => List.mem_append_right _
  unfold Simulates Query.andThen
  rcases hr : q st with ⟨e | a, st'⟩
  · rw [hr] at hk' he
    exact ⟨hk', .calm (he e rfl)⟩
  · rw [hr] at hk hk'
    exact ⟨hk'.trans (hf a st' hk).1, (hf a st' hk).2⟩

end

/-! ### Targets of jumps inside a loop or a block -/

theorem targetIndex_loop {t : JumpTarget} {ts : List JumpTarget} {mark : LoopMark}
    (hl : t.isLoop = true) (hm : t.label = mark.label) (label : Option String) :
    targetIndex (t :: ts) label =
      if mark.owns label then some 0 else (targetIndex ts label).map (· + 1) := by
  cases label with
  | none => simp [targetIndex, List.findIdx?_cons, hl, LoopMark.owns]
  | some l =>
    simp only [targetIndex, List.findIdx?_cons, hm, LoopMark.owns, Option.isNone_some,
      Bool.false_or]
    rw [Bool.beq_comm]

theorem isInnermost_loop {t : JumpTarget} (hl : t.isLoop = true) (ts : List JumpTarget) (i : Nat) :
    isInnermost (t :: ts) i = (i == 0) := by
  simp only [isInnermost, List.findIdx?_cons, hl, if_true]
  cases i <;> rfl

theorem targetIndex_block {t : JumpTarget} {ts : List JumpTarget} {l : String}
    (hl : t.isLoop = false) (hm : t.label = some l) (label : Option String) :
    targetIndex (t :: ts) label =
      if label = some l then some 0 else (targetIndex ts label).map (· + 1) := by
  cases label with
  | none => simp [targetIndex, List.findIdx?_cons, hl]
  | some l' =>
    simp only [targetIndex, List.findIdx?_cons, hm, Option.some.injEq]
    by_cases h : l' = l
    · simp [h]
    · have h' : ¬ l = l' := fun e => h e.symm
      simp [h, h']

theorem isInnermost_block {t : JumpTarget} (hl : t.isLoop = false) (ts : List JumpTarget) :
    isInnermost (t :: ts) 0 = false ∧ ∀ i, isInnermost (t :: ts) (i + 1) = isInnermost ts i := by
  simp only [isInnermost, List.findIdx?_cons, hl, Bool.false_eq_true, if_false]
  cases ts.findIdx? (·.isLoop) <;> simp

/-! ### Clauses that catch jumps -/

theorem isReserved_jumpVariable : isReserved jumpVariable = true := by decide

section

variable {m : Machine σ ε} {t : JumpTarget} {h : String} {l : JumpLabel}

theorem Machine.labelClass?_attr (hl : m.globals.labels h = some l) (s : Span) (kind : JumpKind) :
    m.labelClass? (attr s (load s h) kind.name) = some (l, kind) := by
  cases kind <;> simp [Machine.labelClass?, attr, load, hl, JumpKind.name]

theorem handlerClass (hh : t.holder = some h) (hl : m.globals.labels h = some l)
    (kind : JumpKind) :
    (some (attr t.loc.span (load t.loc.span (t.holder.getD "")) kind.name)).bind m.labelClass? =
      some (l, kind) := by
  rw [hh]
  exact Machine.labelClass?_attr hl t.loc.span kind

theorem Machine.evaluate_caught (s : Span) (v : Datum) (st : State σ ε) :
    m.evaluate (attr s (load s jumpVariable) "value") (st.set jumpVariable (.jump v)) =
      (.ok v, st.set jumpVariable (.jump v)) := by
  have : m.value? (st.set jumpVariable (.jump v)) (attr s (load s jumpVariable) "value") =
      some v := by
    simp [Machine.value?, attr, load, Expr.value?, Frame.lookup, isReserved_jumpVariable,
      State.set, Frame.set]
  simp only [Machine.evaluate, this]

theorem execAll_handler_skip {e : Thrown ε} (hh : t.holder = some h)
    (hl : m.globals.labels h = some l) (kind : JumpKind) (body : List Stmt) (rest : List Handler)
    (he : ∀ l' kind' v, e = .raised (.jump l' kind' v) → (l'.number = l.number → kind' ≠ kind)) :
    Handler.execAll m e (handler t kind body :: rest) = Handler.execAll m e rest := by
  have hskip : ∀ (name : Option String) (a b : Step σ ε), catchJump (l, kind) name a b e = b := by
    intro name a b
    funext st
    unfold catchJump
    split
    · next l' kind' v =>
      have hne : JumpLabel.catches (l, kind) (l', kind') = false := by
        simp only [JumpLabel.catches, Bool.and_eq_false_imp, beq_iff_eq, beq_eq_false_iff_ne]
        intro hn hk
        exact he l' kind' v rfl hn.symm hk.symm
      rw [hne]
      rfl
    · rfl
  unfold handler
  split <;> simp only [Handler.execAll, handlerClass hh hl, hskip]

theorem execAll_handler_plain {v : Datum} (hh : t.holder = some h)
    (hl : m.globals.labels h = some l) (kind : JumpKind) (body : List Stmt) (rest : List Handler)
    (hv : kind = .break_ → t.valueTarget = none) :
    Handler.execAll m (.raised (.jump l kind v)) (handler t kind body :: rest) =
      Stmt.execAll m body := by
  unfold handler
  split
  · next hx => rw [hv rfl] at hx; cases hx
  · funext st
    simp only [Handler.execAll, handlerClass hh hl, catchJump, JumpLabel.catches_self, if_true]

theorem execAll_handler_value {v : Datum} {x : String} (hh : t.holder = some h)
    (hl : m.globals.labels h = some l) (hx : t.valueTarget = some x) (body : List Stmt)
    (rest : List Handler) (st : State σ ε) :
    Handler.execAll m (.raised (.jump l .break_ v)) (handler t .break_ body :: rest) st =
      (fun r : Exit ε × State σ ε => (r.1, r.2.erase jumpVariable))
        (((m.assign (store t.loc.span x) v).andThen (Stmt.execAll m body))
          (st.set jumpVariable (.jump v))) := by
  have hassign : Stmt.exec m (assign t.loc x (attr t.loc.span (load t.loc.span jumpVariable) "value"))
      (st.set jumpVariable (.jump v)) =
        m.assign (store t.loc.span x) v (st.set jumpVariable (.jump v)) := by
    rw [assign, Stmt.exec]
    simp only [Machine.execAssign]
    show Query.andThen _ _ _ = _
    simp only [Query.andThen, Machine.evaluate_caught]
  simp only [handler, hx, Handler.execAll, handlerClass hh hl, catchJump, JumpLabel.catches_self, if_true,
    Stmt.execAll_cons, Step.andThen, hassign]

theorem State.set_erase {st : State σ ε} {x : String} (hx : st.frame x = none) (a : Local σ ε) :
    (st.set x a).erase x = st := by
  obtain ⟨f, w⟩ := st
  refine congrArg (State.mk · w) (funext fun y => ?_)
  show (if y = x then none else if y = x then some a else f y) = f y
  by_cases hy : y = x
  · rw [if_pos hy, hy]
    exact hx.symm
  · rw [if_neg hy, if_neg hy]

theorem Machine.assign_set {x y : String} (hxy : x ≠ y) (s : Span) (v : Datum) (a : Local σ ε)
    (st : State σ ε) :
    m.assign (store s x) v (st.set y a) =
      ((m.assign (store s x) v st).1, (m.assign (store s x) v st).2.set y a) := by
  simp only [Machine.assign, store]
  split
  · refine congrArg (Prod.mk _) (congrArg (State.mk · st.world) (funext fun z => ?_))
    show (if z = x then _ else if z = y then _ else st.frame z) =
      (if z = y then _ else if z = x then _ else st.frame z)
    by_cases hz : z = x
    · rw [if_pos hz, if_neg (hz ▸ hxy), if_pos hz]
    · rw [if_neg hz, if_neg hz]
  · simp only [Machine.assignOutside, Query.andThen, State.ask, State.set]
    split <;> simp_all [done]

theorem catch_break {v : Datum} {body : List Stmt} {e : Exit ε} {st : State σ ε}
    (hh : t.holder = some h) (hl : m.globals.labels h = some l) (rest : List Handler)
    (hbody : Stmt.execAll m body = exit e) (hj : st.frame jumpVariable = none)
    (hx : t.valueTarget ≠ some jumpVariable) :
    Handler.execAll m (.raised (.jump l .break_ v)) (handler t .break_ body :: rest) st =
      ((m.bind t.loc t.valueTarget v).andThen (exit e)) st := by
  cases hv : t.valueTarget with
  | none =>
    rw [execAll_handler_plain hh hl .break_ body rest fun _ => hv, hbody]
    rfl
  | some x =>
    have hne : x ≠ jumpVariable := fun hx' => hx (hx' ▸ hv)
    have hkeep : (m.assign (store t.loc.span x) v st).2.frame jumpVariable = none := by
      have hcalm : Step.Calm false [jumpVariable] (m.assign (store t.loc.span x) v) :=
        m.calm_assign (fun s y hy => by cases hy; simpa using hne) v
      exact ((hcalm st).1 jumpVariable (by simp)).trans hj
    rw [execAll_handler_value hh hl hv, hbody]
    simp only [Machine.bind, Step.andThen, Machine.assign_set hne]
    rcases hr : m.assign (store t.loc.span x) v st with ⟨e', st'⟩
    rw [hr] at hkeep
    cases e' <;> simp only [exit, State.set_erase hkeep]

/-! ### Bodies in a `try` -/

def catching (m : Machine σ ε) (hs : List Handler) (r : Exit ε × State σ ε) : Exit ε × State σ ε :=
  match r with
  | (.raised e, st) => Handler.execAll m e hs st
  | r => r

theorem catching_nil (r : Exit ε × State σ ε) : catching m [] r = r := by
  obtain ⟨e, st⟩ := r
  cases e <;> simp only [catching, Handler.execAll, exit]

theorem execAll_try (loc : Loc) (body : List Stmt) (hs : List Handler) (st : State σ ε) :
    Stmt.execAll m [.try_ loc false body hs [] []] st = catching m hs (Stmt.execAll m body st) := by
  rw [Stmt.execAll_singleton, Stmt.exec]
  simp only [List.isEmpty_nil, if_true, Stmt.execAll_nil, Bool.false_eq_true, if_false]
  rcases Stmt.execAll m body st with ⟨e, st'⟩
  cases e <;> rfl

theorem execAll_catchJumps (t : JumpTarget) (body : List Stmt) :
    Stmt.execAll m (catchJumps t body) =
      fun st => catching m (loopHandlers t) (Stmt.execAll m body st) := by
  funext st
  simp only [catchJumps]
  split
  · next he => rw [List.isEmpty_iff.1 he, catching_nil]
  · exact execAll_try t.loc body _ st

theorem catch_own {kind : JumpKind} {v : Datum} {st : State σ ε} (hr : t.raises kind = true)
    (hh : t.holder = some h) (hl : m.globals.labels h = some l)
    (hj : st.frame jumpVariable = none)
    (hx : ∀ x, t.valueTarget = some x → isReserved x = true ∧ x ≠ jumpVariable) :
    Handler.execAll m (.raised (.jump l kind v)) (loopHandlers t) st =
      (.jump kind none .none, match kind with
        | .break_ => st.receive t.valueTarget v
        | .continue_ => st) := by
  cases kind with
  | continue_ =>
    have hr : t.raisesContinue = true := hr
    simp only [loopHandlers, hr, if_true, List.singleton_append]
    rw [execAll_handler_plain hh hl .continue_ _ _ (fun h => by cases h),
      Stmt.execAll_singleton, Stmt.exec]
    rfl
  | break_ =>
    have hr : t.raisesBreak = true := hr
    have hbody : Stmt.execAll m [.break_ t.loc none none] = exit (.jump .break_ none .none) := by
      rw [Stmt.execAll_singleton, Stmt.exec]
      rfl
    have hskip : Handler.execAll m (.raised (.jump l .break_ v)) (loopHandlers t) =
        Handler.execAll m (.raised (.jump l .break_ v))
          [handler t .break_ [.break_ t.loc none none]] := by
      simp only [loopHandlers, hr, if_true]
      split
      · rw [List.singleton_append, execAll_handler_skip hh hl]
        intro l' kind' v' he _ hk
        cases he
        cases hk
      · rfl
    rw [hskip, catch_break hh hl [] hbody hj fun hx' => (hx _ hx').2 rfl]
    cases hv : t.valueTarget with
    | none => rfl
    | some x =>
      simp only [Machine.bind, Machine.assign, store, (hx x hv).1, if_true, Step.andThen, exit,
        State.receive]

theorem catch_other {made : List String} {e : Thrown ε} (hk : m.Knows made) (hn : t.Notes)
    (hm : ∀ h, t.holder = some h → h ∈ made)
    (he : ∀ h l, t.holder = some h → m.globals.labels h = some l →
      ∀ l' kind v, e = .raised (.jump l' kind v) → l'.number ≠ l.number) :
    Handler.execAll m e (loopHandlers t) = exit (.raised e) := by
  have hskip : ∀ kind body rest, t.raises kind = true →
      Handler.execAll m e (handler t kind body :: rest) = Handler.execAll m e rest := by
    intro kind body rest hr
    obtain ⟨h, hh⟩ := (hn kind hr).1
    obtain ⟨l, hl⟩ := hk.label h (hm h hh)
    exact execAll_handler_skip hh hl kind body rest fun l' kind' v hev hnum =>
      absurd hnum (he h l hh hl l' kind' v hev)
  have hlast : Handler.execAll m e
      (if t.raisesBreak then [handler t .break_ [.break_ t.loc none none]] else []) =
      exit (.raised e) := by
    split
    · next hb => rw [hskip .break_ _ _ hb, Handler.execAll]
    · rw [Handler.execAll]
  unfold loopHandlers
  split
  · next hc => rw [List.singleton_append, hskip .continue_ _ _ hc, hlast]
  · rw [List.nil_append, hlast]

end

/-! ### Loops -/

theorem State.receive_none {st : State σ ε} {target : Option String}
    (h : ∀ x, target = some x → st.frame x = some (.value .none)) :
    st.receive target .none = st := by
  cases target with
  | none => rfl
  | some x =>
    refine congrArg (State.mk · st.world) (funext fun y => ?_)
    show (if y = x then some (Local.value .none) else st.frame y) = st.frame y
    split
    · next hy => rw [hy, h x rfl]
    · rfl

theorem State.Keeps.receive {st : State σ ε} {names : List String} {target : Option String}
    (h : ∀ x, target = some x → x ∉ names) (v : Datum) :
    State.Keeps names st (st.receive target v) := by
  cases target with
  | none => exact .refl _ _
  | some x => exact .set (h x rfl) _

structure LoopTarget (m : Machine σ ε) (plain : Bool) (made names : List String)
    (ts : List JumpTarget) (loc : Loc) (mark : LoopMark) (t : JumpTarget) : Prop where
  knows : m.Knows made
  opens : t.Opens loc mark.label true mark.valueTarget
  stands : t.Stands made ts
  target : ∀ x, mark.valueTarget = some x → plain = false ∧ isReserved x = true ∧ x ∉ names
  jump : jumpVariable ∈ names

section

variable {m : Machine σ ε} {made names : List String} {ts : List JumpTarget} {loc : Loc}
  {mark : LoopMark} {t : JumpTarget} {plain : Bool}

theorem LoopTarget.ready (ht : LoopTarget m plain made names ts loc mark t) {st : State σ ε}
    (h : st.Ready plain names ts)
    (hx : ∀ x, mark.valueTarget = some x → st.frame x = some (.value .none)) :
    st.Ready plain (mark.valueTarget.toList ++ names) (t :: ts) where
  noJump := ⟨List.mem_append_right _ h.noJump.1, h.noJump.2⟩
  empty u hu hl x hux := by
    rcases List.mem_cons.1 hu with rfl | hu
    · rw [ht.opens.valueTarget] at hux
      exact ⟨(ht.target x hux).1, (ht.target x hux).2.1,
        List.mem_append_left _ (by rw [hux]; simp), hx x hux⟩
    · obtain ⟨hp, hr, hn, he⟩ := h.empty u hu hl x hux
      exact ⟨hp, hr, List.mem_append_right _ hn, he⟩

theorem LoopTarget.owns (ht : LoopTarget m plain made names ts loc mark t) {label : Option String}
    (hi : targetIndex (t :: ts) label = some 0) : mark.owns label = true := by
  by_contra hno
  rw [targetIndex_loop ht.opens.isLoop ht.opens.label, if_neg hno] at hi
  cases hti : targetIndex ts label <;> rw [hti] at hi <;> cases hi

theorem LoopTarget.afterPass (ht : LoopTarget m plain made names ts loc mark t)
    {r r' : Exit ε × State σ ε} {again again' : Step σ ε} (h : Follows m plain (t :: ts) r r')
    (hready : r.2.Ready plain (mark.valueTarget.toList ++ names) (t :: ts))
    (hagain : Simulates m plain names ts r.2 again again') :
    State.Keeps names r.2 (mark.afterPass again r).2 ∧
      Follows m plain ts (mark.afterPass again r)
        (LoopMark.afterPass {} again' (catching m (loopHandlers t) r')) := by
  have hloop : t.isLoop = true := ht.opens.isLoop
  have hempty : ∀ x, mark.valueTarget = some x → r.2.frame x = some (.value .none) := fun x hx =>
    (hready.empty t (by simp) hloop x (ht.opens.valueTarget.trans hx)).2.2.2
  have hbroken : ∀ st v, State.Keeps names st (st.receive mark.valueTarget v) ∧
      Follows m plain ts (.normal, st.receive mark.valueTarget v)
        (.normal, st.receive mark.valueTarget v) := fun st v =>
    ⟨.receive (fun x hx => (ht.target x hx).2.2) v, .calm trivial⟩
  cases h with
  | calm hc =>
    obtain ⟨e, st⟩ := r
    cases e with
    | normal => exact hagain
    | jump => exact hc.elim
    | raised e =>
      have hthrough : Handler.execAll m e (loopHandlers t) = exit (.raised e) := by
        refine catch_other ht.knows ht.stands.notes ht.stands.made fun h l _ _ l' kind v he => ?_
        subst he
        exact hc.elim
      refine ⟨.refl _ _, ?_⟩
      simp only [catching, hthrough, exit]
      exact .calm hc
    | _ => exact ⟨.refl _ _, .calm hc⟩
  | @native kind label v st i u hi hu hin hc =>
    rw [isInnermost_loop hloop, beq_iff_eq] at hin
    subst hin
    obtain rfl : t = u := Option.some.inj hu
    simp only [LoopMark.afterPass, catching, ht.owns hi, if_true, ht.opens.valueTarget]
    cases kind with
    | break_ => exact hbroken st v
    | continue_ =>
      rw [hc rfl, State.receive_none hempty]
      exact hagain
  | @raised kind label v st i u h l hi hu hc hr hh hl =>
    cases i with
    | zero =>
      obtain rfl : t = u := Option.some.inj hu
      have hcatch := catch_own (v := v) hr hh hl hready.noJump.2 fun x hx => by
        rw [ht.opens.valueTarget] at hx
        exact ⟨(ht.target x hx).2.1, fun hxj => (ht.target x hx).2.2 (hxj ▸ ht.jump)⟩
      simp only [LoopMark.afterPass, catching, ht.owns hi, if_true, hcatch]
      cases kind with
      | break_ =>
        rw [ht.opens.valueTarget]
        exact hbroken st v
      | continue_ => exact hagain
    | succ j =>
      have hmiss : mark.owns label = false := by
        by_contra hno
        rw [targetIndex_loop hloop ht.opens.label, if_pos (by simpa using hno)] at hi
        cases hi
      rw [targetIndex_loop hloop ht.opens.label, hmiss] at hi
      obtain ⟨j', hj', hjj⟩ := Option.map_eq_some_iff.1 hi
      obtain rfl : j' = j := Nat.succ.inj hjj
      have hu : ts[j']? = some u := hu
      have hthrough : Handler.execAll m (.raised (.jump l kind v)) (loopHandlers t) =
          exit (.raised (.raised (.jump l kind v))) := by
        refine catch_other ht.knows ht.stands.notes ht.stands.made
          fun h' l₁ hh' hl₁ l' kind' v' he hnum => ?_
        cases he
        have := ht.knows.apart h h' l l₁ hl hl₁ hnum
        exact ht.stands.apart u (List.mem_of_getElem? hu) h' hh' (this ▸ hh)
      refine ⟨by simp only [LoopMark.afterPass, hmiss]; exact .refl _ _, ?_⟩
      simp only [LoopMark.afterPass, hmiss, catching, hthrough, exit]
      exact .raised hj' hu hc hr hh hl

theorem LoopTarget.pass (ht : LoopTarget m plain made names ts loc mark t)
    {body body' again again' : Step σ ε} {st : State σ ε}
    (hready : st.Ready plain (mark.valueTarget.toList ++ names) (t :: ts))
    (hbody : Simulates m plain (mark.valueTarget.toList ++ names) (t :: ts) st body body')
    (hagain : ∀ st', State.Keeps (mark.valueTarget.toList ++ names) st st' →
      Simulates m plain names ts st' again again') :
    Simulates m plain names ts st (fun st => mark.afterPass again (body st))
      (fun st => LoopMark.afterPass {} again' (catching m (loopHandlers t) (body' st))) := by
  obtain ⟨hk, hf⟩ := hbody
  obtain ⟨hk', hf'⟩ := ht.afterPass hf (hready.of_keeps hk) (hagain _ hk)
  exact ⟨(hk.mono fun _ => List.mem_append_right _).trans hk', hf'⟩

theorem LoopTarget.loop (ht : LoopTarget m plain made names ts loc mark t) {head : Query σ ε Bool}
    {body body' orElse orElse' : Step σ ε}
    (hhead : head.Calm plain (mark.valueTarget.toList ++ names))
    (hbody : ∀ st, st.Ready plain (mark.valueTarget.toList ++ names) (t :: ts) →
      Simulates m plain (mark.valueTarget.toList ++ names) (t :: ts) st body body')
    (horElse : ∀ st, st.Ready plain names ts → Simulates m plain names ts st orElse orElse') (n : Nat)
    {st : State σ ε} (h : st.Ready plain names ts)
    (hx : ∀ x, mark.valueTarget = some x → st.frame x = some (.value .none)) :
    Simulates m plain names ts st (loop mark head body orElse n)
      (LoopEscape.loop {} head (fun st => catching m (loopHandlers t) (body' st)) orElse' n) := by
  induction n generalizing st with
  | zero => exact .of_calm (calm_exit trivial)
  | succ n ih =>
    have hready := ht.ready h hx
    refine .query mark.valueTarget.toList hhead fun more st₁ hk => ?_
    have hready₁ := hready.of_keeps hk
    cases more with
    | false => exact horElse st₁ (h.of_keeps (hk.mono fun _ => List.mem_append_right _))
    | true =>
      refine ht.pass hready₁ (hbody st₁ hready₁) fun st₂ hk₂ => ?_
      have hk' := hk.trans hk₂
      refine ih (h.of_keeps (hk'.mono fun _ => List.mem_append_right _)) fun x hmx => ?_
      exact (hk' x (List.mem_append_left _ (by rw [hmx]; simp))).trans (hx x hmx)

end

/-! ### Blocks -/

def blockHandlers (t : JumpTarget) : List Handler :=
  if t.raisesBreak then [handler t .break_ [.pass t.loc]] else []

section

variable {m : Machine σ ε} {made names : List String} {ts : List JumpTarget} {t : JumpTarget}
  {plain : Bool}

theorem exec_clear (loc : Loc) (x : String) :
    Stmt.exec m (assign loc x (nothing loc.span)) = m.assign (store loc.span x) .none := by
  rw [assign, Stmt.exec]
  rfl

theorem execAll_blockStmts (t : JumpTarget) (body : List Stmt) :
    Stmt.execAll m (blockStmts t body) = (m.bind t.loc t.valueTarget .none).andThen
      fun st => catching m (blockHandlers t) (Stmt.execAll m body st) := by
  have hclear : Stmt.execAll m (t.valueTarget.toList.map fun target =>
      assign t.loc target (nothing t.loc.span)) = m.bind t.loc t.valueTarget .none := by
    cases t.valueTarget with
    | none => exact Stmt.execAll_nil m
    | some x => exact (Stmt.execAll_singleton m _).trans (exec_clear t.loc x)
  have hbody : Stmt.execAll m
      (if t.raisesBreak then [.try_ t.loc false body [handler t .break_ [.pass t.loc]] [] []]
        else body) =
      fun st => catching m (blockHandlers t) (Stmt.execAll m body st) := by
    funext st
    unfold blockHandlers
    split
    · exact execAll_try t.loc body _ st
    · rw [catching_nil]
  rw [blockStmts, Stmt.execAll_append, hclear, hbody]

theorem catch_other_block {e : Thrown ε} (hk : m.Knows made) (hst : t.Stands made ts)
    (he : ∀ h l, t.holder = some h → m.globals.labels h = some l →
      ∀ l' kind v, e = .raised (.jump l' kind v) → l'.number ≠ l.number) :
    Handler.execAll m e (blockHandlers t) = exit (.raised e) := by
  unfold blockHandlers
  split
  · next hb =>
    obtain ⟨h, hh⟩ := (hst.notes .break_ hb).1
    obtain ⟨l, hl⟩ := hk.label h (hst.made h hh)
    rw [execAll_handler_skip hh hl .break_ _ _ fun l' kind' v hev hnum =>
      absurd hnum (he h l hh hl l' kind' v hev), Handler.execAll]
  · rw [Handler.execAll]

theorem afterBlock_follows {loc : Loc} {label : String} {target : Option String}
    (hk : m.Knows made) (ho : t.Opens loc (some label) false target) (hst : t.Stands made ts)
    (hx : ∀ x, target = some x → x ∉ names) {r r' : Exit ε × State σ ε}
    (h : Follows m plain (t :: ts) r r') (hready : r.2.Ready plain names ts) :
    State.Keeps names r.2 (afterBlock label (m.bind loc target) r).2 ∧
      Follows m plain ts (afterBlock label (m.bind loc target) r)
        (catching m (blockHandlers t) r') := by
  have hindex : ∀ label', targetIndex (t :: ts) label' =
      if label' = some label then some 0 else (targetIndex ts label').map (· + 1) :=
    targetIndex_block ho.isLoop ho.label
  obtain ⟨hzero, hsucc⟩ := isInnermost_block ho.isLoop ts
  have hpass : ∀ {kind label' v i} {st : State σ ε}, targetIndex (t :: ts) label' = some (i + 1) →
      targetIndex ts label' = some i ∧
        afterBlock label (m.bind loc target) (.jump kind label' v, st) =
          (.jump kind label' v, st) := by
    intro kind label' v i st hi
    rw [hindex] at hi
    split at hi
    · cases hi
    · next hne =>
      obtain ⟨j, hj, hij⟩ := Option.map_eq_some_iff.1 hi
      obtain rfl : j = i := Nat.succ.inj hij
      refine ⟨hj, ?_⟩
      cases label' with
      | none => rfl
      | some l' =>
        have : l' ≠ label := fun h => hne (congrArg some h)
        simp only [afterBlock, this, if_false]
  cases h with
  | calm hc =>
    obtain ⟨e, st⟩ := r
    cases e with
    | jump => exact hc.elim
    | raised e =>
      have hthrough : Handler.execAll m e (blockHandlers t) = exit (.raised e) := by
        refine catch_other_block hk hst fun h l _ _ l' kind v he => ?_
        subst he
        exact hc.elim
      refine ⟨.refl _ _, ?_⟩
      simp only [catching, hthrough, exit]
      exact .calm hc
    | _ => exact ⟨.refl _ _, .calm hc⟩
  | @native kind label' v st i u hi hu hin hc =>
    cases i with
    | zero => rw [hzero] at hin; cases hin
    | succ i =>
      obtain ⟨hi', hthrough⟩ := hpass hi
      rw [hthrough]
      exact ⟨.refl _ _, .native hi' hu (by rw [← hsucc]; exact hin) hc⟩
  | @raised kind label' v st i u h l hi hu hc hr hh hl =>
    cases i with
    | zero =>
      obtain rfl : t = u := Option.some.inj hu
      have hlabel : label' = some label := by
        rw [hindex] at hi
        split at hi
        · assumption
        · cases hti : targetIndex ts label' <;> rw [hti] at hi <;> cases hi
      cases kind with
      | continue_ =>
        have hloop := (hst.notes .continue_ hr).2 rfl
        rw [ho.isLoop] at hloop
        cases hloop
      | break_ =>
        have hr : t.raisesBreak = true := hr
        have hbody : Stmt.execAll m [.pass t.loc] = exit (.normal : Exit ε) := by
          rw [Stmt.execAll_singleton, Stmt.exec]
          rfl
        have hcatch := catch_break (v := v) hh hl [] hbody hready.noJump.2 fun hxj => by
          rw [ho.valueTarget] at hxj
          exact hx _ hxj hready.noJump.1
        have hdone : ((m.bind t.loc t.valueTarget v).andThen (exit .normal)) st =
            m.bind loc target v st := by
          rw [ho.loc, ho.valueTarget]
          exact congrFun (andThen_done _) st
        have hcalm : Step.Calm plain names (m.bind loc target v) := m.calm_bind hx loc v
        simp only [afterBlock, hlabel, if_true, catching, blockHandlers, hr, hcatch, hdone]
        exact ⟨(hcalm st).1, .calm (hcalm st).2⟩
    | succ i =>
      obtain ⟨hi', hthrough⟩ := hpass hi
      have hu : ts[i]? = some u := hu
      have hmiss : Handler.execAll m (.raised (.jump l kind v)) (blockHandlers t) =
          exit (.raised (.raised (.jump l kind v))) := by
        refine catch_other_block hk hst fun h' l₁ hh' hl₁ l' kind' v' he hnum => ?_
        cases he
        have := hk.apart h h' l l₁ hl hl₁ hnum
        exact hst.apart u (List.mem_of_getElem? hu) h' hh' (this ▸ hh)
      rw [hthrough]
      simp only [catching, hmiss, exit]
      exact ⟨.refl _ _, .raised hi' hu hc hr hh hl⟩

end

end LoopEscape
