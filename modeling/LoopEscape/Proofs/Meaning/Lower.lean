import LoopEscape.Proofs.Meaning.Follow

/-!
# Lowering keeps the meaning of statements

Code that is drafted and what it is lowered to do the same from every state in which no jump is on its
way (`lowered_simulates`).  The proof goes through the statement; loops, blocks and jumps have been
treated before, so what is left is `try`, simple statements and tasks.
-/

namespace LoopEscape

open Generate Lower Step

variable {σ ε : Type} {m : Machine σ ε} {made names : List String} {ts : List JumpTarget}
  {plain : Bool}

/-! ### The last part of a `try` -/

theorem isLoop_of_isInnermost {i : Nat} {t : JumpTarget} (h : isInnermost ts i = true)
    (ht : ts[i]? = some t) : t.isLoop = true := by
  simp only [isInnermost, beq_iff_eq] at h
  obtain ⟨hlt, hl, _⟩ := List.findIdx?_eq_some_iff_getElem.1 h
  rw [List.getElem?_eq_getElem hlt] at ht
  rw [← Option.some.inj ht]
  exact hl

theorem Follows.with_state {r r' : Exit ε × State σ ε} (hp : plain = true)
    (h : Follows m plain ts r r') (hready : r.2.Ready plain names ts) :
    r'.2 = r.2 ∧ ∀ st, Follows m plain ts (r.1, st) (r'.1, st) := by
  subst hp
  cases h with
  | calm hc => exact ⟨rfl, fun st => .calm hc⟩
  | @native kind label v st i t hi ht hin hc =>
    have hnone : t.valueTarget = none := by
      cases hv : t.valueTarget with
      | none => rfl
      | some x =>
        have hp := (hready.empty t (List.mem_of_getElem? ht) (isLoop_of_isInnermost hin ht) x hv).1
        cases hp
    have hrec : ∀ st : State σ ε, st.receive t.valueTarget v = st := fun st => by rw [hnone]; rfl
    refine ⟨hrec st, fun st' => ?_⟩
    have hnat : Follows m true ts (.jump kind label v, st')
        (.jump kind none .none, st'.receive t.valueTarget v) := .native hi ht hin hc
    rwa [hrec st'] at hnat
  | raised hi ht hc hr hh hl => exact ⟨rfl, fun st => .raised hi ht hc hr hh hl⟩

theorem Follows.not_suspended {r r' : Exit ε × State σ ε} (hp : plain = true)
    (h : Follows m plain ts r r') : (∀ s, r.1 ≠ .suspended s) ∧ ∀ s, r'.1 ≠ .suspended s := by
  subst hp
  cases h with
  | calm hc =>
    have hne : ∀ s, r.1 ≠ .suspended s := fun s hs => by
      rw [hs] at hc
      cases hc
    exact ⟨hne, hne⟩
  | native => exact ⟨fun _ h => (by cases h), fun _ h => (by cases h)⟩
  | raised => exact ⟨fun _ h => (by cases h), fun _ h => (by cases h)⟩

theorem Exit.tell_keeps (f : Thrown ε → σ → σ) (e : Exit ε) (st : State σ ε) :
    State.Keeps names st (e.tell f st) := by
  cases e <;> exact .refl _ _

theorem Host.Blind.forget_jump {host : Host σ ε} (h : host.Blind) (l : JumpLabel) (kind : JumpKind)
    (v : Datum) (s : σ) : host.forget (.raised (.jump l kind v)) s = s := by
  have := h.restores (.raised (.jump l kind v)) s
  rwa [h.jump] at this

theorem Host.Blind.tell {host : Host σ ε} (h : host.Blind) (e : Exit ε) (st : State σ ε) :
    e.tell host.forget (e.tell host.notice st) = st := by
  cases e with
  | raised e => simp only [Exit.tell, h.restores]
  | _ => rfl

theorem Follows.tell (hb : m.host.Blind) {r r' : Exit ε × State σ ε} (h : Follows m plain ts r r')
    (st : State σ ε) : r'.1.tell m.host.notice st = r.1.tell m.host.notice st ∧
      r'.1.tell m.host.forget st = r.1.tell m.host.forget st := by
  cases h with
  | calm => exact ⟨rfl, rfl⟩
  | native => exact ⟨rfl, rfl⟩
  | raised => simp only [Exit.tell, hb.jump, hb.forget_jump, and_self]

theorem finallyDo_follows {final final' : Step σ ε} {r r' : Exit ε × State σ ε} (hb : m.host.Blind)
    (hp : plain = true) (h : Follows m plain ts r r') (hready : r.2.Ready plain names ts)
    (hf : ∀ st, State.Keeps names r.2 st → Simulates m plain names ts st final final') :
    State.Keeps names r.2 (finallyDo m.host final r).2 ∧
      Follows m plain ts (finallyDo m.host final r) (finallyDo m.host final' r') := by
  subst hp
  obtain ⟨hst, hwith⟩ := h.with_state rfl hready
  -- both run their last part from the same state, and its exit goes before
  have hrun : State.Keeps names r.2
        (r.1.tell m.host.forget (final (r.1.tell m.host.notice r.2)).2) ∧
      Follows m true ts
        (r.1.lastly (final (r.1.tell m.host.notice r.2)).1,
          r.1.tell m.host.forget (final (r.1.tell m.host.notice r.2)).2)
        (r'.1.lastly (final' (r'.1.tell m.host.notice r'.2)).1,
          r'.1.tell m.host.forget (final' (r'.1.tell m.host.notice r'.2)).2) := by
    have hstart : State.Keeps names r.2 (r.1.tell m.host.notice r.2) := r.1.tell_keeps m.host.notice r.2
    rw [(h.tell hb _).1, (h.tell hb _).2, hst]
    obtain ⟨hk, hq⟩ := hf _ hstart
    obtain ⟨hsame, hany⟩ := hq.with_state rfl (hready.of_keeps (hstart.trans hk))
    refine ⟨(hstart.trans hk).trans (Exit.tell_keeps _ _ _), ?_⟩
    rw [hsame]
    generalize final (r.1.tell m.host.notice r.2) = q at hq hany
    generalize final' (r.1.tell m.host.notice r.2) = q' at hq hany
    cases hq with
    | calm hc =>
      obtain ⟨e, st⟩ := q
      cases e with
      | normal => exact hwith _
      | jump => exact hc.elim
      | _ => exact hany _
    | native => exact hany _
    | raised => exact hany _
  cases h with
  | calm hc =>
    obtain ⟨e, st⟩ := r
    cases e with
    | jump => exact hc.elim
    | suspended => cases hc
    | stuck => cases hc
    | exhausted => exact ⟨.refl _ _, .calm trivial⟩
    | normal => exact hrun
    | returned => exact hrun
    | raised => exact hrun
  | native => exact hrun
  | raised => exact hrun

theorem finallyDo_done {host : Host σ ε} (hb : host.Blind) {r : Exit ε × State σ ε}
    (h : ∀ s, r.1 ≠ .suspended s) : finallyDo host done r = r := by
  obtain ⟨e, st⟩ := r
  have htell := hb.tell e st
  cases e with
  | suspended s => exact absurd rfl (h s)
  | raised e => exact Prod.ext rfl htell
  | _ => rfl

theorem exec_tryFinally (hb : m.host.Blind) (loc : Loc) (body orElse final : List Stmt)
    (st : State σ ε)
    (h : ∀ s, ((Stmt.execAll m body).andThen (Stmt.execAll m orElse) st).1 ≠ .suspended s) :
    Stmt.exec m (.try_ loc false body [] orElse final) st =
      finallyDo m.host (Stmt.execAll m final)
        ((Stmt.execAll m body).andThen (Stmt.execAll m orElse) st) := by
  have hr : afterBody (fun e => Handler.execAll m e []) (Stmt.execAll m orElse)
      (Stmt.execAll m body st) = (Stmt.execAll m body).andThen (Stmt.execAll m orElse) st := by
    unfold Step.andThen
    rcases Stmt.execAll m body st with ⟨e, st'⟩
    cases e <;> simp only [afterBody, Handler.execAll, exit]
  rw [Stmt.exec]
  simp only [hr, Bool.false_eq_true, if_false]
  split
  · next he => rw [List.isEmpty_iff.1 he, Stmt.execAll_nil, finallyDo_done hb h]
  · rfl

/-! ### Jumps -/

theorem exec_value {loc : Loc} {e : Expr} (h : e.abort? = none) :
    Stmt.exec m (.expr loc e) = (m.evaluate e).andThen fun _ => done := by
  rw [Stmt.exec]
  simp only [Machine.execExpr, h]

theorem exec_plain (loc : Loc) (kind : JumpKind) :
    Stmt.execAll m [kind.plain loc] = exit (.jump kind none .none) := by
  rw [Stmt.execAll_singleton]
  cases kind with
  | break_ => rw [JumpKind.plain, Stmt.exec]; rfl
  | continue_ => rw [JumpKind.plain, Stmt.exec]

theorem execAll_plainJump {loc : Loc} {kind : JumpKind} {t : JumpTarget} {e : Expr}
    (he : e.relayed? = none ∧ e.abort? = none)
    (hx : ∀ x, t.valueTarget = some x → isReserved x = true) :
    Stmt.execAll m (plainJump loc kind t (some e)) = (m.evaluate e).andThen fun v st =>
      (.jump kind none .none, st.receive t.valueTarget v) := by
  simp only [plainJump]
  cases hv : t.valueTarget with
  | none =>
    rw [List.singleton_append, Stmt.execAll_cons, exec_value he.2, exec_plain,
      Query.andThen_andThen (m.evaluate_ends e)]
    rfl
  | some x =>
    have hset : ∀ v, m.assign (store loc.span x) v = fun st => (.normal, st.set x (.value v)) := by
      intro v
      simp only [Machine.assign, store, hx x hv, if_true]
    rw [List.singleton_append, Stmt.execAll_cons, exec_assign he.1, exec_plain,
      Query.andThen_andThen (m.evaluate_ends e)]
    simp only [hset]
    rfl

theorem exec_raiseJump {h : String} {l : JumpLabel} (hl : m.globals.labels h = some l) (loc : Loc)
    (kind : JumpKind) (value : Option Expr) :
    Stmt.exec m (raiseJump loc h kind value) = (m.evaluateOption value).andThen fun v =>
      exit (.raised (.raised (.jump l kind v))) := by
  rw [raiseJump, Stmt.exec]
  simp only [Machine.execRaise, call, Machine.labelClass?_attr hl]
  cases value with
  | none => rfl
  | some e => rfl

theorem jump_simulates {loc : Loc} {kind : JumpKind} {label : Option String} {value : Option Expr}
    {out : List Stmt} {st : State σ ε} (hk : m.Knows made)
    (hmade : ∀ t ∈ ts, ∀ h, t.holder = some h → h ∈ made)
    (hl : LowersJump ts loc kind label value out) (hc : kind = .continue_ → value = none)
    (hval : ∀ e, value = some e → e.relayed? = none ∧ e.abort? = none)
    (hready : st.Ready plain names ts) :
    Simulates m plain names ts st
      ((m.evaluateOption value).andThen fun v => exit (.jump kind label v))
      (Stmt.execAll m out) := by
  obtain ⟨i, t, hi, ht, _, hout⟩ := hl
  have htm : t ∈ ts := List.mem_of_getElem? ht
  cases hin : isInnermost ts i with
  | true =>
    rw [hin, if_pos rfl] at hout
    have hloop := isLoop_of_isInnermost hin ht
    subst hout
    cases value with
    | none =>
      have hnone : st.receive t.valueTarget .none = st := State.receive_none fun x hx =>
        (hready.empty t htm hloop x hx).2.2.2
      have hplain : Stmt.execAll m (plainJump loc kind t none) st =
          (.jump kind none .none, st.receive t.valueTarget .none) := by
        rw [hnone]
        exact congrFun (exec_plain loc kind) st
      refine ⟨.refl _ _, ?_⟩
      rw [hplain]
      exact .native hi ht hin fun _ => rfl
    | some e =>
      have hb : kind ≠ .continue_ := fun h => by cases hc h
      rw [execAll_plainJump (hval e rfl) fun x hx => (hready.empty t htm hloop x hx).2.1]
      refine .query [] (m.calm_evaluate e) fun v st' _ => ⟨.refl _ _, ?_⟩
      exact .native hi ht hin fun h => absurd h hb
  | false =>
    rw [hin, if_neg (by simp)] at hout
    obtain ⟨hr, h, hh, rfl⟩ := hout
    obtain ⟨l, hl⟩ := hk.label h (hmade t htm h hh)
    rw [Stmt.execAll_singleton, exec_raiseJump hl]
    cases value with
    | none => exact ⟨.refl _ _, .raised hi ht (fun _ => rfl) hr hh hl⟩
    | some e =>
      have hb : kind ≠ .continue_ := fun h => by cases hc h
      refine .query [] (m.calm_evaluate e) fun v st' _ => ⟨.refl _ _, ?_⟩
      exact .raised hi ht (fun h => absurd h hb) hr hh hl

/-! ### Simple statements -/

theorem calm_execRaise (hk : m.Knows made) {exc : Option Expr}
    (h : ∀ x, exc.bind Expr.holder? = some x → ∀ k, x ≠ holderName k) (loc : Loc)
    (cause : Option Expr) : Step.Calm plain names (m.execRaise loc exc cause) := by
  have hclass : ∀ s func args l, exc = some (.call s func args []) →
      m.labelClass? func ≠ some l := by
    rintro s func args l rfl hl
    unfold Machine.labelClass? at hl
    split at hl
    · obtain ⟨x, hx, _⟩ := Option.bind_eq_some_iff.1 hl
      obtain ⟨k, hk⟩ := hk.made _ x hx
      exact h _ rfl k hk
    · cases hl
  unfold Machine.execRaise
  split
  · next s func args =>
    split
    · exact absurd ‹m.labelClass? func = some _› (hclass s func _ _ rfl)
    · exact absurd ‹m.labelClass? func = some _› (hclass s func _ _ rfl)
    · exact (m.calm_evaluate _).andThen fun v => calm_exit trivial
    · exact m.calm_perform _
  · exact m.calm_perform _

theorem calm_plain (hk : m.Knows made) {s : Stmt} (hs : s.isPlain = true)
    (hd : s.Drafted plain names) : Step.Calm plain names (Stmt.exec m s) := by
  cases s with
  | return_ =>
    rw [Stmt.exec]
    exact (m.calm_evaluateOption _).andThen fun v => calm_exit trivial
  | assign =>
    rw [Stmt.Drafted] at hd
    rw [Stmt.exec]
    exact m.calm_execAssign _ hd.1 hd.2
  | annAssign =>
    rw [Stmt.exec]
    split
    · exact calm_done
    · exact m.calm_perform _
  | raise =>
    rw [Stmt.Drafted] at hd
    rw [Stmt.exec]
    exact calm_execRaise hk hd _ _
  | expr =>
    rw [Stmt.Drafted] at hd
    rw [Stmt.exec]
    exact m.calm_execExpr hd
  | delete | augAssign | assert_ | import_ | importFrom =>
    rw [Stmt.exec]
    exact m.calm_perform _
  | global | nonlocal | pass =>
    rw [Stmt.exec]
    exact calm_done
  | supportImport =>
    rw [Stmt.exec]
    exact calm_exit hd
  | _ => cases hs

theorem exec_clears {s : Stmt} {x : String} {st st' : State σ ε} (hs : s.clears? = some x)
    (h : Stmt.exec m s st = (.normal, st')) : st'.frame x = some (.value .none) := by
  unfold Stmt.clears? at hs
  split at hs
  · split at hs
    · next hr =>
      cases hs
      rw [Stmt.exec] at h
      have hset : (Exit.normal, st.set x (.value .none)) = ((Exit.normal : Exit ε), st') := by
        rw [← h]
        simp only [Machine.execAssign, Expr.relayed?, Query.andThen, Machine.evaluate,
          Machine.value?, Expr.value?, Value.ofLiteral?, Machine.assign, hr, if_true]
      rw [← (Prod.mk.inj hset).2]
      show (if x = x then _ else _) = _
      rw [if_pos rfl]
    · cases hs
  · cases hs

theorem pollTask_eq {item slot : String} {body body' : Step σ ε} (leave : ε → ε)
    (hi : item ≠ jumpVariable) (hs : slot ≠ jumpVariable)
    (h : ∀ st : State σ ε, st.Ready plain [jumpVariable] [] →
      Simulates m plain [jumpVariable] [] st body body') :
    pollTask leave item slot body' = pollTask leave item slot body := by
  funext v w
  have hready : State.Ready plain [jumpVariable] []
      (⟨(Frame.empty.set item (.value v)).set slot (.slot {}), w⟩ : State σ ε) := by
    refine ⟨⟨by simp, ?_⟩, fun _ h => absurd h (by simp)⟩
    simp [Frame.set, Frame.empty, hi.symm, hs.symm]
  have heq : body' ⟨(Frame.empty.set item (.value v)).set slot (.slot {}), w⟩ =
      body ⟨(Frame.empty.set item (.value v)).set slot (.slot {}), w⟩ := by
    obtain ⟨_, hf⟩ := h _ hready
    generalize body _ = r at hf
    generalize body' _ = r' at hf
    cases hf with
    | calm => rfl
    | native hi _ _ _ => cases hl : ‹Option String› <;> rw [hl] at hi <;> cases hi
    | raised hi _ _ _ _ _ => cases hl : ‹Option String› <;> rw [hl] at hi <;> cases hi
  simp only [pollTask, heq]

/-! ### Statements -/

def HoldersMade (made : List String) (ts : List JumpTarget) : Prop :=
  ∀ t ∈ ts, ∀ h, t.holder = some h → h ∈ made

theorem HoldersMade.cons {t : JumpTarget} (h : HoldersMade made ts) (ht : t.Stands made ts) :
    HoldersMade made (t :: ts) := by
  intro u hu
  rcases List.mem_cons.1 hu with rfl | hu
  · exact ht.made
  · exact h u hu

theorem State.Ready.block {t : JumpTarget} {st : State σ ε} (h : st.Ready plain names ts)
    (ht : t.isLoop = false) : st.Ready plain names (t :: ts) where
  noJump := h.noJump
  empty u hu hl := by
    rcases List.mem_cons.1 hu with rfl | hu
    · rw [ht] at hl; cases hl
    · exact h.empty u hu hl

/-- A body and what it is lowered to do the same, from every state in which no jump is on its way. -/
def BodySimulates (m : Machine σ ε) (plain : Bool) (made : List String) (ts : List JumpTarget)
    (body out : List Stmt) : Prop :=
  ∀ (names : List String) (cleared : Option String) (st : State σ ε),
    Stmt.DraftedAll plain names cleared body → HoldersMade made ts → st.Ready plain names ts →
    (∀ x, cleared = some x → st.frame x = some (.value .none)) →
    Simulates m plain names ts st (Stmt.execAll m body) (Stmt.execAll m out)

namespace BodySimulates

variable {t : JumpTarget} {loc : Loc} {body body' orElse orElse' : List Stmt}

theorem suite (h : BodySimulates m plain made ts body body')
    (hd : Stmt.DraftedAll plain names none body) (hm : HoldersMade made ts) (st : State σ ε)
    (hready : st.Ready plain names ts) :
    Simulates m plain names ts st (Stmt.execAll m body) (Stmt.execAll m body') :=
  h names none st hd hm hready fun _ h => nomatch h

theorem nil : BodySimulates m plain made ts [] [] := by
  intro names cleared st _ _ _ _
  rw [Stmt.execAll_nil]
  exact .of_calm calm_done

theorem append {s : Stmt} {out : List Stmt} (hs : BodySimulates m plain made ts [s] out)
    (hr : BodySimulates m plain made ts body body') :
    BodySimulates m plain made ts (s :: body) (out ++ body') := by
  intro names cleared st hd hm hready hc
  obtain ⟨hds, hcl, hdr⟩ := hd
  have hfirst := hs names cleared st ⟨hds, hcl, trivial⟩ hm hready hc
  rw [Stmt.execAll_singleton] at hfirst
  rw [Stmt.execAll_cons, Stmt.execAll_append]
  exact .andThen hfirst fun st₁ hst₁ hk₁ => hr names s.clears? st₁ hdr hm (hready.of_keeps hk₁)
    fun x hx => exec_clears hx hst₁

theorem stuck {s s' : Stmt} (hd : ∀ names, s.Drafted plain names → plain = false)
    (hs : Stmt.exec m s = exit .stuck) (hs' : Stmt.exec m s' = exit .stuck) :
    BodySimulates m plain made ts [s] [s'] := by
  intro names cleared st hds _ _ _
  rw [Stmt.execAll_singleton, Stmt.execAll_singleton, hs, hs']
  exact .of_calm (calm_exit (hd names hds.1))

theorem simple (hk : m.Knows made) {s : Stmt} (hs : s.isPlain = true) :
    BodySimulates m plain made ts [s] [s] := by
  intro names cleared st hd _ _ _
  rw [Stmt.execAll_singleton]
  exact .of_calm (calm_plain hk hs hd.1)

theorem function {isAsync : Bool} {name : String} {params : Params} {decorators : List Expr}
    {returns : Option Expr} (hb : BodySimulates m plain made [] body body') :
    BodySimulates m plain made ts [.function loc isAsync name params body decorators returns]
      [.function loc isAsync name params body' decorators returns] := by
  intro names cleared st hd _ _ _
  have hd := hd.1
  rw [Stmt.Drafted] at hd
  rw [Stmt.execAll_singleton, Stmt.execAll_singleton, Stmt.exec, Stmt.exec]
  cases hn : taskNames? isAsync name params decorators returns with
  | none => exact .of_calm (calm_exit hd.1)
  | some p =>
    obtain ⟨hname, hi, hs, hdb⟩ := hd.2 p.1 p.2 hn
    have heq : pollTask m.host.leaving p.1 p.2 (Stmt.execAll m body') =
        pollTask m.host.leaving p.1 p.2 (Stmt.execAll m body) :=
      pollTask_eq _ hi hs (hb.suite hdb fun _ h => absurd h (by simp))
    simp only [heq]
    exact .of_calm fun st => ⟨.set hname _, trivial⟩

theorem for_ (hk : m.Knows made) {isAsync : Bool} {mark : LoopMark} {target iter : Expr}
    (ho : t.Opens loc mark.label true mark.valueTarget) (hst : t.Stands made ts)
    (hb : BodySimulates m plain made (t :: ts) body body')
    (he : BodySimulates m plain made ts orElse orElse') :
    BodySimulates m plain made ts [.for_ loc isAsync mark target iter body orElse]
      [.for_ loc isAsync {} target iter (catchJumps t body') orElse'] := by
  cases isAsync with
  | true =>
    exact stuck (fun names hd => hd.1 rfl) (by rw [Stmt.exec, if_pos rfl])
      (by rw [Stmt.exec, if_pos rfl])
  | false =>
    intro names cleared st hd hm hready hc
    obtain ⟨⟨_, htarget, hvt, hdb, hde⟩, hcl, -⟩ := hd
    have ht : LoopTarget m plain made names ts loc mark t := ⟨hk, ho, hst, hvt, hready.noJump.1⟩
    have hx : ∀ x, mark.valueTarget = some x → st.frame x = some (.value .none) :=
      fun x hx => hc x (hcl x hx)
    have hbody := hb.suite hdb (hm.cons hst)
    have horElse := he.suite hde hm
    rw [Stmt.execAll_singleton, Stmt.execAll_singleton, Stmt.exec, Stmt.exec, execAll_catchJumps,
      if_neg (by simp), if_neg (by simp)]
    unfold Machine.execFor
    split
    · refine .first mark.valueTarget.toList (m.calm_assign htarget .none) fun st₁ hk₁ => ?_
      have hready₁ := (ht.ready hready hx).of_keeps hk₁
      refine ht.pass hready₁ (hbody st₁ hready₁) fun st₂ hk₂ => horElse st₂ ?_
      exact hready.of_keeps ((hk₁.trans hk₂).mono fun _ => List.mem_append_right _)
    · refine .query mark.valueTarget.toList (State.calm_ask _ _) fun it st₁ hk₁ => ?_
      refine ht.loop (m.calm_advance htarget it) hbody horElse m.bound
        (hready.of_keeps (hk₁.mono fun _ => List.mem_append_right _)) fun x hmx => ?_
      exact (hk₁ x (List.mem_append_left _ (by rw [hmx]; simp))).trans (hx x hmx)

theorem while_ (hk : m.Knows made) {mark : LoopMark} {test : Expr}
    (ho : t.Opens loc mark.label true mark.valueTarget) (hst : t.Stands made ts)
    (hb : BodySimulates m plain made (t :: ts) body body')
    (he : BodySimulates m plain made ts orElse orElse') :
    BodySimulates m plain made ts [.while_ loc mark test body orElse]
      [.while_ loc {} test (catchJumps t body') orElse'] := by
  intro names cleared st hd hm hready hc
  obtain ⟨⟨hvt, hdb, hde⟩, hcl, -⟩ := hd
  have ht : LoopTarget m plain made names ts loc mark t := ⟨hk, ho, hst, hvt, hready.noJump.1⟩
  rw [Stmt.execAll_singleton, Stmt.execAll_singleton, Stmt.exec, Stmt.exec, execAll_catchJumps]
  exact ht.loop (m.calm_test test) (hb.suite hdb (hm.cons hst)) (he.suite hde hm) m.bound hready
    fun x hx => hc x (hcl x hx)

theorem block (hk : m.Knows made) {label : String} {target : Option String}
    (ho : t.Opens loc (some label) false target) (hst : t.Stands made ts)
    (hb : BodySimulates m plain made (t :: ts) body body') :
    BodySimulates m plain made ts [.block loc label target body] (blockStmts t body') := by
  intro names cleared st hd hm hready _
  obtain ⟨⟨hx, hdb⟩, -⟩ := hd
  rw [Stmt.execAll_singleton, execAll_blockStmts, ho.loc, ho.valueTarget, Stmt.exec]
  refine .andThen (.of_calm (m.calm_bind hx loc .none)) fun st₁ _ hk₁ => ?_
  have hready₁ := hready.of_keeps hk₁
  obtain ⟨hkb, hf⟩ := hb.suite hdb (hm.cons hst) st₁ (hready₁.block ho.isLoop)
  obtain ⟨hka, hfa⟩ := afterBlock_follows hk ho hst hx hf (hready₁.of_keeps hkb)
  exact ⟨hkb.trans hka, hfa⟩

theorem break_ (hk : m.Knows made) {label : Option String} {value : Option Expr} {out : List Stmt}
    (hl : LowersJump ts loc .break_ label value out) :
    BodySimulates m plain made ts [.break_ loc label value] out := by
  intro names cleared st hd hm hready _
  have hd := hd.1
  rw [Stmt.Drafted] at hd
  rw [Stmt.execAll_singleton, Stmt.exec]
  exact jump_simulates hk hm hl (fun h => by cases h) hd hready

theorem continue_ (hk : m.Knows made) {label : Option String} {out : List Stmt}
    (hl : LowersJump ts loc .continue_ label none out) :
    BodySimulates m plain made ts [.continue_ loc label] out := by
  intro names cleared st _ hm hready _
  rw [Stmt.execAll_singleton, Stmt.exec]
  exact jump_simulates hk hm hl (fun _ => rfl) (fun _ h => by cases h) hready

theorem if_ {test : Expr} (hb : BodySimulates m plain made ts body body')
    (he : BodySimulates m plain made ts orElse orElse') :
    BodySimulates m plain made ts [.if_ loc test body orElse] [.if_ loc test body' orElse'] := by
  intro names cleared st hd hm hready _
  have hd := hd.1
  rw [Stmt.Drafted] at hd
  rw [Stmt.execAll_singleton, Stmt.execAll_singleton, Stmt.exec, Stmt.exec]
  refine .query [] (m.calm_test test) fun holds st₁ hk₁ => ?_
  cases holds with
  | true => exact hb.suite hd.1 hm st₁ (hready.of_keeps hk₁)
  | false => exact he.suite hd.2 hm st₁ (hready.of_keeps hk₁)

theorem try_ (hk : m.Knows made) {final final' : List Stmt}
    (hb : BodySimulates m plain made ts body body')
    (he : BodySimulates m plain made ts orElse orElse')
    (hf : BodySimulates m plain made ts final final') :
    BodySimulates m plain made ts [.try_ loc false body [] orElse final]
      [.try_ loc false body' [] orElse' final'] := by
  intro names cleared st hd hm hready _
  obtain ⟨⟨hp, -, -, hdb, hde, hdf⟩, -⟩ := hd
  have hparts : Simulates m plain names ts st
      ((Stmt.execAll m body).andThen (Stmt.execAll m orElse))
      ((Stmt.execAll m body').andThen (Stmt.execAll m orElse')) :=
    .andThen (hb.suite hdb hm st hready) fun st₁ _ hk₁ => he.suite hde hm st₁ (hready.of_keeps hk₁)
  have hready' := hready.of_keeps hparts.1
  obtain ⟨hks, hks'⟩ := hparts.2.not_suspended hp
  rw [Stmt.execAll_singleton, Stmt.execAll_singleton]
  unfold Simulates
  rw [exec_tryFinally hk.blind loc body orElse final st hks,
    exec_tryFinally hk.blind loc body' orElse' final' st hks']
  obtain ⟨hkf, hff⟩ := finallyDo_follows hk.blind hp hparts.2 hready'
    fun st₁ hk₁ => hf.suite hdf hm st₁ (hready'.of_keeps hk₁)
  exact ⟨hparts.1.trans hkf, hff⟩

theorem kept (hk : m.Knows made) {s : Stmt} {bs : List (List Stmt)} (hs : s.isKept = true)
    (h : List.Forall₂ (BodySimulates m plain made ts) s.bodies bs) :
    BodySimulates m plain made ts [s] [s.withBodies bs] := by
  cases s with
  | if_ =>
    obtain _ | ⟨hb, _ | ⟨he, _ | _⟩⟩ := h
    exact if_ hb he
  | with_ =>
    obtain _ | ⟨hb, _ | _⟩ := h
    exact stuck (fun names hd => hd) (by rw [Stmt.exec]) (by rw [Stmt.withBodies, Stmt.refill, Stmt.exec])
  | match_ =>
    exact stuck (fun names hd => hd) (by rw [Stmt.exec]) (by rw [Stmt.withBodies, Stmt.refill, Stmt.exec])
  | try_ loc isStar body handlers orElse final =>
    intro names cleared st hd
    obtain ⟨-, rfl, rfl, -⟩ := hd.1
    obtain _ | ⟨hb, _ | ⟨he, _ | ⟨hf, _ | _⟩⟩⟩ := h
    exact try_ hk hb he hf names cleared st hd
  | _ => cases hs

end BodySimulates

theorem lowered_simulates (hk : m.Knows made) {body out : List Stmt}
    (hl : Stmt.LowerAllTo made ts body out) : BodySimulates m plain made ts body out :=
  hl.induction (fun _ => .nil) .append (fun _ => .function)
    (fun _ => .stuck (fun _ hd => hd) (by rw [Stmt.exec]) (by rw [Stmt.exec])) (.for_ hk)
    (.while_ hk) (.block hk) (.break_ hk) (.continue_ hk) (.kept hk) (.simple hk)

end LoopEscape
