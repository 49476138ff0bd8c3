import LoopEscape.Proofs.Crossing.Simulation
import LoopEscape.Proofs.Lower.Visible

/-!
# Lowered code follows its source

What a statement is lowered to does what the statement does, whatever is around (`runAll_simulates`).  A
plain jump is the near jump it stands for, a raised exception follows a far jump, and the `try` that is
put around the body of a target catches what arrives there and lets all else pass.
-/

namespace LoopEscape.Crossing

open Generate Lower Step

variable {loc : Loc} {label valueTarget : Option String} {kind : JumpKind}

variable {σ ν ε : Type}

def targetOf (t : JumpTarget) : Target := ⟨t.label, t.isLoop, t.valueTarget⟩

/-- Surroundings of a statement of the source, and of what it is lowered to. -/
structure Matches (made : List String) (ts : List JumpTarget) (around around' : Around ν ε) : Prop where
  targets : around.targets = ts.map targetOf
  handling : Option.Rel (Follows ts) around.handling around'.handling
  backed : Backed IsHolderName made ts

namespace Matches

variable {made : List String} {ts : List JumpTarget} {around around' : Around ν ε}

theorem empty : Matches made [] ({} : Around ν ε) {} where
  targets := rfl
  handling := .none
  backed := fun _ h => (nomatch h)

theorem inside (h : Matches made ts around around') {t : JumpTarget} {isLoop : Bool}
    (ho : t.Opens loc label isLoop valueTarget) (hs : t.Stands made ts)
    (hv : ∀ x ∈ valueTarget.toList, ¬ IsHolderName x) :
    Matches made (t :: ts) (around.inside ⟨label, isLoop, valueTarget⟩) around' where
  targets := by
    rw [Around.inside, h.targets, List.map_cons, targetOf, ho.label, ho.isLoop, ho.valueTarget]
  handling := by
    have hh := h.handling
    show Option.Rel (Follows (t :: ts)) (around.handling.map Exit.deeper) around'.handling
    generalize around.handling = x at hh ⊢
    generalize around'.handling = x' at hh ⊢
    cases hh with
    | none => exact .none
    | some hx => exact .some (hx.deeper t)
  backed := h.backed.cons ho hs hv

theorem inside_lowered (h : Matches made ts around around') (u : Target) :
    Matches made ts around (around'.inside u) where
  targets := h.targets
  handling := by
    have hh := h.handling
    show Option.Rel (Follows ts) around.handling (around'.handling.map Exit.deeper)
    generalize around.handling = x at hh ⊢
    generalize around'.handling = x' at hh ⊢
    cases hh with
    | none => exact .none
    | some hx => exact .some (hx.deeper_eq.symm ▸ hx)
  backed := h.backed

theorem handle (h : Matches made ts around around') {x x' : Exit ν ε} (hx : Follows ts x x') :
    Matches made ts { around with handling := some x } { around' with handling := some x' } :=
  ⟨h.targets, .some hx, h.backed⟩

theorem value?_eq (h : Matches made ts around around') :
    around'.handling.bind Exit.value? = around.handling.bind Exit.value? := by
  have hh := h.handling
  generalize around.handling = x at hh ⊢
  generalize around'.handling = x' at hh ⊢
  cases hh with
  | none => rfl
  | some hx => exact hx.value?_eq

theorem innermost?_eq (h : Matches made ts around around') :
    around.innermost? = targetIndex ts none := by
  rw [Around.innermost?, h.targets, List.findIdx?_map]
  rfl

theorem labelled?_eq (h : Matches made ts around around') (l : String) :
    around.labelled? l = targetIndex ts (some l) := by
  rw [Around.labelled?, h.targets, List.findIdx?_map]
  rfl

theorem valueTarget?_eq (h : Matches made ts around around') {i : Nat} {t : JumpTarget}
    (ht : ts[i]? = some t) : around.valueTarget? i = t.valueTarget := by
  rw [Around.valueTarget?, h.targets, List.getElem?_map, ht]
  rfl

end Matches

namespace Machine

section

variable {m m' : Machine σ ν ε} {made : List String} (hm : Pairs made m m')
  {ts : List JumpTarget} {around around' : Around ν ε} (ha : Matches made ts around around')

include hm

/-! ### Expressions and assignments -/

theorem not_holder {x : String} (h : ¬ IsHolderName x) : x ∉ m'.holders := by
  rw [hm.known]
  exact fun hx => h (hm.names x hx)

theorem holderClass?_spared {e : Expr} (h : e.tree.Spares IsHolderName) :
    m'.holderClass? e = none := by
  unfold holderClass?
  split
  · simp only [ExprTree.spares_member, ExprTree.spares_name] at h
    exact if_neg (not_holder hm h)
  · rfl

theorem holderClass?_holder {h : String} (hh : h ∈ made) (s : Span) (kind : JumpKind) :
    m'.holderClass? (attr s (load s h) kind.name) = some (h, kind) := by
  have hk : JumpKind.continue_.name ≠ JumpKind.break_.name := by decide
  cases kind <;> simp [holderClass?, attr, load, hm.known, hh, hk]

include ha

theorem value_simulates (e : Expr) {f f' : ν → Step σ ν ε} (h : ∀ v, Simulates ts (f v) (f' v)) :
    Simulates ts (m.value around e f) (m'.value around' e f') := by
  unfold value
  rw [ha.value?_eq]
  split
  · split
    · exact h _
    · exact ask_simulates hm h
  · exact ask_simulates hm h

theorem valueOption_simulates (e : Option Expr) {f f' : ν → Step σ ν ε}
    (h : ∀ v, Simulates ts (f v) (f' v)) :
    Simulates ts (m.valueOption around e f) (m'.valueOption around' e f') := by
  cases e with
  | none =>
    rw [valueOption, valueOption, hm.noValue]
    exact h _
  | some e => exact value_simulates hm ha e h

theorem assign_simulates {target : Expr} (ht : target.tree.Spares IsHolderName) (value : Expr) :
    Simulates ts (m.assign around target value) (m'.assign around' target value) := by
  have hassign : Simulates ts
      (m.value around value fun v => m.ask (.assign target v) fun _ => Step.done)
      (m'.value around' value fun v => m'.ask (.assign target v) fun _ => Step.done) :=
    value_simulates hm ha value fun v => ask_simulates hm fun _ => .done
  unfold assign
  split
  · rw [ExprTree.spares_name] at ht
    rw [hm.unknown, if_neg (by simp), if_neg (not_holder hm ht)]
    exact hassign
  · exact hassign

theorem clear_simulates {name : Option String} (hn : ∀ x ∈ name.toList, ¬ IsHolderName x)
    (loc : Loc) :
    Simulates ts (m.clear around loc name) (m'.runAll around'
      (name.toList.map fun target => Generate.assign loc target (nothing loc.span))) := by
  cases name with
  | none =>
    rw [Option.toList_none, List.map_nil, runAll]
    exact .done
  | some x =>
    have hx : (store loc.span x).tree.Spares IsHolderName := by
      simpa only [store, ExprTree.spares_name] using hn x (by simp)
    rw [Option.toList_some, List.map_singleton, runAll_singleton, Generate.assign, run]
    exact assign_simulates hm ha hx _

/-! ### Jumps -/

omit hm ha in
theorem run_plain (kind : JumpKind) (loc : Loc) :
    m'.runAll around' [kind.plain loc] = exit (.near kind) := by
  cases kind <;> rw [runAll_singleton, JumpKind.plain, run] <;> rfl

omit hm ha in
theorem run_assign {x : String} (hx : x ∉ m'.holders) (loc : Loc) (e : Expr) :
    m'.run around' (Generate.assign loc x e) =
      m'.value around' e fun v => m'.ask (.assign (store loc.span x) v) fun _ => Step.done := by
  rw [Generate.assign, run]
  exact if_neg hx

omit ha in
theorem run_raiseJump {h : String} (hh : h ∈ made) (loc : Loc) (kind : JumpKind)
    (value : Option Expr) :
    m'.run around' (raiseJump loc h kind value) =
      m'.valueOption around' value fun v => exit (.thrown h kind v) := by
  have hclass := holderClass?_holder hm hh loc.span kind
  rw [raiseJump, run]
  unfold raise call
  cases value <;> simp only [Option.toList, hclass, valueOption]

theorem nearJump_simulates {t : JumpTarget} (ht : ∀ x ∈ t.valueTarget.toList, ¬ IsHolderName x)
    (loc : Loc) (kind : JumpKind) (value : Option Expr) :
    Simulates ts (m.nearJump around loc kind t.valueTarget value)
      (m'.runAll around' (plainJump loc kind t value)) := by
  have hexit : Simulates ts (Step.exit (.near kind) : Step σ ν ε) (Step.exit (.near kind)) :=
    .exit (.plain trivial)
  unfold plainJump nearJump
  cases value with
  | none =>
    rw [List.nil_append, run_plain]
    exact hexit
  | some e =>
    cases hv : t.valueTarget with
    | none =>
      simp only
      rw [runAll_append, run_plain, runAll_singleton, run, value_andThen]
      exact value_simulates hm ha e fun v => hexit
    | some x =>
      have hx : x ∉ m'.holders := not_holder hm (ht x (by simp [hv]))
      simp only
      rw [runAll_append, run_plain, runAll_singleton, run_assign hx, value_andThen]
      refine value_simulates hm ha e fun v => ?_
      exact (ask_simulates hm fun _ => .done).andThen hexit

theorem jump_simulates {value : Option Expr} {out : List Stmt} (h : LowersJump ts loc kind label value out) :
    Simulates ts (m.jump around loc kind label value) (m'.runAll around' out) := by
  obtain ⟨i, t, hi, ht, -, hout⟩ := h
  obtain ⟨hmade, hvalue⟩ := ha.backed t (List.mem_of_getElem? ht)
  have hvt := ha.valueTarget?_eq ht
  unfold jump
  cases label with
  | none =>
    rw [if_pos (by rw [isInnermost]; exact beq_iff_eq.2 hi)] at hout
    simp only [ha.innermost?_eq, hi, Option.bind_some, hvt]
    rw [hout]
    exact nearJump_simulates hm ha hvalue loc kind value
  | some l =>
    simp only [ha.labelled?_eq, hi]
    split at hout
    · next hin =>
      have hin : targetIndex ts none = some i := eq_of_beq hin
      rw [if_pos (by rw [ha.innermost?_eq, hin]), hvt, hout]
      exact nearJump_simulates hm ha hvalue loc kind value
    · next hin =>
      obtain ⟨hr, h, hh, rfl⟩ := hout
      have hin : targetIndex ts none ≠ some i := fun heq => hin (beq_iff_eq.2 heq)
      rw [if_neg (by rw [ha.innermost?_eq]; exact hin), runAll_singleton,
        run_raiseJump hm (hmade h hh)]
      exact valueOption_simulates hm ha value fun v => .exit (.jump ht hr hh)

/-! ### Catching jumps -/

omit ha in
theorem bind_eq : m'.bind = m.bind := by
  funext loc name v
  cases name with
  | none => rfl
  | some x =>
    funext s
    simp only [bind, ask, hm.host, hm.handled]

omit hm ha in
theorem bind_cases (m : Machine σ ν ε) (loc : Loc) (name : Option String) (v : ν) (s : σ) :
    (∃ s', m.bind loc name v s = (.normal, s')) ∨ ∃ e s', m.bind loc name v s = (.raised e, s') := by
  cases name with
  | none => exact .inl ⟨s, rfl⟩
  | some x =>
    simp only [bind, ask]
    rcases m.host m.handled (.assign (store loc.span x) v) s with ⟨s', e | _⟩
    · exact .inr ⟨e, s', rfl⟩
    · exact .inl ⟨s', rfl⟩

omit hm ha in
theorem value_jump {h : String} {v : ν} (s : Span) (f : ν → Step σ ν ε) :
    m'.value { around' with handling := some (.thrown h kind v) }
      (attr s (load s jumpVariable) "value") f = f v := by
  simp only [value, attr, load]
  rfl

def receives (m : Machine σ ν ε) (t : JumpTarget) (kind : JumpKind) (v : ν) : Step σ ν ε :=
  match kind with
  | .break_ => m.bind t.loc t.valueTarget v
  | .continue_ => Step.done

variable {t : JumpTarget} {h : String} (hh : t.holder = some h)

omit ha

include hh

theorem runClauses_own (hmade : h ∈ made) (hv : ∀ x ∈ t.valueTarget.toList, ¬ IsHolderName x)
    (kind : JumpKind) (body : List Stmt) (v : ν) (seen : Seen ν ε) (rest : List Handler) :
    m'.runClauses around' (.thrown h kind v) seen (handler t kind body :: rest) =
      (m'.receives t kind v).andThen
        (m'.runAll { around' with handling := some (.thrown h kind v) } body) := by
  have hclass := holderClass?_holder hm hmade t.loc.span kind
  have hhandling : m'.handling (some (attr t.loc.span (load t.loc.span h) kind.name)) seen = m' := by
    rw [handling, Option.bind_some, hclass]
    rfl
  have hbind : ∀ x, t.valueTarget = some x →
      m'.run { around' with handling := some (.thrown h kind v) }
        (Generate.assign t.loc x (attr t.loc.span (load t.loc.span jumpVariable) "value")) =
        m'.bind t.loc (some x) v := by
    intro x hx
    rw [run_assign (not_holder hm (hv x (by simp [hx]))), value_jump]
    rfl
  cases kind with
  | continue_ =>
    simp only [handler, hh, Option.getD_some, runClauses, takes, hclass, hhandling, named, decide_true,
      receives, done_andThen]
  | break_ =>
    cases hvt : t.valueTarget with
    | none =>
      simp only [handler, hh, hvt, Option.getD_some, runClauses, takes, hclass, hhandling, named,
        decide_true, receives, bind, done_andThen]
    | some x =>
      simp only [handler, hh, hvt, Option.getD_some, runClauses, takes, hclass, hhandling, named,
        decide_true, if_true, runAll, hbind x hvt, receives]

theorem runClauses_other (hmade : h ∈ made) {x : Exit ν ε} (hx : ∀ v, x ≠ .thrown h kind v) (body : List Stmt)
    (seen : Seen ν ε) (rest : List Handler) :
    m'.runClauses around' x seen (handler t kind body :: rest) =
      m'.runClauses around' x seen rest := by
  have hclass := holderClass?_holder hm hmade t.loc.span kind
  have htakes : ∀ next : Bool → Step σ ν ε,
      m'.takes (some (attr t.loc.span (load t.loc.span h) kind.name)) x seen next = next false := by
    intro next
    simp only [takes, hclass]
    cases x with
    | thrown h' kind' v =>
      have hne : (h, kind) ≠ (h', kind') := by
        rintro heq
        cases heq
        exact hx v rfl
      simp only [decide_eq_false hne]
    | _ => rfl
  unfold handler
  simp only [hh, Option.getD_some]
  split <;> rw [runClauses, htakes]

omit hh

omit hm in
theorem runAll_try (loc : Loc) (body : List Stmt) (handlers : List Handler) (s : σ) :
    m'.runAll around' [.try_ loc false body handlers [] []] s =
      m'.afterBody (fun x seen => m'.runClauses around' x seen handlers) Step.done
        (m'.runAll around' body s) := by
  rw [runAll_singleton, run_try, runAll]
  rfl

def Foreign (t : JumpTarget) (x : Exit ν ε) : Prop :=
  ∀ kind h v, t.raises kind = true → t.holder = some h → x ≠ .thrown h kind v

theorem loopHandlers_other (hs : t.Stands made ts) {x : Exit ν ε} (hx : Foreign t x)
    (seen : Seen ν ε) : m'.runClauses around' x seen (loopHandlers t) = exit x := by
  have hskip : ∀ kind body rest, t.raises kind = true →
      m'.runClauses around' x seen (handler t kind body :: rest) =
        m'.runClauses around' x seen rest := by
    intro kind body rest hr
    obtain ⟨⟨h, hh⟩, -⟩ := hs.notes kind hr
    exact runClauses_other hm hh (hs.made h hh) (fun v => hx kind h v hr hh) body seen rest
  have hnil : m'.runClauses around' x seen [] = exit x := by rw [runClauses]
  unfold loopHandlers
  cases hc : t.raisesContinue <;> cases hb : t.raisesBreak
  · exact hnil
  · exact (hskip .break_ _ [] hb).trans hnil
  · exact (hskip .continue_ _ [] hc).trans hnil
  · exact ((hskip .continue_ _ _ hc).trans (hskip .break_ _ [] hb)).trans hnil

theorem loopHandlers_own (hs : t.Stands made ts) (hv : ∀ x ∈ t.valueTarget.toList, ¬ IsHolderName x)
    (hr : t.raises kind = true) (hh : t.holder = some h) (v : ν) (seen : Seen ν ε) :
    m'.runClauses around' (.thrown h kind v) seen (loopHandlers t) =
      (m'.receives t kind v).andThen (exit (.near kind)) := by
  have hmade := hs.made h hh
  have hown : ∀ rest, m'.runClauses around' (.thrown h kind v) seen
      (handler t kind [kind.plain t.loc] :: rest) =
        (m'.receives t kind v).andThen (exit (.near kind)) := by
    intro rest
    rw [runClauses_own hm hh hmade hv, run_plain]
  unfold loopHandlers
  cases kind with
  | continue_ =>
    rw [if_pos (c := t.raisesContinue = true) hr]
    exact hown _
  | break_ =>
    rw [if_pos (c := t.raisesBreak = true) hr]
    split
    · rw [List.singleton_append, runClauses_other hm hh hmade (by simp)]
      exact hown []
    · exact hown []

omit hm in
theorem afterBody_nil (r : Exit ν ε × σ) :
    m'.afterBody (fun x seen => m'.runClauses around' x seen []) Step.done r = r := by
  obtain ⟨x, s⟩ := r
  unfold afterBody
  cases x with
  | normal => rfl
  | _ =>
    simp only [runClauses]
    split <;> rfl

omit hm in
theorem runAll_catchJumps (body : List Stmt) (s : σ) :
    m'.runAll around' (catchJumps t body) s =
      m'.afterBody (fun x seen => m'.runClauses around' x seen (loopHandlers t)) Step.done
        (m'.runAll around' body s) := by
  unfold catchJumps
  simp only
  split
  · next h => rw [List.isEmpty_iff.1 h, afterBody_nil]
  · exact runAll_try _ _ _ s

theorem afterBody_of_seen {x : Exit ν ε} {seen : Seen ν ε} (hx : x.seen? = some seen)
    (handle : Exit ν ε → Seen ν ε → Step σ ν ε) (orElse : Step σ ν ε) (s : σ) :
    m'.afterBody handle orElse (x, s) = handle x seen s := by
  have hshown : m'.shown? x = some seen := by
    simpa only [shown?, hm.shown.2, Bool.false_and, Bool.false_eq_true, if_false] using hx
  unfold afterBody
  cases x with
  | normal => cases hx
  | _ => simp only [hshown]

omit hm in
theorem afterBody_of_unseen {x : Exit ν ε} (hx : x.seen? = none) (hn : x ≠ .normal)
    (handle : Exit ν ε → Seen ν ε → Step σ ν ε) (orElse : Step σ ν ε) (s : σ) :
    m'.afterBody handle orElse (x, s) = (x, s) := by
  have hshown : m'.shown? x = none := by
    unfold shown?
    split
    · rfl
    · exact hx
  unfold afterBody
  cases x with
  | normal => exact absurd rfl hn
  | _ => simp only [hshown]

theorem caught_other {handlers : List Handler} {x : Exit ν ε}
    (hx : ∀ seen, m'.runClauses around' x seen handlers = exit x) (s : σ) :
    m'.afterBody (fun x seen => m'.runClauses around' x seen handlers) Step.done (x, s) =
      (x, s) := by
  cases hseen : x.seen? with
  | some seen => rw [afterBody_of_seen hm hseen, hx]; rfl
  | none =>
    by_cases hn : x = .normal
    · rw [hn]; rfl
    · exact afterBody_of_unseen hseen hn _ _ s

omit hm in
theorem foreign_of_plain {x : Exit ν ε} (hx : x.Plain) : Foreign t x := by
  rintro kind h v - - rfl
  exact hx

omit hm in
theorem foreign_of_outer (hs : t.Stands made ts) {i : Nat} {u : JumpTarget} (hu : ts[i]? = some u)
    (hh : u.holder = some h) (kind : JumpKind) (v : ν) :
    Foreign t (.thrown h kind v : Exit ν ε) := by
  rintro kind' h' v' - hh' heq
  cases heq
  exact hs.apart u (List.mem_of_getElem? hu) h hh' hh

theorem catchJumps_pass (ho : t.Opens loc label true valueTarget) (hs : t.Stands made ts)
    (hv : ∀ x ∈ valueTarget.toList, ¬ IsHolderName x) {body : Step σ ν ε} {body' : List Stmt}
    (hb : Simulates (t :: ts) body (m'.runAll around' body')) :
    PassSimulates ts (m.bind loc valueTarget) (m'.bind loc none) body
      (m'.runAll around' (catchJumps t body')) := by
  intro again again' hagain s
  have hbs := hb s
  rw [runAll_catchJumps]
  generalize body s = r at hbs ⊢
  generalize m'.runAll around' body' s = r' at hbs ⊢
  obtain @⟨x, x', hx, s⟩ := hbs
  cases hx with
  | plain hx =>
    rw [caught_other hm (loopHandlers_other hm hs (foreign_of_plain hx))]
    cases x with
    | normal => exact hagain s
    | near kind =>
      cases kind with
      | break_ => exact .plain (x := .normal) trivial s
      | continue_ => exact hagain s
    | far => exact hx.elim
    | thrown => exact hx.elim
    | _ => exact .plain hx s
  | @jump i u h kind v hu hr hh =>
    cases i with
    | succ i =>
      have hu : ts[i]? = some u := by simpa using hu
      rw [caught_other hm (loopHandlers_other hm hs (foreign_of_outer hs hu hh kind v))]
      exact .intro (.jump hu hr hh) s
    | zero =>
      obtain rfl : t = u := by simpa using hu
      rw [afterBody_of_seen hm rfl,
        loopHandlers_own hm hs (by rwa [ho.valueTarget]) hr hh]
      cases kind with
      | continue_ => exact hagain s
      | break_ =>
        rw [receives, ho.loc, ho.valueTarget, bind_eq hm]
        unfold Step.andThen
        show Leads ts (m.bind loc valueTarget v s) _
        rcases bind_cases m loc valueTarget v s with ⟨s', h⟩ | ⟨e, s', h⟩
        · rw [h]
          exact .plain (x := .normal) trivial s'
        · rw [h]
          exact .plain (x := .raised e) trivial s'

def blockHandlers (t : JumpTarget) : List Handler :=
  if t.raisesBreak then [handler t .break_ [.pass t.loc]] else []

omit hm in
theorem runAll_blockBody (body : List Stmt) (s : σ) :
    m'.runAll around' (if t.raisesBreak then
        [.try_ t.loc false body [handler t .break_ [.pass t.loc]] [] []] else body) s =
      m'.afterBody (fun x seen => m'.runClauses around' x seen (blockHandlers t)) Step.done
        (m'.runAll around' body s) := by
  unfold blockHandlers
  split
  · exact runAll_try _ _ _ s
  · rw [afterBody_nil]

theorem blockHandlers_other (hs : t.Stands made ts) {x : Exit ν ε} (hx : Foreign t x)
    (seen : Seen ν ε) : m'.runClauses around' x seen (blockHandlers t) = exit x := by
  unfold blockHandlers
  split
  · next hr =>
    obtain ⟨⟨h, hh⟩, -⟩ := hs.notes .break_ hr
    rw [runClauses_other hm hh (hs.made h hh) fun v => hx .break_ h v hr hh, runClauses]
  · rw [runClauses]

theorem blockBody_simulates (ho : t.Opens loc label false valueTarget) (hs : t.Stands made ts)
    (hv : ∀ x ∈ valueTarget.toList, ¬ IsHolderName x) {body : Step σ ν ε} {body' : List Stmt}
    (hb : Simulates (t :: ts) body (m'.runAll around' body')) :
    Simulates ts (fun s => afterBlock (m.bind loc valueTarget) (body s))
      (m'.runAll around' (if t.raisesBreak then
        [.try_ t.loc false body' [handler t .break_ [.pass t.loc]] [] []] else body')) := by
  intro s
  show Leads ts (afterBlock (m.bind loc valueTarget) (body s)) _
  have hbs := hb s
  rw [runAll_blockBody]
  generalize body s = r at hbs ⊢
  generalize m'.runAll around' body' s = r' at hbs ⊢
  obtain @⟨x, x', hx, s⟩ := hbs
  cases hx with
  | plain hx =>
    rw [caught_other hm (blockHandlers_other hm hs (foreign_of_plain hx))]
    cases x with
    | far => exact hx.elim
    | thrown => exact hx.elim
    | _ => exact .plain hx s
  | @jump i u h kind v hu hr hh =>
    cases i with
    | succ i =>
      have hu : ts[i]? = some u := by simpa using hu
      rw [caught_other hm (blockHandlers_other hm hs (foreign_of_outer hs hu hh kind v))]
      exact .intro (.jump hu hr hh) s
    | zero =>
      obtain rfl : t = u := by simpa using hu
      cases kind with
      | continue_ =>
        -- no jump continues a block
        have := (hs.notes .continue_ hr).2 rfl
        rw [ho.isLoop] at this
        cases this
      | break_ =>
        rw [afterBody_of_seen hm rfl, blockHandlers, if_pos (c := t.raisesBreak = true) hr,
          runClauses_own hm hh (hs.made h hh) (by rwa [ho.valueTarget]), runAll_singleton, run,
          andThen_done, receives, ho.loc, ho.valueTarget]
        exact bind_simulates hm loc valueTarget v s

/-! ### Clauses of the user's -/

theorem takes_simulates {type : Option Expr} (ht : ∀ u ∈ Expr.optionTrees type, u.Spares IsHolderName)
    {x x' : Exit ν ε} (seen : Seen ν ε) {f f' : Bool → Step σ ν ε}
    (h : ∀ b, Simulates ts (f b) (f' b)) :
    Simulates ts (m.takes type x seen f) (m'.takes type x' seen f') := by
  unfold takes
  cases type with
  | none => exact h true
  | some e =>
    have he : e.tree.Spares IsHolderName := ht e.tree (by simp [Expr.optionTrees])
    simp only [holderClass?_none hm.unknown, holderClass?_spared hm he]
    exact ask_simulates hm h

theorem Pairs.handling {type : Option Expr}
    (ht : ∀ u ∈ Expr.optionTrees type, u.Spares IsHolderName) (seen : Seen ν ε) :
    Pairs made (m.handling type seen) (m'.handling type seen) := by
  unfold Machine.handling
  cases type with
  | none => exact hm.during seen
  | some e =>
    have he : e.tree.Spares IsHolderName := ht e.tree (by simp [Expr.optionTrees])
    rw [Option.bind_some, Option.bind_some, holderClass?_none hm.unknown, holderClass?_spared hm he]
    exact hm.during seen

theorem lastPart_simulates (ha : Matches made ts around around')
    {final final' : Machine σ ν ε → Around ν ε → Step σ ν ε}
    (hf : ∀ m m' around around', Pairs made m m' → Matches made ts around around' →
      Simulates ts (final m around) (final' m' around')) {x x' : Exit ν ε} (hx : Follows ts x x') :
    Simulates ts (m.lastPart around final x) (m'.lastPart around' final' x') := by
  unfold lastPart
  rw [shown?_eq hm hx]
  split
  · exact hf _ _ _ _ hm ha
  · exact hf _ _ _ _ (hm.during _) (ha.handle hx)

theorem raise_simulates (ha : Matches made ts around around') {exc cause : Option Expr}
    (he : ∀ u ∈ Expr.optionTrees exc, u.Spares IsHolderName) (loc : Loc) :
    Simulates ts (m.raise around loc exc cause) (m'.raise around' loc exc cause) := by
  have hperform : Simulates ts (m.perform (.raise loc exc cause)) (m'.perform (.raise loc exc cause)) :=
    perform_simulates hm (.raise loc exc cause)
  unfold raise
  split
  · have hh := ha.handling
    generalize around.handling = x at hh ⊢
    generalize around'.handling = x' at hh ⊢
    cases hh with
    | none => exact hperform
    | some hx => exact .exit hx
  · next s func args =>
    have hcall : (Expr.call s func args []).tree.Spares IsHolderName :=
      he _ (by simp [Expr.optionTrees])
    rw [ExprTree.spares_call] at hcall
    simp only [holderClass?_none hm.unknown, holderClass?_spared hm hcall.1]
    exact hperform
  · exact hperform

/-! ### Statements -/

theorem plain_simulates (ha : Matches made ts around around') {s : Stmt} (hp : s.isPlain = true)
    (h : s.Spares IsHolderName) : Simulates ts (m.run around s) (m'.run around' s) := by
  have htrees := (Stmt.spares_iff.1 h).2
  cases s with
  | raise loc exc cause =>
    rw [run, run]
    exact raise_simulates hm ha (fun u hu => htrees u (List.mem_append_left _ hu)) loc
  | assign loc targets value =>
    obtain _ | ⟨target, _ | ⟨_, _⟩⟩ := targets
    · simp only [run]
      exact perform_simulates hm _
    · rw [run, run]
      exact assign_simulates hm ha (htrees _ (by simp [Stmt.trees, Expr.trees])) value
    · simp only [run]
      exact perform_simulates hm _
  | return_ =>
    rw [run, run]
    exact valueOption_simulates hm ha _ fun v => .exit (.plain trivial)
  | expr =>
    rw [run, run]
    exact value_simulates hm ha _ fun v => .done
  | pass | supportImport =>
    rw [run, run]
    exact .done
  | delete | augAssign | annAssign | assert_ | import_ | importFrom | global | nonlocal =>
    rw [run, run]
    exact perform_simulates hm _
  | _ => cases hp

end

/-- Statements of the source and of lowered code that do the same, with all such machines and
surroundings. -/
def SuiteSimulates (σ ν ε : Type) (made : List String) (ts : List JumpTarget)
    (body out : List Stmt) : Prop :=
  Stmt.EveryAll (Stmt.Spares IsHolderName) body →
    ∀ (m m' : Machine σ ν ε) (around around' : Around ν ε), Pairs made m m' →
      Matches made ts around around' → Simulates ts (m.runAll around body) (m'.runAll around' out)

namespace SuiteSimulates

variable {made : List String} {ts : List JumpTarget} {t : JumpTarget}
  {body body' orElse orElse' final final' : List Stmt}

theorem nil : SuiteSimulates σ ν ε made ts [] [] := by
  intro _ m m' around around' _ _
  rw [runAll, runAll]
  exact .done

theorem append {s : Stmt} {out : List Stmt} (hs : SuiteSimulates σ ν ε made ts [s] out)
    (hr : SuiteSimulates σ ν ε made ts body body') :
    SuiteSimulates σ ν ε made ts (s :: body) (out ++ body') := by
  intro h m m' around around' hm ha
  rw [runAll, runAll_append, ← runAll_singleton]
  exact (hs ⟨h.1, trivial⟩ m m' around around' hm ha).andThen (hr h.2 m m' around around' hm ha)

theorem single {s s' : Stmt} (h : s.Every (Stmt.Spares IsHolderName) →
    ∀ (m m' : Machine σ ν ε) (around around' : Around ν ε), Pairs made m m' →
      Matches made ts around around' → Simulates ts (m.run around s) (m'.run around' s')) :
    SuiteSimulates σ ν ε made ts [s] [s'] := by
  intro hs m m' around around' hm ha
  rw [runAll_singleton, runAll_singleton]
  exact h hs.1 m m' around around' hm ha

theorem plain {s : Stmt} (hs : s.isPlain = true) : SuiteSimulates σ ν ε made ts [s] [s] :=
  single fun h _ _ _ _ hm ha => plain_simulates hm ha hs (Stmt.every_iff.1 h).1

theorem function {isAsync : Bool} {name : String} {params : Params} {decorators : List Expr}
    {returns : Option Expr} :
    SuiteSimulates σ ν ε made ts [.function loc isAsync name params body decorators returns]
      [.function loc isAsync name params body' decorators returns] := by
  refine single fun _ m m' around around' hm _ => ?_
  rw [run, run]
  exact perform_simulates hm _

theorem class_ {name : String} {bases : List Expr} {keywords : List Keyword} {decorators : List Expr}
    (hb : SuiteSimulates σ ν ε made [] body body') :
    SuiteSimulates σ ν ε made ts [.class_ loc name bases keywords body decorators]
      [.class_ loc name bases keywords body' decorators] := by
  refine single fun h m m' around around' hm _ => ?_
  rw [run, run]
  refine ask_simulates hm fun _ => ?_
  exact (hb h.2 m m' {} {} hm .empty).of_nil.andThen (ask_simulates hm fun _ => .done)

/-! Loops, blocks and jumps. -/

theorem for_ {isAsync : Bool} {mark : LoopMark} {target iter : Expr}
    (ho : t.Opens loc mark.label true mark.valueTarget) (hs : t.Stands made ts)
    (hb : SuiteSimulates σ ν ε made (t :: ts) body body')
    (he : SuiteSimulates σ ν ε made ts orElse orElse') :
    SuiteSimulates σ ν ε made ts [.for_ loc isAsync mark target iter body orElse]
      [.for_ loc isAsync {} target iter (catchJumps t body') orElse'] := by
  refine single fun h m m' around around' hm ha => ?_
  have hv : ∀ x ∈ mark.valueTarget.toList, ¬ IsHolderName x := (Stmt.spares_iff.1 h.1).1
  rw [run, run, hm.bound]
  refine ask_simulates hm fun it => loop_simulates (fun f f' hf => ?_) ?_ ?_ _
  · exact advance_simulates hm isAsync it target hf
  · exact catchJumps_pass hm ho hs hv (hb h.2.1 m m' _ _ hm ((ha.inside ho hs hv).inside_lowered _))
  · exact he h.2.2 m m' around around' hm ha

theorem while_ {mark : LoopMark} {test : Expr}
    (ho : t.Opens loc mark.label true mark.valueTarget) (hs : t.Stands made ts)
    (hb : SuiteSimulates σ ν ε made (t :: ts) body body')
    (he : SuiteSimulates σ ν ε made ts orElse orElse') :
    SuiteSimulates σ ν ε made ts [.while_ loc mark test body orElse]
      [.while_ loc {} test (catchJumps t body') orElse'] := by
  refine single fun h m m' around around' hm ha => ?_
  have hv : ∀ x ∈ mark.valueTarget.toList, ¬ IsHolderName x := (Stmt.spares_iff.1 h.1).1
  rw [run, run, hm.bound]
  refine loop_simulates (fun f f' hf => ask_simulates hm hf) ?_ ?_ _
  · exact catchJumps_pass hm ho hs hv (hb h.2.1 m m' _ _ hm ((ha.inside ho hs hv).inside_lowered _))
  · exact he h.2.2 m m' around around' hm ha

theorem block {label : String} {target : Option String} (ho : t.Opens loc (some label) false target)
    (hs : t.Stands made ts) (hb : SuiteSimulates σ ν ε made (t :: ts) body body') :
    SuiteSimulates σ ν ε made ts [.block loc label target body] (blockStmts t body') := by
  intro h m m' around around' hm ha
  have hv : ∀ x ∈ target.toList, ¬ IsHolderName x := (Stmt.spares_iff.1 h.1.1).1
  rw [blockStmts, runAll_append, runAll_singleton, run]
  refine Simulates.andThen ?_ (blockBody_simulates hm ho hs hv ?_)
  · rw [ho.valueTarget, ho.loc]
    exact clear_simulates hm ha hv loc
  · exact hb h.1.2 m m' _ _ hm (ha.inside ho hs hv)

theorem jump {s : Stmt} {value : Option Expr} {out : List Stmt}
    (hs : ∀ (m : Machine σ ν ε) (around : Around ν ε),
      m.run around s = m.jump around loc kind label value)
    (hl : LowersJump ts loc kind label value out) : SuiteSimulates σ ν ε made ts [s] out := by
  intro _ m m' around around' hm ha
  rw [runAll_singleton, hs]
  exact jump_simulates hm ha hl

/-! Statements that keep their heads. -/

theorem if_ {test : Expr} (hb : SuiteSimulates σ ν ε made ts body body')
    (he : SuiteSimulates σ ν ε made ts orElse orElse') :
    SuiteSimulates σ ν ε made ts [.if_ loc test body orElse] [.if_ loc test body' orElse'] := by
  refine single fun h m m' around around' hm ha => ?_
  rw [run, run]
  refine ask_simulates hm fun b => ?_
  cases b with
  | true => exact hb h.2.1 m m' around around' hm ha
  | false => exact he h.2.2 m m' around around' hm ha

theorem with_ {isAsync : Bool} {items : List WithItem} (hb : SuiteSimulates σ ν ε made ts body body') :
    SuiteSimulates σ ν ε made ts [.with_ loc isAsync items body] [.with_ loc isAsync items body'] := by
  refine single fun h m m' around around' hm ha => ?_
  rw [run, run]
  exact within_simulates hm isAsync (hb h.2 m m' around around' hm ha) items

section

variable {m m' : Machine σ ν ε} {around around' : Around ν ε} (hm : Pairs made m m')
  (ha : Matches made ts around around') {bs : List (List Stmt)}

include hm ha

theorem cases {cases : List MatchCase}
    (hbs : List.Forall₂ (SuiteSimulates σ ν ε made ts) (cases.map MatchCase.body) bs)
    (h : MatchCase.EveryAll (Stmt.Spares IsHolderName) cases) (v : ν) :
    Simulates ts (m.runCases around v cases)
      (m'.runCases around' v (cases.zipWith (fun c b => c.mapBody fun _ => b) bs)) := by
  induction cases generalizing bs with
  | nil =>
    rw [List.zipWith_nil_left, runCases, runCases]
    exact .done
  | cons c rest ih =>
    obtain ⟨pattern, guard, body⟩ := c
    obtain ⟨body', bs, hb, hrest, rfl⟩ := List.forall₂_cons_left_iff.1 hbs
    rw [List.zipWith_cons_cons, MatchCase.mapBody, runCases, runCases]
    refine ask_simulates hm fun fits => ?_
    cases fits with
    | false => exact ih hrest h.2
    | true => exact guarded_simulates hm guard (hb h.1 m m' around around' hm ha) (ih hrest h.2)

variable {handlers : List Handler}
  (hbs : List.Forall₂ (SuiteSimulates σ ν ε made ts) (handlers.map Handler.body) bs)
  (ht : ∀ u ∈ handlers.flatMap Handler.trees, u.Spares IsHolderName)
  (h : Handler.EveryAll (Stmt.Spares IsHolderName) handlers) {x x' : Exit ν ε} (hx : Follows ts x x')

include hbs ht h hx

theorem clauses (seen : Seen ν ε) :
    Simulates ts (m.runClauses around x seen handlers) (m'.runClauses around' x' seen
      (handlers.zipWith (fun h b => h.mapBody fun _ _ => b) bs)) := by
  induction handlers generalizing bs with
  | nil =>
    rw [List.zipWith_nil_left, runClauses, runClauses]
    exact .exit hx
  | cons c rest ih =>
    obtain ⟨loc, type, name, body⟩ := c
    obtain ⟨body', bs, hb, hrest, rfl⟩ := List.forall₂_cons_left_iff.1 hbs
    rw [List.flatMap_cons, List.forall_mem_append] at ht
    rw [List.zipWith_cons_cons, Handler.mapBody, runClauses, runClauses]
    refine takes_simulates hm ht.1 seen fun b => ?_
    cases b with
    | true =>
      exact named_simulates hm name seen
        (hb h.1 _ _ _ _ (hm.handling ht.1 seen) (ha.handle hx))
    | false => exact ih hrest ht.2 h.2

theorem star (es : List ε) (seen : Seen ν ε) :
    Simulates ts (m.runStar around x seen es handlers) (m'.runStar around' x' seen es
      (handlers.zipWith (fun h b => h.mapBody fun _ _ => b) bs)) := by
  induction handlers generalizing bs es seen x x' with
  | nil =>
    rw [List.zipWith_nil_left, runStar, runStar]
    exact endStar_simulates hm es (.some hx)
  | cons c rest ih =>
    obtain ⟨loc, _ | type, name, body⟩ := c
    all_goals obtain ⟨body', bs, hb, hrest, rfl⟩ := List.forall₂_cons_left_iff.1 hbs
    · rw [List.zipWith_cons_cons, Handler.mapBody, runStar, runStar]
      exact .exit (.plain trivial)
    · rw [List.flatMap_cons, List.forall_mem_append] at ht
      rw [List.zipWith_cons_cons, Handler.mapBody, runStar, runStar]
      refine ask_simulates hm fun answer => ?_
      obtain ⟨part, left⟩ := answer
      cases part with
      | none => exact ih hrest ht.2 h.2 hx es seen
      | some g =>
        intro s
        refine afterStar_leads (fun more => ?_) (named_simulates hm name _
          (hb h.1 _ _ _ _ (hm.during _) (ha.handle (.plain (x := .raised g) trivial))) s)
        cases seen with
        | jump => exact endStar_simulates hm _ .none
        | error =>
          cases left with
          | none => exact endStar_simulates hm _ .none
          | some e => exact ih hrest ht.2 h.2 (.plain (x := .raised e) trivial) _ _

end

theorem try_ {isStar : Bool} {handlers : List Handler} {bs : List (List Stmt)}
    (hb : SuiteSimulates σ ν ε made ts body body')
    (hbs : List.Forall₂ (SuiteSimulates σ ν ε made ts) (handlers.map Handler.body) bs)
    (he : SuiteSimulates σ ν ε made ts orElse orElse')
    (hf : SuiteSimulates σ ν ε made ts final final') :
    SuiteSimulates σ ν ε made ts [.try_ loc isStar body handlers orElse final]
      [.try_ loc isStar body' (handlers.zipWith (fun h b => h.mapBody fun _ _ => b) bs) orElse'
        final'] := by
  refine single fun h m m' around around' hm ha => ?_
  have ht : ∀ u ∈ handlers.flatMap Handler.trees, u.Spares IsHolderName := (Stmt.spares_iff.1 h.1).2
  rw [run, run]
  intro s
  refine finallyDo_leads (fun x x' => lastPart_simulates hm ha (hf h.2.2.2.2))
    (afterBody_leads hm (fun x x' seen hx => ?_) (he h.2.2.2.1 m m' around around' hm ha)
      (hb h.2.1 m m' around around' hm ha s))
  cases isStar with
  | true => exact star hm ha hbs ht h.2.2.1 hx [] seen
  | false => exact clauses hm ha hbs ht h.2.2.1 hx seen

theorem kept {s : Stmt} {bs : List (List Stmt)} (hs : s.isKept = true)
    (h : List.Forall₂ (SuiteSimulates σ ν ε made ts) s.bodies bs) :
    SuiteSimulates σ ν ε made ts [s] [s.withBodies bs] := by
  cases s with
  | if_ =>
    obtain _ | ⟨hb, _ | ⟨he, _ | _⟩⟩ := h
    exact if_ hb he
  | with_ =>
    obtain _ | ⟨hb, _ | _⟩ := h
    exact with_ hb
  | match_ loc subject cases =>
    refine single fun hc m m' around around' hm ha => ?_
    rw [run, Stmt.withBodies, Stmt.refill, run]
    exact value_simulates hm ha subject fun v => SuiteSimulates.cases hm ha h hc.2 v
  | try_ =>
    obtain ⟨b, hs, o, f, rfl, hb, hbs, he, hf⟩ := Stmt.forall₂_try h
    rw [Stmt.withBodies, Stmt.refill_try (hbs.length_eq.symm.trans (List.length_map _))]
    exact try_ hb hbs he hf
  | _ => cases hs

end SuiteSimulates

theorem runAll_simulates {made : List String} {ts : List JumpTarget} {body out : List Stmt}
    (hl : Stmt.LowerAllTo made ts body out) : SuiteSimulates σ ν ε made ts body out :=
  hl.induction (fun _ => .nil) .append (fun _ _ => .function) .class_ .for_ .while_ .block
    (.jump fun _ _ => by rw [run]) (.jump fun _ _ => by rw [run]) .kept .plain

end Machine

end LoopEscape.Crossing
