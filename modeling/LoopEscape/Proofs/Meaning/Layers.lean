import LoopEscape.Proofs.Meaning.Source
import LoopEscape.Generate.Expand

/-!
# The layers of a task

The body of a callback loop stands in layers of loops that make one pass and of blocks, one for the
loop and one for each label of its break clause.  A layer turns the jumps that it takes into a state
that is recorded in the slot of the task, and lets everything else pass.  From how the body ends, it
can be told how the layers end (`layers_wraps`).
-/

namespace LoopEscape

open Generate Step

variable {x : String} {v : Datum} {e : EscapeLabel}

variable {σ ε : Type}

theorem ofCodes_codes (s : String) : Text.ofCodes (Text.codes s) = s := by
  simp [Text.ofCodes, Text.codes, Function.comp_def]

/-! ### Pieces of generated code -/

theorem State.set_frame (st : State σ ε) (x y : String) (l : Local σ ε) :
    (st.set x l).frame y = if y = x then some l else st.frame y := rfl

section

variable {m : Machine σ ε} {st : State σ ε}

theorem value?_load (hx : isReserved x = true) (h : st.frame x = some (.value v)) (s : Span) :
    m.value? st (load s x) = some v := by
  simp [Machine.value?, Expr.value?, load, Frame.lookup, hx, h]

theorem value?_nothing (s : Span) : m.value? st (nothing s) = some .none := rfl

theorem value?_text (s : Span) (t : String) : m.value? st (text s t) = some (.text t) := by
  simp [Machine.value?, Expr.value?, text, Literal.text, Value.ofLiteral?, ofCodes_codes]

theorem support?_support (hs : m.globals.support = true) (s : Span) (name : String) :
    m.globals.support? (support s name) = some name := by
  simp [Globals.support?, support, attr, load, hs]

theorem value?_call_one (hs : m.globals.support = true) {s s' : Span} {name : String} {a : Expr}
    (ha : m.value? st a = some v) :
    m.value? st (call s (support s' name) [a]) = Value.construct? name [v] := by
  have ha' : Expr.value? m.globals st.frame a = some v := ha
  simp [Machine.value?, Expr.value?, call, support?_support hs, ha']

theorem value?_call_two (hs : m.globals.support = true) {s s' : Span} {name : String} {a b : Expr} {w : Datum}
    (hn : name ≠ "is_instance") (ha : m.value? st a = some v) (hb : m.value? st b = some w) :
    m.value? st (call s (support s' name) [a, b]) = Value.construct? name [v, w] := by
  have ha' : Expr.value? m.globals st.frame a = some v := ha
  have hb' : Expr.value? m.globals st.frame b = some w := hb
  simp [Machine.value?, Expr.value?, call, support?_support hs, ha', hb', hn]

theorem evaluate_of_value? {e : Expr} (h : m.value? st e = some v) :
    m.evaluate e st = (.ok v, st) := by
  simp only [Machine.evaluate, h]

theorem exec_assign_own {e : Expr} (hx : isReserved x = true) (hr : e.relayed? = none)
    (h : m.value? st e = some v) (loc : Loc) :
    Stmt.exec m (Generate.assign loc x e) st = (.normal, st.set x (.value v)) := by
  rw [exec_assign hr]
  simp [Query.andThen, evaluate_of_value? h, Machine.assign, store, hx]

theorem execAll_abort {k : Nat} {flow : Expr} (hslot : st.frame (LoopNames.of k).slot = some (.slot {}))
    (h : m.value? st flow = some v) (header : LoopHeader) (loc : Loc) :
    Stmt.execAll m [abort (Taxonomy.of k header) loc flow] st =
      (.suspended .abort, st.set (LoopNames.of k).slot (.slot ⟨v⟩)) := by
  have ha : (Expr.yield loc.span (some (call loc.span
      (attr loc.span (load loc.span (LoopNames.of k).slot) "record") [flow]))).abort? =
      some ((LoopNames.of k).slot, flow) := by
    simp [Expr.abort?, call, attr, load]
  rw [Stmt.execAll_singleton, abort, Stmt.exec]
  simp only [Machine.execExpr, Taxonomy.of, ha, Machine.abort, hslot, h]
  rfl

theorem exec_onceLoop (hs : m.globals.support = true) (k : Nat) (header : LoopHeader) (loc : Loc)
    (label : Option String) (x : String) (body orElse : List Stmt) :
    Stmt.exec m (onceLoop (Taxonomy.of k header) loc label x body orElse) st =
      LoopMark.afterPass ⟨label, some x⟩ (Stmt.execAll m orElse)
        (Stmt.execAll m body (st.set (LoopNames.of k).once (.value .none))) := by
  have hx : isReserved (LoopNames.of k).once = true := isReserved_generatedName _
  rw [onceLoop, Stmt.exec]
  simp [Machine.execFor, support?_support hs, Machine.assign, store, Taxonomy.of, hx, Step.andThen]

end

/-! ### How layers end -/

/-- How code of a task ends: like other code, or with a state recorded and the task suspended. -/
inductive Ending (ε : Type)
  | left (exit : Exit ε)
  | recorded (flow : Datum)

namespace Ending

def Shows (slot : String) (x : Ending ε) (r : Exit ε × State σ ε) : Prop :=
  match x with
  | .left e => r.1 = e ∧ r.2.frame slot = some (.slot {})
  | .recorded flow => r.1 = .suspended .abort ∧ r.2.frame slot = some (.slot ⟨flow⟩)

def Outgoing : Ending ε → Prop
  | .left .normal => False
  | .left (.jump _ none _) => False
  | _ => True

def own (label : Option String) (exit : Exit ε) (value : Datum) : Ending ε :=
  match exit with
  | .normal => .recorded (.continue_ value)
  | .jump kind l v =>
    if l.isNone || l == label then
      match kind with
      | .continue_ => .recorded (.continue_ value)
      | .break_ => .recorded (.break_ (.earlyBreak v))
    else .left (.jump kind l v)
  | e => .left e

def escape (e : EscapeLabel) : Ending ε → Ending ε
  | .left (.jump kind (some l) v) =>
    if l = e.label then
      match kind with
      | .break_ => .recorded (.break_ (.breakTo l v))
      | .continue_ => if e.loops then .recorded (.break_ (.continueTo l)) else .left .stuck
    else .left (.jump kind (some l) v)
  | x => x

theorem outgoing_own (label : Option String) (exit : Exit ε) (value : Datum) :
    (own label exit value).Outgoing := by
  cases exit with
  | jump kind l v =>
    simp only [own]
    split
    · cases kind <;> trivial
    · next h =>
      cases l with
      | none => exact absurd rfl h
      | some l => trivial
  | _ => trivial

theorem Outgoing.escape {x : Ending ε} (h : x.Outgoing) (e : EscapeLabel) :
    (x.escape e).Outgoing := by
  unfold Ending.escape
  split
  · split
    · split
      · trivial
      · split <;> trivial
    · trivial
  · exact h

end Ending

/-- A task of number `k` that has recorded nothing, and whose pass has no value yet. -/
structure State.Fresh (k : Nat) (st : State σ ε) : Prop where
  slot : st.frame (LoopNames.of k).slot = some (.slot {})
  value : st.frame (LoopNames.of k).value = some (.value .none)

def Wraps (m : Machine σ ε) (k : Nat) (code : List Stmt) (x : World σ → Ending ε × World σ) : Prop :=
  ∀ st, State.Fresh k st → (Stmt.execAll m code st).2.world = (x st.world).2 ∧
    (x st.world).1.Shows (LoopNames.of k).slot (Stmt.execAll m code st)

theorem State.Fresh.set {k : Nat} {st : State σ ε} (h : st.Fresh k) (hs : x ≠ (LoopNames.of k).slot)
    (hv : x ≠ (LoopNames.of k).value) (l : Local σ ε) :
    (st.set x l).Fresh k where
  slot := by rw [State.set_frame, if_neg hs.symm, h.slot]
  value := by rw [State.set_frame, if_neg hv.symm, h.value]

/-! ### One layer around another -/

section

variable {m : Machine σ ε} {k : Nat} {header : LoopHeader} {loc : Loc}

theorem value?_breakTo (hs : m.globals.support = true) {st : State σ ε} {l : String}
    (h : st.frame (breakVariable k l) = some (.value v)) (s : Span) :
    m.value? st (breakFlow s "BreakTo" [text s l, load s (breakVariable k l)]) =
      some (.break_ (.breakTo l v)) := by
  have hv : m.value? st (call s (support s "BreakTo") [text s l, load s (breakVariable k l)]) =
      some (.breakTo l v) :=
    value?_call_two hs (by decide) (value?_text s l) (value?_load (isReserved_breakVariable k l) h s)
  exact value?_call_one hs hv

theorem value?_continueTo (hs : m.globals.support = true) {st : State σ ε} (l : String) (s : Span) :
    m.value? st (breakFlow s "ContinueTo" [text s l]) = some (.break_ (.continueTo l)) := by
  have hv : m.value? st (call s (support s "ContinueTo") [text s l]) = some (.continueTo l) :=
    value?_call_one hs (value?_text s l)
  exact value?_call_one hs hv

theorem set_breakVariable_slot (st : State σ ε) (k : Nat) (l : String) (v : Local σ ε) :
    (st.set (breakVariable k l) v).frame (LoopNames.of k).slot = st.frame (LoopNames.of k).slot := by
  refine if_neg fun heq => LoopNames.breakVariable_notMem k l ?_
  simp [← heq, LoopNames.inside]

theorem Ending.Shows.escapeLoop (hs : m.globals.support = true) (hl : e.loops = true) {x : Ending ε}
    {r : Exit ε × State σ ε} (h : x.Shows (LoopNames.of k).slot r) (ho : x.Outgoing) (st : State σ ε) :
    let r' := Step.andThen (fun _ => LoopMark.afterPass ⟨some e.label, some (breakVariable k e.label)⟩
        (Stmt.execAll m [abort (Taxonomy.of k header) loc
          (breakFlow loc.span "ContinueTo" [text loc.span e.label])]) r)
      (Stmt.execAll m [abort (Taxonomy.of k header) loc (breakFlow loc.span "BreakTo"
        [text loc.span e.label, load loc.span (breakVariable k e.label)])]) st
    r'.2.world = r.2.world ∧ (x.escape e).Shows (LoopNames.of k).slot r' := by
  obtain ⟨exit, s⟩ := r
  cases x with
  | recorded flow =>
    obtain ⟨rfl, hslot⟩ := h
    exact ⟨rfl, rfl, hslot⟩
  | left exit' =>
    obtain ⟨rfl, hslot⟩ : exit = exit' ∧ s.frame (LoopNames.of k).slot = some (.slot {}) := h
    cases exit with
    | normal => exact ho.elim
    | jump kind l v =>
      cases l with
      | none => exact ho.elim
      | some l =>
        by_cases hle : l = e.label
        · subst hle
          have howns : LoopMark.owns ⟨some e.label, some (breakVariable k e.label)⟩ (some e.label) =
              true := by simp [LoopMark.owns]
          cases kind with
          | continue_ =>
            have hab := execAll_abort hslot (value?_continueTo hs e.label loc.span) header loc
            simp only [LoopMark.afterPass, howns, if_true, Step.andThen, hab, Ending.escape, hl]
            exact ⟨rfl, rfl, if_pos rfl⟩
          | break_ =>
            have hslot' := (set_breakVariable_slot s k e.label (.value v)).trans hslot
            have hab := execAll_abort hslot' (value?_breakTo hs (if_pos rfl) loc.span) header loc
            simp only [LoopMark.afterPass, howns, if_true, Step.andThen, State.receive, hab,
              Ending.escape]
            exact ⟨rfl, rfl, if_pos rfl⟩
        · have howns : LoopMark.owns ⟨some e.label, some (breakVariable k e.label)⟩ (some l) = false :=
            by simp [LoopMark.owns, hle]
          simp only [LoopMark.afterPass, howns, Bool.false_eq_true, if_false, Step.andThen,
            Ending.escape, hle]
          exact ⟨trivial, rfl, hslot⟩
    | _ => exact ⟨rfl, rfl, hslot⟩

theorem Ending.Shows.escapeBlock (hs : m.globals.support = true) (hl : e.loops = false) {x : Ending ε}
    {r : Exit ε × State σ ε} (h : x.Shows (LoopNames.of k).slot r) (ho : x.Outgoing) (st : State σ ε) :
    let r' := Step.andThen (fun _ => afterBlock e.label (m.bind loc (some (breakVariable k e.label))) r)
      (Stmt.execAll m [abort (Taxonomy.of k header) loc (breakFlow loc.span "BreakTo"
        [text loc.span e.label, load loc.span (breakVariable k e.label)])]) st
    r'.2.world = r.2.world ∧ (x.escape e).Shows (LoopNames.of k).slot r' := by
  obtain ⟨exit, s⟩ := r
  cases x with
  | recorded flow =>
    obtain ⟨rfl, hslot⟩ := h
    exact ⟨rfl, rfl, hslot⟩
  | left exit' =>
    obtain ⟨rfl, hslot⟩ : exit = exit' ∧ s.frame (LoopNames.of k).slot = some (.slot {}) := h
    cases exit with
    | normal => exact ho.elim
    | jump kind l v =>
      cases l with
      | none => exact ho.elim
      | some l =>
        by_cases hle : l = e.label
        · subst hle
          cases kind with
          | continue_ =>
            simp only [afterBlock, if_true, Step.andThen, Ending.escape, hl, Bool.false_eq_true,
              if_false]
            exact ⟨trivial, rfl, hslot⟩
          | break_ =>
            have hbind : m.bind loc (some (breakVariable k e.label)) v s =
                (.normal, s.set (breakVariable k e.label) (.value v)) := by
              simp [Machine.bind, Machine.assign, store]
            have hslot' := (set_breakVariable_slot s k e.label (.value v)).trans hslot
            have hab := execAll_abort hslot' (value?_breakTo hs (if_pos rfl) loc.span) header loc
            simp only [afterBlock, if_true, Step.andThen, hbind, hab, Ending.escape]
            exact ⟨rfl, rfl, if_pos rfl⟩
        · simp only [afterBlock, hle, if_false, Step.andThen, Ending.escape]
          exact ⟨trivial, rfl, hslot⟩
    | _ => exact ⟨rfl, rfl, hslot⟩

theorem once_ne_slot (k : Nat) : (LoopNames.of k).once ≠ (LoopNames.of k).slot :=
  MadeName.text_ne (m := .once k) (n := .slot k) (by simp)

theorem once_ne_value (k : Nat) : (LoopNames.of k).once ≠ (LoopNames.of k).value :=
  MadeName.text_ne (m := .once k) (n := .value k) (by simp)

theorem execAll_escapeLoop (hs : m.globals.support = true) (hl : e.loops = true) (inner : List Stmt)
    (st : State σ ε) :
    Stmt.execAll m (escapeLayer (Taxonomy.of k header) loc inner e) st =
      Step.andThen (fun _ => LoopMark.afterPass ⟨some e.label, some (breakVariable k e.label)⟩
          (Stmt.execAll m [abort (Taxonomy.of k header) loc
            (breakFlow loc.span "ContinueTo" [text loc.span e.label])])
          (Stmt.execAll m inner ((st.set (breakVariable k e.label) (.value .none)).set
            (LoopNames.of k).once (.value .none))))
        (Stmt.execAll m [abort (Taxonomy.of k header) loc (breakFlow loc.span "BreakTo"
          [text loc.span e.label, load loc.span (breakVariable k e.label)])]) st := by
  have hclear : Stmt.exec m (assign loc (breakVariable k e.label) (nothing loc.span)) st =
      (.normal, st.set (breakVariable k e.label) (.value .none)) :=
    exec_assign_own (isReserved_breakVariable k e.label) rfl (value?_nothing loc.span) loc
  rw [escapeLayer, if_pos hl]
  show Stmt.execAll m (assign loc (breakVariable k e.label) (nothing loc.span) :: _) st = _
  rw [Stmt.execAll_cons, Step.andThen_of_normal hclear, Stmt.execAll_cons]
  simp only [Step.andThen, exec_onceLoop hs]
  rfl

theorem execAll_escapeBlock (hl : e.loops = false) (inner : List Stmt) (st : State σ ε) :
    Stmt.execAll m (escapeLayer (Taxonomy.of k header) loc inner e) st =
      Step.andThen (fun _ => afterBlock e.label (m.bind loc (some (breakVariable k e.label)))
          (Stmt.execAll m inner (st.set (breakVariable k e.label) (.value .none))))
        (Stmt.execAll m [abort (Taxonomy.of k header) loc (breakFlow loc.span "BreakTo"
          [text loc.span e.label, load loc.span (breakVariable k e.label)])]) st := by
  have hbind : m.bind loc (some (breakVariable k e.label)) .none st =
      (.normal, st.set (breakVariable k e.label) (.value .none)) := by
    simp [Machine.bind, Machine.assign, store]
  rw [escapeLayer, if_neg (by simp [hl])]
  show Stmt.execAll m (.block loc e.label (some (breakVariable k e.label)) inner :: _) st = _
  rw [Stmt.execAll_cons, Stmt.exec]
  simp only [Step.andThen, hbind]
  rfl

theorem Wraps.escapeLayer (hs : m.globals.support = true) {inner : List Stmt}
    {x : World σ → Ending ε × World σ} (h : Wraps m k inner x) (ho : ∀ w, (x w).1.Outgoing)
    (e : EscapeLabel) :
    Wraps m k (Generate.escapeLayer (Taxonomy.of k header) loc inner e)
      fun w => ((x w).1.escape e, (x w).2) := by
  intro st hst
  have hbv : ∀ y ∈ LoopNames.inside k, breakVariable k e.label ≠ y := fun y hy heq =>
    LoopNames.breakVariable_notMem k e.label (heq ▸ hy)
  have hst' : (st.set (breakVariable k e.label) (.value .none)).Fresh k :=
    hst.set (hbv _ (by simp [LoopNames.inside])) (hbv _ (by simp [LoopNames.inside])) _
  cases hl : e.loops with
  | true =>
    obtain ⟨hw, hx⟩ := h _ (hst'.set (once_ne_slot k) (once_ne_value k) (.value .none))
    rw [execAll_escapeLoop hs hl]
    obtain ⟨hw', hx'⟩ := hx.escapeLoop hs hl (ho _) st
    exact ⟨hw'.trans hw, hx'⟩
  | false =>
    obtain ⟨hw, hx⟩ := h _ hst'
    rw [execAll_escapeBlock hl]
    obtain ⟨hw', hx'⟩ := hx.escapeBlock hs hl (ho _) st
    exact ⟨hw'.trans hw, hx'⟩

theorem Wraps.escapeLayers (hs : m.globals.support = true) {inner : List Stmt}
    {x : World σ → Ending ε × World σ} (h : Wraps m k inner x) (ho : ∀ w, (x w).1.Outgoing)
    (escapes : List EscapeLabel) :
    Wraps m k (escapes.foldl (Generate.escapeLayer (Taxonomy.of k header) loc) inner)
      fun w => (escapes.foldl (fun y e => y.escape e) (x w).1, (x w).2) := by
  induction escapes generalizing inner x with
  | nil => exact h
  | cons e rest ih => exact ih (h.escapeLayer hs ho e) fun w => (ho w).escape e

/-! ### The layer of the loop itself -/

/-- The body of a task ends as told from the world that it starts in, and leaves the value of the
pass. -/
def Yields (m : Machine σ ε) (k : Nat) (code : List Stmt)
    (x : World σ → (Exit ε × Datum) × World σ) : Prop :=
  ∀ st, State.Fresh k st → (Stmt.execAll m code st).1 = (x st.world).1.1 ∧
    (Stmt.execAll m code st).2.world = (x st.world).2 ∧
    (Stmt.execAll m code st).2.frame (LoopNames.of k).slot = some (.slot {}) ∧
    (Stmt.execAll m code st).2.frame (LoopNames.of k).value = some (.value (x st.world).1.2)

theorem brk_ne_slot (k : Nat) : (LoopNames.of k).brk ≠ (LoopNames.of k).slot :=
  MadeName.text_ne (m := .brk k) (n := .slot k) (by simp)

theorem brk_ne_value (k : Nat) : (LoopNames.of k).brk ≠ (LoopNames.of k).value :=
  MadeName.text_ne (m := .brk k) (n := .value k) (by simp)

theorem execAll_ownLayer (hs : m.globals.support = true) (label : Option String) (body : List Stmt)
    (st : State σ ε) :
    Stmt.execAll m (ownLayer (Taxonomy.of k header) loc label body) st =
      Step.andThen (fun _ => LoopMark.afterPass ⟨label, some (LoopNames.of k).brk⟩
          (Stmt.execAll m [abort (Taxonomy.of k header) loc
            (continueFlow loc.span (load loc.span (LoopNames.of k).value))])
          (Stmt.execAll m (withValue (Taxonomy.of k header) body)
            ((st.set (LoopNames.of k).brk (.value .none)).set (LoopNames.of k).once (.value .none))))
        (Stmt.execAll m [abort (Taxonomy.of k header) loc (breakFlow loc.span "EarlyBreak"
          [load loc.span (LoopNames.of k).brk])]) st := by
  have hclear : Stmt.exec m (assign loc (LoopNames.of k).brk (nothing loc.span)) st =
      (.normal, st.set (LoopNames.of k).brk (.value .none)) :=
    exec_assign_own (LoopNames.isReserved_brk k) rfl (value?_nothing loc.span) loc
  show Stmt.execAll m (assign loc (LoopNames.of k).brk (nothing loc.span) :: _) st = _
  rw [Stmt.execAll_cons, Step.andThen_of_normal hclear, Stmt.execAll_cons]
  simp only [Step.andThen, exec_onceLoop hs]
  rfl

theorem value?_earlyBreak (hs : m.globals.support = true) {st : State σ ε}
    (h : st.frame (LoopNames.of k).brk = some (.value v)) (s : Span) :
    m.value? st (breakFlow s "EarlyBreak" [load s (LoopNames.of k).brk]) =
      some (.break_ (.earlyBreak v)) := by
  have hv : m.value? st (call s (support s "EarlyBreak") [load s (LoopNames.of k).brk]) =
      some (.earlyBreak v) := value?_call_one hs (value?_load (LoopNames.isReserved_brk k) h s)
  exact value?_call_one hs hv

theorem Ending.shows_own (hs : m.globals.support = true) {r : Exit ε × State σ ε}
    (hslot : r.2.frame (LoopNames.of k).slot = some (.slot {}))
    (hvalue : r.2.frame (LoopNames.of k).value = some (.value v)) (label : Option String) (st : State σ ε) :
    let r' := Step.andThen (fun _ => LoopMark.afterPass ⟨label, some (LoopNames.of k).brk⟩
        (Stmt.execAll m [abort (Taxonomy.of k header) loc
          (continueFlow loc.span (load loc.span (LoopNames.of k).value))]) r)
      (Stmt.execAll m [abort (Taxonomy.of k header) loc (breakFlow loc.span "EarlyBreak"
        [load loc.span (LoopNames.of k).brk])]) st
    r'.2.world = r.2.world ∧ (Ending.own label r.1 v).Shows (LoopNames.of k).slot r' := by
  obtain ⟨exit, s⟩ := r
  have hfinish : Stmt.execAll m [abort (Taxonomy.of k header) loc
      (continueFlow loc.span (load loc.span (LoopNames.of k).value))] s =
      (.suspended .abort, s.set (LoopNames.of k).slot (.slot ⟨.continue_ v⟩)) :=
    execAll_abort hslot (value?_call_one hs (value?_load (isReserved_generatedName _) hvalue _))
      header loc
  cases exit with
  | normal =>
    simp only [LoopMark.afterPass, hfinish, Step.andThen]
    exact ⟨rfl, rfl, if_pos rfl⟩
  | jump kind l w =>
    by_cases hown : (l.isNone || l == label) = true
    · have howns : LoopMark.owns ⟨label, some (LoopNames.of k).brk⟩ l = true := hown
      cases kind with
      | continue_ =>
        simp only [LoopMark.afterPass, howns, if_true, hfinish, Step.andThen, own, hown]
        exact ⟨rfl, rfl, if_pos rfl⟩
      | break_ =>
        have hslot' : (s.set (LoopNames.of k).brk (.value w)).frame (LoopNames.of k).slot =
            some (.slot {}) := (if_neg (brk_ne_slot k).symm).trans hslot
        have hab := execAll_abort hslot' (value?_earlyBreak hs (if_pos rfl) loc.span) header loc
        simp only [LoopMark.afterPass, howns, if_true, State.receive, Step.andThen, own, hown, hab]
        exact ⟨rfl, rfl, if_pos rfl⟩
    · have howns : LoopMark.owns ⟨label, some (LoopNames.of k).brk⟩ l = false :=
        Bool.not_eq_true _ ▸ hown
      simp only [LoopMark.afterPass, howns, Bool.false_eq_true, if_false, Step.andThen, own, hown]
      exact ⟨trivial, rfl, hslot⟩
  | _ => exact ⟨rfl, rfl, hslot⟩

theorem ownLayer_wraps (hs : m.globals.support = true) (label : Option String) {body : List Stmt}
    {x : World σ → (Exit ε × Datum) × World σ}
    (h : Yields m k (withValue (Taxonomy.of k header) body) x) :
    Wraps m k (ownLayer (Taxonomy.of k header) loc label body)
      fun w => (.own label (x w).1.1 (x w).1.2, (x w).2) := by
  intro st hst
  have hst' := (hst.set (brk_ne_slot k) (brk_ne_value k) (.value .none)).set (once_ne_slot k)
    (once_ne_value k) (.value .none)
  obtain ⟨hexit, hworld, hslot, hvalue⟩ := h _ hst'
  rw [execAll_ownLayer hs]
  obtain ⟨hw, hx⟩ := Ending.shows_own hs hslot hvalue label st
  rw [hexit] at hx
  exact ⟨hw.trans hworld, hx⟩

theorem layers_wraps (hs : m.globals.support = true) (label : Option String) {body : List Stmt}
    {x : World σ → (Exit ε × Datum) × World σ}
    (h : Yields m k (withValue (Taxonomy.of k header) body) x) :
    Wraps m k (layers (Taxonomy.of k header) loc label body) fun w =>
      (header.escapes.foldl (fun y e => y.escape e) (.own label (x w).1.1 (x w).1.2), (x w).2) :=
  (ownLayer_wraps hs label h).escapeLayers hs (fun _ => Ending.outgoing_own _ _ _) header.escapes

end

end LoopEscape
