import LoopEscape.Proofs.Crossing.Reading

/-!
# Far jumps past clauses

Where every clause that a far jump can meet names a class of errors, no clause runs because of a jump:
the program does the same when far jumps pass over clauses as native jumps do (`runAll_passing`).  Which
clauses a far jump can meet is read off the text: those of a `try` whose body holds a jump to a target
around the `try` other than the innermost loop.
-/

namespace LoopEscape.Crossing

open Generate Lower Step

variable {σ ν ε : Type}

/-! ### Far jumps in the text -/

def outward (is : List Nat) : List Nat :=
  is.filterMap fun
    | 0 => none
    | i + 1 => some i

theorem mem_outward {is : List Nat} {i : Nat} : i ∈ outward is ↔ i + 1 ∈ is := by
  unfold outward
  rw [List.mem_filterMap]
  constructor
  · rintro ⟨j, hj, heq⟩
    cases j with
    | zero => cases heq
    | succ j => cases heq; exact hj
  · exact fun h => ⟨i + 1, h, rfl⟩

def farTarget? (targets : List Target) (label : Option String) : Option Nat :=
  label.bind fun l =>
    (targets.findIdx? fun t => t.label == some l).bind fun i =>
      if targets.findIdx? (·.isLoop) = some i then none else some i

mutual

def farJumps (targets : List Target) : Stmt → List Nat
  | .for_ _ _ mark _ _ body orElse | .while_ _ mark _ body orElse =>
    outward (farJumpsAll (⟨mark.label, true, mark.valueTarget⟩ :: targets) body) ++
      farJumpsAll targets orElse
  | .block _ label target body => outward (farJumpsAll (⟨some label, false, target⟩ :: targets) body)
  | .if_ _ _ body orElse => farJumpsAll targets body ++ farJumpsAll targets orElse
  | .with_ _ _ _ body => farJumpsAll targets body
  | .match_ _ _ cases => farJumpsCases targets cases
  | .try_ _ _ body handlers orElse final =>
    farJumpsAll targets body ++ farJumpsClauses targets handlers ++ farJumpsAll targets orElse ++
      farJumpsAll targets final
  | .break_ _ label _ | .continue_ _ label => (farTarget? targets label).toList
  | .class_ _ _ _ _ body _ => farJumpsAll [] body
  | _ => []

def farJumpsAll (targets : List Target) : List Stmt → List Nat
  | [] => []
  | s :: rest => farJumps targets s ++ farJumpsAll targets rest

def farJumpsClauses (targets : List Target) : List Handler → List Nat
  | [] => []
  | .mk _ _ _ body :: rest => farJumpsAll targets body ++ farJumpsClauses targets rest

def farJumpsCases (targets : List Target) : List MatchCase → List Nat
  | [] => []
  | .mk _ _ body :: rest => farJumpsAll targets body ++ farJumpsCases targets rest

end

/-! ### Steps that are left by far jumps -/

def FarIn (is : List Nat) (r : Exit ν ε × σ) : Prop := ∀ i kind v, r.1 = .far i kind v → i ∈ is

def Escapes (is : List Nat) (a : Step σ ν ε) : Prop := ∀ s, FarIn is (a s)

theorem FarIn.of_not_far {is : List Nat} {x : Exit ν ε} (hx : x.isFar = false) (s : σ) :
    FarIn is (x, s) := by
  rintro i kind v rfl
  cases hx

theorem FarIn.mono {is js : List Nat} {r : Exit ν ε × σ} (h : FarIn is r) (hs : is ⊆ js) :
    FarIn js r := fun i kind v hr => hs (h i kind v hr)

namespace Escapes

variable {is js : List Nat} {a b : Step σ ν ε}

theorem mono (h : Escapes is a) (hs : is ⊆ js) : Escapes js a := fun s => (h s).mono hs

theorem exit {x : Exit ν ε} (hx : x.isFar = false) : Escapes is (exit x : Step σ ν ε) :=
  fun s => .of_not_far hx s

theorem done : Escapes is (done : Step σ ν ε) := .exit rfl

theorem andThen (ha : Escapes is a) (hb : Escapes is b) : Escapes is (a.andThen b) := by
  intro s
  have hs := ha s
  unfold Step.andThen
  generalize a s = r at hs ⊢
  obtain ⟨x, s⟩ := r
  cases x with
  | normal => exact hb s
  | _ => exact hs

variable (m : Machine σ ν ε)

theorem ask {q : Request ν ε} {f : q.Answer → Step σ ν ε} (h : ∀ a, Escapes is (f a)) :
    Escapes is (m.ask q f) := by
  intro s
  unfold Machine.ask
  split
  · exact h _ _
  · exact .of_not_far rfl _

theorem perform (s : Stmt) : Escapes is (m.perform s) := .ask m fun _ => .done

theorem value (around : Around ν ε) (e : Expr) {f : ν → Step σ ν ε} (h : ∀ v, Escapes is (f v)) :
    Escapes is (m.value around e f) := by
  unfold Machine.value
  split
  · split
    · exact h _
    · exact .ask m h
  · exact .ask m h

theorem valueOption (around : Around ν ε) (e : Option Expr) {f : ν → Step σ ν ε}
    (h : ∀ v, Escapes is (f v)) : Escapes is (m.valueOption around e f) := by
  cases e with
  | none => exact h _
  | some e => exact .value m around e h

theorem bind (loc : Loc) (name : Option String) (v : ν) : Escapes is (m.bind loc name v) := by
  cases name with
  | none => exact .done
  | some x => exact .ask m fun _ => .done

theorem assign (around : Around ν ε) (target value : Expr) :
    Escapes is (m.assign around target value) := by
  have hassign : Escapes is
      (m.value around value fun v => m.ask (.assign target v) fun _ => Step.done) :=
    .value m around value fun v => .ask m fun _ => .done
  unfold Machine.assign
  split
  · split
    · exact .done
    · exact hassign
  · exact hassign

theorem clear (around : Around ν ε) (loc : Loc) (name : Option String) :
    Escapes is (m.clear around loc name) := by
  cases name with
  | none => exact .done
  | some x => exact .assign m around _ _

theorem guarded (guard : Option Expr) {body rest : Step σ ν ε} (hb : Escapes is body)
    (hr : Escapes is rest) : Escapes is (m.guarded guard body rest) := by
  cases guard with
  | none => exact hb
  | some g =>
    refine .ask m fun b => ?_
    cases b with
    | true => exact hb
    | false => exact hr

theorem advance (isAsync : Bool) (it : ν) (target : Expr) {f : Bool → Step σ ν ε}
    (h : ∀ b, Escapes is (f b)) : Escapes is (m.advance isAsync it target f) := by
  refine .ask m fun a => ?_
  cases a with
  | none => exact h false
  | some v => exact .ask m fun _ => h true

theorem jump (around : Around ν ε) (loc : Loc) (kind : JumpKind) (label : Option String)
    (value : Option Expr) :
    Escapes (farTarget? around.targets label).toList (m.jump around loc kind label value) := by
  have hnear : ∀ valueTarget, Escapes (farTarget? around.targets label).toList
      (m.nearJump around loc kind valueTarget value) := by
    intro valueTarget
    cases value with
    | none => exact .exit rfl
    | some e => exact .value m around e fun v => (Escapes.bind m loc valueTarget v).andThen (.exit rfl)
  unfold Machine.jump
  cases label with
  | none => exact hnear _
  | some l =>
    simp only
    split
    · exact .exit rfl
    · next i hl =>
      split
      · exact hnear _
      · next hin =>
        have hfar : farTarget? around.targets (some l) = some i := by
          unfold Around.labelled? at hl
          unfold Around.innermost? at hin
          simp only [farTarget?, Option.bind_some, hl, if_neg hin]
        refine .valueOption m around value fun v s i' kind' v' he => ?_
        cases he
        simp [hfar]

theorem loop {head : (Bool → Step σ ν ε) → Step σ ν ε} {receive : ν → Step σ ν ε}
    {body orElse : Step σ ν ε} (hh : ∀ f, (∀ b, Escapes js (f b)) → Escapes js (head f))
    (hr : ∀ v, Escapes js (receive v)) (hb : Escapes is body) (ho : Escapes js orElse)
    (hs : outward is ⊆ js) (n : Nat) : Escapes js (Machine.loop head receive body orElse n) := by
  induction n with
  | zero => exact .exit rfl
  | succ n ih =>
    refine hh _ fun b => ?_
    cases b with
    | false => exact ho
    | true =>
      intro s
      show FarIn js (Machine.afterPass _ _ (body s))
      have hbs := hb s
      generalize body s = r at hbs ⊢
      obtain ⟨x, s⟩ := r
      cases x with
      | normal => exact ih s
      | near kind =>
        cases kind with
        | break_ => exact .of_not_far rfl s
        | continue_ => exact ih s
      | far i kind v =>
        cases i with
        | zero =>
          cases kind with
          | break_ => exact hr v s
          | continue_ => exact ih s
        | succ i =>
          rintro i' kind' v' he
          cases he
          exact hs (mem_outward.2 (hbs _ _ _ rfl))
      | _ => exact .of_not_far rfl s

theorem block {receive : ν → Step σ ν ε} {body : Step σ ν ε}
    (hr : ∀ v, Escapes (outward is) (receive v))
    (hb : Escapes is body) : Escapes (outward is) fun s => Machine.afterBlock receive (body s) := by
  intro s
  show FarIn _ (Machine.afterBlock _ (body s))
  have hbs := hb s
  generalize body s = r at hbs ⊢
  obtain ⟨x, s⟩ := r
  cases x with
  | far i kind v =>
    cases i with
    | zero =>
      cases kind with
      | break_ => exact hr v s
      | continue_ => exact .of_not_far rfl s
    | succ i =>
      rintro i' kind' v' he
      cases he
      exact mem_outward.2 (hbs _ _ _ rfl)
  | _ => exact .of_not_far rfl s

theorem within (isAsync : Bool) {body : Step σ ν ε} (h : Escapes is body) (items : List WithItem) :
    Escapes is (m.within isAsync body items) := by
  induction items with
  | nil => exact h
  | cons item rest ih =>
    refine .ask m fun manager s => ?_
    have hbs : FarIn is (m.ask (.receive item manager) (fun _ => m.within isAsync body rest) s) :=
      Escapes.ask m (fun _ => ih) s
    generalize m.ask (.receive item manager) (fun _ => m.within isAsync body rest) s = r at hbs ⊢
    obtain ⟨x, s⟩ := r
    have hleave : Escapes is (m.ask (.leave isAsync manager x.seen?)
        (fun handled => if handled && x.seen?.isSome then Step.done else Step.exit x)) := by
      refine .ask m fun handled => ?_
      split
      · exact .done
      · exact fun s i kind v he => hbs i kind v he
    cases x with
    | stuck => exact .of_not_far rfl s
    | exhausted => exact .of_not_far rfl s
    | _ => exact hleave s

theorem named (name : Option String) (seen : Seen ν ε) {body : Step σ ν ε} (h : Escapes is body) :
    Escapes is (m.named name seen body) := by
  unfold Machine.named
  cases name with
  | none => exact h
  | some n =>
    simp only
    split
    · exact h
    · exact .ask m fun _ s => h s

theorem takes (type : Option Expr) (x : Exit ν ε) (seen : Seen ν ε) {f : Bool → Step σ ν ε}
    (h : ∀ b, Escapes is (f b)) : Escapes is (m.takes type x seen f) := by
  unfold Machine.takes
  split
  · exact h _
  · split
    · exact h _
    · exact h _
    · exact .ask m h

theorem endStar (es : List ε) {x : Option (Exit ν ε)} (hx : ∀ y, x = some y → FarIn is (y, ())) :
    Escapes is (m.endStar es x) := by
  unfold Machine.endStar
  split
  · exact .done
  · exact fun s i kind v he => hx _ rfl i kind v he
  · exact .ask m fun _ => .exit rfl
  · exact .ask m fun _ => .exit rfl
  · exact .exit rfl

end Escapes

/-! ### Far jumps of native code -/

def Around.Settled (around : Around ν ε) : Prop := ∀ x, around.handling = some x → x.isFar = false

theorem Escapes.raise (m : Machine σ ν ε) {is : List Nat} {around : Around ν ε} (h : around.Settled)
    (loc : Loc) (exc cause : Option Expr) : Escapes is (m.raise around loc exc cause) := by
  unfold Machine.raise
  split
  · split
    · next x hx => exact .exit (h x hx)
    · exact .perform m _
  · split
    · exact .exit rfl
    · exact .value m around _ fun v => .exit rfl
    · exact .perform m _
  · exact .perform m _

theorem settled_empty : ({} : Around ν ε).Settled := fun _ h => (nomatch h)

theorem Around.Settled.inside {around : Around ν ε} (h : around.Settled) (t : Target) :
    (around.inside t).Settled := by
  intro x hx
  obtain ⟨y, hy, rfl⟩ := Option.map_eq_some_iff.1 hx
  have hfar := h y hy
  cases y with
  | far => cases hfar
  | _ => rfl

theorem settled_handle (around : Around ν ε) {x : Exit ν ε} (hx : x.isFar = false) :
    { around with handling := some x }.Settled := by
  intro y hy
  cases hy
  exact hx

namespace Machine

variable {m : Machine σ ν ε} (hn : m.native = true)

include hn

theorem not_far_of_shown {x : Exit ν ε} {seen : Seen ν ε} (h : m.shown? x = some seen) :
    x.isFar = false := by
  unfold shown? at h
  rw [hn, Bool.true_and] at h
  split at h
  · cases h
  · next hx => simpa using hx

theorem afterBody_escapes {is : List Nat} {handle : Exit ν ε → Seen ν ε → Step σ ν ε}
    {orElse : Step σ ν ε} (hh : ∀ x seen, x.isFar = false → Escapes is (handle x seen))
    (ho : Escapes is orElse) {r : Exit ν ε × σ} (hr : FarIn is r) :
    FarIn is (m.afterBody handle orElse r) := by
  obtain ⟨x, s⟩ := r
  have hhandle : FarIn is ((m.shown? x).elim (x, s) fun seen => handle x seen s) := by
    cases hshown : m.shown? x with
    | none => exact hr
    | some seen => exact hh x seen (not_far_of_shown hn hshown) s
  cases x with
  | normal => exact ho s
  | _ => rwa [m.afterBody_eq (by simp)]

theorem lastPart_escapes {is : List Nat} {around : Around ν ε}
    {final : Machine σ ν ε → Around ν ε → Step σ ν ε} (hm : Escapes is (final m around))
    (hd : ∀ seen x, x.isFar = false →
      Escapes is (final (m.during seen) { around with handling := some x })) (x : Exit ν ε) :
    Escapes is (m.lastPart around final x) := by
  unfold lastPart
  split
  · exact hm
  · next seen hx => exact hd seen x (not_far_of_shown hn hx)

omit hn in
theorem handling_native (type : Option Expr) (seen : Seen ν ε) :
    (m.handling type seen).native = m.native := by
  unfold handling
  split <;> rfl

end Machine

theorem finallyDo_escapes {is : List Nat} {final : Exit ν ε → Step σ ν ε}
    (hf : ∀ x, Escapes is (final x)) {r : Exit ν ε × σ} (hr : FarIn is r) :
    FarIn is (Machine.finallyDo final r) := by
  obtain ⟨x, s⟩ := r
  have hexit : Escapes is ((final x).andThen (exit x)) :=
    (hf x).andThen fun s i kind v he => hr i kind v he
  cases x with
  | stuck => exact .of_not_far rfl s
  | exhausted => exact .of_not_far rfl s
  | _ => exact hexit s

theorem afterStar_escapes {is : List Nat} {next : List ε → Step σ ν ε}
    (hn : ∀ es, Escapes is (next es)) (r : Exit ν ε × σ) : FarIn is (Machine.afterStar next r) := by
  obtain ⟨x, s⟩ := r
  cases x with
  | normal => exact hn [] s
  | raised e => exact hn [e] s
  | _ => exact .of_not_far rfl s

namespace Machine

mutual

theorem run_escapes {m : Machine σ ν ε} (hn : m.native = true) (stmt : Stmt) {around : Around ν ε}
    (h : around.Settled) : Escapes (farJumps around.targets stmt) (m.run around stmt) := by
  cases stmt with
  | class_ _ _ _ _ body _ =>
    rw [run, farJumps]
    exact .ask m fun _ => (runAll_escapes hn body settled_empty).andThen (.ask m fun _ => .done)
  | return_ _ value =>
    rw [run]
    exact .valueOption m around value fun v => .exit rfl
  | for_ loc isAsync mark target iter body orElse =>
    rw [run, farJumps]
    refine .ask m fun it => .loop (fun f hf => .advance m isAsync it target hf)
      (fun v => .bind m loc _ v) (runAll_escapes hn body (h.inside _))
      ((runAll_escapes hn orElse h).mono (List.subset_append_right _ _))
      (List.subset_append_left _ _) _
  | while_ loc mark test body orElse =>
    rw [run, farJumps]
    exact .loop (fun f hf => .ask m hf) (fun v => .bind m loc _ v)
      (runAll_escapes hn body (h.inside _))
      ((runAll_escapes hn orElse h).mono (List.subset_append_right _ _))
      (List.subset_append_left _ _) _
  | if_ _ test body orElse =>
    rw [run, farJumps]
    refine .ask m fun b => ?_
    cases b with
    | true => exact (runAll_escapes hn body h).mono (List.subset_append_left _ _)
    | false => exact (runAll_escapes hn orElse h).mono (List.subset_append_right _ _)
  | with_ _ isAsync items body =>
    rw [run, farJumps]
    exact .within m isAsync (runAll_escapes hn body h) items
  | match_ _ subject cases =>
    rw [run, farJumps]
    exact .value m around subject fun v => runCases_escapes hn cases v h
  | raise loc exc cause =>
    rw [run]
    exact .raise m h loc exc cause
  | try_ _ isStar body handlers orElse final =>
    rw [run, farJumps]
    intro s
    refine finallyDo_escapes (lastPart_escapes hn ?_ fun seen x hx => ?_)
      (afterBody_escapes hn (fun x seen hx => ?_)
        ((runAll_escapes hn orElse h).mono fun i hi => ?_)
        ((runAll_escapes hn body h s).mono fun i hi => ?_))
    · exact (runAll_escapes hn final h).mono (List.subset_append_right _ _)
    · refine .mono ?_ (List.subset_append_right _ _)
      exact runAll_escapes (m := m.during seen) hn final (settled_handle around hx)
    · cases isStar with
      | true => exact (runStar_escapes hn handlers seen [] hx).mono (List.nil_subset _)
      | false =>
        refine (runClauses_escapes hn handlers seen hx).mono fun i hi => ?_
        simp only [List.mem_append]
        exact .inl (.inl (.inr hi))
    · simp only [List.mem_append]
      exact .inl (.inr hi)
    · simp only [List.mem_append]
      exact .inl (.inl (.inl hi))
  | break_ loc label value =>
    rw [run, farJumps]
    exact .jump m around loc .break_ label value
  | continue_ loc label =>
    rw [run, farJumps]
    exact .jump m around loc .continue_ label none
  | block loc label target body =>
    rw [run, farJumps]
    exact (Escapes.clear m around loc target).andThen
      (.block (fun v => .bind m loc target v) (runAll_escapes hn body (h.inside _)))
  | expr _ e =>
    rw [run]
    exact .value m around e fun _ => .done
  | pass _ | supportImport =>
    rw [run]
    exact .done
  | callbackLoop =>
    rw [run]
    exact .exit rfl
  | assign loc targets value =>
    match targets with
    | [target] =>
      rw [run]
      exact .assign m around target value
    | [] | _ :: _ :: _ =>
      simp only [run]
      exact .perform m _
  | _ =>
    rw [run]
    exact .perform m _

theorem runAll_escapes {m : Machine σ ν ε} (hn : m.native = true) : ∀ (body : List Stmt)
    {around : Around ν ε}, around.Settled → Escapes (farJumpsAll around.targets body) (m.runAll around body)
  | [], _, _ => by
    rw [runAll]
    exact .done
  | s :: rest, around, h => by
    rw [runAll, farJumpsAll]
    exact ((run_escapes hn s h).mono (List.subset_append_left _ _)).andThen
      ((runAll_escapes hn rest h).mono (List.subset_append_right _ _))

theorem runClauses_escapes {m : Machine σ ν ε} (hn : m.native = true) :
    ∀ (handlers : List Handler) {around : Around ν ε} {x : Exit ν ε} (seen : Seen ν ε), x.isFar = false →
    Escapes (farJumpsClauses around.targets handlers) (m.runClauses around x seen handlers)
  | [], _, _, _, hx => by
    rw [runClauses]
    exact .exit hx
  | .mk _ type name body :: rest, around, x, seen, hx => by
    rw [runClauses, farJumpsClauses]
    refine .takes m type x seen fun b => ?_
    cases b with
    | true =>
      refine .named m name seen (.mono ?_ (List.subset_append_left _ _))
      exact runAll_escapes ((handling_native type seen).trans hn) body (settled_handle around hx)
    | false => exact (runClauses_escapes hn rest seen hx).mono (List.subset_append_right _ _)

theorem runStar_escapes {m : Machine σ ν ε} (hn : m.native = true) :
    ∀ (handlers : List Handler) {around : Around ν ε} {x : Exit ν ε} (seen : Seen ν ε) (es : List ε), x.isFar = false →
    Escapes [] (m.runStar around x seen es handlers)
  | [], _, _, _, es, hx => by
    rw [runStar]
    refine .endStar m es fun y hy => ?_
    cases hy
    exact .of_not_far hx ()
  | .mk _ none _ _ :: _, _, _, _, _, _ => by
    rw [runStar]
    exact .exit rfl
  | .mk _ (some type) name body :: rest, around, x, seen, es, hx => by
    rw [runStar]
    refine .ask m fun answer => ?_
    obtain ⟨part, left⟩ := answer
    cases part with
    | none => exact runStar_escapes hn rest seen es hx
    | some g =>
      refine fun s => afterStar_escapes (fun more => ?_) _
      cases seen with
      | jump => exact .endStar m _ fun y hy => (nomatch hy)
      | error =>
        cases left with
        | none => exact .endStar m _ fun y hy => (nomatch hy)
        | some e => exact runStar_escapes hn rest _ _ rfl

theorem runCases_escapes {m : Machine σ ν ε} (hn : m.native = true) : ∀ (cases : List MatchCase) (v : ν)
    {around : Around ν ε}, around.Settled →
    Escapes (farJumpsCases around.targets cases) (m.runCases around v cases)
  | [], _, _, _ => by
    rw [runCases]
    exact .done
  | .mk pattern guard body :: rest, v, around, h => by
    rw [runCases, farJumpsCases]
    have hrest := (runCases_escapes hn rest v h).mono
      (List.subset_append_right (farJumpsAll around.targets body) _)
    refine .ask m fun b => ?_
    cases b with
    | false => exact hrest
    | true =>
      exact .guarded m guard ((runAll_escapes hn body h).mono (List.subset_append_left _ _)) hrest

end

end Machine

/-! ### Clauses for errors -/

/-- The class that a clause names is one of errors: no jump is of this class, and looking it up changes
nothing. -/
def Ordinary (host : Host σ ν ε) (type : Expr) : Prop :=
  ∀ handled kind v s, host handled (.accepts type (.jump kind v)) s = (s, .ok false) ∧
    ∃ rest, host handled (.split type (.jump kind v)) s = (s, .ok (none, rest))

def OrdinaryClause (host : Host σ ν ε) : Handler → Prop
  | .mk _ type _ _ => ∃ e, type = some e ∧ Ordinary host e

/-- What does the same, whether or not a jump is on its way. -/
def Blind (host : Host σ ν ε) (body : List Stmt) : Prop :=
  ∀ (m : Machine σ ν ε) (around : Around ν ε) (i : Nat) (kind : JumpKind) (v : ν), m.host = host →
    (m.during (.jump kind v)).runAll { around with handling := some (.far i kind v) } body =
      m.runAll around body

mutual

/-- Wherever the body of a `try` holds a far jump out of it, all clauses are for errors, and wherever a far
jump meets the last part, this does not look at it. -/
def Uncaught (host : Host σ ν ε) (targets : List Target) : Stmt → Prop
  | .class_ _ _ _ _ body _ => UncaughtAll host [] body
  | .for_ _ _ mark _ _ body orElse | .while_ _ mark _ body orElse =>
    UncaughtAll host (⟨mark.label, true, mark.valueTarget⟩ :: targets) body ∧
      UncaughtAll host targets orElse
  | .block _ label target body => UncaughtAll host (⟨some label, false, target⟩ :: targets) body
  | .if_ _ _ body orElse => UncaughtAll host targets body ∧ UncaughtAll host targets orElse
  | .with_ _ _ _ body => UncaughtAll host targets body
  | .match_ _ _ cases => UncaughtCases host targets cases
  | .try_ _ _ body handlers orElse final =>
    (farJumpsAll targets body ≠ [] → ∀ h ∈ handlers, OrdinaryClause host h) ∧
      (farJumpsAll targets body ++ farJumpsClauses targets handlers ++ farJumpsAll targets orElse ≠ [] →
        Blind host final) ∧
      UncaughtAll host targets body ∧ UncaughtClauses host targets handlers ∧
      UncaughtAll host targets orElse ∧ UncaughtAll host targets final
  | _ => True

def UncaughtAll (host : Host σ ν ε) (targets : List Target) : List Stmt → Prop
  | [] => True
  | s :: rest => Uncaught host targets s ∧ UncaughtAll host targets rest

def UncaughtClauses (host : Host σ ν ε) (targets : List Target) : List Handler → Prop
  | [] => True
  | .mk _ _ _ body :: rest => UncaughtAll host targets body ∧ UncaughtClauses host targets rest

def UncaughtCases (host : Host σ ν ε) (targets : List Target) : List MatchCase → Prop
  | [] => True
  | .mk _ _ body :: rest => UncaughtAll host targets body ∧ UncaughtCases host targets rest

end

namespace Machine

variable {m : Machine σ ν ε}

def passing (m : Machine σ ν ε) : Machine σ ν ε := { m with native := true }

theorem runClauses_ordinary (hh : m.holders = []) (around : Around ν ε) {x : Exit ν ε}
    {kind : JumpKind} {v : ν} {handlers : List Handler}
    (h : ∀ c ∈ handlers, OrdinaryClause m.host c) :
    m.runClauses around x (.jump kind v) handlers = exit x := by
  induction handlers with
  | nil => rw [runClauses]
  | cons c rest ih =>
    obtain ⟨loc, type, name, body⟩ := c
    obtain ⟨e, rfl, he⟩ := h _ (List.mem_cons_self ..)
    rw [runClauses, ih fun c hc => h c (List.mem_cons_of_mem _ hc)]
    funext s
    simp only [takes, holderClass?_none hh, ask, (he m.handled kind v s).1]

theorem runStar_ordinary (around : Around ν ε) {x : Exit ν ε} {kind : JumpKind} {v : ν}
    {handlers : List Handler} (h : ∀ c ∈ handlers, OrdinaryClause m.host c) :
    m.runStar around x (.jump kind v) [] handlers = exit x := by
  induction handlers with
  | nil => rw [runStar]; rfl
  | cons c rest ih =>
    obtain ⟨loc, type, name, body⟩ := c
    obtain ⟨e, rfl, he⟩ := h _ (List.mem_cons_self ..)
    rw [runStar, ih fun c hc => h c (List.mem_cons_of_mem _ hc)]
    funext s
    obtain ⟨left, hl⟩ := (he m.handled kind v s).2
    simp only [ask, hl]

theorem within_passing (isAsync : Bool) (body : Step σ ν ε) (items : List WithItem) :
    m.within isAsync body items = m.passing.within isAsync body items := by
  induction items with
  | nil => rfl
  | cons item rest ih =>
    rw [within, within, ih]
    rfl

theorem afterBody_passing (hn : m.native = false) {is : List Nat} {r : Exit ν ε × σ}
    (hr : FarIn is r) {handle handle' : Exit ν ε → Seen ν ε → Step σ ν ε} (orElse : Step σ ν ε)
    (hfar : is ≠ [] → ∀ i kind v, handle (.far i kind v) (.jump kind v) = exit (.far i kind v))
    (hother : ∀ x seen, x.isFar = false → handle x seen = handle' x seen) :
    m.afterBody handle orElse r = m.passing.afterBody handle' orElse r := by
  obtain ⟨x, s⟩ := r
  cases x with
  | normal => rfl
  | far i kind v =>
    have hne : is ≠ [] := List.ne_nil_of_mem (hr i kind v rfl)
    simp only [afterBody, shown?, hn, passing, Exit.isFar, Exit.seen?, Bool.false_and, Bool.true_and,
      Bool.false_eq_true, if_false, if_true, hfar hne]
    rfl
  | raised e =>
    simp only [afterBody, shown?, Exit.isFar, Bool.and_false, Bool.false_eq_true, if_false, Exit.seen?]
    exact congrFun (hother (.raised e) _ rfl) s
  | thrown h kind v =>
    simp only [afterBody, shown?, Exit.isFar, Bool.and_false, Bool.false_eq_true, if_false, Exit.seen?]
    exact congrFun (hother (.thrown h kind v) _ rfl) s
  | _ =>
    simp only [afterBody, shown?, Exit.isFar, Bool.and_false, Bool.false_eq_true, if_false, Exit.seen?]

theorem finallyDo_passing {is : List Nat} {r : Exit ν ε × σ} (hr : FarIn is r)
    {final final' : Exit ν ε → Step σ ν ε}
    (hfar : is ≠ [] → ∀ i kind v, final (.far i kind v) = final' (.far i kind v))
    (hother : ∀ x, x.isFar = false → final x = final' x) : finallyDo final r = finallyDo final' r := by
  obtain ⟨x, s⟩ := r
  cases x with
  | far i kind v =>
    exact congrArg (fun f => (Step.andThen f _) s) (hfar (List.ne_nil_of_mem (hr i kind v rfl)) i kind v)
  | stuck => rfl
  | exhausted => rfl
  | normal | near | thrown | returned | raised =>
    exact congrArg (fun f => (Step.andThen f _) s) (hother _ rfl)

theorem lastPart_far (hn : m.native = false) (around : Around ν ε)
    (final : Machine σ ν ε → Around ν ε → Step σ ν ε) (i : Nat) (kind : JumpKind) (v : ν) :
    m.lastPart around final (.far i kind v) =
      final (m.during (.jump kind v)) { around with handling := some (.far i kind v) } := by
  rw [lastPart, shown?, hn]
  rfl

theorem shown?_of_not_far {x : Exit ν ε} (hx : x.isFar = false) : m.shown? x = x.seen? := by
  rw [shown?, hx, Bool.and_false]
  rfl

theorem handling_eq (hh : m.holders = []) (type : Option Expr) (seen : Seen ν ε) :
    m.handling type seen = m.during seen := by
  unfold handling
  cases type with
  | none => rfl
  | some e => rw [Option.bind_some, holderClass?_none hh]; rfl

mutual

theorem run_passing {m : Machine σ ν ε} (hn : m.native = false) (hh : m.holders = []) (stmt : Stmt)
    {around : Around ν ε} (h : around.Settled) (hu : Uncaught m.host around.targets stmt) :
    m.run around stmt = m.passing.run around stmt := by
  cases stmt with
  | class_ _ _ _ _ body _ =>
    rw [run, run, runAll_passing hn hh body settled_empty hu]
    rfl
  | for_ _ _ _ _ _ body orElse | while_ _ _ _ body orElse =>
    rw [run, run, runAll_passing hn hh body (h.inside _) hu.1,
      runAll_passing hn hh orElse h hu.2]
    rfl
  | if_ _ _ body orElse =>
    rw [run, run, runAll_passing hn hh body h hu.1, runAll_passing hn hh orElse h hu.2]
    rfl
  | with_ _ isAsync items body =>
    rw [run, run, runAll_passing hn hh body h hu, within_passing]
  | match_ _ _ cases =>
    rw [run, run]
    simp only [fun v => runCases_passing hn hh cases v h hu]
    rfl
  | try_ loc isStar body handlers orElse final =>
    obtain ⟨hordinary, hblind, hub, huh, huo, huf⟩ := hu
    rw [run, run, runAll_passing hn hh body h hub, runAll_passing hn hh orElse h huo]
    funext s
    rw [afterBody_passing hn (runAll_escapes (m := m.passing) rfl body h s) _
      (fun hne i kind v => ?_) fun x seen hx => ?_]
    · have hfar : FarIn (farJumps around.targets (.try_ loc isStar body handlers orElse [])) _ :=
        run_escapes (m := m.passing) rfl (.try_ loc isStar body handlers orElse []) h s
      rw [farJumps, farJumpsAll, List.append_nil, run_try] at hfar
      refine finallyDo_passing hfar (fun hne i kind v => ?_) fun x hx => ?_
      · rw [lastPart_far hn, hblind hne m around i kind v rfl, runAll_passing hn hh final h huf]
        rfl
      · rw [lastPart, lastPart, shown?_of_not_far hx, shown?_of_not_far hx]
        split
        · exact runAll_passing hn hh final h huf
        · exact runAll_passing (m := m.during _) hn hh final (settled_handle around hx) huf
    · cases isStar with
      | true => exact runStar_ordinary around (hordinary hne)
      | false => exact runClauses_ordinary hh around (hordinary hne)
    · cases isStar with
      | true => exact runStar_passing hn hh handlers seen [] h huh hx
      | false => exact runClauses_passing hn hh handlers seen h huh hx
  | block _ _ _ body =>
    rw [run, run, runAll_passing hn hh body (h.inside _) hu]
    rfl
  | assign _ targets value =>
    match targets with
    | [target] =>
      rw [run, run]
      rfl
    | [] | _ :: _ :: _ =>
      simp only [run]
      rfl
  | pass _ | supportImport | callbackLoop => rw [run, run]
  | _ =>
    rw [run, run]
    rfl

theorem runAll_passing {m : Machine σ ν ε} (hn : m.native = false) (hh : m.holders = []) :
    ∀ (body : List Stmt) {around : Around ν ε}, around.Settled → UncaughtAll m.host around.targets body →
    m.runAll around body = m.passing.runAll around body
  | [], _, _, _ => by rw [runAll, runAll]
  | s :: rest, around, h, hu => by
    rw [runAll, runAll, run_passing hn hh s h hu.1, runAll_passing hn hh rest h hu.2]

theorem runClauses_passing {m : Machine σ ν ε} (hn : m.native = false) (hh : m.holders = []) :
    ∀ (handlers : List Handler) (seen : Seen ν ε) {around : Around ν ε} {x : Exit ν ε},
    around.Settled → UncaughtClauses m.host around.targets handlers → x.isFar = false →
    m.runClauses around x seen handlers = m.passing.runClauses around x seen handlers
  | [], _, _, _, _, _, _ => by rw [runClauses, runClauses]
  | .mk _ type name body :: rest, seen, around, x, h, hu, hx => by
    rw [runClauses, runClauses, handling_eq hh, handling_eq (m := m.passing) hh,
      runAll_passing (m := m.during seen) hn hh body (settled_handle around hx) hu.1,
      runClauses_passing hn hh rest seen h hu.2 hx]
    rfl

theorem runStar_passing {m : Machine σ ν ε} (hn : m.native = false) (hh : m.holders = []) :
    ∀ (handlers : List Handler) (seen : Seen ν ε) (es : List ε) {around : Around ν ε} {x : Exit ν ε},
    around.Settled → UncaughtClauses m.host around.targets handlers → x.isFar = false →
    m.runStar around x seen es handlers = m.passing.runStar around x seen es handlers
  | [], _, _, _, _, _, _, _ => by rw [runStar, runStar]; rfl
  | .mk _ none _ _ :: _, _, _, _, _, _, _, _ => by rw [runStar, runStar]
  | .mk _ (some type) name body :: rest, seen, es, around, x, h, hu, hx => by
    have hbody (g : ε) :
        (m.during (.error g)).runAll { around with handling := some (.raised g) } body =
          (m.during (.error g)).passing.runAll { around with handling := some (.raised g) } body :=
      runAll_passing (m := m.during _) hn hh body (settled_handle around rfl) hu.1
    rw [runStar, runStar]
    simp only [hbody, runStar_passing hn hh rest _ _ h hu.2 hx,
      fun e es => runStar_passing hn hh rest (.error e) es h hu.2 (x := .raised e) rfl]
    rfl

theorem runCases_passing {m : Machine σ ν ε} (hn : m.native = false) (hh : m.holders = []) :
    ∀ (cases : List MatchCase) (v : ν) {around : Around ν ε},
    around.Settled → UncaughtCases m.host around.targets cases →
    m.runCases around v cases = m.passing.runCases around v cases
  | [], _, _, _, _ => by rw [runCases, runCases]
  | .mk pattern guard body :: rest, v, around, h, hu => by
    rw [runCases, runCases, runAll_passing hn hh body h hu.1, runCases_passing hn hh rest v h hu.2]
    rfl

end

end Machine

end LoopEscape.Crossing
