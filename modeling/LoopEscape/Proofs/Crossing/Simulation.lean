import LoopEscape.Proofs.Crossing.Reading
import LoopEscape.Proofs.Lower.Closed

/-!
# Steps that follow each other

A step of lowered code follows a step of the source when it makes the same requests and ends the same
way, with an exception of the target's holder for a far jump (`Follows`).  All that steps are composed of
keeps this: requests, sequences, loops, `with` statements and the parts of a `try`.
-/

namespace LoopEscape.Crossing

open Generate Lower Step

variable {σ ν ε : Type} {ts : List JumpTarget}

/-! ### Exits that follow each other -/

def Exit.Plain : Exit ν ε → Prop
  | .far .. | .thrown .. => False
  | _ => True

/-- How lowered code ends where the source ends in a given way, between the given targets. -/
inductive Follows (ts : List JumpTarget) : Exit ν ε → Exit ν ε → Prop
  | plain {x : Exit ν ε} (h : x.Plain) : Follows ts x x
  | jump {i : Nat} {t : JumpTarget} {h : String} {kind : JumpKind} {v : ν} (ht : ts[i]? = some t)
      (hr : t.raises kind = true) (hh : t.holder = some h) :
      Follows ts (.far i kind v) (.thrown h kind v)

namespace Follows

variable {x x' : Exit ν ε}

theorem seen?_eq (h : Follows ts x x') : x'.seen? = x.seen? := by cases h <;> rfl

theorem value?_eq (h : Follows ts x x') : x'.value? = x.value? := by cases h <;> rfl

theorem deeper (h : Follows ts x x') (t : JumpTarget) : Follows (t :: ts) x.deeper x' := by
  cases h with
  | plain h => cases x <;> first | exact h.elim | exact .plain h
  | jump ht hr hh => exact .jump (by simpa using ht) hr hh

theorem deeper_eq (h : Follows ts x x') : x'.deeper = x' := by
  cases h with
  | plain h => cases x <;> first | exact h.elim | rfl
  | jump => rfl

theorem of_nil (h : Follows [] x x') : x' = x ∧ x.Plain := by
  cases h with
  | plain h => exact ⟨rfl, h⟩
  | jump ht => simp at ht

end Follows

inductive Leads (ts : List JumpTarget) : Exit ν ε × σ → Exit ν ε × σ → Prop
  | intro {x x' : Exit ν ε} (h : Follows ts x x') (s : σ) : Leads ts (x, s) (x', s)

theorem Leads.plain {x : Exit ν ε} (h : x.Plain) (s : σ) : Leads ts (x, s) (x, s) :=
  .intro (.plain h) s

def Simulates (ts : List JumpTarget) (a a' : Step σ ν ε) : Prop := ∀ s, Leads ts (a s) (a' s)

namespace Simulates

variable {a a' b b' : Step σ ν ε}

theorem exit {x x' : Exit ν ε} (h : Follows ts x x') :
    Simulates ts (exit x : Step σ ν ε) (exit x') := fun s => .intro h s

theorem done : Simulates ts (done : Step σ ν ε) done := .exit (.plain trivial)

theorem andThen (h : Simulates ts a a') (hb : Simulates ts b b') :
    Simulates ts (a.andThen b) (a'.andThen b') := by
  intro s
  have hs := h s
  unfold Step.andThen
  generalize a s = r at hs ⊢
  generalize a' s = r' at hs ⊢
  obtain @⟨x, x', hx, s⟩ := hs
  cases hx with
  | plain hx =>
    cases x with
    | normal => exact hb s
    | far => exact hx.elim
    | thrown => exact hx.elim
    | _ => exact .plain hx s
  | jump ht hr hh => exact .intro (.jump ht hr hh) s

theorem of_nil (h : Simulates [] a a') : Simulates ts a a' := by
  intro s
  have hs := h s
  generalize a s = r at hs ⊢
  generalize a' s = r' at hs ⊢
  obtain @⟨x, x', hx, s⟩ := hs
  obtain ⟨rfl, hp⟩ := hx.of_nil
  exact .plain hp s

end Simulates

/-! ### Loops, blocks and parts of statements -/

section

variable {body body' again again' orElse orElse' : Step σ ν ε} {receive receive' : ν → Step σ ν ε}

def PassSimulates (ts : List JumpTarget) (receive receive' : ν → Step σ ν ε)
    (body body' : Step σ ν ε) : Prop :=
  ∀ again again', Simulates ts again again' → ∀ s,
    Leads ts (Machine.afterPass receive again (body s)) (Machine.afterPass receive' again' (body' s))

theorem loop_simulates {head head' : (Bool → Step σ ν ε) → Step σ ν ε}
    (hh : ∀ f f', (∀ b, Simulates ts (f b) (f' b)) → Simulates ts (head f) (head' f'))
    (hp : PassSimulates ts receive receive' body body') (ho : Simulates ts orElse orElse') (n : Nat) :
    Simulates ts (Machine.loop head receive body orElse n)
      (Machine.loop head' receive' body' orElse' n) := by
  induction n with
  | zero => exact .exit (.plain trivial)
  | succ n ih =>
    refine hh _ _ fun b => ?_
    cases b with
    | true => exact hp _ _ ih
    | false => exact ho

theorem finallyDo_leads {final final' : Exit ν ε → Step σ ν ε}
    (hf : ∀ x x', Follows ts x x' → Simulates ts (final x) (final' x'))
    {r r' : Exit ν ε × σ} (h : Leads ts r r') :
    Leads ts (Machine.finallyDo final r) (Machine.finallyDo final' r') := by
  obtain @⟨x, x', hx, s⟩ := h
  cases hx with
  | plain hx =>
    cases x with
    | far => exact hx.elim
    | thrown => exact hx.elim
    | stuck => exact .plain hx s
    | exhausted => exact .plain hx s
    | _ => exact (hf _ _ (.plain hx)).andThen (.exit (.plain hx)) s
  | jump ht hr hh => exact (hf _ _ (.jump ht hr hh)).andThen (.exit (.jump ht hr hh)) s

theorem afterStar_leads {next next' : List ε → Step σ ν ε}
    (hn : ∀ es, Simulates ts (next es) (next' es)) {r r' : Exit ν ε × σ} (h : Leads ts r r') :
    Leads ts (Machine.afterStar next r) (Machine.afterStar next' r') := by
  obtain @⟨x, x', hx, s⟩ := h
  cases hx with
  | plain hx =>
    cases x with
    | normal => exact hn [] s
    | raised e => exact hn [e] s
    | far => exact hx.elim
    | thrown => exact hx.elim
    | exhausted => exact .plain hx s
    | _ => exact .plain (x := .stuck) trivial s
  | jump => exact .plain (x := .stuck) trivial s

end

/-! ### Machines -/

namespace Machine

/-- A machine for the source and one for lowered code, with the same host.  The source knows of no
holders. -/
structure Pairs (made : List String) (m m' : Machine σ ν ε) : Prop where
  host : m'.host = m.host
  noValue : m'.noValue = m.noValue
  bound : m'.bound = m.bound
  unknown : m.holders = []
  known : m'.holders = made
  shown : m.native = false ∧ m'.native = false
  handled : m'.handled = m.handled
  names : ∀ x ∈ made, IsHolderName x

variable {m m' : Machine σ ν ε} {made : List String} (hm : Pairs made m m')

include hm

theorem Pairs.during (seen : Seen ν ε) : Pairs made (m.during seen) (m'.during seen) :=
  { hm with handled := rfl }

theorem ask_simulates {q : Request ν ε} {f f' : q.Answer → Step σ ν ε}
    (h : ∀ a, Simulates ts (f a) (f' a)) : Simulates ts (m.ask q f) (m'.ask q f') := by
  intro s
  unfold ask
  rw [hm.host, hm.handled]
  rcases m.host m.handled q s with ⟨s', e | a⟩
  · exact .plain (x := .raised e) trivial s'
  · exact h a s'

theorem perform_simulates (stmt : Stmt) : Simulates ts (m.perform stmt) (m'.perform stmt) :=
  ask_simulates hm fun _ => .done

theorem bind_simulates (loc : Loc) (name : Option String) (v : ν) :
    Simulates ts (m.bind loc name v) (m'.bind loc name v) := by
  cases name with
  | none => exact .done
  | some x => exact ask_simulates hm fun _ => .done

theorem advance_simulates (isAsync : Bool) (it : ν) (target : Expr) {f f' : Bool → Step σ ν ε}
    (h : ∀ b, Simulates ts (f b) (f' b)) :
    Simulates ts (m.advance isAsync it target f) (m'.advance isAsync it target f') := by
  refine ask_simulates hm fun a => ?_
  cases a with
  | none => exact h false
  | some v => exact ask_simulates hm fun _ => h true

theorem guarded_simulates (guard : Option Expr) {body body' rest rest' : Step σ ν ε}
    (hb : Simulates ts body body') (hr : Simulates ts rest rest') :
    Simulates ts (m.guarded guard body rest) (m'.guarded guard body' rest') := by
  cases guard with
  | none => exact hb
  | some g =>
    refine ask_simulates hm fun b => ?_
    cases b with
    | true => exact hb
    | false => exact hr

theorem afterWith_leads (isAsync : Bool) (manager : ν) {r r' : Exit ν ε × σ} (h : Leads ts r r') :
    Leads ts (m.afterWith isAsync manager r) (m'.afterWith isAsync manager r') := by
  obtain @⟨x, x', hx, s⟩ := h
  have hleave : ∀ {x x' : Exit ν ε}, Follows ts x x' → Simulates ts
      (m.ask (.leave isAsync manager x.seen?)
        (fun handled => if handled && x.seen?.isSome then Step.done else Step.exit x))
      (m'.ask (.leave isAsync manager x'.seen?)
        (fun handled => if handled && x'.seen?.isSome then Step.done else Step.exit x')) := by
    intro x x' hx
    rw [hx.seen?_eq]
    refine ask_simulates hm fun handled => ?_
    split
    · exact .done
    · exact .exit hx
  cases hx with
  | plain hx =>
    cases x with
    | far => exact hx.elim
    | thrown => exact hx.elim
    | stuck => exact .plain hx s
    | exhausted => exact .plain hx s
    | _ => exact hleave (.plain hx) s
  | jump ht hr hh => exact hleave (.jump ht hr hh) s

theorem within_simulates (isAsync : Bool) {body body' : Step σ ν ε} (h : Simulates ts body body')
    (items : List WithItem) :
    Simulates ts (m.within isAsync body items) (m'.within isAsync body' items) := by
  induction items with
  | nil => exact h
  | cons item rest ih =>
    refine ask_simulates hm fun manager s => afterWith_leads hm isAsync manager ?_
    exact ask_simulates hm (fun _ => ih) s

theorem shown?_eq {x x' : Exit ν ε} (hx : Follows ts x x') : m'.shown? x' = m.shown? x := by
  simp only [shown?, hm.shown.1, hm.shown.2, Bool.false_and, Bool.false_eq_true, if_false]
  exact hx.seen?_eq

theorem afterBody_leads {handle handle' : Exit ν ε → Seen ν ε → Step σ ν ε}
    {orElse orElse' : Step σ ν ε}
    (hh : ∀ x x' seen, Follows ts x x' → Simulates ts (handle x seen) (handle' x' seen))
    (ho : Simulates ts orElse orElse') {r r' : Exit ν ε × σ} (h : Leads ts r r') :
    Leads ts (m.afterBody handle orElse r) (m'.afterBody handle' orElse' r') := by
  obtain @⟨x, x', hx, s⟩ := h
  have hhandle : ∀ {x x' : Exit ν ε}, Follows ts x x' → x ≠ .normal → x' ≠ .normal →
      Leads ts (m.afterBody handle orElse (x, s)) (m'.afterBody handle' orElse' (x', s)) := by
    intro x x' hx hne hne'
    rw [m.afterBody_eq hne, m'.afterBody_eq hne', shown?_eq hm hx]
    cases m.shown? x with
    | none => exact .intro hx s
    | some seen => exact hh _ _ _ hx s
  cases hx with
  | plain hx =>
    cases x with
    | normal => exact ho s
    | far => exact hx.elim
    | thrown => exact hx.elim
    | _ => exact hhandle (.plain hx) (by simp) (by simp)
  | jump ht hr hh => exact hhandle (.jump ht hr hh) (by simp) (by simp)

theorem named_simulates (name : Option String) (seen : Seen ν ε) {body body' : Step σ ν ε}
    (h : Simulates ts body body') :
    Simulates ts (m.named name seen body) (m'.named name seen body') := by
  unfold named
  cases name with
  | none => exact h
  | some n =>
    simp only
    split
    · exact h
    · refine ask_simulates hm fun _ s => ?_
      have hs := h s
      generalize body s = r at hs ⊢
      generalize body' s = r' at hs ⊢
      obtain @⟨x, x', hx, s⟩ := hs
      rw [hm.host, hm.handled]
      exact .intro hx _

theorem endStar_simulates (es : List ε) {x x' : Option (Exit ν ε)}
    (h : Option.Rel (Follows ts) x x') : Simulates ts (m.endStar es x) (m'.endStar es x') := by
  cases h with
  | none =>
    cases es with
    | nil => exact .done
    | cons => exact ask_simulates hm fun _ => .exit (.plain trivial)
  | @some x x' hx =>
    cases es with
    | nil => exact .exit hx
    | cons =>
      cases hx with
      | plain hx =>
        cases x with
        | raised => exact ask_simulates hm fun _ => .exit (.plain trivial)
        | far => exact hx.elim
        | thrown => exact hx.elim
        | _ => exact .exit (.plain trivial)
      | jump => exact .exit (.plain trivial)

end Machine

end LoopEscape.Crossing
