import LoopEscape.Proofs.Meaning.Calm
import LoopEscape.Proofs.Tree.Names
import LoopEscape.Proofs.Generate.Names
import LoopEscape.Proofs.Tree.Mentions

/-!
# Code without generated names

Code that mentions no generated name has none of the forms that generated code is made of.  It means
the same whatever a module defines for generated code, and whatever generated names stand for.
-/

namespace LoopEscape

open Generate Step

variable {σ ε : Type}

def Unreserved (names : List String) : Prop := ∀ x ∈ names, isReserved x = false

theorem unreserved_append {a b : List String} :
    Unreserved (a ++ b) ↔ Unreserved a ∧ Unreserved b := by
  simp only [Unreserved, List.mem_append]
  exact ⟨fun h => ⟨fun x hx => h x (.inl hx), fun x hx => h x (.inr hx)⟩,
    fun h x hx => hx.elim (h.1 x) (h.2 x)⟩

theorem unreserved_cons {x : String} {xs : List String} :
    Unreserved (x :: xs) ↔ isReserved x = false ∧ Unreserved xs := by
  simp [Unreserved]

theorem unreserved_flatMap {α : Type} {f : α → List String} {xs : List α} :
    Unreserved (xs.flatMap f) ↔ ∀ a ∈ xs, Unreserved (f a) := by
  simp only [Unreserved, List.mem_flatMap]
  exact ⟨fun h a ha x hx => h x ⟨a, ha, hx⟩, fun h x hx => hx.elim fun a ha => h a ha.1 x ha.2⟩

/-! ### Expressions -/

namespace Expr

variable {e : Expr}

theorem support?_unreserved (h : Unreserved e.names) (g : Globals) : g.support? e = none := by
  unfold Globals.support?
  split
  · rw [names_member, names_name, unreserved_cons] at h
    rw [if_neg fun hm => by rw [hm.1, isReserved_supportName] at h; exact absurd h.1 (by simp)]
  · rfl

theorem value?_unreserved (g g' : Globals) (f f' : Frame σ ε) (h : Unreserved e.names) :
    e.value? g f = e.value? g' f' := by
  have hlookup : ∀ (f : Frame σ ε) x, isReserved x = false → f.lookup x = none := fun f x hx => by
    simp [Frame.lookup, hx]
  have hname : ∀ {x : String}, Unreserved [x] → ∀ f : Frame σ ε, f.lookup x = none :=
    fun hx f => hlookup f _ (hx _ (by simp))
  fun_induction Expr.value? g f e with
  | case1 => rfl
  | case2 s x v hv | case3 s x hv | case4 s field s' x v hv | case5 s s' x v hv
  | case6 s field s' x v hv | case7 s field s' x hv =>
    have hx : Unreserved [x] := by simpa using h
    simp_all [Expr.value?, hname hx]
  | case8 s field e hne ih =>
    rw [names_member] at h
    rw [ih h, Expr.value?]
    exact fun s x hx => hne s x hx
  | case9 s func a ih =>
    rw [names_call, unreserved_append, unreserved_append] at h
    simp only [Expr.value?, support?_unreserved h.1.1, Option.bind_none]
  | case10 s func a b iha ihb =>
    rw [names_call, unreserved_append, unreserved_append] at h
    simp only [Expr.value?, support?_unreserved h.1.1, Option.bind_none]
  | case11 s e b hb ih | case12 s e hb ih =>
    rw [names_unary] at h
    have := ih h
    simp_all [Expr.value?]
  | case13 s a b hb iha ihb | case14 s a b hb iha | case15 s a b hb hb' iha =>
    simp only [names_boolOp, List.flatMap_cons, List.flatMap_nil, List.append_nil,
      unreserved_append] at h
    have := iha h.1
    simp_all [Expr.value?]
  | case16 s a b iha ihb =>
    rw [names_compare, unreserved_append] at h
    rw [iha h.1, ihb h.2, Expr.value?]
  | case17 t h1 h2 h3 h4 h5 h6 h7 h8 =>
    rw [Expr.value?] <;> assumption

theorem relayed?_unreserved (h : Unreserved e.names) : e.relayed? = none := by
  unfold relayed?
  split
  · next s func args keywords =>
    split
    · next s₁ s₂ s₃ owner s₄ task options hlast =>
      rw [if_neg]
      rintro rfl
      rw [names_call, unreserved_append, unreserved_append, unreserved_flatMap] at h
      have hl := h.1.2 _ (List.mem_of_getLast? hlast)
      rw [names_call, names_member, names_name, List.append_assoc, List.singleton_append,
        unreserved_cons, isReserved_supportName] at hl
      exact absurd hl.1 (by simp)
    · rfl
  · rfl

theorem abort?_unreserved (h : Unreserved e.names) : e.abort? = none := by
  unfold abort?
  split
  · next slot flow =>
    rw [names_yield, names_call, names_member, names_name, List.append_assoc,
      List.singleton_append, unreserved_cons] at h
    simp [h.1]
  · rfl

end Expr

/-! ### Other globals -/

def Globals.Own (g : Globals) : Prop := ∀ h l, g.labels h = some l → isReserved h = true

namespace Machine

variable (m : Machine σ ε) (g : Globals) {e : Expr}

def within : Machine σ ε := { m with globals := g }

theorem within_evaluate (h : Unreserved e.names) : (m.within g).evaluate e = m.evaluate e := by
  funext st
  have hv : (m.within g).value? st e = m.value? st e := Expr.value?_unreserved _ _ _ _ h
  simp only [evaluate, hv]
  rfl

theorem within_evaluateOption {e : Option Expr} (h : Unreserved (Expr.namesOption e)) :
    (m.within g).evaluateOption e = m.evaluateOption e := by
  cases e with
  | none => rfl
  | some e => exact m.within_evaluate g (by simpa [Expr.namesOption] using h)

theorem within_test (h : Unreserved e.names) : (m.within g).test e = m.test e := by
  funext st
  have hv : (m.within g).value? st e = m.value? st e := Expr.value?_unreserved _ _ _ _ h
  simp only [test, hv]
  rfl

theorem within_execExpr (h : Unreserved e.names) : (m.within g).execExpr e = m.execExpr e := by
  simp only [execExpr, Expr.abort?_unreserved h, m.within_evaluate g h]

theorem within_execAssign (h : Unreserved e.names) (loc : Loc) (targets : List Expr) :
    (m.within g).execAssign loc targets e = m.execAssign loc targets e := by
  unfold execAssign
  split
  · simp only [Expr.relayed?_unreserved h, m.within_evaluate g h]
    rfl
  · rfl

theorem labelClass?_unreserved (hg : m.globals.Own) (h : Unreserved e.names) :
    m.labelClass? e = none := by
  unfold labelClass?
  split
  · next s s' holder kind =>
    rw [Expr.names_member, Expr.names_name, unreserved_cons] at h
    cases hl : m.globals.labels holder with
    | none => rfl
    | some l =>
      rw [hg holder l hl] at h
      exact absurd h.1 (by simp)
  · rfl

theorem execRaise_unreserved (hg : m.globals.Own) {exc : Option Expr}
    (h : Unreserved (Expr.namesOption exc)) (loc : Loc) (cause : Option Expr) :
    m.execRaise loc exc cause = m.perform (.raise loc exc cause) := by
  unfold execRaise
  split
  · next s func args =>
    have hf : Unreserved func.names := by
      rw [Expr.namesOption, Option.toList_some, List.flatMap_singleton, Expr.names_call,
        unreserved_append, unreserved_append] at h
      exact h.1.1
    simp only [m.labelClass?_unreserved hg hf, Expr.support?_unreserved hf]
  · rfl

theorem within_execFor {iter : Expr} (h : Unreserved iter.names) (mark : LoopMark) (target : Expr)
    (body orElse : Step σ ε) :
    (m.within g).execFor mark target iter body orElse = m.execFor mark target iter body orElse := by
  simp only [execFor, Expr.support?_unreserved h]
  rfl

end Machine

mutual

theorem exec_within (m : Machine σ ε) {g : Globals} (hm : m.globals.Own) (hg : g.Own) (s : Stmt)
    (h : Unreserved s.names) : Stmt.exec (m.within g) s = Stmt.exec m s := by
  cases s with
  | function _ isAsync name params body decorators returns =>
    rw [Stmt.names, unreserved_cons] at h
    have hn : taskNames? isAsync name params decorators returns = none := by
      simp [taskNames?, h.1]
    rw [Stmt.exec, Stmt.exec, hn]
  | return_ _ value | break_ _ label value =>
    rw [Stmt.names] at h
    rw [Stmt.exec, Stmt.exec, m.within_evaluateOption g h]
  | assign loc targets value =>
    rw [Stmt.names, unreserved_append] at h
    rw [Stmt.exec, Stmt.exec, m.within_execAssign g h.2]
  | annAssign =>
    rw [Stmt.exec, Stmt.exec]
    rfl
  | for_ _ isAsync mark target iter body orElse =>
    rw [Stmt.names, unreserved_append, unreserved_append, unreserved_append] at h
    rw [Stmt.exec, Stmt.exec, execAll_within m hm hg body h.1.2, execAll_within m hm hg orElse h.2,
      m.within_execFor g h.1.1.2]
  | while_ _ mark test body orElse =>
    rw [Stmt.names, unreserved_append, unreserved_append] at h
    rw [Stmt.exec, Stmt.exec, execAll_within m hm hg body h.1.2, execAll_within m hm hg orElse h.2,
      m.within_test g h.1.1]
    rfl
  | if_ _ test body orElse =>
    rw [Stmt.names, unreserved_append, unreserved_append] at h
    rw [Stmt.exec, Stmt.exec, execAll_within m hm hg body h.1.2, execAll_within m hm hg orElse h.2,
      m.within_test g h.1.1]
  | raise loc exc cause =>
    rw [Stmt.names, unreserved_append] at h
    rw [Stmt.exec, Stmt.exec, m.execRaise_unreserved hm h.1,
      (m.within g).execRaise_unreserved hg h.1]
    rfl
  | try_ _ isStar body handlers orElse final =>
    rw [Stmt.names, unreserved_append, unreserved_append, unreserved_append] at h
    funext st
    have hh : (fun e => Handler.execAll (m.within g) e handlers) =
        fun e => Handler.execAll m e handlers :=
      funext fun e => execHandlers_within m hm hg e handlers h.1.1.2
    rw [Stmt.exec, Stmt.exec, execAll_within m hm hg body h.1.1.1,
      execAll_within m hm hg orElse h.1.2, execAll_within m hm hg final h.2, hh]
    rfl
  | expr _ e =>
    rw [Stmt.names] at h
    rw [Stmt.exec, Stmt.exec, m.within_execExpr g h]
  | callbackLoop loc header target iter body =>
    rw [Stmt.names, unreserved_append, unreserved_append, unreserved_append] at h
    rw [Stmt.exec, Stmt.exec, execPass_within m hm hg body h.2]
    rfl
  | block loc label target body =>
    rw [Stmt.names, unreserved_append] at h
    rw [Stmt.exec, Stmt.exec, execAll_within m hm hg body h.2]
    rfl
  | _ =>
    rw [Stmt.exec, Stmt.exec]
    try rfl

theorem execAll_within (m : Machine σ ε) {g : Globals} (hm : m.globals.Own) (hg : g.Own) :
    ∀ body : List Stmt, Unreserved (Stmt.namesAll body) →
      Stmt.execAll (m.within g) body = Stmt.execAll m body
  | [], _ => by rw [Stmt.execAll_nil, Stmt.execAll_nil]
  | s :: rest, h => by
    rw [Stmt.namesAll, unreserved_append] at h
    rw [Stmt.execAll_cons, Stmt.execAll_cons, exec_within m hm hg s h.1,
      execAll_within m hm hg rest h.2]

theorem execPass_within (m : Machine σ ε) {g : Globals} (hm : m.globals.Own) (hg : g.Own) :
    ∀ body : List Stmt, Unreserved (Stmt.namesAll body) →
      Stmt.execPass (m.within g) body = Stmt.execPass m body
  | [], _ => by
    funext st
    rw [Stmt.execPass, Stmt.execPass]
  | s :: rest, h => by
    rw [Stmt.namesAll, unreserved_append] at h
    funext st
    unfold Stmt.execPass
    split
    · rw [Stmt.names] at h
      rw [m.within_evaluate g h.1]
    · rw [exec_within m hm hg _ h.1, execPass_within m hm hg _ h.2]

theorem execHandlers_within (m : Machine σ ε) {g : Globals} (hm : m.globals.Own) (hg : g.Own)
    (e : Thrown ε) : ∀ hs : List Handler, Unreserved (Handler.namesAll hs) →
      Handler.execAll (m.within g) e hs = Handler.execAll m e hs
  | [], _ => by rw [Handler.execAll, Handler.execAll]
  | .mk _ type name body :: rest, h => by
    rw [Handler.namesAll, unreserved_append, unreserved_append, unreserved_append] at h
    have ht : ∀ m : Machine σ ε, m.globals.Own → type.bind m.labelClass? = none := by
      intro m hm
      cases type with
      | none => rfl
      | some t => exact m.labelClass?_unreserved hm (by simpa [Expr.namesOption] using h.1.1.2)
    rw [Handler.execAll, Handler.execAll, ht m hm, ht (m.within g) hg]

end

/-! ### The language considered -/

/-- Simple statements, conditions, loops, labelled blocks and jumps.  Plain code also has `try` without
clauses, and no callback loops; what is on its way there is not raised again.  Other code has callback
loops, each over a call and with distinct labels in its break clause, and no `try`. -/
def Stmt.Covered (plain : Bool) : Stmt → Prop
  | .for_ _ isAsync mark .. => isAsync = false ∧ mark.valueTarget = none
  | .while_ _ mark .. => mark.valueTarget = none
  | .try_ _ isStar _ handlers .. => plain = true ∧ isStar = false ∧ handlers = []
  | .callbackLoop _ header _ iter _ => plain = false ∧ (CallForm.of? iter).isSome = true ∧
      (header.escapes.map (·.label)).Nodup
  | .raise _ exc _ => plain = true → exc ≠ none
  | .function .. | .class_ .. | .with_ .. | .match_ .. | .supportImport .. => False
  | _ => True

abbrev Stmt.CoveredAll (plain : Bool) (body : List Stmt) : Prop := Stmt.EveryAll (Stmt.Covered plain) body

def Stmt.functionBody? : Stmt → Option (List Stmt)
  | .function _ _ _ _ body _ _ => some body
  | _ => none

/-- A module of functions with bodies of the language considered, without names of generated code.  Those
of holders are not mentioned in declarations or formatted texts either. -/
structure CoveredModule (plain : Bool) (module : List Stmt) : Prop where
  bodies : ∀ s ∈ module, ∃ body, s.functionBody? = some body ∧ Stmt.CoveredAll plain body
  unreserved : Unreserved (Stmt.namesAll module)
  holders : ∀ k, ¬ Stmt.Mention module (holderName k)

def runBody (host : Host σ ε) (bound : Nat) (module body : List Stmt) (w : World σ) :
    Exit ε × World σ :=
  let r := Stmt.execAll ⟨host, Globals.load module, bound⟩ body ⟨Frame.empty, w⟩
  (r.1, r.2.world)

/-- Two bodies, each in its module, do the same from every world and end in the same way, where nothing
looks at jumps that are on their way; jumps do not leave them, and they do not get stuck. -/
def SameRuns (module module' body body' : List Stmt) : Prop :=
  ∀ (σ ε : Type) (host : Host σ ε) (bound : Nat) (w : World σ), host.Blind →
    runBody host bound module' body' w = runBody host bound module body w ∧
      (runBody host bound module body w).1.Calm true

theorem Unreserved.of_mem {body : List Stmt} (h : Unreserved (Stmt.namesAll body)) {s : Stmt}
    (hs : s ∈ body) : Unreserved s.names := by
  induction body with
  | nil => exact absurd hs (by simp)
  | cons t rest ih =>
    rw [Stmt.namesAll, unreserved_append] at h
    rcases List.mem_cons.1 hs with rfl | hs
    · exact h.1
    · exact ih h.2 hs

theorem functionBody?_eq {s : Stmt} {body : List Stmt} (h : s.functionBody? = some body) :
    ∃ loc isAsync name params decorators returns,
      s = .function loc isAsync name params body decorators returns := by
  unfold Stmt.functionBody? at h
  split at h
  · cases h
    exact ⟨_, _, _, _, _, _, rfl⟩
  · cases h

theorem CoveredModule.every {plain : Bool} {module : List Stmt} (h : CoveredModule plain module)
    {P : Stmt → Prop} (hP : ∀ s : Stmt, s.Covered plain ∨ s.functionBody?.isSome = true → P s) :
    Stmt.EveryAll P module := by
  refine everyAll_iff.2 fun s hs => ?_
  obtain ⟨body, hb, hc⟩ := h.bodies s hs
  have hown := hP s (.inr (by rw [hb]; rfl))
  obtain ⟨_, _, _, _, _, _, rfl⟩ := functionBody?_eq hb
  exact ⟨hown, everyAll_mono (fun s hs => hP s (.inl hs)) hc⟩

theorem CoveredModule.mem_bodies {plain : Bool} {module : List Stmt} (h : CoveredModule plain module) {body : List Stmt}
    (hb : body ∈ module.filterMap Stmt.functionBody?) :
    Stmt.CoveredAll plain body ∧ Unreserved (Stmt.namesAll body) := by
  obtain ⟨s, hs, hsb⟩ := List.mem_filterMap.1 hb
  obtain ⟨body', hsb', hc⟩ := h.bodies s hs
  obtain rfl : body' = body := Option.some.inj (hsb'.symm.trans hsb)
  have hu := h.unreserved.of_mem hs
  obtain ⟨_, _, _, _, _, _, rfl⟩ := functionBody?_eq hsb
  rw [Stmt.names, unreserved_cons] at hu
  simp only [unreserved_append] at hu
  exact ⟨hc, hu.2.1.1.2⟩

end LoopEscape
