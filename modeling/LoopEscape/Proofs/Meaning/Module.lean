import LoopEscape.Proofs.Meaning.Source
import LoopEscape.Proofs.Meaning.Lower
import LoopEscape.Proofs.Compile.Closed

/-!
# What a lowered module defines

Lowering puts the definitions of its holders behind the import of the support module.  Loading these
definitions one after the other numbers the labels, so that code of the module knows every holder, and
no two holders stand for one label.
-/

namespace LoopEscape

open Generate Lower Step

variable {functions module : List Stmt} {imported : Bool}

variable {σ ε : Type}

/-! ### Loading holders -/

structure Globals.Numbers (g : Globals) (made : List String) : Prop where
  label : ∀ h ∈ made, ∃ l, g.labels h = some l
  below : ∀ h l, g.labels h = some l → h ∈ made ∧ l.number < g.count
  apart : ∀ h h' l l', g.labels h = some l → g.labels h' = some l' → l.number = l'.number → h = h'

namespace Globals

variable {g : Globals} {made : List String}

theorem numbers_empty (support : Bool) : Numbers { support } [] :=
  ⟨fun _ h => absurd h (by simp), fun _ _ h => (nomatch h), fun _ _ _ _ h => (nomatch h)⟩

theorem Numbers.addLabel (h : g.Numbers made) (holder text : String) :
    (g.addLabel holder text).Numbers (made ++ [holder]) := by
  have hlabel : ∀ x, (g.addLabel holder text).labels x =
      if x = holder then some ⟨g.count, text⟩ else g.labels x := fun _ => rfl
  refine ⟨fun x hx => ?_, fun x l hx => ?_, fun x y l l' hx hy hl => ?_⟩
  · rw [hlabel]
    split
    · exact ⟨_, rfl⟩
    · next hne => exact h.label x ((List.mem_append.1 hx).resolve_right (by simpa using hne))
  · rw [hlabel] at hx
    show x ∈ made ++ [holder] ∧ l.number < g.count + 1
    split at hx
    · next heq => cases hx; exact ⟨by simp [heq], by simp⟩
    · obtain ⟨hmem, hlt⟩ := h.below x l hx
      exact ⟨List.mem_append_left _ hmem, by omega⟩
  · rw [hlabel] at hx hy
    split at hx <;> split at hy
    · next hx' hy' => rw [hx', hy']
    · cases hx
      have := (h.below y l' hy).2
      simp only at hl
      omega
    · cases hy
      have := (h.below x l hx).2
      simp only at hl
      omega
    · exact h.apart x y l l' hx hy hl

theorem after_definition (hg : g.support = true) (h : Holder) :
    ∃ text, g.after h.definition = g.addLabel h.name text := by
  refine ⟨Text.ofCodes (Text.codes h.label), ?_⟩
  simp [after, Holder.definition, assign, call, Generate.support, attr, Generate.load, store, text, Literal.text,
    support?, hg]

theorem numbers_foldl (holders : List Holder) (hg : g.support = true) (h : g.Numbers made) :
    ((holders.map Holder.definition).foldl after g).support = true ∧
      ((holders.map Holder.definition).foldl after g).Numbers (made ++ holders.map Holder.name) := by
  induction holders generalizing g made with
  | nil => simpa using ⟨hg, h⟩
  | cons x rest ih =>
    obtain ⟨text, ht⟩ := after_definition hg x
    rw [List.map_cons, List.map_cons, List.append_cons, List.foldl_cons, ht]
    exact ih hg (h.addLabel x.name text)

theorem Numbers.own (h : g.Numbers made) (hm : ∀ x ∈ made, ∃ k, x = holderName k) : g.Own := by
  intro x l hx
  obtain ⟨k, rfl⟩ := hm x (h.below x l hx).1
  exact isReserved_holderName k

theorem Numbers.knows (h : g.Numbers made) (hm : ∀ x ∈ made, ∃ k, x = holderName k)
    {host : Host σ ε} (hb : host.Blind) (bound : Nat) : Machine.Knows ⟨host, g, bound⟩ made :=
  ⟨hb, h.label, fun x l hx => hm x (h.below x l hx).1, h.apart⟩

end Globals

/-! ### Modules of functions -/

/-- A module of functions, behind the import of the support module if it is there. -/
structure FunctionModule (imported : Bool) (module functions : List Stmt) : Prop where
  bodies : ∀ s ∈ functions, ∃ body, s.functionBody? = some body
  split : if imported then ∃ loc names, module = .supportImport loc names :: functions
    else module = functions

theorem foldl_after_functions (h : ∀ s ∈ functions, ∃ body, s.functionBody? = some body) (g : Globals) :
    functions.foldl Globals.after g = g := by
  induction functions with
  | nil => rfl
  | cons s rest ih =>
    obtain ⟨body, hb⟩ := h s (by simp)
    obtain ⟨_, _, _, _, _, _, rfl⟩ := functionBody?_eq hb
    exact ih fun s hs => h s (List.mem_cons_of_mem _ hs)

theorem filterMap_functionBody?_definition (holders : List Holder) :
    (holders.map Holder.definition).filterMap Stmt.functionBody? = [] := by
  induction holders with
  | nil => rfl
  | cons x rest ih =>
    rw [List.map_cons, List.filterMap_cons]
    exact ih

theorem withHolders_functions (h : FunctionModule imported module functions) (x : Holder)
    (holders : List Holder) :
    ∃ loc names, withHolders (x :: holders) module =
      .supportImport loc names :: ((x :: holders).map Holder.definition ++ functions) := by
  have hs := h.split
  simp only [withHolders, List.isEmpty_cons, Bool.false_eq_true, if_false, insertAfterImport,
    ensureImport]
  cases imported with
  | true =>
    obtain ⟨loc, names, rfl⟩ := hs
    have hp : preludeLength (.supportImport loc names :: functions) = 0 := rfl
    exact ⟨loc, names, by simp [hp]⟩
  | false =>
    obtain rfl : module = functions := hs
    cases module with
    | nil => exact ⟨_, _, rfl⟩
    | cons s rest =>
      obtain ⟨body, hb⟩ := h.bodies s (by simp)
      obtain ⟨loc, isAsync, name, params, decorators, returns, rfl⟩ := functionBody?_eq hb
      have hp : preludeLength (.function loc isAsync name params body decorators returns :: rest) = 0
        := rfl
      simp only [hp, List.drop_zero, List.take_zero, List.nil_append]
      exact ⟨_, _, rfl⟩

theorem numbers_withHolders (h : FunctionModule imported module functions) (holders : List Holder) :
    (Globals.load (withHolders holders module)).Numbers (holders.map Holder.name) ∧
      (Globals.load (withHolders holders module)).support = (imported || !holders.isEmpty) ∧
      (withHolders holders module).filterMap Stmt.functionBody? =
        functions.filterMap Stmt.functionBody? := by
  cases holders with
  | nil =>
    have hload : Globals.load module = { support := imported } ∧
        module.filterMap Stmt.functionBody? = functions.filterMap Stmt.functionBody? := by
      have hs := h.split
      cases imported with
      | true =>
        obtain ⟨loc, names, rfl⟩ := hs
        exact ⟨foldl_after_functions h.bodies _, rfl⟩
      | false =>
        obtain rfl : module = functions := hs
        exact ⟨foldl_after_functions h.bodies _, rfl⟩
    show (Globals.load module).Numbers [] ∧ (Globals.load module).support = _ ∧ _
    rw [hload.1]
    exact ⟨Globals.numbers_empty imported, by simp, hload.2⟩
  | cons x rest =>
    obtain ⟨loc, names, heq⟩ := withHolders_functions h x rest
    have hload : Globals.load (withHolders (x :: rest) module) =
        ((x :: rest).map Holder.definition).foldl Globals.after { support := true } := by
      rw [heq, Globals.load, List.foldl_cons, List.foldl_append, foldl_after_functions h.bodies]
      rfl
    obtain ⟨hsup, hnum⟩ := Globals.numbers_foldl (x :: rest) rfl (Globals.numbers_empty true)
    rw [hload]
    refine ⟨hnum, by simpa using hsup, ?_⟩
    rw [heq, List.filterMap_cons, List.filterMap_append, filterMap_functionBody?_definition]
    rfl

theorem lowerAllTo_functions {made : List String} : ∀ {functions out : List Stmt},
    (∀ s ∈ functions, ∃ body, s.functionBody? = some body) →
    Stmt.LowerAllTo made [] functions out →
    (∀ s ∈ out, ∃ body, s.functionBody? = some body) ∧
      List.Forall₂ (Stmt.LowerAllTo made []) (functions.filterMap Stmt.functionBody?)
        (out.filterMap Stmt.functionBody?)
  | [], out, _, hl => by
    obtain rfl := hl
    exact ⟨fun _ h => absurd h (by simp), .nil⟩
  | s :: rest, out, h, hl => by
    obtain ⟨s', rest', hs, hr, rfl⟩ := hl
    obtain ⟨body, hb⟩ := h s (by simp)
    obtain ⟨loc, isAsync, name, params, decorators, returns, rfl⟩ := functionBody?_eq hb
    obtain ⟨body', hbody, rfl⟩ := hs
    obtain ⟨hall, hrest⟩ := lowerAllTo_functions (fun s hs => h s (List.mem_cons_of_mem _ hs)) hr
    refine ⟨fun s hs => ?_, .cons hbody hrest⟩
    rcases List.mem_cons.1 hs with rfl | hs
    · exact ⟨body', rfl⟩
    · exact hall s hs

theorem FunctionModule.lowerAllTo {made : List String} {out : List Stmt}
    (h : FunctionModule imported module functions) (hl : Stmt.LowerAllTo made [] module out) :
    ∃ functions', FunctionModule imported out functions' ∧
      List.Forall₂ (Stmt.LowerAllTo made []) (functions.filterMap Stmt.functionBody?)
        (functions'.filterMap Stmt.functionBody?) := by
  have hs := h.split
  cases imported with
  | true =>
    obtain ⟨loc, names, rfl⟩ := hs
    obtain ⟨s', functions', hs, hr, rfl⟩ := hl
    obtain ⟨hall, hrest⟩ := lowerAllTo_functions h.bodies hr
    exact ⟨functions', ⟨hall, ⟨loc, names, by rw [hs]; rfl⟩⟩, hrest⟩
  | false =>
    obtain rfl : module = functions := hs
    obtain ⟨hall, hrest⟩ := lowerAllTo_functions h.bodies hl
    exact ⟨out, ⟨hall, rfl⟩, hrest⟩

theorem lowerLabels_functions (firstId : Nat) (h : FunctionModule imported module functions)
    (hr : Stmt.ResolveAll [] module) (hs : Stmt.EveryAll (Stmt.Spares IsHolderName) module) :
    ∃ out nextId made, lowerLabels firstId module = .ok (out, nextId) ∧
      Stmt.ClosedAll false (fun _ _ => False) out ∧
      (Globals.load out).Numbers made ∧ (imported = true → (Globals.load out).support = true) ∧
      (∀ x ∈ made, ∃ k, x = holderName k) ∧
      List.Forall₂ (Stmt.LowerAllTo made []) (functions.filterMap Stmt.functionBody?)
        (out.filterMap Stmt.functionBody?) := by
  obtain ⟨out, holders, nextId, hrun, hl, -, hmade⟩ := lowerLabels_spec firstId hr
  obtain ⟨functions', hout, hbodies⟩ := h.lowerAllTo hl
  obtain ⟨hnum, hsup, hfun⟩ := numbers_withHolders hout holders
  refine ⟨_, nextId, _, hrun, withHolders_closed (lowerAll_closed hs hl .none), hnum,
    fun hi => by rw [hsup, hi, Bool.true_or], ?_, hfun ▸ hbodies⟩
  intro x hx
  obtain ⟨holder, hmem, rfl⟩ := List.mem_map.1 hx
  exact hmade holder hmem

theorem Follows.eq_of_nil {m : Machine σ ε} {plain : Bool} {r r' : Exit ε × State σ ε}
    (h : Follows m plain [] r r') : r' = r ∧ r.1.Calm plain := by
  cases h with
  | calm hc => exact ⟨rfl, hc⟩
  | native hi ht => cases ht
  | raised hi ht => cases ht

theorem lowered_body_eq {m : Machine σ ε} {made : List String} (hk : m.Knows made) {plain : Bool}
    {body body' : List Stmt} (hl : Stmt.LowerAllTo made [] body body')
    (hd : Stmt.DraftedAll plain [jumpVariable] none body) (w : World σ) :
    Stmt.execAll m body' ⟨Frame.empty, w⟩ = Stmt.execAll m body ⟨Frame.empty, w⟩ ∧
      (Stmt.execAll m body ⟨Frame.empty, w⟩).1.Calm plain := by
  have hready : State.Ready plain [jumpVariable] [] (⟨Frame.empty, w⟩ : State σ ε) :=
    ⟨⟨by simp, rfl⟩, fun _ h => absurd h (by simp)⟩
  obtain ⟨-, hf⟩ := (lowered_simulates hk hl).suite hd (fun _ h => absurd h (by simp)) _ hready
  exact hf.eq_of_nil

end LoopEscape
