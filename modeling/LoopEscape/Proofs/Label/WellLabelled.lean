import LoopEscape.Proofs.Label.Fit
import Mathlib.Data.List.Forall2

/-!
# Well-labelled modules

The rules for labels, said of each statement and of what stands around it, without a checker's state.
A statement's surroundings are a path of enclosures, the innermost first.  A label names the innermost
enclosure that declares it; a function or class hides all that is outside of it, and so does a callback
loop, whose break clause speaks for labels of the code around the loop.

Main statement: resolving labels succeeds exactly for the well-labelled modules
(`resolve_ok_iff_wellLabelled`).
-/

namespace LoopEscape

variable {label : String} {e d : Enclosure} {around outer p : Surroundings} {scope : LabelScope}

/-! ### Enclosures -/

/-- What a suite of a compound statement adds to the surroundings of the statements in it. -/
inductive Enclosure
  | loop (label : Option String)
  | block (label : String)
  | callback (header : LoopHeader)
  | function
  | class_
deriving DecidableEq, Repr

/-- The enclosures of a statement, the innermost first; at the top of a module there are none. -/
abbrev Surroundings := List Enclosure

namespace Enclosure

def Declares (label : String) : Enclosure → Prop
  | loop l => l = some label
  | block l => l = label
  | callback h => h.label = some label ∨ ∃ e ∈ h.escapes, e.label = label
  | function | class_ => False

def Transparent : Enclosure → Prop
  | loop _ | block _ => True
  | callback _ | function | class_ => False

/-- A `continue` may name a loop, a callback loop, or an entry of a break clause with `loop`; of entries
with the same label the last one counts. -/
def Continues (label : String) : Enclosure → Prop
  | loop _ => True
  | callback h => h.label = some label ∨
      ∃ e, h.escapes.reverse.find? (·.label == label) = some e ∧ e.loops = true
  | block _ | function | class_ => False

end Enclosure

namespace Surroundings

/-- The innermost declaration of a label: the enclosure that makes it, and what is around that. -/
inductive Innermost (label : String) : Surroundings → Enclosure → Surroundings → Prop
  | here {e : Enclosure} {around : Surroundings} (h : e.Declares label) :
      Innermost label (e :: around) e around
  | beyond {e d : Enclosure} {around outer : Surroundings} (hd : ¬ e.Declares label)
      (ht : e.Transparent) (h : Innermost label around d outer) : Innermost label (e :: around) d outer

def Visible (p : Surroundings) (label : String) : Prop := ∃ d outer, Innermost label p d outer

def MayContinue (p : Surroundings) (label : String) : Prop :=
  ∃ d outer, Innermost label p d outer ∧ d.Continues label

/-- A label takes a value if it names a block or a callback loop, or if it is an entry of a break
clause and takes one in the code around the loop. -/
inductive TakesValue (label : String) : Surroundings → Prop
  | block {p outer : Surroundings} {l : String} (h : Innermost label p (.block l) outer) :
      TakesValue label p
  | callback {p outer : Surroundings} {h : LoopHeader} (hi : Innermost label p (.callback h) outer)
      (own : h.label = some label) : TakesValue label p
  | clause {p outer : Surroundings} {h : LoopHeader} (hi : Innermost label p (.callback h) outer)
      (own : h.label ≠ some label) (ho : TakesValue label outer) : TakesValue label p

def scopeKind : Surroundings → ScopeKind
  | [] => .module
  | .function :: _ => .function
  | .class_ :: _ => .class_
  | _ :: around => scopeKind around

/-- Whether the innermost loop of the scope is a callback loop, if the scope has a loop there. -/
def innermostLoop : Surroundings → Option Bool
  | [] => none
  | .loop _ :: _ => some false
  | .callback _ :: _ => some true
  | .block _ :: around => innermostLoop around
  | .function :: _ | .class_ :: _ => none

def inCallback : Surroundings → Bool
  | [] => false
  | .callback _ :: _ => true
  | .loop _ :: around | .block _ :: around => inCallback around
  | .function :: _ | .class_ :: _ => false

end Surroundings

/-! ### The rules -/

/-- The suites of a statement with what they add to the surroundings.  The `else` clause of a loop is
outside of the loop. -/
def Stmt.suites : Stmt → List (Option Enclosure × List Stmt)
  | .function _ _ _ _ body _ _ => [(some .function, body)]
  | .class_ _ _ _ _ body _ => [(some .class_, body)]
  | .for_ _ _ mark _ _ body orElse | .while_ _ mark _ body orElse =>
    [(some (.loop mark.label), body), (none, orElse)]
  | .if_ _ _ body orElse => [(none, body), (none, orElse)]
  | .with_ _ _ _ body => [(none, body)]
  | .match_ _ _ cases => cases.map fun | .mk _ _ body => (none, body)
  | .try_ _ _ body handlers orElse final =>
    (none, body) :: (handlers.map fun | .mk _ _ _ body => (none, body)) ++
      [(none, orElse), (none, final)]
  | .callbackLoop _ header _ _ body => [(some (.callback header.toLoopHeader), body)]
  | .block _ label _ body => [(some (.block label), body)]
  | _ => []

def Stmt.Obeys (p : Surroundings) : Stmt → Prop
  | .break_ _ (some label) value => p.Visible label ∧ (value.isSome → p.TakesValue label)
  | .break_ _ none value => ∃ callback, p.innermostLoop = some callback ∧
      (value.isSome → callback = true)
  | .continue_ _ (some label) => p.MayContinue label
  | .continue_ _ none => p.innermostLoop.isSome
  | .callbackLoop _ header _ _ _ => p.scopeKind ≠ .class_ ∧
      ∀ e ∈ header.escapes, p.Visible e.label ∧ (e.loops = true → p.MayContinue e.label)
  | .return_ _ _ => ¬ (p.inCallback = true ∧ p.scopeKind = .module)
  | _ => True

inductive Occurs : Surroundings → List Stmt → Surroundings → Stmt → Prop
  | here {p : Surroundings} {body : List Stmt} {s : Stmt} (h : s ∈ body) : Occurs p body p s
  | inside {p q : Surroundings} {body suite : List Stmt} {s t : Stmt} {e : Option Enclosure}
      (h : s ∈ body) (hs : (e, suite) ∈ s.suites) (ht : Occurs (e.toList ++ p) suite q t) :
      Occurs p body q t

def WellLabelledIn (p : Surroundings) (body : List Stmt) : Prop :=
  ∀ q s, Occurs p body q s → s.Obeys q

def WellLabelled (body : List Stmt) : Prop := WellLabelledIn [] body

theorem wellLabelledIn_iff (p : Surroundings) (body : List Stmt) :
    WellLabelledIn p body ↔ ∀ s ∈ body, s.Obeys p ∧
      ∀ suite ∈ s.suites, WellLabelledIn (suite.1.toList ++ p) suite.2 := by
  constructor
  · intro h s hs
    exact ⟨h p s (.here hs), fun suite hsuite q t ht => h q t (.inside hs hsuite ht)⟩
  · intro h q t ht
    cases ht with
    | here hs => exact (h t hs).1
    | inside hs hsuite ht => exact (h _ hs).2 _ hsuite q t ht

theorem wellLabelledIn_nil (p : Surroundings) : WellLabelledIn p [] := by
  rw [wellLabelledIn_iff]
  intro s hs
  exact absurd hs List.not_mem_nil

theorem wellLabelledIn_cons (p : Surroundings) (s : Stmt) (rest : List Stmt) :
    WellLabelledIn p (s :: rest) ↔
      (s.Obeys p ∧ ∀ suite ∈ s.suites, WellLabelledIn (suite.1.toList ++ p) suite.2) ∧
        WellLabelledIn p rest := by
  rw [wellLabelledIn_iff, wellLabelledIn_iff p rest, List.forall_mem_cons]

/-! ### The innermost declaration, one enclosure at a time -/

namespace Surroundings

theorem innermost_cons_of_declares (he : e.Declares label) :
    Innermost label (e :: around) d outer ↔ e = d ∧ around = outer := by
  constructor
  · intro h
    cases h with
    | here => exact ⟨rfl, rfl⟩
    | beyond hd => exact absurd he hd
  · rintro ⟨rfl, rfl⟩
    exact .here he

theorem innermost_cons_of_transparent (he : ¬ e.Declares label) (ht : e.Transparent) :
    Innermost label (e :: around) d outer ↔ Innermost label around d outer := by
  constructor
  · intro h
    cases h with
    | here h => exact absurd h he
    | beyond _ _ h => exact h
  · exact .beyond he ht

theorem not_innermost_cons (he : ¬ e.Declares label) (ht : ¬ e.Transparent) :
    ¬ Innermost label (e :: around) d outer := by
  intro h
  cases h with
  | here h => exact he h
  | beyond _ h => exact ht h

theorem not_innermost_nil :
    ¬ Innermost label [] d outer := nofun

theorem visible_cons_of_declares (he : e.Declares label) : Visible (e :: around) label := ⟨e, around, .here he⟩

theorem mayContinue_cons_of_declares (he : e.Declares label) :
    MayContinue (e :: around) label ↔ e.Continues label := by
  simp only [MayContinue, innermost_cons_of_declares he]
  constructor
  · rintro ⟨_, _, ⟨rfl, rfl⟩, h⟩
    exact h
  · exact fun h => ⟨e, around, ⟨rfl, rfl⟩, h⟩

theorem takesValue_cons_of_declares (he : e.Declares label) :
    TakesValue label (e :: around) ↔
      match e with
      | .block _ => True
      | .callback h => h.label = some label ∨ h.label ≠ some label ∧ TakesValue label around
      | _ => False := by
  constructor
  · intro h
    cases h with
    | block hi =>
      obtain ⟨rfl, rfl⟩ := (innermost_cons_of_declares he).1 hi
      trivial
    | callback hi own =>
      obtain ⟨rfl, rfl⟩ := (innermost_cons_of_declares he).1 hi
      exact .inl own
    | clause hi own ho =>
      obtain ⟨rfl, rfl⟩ := (innermost_cons_of_declares he).1 hi
      exact .inr ⟨own, ho⟩
  · intro h
    cases e with
    | block l => exact .block (.here he)
    | callback header =>
      rcases h with own | ⟨own, ho⟩
      · exact .callback (.here he) own
      · exact .clause (.here he) own ho
    | loop l => exact h.elim
    | function => exact h.elim
    | class_ => exact h.elim

theorem takesValue_congr {q : Surroundings}
    (h : ∀ d outer, Innermost label p d outer → Innermost label q d outer) (hp : TakesValue label p) :
    TakesValue label q := by
  cases hp with
  | block hi => exact .block (h _ _ hi)
  | callback hi own => exact .callback (h _ _ hi) own
  | clause hi own ho => exact .clause (h _ _ hi) own ho

end Surroundings

open Surroundings

/-! ### The scope of the checker -/

/-- The scope of a checker knows of its surroundings what the rules ask for. -/
structure LabelScope.Agrees (scope : LabelScope) (p : Surroundings) : Prop where
  kind : scope.kind = p.scopeKind
  innermost : scope.innermost = p.innermostLoop
  inCallback : scope.inCallback = p.inCallback
  visible : ∀ l, (scope.lookup l).isSome ↔ p.Visible l
  continues : ∀ l d, scope.lookup l = some d → (d.continues = true ↔ p.MayContinue l)
  takesValue : ∀ l d, scope.lookup l = some d → (d.takesValue = true ↔ TakesValue l p)

/-- What a declaration says of a label is right in the given surroundings. -/
structure LabelDecl.Describes (d : LabelDecl) (label : String) (p : Surroundings) : Prop where
  visible : p.Visible label
  continues : d.continues = true ↔ p.MayContinue label
  takesValue : d.takesValue = true ↔ TakesValue label p

namespace LabelScope

theorem agrees_of_bare {kind : ScopeKind} (hk : kind = p.scopeKind) (hi : p.innermostLoop = none)
    (hc : p.inCallback = false) (hv : ∀ l d outer, ¬ Innermost l p d outer) : Agrees { kind } p where
  kind := hk
  innermost := hi.symm
  inCallback := hc.symm
  visible l := by
    simp only [lookup, List.find?_nil, Option.isSome_none, Bool.false_eq_true, false_iff]
    rintro ⟨d, outer, h⟩
    exact hv l d outer h
  continues l d h := by simp [lookup] at h
  takesValue l d h := by simp [lookup] at h

theorem agrees_top : Agrees top [] :=
  agrees_of_bare rfl rfl rfl fun _ _ _ => not_innermost_nil

theorem agrees_function (p : Surroundings) : Agrees { kind := .function } (.function :: p) :=
  agrees_of_bare rfl rfl rfl fun _ _ _ h => by
    cases h with
    | here h => exact h
    | beyond _ h => exact h

theorem agrees_class (p : Surroundings) : Agrees { kind := .class_ } (.class_ :: p) :=
  agrees_of_bare rfl rfl rfl fun _ _ _ h => by
    cases h with
    | here h => exact h
    | beyond _ h => exact h

theorem Agrees.declare (h : scope.Agrees p) (d : Option LabelDecl) (ht : e.Transparent)
    (hd : ∀ l, e.Declares l ↔ ∃ decl, d = some decl ∧ decl.name = l)
    (hs : ∀ decl, d = some decl → decl.Describes decl.name (e :: p)) (l : String) :
    (((scope.declare d).lookup l).isSome ↔ Visible (e :: p) l) ∧
      ∀ decl, (scope.declare d).lookup l = some decl → decl.Describes l (e :: p) := by
  by_cases hl : e.Declares l
  · obtain ⟨decl, rfl, rfl⟩ := (hd l).1 hl
    have hdecl := hs decl rfl
    rw [lookup_declare]
    simp only [beq_self_eq_true, if_true, Option.isSome_some, true_iff, Option.some.injEq]
    refine ⟨hdecl.visible, ?_⟩
    rintro _ rfl
    exact hdecl
  · have hsame : ∀ d outer, Innermost l (e :: p) d outer ↔ Innermost l p d outer :=
      fun _ _ => innermost_cons_of_transparent hl ht
    have hlook : (scope.declare d).lookup l = scope.lookup l := by
      rw [lookup_declare]
      split
      · next decl =>
        have hne : decl.name ≠ l := fun hn => hl ((hd l).2 ⟨decl, rfl, hn⟩)
        simp [hne]
      · rfl
    have hvis : (scope.lookup l).isSome ↔ Visible (e :: p) l := by
      simp only [h.visible, Visible, hsame]
    rw [hlook]
    refine ⟨hvis, fun decl hdecl => ⟨hvis.1 (by rw [hdecl]; rfl), ?_, ?_⟩⟩
    · simp only [h.continues l decl hdecl, MayContinue, hsame]
    · rw [h.takesValue l decl hdecl]
      exact ⟨takesValue_congr fun d outer => (hsame d outer).2,
        takesValue_congr fun d outer => (hsame d outer).1⟩

theorem Agrees.enterLoop (h : scope.Agrees p) (label : Option String) :
    (scope.enterLoop label).Agrees (.loop label :: p) := by
  have key := h.declare (e := .loop label) (label.map LabelDecl.loop) trivial
    (fun l => by cases label <;> simp [Enclosure.Declares, LabelDecl.loop])
    (fun decl hdecl => by
      obtain ⟨m, rfl, rfl⟩ := Option.map_eq_some_iff.1 hdecl
      have hm : (Enclosure.loop (some m)).Declares m := rfl
      refine ⟨visible_cons_of_declares hm, ?_, ?_⟩
      · simp [LabelDecl.loop, mayContinue_cons_of_declares hm, Enclosure.Continues]
      · simp [LabelDecl.loop, takesValue_cons_of_declares hm])
  exact {
    kind := h.kind
    innermost := rfl
    inCallback := h.inCallback
    visible := fun l => (key l).1
    continues := fun l d hd => ((key l).2 d hd).continues
    takesValue := fun l d hd => ((key l).2 d hd).takesValue }

theorem Agrees.enterBlock (h : scope.Agrees p) (label : String) :
    (scope.enterBlock label).Agrees (.block label :: p) := by
  have key := h.declare (e := .block label) (some (.block label)) trivial
    (fun l => by simp [Enclosure.Declares, LabelDecl.block])
    (fun decl hdecl => by
      obtain rfl := Option.some.inj hdecl
      have hm : (Enclosure.block label).Declares label := rfl
      refine ⟨visible_cons_of_declares hm, ?_, ?_⟩
      · simp [LabelDecl.block, mayContinue_cons_of_declares hm, Enclosure.Continues]
      · simp [LabelDecl.block, takesValue_cons_of_declares hm])
  exact {
    kind := h.kind
    innermost := h.innermost
    inCallback := h.inCallback
    visible := fun l => (key l).1
    continues := fun l d hd => ((key l).2 d hd).continues
    takesValue := fun l d hd => ((key l).2 d hd).takesValue }

/-! ### Break clauses -/

theorem Agrees.enterCallback_lookup (h : scope.Agrees p) {header : LoopHeader} {ds : List LabelDecl}
    (hds : scope.escapes header.escapes = .ok ds) (l : String) :
    (((scope.enterCallback header.label ds).lookup l).isSome ↔ Visible (.callback header :: p) l) ∧
      ∀ decl, (scope.enterCallback header.label ds).lookup l = some decl →
        decl.Describes l (.callback header :: p) := by
  rw [lookup_enterCallback]
  by_cases hown : header.label = some l
  · have hm : (Enclosure.callback header).Declares l := .inl hown
    have hvis : Visible (.callback header :: p) l := visible_cons_of_declares hm
    rw [if_pos hown]
    refine ⟨by simp [hvis], ?_⟩
    intro decl hdecl
    obtain rfl := Option.some.inj hdecl
    refine ⟨hvis, ?_, ?_⟩
    · simp [LabelDecl.callback, mayContinue_cons_of_declares hm, Enclosure.Continues, hown]
    · simp [LabelDecl.callback, takesValue_cons_of_declares hm, hown]
  · rw [if_neg hown]
    have hclause := List.forall₂_reverse_iff.2 (escapes_ok_iff.1 hds)
    rcases find?_escapes hclause l with ⟨he, hd⟩ | ⟨e, d, he, hd, hel, hed⟩
    · have hno : ¬ (Enclosure.callback header).Declares l := by
        rintro (hl | ⟨e, hmem, hl⟩)
        · exact hown hl
        · have := List.find?_eq_none.1 he e (List.mem_reverse.2 hmem)
          exact this (by simp [hl])
      rw [hd]
      refine ⟨?_, by simp⟩
      simp only [Option.isSome_none, Bool.false_eq_true, false_iff]
      rintro ⟨d, outer, hi⟩
      exact not_innermost_cons hno id hi
    · have hm : (Enclosure.callback header).Declares l :=
        .inr ⟨e, List.mem_reverse.1 (List.mem_of_find?_eq_some he), hel⟩
      have hvis : Visible (.callback header :: p) l := visible_cons_of_declares hm
      obtain ⟨outer, houter, -, rfl⟩ := escape_ok_iff.1 hed
      rw [hd]
      refine ⟨by simp [hvis], ?_⟩
      intro decl hdecl
      obtain rfl := Option.some.inj hdecl
      refine ⟨hvis, ?_, ?_⟩
      · simp [mayContinue_cons_of_declares hm, Enclosure.Continues, hown, he]
      · rw [hel] at houter
        simp [takesValue_cons_of_declares hm, hown, h.takesValue l outer houter]

theorem Agrees.enterCallback (h : scope.Agrees p) {header : LoopHeader} {ds : List LabelDecl}
    (hds : scope.escapes header.escapes = .ok ds) :
    (scope.enterCallback header.label ds).Agrees (.callback header :: p) where
  kind := h.kind
  innermost := rfl
  inCallback := rfl
  visible l := (h.enterCallback_lookup hds l).1
  continues l d hd := ((h.enterCallback_lookup hds l).2 d hd).continues
  takesValue l d hd := ((h.enterCallback_lookup hds l).2 d hd).takesValue

theorem Agrees.escapes_ok_iff (h : scope.Agrees p) (es : List EscapeLabel) :
    (∃ ds, scope.escapes es = .ok ds) ↔
      ∀ e ∈ es, p.Visible e.label ∧ (e.loops = true → p.MayContinue e.label) := by
  induction es with
  | nil => simp [escapes]
  | cons e es ih =>
    rw [List.forall_mem_cons, ← ih, ← h.visible]
    simp only [LabelScope.escapes_ok_iff, List.forall₂_cons_left_iff, escape_ok_iff]
    constructor
    · rintro ⟨_, d, ds, ⟨outer, hl, hc, -⟩, hds, -⟩
      refine ⟨⟨by rw [hl]; rfl, fun he => ?_⟩, ds, hds⟩
      exact (h.continues _ _ hl).1 (hc he)
    · rintro ⟨⟨hv, hc⟩, ds, hds⟩
      obtain ⟨outer, hl⟩ := Option.isSome_iff_exists.1 hv
      exact ⟨_, _, ds, ⟨outer, hl, fun he => (h.continues _ _ hl).2 (hc he), rfl⟩, hds, rfl⟩

/-! ### Jumps -/

theorem Agrees.breakProblem_iff (h : scope.Agrees p) (loc : Loc) (label : Option String) (value : Option Expr) :
    breakProblem scope label value.isSome = none ↔ (Stmt.break_ loc label value).Obeys p := by
  cases label with
  | none =>
    simp only [breakProblem, Stmt.Obeys, h.innermost]
    cases p.innermostLoop with
    | none => simp
    | some callback => cases callback <;> cases value <;> simp
  | some l =>
    simp only [breakProblem, Stmt.Obeys, ← h.visible]
    cases hl : scope.lookup l with
    | none => simp
    | some d =>
      rw [← h.takesValue l d hl]
      cases ht : d.takesValue <;> cases value <;> simp [ht]

theorem Agrees.continueProblem_iff (h : scope.Agrees p) (loc : Loc) (label : Option String) :
    continueProblem scope label = none ↔ (Stmt.continue_ loc label).Obeys p := by
  cases label with
  | none =>
    simp only [continueProblem, Stmt.Obeys, h.innermost]
    cases p.innermostLoop <;> simp
  | some l =>
    simp only [continueProblem, Stmt.Obeys]
    cases hl : scope.lookup l with
    | none =>
      simp only [reduceCtorEq, false_iff]
      rintro ⟨d, outer, hi, -⟩
      have := (h.visible l).2 ⟨d, outer, hi⟩
      simp [hl] at this
    | some d =>
      rw [← h.continues l d hl]
      cases hc : d.continues
      · simp only [hc, Bool.false_eq_true, if_false, iff_false]
        split <;> simp
      · simp [hc]

end LabelScope

/-! ### Fitting is obeying the rules -/

mutual

theorem fits_iff_obeys {scope : LabelScope} {p : Surroundings} (h : scope.Agrees p) (s : Stmt) :
    s.Fits scope ↔ s.Obeys p ∧ ∀ suite ∈ s.suites, WellLabelledIn (suite.1.toList ++ p) suite.2 := by
  cases s with
  | function _ _ _ _ body _ _ =>
    simp only [Stmt.Fits, Stmt.Obeys, Stmt.suites, List.forall_mem_singleton, true_and,
      fitAll_iff_wellLabelledIn (LabelScope.agrees_function p) body]
    rfl
  | class_ _ _ _ _ body _ =>
    simp only [Stmt.Fits, Stmt.Obeys, Stmt.suites, List.forall_mem_singleton, true_and,
      fitAll_iff_wellLabelledIn (LabelScope.agrees_class p) body]
    rfl
  | return_ => simp [Stmt.Fits, Stmt.Obeys, Stmt.suites, h.inCallback, h.kind]
  | for_ _ _ mark _ _ body orElse | while_ _ mark _ body orElse =>
    simp only [Stmt.Fits, Stmt.Obeys, Stmt.suites, List.forall_mem_cons, List.not_mem_nil,
      false_implies, implies_true, and_true, true_and, fitAll_iff_wellLabelledIn (h.enterLoop mark.label) body,
      fitAll_iff_wellLabelledIn h orElse]
    rfl
  | if_ _ _ body orElse =>
    simp only [Stmt.Fits, Stmt.Obeys, Stmt.suites, List.forall_mem_cons, List.not_mem_nil,
      false_implies, implies_true, and_true, true_and, fitAll_iff_wellLabelledIn h body, fitAll_iff_wellLabelledIn h orElse]
    rfl
  | with_ _ _ _ body =>
    simp only [Stmt.Fits, Stmt.Obeys, Stmt.suites, List.forall_mem_singleton, true_and,
      fitAll_iff_wellLabelledIn h body]
    rfl
  | match_ _ _ cases =>
    simp only [Stmt.Fits, Stmt.Obeys, Stmt.suites, true_and, fitAll_iff_cases h cases]
  | try_ _ _ body handlers orElse final =>
    simp only [Stmt.Fits, Stmt.Obeys, Stmt.suites, List.cons_append, List.forall_mem_cons,
      List.forall_mem_append, List.not_mem_nil, false_implies, implies_true, and_true, true_and,
      fitAll_iff_wellLabelledIn h body, fitAll_iff_handlers h handlers,
      fitAll_iff_wellLabelledIn h orElse, fitAll_iff_wellLabelledIn h final]
    rfl
  | break_ loc label value =>
    simp only [Stmt.Fits, h.breakProblem_iff loc, Stmt.suites, List.not_mem_nil, false_implies,
      implies_true, and_true]
  | continue_ loc label =>
    simp only [Stmt.Fits, h.continueProblem_iff loc, Stmt.suites, List.not_mem_nil, false_implies,
      implies_true, and_true]
  | callbackLoop loc header _ _ body =>
    simp only [Stmt.Fits, Stmt.Obeys, Stmt.suites, List.forall_mem_singleton, h.kind, and_assoc,
      ← h.escapes_ok_iff]
    refine and_congr_right fun _ => ?_
    constructor
    · rintro ⟨ds, hds, hbody⟩
      exact ⟨⟨ds, hds⟩, (fitAll_iff_wellLabelledIn (h.enterCallback hds) body).1 hbody⟩
    · rintro ⟨⟨ds, hds⟩, hbody⟩
      exact ⟨ds, hds, (fitAll_iff_wellLabelledIn (h.enterCallback hds) body).2 hbody⟩
  | block _ label _ body =>
    simp only [Stmt.Fits, Stmt.Obeys, Stmt.suites, List.forall_mem_singleton, true_and,
      fitAll_iff_wellLabelledIn (h.enterBlock label) body]
    rfl
  | _ =>
    simp [Stmt.Fits, Stmt.Obeys, Stmt.suites]

theorem fitAll_iff_wellLabelledIn {scope : LabelScope} {p : Surroundings} (h : scope.Agrees p) :
    ∀ body : List Stmt, Stmt.FitAll scope body ↔ WellLabelledIn p body
  | [] => by simp [Stmt.FitAll, wellLabelledIn_nil]
  | s :: rest => by
    rw [wellLabelledIn_cons, Stmt.FitAll, fits_iff_obeys h s, fitAll_iff_wellLabelledIn h rest]

theorem fitAll_iff_handlers {scope : LabelScope} {p : Surroundings} (h : scope.Agrees p) :
    ∀ hs : List Handler, Handler.FitAll scope hs ↔
      ∀ suite ∈ hs.map (fun | .mk _ _ _ body => ((none : Option Enclosure), body)),
        WellLabelledIn (suite.1.toList ++ p) suite.2
  | [] => by simp [Handler.FitAll]
  | .mk _ _ _ body :: rest => by
    rw [List.map_cons, List.forall_mem_cons, Handler.FitAll, fitAll_iff_wellLabelledIn h body,
      fitAll_iff_handlers h rest]
    rfl

theorem fitAll_iff_cases {scope : LabelScope} {p : Surroundings} (h : scope.Agrees p) :
    ∀ cs : List MatchCase, MatchCase.FitAll scope cs ↔
      ∀ suite ∈ cs.map (fun | .mk _ _ body => ((none : Option Enclosure), body)),
        WellLabelledIn (suite.1.toList ++ p) suite.2
  | [] => by simp [MatchCase.FitAll]
  | .mk _ _ body :: rest => by
    rw [List.map_cons, List.forall_mem_cons, MatchCase.FitAll, fitAll_iff_wellLabelledIn h body,
      fitAll_iff_cases h rest]
    rfl

end

/-! ### Modules -/

theorem WarningLog.issueAll_raises_none (d : Display) (log : WarningLog) (h : log.policy ≠ .error)
    (ws : List Report) : (log.issueAll d ws).2 = none := by
  induction ws generalizing log with
  | nil => rfl
  | cons w ws ih =>
    cases hp : log.policy with
    | error => exact absurd hp h
    | always =>
      simp only [issueAll, issue, hp]
      exact ih _ (by simp)
    | once =>
      simp only [issueAll, issue, hp]
      split
      · next hi => split at hi <;> cases hi
      · next hi =>
        split at hi <;> cases hi
        · exact ih _ h
        · exact ih _ (by simp)
    | never =>
      simp only [issueAll, issue, hp]
      exact ih _ h

/-- Unless warnings are raised, resolving the labels of a module succeeds exactly when every statement
of it obeys the rules. -/
theorem resolve_ok_iff_wellLabelled (d : Display) (log : WarningLog) (source : Source)
    (body : List Stmt) (h : log.policy ≠ .error) :
    (∃ resolved, (source.resolve d log body).2 = .ok resolved) ↔ WellLabelled body := by
  have hfaults : (checkLabels body).faults = [] ↔ WellLabelled body := by
    rw [checkLabels, checkEach_faults_iff]
    exact fitAll_iff_wellLabelledIn LabelScope.agrees_top body
  have hraised := WarningLog.issueAll_raises_none d log h
    ((checkLabels body).unused.map (·.report source))
  rw [← hfaults]
  unfold Source.resolve
  simp only [hraised, Option.none_or]
  cases hc : Report.combine d ((checkLabels body).faults.map (·.report source)) with
  | none =>
    have hnil := (Report.combine_eq_none_iff d _).1 hc
    simpa using hnil
  | some r =>
    have hne : (checkLabels body).faults ≠ [] := by
      intro hnil
      simp [hnil, Report.combine] at hc
    simpa using hne

/-- A callback loop in a loop, whose body continues the outer loop from a block inside. -/
def continuedFromCallback : List Stmt :=
  let name (id : String) : Expr := .name default id .load
  let header : LoopHeader := ⟨none, [⟨"rows", true, ⟨2, 40⟩⟩], none⟩
  [.for_ default false { label := some "rows" } (name "row") (name "grid")
    [.callbackLoop default { toLoopHeader := header } (name "x") (.call default (name "each") [] [])
      [.block default "cell" none
        [.if_ default (name "x") [.continue_ default (some "rows")] [.break_ default (some "cell") none]]]]
    []]

theorem wellLabelled_continuedFromCallback :
    ({} : WarningLog).policy ≠ .error ∧ WellLabelled continuedFromCallback :=
  ⟨by decide, (resolve_ok_iff_wellLabelled {} {} ⟨"", none⟩ continuedFromCallback (by decide)).1
    ⟨_, rfl⟩⟩

end LoopEscape
