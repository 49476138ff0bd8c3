import LoopEscape.Proofs.Label.WellLabelled
import LoopEscape.Proofs.Tree.Parts

/-!
# Labels that a break clause could do without

A label of a break clause is unused when no jump in the loop's body reaches the clause with it.  Such a
label can be taken out of the clause, unless a callback loop inside has it in a break clause of its own:
the clause inside then stands for the one outside, whether or not a jump is made with it.

Main statement: the warnings of a module are those of its loops, and a label can be taken out of a clause
exactly when the clause is warned of it and no clause inside stands for it
(`unusedLabel_iff_deletable`).
-/

namespace LoopEscape

open Surroundings

variable {s s' : Stmt} {p : Surroundings} {body body' : List Stmt}

/-! ### Induction over suites -/

theorem body_of_suite {u : Option Enclosure × List Stmt} (h : u ∈ s.suites) : u.2 ∈ s.bodies := by
  have hbodies : s.suites.map (·.2) = s.bodies := by
    cases s with
    | match_ | try_ =>
      simp only [Stmt.suites, Stmt.bodies, List.map_append, List.map_cons, List.map_map]
      congr
      funext c
      cases c
      rfl
    | _ => rfl
  exact hbodies ▸ List.mem_map_of_mem h

theorem suites_induction {motive : List Stmt → Prop}
    (h : ∀ body, (∀ s ∈ body, ∀ u ∈ s.suites, motive u.2) → motive body) (body : List Stmt) :
    motive body :=
  Stmt.bodies_induction (fun body ih => h body fun s hs _ hu => ih s hs _ (body_of_suite hu)) body

/-! ### Replacing a statement -/

/-- The suite `a` of a statement is replaced by `b`.  The enclosure is what the suite adds to the
surroundings. -/
inductive Stmt.Alters (a b : List Stmt) : Option Enclosure → Stmt → Stmt → Prop
  | function (loc isAsync name params decorators returns) : Alters a b (some .function)
      (.function loc isAsync name params a decorators returns)
      (.function loc isAsync name params b decorators returns)
  | class_ (loc name bases keywords decorators) : Alters a b (some .class_)
      (.class_ loc name bases keywords a decorators) (.class_ loc name bases keywords b decorators)
  | forBody (loc isAsync mark target iter orElse) : Alters a b (some (.loop mark.label))
      (.for_ loc isAsync mark target iter a orElse) (.for_ loc isAsync mark target iter b orElse)
  | forElse (loc isAsync mark target iter body) : Alters a b none
      (.for_ loc isAsync mark target iter body a) (.for_ loc isAsync mark target iter body b)
  | whileBody (loc mark test orElse) : Alters a b (some (.loop mark.label))
      (.while_ loc mark test a orElse) (.while_ loc mark test b orElse)
  | whileElse (loc mark test body) : Alters a b none
      (.while_ loc mark test body a) (.while_ loc mark test body b)
  | ifBody (loc test orElse) : Alters a b none (.if_ loc test a orElse) (.if_ loc test b orElse)
  | ifElse (loc test body) : Alters a b none (.if_ loc test body a) (.if_ loc test body b)
  | with_ (loc isAsync items) : Alters a b none (.with_ loc isAsync items a) (.with_ loc isAsync items b)
  | case (loc subject before pattern guard after) : Alters a b none
      (.match_ loc subject (before ++ .mk pattern guard a :: after))
      (.match_ loc subject (before ++ .mk pattern guard b :: after))
  | tryBody (loc isStar handlers orElse final) : Alters a b none
      (.try_ loc isStar a handlers orElse final) (.try_ loc isStar b handlers orElse final)
  | handler (loc isStar body before hloc type name after orElse final) : Alters a b none
      (.try_ loc isStar body (before ++ .mk hloc type name a :: after) orElse final)
      (.try_ loc isStar body (before ++ .mk hloc type name b :: after) orElse final)
  | tryElse (loc isStar body handlers final) : Alters a b none
      (.try_ loc isStar body handlers a final) (.try_ loc isStar body handlers b final)
  | tryFinal (loc isStar body handlers orElse) : Alters a b none
      (.try_ loc isStar body handlers orElse a) (.try_ loc isStar body handlers orElse b)
  | callback (loc header target iter) : Alters a b (some (.callback header.toLoopHeader))
      (.callbackLoop loc header target iter a) (.callbackLoop loc header target iter b)
  | block (loc label target) : Alters a b (some (.block label))
      (.block loc label target a) (.block loc label target b)

/-- The statement `s`, somewhere in a body and there in the surroundings given last, is replaced by
`s'`. -/
inductive Replaces (s s' : Stmt) : Surroundings → List Stmt → List Stmt → Surroundings → Prop
  | here (p : Surroundings) (before after : List Stmt) :
      Replaces s s' p (before ++ s :: after) (before ++ s' :: after) p
  | inside {p q : Surroundings} {a b : List Stmt} {e : Option Enclosure} {t t' : Stmt}
      (before after : List Stmt) (ht : t.Alters a b e t') (h : Replaces s s' (e.toList ++ p) a b q) :
      Replaces s s' p (before ++ t :: after) (before ++ t' :: after) q

def Handler.suite : Handler → Option Enclosure × List Stmt
  | .mk _ _ _ body => (none, body)

namespace Stmt.Alters

variable {a b : List Stmt} {e : Option Enclosure} {t t' : Stmt}

theorem obeys_iff (h : t.Alters a b e t') (p : Surroundings) : t'.Obeys p ↔ t.Obeys p := by
  cases h <;> exact Iff.rfl

theorem suites (h : t.Alters a b e t') :
    ∃ pre post, t.suites = pre ++ (e, a) :: post ∧ t'.suites = pre ++ (e, b) :: post := by
  cases h with
  | forElse | whileElse | ifElse => exact ⟨[_], [], rfl, rfl⟩
  | case loc subject before pattern guard after =>
    exact ⟨before.map _, after.map _, by rw [Stmt.suites, List.map_append, List.map_cons],
      by rw [Stmt.suites, List.map_append, List.map_cons]⟩
  | handler loc isStar body before hloc type name after orElse final =>
    have hsplit : ∀ c, (Stmt.try_ loc isStar body (before ++ .mk hloc type name c :: after) orElse
        final).suites = (none, body) :: before.map Handler.suite ++ (none, c) ::
          (after.map Handler.suite ++ [(none, orElse), (none, final)]) := fun c => by
      show (none, body) :: (before ++ .mk hloc type name c :: after).map Handler.suite ++ _ = _
      simp [Handler.suite]
    exact ⟨_, _, hsplit a, hsplit b⟩
  | tryElse loc isStar body handlers final =>
    exact ⟨(none, body) :: handlers.map _, [(none, final)], rfl, rfl⟩
  | tryFinal loc isStar body handlers orElse =>
    have hsplit : ∀ c, (Stmt.try_ loc isStar body handlers orElse c).suites =
        (none, body) :: handlers.map Handler.suite ++ [(none, orElse)] ++ [(none, c)] := fun c => by
      show (none, body) :: handlers.map Handler.suite ++ _ = _
      simp
    exact ⟨_, _, hsplit a, hsplit b⟩
  | _ => exact ⟨[], _, rfl, rfl⟩

end Stmt.Alters

theorem wellLabelledIn_append {a b : List Stmt} :
    WellLabelledIn p (a ++ b) ↔ WellLabelledIn p a ∧ WellLabelledIn p b := by
  rw [wellLabelledIn_iff, wellLabelledIn_iff p a, wellLabelledIn_iff p b, List.forall_mem_append]

theorem Replaces.wellLabelledIn_iff {q : Surroundings} (h : Replaces s s' p body body' q)
    (hb : WellLabelledIn p body) :
    WellLabelledIn p body' ↔ WellLabelledIn q [s'] := by
  induction h with
  | here p before after =>
    rw [wellLabelledIn_append, wellLabelledIn_cons] at hb
    rw [wellLabelledIn_append, wellLabelledIn_cons, wellLabelledIn_cons p s' []]
    simp only [hb.1, hb.2.2, wellLabelledIn_nil, true_and]
  | @inside p q a b e t t' before after ht _ ih =>
    rw [wellLabelledIn_append, wellLabelledIn_cons] at hb
    rw [wellLabelledIn_append, wellLabelledIn_cons, ht.obeys_iff]
    obtain ⟨pre, post, hold, hnew⟩ := ht.suites
    rw [hold, List.forall_mem_append, List.forall_mem_cons] at hb
    obtain ⟨hbefore, ⟨hobeys, hpre, ha, hpost⟩, hafter⟩ := hb
    rw [hnew, List.forall_mem_append, List.forall_mem_cons, ← ih ha]
    exact ⟨fun h => h.2.1.2.2.1, fun h => ⟨hbefore, ⟨hobeys, hpre, h, hpost⟩, hafter⟩⟩

theorem Replaces.wellLabelledIn_old {q : Surroundings} (h : Replaces s s' p body body' q)
    (hb : WellLabelledIn p body) : WellLabelledIn q [s] := by
  induction h with
  | here p before after =>
    rw [wellLabelledIn_append, wellLabelledIn_cons] at hb
    exact (wellLabelledIn_cons p s []).2 ⟨hb.2.1, wellLabelledIn_nil p⟩
  | @inside p q a b e t t' before after ht _ ih =>
    rw [wellLabelledIn_append, wellLabelledIn_cons] at hb
    obtain ⟨pre, post, hold, -⟩ := ht.suites
    exact ih (hb.2.1.2 (e, a) (by rw [hold]; simp))

/-! ### Checks of code that fits -/

def LabelScope.enter (scope : LabelScope) : Enclosure → LabelScope
  | .loop label => scope.enterLoop label
  | .block label => scope.enterBlock label
  | .callback header => scope.enterHeader { toLoopHeader := header }
  | .function => { kind := .function }
  | .class_ => { kind := .class_ }

def LabelScope.inside (scope : LabelScope) (e : Option Enclosure) : LabelScope :=
  e.elim scope scope.enter

def Surroundings.scope : Surroundings → LabelScope
  | [] => LabelScope.top
  | e :: around => (scope around).enter e

theorem Surroundings.scope_append (e : Option Enclosure) (p : Surroundings) :
    Surroundings.scope (e.toList ++ p) = p.scope.inside e := by
  cases e <;> rfl

def Enclosure.Passes (label : String) (e : Enclosure) : Prop := e.Transparent ∧ ¬ e.Declares label

def Stmt.jumpLabel? : Stmt → Option String
  | .break_ _ label _ | .continue_ _ label => label
  | _ => none

def Stmt.ownCheck (scope : LabelScope) : Stmt → LabelCheck
  | .callbackLoop _ header _ _ body =>
    let inner := Stmt.checkEach (scope.enter (.callback header.toLoopHeader)) body
    { unused := unusedEscapes header.toLoopHeader inner }
  | .break_ _ label _ | .continue_ _ label => { used := label.toList }
  | _ => {}

namespace LabelCheck

theorem append_def (a b : LabelCheck) : a ++ b = ⟨a.faults ++ b.faults, a.unused ++ b.unused,
    a.used ++ b.used⟩ := rfl

@[simp]
theorem append_empty (c : LabelCheck) : c ++ {} = c := by
  simp [append_def]

@[simp]
theorem empty_append (c : LabelCheck) : ({} : LabelCheck) ++ c = c := by
  simp [append_def]

theorem append_assoc (a b c : LabelCheck) : a ++ b ++ c = a ++ (b ++ c) := by
  simp [append_def]

def outside (e : Option Enclosure) (c : LabelCheck) : LabelCheck :=
  match e with
  | none => c
  | some (.loop label) => c.leave label
  | some (.block label) => c.leave (some label)
  | some _ => { c with used := [] }

theorem outside_unused (e : Option Enclosure) (c : LabelCheck) : (c.outside e).unused = c.unused := by
  unfold outside
  split <;> rfl

def ofSuites (scope : LabelScope) : List (Option Enclosure × List Stmt) → LabelCheck
  | [] => {}
  | u :: us => (Stmt.checkEach (scope.inside u.1) u.2).outside u.1 ++ ofSuites scope us

theorem ofSuites_append (scope : LabelScope) (us vs : List (Option Enclosure × List Stmt)) :
    ofSuites scope (us ++ vs) = ofSuites scope us ++ ofSuites scope vs := by
  induction us with
  | nil => simp [ofSuites]
  | cons u us ih => rw [List.cons_append, ofSuites, ofSuites, ih, append_assoc]

end LabelCheck

theorem LabelVerdict.Clean.settle {v : LabelVerdict} (h : v.Clean) : v.settle = v.found := by
  simp [LabelVerdict.settle, h.2]

theorem LabelVerdict.andThen_found {a b : LabelVerdict} (h : a.Clean) :
    (a.andThen b).found = a.found ++ b.found := by
  rw [LabelVerdict.andThen, h.2]

theorem checkUntil_found {scope : LabelScope} (h : Stmt.FitAll scope body) :
    (Stmt.checkUntil scope body).found = Stmt.checkEach scope body := by
  induction body with
  | nil => rfl
  | cons s rest ih =>
    have hs := (checkLabels_clean_iff scope s).2 h.1
    rw [Stmt.checkUntil, Stmt.checkEach, LabelVerdict.andThen_found hs, hs.settle, ih h.2]

def MatchCase.suite : MatchCase → Option Enclosure × List Stmt
  | .mk _ _ body => (none, body)

theorem checkHandlers_found {scope : LabelScope} {hs : List Handler} (h : Handler.FitAll scope hs) :
    (Handler.checkUntil scope hs).found = .ofSuites scope (hs.map Handler.suite) := by
  induction hs with
  | nil => rfl
  | cons c rest ih =>
    obtain ⟨loc, type, name, body⟩ := c
    rw [Handler.checkUntil, LabelVerdict.andThen_found ((checkUntil_clean_iff scope body).2 h.1),
      checkUntil_found h.1, ih h.2]
    rfl

theorem checkCases_found {scope : LabelScope} {cs : List MatchCase} (h : MatchCase.FitAll scope cs) :
    (MatchCase.checkUntil scope cs).found = .ofSuites scope (cs.map MatchCase.suite) := by
  induction cs with
  | nil => rfl
  | cons c rest ih =>
    obtain ⟨pattern, guard, body⟩ := c
    rw [MatchCase.checkUntil, LabelVerdict.andThen_found ((checkUntil_clean_iff scope body).2 h.1),
      checkUntil_found h.1, ih h.2]
    rfl

theorem ofJump_found (loc : Loc) (label : Option String) :
    (LabelVerdict.ofJump loc label none).found = { used := label.toList } := rfl

theorem checkLabels_found {scope : LabelScope} {s : Stmt} (h : s.Fits scope) :
    (s.checkLabels scope).found = .ofSuites scope s.suites ++ s.ownCheck scope := by
  cases s with
  | function | class_ | block | for_ | while_ =>
    simp only [Stmt.checkLabels, LabelVerdict.ofCheck, Stmt.suites, LabelCheck.ofSuites,
      Stmt.ownCheck, LabelCheck.append_empty]
    rfl
  | if_ _ _ body orElse =>
    simp only [Stmt.checkLabels, Stmt.suites, LabelCheck.ofSuites, Stmt.ownCheck,
      LabelCheck.append_empty, LabelVerdict.andThen_found ((checkUntil_clean_iff scope body).2 h.1),
      checkUntil_found h.1, checkUntil_found h.2]
    rfl
  | with_ _ _ _ body =>
    simp only [Stmt.checkLabels, Stmt.suites, LabelCheck.ofSuites, Stmt.ownCheck,
      LabelCheck.append_empty, checkUntil_found (show Stmt.FitAll scope body from h)]
    rfl
  | match_ _ _ cases =>
    simp only [Stmt.checkLabels, checkCases_found (show MatchCase.FitAll scope cases from h),
      Stmt.ownCheck, LabelCheck.append_empty]
    rfl
  | try_ _ _ body handlers orElse final =>
    obtain ⟨hb, hh, ho, hf⟩ := h
    rw [Stmt.checkLabels, LabelVerdict.andThen_found ((checkUntil_clean_iff scope body).2 hb),
      LabelVerdict.andThen_found ((checkHandlers_clean_iff scope handlers).2 hh),
      LabelVerdict.andThen_found ((checkUntil_clean_iff scope orElse).2 ho), checkUntil_found hb,
      checkHandlers_found hh, checkUntil_found ho, checkUntil_found hf]
    show _ = LabelCheck.ofSuites scope ((none, body) :: (handlers.map Handler.suite ++
      [(none, orElse), (none, final)])) ++ {}
    rw [LabelCheck.append_empty, LabelCheck.ofSuites, LabelCheck.ofSuites_append]
    simp only [LabelCheck.ofSuites, LabelCheck.append_empty]
    rfl
  | break_ loc label value | continue_ loc label =>
    rw [Stmt.Fits] at h
    simp only [Stmt.checkLabels, h, ofJump_found, Stmt.suites, LabelCheck.ofSuites, Stmt.ownCheck,
      LabelCheck.empty_append]
  | callbackLoop loc header _ _ body =>
    obtain ⟨hk, ds, hds, hb⟩ := h
    have henter : scope.enter (.callback header.toLoopHeader) =
        scope.enterCallback header.label ds := by
      simp only [LabelScope.enter, LabelScope.enterHeader, hds]
    simp only [Stmt.checkLabels, if_neg hk, hds, LabelVerdict.ofCheck, Stmt.suites,
      LabelCheck.ofSuites, Stmt.ownCheck, LabelScope.inside, Option.elim_some, henter,
      LabelCheck.outside, LabelCheck.append_def, List.append_nil]
  | return_ =>
    rw [Stmt.Fits] at h
    simp only [Stmt.checkLabels, Bool.and_eq_true, decide_eq_true_eq, if_neg h, Stmt.suites,
      LabelCheck.ofSuites, Stmt.ownCheck, LabelCheck.append_empty]
  | _ =>
    simp only [Stmt.checkLabels, Stmt.suites, LabelCheck.ofSuites, Stmt.ownCheck,
      LabelCheck.append_empty]

theorem fitHandler {scope : LabelScope} {hs : List Handler} {c : Handler}
    (h : Handler.FitAll scope hs) (hc : c ∈ hs) : Stmt.FitAll scope c.suite.2 := by
  induction hs with
  | nil => cases hc
  | cons c' rest ih =>
    obtain ⟨loc, type, name, body⟩ := c'
    rcases List.mem_cons.1 hc with rfl | hc
    · exact h.1
    · exact ih h.2 hc

theorem fitCase {scope : LabelScope} {cs : List MatchCase} {c : MatchCase}
    (h : MatchCase.FitAll scope cs) (hc : c ∈ cs) : Stmt.FitAll scope c.suite.2 := by
  induction cs with
  | nil => cases hc
  | cons c' rest ih =>
    obtain ⟨pattern, guard, body⟩ := c'
    rcases List.mem_cons.1 hc with rfl | hc
    · exact h.1
    · exact ih h.2 hc

theorem Stmt.Fits.suite {scope : LabelScope} (h : s.Fits scope) {u : Option Enclosure × List Stmt}
    (hu : u ∈ s.suites) :
    Stmt.FitAll (scope.inside u.1) u.2 := by
  cases s with
  | function | class_ | with_ | block =>
    cases List.mem_singleton.1 hu
    exact h
  | for_ | while_ | if_ =>
    simp only [Stmt.suites, List.mem_cons, List.not_mem_nil, or_false] at hu
    rcases hu with rfl | rfl
    · exact h.1
    · exact h.2
  | match_ loc subject cases =>
    obtain ⟨⟨pattern, guard, body⟩, hc, rfl⟩ := List.mem_map.1 hu
    exact fitCase h hc
  | try_ loc isStar body handlers orElse final =>
    simp only [Stmt.suites, List.mem_cons, List.mem_append, List.mem_map, List.not_mem_nil,
      or_false] at hu
    obtain ⟨hb, hh, ho, hf⟩ := h
    rcases hu with (rfl | ⟨⟨hloc, type, name, body⟩, hc, rfl⟩) | rfl | rfl
    · exact hb
    · exact fitHandler hh hc
    · exact ho
    · exact hf
  | callbackLoop loc header target iter body =>
    obtain ⟨-, ds, hds, hb⟩ := h
    cases List.mem_singleton.1 hu
    simpa only [LabelScope.inside, Option.elim_some, LabelScope.enter, LabelScope.enterHeader, hds]
      using hb
  | _ => cases hu

theorem checkEach_append (scope : LabelScope) (a b : List Stmt) :
    Stmt.checkEach scope (a ++ b) = Stmt.checkEach scope a ++ Stmt.checkEach scope b := by
  induction a with
  | nil => simp [Stmt.checkEach]
  | cons s a ih => rw [List.cons_append, Stmt.checkEach, Stmt.checkEach, ih, LabelCheck.append_assoc]

theorem fitAll_append {scope : LabelScope} {a b : List Stmt} :
    Stmt.FitAll scope (a ++ b) ↔ Stmt.FitAll scope a ∧ Stmt.FitAll scope b := by
  induction a with
  | nil => simp [Stmt.FitAll]
  | cons s a ih => simp [Stmt.FitAll, ih, and_assoc]

theorem fitAll_mem {scope : LabelScope} (h : Stmt.FitAll scope body) (hs : s ∈ body) : s.Fits scope := by
  obtain ⟨before, after, rfl⟩ := List.append_of_mem hs
  exact (fitAll_append.1 h).2.1

theorem checkEach_cons {scope : LabelScope} (h : s.Fits scope) (rest : List Stmt) :
    Stmt.checkEach scope (s :: rest) = (.ofSuites scope s.suites ++ s.ownCheck scope) ++
      Stmt.checkEach scope rest := by
  rw [Stmt.checkEach, ((checkLabels_clean_iff scope s).2 h).settle, checkLabels_found h]

theorem Replaces.unused {q : Surroundings} (h : Replaces s s' p body body' q) (hb : Stmt.FitAll p.scope body) :
    s.Fits q.scope ∧ ∃ before after, (Stmt.checkEach p.scope body).unused =
      before ++ (s.ownCheck q.scope).unused ++ after := by
  induction h with
  | here p before after =>
    have hs := (fitAll_append.1 hb).2.1
    rw [checkEach_append, checkEach_cons hs]
    exact ⟨hs, (Stmt.checkEach p.scope before).unused ++ (LabelCheck.ofSuites p.scope s.suites).unused,
      (Stmt.checkEach p.scope after).unused, by simp [LabelCheck.append_def]⟩
  | @inside p q a b e t t' before after ht _ ih =>
    have hs := (fitAll_append.1 hb).2.1
    obtain ⟨pre, post, hold, -⟩ := ht.suites
    have ha := hs.suite (u := (e, a)) (by rw [hold]; simp)
    rw [scope_append] at ih
    obtain ⟨hfit, before', after', heq⟩ := ih ha
    refine ⟨hfit, ?_⟩
    rw [checkEach_append, checkEach_cons hs, hold, LabelCheck.ofSuites_append, LabelCheck.ofSuites]
    simp only [LabelCheck.append_def, LabelCheck.outside_unused, heq]
    exact ⟨(Stmt.checkEach p.scope before).unused ++ (LabelCheck.ofSuites p.scope pre).unused ++ before',
      after' ++ (LabelCheck.ofSuites p.scope post).unused ++ (t.ownCheck p.scope).unused ++
        (Stmt.checkEach p.scope after).unused, by simp⟩

/-! ### Used labels -/

theorem LabelCheck.mem_outside_used {e : Option Enclosure} {c : LabelCheck} {l : String} :
    l ∈ (c.outside e).used ↔ (∀ d ∈ e, d.Passes l) ∧ l ∈ c.used := by
  cases e with
  | none => simp [outside]
  | some d =>
    simp only [Option.mem_some_iff, forall_eq']
    cases d with
    | loop label =>
      simp only [outside, leave, List.mem_filter, bne_iff_ne, Enclosure.Passes, Enclosure.Transparent,
        Enclosure.Declares, true_and]
      rw [and_comm, ne_comm]
    | block label =>
      simp only [outside, leave, List.mem_filter, bne_iff_ne, Enclosure.Passes, Enclosure.Transparent,
        Enclosure.Declares, true_and, ne_eq, Option.some.injEq]
      rw [and_comm, eq_comm]
    | callback | function | class_ =>
      simp [outside, Enclosure.Passes, Enclosure.Transparent]

theorem LabelCheck.mem_ofSuites_used {scope : LabelScope} {us : List (Option Enclosure × List Stmt)}
    {l : String} : l ∈ (ofSuites scope us).used ↔ ∃ u ∈ us, (∀ d ∈ u.1, d.Passes l) ∧
      l ∈ (Stmt.checkEach (scope.inside u.1) u.2).used := by
  induction us with
  | nil => simp [ofSuites]
  | cons u us ih =>
    rw [ofSuites, append_def, List.mem_append, mem_outside_used, ih]
    simp

theorem mem_ownCheck_used {scope : LabelScope} {l : String} :
    l ∈ (s.ownCheck scope).used ↔ s.jumpLabel? = some l := by
  cases s <;> simp [Stmt.ownCheck, Stmt.jumpLabel?]

theorem mem_checkEach_used {scope : LabelScope} {l : String} (h : Stmt.FitAll scope body) :
    l ∈ (Stmt.checkEach scope body).used ↔
      ∃ s ∈ body, s.jumpLabel? = some l ∨ ∃ u ∈ s.suites, (∀ d ∈ u.1, d.Passes l) ∧
        l ∈ (Stmt.checkEach (scope.inside u.1) u.2).used := by
  induction body with
  | nil => simp [Stmt.checkEach]
  | cons s rest ih =>
    rw [checkEach_cons h.1, LabelCheck.append_def, LabelCheck.append_def, List.mem_append,
      List.mem_append, LabelCheck.mem_ofSuites_used, mem_ownCheck_used, ih h.2]
    simp only [List.mem_cons, exists_eq_or_imp]
    rw [or_comm (b := s.jumpLabel? = some l)]

def Surroundings.Reaches (label : String) (outer inner : Surroundings) : Prop :=
  ∃ between, inner = between ++ outer ∧ ∀ e ∈ between, e.Passes label

theorem Surroundings.reaches_self (label : String) (p : Surroundings) : Reaches label p p :=
  ⟨[], rfl, by simp⟩

theorem occurs_iff {r : Surroundings} {t : Stmt} :
    Occurs p body r t ↔ r = p ∧ t ∈ body ∨
      ∃ s ∈ body, ∃ u ∈ s.suites, Occurs (u.1.toList ++ p) u.2 r t := by
  constructor
  · intro h
    cases h with
    | here h => exact .inl ⟨rfl, h⟩
    | inside h hs ht => exact .inr ⟨_, h, _, hs, ht⟩
  · rintro (⟨rfl, h⟩ | ⟨s, h, u, hu, ht⟩)
    · exact .here h
    · exact .inside h hu ht

theorem Occurs.suffix {r : Surroundings} {t : Stmt} (h : Occurs p body r t) :
    ∃ between, r = between ++ p := by
  induction h with
  | here => exact ⟨[], rfl⟩
  | inside _ _ _ ih =>
    obtain ⟨between, rfl⟩ := ih
    exact ⟨between ++ _, by rw [List.append_assoc]⟩

theorem Occurs.rebase {r : Surroundings} {t : Stmt} (h : Occurs p body r t) :
    ∀ {between : Surroundings}, r = between ++ p → ∀ p' : Surroundings,
      Occurs p' body (between ++ p') t := by
  induction h with
  | here hs =>
    intro between hb p'
    obtain rfl : between = [] := List.self_eq_append_left.1 hb
    exact .here hs
  | @inside p r body suite s t e hs hu ht ih =>
    intro between hb p'
    obtain ⟨between', rfl⟩ := ht.suffix
    have hinside := ih rfl (e.toList ++ p')
    rw [← List.append_assoc] at hb
    rw [← List.append_assoc, List.append_cancel_right hb] at hinside
    exact .inside hs hu hinside

theorem Surroundings.reaches_append {label : String} {e : Option Enclosure} {r : Surroundings}
    (h : ∃ between, r = between ++ (e.toList ++ p)) :
    Reaches label p r ↔ (∀ d ∈ e, d.Passes label) ∧ Reaches label (e.toList ++ p) r := by
  obtain ⟨between, rfl⟩ := h
  constructor
  · rintro ⟨b, hb, hpass⟩
    rw [← List.append_assoc] at hb
    rw [← List.append_cancel_right hb, List.forall_mem_append] at hpass
    exact ⟨fun d hd => hpass.2 d (Option.mem_toList.2 hd), between, rfl, hpass.1⟩
  · rintro ⟨hd, b, hb, hpass⟩
    refine ⟨b ++ e.toList, by rw [hb, List.append_assoc], List.forall_mem_append.2 ⟨hpass, ?_⟩⟩
    exact fun d hmem => hd d (Option.mem_toList.1 hmem)

theorem mem_used_iff {l : String} (body : List Stmt) : ∀ {scope : LabelScope} {p : Surroundings},
    Stmt.FitAll scope body → (l ∈ (Stmt.checkEach scope body).used ↔
      ∃ r t, Occurs p body r t ∧ t.jumpLabel? = some l ∧ Reaches l p r) := by
  induction body using suites_induction with
  | _ body ih =>
    intro scope p h
    rw [mem_checkEach_used h]
    constructor
    · rintro ⟨s, hs, hl | ⟨u, hu, hpass, hl⟩⟩
      · exact ⟨p, s, .here hs, hl, reaches_self l p⟩
      · have hfit := fitAll_mem h hs
        obtain ⟨r, t, ht, hjump, hr⟩ := (ih s hs u hu (hfit.suite hu)).1 hl
        exact ⟨r, t, .inside hs hu ht, hjump, (reaches_append ht.suffix).2 ⟨hpass, hr⟩⟩
    · rintro ⟨r, t, ht, hjump, hr⟩
      rcases occurs_iff.1 ht with ⟨rfl, hs⟩ | ⟨s, hs, u, hu, ht⟩
      · exact ⟨t, hs, .inl hjump⟩
      · obtain ⟨hpass, hr⟩ := (reaches_append ht.suffix).1 hr
        have hfit := fitAll_mem h hs
        exact ⟨s, hs, .inr ⟨u, hu, hpass, (ih s hs u hu (hfit.suite hu)).2 ⟨r, t, ht, hjump, hr⟩⟩⟩

/-! ### A label less -/

namespace Surroundings

variable {l : String} {r r' : Surroundings}

structure SameFor (l : String) (r r' : Surroundings) : Prop where
  visible : r'.Visible l ↔ r.Visible l
  continues : r'.MayContinue l ↔ r.MayContinue l
  takesValue : TakesValue l r' ↔ TakesValue l r

theorem MayContinue.visible (h : r.MayContinue l) : r.Visible l := by
  obtain ⟨d, outer, hi, -⟩ := h
  exact ⟨d, outer, hi⟩

theorem TakesValue.visible (h : TakesValue l r) : r.Visible l := by
  cases h with
  | block hi => exact ⟨_, _, hi⟩
  | callback hi _ => exact ⟨_, _, hi⟩
  | clause hi _ _ => exact ⟨_, _, hi⟩

theorem SameFor.of_hidden (h : ¬ r.Visible l) (h' : ¬ r'.Visible l) : SameFor l r r' where
  visible := iff_of_false h' h
  continues := iff_of_false (fun hc => h' hc.visible) fun hc => h hc.visible
  takesValue := iff_of_false (fun hv => h' hv.visible) fun hv => h hv.visible

theorem visible_cons_of_passes {e : Enclosure} (he : e.Passes l) :
    Visible (e :: r) l ↔ r.Visible l := by
  simp only [Visible, innermost_cons_of_transparent he.2 he.1]

theorem visible_append_of_passes {between : Surroundings} (h : ∀ e ∈ between, e.Passes l) :
    Visible (between ++ r) l ↔ r.Visible l := by
  induction between with
  | nil => rfl
  | cons e between ih =>
    rw [List.forall_mem_cons] at h
    rw [List.cons_append, visible_cons_of_passes h.1, ih h.2]

theorem hidden_cons {e : Enclosure} (hd : ¬ e.Declares l) (ht : ¬ e.Transparent) :
    ¬ Visible (e :: r) l := by
  rintro ⟨d, outer, hi⟩
  exact not_innermost_cons hd ht hi

theorem SameFor.cons (h : SameFor l r r') (e : Enclosure) : SameFor l (e :: r) (e :: r') := by
  by_cases hd : e.Declares l
  · refine ⟨iff_of_true (visible_cons_of_declares hd) (visible_cons_of_declares hd), ?_, ?_⟩
    · rw [mayContinue_cons_of_declares hd, mayContinue_cons_of_declares hd]
    · rw [takesValue_cons_of_declares hd, takesValue_cons_of_declares hd]
      cases e <;> simp [h.takesValue]
  · by_cases ht : e.Transparent
    · have hsame : ∀ q d outer, Innermost l (e :: q) d outer ↔ Innermost l q d outer :=
        fun _ _ _ => innermost_cons_of_transparent hd ht
      have hvalue : ∀ q, TakesValue l (e :: q) ↔ TakesValue l q := fun q =>
        ⟨takesValue_congr fun d outer => (hsame q d outer).1,
          takesValue_congr fun d outer => (hsame q d outer).2⟩
      refine ⟨?_, ?_, ?_⟩
      · simpa only [Visible, hsame] using h.visible
      · simpa only [MayContinue, hsame] using h.continues
      · rw [hvalue, hvalue, h.takesValue]
    · exact .of_hidden (hidden_cons hd ht) (hidden_cons hd ht)

structure SameScope (r r' : Surroundings) : Prop where
  kind : r'.scopeKind = r.scopeKind
  innermost : r'.innermostLoop = r.innermostLoop
  inCallback : r'.inCallback = r.inCallback

theorem SameScope.cons (h : SameScope r r') (e : Enclosure) : SameScope (e :: r) (e :: r') := by
  cases e <;> exact ⟨by simp [scopeKind, h.kind], by simp [innermostLoop, h.innermost],
    by simp [Surroundings.inCallback, h.inCallback]⟩

end Surroundings

def Stmt.NamesInClause (label : String) : Stmt → Prop
  | .callbackLoop _ header _ _ _ => ∃ e ∈ header.escapes, e.label = label
  | _ => False

theorem Stmt.Obeys.congr {r r' : Surroundings} (h : s.Obeys r) (hs : SameScope r r')
    (hl : ∀ l, s.jumpLabel? = some l ∨ s.NamesInClause l → SameFor l r r') : s.Obeys r' := by
  cases s with
  | break_ loc label value =>
    cases label with
    | none =>
      rw [Stmt.Obeys, hs.innermost]
      exact h
    | some l =>
      have := hl l (.inl rfl)
      exact ⟨this.visible.2 h.1, fun hv => this.takesValue.2 (h.2 hv)⟩
  | continue_ loc label =>
    cases label with
    | none =>
      rw [Stmt.Obeys, hs.innermost]
      exact h
    | some l => exact (hl l (.inl rfl)).continues.2 h
  | callbackLoop loc header target iter body =>
    refine ⟨by rw [hs.kind]; exact h.1, fun e he => ?_⟩
    have := hl e.label (.inr ⟨e, he, rfl⟩)
    exact ⟨this.visible.2 (h.2 e he).1, fun hloop => this.continues.2 ((h.2 e he).2 hloop)⟩
  | return_ =>
    rw [Stmt.Obeys, hs.inCallback, hs.kind]
    exact h
  | _ => trivial

theorem Stmt.Obeys.visible {r : Surroundings} {l : String} (h : s.Obeys r)
    (hl : s.jumpLabel? = some l ∨ s.NamesInClause l) : r.Visible l := by
  cases s with
  | break_ loc label value =>
    obtain rfl : label = some l := hl.resolve_right id
    exact h.1
  | continue_ loc label =>
    obtain rfl : label = some l := hl.resolve_right id
    exact MayContinue.visible h
  | callbackLoop loc header target iter body =>
    obtain ⟨e, he, rfl⟩ : ∃ e ∈ header.escapes, e.label = l := hl.resolve_left nofun
    exact (h.2 e he).1
  | _ => exact (hl.elim nofun id).elim

/-- Neither a jump nor a break clause in the body names the label as it is around the body. -/
def Unneeded (label : String) (r : Surroundings) (body : List Stmt) : Prop :=
  ∀ q t, Occurs r body q t → Reaches label r q → t.jumpLabel? ≠ some label ∧ ¬ t.NamesInClause label

theorem names_of_suite {h : LoopHeader} {suite : List Stmt} {l : String}
    (hu : (some (.callback h), suite) ∈ s.suites) (hd : (Enclosure.callback h).Declares l) :
    h.label = some l ∨ s.NamesInClause l := by
  cases s with
  | callbackLoop loc header target iter body =>
    cases List.mem_singleton.1 hu
    exact hd
  | match_ =>
    obtain ⟨⟨pattern, guard, body⟩, -, heq⟩ := List.mem_map.1 hu
    cases heq
  | try_ =>
    simp only [Stmt.suites, List.mem_cons, List.mem_append, List.mem_map, List.not_mem_nil] at hu
    rcases hu with (hu | ⟨⟨hloc, type, name, body⟩, -, hu⟩) | hu | hu | hu <;> cases hu
  | _ => simp [Stmt.suites] at hu

theorem sameFor_of_not_passes {e : Enclosure} {l : String} (he : ¬ e.Passes l)
    (hown : ∀ h, e = .callback h → e.Declares l → h.label = some l) (r r' : Surroundings) :
    SameFor l (e :: r) (e :: r') := by
  by_cases hd : e.Declares l
  · refine ⟨iff_of_true (visible_cons_of_declares hd) (visible_cons_of_declares hd), ?_, ?_⟩
    · rw [mayContinue_cons_of_declares hd, mayContinue_cons_of_declares hd]
    · rw [takesValue_cons_of_declares hd, takesValue_cons_of_declares hd]
      cases e with
      | callback h => simp [hown h rfl hd]
      | _ => exact Iff.rfl
  · have ht : ¬ e.Transparent := fun ht => he ⟨ht, hd⟩
    exact .of_hidden (hidden_cons hd ht) (hidden_cons hd ht)

theorem wellLabelledIn_of_unneeded {label : String} (body : List Stmt) : ∀ {r r' : Surroundings},
    SameScope r r' → (∀ l, l ≠ label → SameFor l r r') →
    SameFor label r r' ∨ Unneeded label r body → WellLabelledIn r body → WellLabelledIn r' body := by
  induction body using suites_induction with
  | _ body ih =>
    intro r r' hscope hother hlabel hb
    rw [wellLabelledIn_iff] at hb ⊢
    intro s hs
    refine ⟨(hb s hs).1.congr hscope fun l hl => ?_, fun u hu => ?_⟩
    · by_cases hne : l = label
      · subst hne
        rcases hlabel with hsame | hnone
        · exact hsame
        · obtain ⟨hjump, hclause⟩ := hnone r s (.here hs) (reaches_self _ r)
          rcases hl with hl | hl
          · exact absurd hl hjump
          · exact absurd hl hclause
      · exact hother l hne
    · obtain ⟨e, suite⟩ := u
      have hsuite := (hb s hs).2 _ hu
      cases e with
      | none =>
        refine ih s hs _ hu hscope hother ?_ hsuite
        exact hlabel.imp_right fun hnone q t ht hr => hnone q t (.inside hs hu ht) hr
      | some e =>
        refine ih s hs _ hu (hscope.cons e) (fun l hl => (hother l hl).cons e) ?_ hsuite
        rcases hlabel with hsame | hnone
        · exact .inl (hsame.cons e)
        · by_cases hp : e.Passes label
          · refine .inr fun q t ht hr => hnone q t (.inside hs hu ht) ?_
            exact (reaches_append (e := some e) ht.suffix).2 ⟨by simpa using hp, hr⟩
          · refine .inl (sameFor_of_not_passes hp (fun h he hd => ?_) r r')
            subst he
            exact (names_of_suite hu hd).resolve_right (hnone r s (.here hs) (reaches_self _ r)).2

/-! ### Labels of a clause -/

def LoopHeader.without (h : LoopHeader) (label : String) : LoopHeader :=
  { h with escapes := h.escapes.filter (·.label != label) }

def CallbackHeader.without (h : CallbackHeader) (label : String) : CallbackHeader :=
  { h with toLoopHeader := h.toLoopHeader.without label }

section

variable {h : LoopHeader} {label l : String} {q : Surroundings}

theorem declares_without (hl : l ≠ label ∨ h.label = some l) :
    (Enclosure.callback (h.without label)).Declares l ↔ (Enclosure.callback h).Declares l := by
  simp only [Enclosure.Declares, LoopHeader.without, List.mem_filter, bne_iff_ne]
  rcases hl with hl | hl
  · refine or_congr_right ⟨?_, ?_⟩
    · rintro ⟨e, he, rfl⟩
      exact ⟨e, he.1, rfl⟩
    · rintro ⟨e, he, rfl⟩
      exact ⟨e, ⟨he, hl⟩, rfl⟩
  · simp [hl]

theorem continues_without (hl : l ≠ label ∨ h.label = some l) :
    (Enclosure.callback (h.without label)).Continues l ↔ (Enclosure.callback h).Continues l := by
  simp only [Enclosure.Continues, LoopHeader.without]
  rcases hl with hl | hl
  · rw [← List.filter_reverse, List.find?_filter]
    have hsame : (fun e : EscapeLabel => decide ((e.label != label) = true ∧ (e.label == l) = true)) =
        fun e => e.label == l := by
      funext e
      by_cases he : e.label = l
      · simp [he, hl]
      · simp [he]
    rw [hsame]
  · simp [hl]

theorem sameFor_without (hl : l ≠ label ∨ h.label = some l) :
    SameFor l (.callback h :: q) (.callback (h.without label) :: q) := by
  by_cases hd : (Enclosure.callback h).Declares l
  · have hd' := (declares_without hl).2 hd
    refine ⟨iff_of_true (visible_cons_of_declares hd') (visible_cons_of_declares hd), ?_, ?_⟩
    · rw [mayContinue_cons_of_declares hd, mayContinue_cons_of_declares hd', continues_without hl]
    · rw [takesValue_cons_of_declares hd, takesValue_cons_of_declares hd']
      exact Iff.rfl
  · have hd' := fun h' => hd ((declares_without hl).1 h')
    exact .of_hidden (hidden_cons hd nofun) (hidden_cons hd' nofun)

theorem wellLabelledIn_without (hb : WellLabelledIn (.callback h :: q) body) :
    WellLabelledIn (.callback (h.without label) :: q) body ↔
      h.label = some label ∨ Unneeded label (.callback h :: q) body := by
  have hscope : SameScope (.callback h :: q) (.callback (h.without label) :: q) := ⟨rfl, rfl, rfl⟩
  have hother : ∀ l, l ≠ label → SameFor l (.callback h :: q) (.callback (h.without label) :: q) :=
    fun l hl => sameFor_without (.inl hl)
  constructor
  · intro hb'
    by_cases hown : h.label = some label
    · exact .inl hown
    · refine .inr fun r t ht hr => ?_
      obtain ⟨between, rfl, hpass⟩ := hr
      have hobeys := hb' _ t (ht.rebase rfl _)
      have hhidden : ¬ Visible (between ++ .callback (h.without label) :: q) label := by
        rw [visible_append_of_passes hpass]
        refine hidden_cons ?_ nofun
        rintro (hl | ⟨e, he, hl⟩)
        · exact hown hl
        · simp [LoopHeader.without, hl] at he
      exact ⟨fun hj => hhidden (hobeys.visible (.inl hj)), fun hc => hhidden (hobeys.visible (.inr hc))⟩
  · rintro (hown | hnone)
    · exact wellLabelledIn_of_unneeded body hscope hother (.inl (sameFor_without (.inr hown))) hb
    · exact wellLabelledIn_of_unneeded body hscope hother (.inr hnone) hb

end

theorem resolve_ok_iff (d : Display) {log : WarningLog} (source : Source) (body : List Stmt)
    (h : log.policy ≠ .error) :
    (∃ resolved, (source.resolve d log body).2 = .ok resolved) ↔ Stmt.FitAll LabelScope.top body := by
  constructor
  · rintro ⟨resolved, hr⟩
    exact (fitAll_of_resolve hr).1
  · intro hfit
    have hfaults := (checkEach_faults_iff _ body).2 hfit
    refine ⟨resolveLabels body, ?_⟩
    simp only [Source.resolve, WarningLog.issueAll_raises_none d log h, checkLabels, hfaults]
    rfl

theorem mem_unusedEscapes_iff {header : LoopHeader} {scope : LabelScope} {q : Surroundings}
    (hfit : Stmt.FitAll scope body) {e : EscapeLabel} (he : e ∈ header.escapes) :
    ⟨e.label, e.at_⟩ ∈ unusedEscapes header (Stmt.checkEach scope body) ↔
      header.label = some e.label ∨ ∀ r t, Occurs (.callback header :: q) body r t →
        Reaches e.label (.callback header :: q) r → t.jumpLabel? ≠ some e.label := by
  have hused := mem_used_iff (l := e.label) (p := .callback header :: q) body hfit
  have hmem : ⟨e.label, e.at_⟩ ∈ unusedEscapes header (Stmt.checkEach scope body) ↔
      ¬ (e.label ∈ (Stmt.checkEach scope body).used ∧ some e.label ≠ header.label) := by
    rw [unusedEscapes, (checkEach_faults_iff scope body).2 hfit, List.isEmpty_nil, if_pos rfl,
      List.mem_map]
    simp only [List.mem_filter, Bool.not_eq_true', List.contains_eq_mem, decide_eq_false_iff_not,
      bne_iff_ne, UnusedLabel.mk.injEq]
    constructor
    · rintro ⟨e', ⟨-, hnot⟩, hl, -⟩
      rwa [hl] at hnot
    · exact fun hnot => ⟨e, ⟨he, hnot⟩, rfl, rfl⟩
  rw [hmem, hused, not_and_or, not_not, or_comm, eq_comm]
  refine or_congr_right ⟨fun h r t ht hr hj => h ⟨r, t, ht, hj, hr⟩, ?_⟩
  rintro h ⟨r, t, ht, hj, hr⟩
  exact h r t ht hr hj

/-- A callback loop in the body has the label in a break clause of its own, where it stands for the label
as it is around the body. -/
def Relayed (label : String) (r : Surroundings) (body : List Stmt) : Prop :=
  ∃ q t, Occurs r body q t ∧ Reaches label r q ∧ t.NamesInClause label

theorem unneeded_iff {label : String} {r : Surroundings} :
    Unneeded label r body ↔
      (∀ q t, Occurs r body q t → Reaches label r q → t.jumpLabel? ≠ some label) ∧
        ¬ Relayed label r body := by
  constructor
  · intro h
    refine ⟨fun q t ht hr => (h q t ht hr).1, ?_⟩
    rintro ⟨q, t, ht, hr, hc⟩
    exact (h q t ht hr).2 hc
  · rintro ⟨hjump, hclause⟩ q t ht hr
    exact ⟨hjump q t ht hr, fun hc => hclause ⟨q, t, ht, hr, hc⟩⟩

/-- The warnings that a module's labels give rise to are those of its loops.  Without one of its labels a
break clause makes the module wrong exactly if the loop is not warned of the label, or if a clause in the
loop's body stands for it. -/
theorem unusedLabel_iff_deletable (d : Display) {log : WarningLog} (source : Source)
    (hlog : log.policy ≠ .error) {loc : Loc} {header : CallbackHeader} {target iter : Expr}
    {inner body body' : List Stmt} {q : Surroundings} {e : EscapeLabel} (he : e ∈ header.escapes)
    (hdel : Replaces (.callbackLoop loc header target iter inner)
      (.callbackLoop loc (header.without e.label) target iter inner) [] body body' q)
    (hok : ∃ resolved, (source.resolve d log body).2 = .ok resolved) :
    let own := unusedEscapes header.toLoopHeader
      (Stmt.checkEach (Surroundings.scope (.callback header.toLoopHeader :: q)) inner)
    (source.resolve d log body).1 =
        (log.issueAll d ((checkLabels body).unused.map (·.report source))).1 ∧
      (∃ before after, (checkLabels body).unused = before ++ own ++ after) ∧
      ((∃ resolved, (source.resolve d log body').2 = .ok resolved) ↔
        ⟨e.label, e.at_⟩ ∈ own ∧ (header.label = some e.label ∨
          ¬ Relayed e.label (.callback header.toLoopHeader :: q) inner)) := by
  have hfit := (resolve_ok_iff d source body hlog).1 hok
  have hwell := (fitAll_iff_wellLabelledIn LabelScope.agrees_top body).1 hfit
  obtain ⟨hloop, hunused⟩ := hdel.unused (p := []) hfit
  have hinner : Stmt.FitAll (Surroundings.scope (.callback header.toLoopHeader :: q)) inner :=
    hloop.suite (u := (some (.callback header.toLoopHeader), inner)) (List.mem_singleton.2 rfl)
  obtain ⟨⟨hobeys, hsuites⟩, -⟩ := (wellLabelledIn_cons q _ []).1 (hdel.wellLabelledIn_old hwell)
  have hbody : WellLabelledIn (.callback header.toLoopHeader :: q) inner :=
    hsuites (some (.callback header.toLoopHeader), inner) (List.mem_singleton.2 rfl)
  have hobeys' : (Stmt.callbackLoop loc (header.without e.label) target iter inner).Obeys q :=
    ⟨hobeys.1, fun e' he' => hobeys.2 e' (List.mem_filter.1 he').1⟩
  have hdeleted : (∃ resolved, (source.resolve d log body').2 = .ok resolved) ↔
      WellLabelledIn (.callback (header.toLoopHeader.without e.label) :: q) inner := by
    rw [resolve_ok_iff d source body' hlog, fitAll_iff_wellLabelledIn LabelScope.agrees_top body',
      hdel.wellLabelledIn_iff hwell, wellLabelledIn_cons]
    simp only [hobeys', wellLabelledIn_nil, and_true, true_and, Stmt.suites, List.forall_mem_singleton]
    rfl
  refine ⟨?_, hunused, ?_⟩
  · unfold Source.resolve
    simp only
    split <;> rfl
  · rw [hdeleted, wellLabelledIn_without hbody, unneeded_iff, mem_unusedEscapes_iff hinner he (q := q)]
    rw [or_and_left]

/-! ### Two modules -/

/-- The entry of a break clause for a loop `rows` around, and a header that has it only. -/
def rowsEntry (line : Nat) : EscapeLabel := ⟨"rows", false, ⟨line, 30⟩⟩

def rowsHeader (line : Nat) : CallbackHeader := { label := none, escapes := [rowsEntry line], result := none }

def eachLoop (header : CallbackHeader) (body : List Stmt) : Stmt :=
  let name (id : String) : Expr := .name default id .load
  .callbackLoop default header (name "x") (.call default (name "each") [] []) body

def inRows (s : Stmt) : List Stmt :=
  [.for_ default false { label := some "rows" } (.name default "row" .store) (.name default "grid" .load)
    [s] []]

def hiddenRows : List Stmt :=
  [.while_ default { label := some "rows" } (.name default "x" .load)
    [.break_ default (some "rows") none] []]

/-- Where the label of a clause is hidden, the clause is warned of it, and can do without. -/
theorem unusedLabel_hiddenRows : ({} : WarningLog).policy ≠ .error ∧
    (∃ resolved, (Source.resolve {} {} ⟨"", none⟩ (inRows (eachLoop (rowsHeader 2) hiddenRows))).2 =
      .ok resolved) ∧
    (∃ resolved, (Source.resolve {} {} ⟨"", none⟩
      (inRows (eachLoop ((rowsHeader 2).without "rows") hiddenRows))).2 = .ok resolved) ∧
    ⟨"rows", ⟨2, 30⟩⟩ ∈ (checkLabels (inRows (eachLoop (rowsHeader 2) hiddenRows))).unused := by
  have hlog : ({} : WarningLog).policy ≠ .error := by decide
  have he : rowsEntry 2 ∈ (rowsHeader 2).escapes := List.mem_singleton.2 rfl
  have hdel : Replaces (eachLoop (rowsHeader 2) hiddenRows)
      (eachLoop ((rowsHeader 2).without "rows") hiddenRows) []
      (inRows (eachLoop (rowsHeader 2) hiddenRows))
      (inRows (eachLoop ((rowsHeader 2).without "rows") hiddenRows)) [.loop (some "rows")] :=
    .inside [] [] (.forBody ..) (.here _ [] [])
  obtain ⟨-, ⟨before, after, hunused⟩, hiff⟩ :=
    unusedLabel_iff_deletable {} ⟨"", none⟩ hlog he hdel ⟨_, rfl⟩
  have hdeletable : ∃ resolved, (Source.resolve {} {} ⟨"", none⟩
      (inRows (eachLoop ((rowsHeader 2).without "rows") hiddenRows))).2 = .ok resolved := ⟨_, rfl⟩
  refine ⟨hlog, ⟨_, rfl⟩, hdeletable, ?_⟩
  rw [hunused]
  exact List.mem_append_left _ (List.mem_append_right _ (hiff.1 hdeletable).1)

def relayedRows : List Stmt := [eachLoop (rowsHeader 3) [.break_ default (some "rows") none]]

/-- Where a clause inside stands for the label of a clause, the outer clause is warned of it although the
module is wrong without. -/
theorem unusedLabel_relayedRows :
    (checkLabels (inRows (eachLoop (rowsHeader 2) relayedRows))).faults = [] ∧
    (checkLabels (inRows (eachLoop (rowsHeader 2) relayedRows))).unused = [⟨"rows", ⟨2, 30⟩⟩] ∧
    (checkLabels (inRows (eachLoop ((rowsHeader 2).without "rows") relayedRows))).faults ≠ [] := by
  decide

end LoopEscape
