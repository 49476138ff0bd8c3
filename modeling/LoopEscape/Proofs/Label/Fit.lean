import LoopEscape.Label.Resolve
import Mathlib.Data.List.Forall2

/-!
# Statements whose labels fit

Checking labels collects faults while it goes through a module; a fault ends the statement it is in,
and the checks behind it are not made.  For modules without faults this order does not matter:
`Stmt.Fits` says, statement by statement, what a scope has to offer, and `checkEach_faults_iff` shows
that a check finds nothing exactly where every statement fits.
-/

namespace LoopEscape

variable {scope : LabelScope} {es : List EscapeLabel} {ds : List LabelDecl} {l : String}

/-! ### Verdicts without a fault -/

def LabelVerdict.Clean (v : LabelVerdict) : Prop := v.found.faults = [] ∧ v.fault = none

namespace LabelVerdict

theorem faults_append (a b : LabelCheck) : (a ++ b).faults = a.faults ++ b.faults := rfl

theorem clean_default : Clean {} := ⟨rfl, rfl⟩

theorem clean_ofCheck (c : LabelCheck) : (ofCheck c).Clean ↔ c.faults = [] := by
  simp [Clean, ofCheck]

theorem not_clean_ofFault (f : LabelFault) : ¬ (ofFault f).Clean := by
  simp [Clean, ofFault]

theorem clean_andThen (a b : LabelVerdict) : (a.andThen b).Clean ↔ a.Clean ∧ b.Clean := by
  unfold andThen
  cases h : a.fault with
  | some f => simp [Clean, h]
  | none => simp [Clean, h, faults_append, List.append_eq_nil_iff, and_assoc]

theorem settle_faults (v : LabelVerdict) : v.settle.faults = [] ↔ v.Clean := by
  simp [settle, Clean, List.append_eq_nil_iff, Option.toList_eq_nil_iff]

theorem clean_ofJump (loc : Loc) (label : Option String) (problem : Option LabelProblem) :
    (ofJump loc label problem).Clean ↔ problem = none := by
  unfold ofJump
  split
  · simp [not_clean_ofFault]
  · simp [Clean]

end LabelVerdict

open LabelVerdict

/-! ### What a scope has to offer -/

namespace LabelScope

theorem lookup_declare (scope : LabelScope) (d : Option LabelDecl) (l : String) :
    (scope.declare d).lookup l =
      match d with
      | some d => if d.name == l then some d else scope.lookup l
      | none => scope.lookup l := by
  cases d with
  | none => rfl
  | some d =>
    simp only [lookup, declare, Option.toList_some, List.cons_append, List.nil_append,
      List.find?_cons]
    split <;> simp_all

theorem escape_ok_iff {e : EscapeLabel} {d : LabelDecl} :
    scope.escape e = .ok d ↔ ∃ outer, scope.lookup e.label = some outer ∧
      (e.loops = true → outer.continues = true) ∧
        d = ⟨e.label, .escape, e.loops, outer.takesValue⟩ := by
  unfold escape
  cases scope.lookup e.label with
  | none => simp
  | some outer =>
    by_cases hl : e.loops = true → outer.continues = true
    · have hif : (e.loops && !outer.continues) = false := by
        cases h : e.loops
        · rfl
        · simp [hl h]
      simp only [hif, Bool.false_eq_true, if_false, Except.ok.injEq, Option.some.injEq,
        exists_eq_left']
      exact ⟨fun h => ⟨hl, h.symm⟩, fun h => h.2.symm⟩
    · have hif : (e.loops && !outer.continues) = true := by
        simpa [Classical.not_imp] using hl
      simp only [hif, if_true, reduceCtorEq, Option.some.injEq, exists_eq_left', false_iff]
      exact fun h => hl h.1

theorem escapes_ok_iff :
    scope.escapes es = .ok ds ↔ List.Forall₂ (fun e d => scope.escape e = .ok d) es ds := by
  induction es generalizing ds with
  | nil =>
    rw [List.forall₂_nil_left_iff]
    simp only [escapes, Except.ok.injEq]
    exact eq_comm
  | cons e es ih =>
    rw [List.forall₂_cons_left_iff]
    simp only [escapes, ← ih]
    cases he : scope.escape e with
    | error f => simp
    | ok d =>
      cases hes : scope.escapes es with
      | error f => simp
      | ok ds' =>
        simp only [Except.ok.injEq]
        constructor
        · rintro rfl
          exact ⟨d, ds', rfl, rfl, rfl⟩
        · rintro ⟨_, _, rfl, rfl, rfl⟩
          rfl

theorem find?_escapes (h : List.Forall₂ (fun e d => scope.escape e = .ok d) es ds) (l : String) :
    (es.find? (·.label == l) = none ∧ ds.find? (·.name == l) = none) ∨
      ∃ e d, es.find? (·.label == l) = some e ∧ ds.find? (·.name == l) = some d ∧
        e.label = l ∧ scope.escape e = .ok d := by
  induction h with
  | nil => exact .inl ⟨rfl, rfl⟩
  | @cons e d es ds hed _ ih =>
    obtain ⟨outer, -, -, hd⟩ := escape_ok_iff.1 hed
    have hname : d.name = e.label := by rw [hd]
    by_cases hl : e.label = l
    · refine .inr ⟨e, d, ?_, ?_, hl, hed⟩
      · simp [hl]
      · simp [hname, hl]
    · simpa [List.find?_cons, hname, hl] using ih

theorem lookup_enterCallback (scope : LabelScope) (label : Option String) (ds : List LabelDecl)
    (l : String) :
    (scope.enterCallback label ds).lookup l =
      if label = some l then some (.callback l) else ds.reverse.find? (·.name == l) := by
  cases label with
  | none => simp [lookup, enterCallback]
  | some m =>
    by_cases hm : m = l <;> simp [lookup, enterCallback, LabelDecl.callback, hm]

theorem lookup_enterCallback_cases {label : Option String} (hds : scope.escapes es = .ok ds) {d : LabelDecl}
    (h : (scope.enterCallback label ds).lookup l = some d) :
    (label = some l ∧ d = .callback l) ∨ (label ≠ some l ∧ ∃ e ∈ es, e.label = l ∧
      ∃ outer, scope.lookup l = some outer ∧ (e.loops = true → outer.continues = true) ∧
        d = ⟨l, .escape, e.loops, outer.takesValue⟩) := by
  rw [lookup_enterCallback] at h
  split at h
  · next hl => exact .inl ⟨hl, (Option.some.inj h).symm⟩
  · next hl =>
    have hclause := List.forall₂_reverse_iff.2 (escapes_ok_iff.1 hds)
    rcases find?_escapes hclause l with ⟨-, hd⟩ | ⟨e, d', he, hd, hel, hed⟩
    · rw [hd] at h
      cases h
    · rw [hd] at h
      cases h
      obtain ⟨outer, houter, hloop, rfl⟩ := escape_ok_iff.1 hed
      subst hel
      exact .inr ⟨hl, e, List.mem_reverse.1 (List.mem_of_find?_eq_some he), rfl, outer, houter,
        hloop, rfl⟩

end LabelScope

theorem breakProblem_some {hasValue : Bool} (h : breakProblem scope (some l) hasValue = none) :
    ∃ d, scope.lookup l = some d ∧ (hasValue = true → d.takesValue = true) := by
  cases hl : scope.lookup l with
  | none => simp [breakProblem, hl] at h
  | some d =>
    refine ⟨d, rfl, fun hv => ?_⟩
    simpa [breakProblem, hl, hv] using h

theorem continueProblem_some (h : continueProblem scope (some l) = none) :
    ∃ d, scope.lookup l = some d ∧ d.continues = true := by
  cases hl : scope.lookup l with
  | none => simp [continueProblem, hl] at h
  | some d =>
    refine ⟨d, rfl, ?_⟩
    by_contra hc
    simp only [continueProblem, hl, hc, if_false] at h
    split at h <;> cases h

mutual

def Stmt.Fits (scope : LabelScope) : Stmt → Prop
  | .function _ _ _ _ body _ _ => Stmt.FitAll { kind := .function } body
  | .class_ _ _ _ _ body _ => Stmt.FitAll { kind := .class_ } body
  | .return_ _ _ => ¬ (scope.inCallback = true ∧ scope.kind = .module)
  | .for_ _ _ mark _ _ body orElse | .while_ _ mark _ body orElse =>
    Stmt.FitAll (scope.enterLoop mark.label) body ∧ Stmt.FitAll scope orElse
  | .if_ _ _ body orElse => Stmt.FitAll scope body ∧ Stmt.FitAll scope orElse
  | .with_ _ _ _ body => Stmt.FitAll scope body
  | .match_ _ _ cases => MatchCase.FitAll scope cases
  | .try_ _ _ body handlers orElse final =>
    Stmt.FitAll scope body ∧ Handler.FitAll scope handlers ∧ Stmt.FitAll scope orElse ∧
      Stmt.FitAll scope final
  | .break_ _ label value => breakProblem scope label value.isSome = none
  | .continue_ _ label => continueProblem scope label = none
  | .callbackLoop _ header _ _ body =>
    scope.kind ≠ .class_ ∧ ∃ escapes, scope.escapes header.escapes = .ok escapes ∧
      Stmt.FitAll (scope.enterCallback header.label escapes) body
  | .block _ label _ body => Stmt.FitAll (scope.enterBlock label) body
  | _ => True

def Stmt.FitAll (scope : LabelScope) : List Stmt → Prop
  | [] => True
  | s :: rest => Stmt.Fits scope s ∧ Stmt.FitAll scope rest

def Handler.FitAll (scope : LabelScope) : List Handler → Prop
  | [] => True
  | .mk _ _ _ body :: rest => Stmt.FitAll scope body ∧ Handler.FitAll scope rest

def MatchCase.FitAll (scope : LabelScope) : List MatchCase → Prop
  | [] => True
  | .mk _ _ body :: rest => Stmt.FitAll scope body ∧ MatchCase.FitAll scope rest

end

/-! ### Checks find nothing exactly there -/

mutual

theorem checkLabels_clean_iff (scope : LabelScope) (s : Stmt) :
    (Stmt.checkLabels scope s).Clean ↔ s.Fits scope := by
  cases s with
  | function _ _ _ _ body _ _ | class_ _ _ _ _ body _ =>
    simpa only [Stmt.checkLabels, clean_ofCheck, Stmt.Fits] using checkEach_faults_iff _ body
  | return_ loc value =>
    simp only [Stmt.checkLabels, Stmt.Fits]
    by_cases h : scope.inCallback = true ∧ scope.kind = .module
    · simp [h.1, h.2, not_clean_ofFault]
    · simpa [h] using clean_default
  | for_ _ _ mark _ _ body orElse | while_ _ mark _ body orElse =>
    simp only [Stmt.checkLabels, clean_ofCheck, faults_append, LabelCheck.leave, Stmt.Fits,
      List.append_eq_nil_iff, checkEach_faults_iff _ body, checkEach_faults_iff _ orElse]
  | if_ _ _ body orElse =>
    simp only [Stmt.checkLabels, clean_andThen, Stmt.Fits, checkUntil_clean_iff _ body,
      checkUntil_clean_iff _ orElse]
  | with_ _ _ _ body =>
    simp only [Stmt.checkLabels, Stmt.Fits, checkUntil_clean_iff _ body]
  | match_ _ _ cases =>
    simp only [Stmt.checkLabels, Stmt.Fits, checkCases_clean_iff _ cases]
  | try_ _ _ body handlers orElse final =>
    simp only [Stmt.checkLabels, clean_andThen, Stmt.Fits, checkUntil_clean_iff _ body,
      checkHandlers_clean_iff _ handlers, checkUntil_clean_iff _ orElse,
      checkUntil_clean_iff _ final]
  | break_ loc label value => simp only [Stmt.checkLabels, clean_ofJump, Stmt.Fits]
  | continue_ loc label => simp only [Stmt.checkLabels, clean_ofJump, Stmt.Fits]
  | callbackLoop loc header _ _ body =>
    simp only [Stmt.checkLabels, Stmt.Fits]
    by_cases hk : scope.kind = .class_
    · simp [hk, not_clean_ofFault]
    · cases he : scope.escapes header.escapes with
      | error f => simp [hk, not_clean_ofFault]
      | ok ds => simp [hk, clean_ofCheck, checkEach_faults_iff _ body]
  | block _ label _ body =>
    simp only [Stmt.checkLabels, clean_ofCheck, LabelCheck.leave, Stmt.Fits,
      checkEach_faults_iff _ body]
  | _ =>
    simpa only [Stmt.checkLabels, Stmt.Fits, iff_true] using clean_default

theorem checkEach_faults_iff (scope : LabelScope) :
    ∀ body : List Stmt, (Stmt.checkEach scope body).faults = [] ↔ Stmt.FitAll scope body
  | [] => by simp [Stmt.checkEach, Stmt.FitAll]
  | s :: rest => by
    simp only [Stmt.checkEach, faults_append, List.append_eq_nil_iff, settle_faults, Stmt.FitAll,
      checkLabels_clean_iff _ s, checkEach_faults_iff _ rest]

theorem checkUntil_clean_iff (scope : LabelScope) :
    ∀ body : List Stmt, (Stmt.checkUntil scope body).Clean ↔ Stmt.FitAll scope body
  | [] => by simpa only [Stmt.checkUntil, Stmt.FitAll, iff_true] using clean_default
  | s :: rest => by
    simp only [Stmt.checkUntil, clean_andThen, Stmt.FitAll, checkLabels_clean_iff _ s,
      checkUntil_clean_iff _ rest]

theorem checkHandlers_clean_iff (scope : LabelScope) :
    ∀ hs : List Handler, (Handler.checkUntil scope hs).Clean ↔ Handler.FitAll scope hs
  | [] => by simpa only [Handler.checkUntil, Handler.FitAll, iff_true] using clean_default
  | .mk _ _ _ body :: rest => by
    simp only [Handler.checkUntil, clean_andThen, Handler.FitAll, checkUntil_clean_iff _ body,
      checkHandlers_clean_iff _ rest]

theorem checkCases_clean_iff (scope : LabelScope) :
    ∀ cs : List MatchCase, (MatchCase.checkUntil scope cs).Clean ↔ MatchCase.FitAll scope cs
  | [] => by simpa only [MatchCase.checkUntil, MatchCase.FitAll, iff_true] using clean_default
  | .mk _ _ body :: rest => by
    simp only [MatchCase.checkUntil, clean_andThen, MatchCase.FitAll, checkUntil_clean_iff _ body,
      checkCases_clean_iff _ rest]

end

/-! ### Modules -/

theorem Report.combine_eq_none_iff (d : Display) (rs : List Report) :
    Report.combine d rs = none ↔ rs = [] := by
  unfold Report.combine
  split <;> simp_all

theorem fitAll_of_resolve {d : Display} {log : WarningLog} {source : Source}
    {body resolved : List Stmt} (h : (source.resolve d log body).2 = .ok resolved) :
    Stmt.FitAll LabelScope.top body ∧ resolved = resolveLabels body := by
  unfold Source.resolve at h
  simp only at h
  split at h
  · cases h
  · next hnone =>
    cases h
    have hc := (Option.or_eq_none_iff.1 hnone).2
    rw [Report.combine_eq_none_iff, List.map_eq_nil_iff] at hc
    exact ⟨(checkEach_faults_iff _ body).1 hc, rfl⟩

end LoopEscape
