import LoopEscape.Proofs.Meaning.Mirror

/-!
# Expanding callback loops keeps the meaning

By induction on the source, every statement is mirrored by what it is expanded to, whatever callback
loops are in it (`expandAll_mirrors`).  The body of a callback loop has the value of its pass besides,
which its task keeps in a variable (`PassMirrorsAt`).
-/

namespace LoopEscape

open Generate Step

variable {σ ε : Type}

/-! ### The value of a pass -/

section

variable {t : Taxonomy} {p : ExpandPlace} {scope : LabelScope}

theorem withValue_cons (s : Stmt) {rest : List Stmt} (h : rest ≠ []) :
    withValue t (s :: rest) = s :: withValue t rest := by
  obtain ⟨s', rest, rfl⟩ := List.exists_cons_of_ne_nil h
  cases s <;> rfl

theorem withValue_append (a : List Stmt) {b : List Stmt} (hb : b ≠ []) :
    withValue t (a ++ b) = a ++ withValue t b := by
  induction a with
  | nil => rfl
  | cons s rest ih =>
    rw [List.cons_append, List.cons_append, ← ih, withValue_cons s (by simp [hb])]

theorem withValue_of_last {a : List Stmt} (h : ∀ loc e, a.getLast? ≠ some (.expr loc e)) :
    withValue t a = a := by
  rcases List.eq_nil_or_concat a with rfl | ⟨rest, s, rfl⟩
  · rfl
  · rw [List.concat_eq_append, withValue_append rest (by simp)]
    cases s with
    | expr loc e => exact absurd (by simp) (h loc e)
    | _ => rfl

theorem withValue_orPass (loc : Loc) (m : Machine σ ε) (out : List Stmt) :
    Stmt.execAll m (withValue t (orPass loc out)) = Stmt.execAll m (withValue t out) := by
  cases out with
  | nil =>
    show Stmt.execAll m [.pass loc] = Stmt.execAll m []
    rw [Stmt.execAll_singleton, Stmt.exec, Stmt.execAll_nil]
  | cons s rest => rfl

theorem execAll_orPass (loc : Loc) (m : Machine σ ε) (out : List Stmt) :
    Stmt.execAll m (orPass loc out) = Stmt.execAll m out := by
  cases out with
  | nil =>
    show Stmt.execAll m [.pass loc] = Stmt.execAll m []
    rw [Stmt.execAll_singleton, Stmt.exec, Stmt.execAll_nil]
  | cons s rest => rfl

/-! ### What ends an expanded body -/

def Stmt.isDeclaration : Stmt → Bool
  | .global .. | .nonlocal .. => true
  | _ => false

theorem onlyDeclare_cons (s : Stmt) (rest : List Stmt) :
    Stmt.onlyDeclare (s :: rest) = (s.isDeclaration && Stmt.onlyDeclare rest) := by
  cases s <;> rfl

theorem expandsTo_last {s : Stmt} {out : List Stmt} (h : s.ExpandsTo p scope out)
    (hd : p.dropping = true) (hs : s.Covered false) :
    (s.isDeclaration = true ∧ out = []) ∨ (s.isDeclaration = false ∧ out ≠ [] ∧
      ∀ loc e, out.getLast? = some (.expr loc e) → s = .expr loc e ∧ out = [.expr loc e]) := by
  cases s with
  | callbackLoop loc header target iter body =>
    obtain ⟨-, id, decls, hoisted, wanted, body', -, rfl⟩ := h
    exact .inr ⟨rfl, by simp, fun _ _ hlast => by cases hlast⟩
  | global => exact .inl ⟨rfl, by simpa only [Stmt.ExpandsTo, hd, if_true] using h⟩
  | nonlocal => exact .inl ⟨rfl, by simpa only [Stmt.ExpandsTo, hd, if_true] using h⟩
  | for_ | while_ | if_ =>
    obtain ⟨body', orElse', -, -, rfl⟩ := h
    exact .inr ⟨rfl, by simp, fun _ _ hlast => by cases hlast⟩
  | try_ =>
    exact absurd hs.1 (by simp)
  | block =>
    obtain ⟨body', -, rfl⟩ := h
    exact .inr ⟨rfl, by simp, fun _ _ hlast => by cases hlast⟩
  | function | class_ | with_ | match_ | supportImport =>
    exact hs.elim
  | expr loc e =>
    obtain rfl := h
    exact .inr ⟨rfl, by simp, fun _ _ hlast => by cases hlast; exact ⟨rfl, rfl⟩⟩
  | _ =>
    obtain rfl := h
    exact .inr ⟨rfl, by simp, fun _ _ hlast => by cases hlast⟩

theorem expandAllTo_nil_iff (hd : p.dropping = true) {body out : List Stmt}
    (h : Stmt.ExpandAllTo p scope body out) (hs : Stmt.CoveredAll false body) :
    out = [] ↔ Stmt.onlyDeclare body = true := by
  induction body generalizing out with
  | nil =>
    rw [Stmt.ExpandAllTo] at h
    simpa [Stmt.onlyDeclare] using h
  | cons s rest ih =>
    rw [Stmt.ExpandAllTo] at h
    obtain ⟨s', rest', hs', hr, rfl⟩ := h
    rw [onlyDeclare_cons, List.append_eq_nil_iff, ih hr hs.2, Bool.and_eq_true]
    rcases expandsTo_last hs' hd (Stmt.every_iff.1 hs.1).1 with ⟨hi, ho⟩ | ⟨hi, ho, -⟩
    · simp [hi, ho]
    · simp [hi, ho]

theorem withValue_expanded (hd : p.dropping = true) {s : Stmt} {rest s' rest' : List Stmt}
    (hs : s.ExpandsTo p scope s') (hr : Stmt.ExpandAllTo p scope rest rest')
    (hc : s.Covered false) (hcr : Stmt.CoveredAll false rest)
    (h : ∀ loc e, s = .expr loc e → Stmt.onlyDeclare rest = true → False) :
    withValue t (s' ++ rest') = s' ++ withValue t rest' := by
  by_cases hnil : rest' = []
  · have hdecl := (expandAllTo_nil_iff hd hr hcr).1 hnil
    subst hnil
    rw [List.append_nil]
    show withValue t s' = s' ++ []
    rw [List.append_nil]
    refine withValue_of_last fun loc e hlast => ?_
    rcases expandsTo_last hs hd hc with ⟨-, rfl⟩ | ⟨-, -, he⟩
    · cases hlast
    · exact h loc e (he loc e hlast).1 hdecl
  · exact withValue_append s' hnil

end

/-! ### Passes -/

/-- The body of a callback loop and the code of its task: both end in the same way, and the value of
the pass is kept. -/
structure PassMirrorsAt (k : Nat) (scope : LabelScope) (f : Frame σ ε)
    (r : (Exit ε × Datum) × State σ ε) (r' : Exit ε × State σ ε) : Prop where
  exit : r'.1 = r.1.1
  world : r'.2.world = r.2.world
  inside : ∀ x, ¬ LoopNames.Outside x → x ≠ (LoopNames.of k).value → r'.2.frame x = f x
  value : f (LoopNames.of k).value = some (.value .none) →
    r'.2.frame (LoopNames.of k).value = some (.value r.1.2)
  fits : r.1.1.Fits scope
  noValue : r.1.1 ≠ .normal → r.1.2 = .none

section

variable {m : Machine σ ε} {k : Nat} {scope : LabelScope}

theorem not_outside_value (k : Nat) : ¬ LoopNames.Outside (LoopNames.of k).value :=
  LoopNames.not_outside_of_mem (k := k) (by simp [LoopNames.inside])

theorem slot_ne_value (k : Nat) : (LoopNames.of k).slot ≠ (LoopNames.of k).value :=
  MadeName.text_ne (m := .slot k) (n := .value k) (by simp)

theorem execPass_cons {s : Stmt} {rest : List Stmt}
    (h : ∀ loc e, s = .expr loc e → Stmt.onlyDeclare rest = true → False) (st : State σ ε) :
    Stmt.execPass m (s :: rest) st =
      match Stmt.exec m s st with
      | (.normal, st) => Stmt.execPass m rest st
      | (exit, st) => ((exit, .none), st) := by
  refine (Stmt.execPass.eq_3 m st rest s h).trans ?_
  rcases Stmt.exec m s st with ⟨_ | _, _⟩ <;> rfl

theorem PassMirrorsAt.cons {s : Stmt} {rest : List Stmt} {code code' : List Stmt}
    (hv : ∀ loc e, s = .expr loc e → Stmt.onlyDeclare rest = true → False)
    (hs : Mirrors scope (Stmt.exec m s) (Stmt.execAll m code))
    (hr : ∀ f f' w, PassMirrorsAt k scope f' (Stmt.execPass m rest ⟨f, w⟩)
      (Stmt.execAll m code' ⟨f', w⟩)) (f f' : Frame σ ε) (w : World σ) :
    PassMirrorsAt k scope f' (Stmt.execPass m (s :: rest) ⟨f, w⟩)
      (Stmt.execAll m (code ++ code') ⟨f', w⟩) := by
  obtain ⟨hexit, hworld, hinside, hfits⟩ := hs f f' w
  rw [execPass_cons hv, Stmt.execAll_append]
  unfold Step.andThen
  generalize Stmt.exec m s ⟨f, w⟩ = r at hexit hworld hfits
  generalize Stmt.execAll m code ⟨f', w⟩ = r' at hexit hworld hinside
  obtain ⟨e, fr, wr⟩ := r
  obtain ⟨e', fr', wr'⟩ := r'
  obtain rfl : e' = e := hexit
  obtain rfl : wr' = wr := hworld
  cases e' with
  | normal =>
    obtain ⟨h₁, h₂, h₃, h₄, h₅, h₆⟩ := hr fr fr' wr'
    exact ⟨h₁, h₂, fun x hx hne => (h₃ x hx hne).trans (hinside x hx),
      fun hf => h₄ ((hinside _ (not_outside_value k)).trans hf), h₅, h₆⟩
  | _ =>
    exact ⟨rfl, rfl, fun x hx _ => hinside x hx,
      fun hf => (hinside _ (not_outside_value k)).trans hf, hfits, fun _ => rfl⟩

theorem PassMirrorsAt.last {e : Expr} (h : Unreserved e.names) (loc : Loc) {rest : List Stmt}
    (hr : Stmt.onlyDeclare rest = true) (f f' : Frame σ ε) (w : World σ) :
    PassMirrorsAt k scope f' (Stmt.execPass m (.expr loc e :: rest) ⟨f, w⟩)
      (Stmt.execAll m [assign loc (LoopNames.of k).value e] ⟨f', w⟩) := by
  obtain ⟨r, w', hq, he⟩ := m.plain_evaluate h w
  have hv : isReserved (LoopNames.of k).value = true := isReserved_generatedName _
  rw [Stmt.execAll_singleton, exec_assign (Expr.relayed?_unreserved h), Query.andThen]
  unfold Stmt.execPass
  simp only [hr, hq]
  cases r with
  | error x =>
    obtain ⟨err, rfl⟩ := he x rfl
    exact ⟨rfl, rfl, fun _ _ _ => rfl, fun hf => hf, trivial, fun _ => rfl⟩
  | ok v =>
    simp only [Machine.assign, store, hv, if_true]
    exact ⟨rfl, rfl, fun x _ hne => if_neg hne, fun _ => if_pos rfl, trivial,
      fun hne => absurd rfl hne⟩

end

/-! ### Every statement -/

/-- A place in a function, of a module with all that expanded code needs there. -/
structure ExpandPlace.Within (p : ExpandPlace) (g : Globals) : Prop where
  own : g.Own
  support : p.imported = true → g.support = true
  inFunction : p.inFunction = true
  inClass : p.inClass = false

theorem ExpandPlace.Within.task {p : ExpandPlace} {g : Globals} (h : p.Within g) :
    p.task.Within g ∧ p.task.dropping = true :=
  ⟨⟨h.own, h.support, rfl, rfl⟩, by simp [ExpandPlace.task, h.inClass]⟩

section

variable {m : Machine σ ε} {scope : LabelScope} {loc : Loc} {mark : LoopMark}
  {body body' orElse orElse' : List Stmt}

theorem Mirrors.for_ {target iter : Expr} (hm : mark.valueTarget = none)
    (ht : Unreserved target.names) (hi : Unreserved iter.names)
    (hb : Mirrors (scope.enterLoop mark.label) (Stmt.execAll m body) (Stmt.execAll m body'))
    (he : Mirrors scope (Stmt.execAll m orElse) (Stmt.execAll m orElse')) :
    Mirrors scope (Stmt.exec m (.for_ loc false mark target iter body orElse))
      (Stmt.execAll m [.for_ loc false mark target iter (orPass loc body') orElse']) := by
  rw [Stmt.execAll_singleton, Stmt.exec, Stmt.exec, execAll_orPass]
  simp only [Bool.false_eq_true, if_false, Machine.execFor, Expr.support?_unreserved hi, reduceCtorEq]
  exact .query (State.plain_ask _ _) fun it => .loop hm (m.plain_advance ht it) hb he m.bound

theorem Mirrors.while_ {test : Expr} (hm : mark.valueTarget = none) (ht : Unreserved test.names)
    (hb : Mirrors (scope.enterLoop mark.label) (Stmt.execAll m body) (Stmt.execAll m body'))
    (he : Mirrors scope (Stmt.execAll m orElse) (Stmt.execAll m orElse')) :
    Mirrors scope (Stmt.exec m (.while_ loc mark test body orElse))
      (Stmt.execAll m [.while_ loc mark test (orPass loc body') orElse']) := by
  rw [Stmt.execAll_singleton, Stmt.exec, Stmt.exec, execAll_orPass]
  exact .loop hm (m.plain_test ht) hb he m.bound

theorem Mirrors.if_ {test : Expr} (ht : Unreserved test.names)
    (hb : Mirrors scope (Stmt.execAll m body) (Stmt.execAll m body'))
    (he : Mirrors scope (Stmt.execAll m orElse) (Stmt.execAll m orElse')) :
    Mirrors scope (Stmt.exec m (.if_ loc test body orElse))
      (Stmt.execAll m [.if_ loc test (orPass loc body') orElse']) := by
  rw [Stmt.execAll_singleton, Stmt.exec, Stmt.exec, execAll_orPass]
  refine .query (m.plain_test ht) fun holds => ?_
  cases holds with
  | true => exact hb
  | false => exact he

theorem Mirrors.block {label : String} {target : Option String} (ht : Unreserved target.toList)
    (hb : Mirrors (scope.enterBlock label) (Stmt.execAll m body) (Stmt.execAll m body')) :
    Mirrors scope (Stmt.exec m (.block loc label target body))
      (Stmt.execAll m [.block loc label target (orPass loc body')]) := by
  rw [Stmt.execAll_singleton, Stmt.exec, Stmt.exec, execAll_orPass]
  exact .andThen (.bind m loc ht .none) fun f f' w =>
    (hb f f' w).afterBlock fun v => .bind m loc ht v

theorem Mirrors.leaf {s : Stmt} (hs : s.bodies = []) (hown : m.globals.Own) (hc : s.Covered false)
    (hu : Unreserved s.names) (hf : s.Fits scope) : Mirrors scope (Stmt.exec m s) (Stmt.exec m s) := by
  cases s with
  | return_ =>
    rw [Stmt.names] at hu
    rw [Stmt.exec]
    exact .query (m.plain_evaluateOption hu) fun v => .same_exit trivial
  | assign =>
    rw [Stmt.names, unreserved_append] at hu
    rw [Stmt.exec]
    unfold Machine.execAssign
    split
    · rw [List.flatMap_singleton] at hu
      rw [Expr.relayed?_unreserved hu.2]
      exact .query (m.plain_evaluate hu.2) fun v => .assign m hu.1 v
    · exact .perform m _
  | annAssign =>
    rw [Stmt.exec]
    split
    · exact .same_done
    · exact .perform m _
  | raise =>
    rw [Stmt.names, unreserved_append] at hu
    rw [Stmt.exec, m.execRaise_unreserved hown hu.1]
    exact .perform m _
  | expr =>
    rw [Stmt.names] at hu
    rw [Stmt.exec, Machine.execExpr, Expr.abort?_unreserved hu]
    exact .query (m.plain_evaluate hu) fun _ => .same_done
  | break_ _ label value =>
    rw [Stmt.names] at hu
    rw [Stmt.Fits] at hf
    rw [Stmt.exec]
    cases value with
    | none => exact .same_exit ⟨false, hf, fun _ => rfl⟩
    | some e =>
      exact .query (m.plain_evaluateOption hu) fun v => .same_exit ⟨true, hf, fun h => by cases h⟩
  | continue_ =>
    rw [Stmt.Fits] at hf
    rw [Stmt.exec]
    exact .same_exit ⟨hf, rfl⟩
  | global | nonlocal | pass =>
    rw [Stmt.exec]
    exact .same_done
  | delete | augAssign | assert_ | import_ | importFrom =>
    rw [Stmt.exec]
    exact .perform m _
  | match_ | supportImport => exact hc.elim
  | _ => cases hs

end

/-- A body and what it is expanded to, as statements and as the body of a callback loop. -/
structure MirrorsSuite (m : Machine σ ε) (p : ExpandPlace) (scope : LabelScope) (body out : List Stmt) :
    Prop where
  all : Mirrors scope (Stmt.execAll m body) (Stmt.execAll m out)
  pass : p.dropping = true → ∀ (k : Nat) (t : Taxonomy), t.names = LoopNames.of k → ∀ f f' w,
    PassMirrorsAt k scope f' (Stmt.execPass m body ⟨f, w⟩) (Stmt.execAll m (withValue t out) ⟨f', w⟩)


theorem Mirrors.statement {m : Machine σ ε} {p : ExpandPlace} {scope : LabelScope} {s : Stmt}
    {out : List Stmt} (hp : p.Within m.globals) (hc : s.Every (Stmt.Covered false))
    (hu : Unreserved s.names) (hf : s.Fits scope) (h : s.ExpandsTo p scope out)
    (ih : ∀ b ∈ s.bodies, ∀ {p : ExpandPlace} {scope : LabelScope} {out : List Stmt},
      p.Within m.globals → Stmt.CoveredAll false b → Unreserved (Stmt.namesAll b) →
      Stmt.FitAll scope b → Stmt.ExpandAllTo p scope b out → MirrorsSuite m p scope b out) :
    Mirrors scope (Stmt.exec m s) (Stmt.execAll m out) := by
  cases s with
  | callbackLoop loc header target iter body =>
    obtain ⟨⟨-, hform, hnodup⟩, hbody⟩ := hc
    obtain ⟨form, hform⟩ := Option.isSome_iff_exists.1 hform
    rw [Stmt.names, unreserved_append, unreserved_append, unreserved_append] at hu
    obtain ⟨⟨⟨hres, htarget⟩, -⟩, hnames⟩ := hu
    obtain ⟨-, ds, hds, hfit⟩ := hf
    obtain ⟨himported, k, decls, hoisted, wanted, body', hexpand, rfl⟩ := h
    rw [enterHeader_eq hds] at hexpand
    have hpass := (ih body (.head _) hp.task.1 hbody hnames hfit hexpand).pass hp.task.2 k
      (Taxonomy.of k header.toLoopHeader) rfl
    rw [Stmt.exec, hp.inFunction]
    refine .callback (hp.support himported) hform hds hnodup htarget hres
      (execAll_scopeStart loc hoisted wanted) (fun f st hst => ?_) (fun f w => ?_) decls p.debug
    · rw [withValue_orPass]
      obtain ⟨h₁, h₂, h₃, h₄, -, -⟩ := hpass f st.frame st.world
      have hslot : ¬ LoopNames.Outside (LoopNames.of k).slot :=
        LoopNames.not_outside_of_mem (k := k) (by simp [LoopNames.inside])
      exact ⟨h₁, h₂, (h₃ _ hslot (slot_ne_value k)).trans hst.slot, h₄ hst.value⟩
    · exact ⟨(hpass f f w).fits, (hpass f f w).noValue⟩
  | for_ loc isAsync mark target iter body orElse =>
    obtain ⟨⟨rfl, hmark⟩, hbody, horElse⟩ := hc
    rw [Stmt.names, unreserved_append, unreserved_append, unreserved_append] at hu
    obtain ⟨⟨⟨htarget, hiter⟩, hnames⟩, hnamesElse⟩ := hu
    obtain ⟨body', orElse', hb, he, rfl⟩ := h
    exact .for_ hmark htarget hiter (ih body (.head _) hp hbody hnames hf.1 hb).all
      (ih orElse (.tail _ (.head _)) hp horElse hnamesElse hf.2 he).all
  | while_ loc mark test body orElse =>
    obtain ⟨hmark, hbody, horElse⟩ := hc
    rw [Stmt.names, unreserved_append, unreserved_append] at hu
    obtain ⟨⟨htest, hnames⟩, hnamesElse⟩ := hu
    obtain ⟨body', orElse', hb, he, rfl⟩ := h
    exact .while_ hmark htest (ih body (.head _) hp hbody hnames hf.1 hb).all
      (ih orElse (.tail _ (.head _)) hp horElse hnamesElse hf.2 he).all
  | if_ loc test body orElse =>
    rw [Stmt.names, unreserved_append, unreserved_append] at hu
    obtain ⟨⟨htest, hnames⟩, hnamesElse⟩ := hu
    obtain ⟨body', orElse', hb, he, rfl⟩ := h
    exact .if_ htest (ih body (.head _) hp hc.2.1 hnames hf.1 hb).all
      (ih orElse (.tail _ (.head _)) hp hc.2.2 hnamesElse hf.2 he).all
  | block loc label target body =>
    rw [Stmt.names, unreserved_append] at hu
    obtain ⟨body', hb, rfl⟩ := h
    exact .block hu.1 (ih body (.head _) hp hc.2 hu.2 hf hb).all
  | global | nonlocal =>
    obtain rfl := h
    split
    · rw [Stmt.exec, Stmt.execAll_nil]
      exact .same_done
    · rw [Stmt.execAll_singleton]
      exact .leaf rfl hp.own hc hu hf
  | try_ => cases hc.1.1
  | function | class_ | with_ | match_ => exact hc.1.elim
  | supportImport => exact hc.elim
  | _ =>
    obtain rfl := h
    rw [Stmt.execAll_singleton]
    exact .leaf rfl hp.own hc hu hf

theorem expandAll_mirrors (m : Machine σ ε) {p : ExpandPlace} {scope : LabelScope} {body out : List Stmt}
    (hp : p.Within m.globals) (hc : Stmt.CoveredAll false body) (hu : Unreserved (Stmt.namesAll body))
    (hf : Stmt.FitAll scope body) (h : Stmt.ExpandAllTo p scope body out) :
    MirrorsSuite m p scope body out := by
  induction body using Stmt.suite_induction generalizing p scope out with
  | nil =>
    obtain rfl := h
    refine ⟨?_, fun hd k t ht f f' w => ?_⟩
    · rw [Stmt.execAll_nil]
      exact .same_done
    · rw [withValue, Stmt.execAll_nil, Stmt.execPass]
      exact ⟨rfl, rfl, fun _ _ _ => rfl, fun hf => hf, trivial, fun _ => rfl⟩
  | cons s rest ih ihrest =>
    obtain ⟨hc, hcr⟩ := hc
    rw [Stmt.namesAll, unreserved_append] at hu
    obtain ⟨s', rest', hs, hr, rfl⟩ := h
    have hmirror := Mirrors.statement hp hc hu.1 hf.1 hs ih
    have hrest := ihrest hp hcr hu.2 hf.2 hr
    refine ⟨?_, fun hd k t ht f f' w => ?_⟩
    · rw [Stmt.execAll_cons, Stmt.execAll_append]
      exact .andThen hmirror hrest.all
    by_cases hv : ∃ loc e, s = .expr loc e ∧ Stmt.onlyDeclare rest = true
    · obtain ⟨loc, e, rfl, hdecl⟩ := hv
      obtain rfl := (expandAllTo_nil_iff hd hr hcr).2 hdecl
      obtain rfl := hs
      rw [Stmt.names] at hu
      rw [List.append_nil, withValue, ht]
      exact .last hu.1 loc hdecl f f' w
    · have hv : ∀ loc e, s = .expr loc e → Stmt.onlyDeclare rest = true → False :=
        fun loc e he hdecl => hv ⟨loc, e, he, hdecl⟩
      rw [withValue_expanded hd hs hr (Stmt.every_iff.1 hc).1 hcr hv]
      exact .cons hv hmirror (hrest.pass hd k t ht) f f' w

end LoopEscape
