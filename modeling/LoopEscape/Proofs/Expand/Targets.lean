import LoopEscape.Proofs.Expand.Relation
import LoopEscape.Proofs.Generate.Pieces
import LoopEscape.Proofs.Tree.Every
import LoopEscape.Proofs.Lower.Visible

/-!
# Jumps in expanded code have targets

The body of a callback loop is moved into a task, and what was around it is no longer there: the layers
of the task stand for the loop and for the labels of its break clause.  What fits the labels of the
source is expanded to code without callback loops in which every jump has a target
(`expandAll_resolves`).
-/

namespace LoopEscape

open Generate

variable {es : List EscapeLabel} {e : EscapeLabel} {scope : LabelScope} {ds : List LabelDecl}
  {body : List Stmt}

/-! ### Distinct labels -/

def Stmt.DistinctLabels : Stmt → Prop
  | .callbackLoop _ header _ _ _ => (header.escapes.map (·.label)).Nodup
  | _ => True

/-! ### The targets in a task -/

def EscapeLabel.shape (e : EscapeLabel) : Option String × Bool := (some e.label, e.loops)

theorem resolves_clause (hn : (es.map (·.label)).Nodup) (he : e ∈ es) :
    Shape.Resolves (es.map EscapeLabel.shape) (if e.loops then .continue_ else .break_)
      (some e.label) := by
  induction es with
  | nil => exact absurd he (by simp)
  | cons a es ih =>
    rw [List.map_cons, List.nodup_cons] at hn
    rcases List.mem_cons.1 he with rfl | he
    · refine .head (by simp [Shape.isTarget, EscapeLabel.shape]) (fun hk => ?_) _
      cases hl : e.loops with
      | true => exact hl
      | false => simp [hl] at hk
    · refine (ih hn.2 he).cons fun ht => absurd ?_ hn.1
      have hlabel : a.label = e.label := by simpa [Shape.isTarget, EscapeLabel.shape] using ht
      exact List.mem_map.2 ⟨e, he, hlabel.symm⟩

theorem LabelScope.Sees.clause {shape : Shape} (hs : scope.Sees shape) (hds : scope.escapes es = .ok ds)
    (he : e ∈ es) : shape.Resolves .break_ (some e.label) ∧
      (e.loops = true → shape.Resolves .continue_ (some e.label)) := by
  induction escapes_ok_iff.1 hds with
  | nil => exact absurd he (by simp)
  | cons hd hes ih =>
    rcases List.mem_cons.1 he with rfl | he
    · obtain ⟨outer, ho, hc, -⟩ := escape_ok_iff.1 hd
      have hres := hs.label _ _ ho
      refine ⟨hres.break_, fun hl => ?_⟩
      rwa [LabelDecl.hardest, hc hl] at hres
    · exact ih (escapes_ok_iff.2 hes) he

theorem LabelScope.Sees.enterCallback (hds : scope.escapes es = .ok ds) (hn : (es.map (·.label)).Nodup)
    (label : Option String) :
    (scope.enterCallback label ds).Sees ((label, true) :: es.map EscapeLabel.shape) := by
  refine ⟨fun l d hd => ?_, fun _ => .head rfl (fun _ => rfl) _⟩
  rcases lookup_enterCallback_cases hds hd with ⟨hl, -⟩ | ⟨-, e, he, hl, outer, -, -, rfl⟩
  · exact .head (by simp [Shape.isTarget, hl]) (fun _ => rfl) _
  · subst hl
    exact (resolves_clause hn he).cons fun _ _ => rfl

/-! ### Pieces of expanded code -/

section

variable {shape : Shape}

theorem resolveAll_iff :
    Stmt.ResolveAll shape body ↔ ∀ s ∈ body, Stmt.Resolves shape s := by
  induction body with
  | nil => simp [Stmt.ResolveAll]
  | cons s rest ih => simp [Stmt.ResolveAll, ih]

theorem resolveAll_append {a b : List Stmt} :
    Stmt.ResolveAll shape (a ++ b) ↔ Stmt.ResolveAll shape a ∧ Stmt.ResolveAll shape b := by
  simp only [resolveAll_iff, List.forall_mem_append]

theorem resolveAll_orPass {loc : Loc} (h : Stmt.ResolveAll shape body) :
    Stmt.ResolveAll shape (orPass loc body) := by
  refine resolveAll_iff.2 fun s hs => ?_
  rcases mem_orPass hs with hs | rfl
  · exact resolveAll_iff.1 h s hs
  · trivial

theorem resolveAll_declarations (loc : Loc) (globals nonlocals : List String) :
    Stmt.ResolveAll shape (declarations loc globals nonlocals) := by
  refine resolveAll_iff.2 fun s hs => ?_
  rcases mem_declarations hs with rfl | rfl <;> trivial

theorem resolveAll_scopeStart (loc : Loc) (hoisted : Declarations) (wanted : List String) :
    Stmt.ResolveAll shape (scopeStart loc hoisted wanted) := by
  refine resolveAll_iff.2 fun s hs => ?_
  rcases mem_scopeStart hs with rfl | rfl | ⟨x, -, rfl⟩ <;> trivial

theorem resolveAll_insertAfterDoc {decls : List Stmt} (hd : Stmt.ResolveAll shape decls)
    (h : Stmt.ResolveAll shape body) : Stmt.ResolveAll shape (insertAfterDoc decls body) := by
  refine resolveAll_iff.2 fun s hs => ?_
  rcases mem_insertAfterDoc hs with hs | hs
  · exact resolveAll_iff.1 hd s hs
  · exact resolveAll_iff.1 h s hs

theorem resolveAll_withValue (t : Taxonomy) (h : Stmt.ResolveAll shape body) :
    Stmt.ResolveAll shape (withValue t body) := by
  refine resolveAll_iff.2 fun s hs => ?_
  rcases mem_withValue hs with hs | ⟨loc, e, -, rfl⟩
  · exact resolveAll_iff.1 h s hs
  · trivial

theorem resolveAll_escapeLayer (t : Taxonomy) (loc : Loc) {inner : List Stmt}
    (h : Stmt.ResolveAll (e.shape :: shape) inner) :
    Stmt.ResolveAll shape (escapeLayer t loc inner e) := by
  unfold escapeLayer
  split
  · next hl =>
    rw [EscapeLabel.shape, hl] at h
    exact ⟨trivial, ⟨h, trivial, trivial⟩, trivial, trivial⟩
  · next hl =>
    rw [EscapeLabel.shape, eq_false_of_ne_true hl] at h
    exact ⟨h, trivial, trivial⟩

theorem resolveAll_layers (t : Taxonomy) (loc : Loc) (label : Option String)
    (h : Stmt.ResolveAll ((label, true) :: t.escapes.map EscapeLabel.shape) body) :
    Stmt.ResolveAll [] (layers t loc label body) := by
  have hlayers : ∀ (es : List EscapeLabel) (inner : List Stmt),
      Stmt.ResolveAll (es.map EscapeLabel.shape) inner →
      Stmt.ResolveAll [] (es.foldl (escapeLayer t loc) inner) := by
    intro es
    induction es with
    | nil => exact fun inner h => h
    | cons e es ih => exact fun inner h => ih _ (resolveAll_escapeLayer t loc h)
  exact hlayers t.escapes _ ⟨trivial, ⟨resolveAll_withValue t h, trivial, trivial⟩, trivial, trivial⟩

theorem resolves_task (t : Taxonomy) (loc : Loc) (label : Option String) (decls : Declarations)
    (target : Expr) {extra : List Stmt} (he : Stmt.ResolveAll [] extra)
    (h : Stmt.ResolveAll ((label, true) :: t.escapes.map EscapeLabel.shape) body) :
    Stmt.Resolves shape (task t loc label decls target extra body) :=
  resolveAll_append.2 ⟨resolveAll_append.2 ⟨he, resolveAll_declarations ..⟩, trivial, trivial,
    resolveAll_layers t loc label h⟩

theorem resolveAll_ifChain (loc : Loc) {orElse : List Stmt} {bs : List (Expr × List Stmt)}
    (ho : Stmt.ResolveAll shape orElse) (hb : ∀ b ∈ bs, Stmt.ResolveAll shape b.2) :
    Stmt.ResolveAll shape (ifChain loc orElse bs) := by
  induction bs with
  | nil => exact ho
  | cons b bs ih =>
    exact ⟨⟨hb b (by simp), ih fun b' hb' => hb b' (by simp [hb'])⟩, trivial⟩

theorem resolves_setResult (loc : Loc) (result : Option String) (value : Expr) :
    Stmt.Resolves shape (setResult loc result value) := by
  cases result <;> trivial

theorem resolveAll_dispatch (hs : scope.Sees shape) (t : Taxonomy) (loc : Loc) {header : CallbackHeader}
    (hds : scope.escapes header.escapes = .ok ds) (iter : Expr) (inFunction debug : Bool) :
    Stmt.ResolveAll shape (dispatch t loc header iter inFunction debug) := by
  refine ⟨trivial, resolveAll_ifChain loc ⟨trivial, trivial⟩ fun b hb => ?_⟩
  obtain ⟨s, hb, hr⟩ := mem_branches hb
  rw [hb]
  refine ⟨?_, trivial⟩
  cases hr with
  | result | broken => exact resolves_setResult ..
  | wrong | returned => trivial
  | breakTo he => exact (hs.clause hds he).1
  | continueTo he hl => exact (hs.clause hds he).2 hl

end

/-! ### Every statement -/

mutual

theorem expand_resolves (s : Stmt) {p : ExpandPlace} {scope : LabelScope} {shape : Shape} {out : List Stmt}
    (hs : scope.Sees shape) (hd : s.Every Stmt.DistinctLabels) (hf : s.Fits scope) (h : s.ExpandsTo p scope out) :
    Stmt.ResolveAll shape out := by
  cases s with
  | callbackLoop loc header target iter body =>
    rw [Stmt.Every, Stmt.DistinctLabels] at hd
    obtain ⟨-, ds, hds, hfit⟩ := hf
    obtain ⟨-, k, decls, hoisted, wanted, body', hb, rfl⟩ := h
    rw [enterHeader_eq hds] at hb
    have hbody := expandAll_resolves body (.enterCallback hds hd.1 header.label) hd.2 hfit hb
    have hclause : scope.escapes (escapeValues scope header).escapes = .ok ds := by
      rw [escapeValues_toLoopHeader, hds]
    exact ⟨resolves_task _ loc header.label decls target (resolveAll_scopeStart ..)
      (resolveAll_orPass hbody), resolveAll_dispatch hs _ loc hclause iter p.inFunction p.debug⟩
  | function loc isAsync name params body decorators returns =>
    obtain ⟨hoisted, wanted, body', hb, rfl⟩ := h
    exact ⟨resolveAll_insertAfterDoc (resolveAll_scopeStart ..)
      (expandAll_resolves body (LabelScope.sees_empty .function) hd.2 hf hb), trivial⟩
  | class_ loc name bases keywords body decorators =>
    obtain ⟨body', hb, rfl⟩ := h
    exact ⟨expandAll_resolves body (LabelScope.sees_empty .class_) hd.2 hf hb, trivial⟩
  | for_ loc isAsync mark target iter body orElse | while_ loc mark test body orElse =>
    obtain ⟨body', orElse', hb, he, rfl⟩ := h
    exact ⟨⟨resolveAll_orPass (expandAll_resolves body (hs.enterLoop mark.label) hd.2.1 hf.1 hb),
      expandAll_resolves orElse hs hd.2.2 hf.2 he⟩, trivial⟩
  | if_ loc test body orElse =>
    obtain ⟨body', orElse', hb, he, rfl⟩ := h
    exact ⟨⟨resolveAll_orPass (expandAll_resolves body hs hd.2.1 hf.1 hb),
      expandAll_resolves orElse hs hd.2.2 hf.2 he⟩, trivial⟩
  | with_ loc isAsync items body =>
    obtain ⟨body', hb, rfl⟩ := h
    exact ⟨resolveAll_orPass (expandAll_resolves body hs hd.2 hf hb), trivial⟩
  | match_ loc subject cases =>
    obtain ⟨cases', hc, rfl⟩ := h
    exact ⟨expandCases_resolves cases hs hd.2 hf hc, trivial⟩
  | try_ loc isStar body handlers orElse final =>
    obtain ⟨body', handlers', orElse', final', hb, hh, he, hl, rfl⟩ := h
    exact ⟨⟨resolveAll_orPass (expandAll_resolves body hs hd.2.1 hf.1 hb),
      expandHandlers_resolves handlers hs hd.2.2.1 hf.2.1 hh,
      expandAll_resolves orElse hs hd.2.2.2.1 hf.2.2.1 he,
      expandAll_resolves final hs hd.2.2.2.2 hf.2.2.2 hl⟩, trivial⟩
  | block loc label target body =>
    obtain ⟨body', hb, rfl⟩ := h
    exact ⟨resolveAll_orPass (expandAll_resolves body (hs.enterBlock label) hd.2 hf hb), trivial⟩
  | break_ _ label value =>
    obtain rfl := h
    exact ⟨hs.break_ hf, trivial⟩
  | continue_ _ label =>
    obtain rfl := h
    exact ⟨hs.continue_ hf, trivial⟩
  | global | nonlocal =>
    obtain rfl := h
    split
    · trivial
    · exact ⟨trivial, trivial⟩
  | _ =>
    obtain rfl := h
    exact ⟨trivial, trivial⟩
termination_by structural s

theorem expandAll_resolves :
    ∀ (body : List Stmt) {p : ExpandPlace} {scope : LabelScope} {shape : Shape} {out : List Stmt},
      scope.Sees shape → Stmt.EveryAll Stmt.DistinctLabels body → Stmt.FitAll scope body →
      Stmt.ExpandAllTo p scope body out → Stmt.ResolveAll shape out
  | [], _, _, _, _, _, _, _, h => by
    obtain rfl := h
    trivial
  | s :: rest, _, _, _, _, hs, hd, hf, h => by
    obtain ⟨s', rest', he, hr, rfl⟩ := h
    exact resolveAll_append.2
      ⟨expand_resolves s hs hd.1 hf.1 he, expandAll_resolves rest hs hd.2 hf.2 hr⟩

theorem expandHandlers_resolves :
    ∀ (handlers : List Handler) {p : ExpandPlace} {scope : LabelScope} {shape : Shape}
      {out : List Handler}, scope.Sees shape → Handler.EveryAll Stmt.DistinctLabels handlers →
      Handler.FitAll scope handlers → Handler.ExpandAllTo p scope handlers out →
      Handler.ResolveAll shape out
  | [], _, _, _, _, _, _, _, h => by
    obtain rfl := h
    trivial
  | .mk _ _ _ body :: rest, _, _, _, _, hs, hd, hf, h => by
    obtain ⟨body', rest', hb, hr, rfl⟩ := h
    exact ⟨resolveAll_orPass (expandAll_resolves body hs hd.1 hf.1 hb),
      expandHandlers_resolves rest hs hd.2 hf.2 hr⟩

theorem expandCases_resolves :
    ∀ (cases : List MatchCase) {p : ExpandPlace} {scope : LabelScope} {loc : Loc} {shape : Shape}
      {out : List MatchCase}, scope.Sees shape → MatchCase.EveryAll Stmt.DistinctLabels cases →
      MatchCase.FitAll scope cases → MatchCase.ExpandAllTo p scope loc cases out →
      MatchCase.ResolveAll shape out
  | [], _, _, _, _, _, _, _, _, h => by
    obtain rfl := h
    trivial
  | .mk _ _ body :: rest, _, _, _, _, _, hs, hd, hf, h => by
    obtain ⟨body', rest', hb, hr, rfl⟩ := h
    exact ⟨resolveAll_orPass (expandAll_resolves body hs hd.1 hf.1 hb),
      expandCases_resolves rest hs hd.2 hf.2 hr⟩

end

end LoopEscape
