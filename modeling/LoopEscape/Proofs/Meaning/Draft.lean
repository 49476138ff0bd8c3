import LoopEscape.Proofs.Meaning.Labels
import LoopEscape.Proofs.Expand.Relation
import LoopEscape.Proofs.Generate.Pieces

/-!
# Expanded code can be lowered

Lowering keeps the meaning of code that leaves some generated names alone, and whose loops take values
in variables that are emptied before.  Expanded code is of this kind: the variables of a task belong to
it alone, and around a loop there are only those for the task and for what the call returned.
-/

namespace LoopEscape

open Generate Lower

/-! ### Names that expanded code leaves alone -/

def LeftAlone (names : List String) : Prop :=
  ∀ x ∈ names, isReserved x = true ∧ ¬ LoopNames.Outside x

theorem jumpVariable_not_outside : ¬ LoopNames.Outside jumpVariable :=
  LoopNames.not_outside (m := .caught) (by simp)

theorem leftAlone_jumpVariable : LeftAlone [jumpVariable] := by
  intro x hx
  rw [List.mem_singleton.1 hx]
  exact ⟨isReserved_generatedName _, jumpVariable_not_outside⟩

theorem jumpVariable_notMem_inside (k : Nat) : jumpVariable ∉ LoopNames.inside k := fun h => by
  simpa using LoopNames.mem_inside (m := .caught).1 h

/-- The names that are left alone between the layers of a task: variables for the labels of layers
further out, and the one for caught jumps. -/
def LayerNames (k : Nat) (labels names : List String) : Prop :=
  ∀ x ∈ names, x = jumpVariable ∨ ∃ l ∈ labels, x = breakVariable k l

namespace LayerNames

variable {k : Nat} {labels names : List String}

theorem notMem_of_inside (h : LayerNames k labels names) {x : String} (hx : x ∈ LoopNames.inside k) :
    x ∉ names := by
  intro hmem
  rcases h x hmem with rfl | ⟨l, -, rfl⟩
  · exact jumpVariable_notMem_inside k hx
  · exact LoopNames.breakVariable_notMem k l hx

theorem breakVariable_notMem (h : LayerNames k labels names) {l : String} (hl : l ∉ labels) :
    breakVariable k l ∉ names := by
  intro hmem
  rcases h _ hmem with heq | ⟨l', hl', heq⟩
  · exact MadeName.text_ne (m := .breakVar k l) (n := .caught) (by simp) heq
  · exact hl (LoopNames.breakVariable_injective heq ▸ hl')

theorem leftAlone (h : LayerNames k labels names) :
    LeftAlone ((LoopNames.of k).brk :: names) := by
  intro x hx
  rcases List.mem_cons.1 hx with rfl | hx
  · exact ⟨isReserved_generatedName _,
      LoopNames.not_outside_of_mem (k := k) (by simp [LoopNames.inside])⟩
  · rcases h x hx with rfl | ⟨l, -, rfl⟩
    · exact ⟨isReserved_generatedName _, jumpVariable_not_outside⟩
    · exact ⟨isReserved_generatedName _, LoopNames.not_outside (m := .breakVar k l) (by simp)⟩

end LayerNames

theorem avoids_store {names : List String} {x : String} (hx : x ∉ names) (s : Span) :
    (store s x).Avoids names := by
  intro s' y hy
  cases hy
  exact hx

/-! ### Code without loops that take values -/

def Stmt.Loose (names : List String) (s : Stmt) : Prop :=
  s.Drafted false names ∧ s.valueTarget? = none

section

variable {names : List String}

theorem draftedAll_append {a b : List Stmt} (ha : ∀ s ∈ a, s.Loose names)
    (hb : ∀ cleared, Stmt.DraftedAll false names cleared b) (cleared : Option String) :
    Stmt.DraftedAll false names cleared (a ++ b) := by
  induction a generalizing cleared with
  | nil => exact hb cleared
  | cons s rest ih =>
    obtain ⟨hs, hv⟩ := ha s (by simp)
    rw [List.cons_append, Stmt.DraftedAll, hv]
    exact ⟨hs, fun _ hx => (by cases hx), ih (fun s' hs' => ha s' (by simp [hs'])) _⟩

theorem draftedAll_of_loose {body : List Stmt} (h : ∀ s ∈ body, s.Loose names)
    (cleared : Option String) : Stmt.DraftedAll false names cleared body := by
  have := draftedAll_append (b := []) h (fun _ => by rw [Stmt.DraftedAll]; trivial) cleared
  rwa [List.append_nil] at this

theorem loose_assign {x : String} (hx : x ∉ names) (loc : Loc) (e : Expr) :
    (assign loc x e).Loose names := by
  refine ⟨?_, rfl⟩
  rw [assign, Stmt.Drafted]
  refine ⟨fun t ht => ?_, fun _ => rfl⟩
  rw [List.mem_singleton.1 ht]
  exact avoids_store hx _

theorem loose_orPass {loc : Loc} {body : List Stmt} (h : ∀ s ∈ body, s.Loose names) :
    ∀ s ∈ orPass loc body, s.Loose names := by
  intro s hs
  rcases mem_orPass hs with hs | rfl
  · exact h s hs
  · exact ⟨trivial, rfl⟩

theorem loose_declarations (loc : Loc) (globals nonlocals : List String) :
    ∀ s ∈ declarations loc globals nonlocals, s.Loose names := by
  intro s hs
  rcases mem_declarations hs with rfl | rfl <;> exact ⟨trivial, rfl⟩

theorem loose_scopeStart (loc : Loc) (hoisted : Declarations) (wanted : List String) :
    ∀ s ∈ scopeStart loc hoisted wanted, s.Loose names := by
  intro s hs
  rcases mem_scopeStart hs with rfl | rfl | ⟨x, -, rfl⟩ <;> exact ⟨trivial, rfl⟩

theorem loose_withValue {t : Taxonomy} (ht : t.names.value ∉ names) {body : List Stmt}
    (h : ∀ s ∈ body, s.Loose names) : ∀ s ∈ withValue t body, s.Loose names := by
  intro s hs
  rcases mem_withValue hs with hs | ⟨loc, e, -, rfl⟩
  · exact h s hs
  · exact loose_assign ht loc e

end

/-! ### The layers of a task -/

section

variable {k : Nat} {header : LoopHeader} {loc : Loc} {names : List String}

theorem loose_abort (h : (LoopNames.of k).slot ∉ names) (flow : Expr) :
    (abort (Taxonomy.of k header) loc flow).Loose names := by
  refine ⟨?_, rfl⟩
  rw [abort, Stmt.Drafted]
  intro slot flow' heq
  have hr : isReserved (LoopNames.of k).slot = true := isReserved_generatedName _
  simp only [Expr.abort?, call, attr, load, Taxonomy.of, hr, if_true, Option.some.injEq,
    Prod.mk.injEq] at heq
  exact ⟨rfl, heq.1 ▸ h⟩

theorem draftedAll_onceLayer {x : String} (hr : isReserved x = true) (hx : x ∉ names)
    (honce : (LoopNames.of k).once ∉ x :: names) (hslot : (LoopNames.of k).slot ∉ names)
    {inner : List Stmt} (hi : ∀ cleared, Stmt.DraftedAll false (x :: names) cleared inner)
    (label : Option String) (flow flow' : Expr) (cleared : Option String) :
    Stmt.DraftedAll false names cleared
      [assign loc x (nothing loc.span),
        onceLoop (Taxonomy.of k header) loc label x inner [abort (Taxonomy.of k header) loc flow],
        abort (Taxonomy.of k header) loc flow'] := by
  have hclears : (assign loc x (nothing loc.span)).clears? = some x := by
    simp [Stmt.clears?, assign, store, nothing, hr]
  have habort : ∀ flow cleared, Stmt.DraftedAll false names cleared
      [abort (Taxonomy.of k header) loc flow] := fun flow =>
    draftedAll_of_loose fun s hs => by
      rw [List.mem_singleton.1 hs]
      exact loose_abort hslot flow
  rw [Stmt.DraftedAll, Stmt.DraftedAll, hclears]
  refine ⟨(loose_assign hx loc _).1, fun _ h => (by cases h), ?_, fun _ h => h, habort flow' _⟩
  rw [onceLoop, Stmt.Drafted]
  refine ⟨fun h => (by cases h), avoids_store honce _, fun y hy => ?_, hi none, habort flow none⟩
  cases hy
  exact ⟨rfl, hr, hx⟩

def clauseNames (k : Nat) (es : List EscapeLabel) : List String :=
  ((es.filter (·.loops)).map fun e => breakVariable k e.label) ++ [jumpVariable]

theorem layerNames_clause (k : Nat) (es : List EscapeLabel) :
    LayerNames k (es.map (·.label)) (clauseNames k es) := by
  intro x hx
  rcases List.mem_append.1 hx with hx | hx
  · obtain ⟨e, he, rfl⟩ := List.mem_map.1 hx
    exact .inr ⟨e.label, List.mem_map.2 ⟨e, List.mem_of_mem_filter he, rfl⟩, rfl⟩
  · exact .inl (List.mem_singleton.1 hx)

theorem draftedAll_escapeLayer {e : EscapeLabel} {es : List EscapeLabel}
    (he : e.label ∉ es.map (·.label)) {inner : List Stmt}
    (hi : ∀ cleared, Stmt.DraftedAll false (clauseNames k (e :: es)) cleared inner)
    (cleared : Option String) :
    Stmt.DraftedAll false (clauseNames k es) cleared
      (escapeLayer (Taxonomy.of k header) loc inner e) := by
  have hnames := layerNames_clause k es
  have hslot := hnames.notMem_of_inside (x := (LoopNames.of k).slot) (by simp [LoopNames.inside])
  have honce : (LoopNames.of k).once ∉ breakVariable k e.label :: clauseNames k es := by
    rw [List.mem_cons, not_or]
    refine ⟨fun heq => LoopNames.breakVariable_notMem k e.label ?_,
      hnames.notMem_of_inside (by simp [LoopNames.inside])⟩
    simp [← heq, LoopNames.inside]
  have hbrk := hnames.breakVariable_notMem he
  cases hl : e.loops with
  | true =>
    rw [clauseNames, List.filter_cons_of_pos hl] at hi
    simp only [escapeLayer, hl, if_true]
    exact draftedAll_onceLayer (isReserved_generatedName _) hbrk honce hslot hi _ _ _ cleared
  | false =>
    rw [clauseNames, List.filter_cons_of_neg (by simp [hl])] at hi
    simp only [escapeLayer, hl, Bool.false_eq_true, if_false]
    rw [Stmt.DraftedAll, Stmt.Drafted]
    refine ⟨⟨fun x hx => ?_, hi none⟩, fun _ h => (by cases h),
      draftedAll_of_loose (fun s hs => ?_) _⟩
    · cases hx
      exact hbrk
    · rw [List.mem_singleton.1 hs]
      exact loose_abort hslot _

theorem draftedAll_layers (hn : (header.escapes.map (·.label)).Nodup) (label : Option String)
    {body : List Stmt}
    (hb : ∀ s ∈ body, s.Loose ((LoopNames.of k).brk :: clauseNames k header.escapes))
    (cleared : Option String) :
    Stmt.DraftedAll false [jumpVariable] cleared (layers (Taxonomy.of k header) loc label body) := by
  have hlayers : ∀ (es : List EscapeLabel) (inner : List Stmt), (es.map (·.label)).Nodup →
      (∀ cleared, Stmt.DraftedAll false (clauseNames k es) cleared inner) →
      ∀ cleared, Stmt.DraftedAll false [jumpVariable] cleared
        (es.foldl (escapeLayer (Taxonomy.of k header) loc) inner) := by
    intro es
    induction es with
    | nil => exact fun inner _ hi => hi
    | cons e es ih =>
      intro inner hn hi
      rw [List.map_cons, List.nodup_cons] at hn
      exact ih _ hn.2 (draftedAll_escapeLayer hn.1 hi)
  have hnames := layerNames_clause k header.escapes
  have hbrk : (LoopNames.of k).brk ∉ clauseNames k header.escapes :=
    hnames.notMem_of_inside (by simp [LoopNames.inside])
  have hslot : (LoopNames.of k).slot ∉ clauseNames k header.escapes :=
    hnames.notMem_of_inside (by simp [LoopNames.inside])
  have honce : (LoopNames.of k).once ∉ (LoopNames.of k).brk :: clauseNames k header.escapes := by
    rw [List.mem_cons, not_or]
    exact ⟨MadeName.text_ne (m := .once k) (n := .brk k) (by simp),
      hnames.notMem_of_inside (by simp [LoopNames.inside])⟩
  have hvalue : (LoopNames.of k).value ∉ (LoopNames.of k).brk :: clauseNames k header.escapes := by
    rw [List.mem_cons, not_or]
    exact ⟨MadeName.text_ne (m := .value k) (n := .brk k) (by simp),
      hnames.notMem_of_inside (by simp [LoopNames.inside])⟩
  have hinner := draftedAll_of_loose (loose_withValue (t := Taxonomy.of k header) hvalue hb)
  exact hlayers header.escapes _ hn (draftedAll_onceLayer (isReserved_generatedName _) hbrk honce
    hslot hinner label _ _) cleared

theorem loose_task (hnames : LeftAlone names) (hn : (header.escapes.map (·.label)).Nodup)
    (label : Option String) (decls : Declarations) {target : Expr} (ht : Unreserved target.names)
    {extra body : List Stmt} (he : ∀ s ∈ extra, s.Loose [jumpVariable])
    (hb : ∀ s ∈ body, s.Loose ((LoopNames.of k).brk :: clauseNames k header.escapes)) :
    (task (Taxonomy.of k header) loc label decls target extra body).Loose names := by
  refine ⟨?_, rfl⟩
  rw [task, Stmt.Drafted]
  refine ⟨rfl, fun item slot hparams => ?_⟩
  have hslots : item = (LoopNames.of k).item ∧ slot = (LoopNames.of k).slot := by
    rw [taskNames?] at hparams
    split at hparams
    · cases hparams
      exact ⟨rfl, rfl⟩
    · cases hparams
  obtain ⟨rfl, rfl⟩ := hslots
  refine ⟨fun hmem => (hnames _ hmem).2 ⟨k, .inl rfl⟩, fun heq => ?_, fun heq => ?_, ?_⟩
  · exact jumpVariable_notMem_inside k (by simp [← heq, LoopNames.inside])
  · exact jumpVariable_notMem_inside k (by simp [← heq, LoopNames.inside])
  · refine draftedAll_append (fun s hs => ?_) (fun cleared => ?_) none
    · rcases List.mem_append.1 hs with hs | hs
      · exact he s hs
      · exact loose_declarations _ _ _ s hs
    · have hvalue : (assign loc (LoopNames.of k).value (nothing loc.span)).Loose [jumpVariable] :=
        loose_assign (fun hmem => jumpVariable_notMem_inside k (by
          simp [← List.mem_singleton.1 hmem, LoopNames.inside])) loc _
      have htarget : (Stmt.assign loc [target] (load loc.span (LoopNames.of k).item)).Loose
          [jumpVariable] := by
        refine ⟨?_, rfl⟩
        rw [Stmt.Drafted]
        refine ⟨fun t hmem => ?_, fun _ => rfl⟩
        rw [List.mem_singleton.1 hmem]
        exact avoids_of_unreserved ht reserved_jumpVariable
      have hstart : ∀ s ∈ [Stmt.assign loc [target] (load loc.span (LoopNames.of k).item),
          assign loc (LoopNames.of k).value (nothing loc.span)], s.Loose [jumpVariable] := by
        simp only [List.mem_cons, List.not_mem_nil, or_false]
        rintro s (rfl | rfl)
        · exact htarget
        · exact hvalue
      exact draftedAll_append hstart (draftedAll_layers hn label hb) cleared

/-! ### Behind the call -/

theorem loose_ifChain (loc : Loc) {orElse : List Stmt} {bs : List (Expr × List Stmt)}
    (ho : ∀ s ∈ orElse, s.Loose names) (hb : ∀ b ∈ bs, ∀ s ∈ b.2, s.Loose names) :
    ∀ s ∈ ifChain loc orElse bs, s.Loose names := by
  induction bs with
  | nil => exact ho
  | cons b bs ih =>
    intro s hs
    obtain ⟨test, body⟩ := b
    rw [List.mem_singleton.1 hs]
    refine ⟨?_, rfl⟩
    rw [Stmt.Drafted]
    exact ⟨draftedAll_of_loose (hb (test, body) (by simp)) none,
      draftedAll_of_loose (ih fun b' hb' => hb b' (by simp [hb'])) none⟩

theorem loose_setResult (hnames : LeftAlone names) {result : Option String}
    (hres : Unreserved result.toList) (value : Expr) :
    (setResult loc result value).Loose names := by
  cases result with
  | none => exact ⟨trivial, rfl⟩
  | some x =>
    refine loose_assign (fun hx => ?_) loc value
    have := hres x (by simp)
    rw [(hnames x hx).1] at this
    cases this

theorem loose_protocolError (t : Taxonomy) : (protocolError t loc).Loose names := by
  refine ⟨?_, rfl⟩
  rw [protocolError, Stmt.Drafted]
  intro h hh i
  cases hh
  exact MadeName.text_ne (m := .support) (n := .holder i) (by simp)

theorem loose_dispatch (hnames : LeftAlone names) {header : CallbackHeader}
    (hres : Unreserved header.result.toList) (iter : Expr) (inFunction debug : Bool) :
    ∀ s ∈ dispatch (Taxonomy.of k header.toLoopHeader) loc header iter inFunction debug,
      s.Loose names := by
  have hset : ∀ value, (setResult loc header.result value).Loose names :=
    fun value => loose_setResult hnames hres value
  have herror : (protocolError (Taxonomy.of k header.toLoopHeader) loc).Loose names :=
    loose_protocolError _
  have hbranches : ∀ b ∈ branches (Taxonomy.of k header.toLoopHeader) loc header inFunction,
      ∀ s ∈ b.2, s.Loose names := by
    intro b hb s hs
    obtain ⟨s', hb, hr⟩ := mem_branches hb
    rw [hb] at hs
    rw [List.mem_singleton.1 hs]
    cases hr with
    | result | broken => exact hset _
    | wrong => exact herror
    | returned | continueTo => exact ⟨trivial, rfl⟩
    | breakTo he =>
      refine ⟨?_, rfl⟩
      rw [breakTo, Stmt.Drafted]
      intro v hv
      split at hv
      · cases hv
        exact ⟨rfl, rfl⟩
      · cases hv
  intro s hs
  rcases List.mem_cons.1 hs with rfl | hs
  · exact loose_assign (fun hmem => (hnames _ hmem).2 ⟨k, .inr rfl⟩) loc _
  · refine loose_ifChain loc (fun s hs => ?_) hbranches s hs
    rw [List.mem_singleton.1 hs]
    exact herror

end

/-! ### Every statement -/

section

variable {names : List String} {loc : Loc} {mark : LoopMark} {body orElse : List Stmt}

theorem loose_leaf {s : Stmt} (hs : s.bodies = []) (hn : LeftAlone names) (hc : s.Covered false)
    (hu : Unreserved s.names) : s.Loose names := by
  refine ⟨drafted_leaf hs (fun x hx => (hn x hx).1) hc hu, ?_⟩
  cases s with
  | for_ | while_ => cases hs
  | _ => rfl

theorem loose_for {isAsync : Bool} {target iter : Expr} (hn : LeftAlone names)
    (hm : mark.valueTarget = none) (ht : Unreserved target.names) (hb : ∀ s ∈ body, s.Loose names)
    (he : ∀ s ∈ orElse, s.Loose names) :
    (Stmt.for_ loc isAsync mark target iter (orPass loc body) orElse).Loose names := by
  refine ⟨?_, hm⟩
  rw [Stmt.Drafted, hm]
  exact ⟨fun _ => rfl, avoids_of_unreserved ht fun x hx => (hn x hx).1, fun _ hx => (by cases hx),
    draftedAll_of_loose (loose_orPass hb) none, draftedAll_of_loose he none⟩

theorem loose_while {test : Expr} (hm : mark.valueTarget = none) (hb : ∀ s ∈ body, s.Loose names)
    (he : ∀ s ∈ orElse, s.Loose names) :
    (Stmt.while_ loc mark test (orPass loc body) orElse).Loose names := by
  refine ⟨?_, hm⟩
  rw [Stmt.Drafted, hm]
  exact ⟨fun _ hx => (by cases hx), draftedAll_of_loose (loose_orPass hb) none,
    draftedAll_of_loose he none⟩

theorem loose_if {test : Expr} (hb : ∀ s ∈ body, s.Loose names) (he : ∀ s ∈ orElse, s.Loose names) :
    (Stmt.if_ loc test (orPass loc body) orElse).Loose names := by
  refine ⟨?_, rfl⟩
  rw [Stmt.Drafted]
  exact ⟨draftedAll_of_loose (loose_orPass hb) none, draftedAll_of_loose he none⟩

theorem loose_block {label : String} {target : Option String} (hn : LeftAlone names)
    (ht : Unreserved target.toList) (hb : ∀ s ∈ body, s.Loose names) :
    (Stmt.block loc label target (orPass loc body)).Loose names := by
  refine ⟨?_, rfl⟩
  rw [Stmt.Drafted]
  refine ⟨fun x hx hmem => ?_, draftedAll_of_loose (loose_orPass hb) none⟩
  have := ht x (by simp [hx])
  rw [(hn x hmem).1] at this
  cases this

end

theorem expandAll_loose {p : ExpandPlace} {scope : LabelScope} {body out : List Stmt} {names : List String}
    (hn : LeftAlone names) (hc : Stmt.CoveredAll false body) (hu : Unreserved (Stmt.namesAll body))
    (h : Stmt.ExpandAllTo p scope body out) : ∀ s ∈ out, s.Loose names := by
  induction body using Stmt.suite_induction generalizing p scope out names with
  | nil =>
    obtain rfl := h
    exact List.forall_mem_nil _
  | cons s rest ih ihrest =>
    rw [Stmt.namesAll, unreserved_append] at hu
    obtain ⟨out, rest', h, hr, rfl⟩ := h
    refine List.forall_mem_append.2 ⟨?_, ihrest hn hc.2 hu.2 hr⟩
    obtain ⟨hc, -⟩ := hc
    obtain ⟨hu, -⟩ := hu
    cases s with
    | callbackLoop loc header target iter body =>
      obtain ⟨⟨-, -, hnodup⟩, hbody⟩ := hc
      rw [Stmt.names, unreserved_append, unreserved_append, unreserved_append] at hu
      obtain ⟨⟨⟨hres, htarget⟩, -⟩, hnames⟩ := hu
      obtain ⟨-, k, decls, hoisted, wanted, body', hb, rfl⟩ := h
      have hinner := ih body (.head _) (layerNames_clause k header.escapes).leftAlone hbody hnames hb
      have hheader := escapeValues_toLoopHeader scope header
      refine List.forall_mem_cons.2 ⟨loose_task hn hnodup header.label decls htarget
        (loose_scopeStart loc hoisted wanted) (loose_orPass hinner), ?_⟩
      rw [← hheader]
      exact loose_dispatch hn (by rw [hheader]; exact hres) iter p.inFunction p.debug
    | for_ loc isAsync mark target iter body orElse =>
      rw [Stmt.names, unreserved_append, unreserved_append, unreserved_append] at hu
      obtain ⟨body', orElse', hb, he, rfl⟩ := h
      exact List.forall_mem_singleton.2 (loose_for hn hc.1.2 hu.1.1.1
        (ih body (.head _) hn hc.2.1 hu.1.2 hb) (ih orElse (.tail _ (.head _)) hn hc.2.2 hu.2 he))
    | while_ loc mark test body orElse =>
      rw [Stmt.names, unreserved_append, unreserved_append] at hu
      obtain ⟨body', orElse', hb, he, rfl⟩ := h
      exact List.forall_mem_singleton.2 (loose_while hc.1
        (ih body (.head _) hn hc.2.1 hu.1.2 hb) (ih orElse (.tail _ (.head _)) hn hc.2.2 hu.2 he))
    | if_ loc test body orElse =>
      rw [Stmt.names, unreserved_append, unreserved_append] at hu
      obtain ⟨body', orElse', hb, he, rfl⟩ := h
      exact List.forall_mem_singleton.2 (loose_if
        (ih body (.head _) hn hc.2.1 hu.1.2 hb) (ih orElse (.tail _ (.head _)) hn hc.2.2 hu.2 he))
    | block loc label target body =>
      rw [Stmt.names, unreserved_append] at hu
      obtain ⟨body', hb, rfl⟩ := h
      exact List.forall_mem_singleton.2 (loose_block hn hu.1 (ih body (.head _) hn hc.2 hu.2 hb))
    | global | nonlocal =>
      obtain rfl := h
      split
      · exact List.forall_mem_nil _
      · exact List.forall_mem_singleton.2 (loose_leaf rfl hn hc hu)
    | try_ => cases hc.1.1
    | function | class_ | with_ | match_ => exact hc.1.elim
    | supportImport => exact hc.elim
    | _ =>
      obtain rfl := h
      exact List.forall_mem_singleton.2 (loose_leaf rfl hn hc hu)

end LoopEscape
