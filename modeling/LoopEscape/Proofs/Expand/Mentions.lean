import LoopEscape.Proofs.Expand.Numbers
import LoopEscape.Proofs.Expand.Relation
import LoopEscape.Proofs.Generate.Names
import LoopEscape.Proofs.Generate.Pieces
import LoopEscape.Proofs.Tree.Mentions

/-!
# What expanded code mentions

Code generated for callback loops has names of its own, which differ from those of holders, and beside
them the names of the loop it is generated for.  So expansion brings no name of a holder into a module
that has none (`expandLoops_clear`).  The same walk through the module shows that every loop whose texts
can be printed is summed up (`expandLoops_summaries`).
-/

namespace LoopEscape

open Generate

variable {e iter : Expr} {label : Option String} {header : CallbackHeader}

def IsHolderName (x : String) : Prop := ∃ k, x = holderName k

variable {held : String → Prop}

/-! ### Expressions -/

namespace ExprTree

attribute [local simp] Expr.tree Expr.ownMentions spares_node

@[simp]
theorem spares_name (s : Span) (x : String) (a : Access) :
    (Expr.name s x a).tree.Spares held ↔ ¬ held x := by
  simp

@[simp]
theorem spares_const (s : Span) (l : Literal) : (Expr.const s l).tree.Spares held := by
  simp

@[simp]
theorem spares_member (s : Span) (e : Expr) (field : String) (a : Access) :
    (Expr.member s e field a).tree.Spares held ↔ e.tree.Spares held := by
  simp

@[simp]
theorem spares_subscript (s : Span) (e i : Expr) (a : Access) :
    (Expr.subscript s e i a).tree.Spares held ↔ e.tree.Spares held ∧ i.tree.Spares held := by
  simp

@[simp]
theorem spares_unary (s : Span) (op : UnaryOp) (e : Expr) :
    (Expr.unary s op e).tree.Spares held ↔ e.tree.Spares held := by
  simp

@[simp]
theorem spares_yield (s : Span) (e : Expr) :
    (Expr.yield s (some e)).tree.Spares held ↔ e.tree.Spares held := by
  simp [Expr.optionTrees]

@[simp]
theorem spares_compare (s : Span) (a b : Expr) (op : CompareOp) :
    (Expr.compare s a [(op, b)]).tree.Spares held ↔ a.tree.Spares held ∧ b.tree.Spares held := by
  simp [Expr.comparedTrees]

theorem forall_trees {P : ExprTree → Prop} {es : List Expr} :
    (∀ t ∈ Expr.trees es, P t) ↔ ∀ e ∈ es, P e.tree := by
  induction es with
  | nil => simp [Expr.trees]
  | cons e es ih => simp [Expr.trees, ih]

@[simp]
theorem spares_boolOp (s : Span) (op : BoolOp) (es : List Expr) :
    (Expr.boolOp s op es).tree.Spares held ↔ ∀ e ∈ es, e.tree.Spares held := by
  simp [forall_trees]

theorem spares_keywords {ks : List Keyword} :
    (∀ t ∈ Keyword.trees ks, t.Spares held) ↔ ∀ k ∈ ks, k.value.tree.Spares held := by
  induction ks with
  | nil => simp [Keyword.trees]
  | cons k ks ih =>
    obtain ⟨s, name, value⟩ := k
    simp [Keyword.trees, ih, Keyword.value]

@[simp]
theorem spares_call (s : Span) (func : Expr) (args : List Expr) (keywords : List Keyword) :
    (Expr.call s func args keywords).tree.Spares held ↔ func.tree.Spares held ∧
      (∀ e ∈ args, e.tree.Spares held) ∧ ∀ k ∈ keywords, k.value.tree.Spares held := by
  rw [Expr.tree, spares_node, List.forall_mem_cons, List.forall_mem_append, forall_trees,
    spares_keywords]
  simp

end ExprTree

/-! ### Generated names -/

/-- What generated code mentions beside the names of loops is not held. -/
structure Holders (held : String → Prop) : Prop where
  support : ¬ held supportName
  object : ¬ held "object"

structure Taxonomy.Spared (held : String → Prop) (t : Taxonomy) : Prop where
  task : ¬ held t.names.task
  item : ¬ held t.names.item
  slot : ¬ held t.names.slot
  value : ¬ held t.names.value
  brk : ¬ held t.names.brk
  once : ¬ held t.names.once
  result : ¬ held t.names.result
  breakVar : ∀ e ∈ t.escapes, ¬ held (t.breakVar e.label)

theorem Taxonomy.spared_of {t : Taxonomy} (h : ∀ x ∈ t.ownNames, ¬ held x) : t.Spared held := by
  simp only [ownNames, breakVars, List.forall_mem_append, List.forall_mem_cons, List.forall_mem_map] at h
  obtain ⟨⟨task, item, slot, value, brk, once, result, -⟩, breakVar⟩ := h
  exact ⟨task, item, slot, value, brk, once, result, breakVar⟩

theorem holders_self : Holders IsHolderName where
  support := fun ⟨k, hk⟩ => MadeName.text_ne (m := .support) (n := .holder k) (by simp) hk
  object := by
    rintro ⟨k, hk⟩
    have := congrArg (fun s => s.toList.head?) hk
    simp [holderName, generatedName, reservedStart] at this

theorem jumpVariable_not_holder : ¬ IsHolderName Lower.jumpVariable := fun ⟨k, hk⟩ =>
  MadeName.text_ne (m := .caught) (n := .holder k) (by simp) hk

theorem Taxonomy.spared_holders (k : Nat) (header : LoopHeader) :
    (Taxonomy.of k header).Spared IsHolderName := by
  refine Taxonomy.spared_of ?_
  rintro x hx ⟨i, rfl⟩
  rw [ownNames_of] at hx
  have hm := (List.mem_map_of_injective (a := .holder i) MadeName.text_injective).1 hx
  cases number_of_mem hm

/-! ### Pieces of expanded code -/

def Stmt.isSupportImport : Stmt → Bool
  | .supportImport .. => true
  | _ => false

def Stmt.Clear (held : String → Prop) (s : Stmt) : Prop := s.Spares held ∧ s.isSupportImport = false

section

variable {loc : Loc} {t : Taxonomy} {body : List Stmt}

theorem clear_iff {s : Stmt} : s.Clear held ↔ (∀ x ∈ s.ownNames, ¬ held x) ∧
    (∀ t ∈ s.trees, t.Spares held) ∧ s.isSupportImport = false := by
  rw [Stmt.Clear, Stmt.spares_iff, and_assoc]

theorem clear_refill {s : Stmt} {fill : Loc → List Stmt → List Stmt} {bs : List (List Stmt)}
    (hs : s.isInner = true) (hlen : s.bodies.length = bs.length) (h : s.Clear held) :
    (s.refill fill bs).Clear held := by
  obtain ⟨hnames, htrees⟩ := @Stmt.own_refill s fill bs hs hlen
  have himport : (s.refill fill bs).isSupportImport = s.isSupportImport := by
    unfold Stmt.refill
    split <;> rfl
  rw [clear_iff, hnames, htrees, himport]
  exact clear_iff.1 h

theorem clear_pass : (Stmt.pass loc).Every (Stmt.Clear held) :=
  clear_iff.2 ⟨by simp [Stmt.ownNames], by simp [Stmt.trees], rfl⟩

theorem clear_assign {x : String} (hx : ¬ held x) (he : e.tree.Spares held) :
    (assign loc x e).Every (Stmt.Clear held) :=
  clear_iff.2 ⟨by simp [assign, Stmt.ownNames], by simp [assign, store, Stmt.trees, Expr.trees, hx, he],
    rfl⟩

theorem clear_expr (he : e.tree.Spares held) :
    (Stmt.expr loc e).Every (Stmt.Clear held) :=
  clear_iff.2 ⟨by simp [Stmt.ownNames], by simpa [Stmt.trees] using he, rfl⟩

theorem clear_orPass (h : Stmt.EveryAll (Stmt.Clear held) body) :
    Stmt.EveryAll (Stmt.Clear held) (orPass loc body) := by
  refine everyAll_iff.2 fun s hs => ?_
  rcases mem_orPass hs with hs | rfl
  · exact everyAll_iff.1 h s hs
  · exact clear_pass

theorem clear_declarations {d : Declarations} (h : d.Spare held) :
    Stmt.EveryAll (Stmt.Clear held) (declarations loc d.globals d.nonlocals) := by
  refine everyAll_iff.2 fun s hs => ?_
  rcases mem_declarations hs with rfl | rfl
  · exact clear_iff.2 ⟨h.1, by simp [Stmt.trees], rfl⟩
  · exact clear_iff.2 ⟨h.2, by simp [Stmt.trees], rfl⟩

theorem clear_scopeStart (hh : Holders held) {hoisted : Declarations} {wanted : List String}
    (hd : hoisted.Spare held) (hw : ∀ x ∈ wanted, ¬ held x) :
    Stmt.EveryAll (Stmt.Clear held) (scopeStart loc hoisted wanted) := by
  refine everyAll_append.2 ⟨clear_declarations hd, everyAll_iff.2 fun s hs => ?_⟩
  obtain ⟨x, hx, rfl⟩ := List.mem_map.1 hs
  refine clear_iff.2 ⟨by simp [variable_, Stmt.ownNames], ?_, rfl⟩
  simp [variable_, store, load, Stmt.trees, Expr.optionTrees, hw x (List.mem_eraseDups.1 hx), hh.object]

theorem clear_insertAfterDoc {decls : List Stmt} (hd : Stmt.EveryAll (Stmt.Clear held) decls)
    (h : Stmt.EveryAll (Stmt.Clear held) body) :
    Stmt.EveryAll (Stmt.Clear held) (insertAfterDoc decls body) := by
  refine everyAll_iff.2 fun s hs => ?_
  rcases mem_insertAfterDoc hs with hs | hs
  · exact everyAll_iff.1 hd s hs
  · exact everyAll_iff.1 h s hs

theorem clear_withValue (ht : t.Spared held)
    (h : Stmt.EveryAll (Stmt.Clear held) body) :
    Stmt.EveryAll (Stmt.Clear held) (withValue t body) := by
  refine everyAll_iff.2 fun s hs => ?_
  rcases mem_withValue hs with hs | ⟨loc, e, he, rfl⟩
  · exact everyAll_iff.1 h s hs
  · have hexpr := clear_iff.1 (everyAll_iff.1 h _ he)
    exact clear_assign ht.value (hexpr.2.1 e.tree (by simp [Stmt.trees]))

theorem spares_support (hh : Holders held) (s : Span) (field : String) :
    (support s field).tree.Spares held := by
  simp [support, attr, load, hh.support]

theorem clear_abort (ht : t.Spared held) {flow : Expr}
    (hf : flow.tree.Spares held) : (abort t loc flow).Every (Stmt.Clear held) :=
  clear_expr (by simp [call, attr, load, ht.slot, hf])

theorem spares_breakFlow (hh : Holders held) (s : Span) (reason : String) {args : List Expr}
    (h : ∀ e ∈ args, e.tree.Spares held) : (breakFlow s reason args).tree.Spares held := by
  simpa [breakFlow, call, spares_support hh] using h

theorem clear_onceLoop (hh : Holders held) (ht : t.Spared held) {valueTarget : String}
    {orElse : List Stmt} (hv : ¬ held valueTarget) (h : Stmt.EveryAll (Stmt.Clear held) body)
    (ho : Stmt.EveryAll (Stmt.Clear held) orElse) :
    (onceLoop t loc label valueTarget body orElse).Every (Stmt.Clear held) := by
  refine ⟨clear_iff.2 ⟨by simpa [Stmt.ownNames] using hv, ?_, rfl⟩, h, ho⟩
  simp [Stmt.trees, store, ht.once, spares_support hh]

theorem clear_ownLayer (hh : Holders held) (ht : t.Spared held)
    (h : Stmt.EveryAll (Stmt.Clear held) body) :
    Stmt.EveryAll (Stmt.Clear held) (ownLayer t loc label body) := by
  refine ⟨clear_assign ht.brk (by simp [nothing]),
    clear_onceLoop hh ht ht.brk (clear_withValue ht h)
      ⟨clear_abort ht ?_, trivial⟩,
    clear_abort ht (spares_breakFlow hh _ _ ?_), trivial⟩
  · simp [continueFlow, call, load, spares_support hh, ht.value]
  · simp [load, ht.brk]

theorem clear_escapeLayer (hh : Holders held) (ht : t.Spared held) {e : EscapeLabel} (he : e ∈ t.escapes)
    (h : Stmt.EveryAll (Stmt.Clear held) body) :
    Stmt.EveryAll (Stmt.Clear held) (escapeLayer t loc body e) := by
  have hbrk : ¬ held (t.breakVar e.label) := ht.breakVar e he
  have hbreak : (abort t loc (breakFlow loc.span "BreakTo"
      [text loc.span e.label, load loc.span (t.breakVar e.label)])).Every (Stmt.Clear held) :=
    clear_abort ht (spares_breakFlow hh _ _ (by simp [text, load, hbrk]))
  unfold escapeLayer
  split
  · exact ⟨clear_assign hbrk (by simp [nothing]), clear_onceLoop hh ht hbrk h
      ⟨clear_abort ht (spares_breakFlow hh _ _ (by simp [text])), trivial⟩, hbreak, trivial⟩
  · exact ⟨⟨clear_iff.2 ⟨by simpa [Stmt.ownNames] using hbrk, by simp [Stmt.trees], rfl⟩, h⟩, hbreak,
      trivial⟩

theorem clear_layers (hh : Holders held) (ht : t.Spared held)
    (h : Stmt.EveryAll (Stmt.Clear held) body) :
    Stmt.EveryAll (Stmt.Clear held) (layers t loc label body) := by
  have hlayers : ∀ (es : List EscapeLabel) (inner : List Stmt), (∀ e ∈ es, e ∈ t.escapes) →
      Stmt.EveryAll (Stmt.Clear held) inner →
      Stmt.EveryAll (Stmt.Clear held) (es.foldl (escapeLayer t loc) inner) := by
    intro es
    induction es with
    | nil => exact fun inner _ h => h
    | cons e es ih =>
      intro inner hes h
      obtain ⟨he, hes⟩ := List.forall_mem_cons.1 hes
      exact ih _ hes (clear_escapeLayer hh ht he h)
  exact hlayers t.escapes _ (fun _ he => he) (clear_ownLayer hh ht h)

theorem clear_task (hh : Holders held) (ht : t.Spared held) {decls : Declarations}
    {target : Expr} {extra : List Stmt} (hd : decls.Spare held) (htarget : target.tree.Spares held)
    (he : Stmt.EveryAll (Stmt.Clear held) extra) (h : Stmt.EveryAll (Stmt.Clear held) body) :
    (task t loc label decls target extra body).Every (Stmt.Clear held) := by
  refine ⟨clear_iff.2 ⟨?_, ?_, rfl⟩, everyAll_append.2 ⟨everyAll_append.2 ⟨he, clear_declarations hd⟩,
    clear_iff.2 ⟨by simp [Stmt.ownNames], ?_, rfl⟩, clear_assign ht.value
      (by simp [nothing]), clear_layers hh ht h⟩⟩
  · simp [Stmt.ownNames, Params.names, Params.positional, Params.either, Params.named, Params.rest,
      Params.namedRest, Param.name, ht.task, ht.item, ht.slot]
  · simp [Stmt.trees, Params.tree, ExprTree.spares_node, Param.trees, Param.optionTrees,
      Param.defaultTrees, Expr.trees, Expr.optionTrees]
  · simp [Stmt.trees, Expr.trees, load, htarget, ht.item]

theorem spares_isInstance (hh : Holders held) (s : Span) (he : e.tree.Spares held) (kind : String) :
    (isInstance s e kind).tree.Spares held := by
  simp [isInstance, call, spares_support hh, he]

theorem spares_outcome (ht : t.Spared held) (s : Span) :
    (outcome t s).tree.Spares held := by
  simp [outcome, load, ht.result]

theorem spares_reason (ht : t.Spared held) (s : Span) :
    (reason t s).tree.Spares held := by
  simp [reason, attr, spares_outcome ht]

theorem spares_payload (ht : t.Spared held) (s : Span) :
    (payload t s).tree.Spares held := by
  simp [payload, attr, spares_reason ht]

theorem spares_callWith (s : Span) {extra : Expr} {form : CallForm} (hf : CallForm.of? iter = some form)
    (hi : iter.tree.Spares held) (he : extra.tree.Spares held) : (callWith s extra form).tree.Spares held := by
  unfold CallForm.of? at hf
  split at hf
  · rw [ExprTree.spares_call] at hi
    obtain ⟨hfunc, hargs, hkeywords⟩ := hi
    have hall : ∀ e ∈ _ ++ [extra], e.tree.Spares held :=
      List.forall_mem_append.2 ⟨hargs, by simpa using he⟩
    split at hf <;> cases hf
    · simp only [ExprTree.spares_subscript, ExprTree.spares_member] at hfunc
      simp only [callWith, attr, ExprTree.spares_call, ExprTree.spares_subscript,
        ExprTree.spares_member]
      exact ⟨hfunc, hall, hkeywords⟩
    · simp only [ExprTree.spares_member] at hfunc
      simp only [callWith, attr, ExprTree.spares_call, ExprTree.spares_member]
      exact ⟨hfunc, hall, hkeywords⟩
    · simp only [callWith, ExprTree.spares_call]
      exact ⟨hfunc, hall, hkeywords⟩
  · cases hf

theorem clear_setResult {result : Option String} (hr : ∀ x ∈ result.toList, ¬ held x)
    (he : e.tree.Spares held) : (setResult loc result e).Every (Stmt.Clear held) := by
  cases result with
  | none => exact clear_pass
  | some x => exact clear_assign (hr x (by simp)) he

theorem clear_protocolError (hh : Holders held) (ht : t.Spared held) :
    (protocolError t loc).Every (Stmt.Clear held) :=
  clear_iff.2 ⟨by simp [protocolError, Stmt.ownNames], by
    simp [protocolError, Stmt.trees, Expr.optionTrees, call, spares_support hh, spares_outcome ht],
    rfl⟩

theorem clear_reaction (hh : Holders held) (ht : t.Spared held)
    (hr : ∀ x ∈ header.result.toList, ¬ held x) {s : Stmt} (h : Reaction t loc header s) :
    s.Every (Stmt.Clear held) := by
  have hpayload := spares_payload ht loc.span
  cases h with
  | result => exact clear_setResult hr (spares_reason ht _)
  | broken => exact clear_setResult hr hpayload
  | wrong => exact clear_protocolError hh ht
  | returned => exact clear_iff.2 ⟨by simp [Stmt.ownNames], by simpa [Stmt.trees, Expr.optionTrees], rfl⟩
  | breakTo he =>
    refine clear_iff.2 ⟨by simp [breakTo, Stmt.ownNames], ?_, rfl⟩
    simp only [breakTo, Stmt.trees]
    split
    · simpa [Expr.optionTrees] using hpayload
    · simp [Expr.optionTrees]
  | continueTo he hl => exact clear_iff.2 ⟨by simp [Stmt.ownNames], by simp [Stmt.trees], rfl⟩

theorem clear_ifChain {orElse : List Stmt} {bs : List (Expr × List Stmt)}
    (ho : Stmt.EveryAll (Stmt.Clear held) orElse)
    (hb : ∀ b ∈ bs, b.1.tree.Spares held ∧ Stmt.EveryAll (Stmt.Clear held) b.2) :
    Stmt.EveryAll (Stmt.Clear held) (ifChain loc orElse bs) := by
  induction bs with
  | nil => exact ho
  | cons b bs ih =>
    obtain ⟨⟨ht, hbody⟩, hrest⟩ := List.forall_mem_cons.1 hb
    exact ⟨⟨clear_iff.2 ⟨by simp [Stmt.ownNames], by simpa [Stmt.trees] using ht, rfl⟩, hbody,
      ih hrest⟩, trivial⟩

theorem spares_branches (hh : Holders held) (ht : t.Spared held) {inFunction : Bool}
    {b : Expr × List Stmt} (h : b ∈ branches t loc header inFunction) : b.1.tree.Spares held := by
  have hr := spares_reason ht loc.span
  have ho := spares_outcome ht loc.span
  simp only [branches, List.mem_append, List.mem_cons, List.not_mem_nil, or_false, List.mem_map,
    List.mem_filter] at h
  rcases h with (((((rfl | rfl) | h) | rfl) | ⟨e, he, rfl⟩) | ⟨e, he, rfl⟩)
  · exact spares_isInstance hh _ ho _
  · simpa using spares_isInstance hh _ ho _
  · split at h
    · rw [List.mem_singleton.1 h]
      exact spares_isInstance hh _ hr _
    · cases h
  · exact spares_isInstance hh _ hr _
  · simp [isBreakTo, attr, text, hr, spares_isInstance hh _ hr]
  · simp [isContinueTo, call, text, hr, spares_support hh]

theorem clear_dispatch (hh : Holders held) (ht : t.Spared held)
    (hr : ∀ x ∈ header.result.toList, ¬ held x) (hi : iter.tree.Spares held) (inFunction debug : Bool) :
    Stmt.EveryAll (Stmt.Clear held) (dispatch t loc header iter inFunction debug) := by
  have hrelay : (relay t loc.span debug).tree.Spares held := by
    cases debug <;> simp [relay, load, spares_support hh, ht.task, Keyword.value]
  refine ⟨clear_assign ht.result ?_,
    clear_ifChain ⟨clear_protocolError hh ht, trivial⟩ fun b hb => ⟨spares_branches hh ht hb, ?_⟩⟩
  · cases hf : CallForm.of? iter with
    | none => exact hi
    | some form => exact spares_callWith _ hf hi hrelay
  · obtain ⟨s, hs, hreaction⟩ := mem_branches hb
    rw [hs]
    exact ⟨clear_reaction hh ht hr hreaction, trivial⟩

end

/-! ### Statements to expand -/

def Stmt.Summed : Stmt → Prop
  | .callbackLoop _ _ target iter _ =>
    target.text?.isSome ∧ ((CallForm.of? iter).bind CallForm.summary?).isSome
  | _ => True

def Stmt.OfLoop (R : LoopHeader → Expr → Expr → Prop) : Stmt → Prop
  | .callbackLoop _ header target iter _ => R header.toLoopHeader target iter
  | _ => True

def HasTexts (_ : LoopHeader) (target iter : Expr) : Prop :=
  target.text?.isSome ∧ ((CallForm.of? iter).bind CallForm.summary?).isSome

theorem Stmt.Summed.ofLoop {s : Stmt} (h : s.Summed) : s.OfLoop HasTexts := by
  cases s <;> exact h

/-- A statement without held names and, if it is a callback loop, with the header, target and call asked
for. -/
def Stmt.Ready (held : String → Prop) (R : LoopHeader → Expr → Expr → Prop) (s : Stmt) : Prop :=
  s.Clear held ∧ s.OfLoop R

theorem noteAll_ready {R : LoopHeader → Expr → Expr → Prop} (body : List Stmt) : ∀ scope : LabelScope,
    Stmt.EveryAll (Stmt.Ready held R) body →
    Stmt.EveryAll (Stmt.Ready held R) (Stmt.noteAll scope body) := by
  induction body using Stmt.suite_induction with
  | nil => exact fun _ _ => trivial
  | cons s rest ih ihrest =>
    intro scope h
    refine ⟨?_, ihrest scope h.2⟩
    replace h := h.1
    cases s with
    | function | class_ | with_ | block => exact ⟨h.1, ih _ (.head _) _ h.2⟩
    | for_ | while_ | if_ => exact ⟨h.1, ih _ (.head _) _ h.2.1, ih _ (.tail _ (.head _)) _ h.2.2⟩
    | callbackLoop =>
      obtain ⟨⟨hc, hs⟩, hb⟩ := h
      refine ⟨⟨clear_iff.2 ⟨?_, (clear_iff.1 hc).2.1, rfl⟩, ?_⟩, ih _ (.head _) _ hb⟩
      · have := (clear_iff.1 hc).1
        simp only [Stmt.ownNames] at this ⊢
        rwa [escapeValues_toLoopHeader]
      · rw [Stmt.OfLoop] at hs ⊢
        rwa [escapeValues_toLoopHeader]
    | match_ | try_ =>
      rw [noteLabels_kept rfl]
      have hbs : List.Forall₂ (fun b b' => Stmt.EveryAll (Stmt.Ready held R) b → Stmt.EveryAll _ b') _ _ :=
        List.forall₂_map_right_iff.2 (List.forall₂_same.2 fun b hb => ih b hb scope)
      exact Stmt.every_withBodies rfl hbs h ⟨clear_refill rfl hbs.length_eq h.1.1, trivial⟩
    | _ => exact h

/-! ### The loops of a block -/

theorem loopNodes_every {P : Stmt → Prop} (body : List Stmt) : Stmt.EveryAll P body →
    ∀ n ∈ Stmt.loopNodesAll body, ∃ b, P (.callbackLoop n.loc n.header n.target n.iter b) := by
  induction body using Stmt.bodies_induction with
  | h body ih =>
    intro h n hn
    rw [loopNodesAll_eq] at hn
    obtain ⟨s, hs, hn⟩ := List.mem_flatMap.1 hn
    obtain ⟨hP, hbodies⟩ := Stmt.every_iff.1 (everyAll_iff.1 h s hs)
    rw [loopNodes_eq] at hn
    rcases List.mem_append.1 hn with hn | hn
    · cases s with
      | callbackLoop loc header target iter b =>
        cases List.mem_singleton.1 hn
        exact ⟨b, hP⟩
      | _ => cases hn
    · obtain ⟨b, hb, hn⟩ := List.mem_flatMap.1 hn
      exact ih s hs b hb (hbodies b hb) n hn

/-! ### Expansion -/

/-- From a state on that wants no variable for a held name, the work numbers the loops, and if their names
are not held, it wants no such variable either and its result is as specified. -/
def Expand.Tidies {α : Type} (held : String → Prop) (nodes : List LoopNode) (work : Expand α)
    (spec : α → Prop) : Prop :=
  ∀ s, (∀ x ∈ s.wanted, ¬ held x) →
    (∀ n ∈ nodes.zipIdx s.nextId, (Taxonomy.of n.2 n.1.header.toLoopHeader).Spared held) →
    (work s).2.nextId = s.nextId + nodes.length ∧ (∀ x ∈ (work s).2.wanted, ¬ held x) ∧ spec (work s).1

namespace Expand.Tidies

variable {α β : Type} {P : α → Prop} {Q : β → Prop} {nodes nodes' : List LoopNode}

theorem pure {a : α} (h : P a) : Expand.Tidies held [] (pure a) P := fun _ hs _ => ⟨rfl, hs, h⟩

theorem bind {work : Expand α} {next : α → Expand β} (h : work.Tidies held nodes P)
    (h' : ∀ a, P a → (next a).Tidies held nodes' Q) : (work >>= next).Tidies held (nodes ++ nodes') Q := by
  intro s hs hn
  rw [List.zipIdx_append, List.forall_mem_append] at hn
  obtain ⟨hid, hw, ha⟩ := h s hs hn.1
  obtain ⟨hid', hw', hb⟩ := h' (work s).1 ha (work s).2 hw (by rw [hid]; exact hn.2)
  refine ⟨hid'.trans ?_, hw', hb⟩
  rw [hid, List.length_append, Nat.add_assoc]

theorem map {work : Expand α} {f : α → β} (h : work.Tidies held nodes P) (hf : ∀ a, P a → Q (f a)) :
    (work >>= fun a => Pure.pure (f a)).Tidies held nodes Q := by
  have hbind := h.bind fun a ha => pure (hf a ha)
  rwa [List.append_nil] at hbind

theorem mapM {f : α → Expand β} {nodes : α → List LoopNode} {l : List α}
    (h : ∀ a ∈ l, (f a).Tidies held (nodes a) Q) : (l.mapM f).Tidies held (l.flatMap nodes) fun bs =>
      bs.length = l.length ∧ ∀ b ∈ bs, Q b := by
  induction l with
  | nil => exact pure ⟨rfl, by simp⟩
  | cons a l ih =>
    obtain ⟨ha, hl⟩ := List.forall_mem_cons.1 h
    rw [List.mapM_cons, List.flatMap_cons]
    exact ha.bind fun b hb => (ih hl).map fun bs hbs =>
      ⟨congrArg (· + 1) hbs.1, List.forall_mem_cons.2 ⟨hb, hbs.2⟩⟩

theorem inScope {work : Expand α} (h : work.Tidies held nodes P) :
    (Expand.inScope work).Tidies held nodes fun r => P r.1 ∧ ∀ x ∈ r.2, ¬ held x := fun s hs hn =>
  have hinner := h { s with wanted := [] } (by simp) hn
  ⟨hinner.1, hs, hinner.2.2, hinner.2.1⟩

/-- A loop is numbered and recorded, then the work on its body goes on. -/
theorem record {n : LoopNode} {summary : Nat → Option LoopSummary} {next : Nat → Expand β} (c : Bool)
    {names : List String} (hnames : ∀ x ∈ names, ¬ held x)
    (h : ∀ id, (Taxonomy.of id n.header.toLoopHeader).Spared held → (next id).Tidies held nodes Q) :
    (Expand.freshId >>= fun id =>
      if c = true then Expand.want names >>= fun _ => Expand.record n.loc (summary id) >>= fun _ => next id
      else Expand.record n.loc (summary id) >>= fun _ => next id).Tidies held (n :: nodes) Q := by
  intro s hs hn
  rw [List.zipIdx_cons, List.forall_mem_cons] at hn
  have hrun (wanted : List String) (hw : ∀ x ∈ wanted, ¬ held x) :=
    h s.nextId hn.1 ⟨s.nextId + 1, (n.loc, summary s.nextId) :: s.loops, wanted⟩ hw hn.2
  have hlength : s.nextId + 1 + nodes.length = s.nextId + (n :: nodes).length := by
    rw [List.length_cons]
    omega
  cases c with
  | true => exact hlength ▸ hrun (s.wanted ++ names) (List.forall_mem_append.2 ⟨hs, hnames⟩)
  | false => exact hlength ▸ hrun s.wanted hs

end Expand.Tidies

theorem NameScope.declare_spare (scope : NameScope) {bound : List String}
    (h : ∀ x ∈ bound, ¬ held x) : (scope.declare bound).Spare held := by
  unfold NameScope.declare
  split
  · exact ⟨h, by simp⟩
  · exact ⟨fun x hx => h x (List.mem_filter.1 hx).1, fun x hx => h x (List.mem_filter.1 hx).1⟩

theorem hoistedDeclarations_spare (before : Declarations) {body : List Stmt}
    (h : Stmt.EveryAll (Stmt.Spares held) body) : (hoistedDeclarations before body).Spare held := by
  have hall := hoistedAll_spare h
  refine ⟨fun x hx => hall.1 x ?_, fun x hx => hall.2 x ?_⟩ <;>
    exact List.mem_eraseDups.1 (List.mem_filter.1 hx).1

theorem summary_isSome {target : Expr} (ht : target.text?.isSome)
    (hc : ((CallForm.of? iter).bind CallForm.summary?).isSome) (t : Taxonomy) (loc : Loc)
    (header : LoopHeader) (d : Declarations) :
    (LoopSummary.of? t loc header target iter d).isSome = true := by
  obtain ⟨binding, hb⟩ := Option.isSome_iff_exists.1 ht
  obtain ⟨call, hcall⟩ := Option.isSome_iff_exists.1 hc
  simp [LoopSummary.of?, hb, hcall]

theorem spares_of_clear {body : List Stmt} (h : Stmt.EveryAll (Stmt.Clear held) body) :
    Stmt.EveryAll (Stmt.Spares held) body :=
  everyAll_mono (fun _ h => h.1) h

theorem expandAll_tidies (hh : Holders held) (body : List Stmt) (ctx : ExpandContext)
    (h : Stmt.EveryAll (Stmt.Clear held) body) :
    (Stmt.expandAll ctx body).Tidies held (Stmt.loopNodesAll body) (Stmt.EveryAll (Stmt.Clear held)) := by
  induction body using Stmt.suite_induction generalizing ctx with
  | nil => exact .pure trivial
  | cons s rest ih ihrest =>
    obtain ⟨h, hrest⟩ := h
    rw [Stmt.expandAll, Stmt.loopNodesAll]
    suffices hs : (Stmt.expand ctx s).Tidies held s.loopNodes (Stmt.EveryAll (Stmt.Clear held)) from
      hs.bind fun _ hs => (ihrest ctx hrest).map fun _ hr => everyAll_append.2 ⟨hs, hr⟩
    cases hs : s.isInner with
    | true =>
      have hsuites := (Stmt.every_iff.1 h).2
      rw [Stmt.expand_inner hs, loopNodes_inner hs]
      refine (Expand.Tidies.mapM fun b hb => ih b hb ctx (hsuites b hb)).map fun bs hbs => ?_
      exact ⟨Stmt.every_refill hs hbs.1.symm (clear_refill hs hbs.1.symm (Stmt.every_iff.1 h).1) hbs.2
        fun b hb loc => clear_orPass (hbs.2 b hb), trivial⟩
    | false =>
      cases s with
      | callbackLoop loc header target iter body =>
        obtain ⟨hc, hb⟩ := h
        obtain ⟨hnames, htrees, -⟩ := clear_iff.1 hc
        simp only [Stmt.ownNames, Stmt.trees, List.forall_mem_cons] at hnames htrees
        have hbody := spares_of_clear hb
        have hbound : ∀ x ∈ loopBoundNames target body, ¬ held x := fun x hx =>
          List.forall_mem_append.2 ⟨Expr.bound_spared htrees.1, boundAll_spared body hbody⟩ x
            (List.mem_eraseDups.1 hx)
        have hdecls := ctx.scope.declare_spare hbound
        rw [Stmt.expand, Stmt.loopNodes]
        refine .record (n := ⟨loc, header, target, iter⟩) _ (fun x hx => ?_) fun id hspared =>
          (Expand.Tidies.inScope (ih body (.head _) _ hb)).map ?_
        · exact hdecls.2 x (List.mem_filter.1 hx).1
        · rintro ⟨body', wanted⟩ ⟨hb', hw⟩
          have hhoisted : (ctx.taskHoisted (ctx.scope.declare (loopBoundNames target body))
              body).Spare held := by
            unfold ExpandContext.taskHoisted
            split
            · exact hoistedDeclarations_spare _ hbody
            · exact Declarations.spare_empty
          exact ⟨clear_task hh hspared hdecls htrees.1 (clear_scopeStart hh hhoisted hw)
            (clear_orPass hb'), clear_dispatch hh hspared hnames htrees.2.1 _ _⟩
      | function =>
        rw [Stmt.expand, Stmt.loopNodes]
        refine (Expand.Tidies.inScope (ih _ (.head _) _ h.2)).map ?_
        rintro ⟨body', wanted⟩ ⟨hb', hw⟩
        exact ⟨⟨h.1, clear_insertAfterDoc (clear_scopeStart hh
          (hoistedDeclarations_spare _ (spares_of_clear h.2)) hw) hb'⟩, trivial⟩
      | class_ =>
        rw [Stmt.expand, Stmt.loopNodes]
        exact (ih _ (.head _) _ h.2).map fun _ hb => ⟨⟨h.1, hb⟩, trivial⟩
      | global | nonlocal =>
        rw [Stmt.expand]
        refine .pure ?_
        split
        · trivial
        · exact ⟨h, trivial⟩
      | _ => cases hs

/-! ### Modules -/

theorem ensureImport_split (body : List Stmt) : ∃ before loc names after,
    (ensureImport body).1 = before ++ .supportImport loc names :: after ∧
    (ensureImport body).2 = before.length + 1 ∧
    (body = before ++ .supportImport loc names :: after ∨
      body = before ++ after ∧ names.filterMap Alias.bound = [supportName]) := by
  have hn : preludeLength body ≤ body.length := by
    have hdoc : (body.take 1).countP Stmt.isText ≤ (body.take 1).length := List.countP_le_length
    have hfuture := (List.takeWhile_prefix isFutureImport
      (l := body.drop ((body.take 1).countP Stmt.isText))).length_le
    rw [List.length_take] at hdoc
    rw [List.length_drop] at hfuture
    simp only [preludeLength]
    omega
  have htake : (body.take (preludeLength body)).length = preludeLength body := by
    rw [List.length_take]
    omega
  have hsplit := List.take_append_drop (preludeLength body) body
  unfold ensureImport
  simp only
  split
  · next loc names after hd =>
    rw [hd] at hsplit
    exact ⟨_, loc, names, after, hsplit.symm, by rw [htake], .inl hsplit.symm⟩
  · next s rest _ hd =>
    rw [hd] at hsplit
    exact ⟨_, _, _, s :: rest, rfl, by rw [htake], .inr ⟨hsplit.symm, rfl⟩⟩
  · next hd =>
    rw [hd, List.append_nil] at hsplit
    exact ⟨body, _, _, [], rfl, by rw [← htake, hsplit], .inr ⟨by simp, rfl⟩⟩

theorem ensureImport_of {P : List Stmt → Prop} {body : List Stmt}
    (happend : ∀ {a b : List Stmt}, P (a ++ b) ↔ P a ∧ P b)
    (himport : ∀ loc names, names.filterMap Alias.bound = [supportName] → P [.supportImport loc names])
    (h : P body) : P (ensureImport body).1 := by
  obtain ⟨before, loc, names, after, he, -, hb | ⟨hb, hnames⟩⟩ := ensureImport_split body
  · rwa [he, ← hb]
  · rw [hb, happend] at h
    rw [he, ← List.singleton_append, happend, happend]
    exact ⟨h.1, himport loc names hnames, h.2⟩

theorem spares_supportImport (hh : Holders held) {loc : Loc} {names : List Alias}
    (h : names.filterMap Alias.bound = [supportName]) : (Stmt.supportImport loc names).Spares held := by
  refine Stmt.spares_iff.2 ⟨?_, by simp [Stmt.trees]⟩
  rw [Stmt.ownNames, h]
  simpa using hh.support

theorem spares_ensureImport (hh : Holders held) {body : List Stmt}
    (h : Stmt.EveryAll (Stmt.Spares held) body) :
    Stmt.EveryAll (Stmt.Spares held) (ensureImport body).1 :=
  ensureImport_of everyAll_append (fun _ _ hn => ⟨spares_supportImport hh hn, trivial⟩) h

theorem summaries_ok {loops : List (Loc × Option LoopSummary)} (h : ∀ l ∈ loops, l.2.isSome = true) :
    ∃ summaries, Expansion.summaries loops = .ok summaries := by
  induction loops with
  | nil => exact ⟨[], rfl⟩
  | cons l loops ih =>
    obtain ⟨loc, summary⟩ := l
    obtain ⟨hl, hr⟩ := List.forall_mem_cons.1 h
    obtain ⟨summary, rfl⟩ := Option.isSome_iff_exists.1 hl
    obtain ⟨rest, hrest⟩ := ih hr
    exact ⟨summary :: rest, by rw [Expansion.summaries, hrest]; rfl⟩

section

variable (debug : Bool) (firstId : Nat) {body : List Stmt}

theorem expandLoops_clear (hh : Holders held)
    (hn : ∀ n ∈ (Stmt.loopNodesAll body).zipIdx firstId, (Taxonomy.of n.2 n.1.header.toLoopHeader).Spared held)
    (h : Stmt.EveryAll (Stmt.Clear held) body) :
    Stmt.EveryAll (Stmt.Spares held) (expandLoops debug firstId body).body := by
  let r := Stmt.expandAll { debug, scope := { isModule := true } } body { nextId := firstId }
  have hclear : Stmt.EveryAll (Stmt.Clear held) r.1 :=
    (expandAll_tidies hh body _ h { nextId := firstId } (by simp) hn).2.2
  have hbody : ∀ loc, Stmt.EveryAll (Stmt.Spares held) (insertAfterDoc
      (scopeStart loc (hoistedDeclarations {} body) []) r.1) := fun loc =>
    spares_of_clear (clear_insertAfterDoc
      (clear_scopeStart hh (hoistedDeclarations_spare {} (spares_of_clear h)) (by simp)) hclear)
  show Stmt.EveryAll (Stmt.Spares held) (if r.2.loops.isEmpty then _ else _)
  split
  · exact hbody _
  · exact spares_ensureImport hh (hbody _)

theorem expandLoops_summaries (h : Stmt.EveryAll (Stmt.OfLoop HasTexts) body) :
    ∃ summaries, Expansion.summaries (expandLoops debug firstId body).loops = .ok summaries := by
  refine summaries_ok fun l hl => ?_
  obtain ⟨n, hn, decls, rfl⟩ := forall₂_mem_right (expandLoops_numbers debug firstId body).1 hl
  obtain ⟨_, ht, hc⟩ := loopNodes_every body h n.1 (List.fst_mem_of_mem_zipIdx hn)
  exact summary_isSome ht hc ..

end

end LoopEscape
