import LoopEscape.Proofs.Expand.Mentions
import LoopEscape.Proofs.Lower.Spec

/-!
# Lowered code is closed

Code is closed (`Stmt.Closed`) when it is plain, when each `break` and `continue` stands in a loop of its
scope, and when each exception of a holder is raised inside a `try` of its scope that has a clause for
it.  Lowering makes closed code (`lowerAll_closed`), which uses no other holders than those that are made
on the way, and binds none of them (`lowerAll_holds`).
-/

namespace LoopEscape

open Generate Lower

variable {body : List Stmt} {t : JumpTarget} {loc : Loc} {kind : JumpKind} {label : Option String}
  {value : Option Expr}

/-! ### Closed code -/

def Stmt.raised? : Stmt → Option (String × String)
  | .raise _ (some (.call _ (.member _ (.name _ x _) kind _) _ _)) _ => some (x, kind)
  | _ => none

def Handler.Catches (x kind : String) : Handler → Prop
  | .mk _ (some (.member _ (.name _ y _) kind' _)) _ _ => y = x ∧ kind' = kind
  | _ => False

mutual

/-- Plain code whose jumps stay in its scope.  `inLoop` says whether a loop of the scope is around, and
`caught` which exceptions of holders are caught there. -/
def Stmt.Closed (inLoop : Bool) (caught : String → String → Prop) : Stmt → Prop
  | .function _ _ _ _ body _ _ | .class_ _ _ _ _ body _ => Stmt.ClosedAll false (fun _ _ => False) body
  | .for_ _ _ mark _ _ body orElse | .while_ _ mark _ body orElse =>
    mark = {} ∧ Stmt.ClosedAll true caught body ∧ Stmt.ClosedAll inLoop caught orElse
  | .if_ _ _ body orElse => Stmt.ClosedAll inLoop caught body ∧ Stmt.ClosedAll inLoop caught orElse
  | .with_ _ _ _ body => Stmt.ClosedAll inLoop caught body
  | .match_ _ _ cases => MatchCase.ClosedAll inLoop caught cases
  | .try_ _ _ body handlers orElse final =>
    Stmt.ClosedAll inLoop (fun x kind => caught x kind ∨ ∃ h ∈ handlers, h.Catches x kind) body ∧
      Handler.ClosedAll inLoop caught handlers ∧ Stmt.ClosedAll inLoop caught orElse ∧
      Stmt.ClosedAll inLoop caught final
  | .break_ _ label value => label = none ∧ value = none ∧ inLoop = true
  | .continue_ _ label => label = none ∧ inLoop = true
  | .callbackLoop .. | .block .. => False
  | .raise loc exc cause => ∀ x kind, (Stmt.raise loc exc cause).raised? = some (x, kind) →
      IsHolderName x → caught x kind
  | _ => True

def Stmt.ClosedAll (inLoop : Bool) (caught : String → String → Prop) : List Stmt → Prop
  | [] => True
  | s :: rest => Stmt.Closed inLoop caught s ∧ Stmt.ClosedAll inLoop caught rest

def Handler.ClosedAll (inLoop : Bool) (caught : String → String → Prop) : List Handler → Prop
  | [] => True
  | .mk _ _ _ body :: rest =>
    Stmt.ClosedAll inLoop caught body ∧ Handler.ClosedAll inLoop caught rest

def MatchCase.ClosedAll (inLoop : Bool) (caught : String → String → Prop) : List MatchCase → Prop
  | [] => True
  | .mk _ _ body :: rest =>
    Stmt.ClosedAll inLoop caught body ∧ MatchCase.ClosedAll inLoop caught rest

end

variable {inLoop : Bool} {caught : String → String → Prop} {made : List String}
  {ts : List JumpTarget}

theorem closedAll_iff : Stmt.ClosedAll inLoop caught body ↔
    ∀ s ∈ body, s.Closed inLoop caught := by
  induction body with
  | nil => simp [Stmt.ClosedAll]
  | cons s body ih => simp [Stmt.ClosedAll, ih]

theorem closedAll_append {a b : List Stmt} : Stmt.ClosedAll inLoop caught (a ++ b) ↔
    Stmt.ClosedAll inLoop caught a ∧ Stmt.ClosedAll inLoop caught b := by
  simp only [closedAll_iff, List.forall_mem_append]

/-! ### Targets around closed code -/

/-- The code around serves the targets: there is a loop if one of them is a loop, and what is raised for
them is caught. -/
structure Serves (inLoop : Bool) (caught : String → String → Prop) (ts : List JumpTarget) : Prop where
  loop : ∀ t ∈ ts, t.isLoop = true → inLoop = true
  raised : ∀ t ∈ ts, ∀ kind h, t.raises kind = true → t.holder = some h → caught h kind.name

theorem Serves.none : Serves inLoop caught [] := ⟨by simp, by simp⟩

theorem Serves.mono {caught' : String → String → Prop} (h : Serves inLoop caught ts)
    (hc : ∀ x kind, caught x kind → caught' x kind) : Serves inLoop caught' ts :=
  ⟨h.loop, fun t ht kind x hr hx => hc _ _ (h.raised t ht kind x hr hx)⟩

theorem Serves.cons (h : Serves inLoop caught ts) (hl : t.isLoop = true → inLoop = true)
    (hr : ∀ kind x, t.raises kind = true → t.holder = some x → caught x kind.name) :
    Serves inLoop caught (t :: ts) :=
  ⟨List.forall_mem_cons.2 ⟨hl, h.loop⟩, List.forall_mem_cons.2 ⟨hr, h.raised⟩⟩

theorem Serves.inLoop_of (h : Serves inLoop caught ts) : Serves true caught ts :=
  ⟨fun _ _ _ => rfl, h.raised⟩

theorem plainJump_closed (loc : Loc) (kind : JumpKind) (t : JumpTarget) (value : Option Expr)
    (h : inLoop = true) : Stmt.ClosedAll inLoop caught (plainJump loc kind t value) := by
  refine closedAll_append.2 ⟨?_, ?_⟩
  · split <;> simp [Stmt.ClosedAll, Stmt.Closed, assign]
  · cases kind <;> simp [Stmt.ClosedAll, Stmt.Closed, JumpKind.plain, h]

theorem jump_closed {out : List Stmt} (hs : Serves inLoop caught ts)
    (h : LowersJump ts loc kind label value out) :
    Stmt.ClosedAll inLoop caught out := by
  obtain ⟨i, t, -, ht, -, hout⟩ := h
  have hmem : t ∈ ts := List.mem_of_getElem? ht
  by_cases hin : isInnermost ts i = true
  · rw [if_pos hin] at hout
    obtain ⟨hi, hl, -⟩ := List.findIdx?_eq_some_iff_getElem.1 (eq_of_beq hin)
    obtain ⟨hlt, rfl⟩ := List.getElem?_eq_some_iff.1 ht
    rw [hout]
    exact plainJump_closed loc kind _ value (hs.loop _ hmem hl)
  · rw [if_neg hin] at hout
    obtain ⟨hr, x, hx, rfl⟩ := hout
    refine ⟨fun y kind' heq _ => ?_, trivial⟩
    cases heq
    exact hs.raised t hmem kind x hr hx

theorem loopHandlers_closed (t : JumpTarget) :
    Handler.ClosedAll true caught (loopHandlers t) ∧
      ∀ kind x, t.raises kind = true → t.holder = some x →
        ∃ h ∈ loopHandlers t, h.Catches x kind.name := by
  have hcatch : ∀ kind body x, t.holder = some x → (handler t kind body).Catches x kind.name := by
    intro kind body x hx
    unfold handler
    split <;> simp [Handler.Catches, attr, load, hx]
  refine ⟨?_, fun kind x hr hx => ?_⟩
  · unfold loopHandlers handler
    cases t.raisesContinue <;> cases t.raisesBreak <;> cases t.valueTarget <;>
      simp [Handler.ClosedAll, Stmt.ClosedAll, Stmt.Closed, assign]
  · cases kind with
    | break_ =>
      refine ⟨handler t .break_ [.break_ t.loc none none], ?_, hcatch _ _ x hx⟩
      rw [JumpTarget.raises] at hr
      simp [loopHandlers, hr]
    | continue_ =>
      refine ⟨handler t .continue_ [.continue_ t.loc none], ?_, hcatch _ _ x hx⟩
      rw [JumpTarget.raises] at hr
      simp [loopHandlers, hr]

theorem catchJumps_closed (hs : Serves inLoop caught ts)
    (hb : ∀ caught, Serves true caught (t :: ts) → Stmt.ClosedAll true caught body) :
    Stmt.ClosedAll true caught (catchJumps t body) := by
  have ⟨hh, hcatch⟩ : Handler.ClosedAll true caught (loopHandlers t) ∧ _ := loopHandlers_closed t
  unfold catchJumps
  simp only
  split
  · next hempty =>
    refine hb caught (hs.inLoop_of.cons (fun _ => rfl) fun kind x hr hx => ?_)
    obtain ⟨h, hmem, -⟩ := hcatch kind x hr hx
    rw [List.isEmpty_iff.1 hempty] at hmem
    cases hmem
  · refine ⟨⟨hb _ ?_, hh, trivial, trivial⟩, trivial⟩
    exact (hs.inLoop_of.mono fun _ _ h => .inl h).cons (fun _ => rfl) fun kind x hr hx =>
      .inr (hcatch kind x hr hx)

theorem blockStmts_closed (hs : Serves inLoop caught ts) (hl : t.isLoop = false) (hn : t.Notes)
    (hb : ∀ caught, Serves inLoop caught (t :: ts) → Stmt.ClosedAll inLoop caught body) :
    Stmt.ClosedAll inLoop caught (blockStmts t body) := by
  have hloop : t.isLoop = true → inLoop = true := fun h => by rw [hl] at h; cases h
  have hbreak : ∀ kind, t.raises kind = true → kind = .break_ := by
    intro kind hr
    cases kind with
    | break_ => rfl
    | continue_ => exact absurd ((hn _ hr).2 rfl) (by simp [hl])
  refine closedAll_append.2 ⟨?_, ?_⟩
  · cases t.valueTarget <;> simp [Stmt.ClosedAll, Stmt.Closed, assign]
  · split
    · refine ⟨⟨hb _ ?_, ?_, trivial, trivial⟩, trivial⟩
      · refine (hs.mono fun _ _ h => .inl h).cons hloop fun kind x hr hx => .inr ?_
        rw [hbreak kind hr]
        refine ⟨_, List.mem_singleton.2 rfl, ?_⟩
        unfold handler
        split <;> simp [Handler.Catches, attr, load, hx]
      · unfold handler
        cases t.valueTarget <;> simp [Handler.ClosedAll, Stmt.ClosedAll, Stmt.Closed, assign]
    · next hnot =>
      refine hb caught (hs.cons hloop fun kind x hr _ => ?_)
      rw [hbreak kind hr] at hr
      exact absurd hr hnot

/-! ### Lowering -/

theorem raise_closed {exc cause : Option Expr} (h : (Stmt.raise loc exc cause).Spares IsHolderName) :
    (Stmt.raise loc exc cause).Closed inLoop caught := by
  intro x kind heq hx
  simp only [Stmt.raised?] at heq
  split at heq
  · next he =>
    cases heq
    cases he
    have := (Stmt.spares_iff.1 h).2 _ (List.mem_append_left _ (List.mem_singleton.2 rfl))
    simp only [ExprTree.spares_call, ExprTree.spares_member, ExprTree.spares_name] at this
    exact absurd hx this.1
  · cases heq

theorem closed_of_bodies {s : Stmt} (hs : s.isKept = true)
    (h : ∀ b ∈ s.bodies, ∀ caught', (∀ x kind, caught x kind → caught' x kind) →
      Stmt.ClosedAll inLoop caught' b) : s.Closed inLoop caught := by
  have hhandlers (handlers : List Handler) (h : ∀ c ∈ handlers, Stmt.ClosedAll inLoop caught c.body) :
      Handler.ClosedAll inLoop caught handlers := by
    induction handlers with
    | nil => trivial
    | cons c handlers ih =>
      cases c
      exact ⟨h _ (.head _), ih fun c hc => h c (.tail _ hc)⟩
  have hcases (cases : List MatchCase) (h : ∀ c ∈ cases, Stmt.ClosedAll inLoop caught c.body) :
      MatchCase.ClosedAll inLoop caught cases := by
    induction cases with
    | nil => trivial
    | cons c cases ih =>
      cases c
      exact ⟨h _ (.head _), ih fun c hc => h c (.tail _ hc)⟩
  have hsame {b : List Stmt} (hb : b ∈ s.bodies) : Stmt.ClosedAll inLoop caught b := h b hb _ fun _ _ => id
  cases s with
  | if_ => exact ⟨hsame (.head _), hsame (.tail _ (.head _))⟩
  | with_ => exact hsame (.head _)
  | match_ => exact hcases _ fun c hc => hsame (List.mem_map_of_mem hc)
  | try_ =>
    refine ⟨h _ (.head _) _ fun _ _ => .inl, hhandlers _ fun c hc => hsame ?_,
      hsame (List.mem_append_right _ (.head _)), hsame (List.mem_append_right _ (.tail _ (.head _)))⟩
    exact List.mem_append_left _ (.tail _ (List.mem_map_of_mem hc))
  | _ => cases hs

theorem lowerAll_closed {out : List Stmt} (h : Stmt.EveryAll (Stmt.Spares IsHolderName) body)
    (hl : Stmt.LowerAllTo made ts body out) (hs : Serves inLoop caught ts) :
    Stmt.ClosedAll inLoop caught out := by
  refine hl.induction (motive := fun ts body out => ∀ {inLoop caught},
    Stmt.EveryAll (Stmt.Spares IsHolderName) body → Serves inLoop caught ts →
    Stmt.ClosedAll inLoop caught out) ?nil ?append ?function ?class_ ?for_ ?while_ ?block ?break_ ?continue_
    ?kept ?plain h hs
  case nil => exact fun _ _ _ _ _ => trivial
  case append =>
    exact fun hs hrest _ _ h hserves =>
      closedAll_append.2 ⟨hs ⟨h.1, trivial⟩ hserves, hrest h.2 hserves⟩
  case function => exact fun _ ih _ _ h _ => ⟨ih h.1.2 .none, trivial⟩
  case class_ => exact fun ih _ _ h _ => ⟨ih h.1.2 .none, trivial⟩
  case for_ | while_ =>
    exact fun _ _ hb ho _ _ h hs =>
      ⟨⟨rfl, catchJumps_closed hs fun _ => hb h.1.2.1, ho h.1.2.2 hs⟩, trivial⟩
  case block =>
    exact fun hopen hstand hb _ _ h hs =>
      blockStmts_closed hs hopen.isLoop hstand.notes fun _ => hb h.1.2
  case break_ | continue_ => exact fun h _ _ _ hs => jump_closed hs h
  case kept =>
    intro ts s bs hs hbs inLoop caught h hserves
    refine ⟨closed_of_bodies (Stmt.isKept_withBodies.trans hs) fun b' hb' caught' hc => ?_, trivial⟩
    obtain ⟨b, hb, ih⟩ := Stmt.body_of_withBodies hs hbs hb'
    exact ih ((Stmt.every_iff.1 h.1).2 b hb) (hserves.mono hc)
  case plain =>
    intro ts s hs _ _ h _
    cases s with
    | raise => exact ⟨raise_closed h.1, trivial⟩
    | _ => first | exact ⟨trivial, trivial⟩ | cases hs

/-! ### Holders in lowered code -/

variable {held : String → Prop}

/-- Held names in it are among those made, and none of them is bound. -/
def ExprTree.Holds (held : String → Prop) (made : List String) (t : ExprTree) : Prop :=
  (∀ x ∈ t.mentions, held x → x ∈ made) ∧ ∀ x ∈ t.bindings, ¬ held x

def Stmt.Holds (held : String → Prop) (made : List String) (s : Stmt) : Prop :=
  (∀ x ∈ s.mentions, held x → x ∈ made) ∧ ∀ x ∈ s.bindings, ¬ held x

theorem ExprTree.Spares.holds {t : ExprTree} (h : t.Spares held) : t.Holds held made :=
  ⟨fun x hx hh => absurd hh (h x hx), fun x hx => h x (t.bindings_subset hx)⟩

theorem ExprTree.holds_node {label : Option Expr} {children : List ExprTree} :
    ExprTree.Holds held made (.node label children) ↔
      (∀ e, label = some e → (∀ x ∈ e.ownMentions, held x → x ∈ made) ∧
        ∀ x ∈ e.ownBindings, ¬ held x) ∧ ∀ t ∈ children, t.Holds held made := by
  simp only [ExprTree.Holds, ExprTree.mentions, ExprTree.bindings, ExprTree.nodes, Rose.labels,
    List.mem_flatMap, List.mem_filterMap, id, List.mem_cons, Rose.mem_labelsAll]
  grind

theorem Stmt.holds_iff {s : Stmt} : s.Holds held made ↔
    (∀ x ∈ s.ownNames, ¬ held x) ∧ ∀ t ∈ s.trees, t.Holds held made := by
  simp only [Stmt.Holds, ExprTree.Holds, Stmt.mentions, Stmt.bindings, List.mem_append,
    List.mem_flatMap]
  grind

theorem Stmt.Spares.holds {s : Stmt} (h : s.Spares held) : s.Holds held made := by
  obtain ⟨hnames, htrees⟩ := Stmt.spares_iff.1 h
  exact Stmt.holds_iff.2 ⟨hnames, fun t ht => (htrees t ht).holds⟩

/-- The holders of the targets are among those made, and their variables are not held. -/
def Backed (held : String → Prop) (made : List String) (ts : List JumpTarget) : Prop :=
  ∀ t ∈ ts, (∀ x, t.holder = some x → x ∈ made) ∧ ∀ x ∈ t.valueTarget.toList, ¬ held x

theorem Backed.cons {valueTarget : Option String} {isLoop : Bool} (h : Backed held made ts)
    (ho : t.Opens loc label isLoop valueTarget) (hs : t.Stands made ts)
    (hv : ∀ x ∈ valueTarget.toList, ¬ held x) : Backed held made (t :: ts) :=
  List.forall_mem_cons.2 ⟨⟨hs.made, by rwa [ho.valueTarget]⟩, h⟩

theorem class_holds {s : Span} {x : String} (hx : x ∈ made) (kind : String) :
    (attr s (load s x) kind).tree.Holds held made := by
  simp [attr, load, Expr.tree, ExprTree.holds_node, Expr.ownMentions, Expr.ownBindings, hx]

theorem plain_holds (kind : JumpKind) :
    Stmt.EveryAll (Stmt.Holds held made) [kind.plain loc] := by
  cases kind <;> simp [JumpKind.plain, Stmt.EveryAll, Stmt.Every, Stmt.holds_iff, Stmt.ownNames,
    Stmt.trees, Expr.optionTrees]

theorem plainJump_holds (ht : ∀ x ∈ t.valueTarget.toList, ¬ held x)
    (hv : ∀ u ∈ Expr.optionTrees value, u.Spares held) :
    Stmt.EveryAll (Stmt.Holds held made) (plainJump loc kind t value) := by
  refine everyAll_append.2 ⟨?_, ?_⟩
  · split
    · trivial
    · next e x hx =>
      have he : e.tree.Spares held := hv e.tree (by simp [Expr.optionTrees])
      exact ⟨(clear_assign (ht x (by simp [hx])) he).1.holds, trivial⟩
    · next e _ =>
      have he : e.tree.Spares held := hv e.tree (by simp [Expr.optionTrees])
      exact ⟨(clear_expr he).1.holds, trivial⟩
  · exact plain_holds kind

theorem raiseJump_holds {x : String} (hx : x ∈ made)
    (hv : ∀ u ∈ Expr.optionTrees value, u.Spares held) :
    (raiseJump loc x kind value).Holds held made := by
  refine Stmt.holds_iff.2 ⟨by simp [raiseJump, Stmt.ownNames], ?_⟩
  have hcall : (call loc.span (attr loc.span (load loc.span x) kind.name) value.toList).tree.Holds
      held made := by
    refine ExprTree.holds_node.2 ⟨by simp [Expr.ownMentions, Expr.ownBindings], ?_⟩
    refine List.forall_mem_cons.2 ⟨class_holds hx _, List.forall_mem_append.2 ⟨?_, ?_⟩⟩
    · cases value with
      | none => simp [Expr.trees]
      | some e =>
        have he : e.tree.Spares held := hv e.tree (by simp [Expr.optionTrees])
        simpa [Expr.trees] using he.holds
    · simp [Keyword.trees]
  simpa [raiseJump, Stmt.trees, Expr.optionTrees] using hcall

theorem jump_holds {out : List Stmt} (hs : Backed held made ts) (h : LowersJump ts loc kind label value out)
    (hv : ∀ u ∈ Expr.optionTrees value, u.Spares held) :
    Stmt.EveryAll (Stmt.Holds held made) out := by
  obtain ⟨i, t, -, ht, -, hout⟩ := h
  have hmem : t ∈ ts := List.mem_of_getElem? ht
  split at hout
  · rw [hout]
    exact plainJump_holds (hs t hmem).2 hv
  · obtain ⟨-, x, hx, rfl⟩ := hout
    exact ⟨raiseJump_holds ((hs t hmem).1 x hx) hv, trivial⟩

def Handler.Holds (held : String → Prop) (made : List String) (h : Handler) : Prop :=
  (∀ x ∈ h.captures, ¬ held x) ∧ (∀ u ∈ h.trees, u.Holds held made) ∧
    Handler.EveryAll (Stmt.Holds held made) [h]

theorem handler_holds (hjump : ¬ held jumpVariable) (ht : Backed held made (t :: ts)) (hn : t.Notes)
    (hr : t.raises kind = true) (hb : Stmt.EveryAll (Stmt.Holds held made) body) :
    (handler t kind body).Holds held made := by
  obtain ⟨⟨x, hx⟩, -⟩ := hn kind hr
  obtain ⟨hmade, hvalue⟩ := ht t (.head _)
  have hclass : ∀ s, (attr s (load s (t.holder.getD "")) kind.name).tree.Holds held made := fun s => by
    rw [hx]
    exact class_holds (hmade x hx) _
  unfold handler
  split
  · next target hv =>
    refine ⟨by simpa [Handler.captures] using hjump, ?_, ⟨?_, hb⟩, trivial⟩
    · simpa [Handler.trees, Expr.optionTrees] using hclass _
    · refine (clear_assign (hvalue target (by simp [hv])) ?_).1.holds
      simpa [attr, load] using hjump
  · refine ⟨by simp [Handler.captures], ?_, hb, trivial⟩
    simpa [Handler.trees, Expr.optionTrees] using hclass _

theorem try_holds {handlers : List Handler} (hb : Stmt.EveryAll (Stmt.Holds held made) body)
    (hh : ∀ h ∈ handlers, h.Holds held made) :
    (Stmt.try_ loc false body handlers [] []).Every (Stmt.Holds held made) := by
  refine ⟨Stmt.holds_iff.2 ⟨fun x hx => ?_, fun u hu => ?_⟩, hb,
    everyHandlers_iff.2 fun h hmem => (hh h hmem).2.2, trivial, trivial⟩
  · obtain ⟨h, hmem, hx⟩ := List.mem_flatMap.1 hx
    exact (hh h hmem).1 x hx
  · obtain ⟨h, hmem, hu⟩ := List.mem_flatMap.1 hu
    exact (hh h hmem).2.1 u hu

theorem catchJumps_holds (hjump : ¬ held jumpVariable) (ht : Backed held made (t :: ts)) (hn : t.Notes)
    (hb : Stmt.EveryAll (Stmt.Holds held made) body) : Stmt.EveryAll (Stmt.Holds held made) (catchJumps t body) := by
  unfold catchJumps
  simp only
  split
  · exact hb
  · refine ⟨try_holds hb fun h hmem => ?_, trivial⟩
    rcases List.mem_append.1 hmem with hmem | hmem
    · split at hmem
      · next hr =>
        cases List.mem_singleton.1 hmem
        exact handler_holds hjump ht hn (show t.raises .continue_ = true from hr) (plain_holds .continue_)
      · cases hmem
    · split at hmem
      · next hr =>
        cases List.mem_singleton.1 hmem
        exact handler_holds hjump ht hn (show t.raises .break_ = true from hr) (plain_holds .break_)
      · cases hmem

theorem blockStmts_holds (hjump : ¬ held jumpVariable) (ht : Backed held made (t :: ts)) (hn : t.Notes)
    (hb : Stmt.EveryAll (Stmt.Holds held made) body) : Stmt.EveryAll (Stmt.Holds held made) (blockStmts t body) := by
  refine everyAll_append.2 ⟨everyAll_iff.2 fun s hs => ?_, ?_⟩
  · obtain ⟨x, hx, rfl⟩ := List.mem_map.1 hs
    exact (clear_assign ((ht t (.head _)).2 x hx) (by simp [nothing])).1.holds
  · split
    · next hr =>
      refine ⟨try_holds hb fun h hmem => ?_, trivial⟩
      cases List.mem_singleton.1 hmem
      exact handler_holds hjump ht hn (show t.raises .break_ = true from hr) ⟨clear_pass.1.holds, trivial⟩
    · exact hb

theorem lowerAll_holds {out : List Stmt} (hjump : ¬ held jumpVariable)
    (h : Stmt.EveryAll (Stmt.Spares held) body)
    (hl : Stmt.LowerAllTo made ts body out) (hs : Backed held made ts) :
    Stmt.EveryAll (Stmt.Holds held made) out := by
  refine hl.induction (motive := fun ts body out => Stmt.EveryAll (Stmt.Spares held) body →
    Backed held made ts → Stmt.EveryAll (Stmt.Holds held made) out) ?nil ?append ?function ?class_ ?for_ ?while_
    ?block ?break_ ?continue_ ?kept ?plain h hs
  case nil => exact fun _ _ _ => trivial
  case append =>
    exact fun hs hrest h hback => everyAll_append.2 ⟨hs ⟨h.1, trivial⟩ hback, hrest h.2 hback⟩
  case function => exact fun _ ih h _ => ⟨⟨h.1.1.holds, ih h.1.2 nofun⟩, trivial⟩
  case class_ => exact fun ih h _ => ⟨⟨h.1.1.holds, ih h.1.2 nofun⟩, trivial⟩
  case for_ | while_ =>
    refine fun hopen hstand hb ho h hs => ?_
    obtain ⟨hnames, htrees⟩ := Stmt.spares_iff.1 h.1.1
    have hcons := hs.cons hopen hstand hnames
    exact ⟨⟨Stmt.Spares.holds (Stmt.spares_iff.2 ⟨by simp [Stmt.ownNames], htrees⟩),
      catchJumps_holds hjump hcons hstand.notes (hb h.1.2.1 hcons), ho h.1.2.2 hs⟩, trivial⟩
  case block =>
    refine fun hopen hstand hb h hs => ?_
    have hcons := hs.cons hopen hstand (Stmt.spares_iff.1 h.1.1).1
    exact blockStmts_holds hjump hcons hstand.notes (hb h.1.2 hcons)
  case break_ => exact fun hl h hs => jump_holds hs hl (Stmt.spares_iff.1 h.1).2
  case continue_ => exact fun hl _ hs => jump_holds hs hl (by simp [Expr.optionTrees])
  case kept =>
    intro ts s bs hs hbs h hback
    obtain ⟨hnames, htrees⟩ := Stmt.own_refill (Stmt.isInner_of_isKept hs) hbs.length_eq
    refine ⟨Stmt.every_withBodies hs (hbs.imp fun _ _ ih h => ih h hback) h.1 (Stmt.Spares.holds ?_), trivial⟩
    rw [Stmt.spares_iff, hnames, htrees]
    exact Stmt.spares_iff.1 h.1.here
  case plain =>
    intro ts s hs h _
    cases s <;> first | exact ⟨Stmt.Spares.holds h.1, trivial⟩ | cases hs

end LoopEscape
