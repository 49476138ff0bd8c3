import LoopEscape.Scope.Bound
import LoopEscape.Proofs.Scope.Declared
import LoopEscape.Proofs.Tree.Suites

/-!
# Names that statements mention

The names that a statement mentions itself, those of the statements inside it apart, and among them the
names that it binds.  Parameters, imported names, captured names and declared names are bound, and so are
variables that receive the value of a jump.  A module mentions what some statement of it mentions, at any
depth.
-/

namespace LoopEscape

/-! ### Walks -/

namespace Rose

theorem mem_besides {β : Type} {xs ys : List (List β)} {b : β} :
    b ∈ (besides xs ys).flatten ↔ b ∈ xs.flatten ∨ b ∈ ys.flatten := by
  fun_induction besides xs ys with
  | case1 => simp
  | case2 => simp
  | case3 x xs y ys ih =>
    simp only [List.flatten_cons, List.mem_append, ih]
    grind

mutual

theorem mem_levels {α : Type} {a : α} : ∀ t : Rose α, a ∈ t.levels.flatten ↔ a ∈ t.labels
  | .node label children => by
    rw [levels, labels, List.flatten_cons, List.singleton_append, List.mem_cons, List.mem_cons,
      mem_levelsAll children]

theorem mem_levelsAll {α : Type} {a : α} : ∀ ts : List (Rose α),
    a ∈ (levelsAll ts).flatten ↔ a ∈ labelsAll ts
  | [] => by simp [levelsAll, labelsAll]
  | t :: ts => by
    rw [levelsAll, labelsAll, mem_besides, List.mem_append, mem_levels t, mem_levelsAll ts]

end

theorem mem_labelsAll {α : Type} {a : α} {ts : List (Rose α)} :
    a ∈ labelsAll ts ↔ ∃ t ∈ ts, a ∈ t.labels := by
  induction ts with
  | nil => simp [labelsAll]
  | cons t ts ih => simp [labelsAll, ih]

end Rose

theorem forall_besides {β : Type} {P : β → Prop} {xs ys : List (List β)} :
    (∀ b ∈ (Rose.besides xs ys).flatten, P b) ↔
      (∀ b ∈ xs.flatten, P b) ∧ ∀ b ∈ ys.flatten, P b := by
  simp only [Rose.mem_besides, or_imp, forall_and]

theorem forall_level {β : Type} {P : β → Prop} {b : β} {below : List (List β)} :
    (∀ c ∈ ([b] :: below).flatten, P c) ↔ P b ∧ ∀ c ∈ below.flatten, P c := by
  simp only [List.flatten_cons, List.singleton_append, List.forall_mem_cons]

mutual

theorem forall_levels {P : Stmt → Prop} : ∀ s : Stmt, (∀ t ∈ s.levels.flatten, P t) ↔ s.Every P
  | .function .. | .class_ .. | .with_ .. | .callbackLoop .. | .block .. | .for_ .. | .while_ ..
  | .if_ .. | .match_ .. | .try_ .. => by
    simp only [Stmt.levels, Stmt.Every, forall_level, forall_besides, forall_levelsAll,
      forall_levelsHandlers, forall_levelsCases]
  | .return_ .. | .delete .. | .assign .. | .augAssign .. | .annAssign .. | .raise .. | .assert_ ..
  | .import_ .. | .importFrom .. | .supportImport .. | .global .. | .nonlocal .. | .expr .. | .pass ..
  | .break_ .. | .continue_ .. => by
    simp [Stmt.levels, Stmt.Every]

theorem forall_levelsAll {P : Stmt → Prop} : ∀ body : List Stmt,
    (∀ t ∈ (Stmt.levelsAll body).flatten, P t) ↔ Stmt.EveryAll P body
  | [] => by simp [Stmt.levelsAll, Stmt.EveryAll]
  | s :: rest => by
    simp only [Stmt.levelsAll, Stmt.EveryAll, forall_besides, forall_levels s,
      forall_levelsAll rest]

theorem forall_levelsHandlers {P : Stmt → Prop} : ∀ hs : List Handler,
    (∀ t ∈ (Handler.levelsAll hs).flatten, P t) ↔ Handler.EveryAll P hs
  | [] => by simp [Handler.levelsAll, Handler.EveryAll]
  | .mk _ _ _ body :: rest => by
    simp only [Handler.levelsAll, Handler.EveryAll, forall_besides, List.flatten_cons,
      List.nil_append, forall_levelsAll body, forall_levelsHandlers rest]

theorem forall_levelsCases {P : Stmt → Prop} : ∀ cs : List MatchCase,
    (∀ t ∈ (MatchCase.levelsAll cs).flatten, P t) ↔ MatchCase.EveryAll P cs
  | [] => by simp [MatchCase.levelsAll, MatchCase.EveryAll]
  | .mk _ _ body :: rest => by
    simp only [MatchCase.levelsAll, MatchCase.EveryAll, forall_besides, List.flatten_cons,
      List.nil_append, forall_levelsAll body, forall_levelsCases rest]

end

theorem forall_walk {P : Stmt → Prop} {body : List Stmt} :
    (∀ s ∈ Stmt.walk body, P s) ↔ Stmt.EveryAll P body :=
  forall_levelsAll body

theorem everyAll_mono {P Q : Stmt → Prop} {body : List Stmt} (h : ∀ s, P s → Q s)
    (hb : Stmt.EveryAll P body) : Stmt.EveryAll Q body :=
  forall_walk.1 fun s hs => h s (forall_walk.2 hb s hs)

/-! ### Expressions -/

def Expr.ownMentions : Expr → List String
  | .name _ id _ => [id]
  | .named _ (.name _ id _) _ => [id]
  | .lambda _ params _ => params.names
  | _ => []

def Expr.ownBindings : Expr → List String
  | .name _ id access => if access = .load then [] else [id]
  | .named _ (.name _ id _) _ => [id]
  | .lambda _ params _ => params.names
  | _ => []

namespace ExprTree

def nodes (t : ExprTree) : List Expr := t.labels.filterMap id

def mentions (t : ExprTree) : List String := t.nodes.flatMap Expr.ownMentions

def bindings (t : ExprTree) : List String := t.nodes.flatMap Expr.ownBindings

end ExprTree

theorem Expr.ownBindings_subset (e : Expr) : e.ownBindings ⊆ e.ownMentions := by
  intro x hx
  unfold Expr.ownBindings at hx
  split at hx
  · split at hx
    · cases hx
    · exact hx
  · exact hx
  · exact hx
  · cases hx

theorem ExprTree.bindings_subset (t : ExprTree) : t.bindings ⊆ t.mentions := by
  intro x hx
  obtain ⟨e, he, hx⟩ := List.mem_flatMap.1 hx
  exact List.mem_flatMap.2 ⟨e, he, e.ownBindings_subset hx⟩

mutual

def CasePattern.trees : CasePattern → List ExprTree
  | .value _ e => [e.tree]
  | .singleton .. | .star .. | .as_ _ none _ => []
  | .sequence _ patterns | .or_ _ patterns => CasePattern.treesAll patterns
  | .mapping _ keys patterns _ => Expr.trees keys ++ CasePattern.treesAll patterns
  | .ofClass _ cls patterns _ named =>
    cls.tree :: (CasePattern.treesAll patterns ++ CasePattern.treesAll named)
  | .as_ _ (some pattern) _ => CasePattern.trees pattern

def CasePattern.treesAll : List CasePattern → List ExprTree
  | [] => []
  | p :: ps => CasePattern.trees p ++ CasePattern.treesAll ps

end

mutual

def CasePattern.captures : CasePattern → List String
  | .value .. | .singleton .. => []
  | .sequence _ patterns | .or_ _ patterns => CasePattern.capturesAll patterns
  | .mapping _ _ patterns rest => rest.toList ++ CasePattern.capturesAll patterns
  | .ofClass _ _ patterns _ named =>
    CasePattern.capturesAll patterns ++ CasePattern.capturesAll named
  | .star _ name | .as_ _ none name => name.toList
  | .as_ _ (some pattern) name => name.toList ++ CasePattern.captures pattern

def CasePattern.capturesAll : List CasePattern → List String
  | [] => []
  | p :: ps => CasePattern.captures p ++ CasePattern.capturesAll ps

end

/-! ### Statements -/

def WithItem.trees (item : WithItem) : List ExprTree :=
  item.context.tree :: Expr.optionTrees item.target

def Handler.trees : Handler → List ExprTree
  | .mk _ type _ _ => Expr.optionTrees type

def Handler.captures : Handler → List String
  | .mk _ _ name _ => name.toList

def MatchCase.trees : MatchCase → List ExprTree
  | .mk pattern guard _ => pattern.trees ++ Expr.optionTrees guard

def MatchCase.captures : MatchCase → List String
  | .mk pattern _ _ => pattern.captures

namespace Stmt

def trees : Stmt → List ExprTree
  | .function _ _ _ params _ decorators returns =>
    params.tree :: (Expr.trees decorators ++ Expr.optionTrees returns)
  | .class_ _ _ bases keywords _ decorators =>
    Expr.trees bases ++ Keyword.trees keywords ++ Expr.trees decorators
  | .return_ _ value | .break_ _ _ value => Expr.optionTrees value
  | .delete _ targets => Expr.trees targets
  | .assign _ targets value => Expr.trees targets ++ [value.tree]
  | .augAssign _ target _ value => [target.tree, value.tree]
  | .annAssign _ target typeHint value _ => target.tree :: typeHint.tree :: Expr.optionTrees value
  | .for_ _ _ _ target iter _ _ | .callbackLoop _ _ target iter _ => [target.tree, iter.tree]
  | .while_ _ _ test _ _ | .if_ _ test _ _ => [test.tree]
  | .with_ _ _ items _ => items.flatMap WithItem.trees
  | .match_ _ subject cases => subject.tree :: cases.flatMap MatchCase.trees
  | .raise _ exc cause => Expr.optionTrees exc ++ Expr.optionTrees cause
  | .try_ _ _ _ handlers _ _ => handlers.flatMap Handler.trees
  | .assert_ _ test message => test.tree :: Expr.optionTrees message
  | .expr _ value => [value.tree]
  | .import_ .. | .importFrom .. | .supportImport .. | .global .. | .nonlocal .. | .pass ..
  | .continue_ .. | .block .. => []

def ownNames : Stmt → List String
  | .function _ _ name params _ _ _ => name :: params.names
  | .class_ _ name _ _ _ _ => [name]
  | .for_ _ _ mark _ _ _ _ | .while_ _ mark _ _ _ => mark.valueTarget.toList
  | .match_ _ _ cases => cases.flatMap MatchCase.captures
  | .try_ _ _ _ handlers _ _ => handlers.flatMap Handler.captures
  | .import_ _ names | .importFrom _ _ names _ | .supportImport _ names => names.filterMap Alias.bound
  | .global _ names | .nonlocal _ names => names
  | .callbackLoop _ header _ _ _ => header.result.toList
  | .block _ _ target _ => target.toList
  | _ => []

def mentions (s : Stmt) : List String := s.ownNames ++ s.trees.flatMap ExprTree.mentions

def bindings (s : Stmt) : List String := s.ownNames ++ s.trees.flatMap ExprTree.bindings

def Mention (body : List Stmt) (x : String) : Prop := ∃ s ∈ walk body, x ∈ s.mentions

def Bind (body : List Stmt) (x : String) : Prop := ∃ s ∈ walk body, x ∈ s.bindings

end Stmt

theorem Stmt.own_refill {s : Stmt} {fill : Loc → List Stmt → List Stmt} {bs : List (List Stmt)}
    (hs : s.isInner = true) (hlen : s.bodies.length = bs.length) :
    (s.refill fill bs).ownNames = s.ownNames ∧ (s.refill fill bs).trees = s.trees := by
  have hzip {α β : Type} {f : α → List Stmt → α} {g : α → List β} (hg : ∀ a b, g (f a b) = g a) (l : List α)
      (bs : List (List Stmt)) (h : l.length ≤ bs.length) : (l.zipWith f bs).flatMap g = l.flatMap g := by
    induction l generalizing bs with
    | nil => rfl
    | cons a l ih =>
      obtain _ | ⟨b, bs⟩ := bs
      · cases h
      · rw [List.zipWith_cons_cons, List.flatMap_cons, List.flatMap_cons, hg, ih bs (Nat.le_of_succ_le_succ h)]
  cases s with
  | for_ | while_ | if_ | with_ | block => rcases bs with _ | ⟨b, _ | ⟨o, _ | _⟩⟩ <;> exact ⟨rfl, rfl⟩
  | match_ =>
    have hle := Nat.le_of_eq ((List.length_map _).symm.trans hlen)
    simp only [Stmt.refill, Stmt.ownNames, Stmt.trees]
    exact ⟨hzip (fun c _ => by cases c; rfl) _ _ hle, congrArg _ (hzip (fun c _ => by cases c; rfl) _ _ hle)⟩
  | try_ _ _ _ handlers =>
    obtain _ | ⟨b, bs⟩ := bs
    · cases hlen
    · have hle : handlers.length ≤ bs.length := by
        simp only [Stmt.bodies, List.cons_append, List.length_cons, List.length_append, List.length_map] at hlen
        omega
      simp only [Stmt.refill, Stmt.ownNames, Stmt.trees]
      exact ⟨hzip (fun c _ => by cases c; rfl) _ _ hle, hzip (fun c _ => by cases c; rfl) _ _ hle⟩
  | function | class_ | callbackLoop => cases hs
  | _ => exact ⟨rfl, rfl⟩

/-! ### Names left alone -/

variable {held : String → Prop}

def ExprTree.Spares (held : String → Prop) (t : ExprTree) : Prop := ∀ x ∈ t.mentions, ¬ held x

def Stmt.Spares (held : String → Prop) (s : Stmt) : Prop := ∀ x ∈ s.mentions, ¬ held x

theorem everyAll_spares_iff {body : List Stmt} :
    Stmt.EveryAll (Stmt.Spares held) body ↔ ∀ x, held x → ¬ Stmt.Mention body x := by
  rw [← forall_walk]
  constructor
  · rintro h x hx ⟨s, hs, hm⟩
    exact h s hs x hm hx
  · intro h s hs x hm hx
    exact h x hx ⟨s, hs, hm⟩

namespace ExprTree

theorem spares_node {label : Option Expr} {children : List ExprTree} :
    Spares held (.node label children) ↔
      (∀ e, label = some e → ∀ x ∈ e.ownMentions, ¬ held x) ∧ ∀ t ∈ children, t.Spares held := by
  simp only [Spares, mentions, nodes, Rose.labels, List.mem_flatMap, List.mem_filterMap, id,
    List.mem_cons, Rose.mem_labelsAll]
  grind

theorem assigned_spared {t : ExprTree} (h : t.Spares held) : ∀ x ∈ t.assigned, ¬ held x := by
  intro x hx
  obtain ⟨label, hl, heq⟩ := List.mem_filterMap.1 hx
  split at heq
  · cases heq
    have hnode : (_ : Expr) ∈ t.nodes := List.mem_filterMap.2 ⟨_, (Rose.mem_levels t).1 hl, rfl⟩
    exact h x (List.mem_flatMap.2 ⟨_, hnode, List.mem_singleton.2 rfl⟩)
  · cases heq

mutual

theorem bound_spared : ∀ t : ExprTree, t.Spares held → ∀ x ∈ t.bound, ¬ held x
  | .node label children, h => by
    unfold ExprTree.bound
    split <;> rename_i heq <;> cases heq
    · intro x hx
      split at hx
      · cases hx
      · exact (spares_node.1 h).1 _ rfl x hx
    · exact fun x hx => nomatch hx
    · exact assigned_spared h
    · exact assigned_spared h
    · exact boundAll_spared children (spares_node.1 h).2

theorem boundAll_spared : ∀ ts : List ExprTree, (∀ t ∈ ts, t.Spares held) →
    ∀ x ∈ boundAll ts, ¬ held x
  | [], _ => fun x hx => nomatch hx
  | t :: ts, h => by
    intro x hx
    rw [boundAll, List.mem_append] at hx
    rcases hx with hx | hx
    · exact bound_spared t (h t (by simp)) x hx
    · exact boundAll_spared ts (fun t' ht => h t' (by simp [ht])) x hx

end

end ExprTree

/-! ### Bound and declared names of statements -/

theorem Stmt.spares_iff {s : Stmt} : s.Spares held ↔
    (∀ x ∈ s.ownNames, ¬ held x) ∧ ∀ t ∈ s.trees, t.Spares held := by
  simp only [Stmt.Spares, Stmt.mentions, List.mem_append, List.mem_flatMap, ExprTree.Spares]
  grind

theorem Expr.boundAll_spared : ∀ {es : List Expr}, (∀ t ∈ Expr.trees es, t.Spares held) →
    ∀ x ∈ Expr.boundAll es, ¬ held x
  | [], _ => fun x hx => nomatch hx
  | e :: es, h => by
    simp only [Expr.trees, List.forall_mem_cons] at h
    intro x hx
    rw [Expr.boundAll, List.flatMap_cons, List.mem_append] at hx
    rcases hx with hx | hx
    · exact ExprTree.bound_spared e.tree h.1 x hx
    · exact Expr.boundAll_spared h.2 x hx

theorem Expr.boundOption_spared {e : Option Expr} (h : ∀ t ∈ Expr.optionTrees e, t.Spares held) :
    ∀ x ∈ Expr.boundOption e, ¬ held x := by
  cases e with
  | none => exact fun x hx => nomatch hx
  | some e =>
    have hone : ∀ t ∈ Expr.trees [e], t.Spares held := h
    exact Expr.boundAll_spared hone

theorem Expr.bound_spared {e : Expr} (h : e.tree.Spares held) : ∀ x ∈ e.bound, ¬ held x :=
  ExprTree.bound_spared e.tree h

theorem WithItem.bound_spared {items : List WithItem}
    (h : ∀ t ∈ items.flatMap WithItem.trees, t.Spares held) :
    ∀ x ∈ items.flatMap WithItem.bound, ¬ held x := by
  intro x hx
  obtain ⟨item, hi, hx⟩ := List.mem_flatMap.1 hx
  have hitem : ∀ t ∈ item.trees, t.Spares held := fun t ht => h t (List.mem_flatMap.2 ⟨item, hi, ht⟩)
  rw [WithItem.trees, List.forall_mem_cons] at hitem
  rcases List.mem_append.1 hx with hx | hx
  · exact Expr.bound_spared hitem.1 x hx
  · exact Expr.boundOption_spared hitem.2 x hx

mutual

theorem CasePattern.bound_spared : ∀ p : CasePattern, (∀ t ∈ p.trees, t.Spares held) →
    (∀ x ∈ p.captures, ¬ held x) → ∀ x ∈ p.bound, ¬ held x
  | .value _ e, h, _ => Expr.bound_spared (h e.tree (List.mem_singleton.2 rfl))
  | .singleton .., _, _ => fun x hx => nomatch hx
  | .sequence _ patterns, h, hc => CasePattern.boundAll_spared patterns h hc
  | .or_ _ patterns, h, hc => CasePattern.boundAll_spared patterns h hc
  | .star .., _, hc => hc
  | .as_ _ none _, _, hc => hc
  | .as_ _ (some pattern) _, h, hc => by
    simp only [CasePattern.captures, CasePattern.bound, List.forall_mem_append] at hc ⊢
    exact ⟨hc.1, CasePattern.bound_spared pattern h hc.2⟩
  | .mapping _ keys patterns rest, h, hc => by
    simp only [CasePattern.trees, CasePattern.captures, CasePattern.bound,
      List.forall_mem_append] at h hc ⊢
    exact ⟨⟨hc.1, Expr.boundAll_spared h.1⟩, CasePattern.boundAll_spared patterns h.2 hc.2⟩
  | .ofClass _ cls patterns _ named, h, hc => by
    simp only [CasePattern.trees, CasePattern.captures, CasePattern.bound, List.forall_mem_cons,
      List.forall_mem_append] at h hc ⊢
    exact ⟨⟨Expr.bound_spared h.1, CasePattern.boundAll_spared patterns h.2.1 hc.1⟩,
      CasePattern.boundAll_spared named h.2.2 hc.2⟩

theorem CasePattern.boundAll_spared : ∀ ps : List CasePattern,
    (∀ t ∈ CasePattern.treesAll ps, t.Spares held) →
    (∀ x ∈ CasePattern.capturesAll ps, ¬ held x) → ∀ x ∈ CasePattern.boundAll ps, ¬ held x
  | [], _, _ => fun x hx => nomatch hx
  | p :: ps, h, hc => by
    simp only [CasePattern.treesAll, CasePattern.capturesAll, CasePattern.boundAll,
      List.forall_mem_append] at h hc ⊢
    exact ⟨CasePattern.bound_spared p h.1 hc.1, CasePattern.boundAll_spared ps h.2 hc.2⟩

end

theorem boundHandlers_spared {hs : List Handler} (hn : ∀ x ∈ hs.flatMap Handler.captures, ¬ held x)
    (ht : ∀ t ∈ hs.flatMap Handler.trees, t.Spares held)
    (hb : ∀ b ∈ hs.map Handler.body, ∀ x ∈ Stmt.boundAll b, ¬ held x) :
    ∀ x ∈ Handler.boundAll hs, ¬ held x := by
  induction hs with
  | nil => exact fun x hx => nomatch hx
  | cons c rest ih =>
    cases c
    simp only [List.flatMap_cons, List.map_cons, Handler.captures, Handler.trees, Handler.boundAll,
      List.forall_mem_append, List.forall_mem_cons] at hn ht hb ⊢
    exact ⟨⟨⟨hn.1, Expr.boundOption_spared ht.1⟩, hb.1⟩, ih hn.2 ht.2 hb.2⟩

theorem boundCases_spared {cs : List MatchCase} (hn : ∀ x ∈ cs.flatMap MatchCase.captures, ¬ held x)
    (ht : ∀ t ∈ cs.flatMap MatchCase.trees, t.Spares held)
    (hb : ∀ b ∈ cs.map MatchCase.body, ∀ x ∈ Stmt.boundAll b, ¬ held x) :
    ∀ x ∈ MatchCase.boundAll cs, ¬ held x := by
  induction cs with
  | nil => exact fun x hx => nomatch hx
  | cons c rest ih =>
    cases c
    simp only [List.flatMap_cons, List.map_cons, MatchCase.captures, MatchCase.trees, MatchCase.boundAll,
      List.forall_mem_append, List.forall_mem_cons] at hn ht hb ⊢
    exact ⟨⟨⟨CasePattern.bound_spared _ ht.1.1 hn.1, Expr.boundOption_spared ht.1.2⟩, hb.1⟩,
      ih hn.2 ht.2 hb.2⟩

theorem Stmt.Spares.bound {s : Stmt} (h : s.Spares held)
    (hb : ∀ b ∈ s.bodies, ∀ x ∈ Stmt.boundAll b, ¬ held x) : ∀ x ∈ s.bound, ¬ held x := by
  obtain ⟨hn, ht⟩ := Stmt.spares_iff.1 h
  cases s <;> simp only [Stmt.ownNames, Stmt.trees, Stmt.bodies, Stmt.bound, List.forall_mem_append,
    List.forall_mem_cons, List.not_mem_nil, false_implies, implies_true, and_true] at hn ht hb ⊢
  case function => exact hn.1
  case class_ | import_ | importFrom | supportImport => exact hn
  case return_ => exact Expr.boundOption_spared ht
  case delete => exact Expr.boundAll_spared ht
  case assign => exact ⟨Expr.boundAll_spared ht.1, Expr.bound_spared ht.2⟩
  case augAssign => exact ⟨Expr.bound_spared ht.1, Expr.bound_spared ht.2⟩
  case annAssign =>
    exact ⟨⟨Expr.bound_spared ht.1, Expr.bound_spared ht.2.1⟩, Expr.boundOption_spared ht.2.2⟩
  case for_ =>
    exact ⟨⟨⟨Expr.bound_spared ht.1, Expr.bound_spared ht.2⟩, hb.1⟩, hb.2⟩
  case while_ | if_ => exact ⟨⟨Expr.bound_spared ht, hb.1⟩, hb.2⟩
  case with_ => exact ⟨WithItem.bound_spared ht, hb⟩
  case match_ => exact ⟨Expr.bound_spared ht.1, boundCases_spared hn ht.2 hb⟩
  case raise => exact ⟨Expr.boundOption_spared ht.1, Expr.boundOption_spared ht.2⟩
  case try_ =>
    obtain ⟨⟨hbody, hh⟩, ho, hf⟩ := hb
    exact ⟨⟨⟨hbody, boundHandlers_spared hn ht hh⟩, ho⟩, hf⟩
  case assert_ => exact ⟨Expr.bound_spared ht.1, Expr.boundOption_spared ht.2⟩
  case expr => exact Expr.bound_spared ht
  case callbackLoop => exact ⟨⟨⟨hn, Expr.bound_spared ht.1⟩, Expr.bound_spared ht.2⟩, hb⟩
  case block => exact ⟨hn, hb⟩

theorem boundAll_spared (body : List Stmt) :
    Stmt.EveryAll (Stmt.Spares held) body → ∀ x ∈ Stmt.boundAll body, ¬ held x := by
  induction body using Stmt.bodies_induction with
  | _ body ih =>
    intro h
    induction body with
    | nil => exact fun x hx => nomatch hx
    | cons s rest ihrest =>
      obtain ⟨hs, hb⟩ := Stmt.every_iff.1 h.1
      rw [Stmt.boundAll, List.forall_mem_append]
      exact ⟨hs.bound fun b hmem => ih s (by simp) b hmem (hb b hmem),
        ihrest (fun s hs => ih s (by simp [hs])) h.2⟩

theorem bound_spared (s : Stmt) (h : s.Every (Stmt.Spares held)) : ∀ x ∈ s.bound, ¬ held x := by
  obtain ⟨hs, hb⟩ := Stmt.every_iff.1 h
  exact hs.bound fun b hmem => boundAll_spared b (hb b hmem)

def Declarations.Spare (held : String → Prop) (d : Declarations) : Prop :=
  (∀ x ∈ d.globals, ¬ held x) ∧ ∀ x ∈ d.nonlocals, ¬ held x

theorem Declarations.spare_empty : Declarations.Spare held {} :=
  ⟨by simp, by simp⟩

theorem declaredAll_spared {isGlobal : Bool} {x : String} {body : List Stmt}
    (h : Stmt.EveryAll (Stmt.Spares held) body) (hx : (Stmt.declaredAll body).Has isGlobal x) :
    ¬ held x := by
  induction body using Stmt.parts_induction with
  | h body ih =>
    obtain ⟨s, hs, hx⟩ := has_declaredAll_mem.1 hx
    have hspares := everyAll_iff.1 h s hs
    obtain hx | ⟨b, hb, hx⟩ := Stmt.has_declared_iff.1 hx
    · cases s with
      | global | nonlocal => exact (Stmt.spares_iff.1 hspares).1 x hx.2
      | _ => exact hx.elim
    · exact ih s hs b hb (hspares.parts b hb) hx

theorem hoistedAll_spare {body : List Stmt} (h : Stmt.EveryAll (Stmt.Spares held) body) :
    (Stmt.hoistedAll body).Spare held := by
  have hall {isGlobal : Bool} {x : String} (hx : (Stmt.hoistedAll body).Has isGlobal x) : ¬ held x :=
    declaredAll_spared h ((has_declaredAll body).2 (.inl hx))
  exact ⟨fun x hx => @hall true x hx, fun x hx => @hall false x hx⟩

end LoopEscape
