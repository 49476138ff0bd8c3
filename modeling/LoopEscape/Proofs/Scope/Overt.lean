import LoopEscape.Proofs.Scope.Events
import LoopEscape.Proofs.Tree.Mentions
import Mathlib.Tactic.Tauto

/-!
# Where bindings are looked for

The names that a block binds are looked for in its statements and in most of the expressions in them
(`Stmt.bound`).  The values of jumps are not looked at, nor what is read of a function or a class where it
is defined, nor the defaults of a lambda.  A comprehension on the other hand is searched as a whole, with
the lambdas in it, and a name in brackets counts as bound when it only gets a type.

A block in which nothing is bound at such a place is overt.  Main statement: the names that are found in an
overt block are those that it binds (`bind_mem_eventsAll`).
-/

namespace LoopEscape

open ExprTree

/-! ### Expressions -/

def Unbinding (ts : List Touch) : Prop := ∀ x, .bind x ∉ ts

def CompClause.Settled : List CompClause → Prop
  | [] => True
  | .mk _ _ iter _ :: _ => Unbinding (iter.touches false) ∧ iter.tree.assigned = []

mutual

/-- A lambda binds nothing by its defaults, and inside a comprehension nothing otherwise. -/
def ExprTree.Overt (inside : Bool) : ExprTree → Prop
  | .node (some (.lambda s params body)) children =>
    if inside then ∀ x, x ∈ ExprTree.assigned (.node (some (.lambda s params body)) children) ↔
      .bind x ∈ params.defaultTouches true
    else Unbinding (params.defaultTouches false)
  | .node (some (.comp _ _ _ clauses)) children =>
    (inside = false → CompClause.Settled clauses) ∧ ExprTree.OvertAll true children
  | .node (some (.dictComp _ _ _ clauses)) children =>
    (inside = false → CompClause.Settled clauses) ∧ ExprTree.OvertAll true children
  | .node _ children => ExprTree.OvertAll inside children

def ExprTree.OvertAll (inside : Bool) : List ExprTree → Prop
  | [] => True
  | t :: ts => ExprTree.Overt inside t ∧ ExprTree.OvertAll inside ts

end

def ExprTree.Finds (inside : Bool) (t : ExprTree) (x : String) : Prop :=
  x ∈ if inside then t.assigned else t.bound

def ExprTree.AnyFinds (inside : Bool) (ts : List ExprTree) (x : String) : Prop :=
  ∃ t ∈ ts, t.Finds inside x

def IsPlainLabel : Option Expr → Prop
  | some (.name ..) | some (.named ..) | some (.lambda ..) | some (.comp ..) | some (.dictComp ..) => False
  | _ => True

namespace ExprTree

variable {label : Option Expr} {children : List ExprTree} {inside : Bool} {x : String}

theorem mem_assigned_node : x ∈ assigned (.node label children) ↔
    (∃ s s' a v, label = some (.named s (.name s' x a) v)) ∨ ∃ t ∈ children, x ∈ t.assigned := by
  simp only [assigned, Rose.walk, List.mem_filterMap, Rose.mem_levels, Rose.labels, List.mem_cons,
    Rose.mem_labelsAll]
  constructor
  · rintro ⟨l, rfl | ⟨t, ht, hl⟩, heq⟩
    · split at heq
      · cases heq
        exact .inl ⟨_, _, _, _, rfl⟩
      · cases heq
    · exact .inr ⟨t, ht, l, hl, heq⟩
  · rintro (⟨s, s', a, v, rfl⟩ | ⟨t, ht, l, hl, heq⟩)
    · exact ⟨_, .inl rfl, rfl⟩
    · exact ⟨l, .inr ⟨t, ht, hl⟩, heq⟩

theorem mem_boundAll {ts : List ExprTree} : x ∈ boundAll ts ↔ ∃ t ∈ ts, x ∈ t.bound := by
  induction ts with
  | nil => simp [boundAll]
  | cons t ts ih => simp [boundAll, ih]

theorem overtAll_iff {ts : List ExprTree} : OvertAll inside ts ↔ ∀ t ∈ ts, t.Overt inside := by
  induction ts with
  | nil => simp [OvertAll]
  | cons t ts ih => simp [OvertAll, ih]

@[simp] theorem anyFinds_nil : ¬ AnyFinds inside [] x := by simp [AnyFinds]

@[simp] theorem anyFinds_cons {t : ExprTree} {ts : List ExprTree} :
    AnyFinds inside (t :: ts) x ↔ t.Finds inside x ∨ AnyFinds inside ts x := by simp [AnyFinds]

@[simp] theorem anyFinds_append {ts us : List ExprTree} :
    AnyFinds inside (ts ++ us) x ↔ AnyFinds inside ts x ∨ AnyFinds inside us x := by
  simp only [AnyFinds, List.mem_append, or_and_right, exists_or]

theorem finds_node (h : IsPlainLabel label) :
    Finds inside (.node label children) x ↔ AnyFinds inside children x := by
  cases inside with
  | true =>
    refine mem_assigned_node.trans (or_iff_right ?_)
    rintro ⟨s, s', a, v, rfl⟩
    exact h
  | false =>
    show x ∈ bound (.node label children) ↔ _
    unfold bound
    split <;> rename_i heq <;> cases heq
    · exact h.elim
    · exact h.elim
    · exact h.elim
    · exact h.elim
    · exact mem_boundAll

theorem overt_node (h : IsPlainLabel label) :
    Overt inside (.node label children) ↔ ∀ t ∈ children, t.Overt inside := by
  rw [← overtAll_iff]
  unfold Overt
  split <;> rename_i heq <;> cases heq
  · exact h.elim
  · exact h.elim
  · exact h.elim
  · rfl

theorem overt_named {s : Span} {target value : Expr} :
    Overt inside (.node (some (.named s target value)) children) ↔ ∀ t ∈ children, t.Overt inside := by
  rw [← overtAll_iff]
  rfl

theorem finds_named {s : Span} {target value : Expr} :
    Finds inside (.node (some (.named s target value)) children) x ↔
      AnyFinds inside children x ∨ .bind x ∈ if inside then target.escaping else [] := by
  cases inside with
  | true =>
    refine mem_assigned_node.trans (or_comm.trans (or_congr_right ?_))
    simp only [if_true]
    unfold Expr.escaping
    split
    · simp [Touch.bind, eq_comm]
    · next hname => simpa using fun s' a => hname s' x a
  | false =>
    simp only [Bool.false_eq_true, if_false, List.not_mem_nil, or_false]
    exact mem_boundAll

theorem finds_comp {s : Span} {kind : CompKind} {element : Expr} {clauses : List CompClause} :
    Finds inside (.node (some (.comp s kind element clauses)) children) x ↔ AnyFinds true children x := by
  have hassigned : x ∈ assigned (.node (some (.comp s kind element clauses)) children) ↔
      AnyFinds true children x := mem_assigned_node.trans (or_iff_right (by simp))
  cases inside <;> exact hassigned

theorem finds_dictComp {s : Span} {key value : Expr} {clauses : List CompClause} :
    Finds inside (.node (some (.dictComp s key value clauses)) children) x ↔
      AnyFinds true children x := by
  have hassigned : x ∈ assigned (.node (some (.dictComp s key value clauses)) children) ↔
      AnyFinds true children x := mem_assigned_node.trans (or_iff_right (by simp))
  cases inside <;> exact hassigned

/-- Nothing is overlooked in overt trees: they find a name when the touches bind it. -/
def Looked (inside : Bool) (x : String) (ts : List ExprTree) (touches : List Touch) : Prop :=
  (∀ t ∈ ts, t.Overt inside) → (.bind x ∈ touches ↔ AnyFinds inside ts x)

namespace Looked

variable {t : ExprTree} {ts us : List ExprTree} {a b : List Touch}

theorem nil : Looked inside x [] [] := fun _ => by simp

theorem cons (ht : t.Overt inside → (.bind x ∈ a ↔ t.Finds inside x)) (hs : Looked inside x ts b) :
    Looked inside x (t :: ts) (a ++ b) := by
  intro h
  rw [List.forall_mem_cons] at h
  rw [List.mem_append, ht h.1, hs h.2, anyFinds_cons]

theorem single (ht : t.Overt inside → (.bind x ∈ a ↔ t.Finds inside x)) : Looked inside x [t] a :=
  a.append_nil ▸ cons ht nil

theorem append (ha : Looked inside x ts a) (hb : Looked inside x us b) :
    Looked inside x (ts ++ us) (a ++ b) := by
  intro h
  rw [List.forall_mem_append] at h
  rw [List.mem_append, ha h.1, hb h.2, anyFinds_append]

theorem node (hl : IsPlainLabel label) (hc : Looked inside x children a)
    (h : Overt inside (.node label children)) :
    .bind x ∈ a ↔ Finds inside (.node label children) x :=
  (hc ((overt_node hl).1 h)).trans (finds_node hl).symm

end Looked

end ExprTree

section

variable {x : String}

mutual

theorem bind_mem_touches : ∀ (e : Expr) {inside : Bool}, e.tree.Overt inside →
    (.bind x ∈ e.touches inside ↔ e.tree.Finds inside x)
  | .boolOp _ _ es, _ | .set _ es, _ | .joined _ es, _ | .list _ es _, _ | .tuple _ es _, _ =>
    Looked.node trivial (bind_mem_touchesAll es)
  | .unary _ _ e, _ | .await _ e, _ | .yieldFrom _ e, _ | .member _ e _ _, _ | .starred _ e _, _ =>
    Looked.node trivial (.single (bind_mem_touches e))
  | .binary _ e _ e', _ | .subscript _ e e' _, _ =>
    Looked.node trivial (.cons (bind_mem_touches e) (.single (bind_mem_touches e')))
  | .conditional _ test body orElse, _ => by
    rw [Expr.touches, List.append_assoc]
    exact Looked.node trivial (.cons (bind_mem_touches test)
      (.cons (bind_mem_touches body) (.single (bind_mem_touches orElse))))
  | .dict _ items, _ => Looked.node trivial (bind_mem_dictTouches items)
  | .yield _ e, _ => Looked.node trivial (bind_mem_optionTouches e)
  | .compare _ e rest, _ => Looked.node trivial (.cons (bind_mem_touches e) (bind_mem_comparedTouches rest))
  | .call _ func args keywords, _ => by
    rw [Expr.touches, List.append_assoc]
    exact Looked.node trivial (.cons (bind_mem_touches func)
      (.append (bind_mem_touchesAll args) (bind_mem_keywordTouches keywords)))
  | .formatted _ e _ format, _ =>
    Looked.node trivial (.cons (bind_mem_touches e) (bind_mem_optionTouches format))
  | .slice _ lower upper step, _ =>
    Looked.node trivial (.append (.append (bind_mem_optionTouches lower) (bind_mem_optionTouches upper))
      (bind_mem_optionTouches step))
  | .const .., _ => Looked.node trivial .nil
  | .name _ id access, inside => fun _ => by
    rw [Expr.tree, Expr.touches]
    cases inside with
    | true => simp [Finds, mem_assigned_node]
    | false => cases access <;> simp [Finds, ExprTree.bound, Touch.bind, Touch.use]
  | .named s target value, inside => fun h => by
    rw [Expr.tree, overt_named, List.forall_mem_cons, List.forall_mem_singleton] at h
    rw [Expr.tree, finds_named, Expr.touches, List.mem_append, List.mem_append,
      bind_mem_touches target h.1, bind_mem_touches value h.2]
    simp only [anyFinds_cons, anyFinds_nil, or_false]
    tauto
  | .lambda s params body, inside => fun h => by
    rw [Expr.tree, Overt] at h
    rw [Expr.tree, Expr.touches]
    cases inside with
    | true => exact (h x).symm
    | false => exact iff_of_false (h x) (by simp [Finds, ExprTree.bound])
  | .comp _ _ element clauses, inside => fun h => by
    rw [Expr.tree, Overt, overtAll_iff] at h
    rw [Expr.tree, finds_comp, Expr.touches, List.mem_append, or_comm, ← List.mem_append]
    exact Looked.cons (bind_mem_touches element) (bind_mem_clauseTouches clauses inside h.1) h.2
  | .dictComp _ key value clauses, inside => fun h => by
    rw [Expr.tree, Overt, overtAll_iff] at h
    rw [Expr.tree, finds_dictComp, Expr.touches, List.append_assoc, List.mem_append, List.mem_append,
      or_comm, or_comm (a := .bind x ∈ value.touches true), or_assoc, ← List.mem_append,
      ← List.mem_append]
    exact Looked.cons (bind_mem_touches key) (.cons (bind_mem_touches value)
      (bind_mem_clauseTouches clauses inside h.1)) h.2

theorem bind_mem_touchesAll : ∀ (es : List Expr) {inside : Bool},
    Looked inside x (Expr.trees es) (Expr.touchesAll inside es)
  | [], _ => .nil
  | e :: es, _ => .cons (bind_mem_touches e) (bind_mem_touchesAll es)

theorem bind_mem_optionTouches : ∀ (e : Option Expr) {inside : Bool},
    Looked inside x (Expr.optionTrees e) (Expr.optionTouches inside e)
  | none, _ => .nil
  | some e, _ => .single (bind_mem_touches e)

theorem bind_mem_comparedTouches : ∀ (rest : List (CompareOp × Expr)) {inside : Bool},
    Looked inside x (Expr.comparedTrees rest) (Expr.comparedTouches inside rest)
  | [], _ => .nil
  | (_, e) :: rest, _ => .cons (bind_mem_touches e) (bind_mem_comparedTouches rest)

theorem bind_mem_dictTouches : ∀ (items : List DictItem) {inside : Bool},
    Looked inside x (DictItem.keyTrees items ++ DictItem.valueTrees items)
      (DictItem.touches inside items)
  | [], _ => .nil
  | .pair key value :: items, _ => fun h => by
    simp only [DictItem.keyTrees, DictItem.valueTrees, List.forall_mem_append,
      List.forall_mem_cons] at h
    have hitems := bind_mem_dictTouches items (List.forall_mem_append.2 ⟨h.1.2, h.2.2⟩)
    rw [DictItem.touches, List.mem_append, List.mem_append, bind_mem_touches key h.1.1,
      bind_mem_touches value h.2.1, hitems]
    simp only [DictItem.keyTrees, DictItem.valueTrees, anyFinds_append, anyFinds_cons]
    tauto
  | .spread value :: items, _ => fun h => by
    simp only [DictItem.keyTrees, DictItem.valueTrees, List.forall_mem_append,
      List.forall_mem_cons] at h
    have hitems := bind_mem_dictTouches items (List.forall_mem_append.2 ⟨h.1, h.2.2⟩)
    rw [DictItem.touches, List.mem_append, bind_mem_touches value h.2.1, hitems]
    simp only [DictItem.keyTrees, DictItem.valueTrees, anyFinds_append, anyFinds_cons]
    tauto

theorem bind_mem_keywordTouches : ∀ (keywords : List Keyword) {inside : Bool},
    Looked inside x (Keyword.trees keywords) (Keyword.touches inside keywords)
  | [], _ => .nil
  | .mk _ _ value :: keywords, _ =>
    .cons (Looked.node trivial (.single (bind_mem_touches value))) (bind_mem_keywordTouches keywords)

/-- The first iterable stands outside the comprehension, unlike what else is in it. -/
theorem bind_mem_clauseTouches : ∀ (clauses : List CompClause) (inside : Bool),
    (inside = false → CompClause.Settled clauses) →
    Looked true x (CompClause.trees clauses) (CompClause.touches inside clauses)
  | [], _, _ => .nil
  | .mk _ target iter conditions :: clauses, inside, hs => fun h => by
    rw [CompClause.trees, List.forall_mem_cons, overt_node (by trivial), List.forall_mem_cons,
      List.forall_mem_cons] at h
    have hiter : .bind x ∈ iter.touches inside ↔ iter.tree.Finds true x := by
      cases inside with
      | true => exact bind_mem_touches iter h.1.2.1
      | false => exact iff_of_false ((hs rfl).1 x) (by simp [Finds, (hs rfl).2])
    rw [CompClause.touches, CompClause.trees, List.mem_append, List.mem_append, List.mem_append, hiter,
      bind_mem_touches target h.1.1, bind_mem_touchesAll conditions h.1.2.2,
      bind_mem_clauseTouches clauses true nofun h.2, anyFinds_cons, finds_node (by trivial),
      anyFinds_cons, anyFinds_cons]
    tauto

end

end

/-! ### Statements -/

/-- The target of an annotated assignment is not a mere name in brackets without a value. -/
def bindsTarget (target : Expr) (simple hasValue : Bool) : Bool :=
  match target with
  | .name .. => simple || hasValue
  | _ => true

mutual

def Stmt.Overt (texts : Bool) : Stmt → Prop
  | .function _ _ _ params _ decorators returns =>
    Unbinding (functionTouches texts params decorators returns)
  | .class_ _ _ bases keywords _ decorators => Unbinding (classTouches bases keywords decorators)
  | .break_ _ _ value => Unbinding (Expr.optionTouches false value)
  | .annAssign _ target typeHint value simple =>
    bindsTarget target simple value.isSome = true ∧ target.tree.Overt false ∧
      (if texts then typeHint.bound = [] else typeHint.tree.Overt false) ∧
      ∀ t ∈ Expr.optionTrees value, t.Overt false
  | .for_ _ _ mark target iter body orElse =>
    mark.valueTarget = none ∧ target.tree.Overt false ∧ iter.tree.Overt false ∧
      Stmt.OvertAll texts body ∧ Stmt.OvertAll texts orElse
  | .while_ _ mark test body orElse =>
    mark.valueTarget = none ∧ test.tree.Overt false ∧ Stmt.OvertAll texts body ∧
      Stmt.OvertAll texts orElse
  | .if_ _ test body orElse =>
    test.tree.Overt false ∧ Stmt.OvertAll texts body ∧ Stmt.OvertAll texts orElse
  | .with_ _ _ items body =>
    (∀ t ∈ items.flatMap WithItem.trees, t.Overt false) ∧ Stmt.OvertAll texts body
  | .match_ _ subject cases => subject.tree.Overt false ∧ MatchCase.OvertAll texts cases
  | .try_ _ _ body handlers orElse final =>
    Stmt.OvertAll texts body ∧ Handler.OvertAll texts handlers ∧ Stmt.OvertAll texts orElse ∧
      Stmt.OvertAll texts final
  | .callbackLoop _ _ target iter body =>
    target.tree.Overt false ∧ iter.tree.Overt false ∧ Stmt.OvertAll texts body
  | .block _ _ _ body => Stmt.OvertAll texts body
  | s => ∀ t ∈ s.trees, t.Overt false

def Stmt.OvertAll (texts : Bool) : List Stmt → Prop
  | [] => True
  | s :: rest => Stmt.Overt texts s ∧ Stmt.OvertAll texts rest

def Handler.OvertAll (texts : Bool) : List Handler → Prop
  | [] => True
  | .mk _ type _ body :: rest =>
    (∀ t ∈ Expr.optionTrees type, t.Overt false) ∧ Stmt.OvertAll texts body ∧
      Handler.OvertAll texts rest

def MatchCase.OvertAll (texts : Bool) : List MatchCase → Prop
  | [] => True
  | .mk pattern guard body :: rest =>
    (∀ t ∈ pattern.trees, t.Overt false) ∧ (∀ t ∈ Expr.optionTrees guard, t.Overt false) ∧
      Stmt.OvertAll texts body ∧ MatchCase.OvertAll texts rest

end

section

variable {x : String}

theorem mem_both {α β : Type} {p : α} {q : β} {a b : List α} {c d : List β} (ha : p ∈ a ↔ q ∈ c)
    (hb : p ∈ b ↔ q ∈ d) : p ∈ a ++ b ↔ q ∈ c ++ d := by
  rw [List.mem_append, List.mem_append, ha, hb]

theorem boundBy_append {a b : List NameEvent} : BoundBy (a ++ b) x ↔ BoundBy a x ∨ BoundBy b x :=
  List.mem_append

theorem boundBy_touched {ts : List Touch} : BoundBy (touched ts) x ↔ .bind x ∈ ts := by
  simp [BoundBy, touched]

theorem boundBy_iff {ts : List Touch} {names : List String} (h : .bind x ∈ ts ↔ x ∈ names) :
    BoundBy (touched ts) x ↔ x ∈ names := boundBy_touched.trans h

theorem bind_inj {y : String} : Touch.bind x = Touch.bind y ↔ x = y := by
  simp [Touch.bind]

theorem bind_mem_map {names : List String} : .bind x ∈ names.map Touch.bind ↔ x ∈ names := by
  simp [Touch.bind]

theorem bind_mem_expr {e : Expr} (h : e.tree.Overt false) : .bind x ∈ e.touches false ↔ x ∈ e.bound :=
  bind_mem_touches e h

theorem bind_mem_exprs {es : List Expr} (h : ∀ t ∈ Expr.trees es, t.Overt false) :
    .bind x ∈ Expr.touchesAll false es ↔ x ∈ Expr.boundAll es := by
  induction es with
  | nil => simp [Expr.touchesAll, Expr.boundAll]
  | cons e es ih =>
    rw [Expr.trees, List.forall_mem_cons] at h
    exact mem_both (bind_mem_expr h.1) (ih h.2)

theorem bind_mem_option {e : Option Expr} (h : ∀ t ∈ Expr.optionTrees e, t.Overt false) :
    .bind x ∈ Expr.optionTouches false e ↔ x ∈ Expr.boundOption e := by
  cases e with
  | none => simp [Expr.optionTouches, Expr.boundOption, Expr.boundAll]
  | some e =>
    rw [Expr.optionTrees, List.forall_mem_singleton] at h
    simp [Expr.optionTouches, Expr.boundOption, Expr.boundAll, bind_mem_expr h]

mutual

theorem bind_mem_pattern : ∀ p : CasePattern, (∀ t ∈ p.trees, t.Overt false) →
    (.bind x ∈ p.touches ↔ x ∈ p.bound)
  | .value _ e, h => by
    rw [CasePattern.trees, List.forall_mem_singleton] at h
    exact bind_mem_expr h
  | .singleton .., _ => by simp [CasePattern.touches, CasePattern.bound]
  | .sequence _ ps, h | .or_ _ ps, h => bind_mem_patterns ps h
  | .star .., _ | .as_ _ none _, _ => bind_mem_map
  | .as_ _ (some p) _, h => by
    rw [CasePattern.touches, CasePattern.bound, List.mem_append, List.mem_append, bind_mem_map,
      bind_mem_pattern p h, or_comm]
  | .mapping _ keys ps rest, h => by
    rw [CasePattern.trees, List.forall_mem_append] at h
    simp only [CasePattern.touches, CasePattern.bound, List.mem_append, bind_mem_map,
      bind_mem_exprs h.1, bind_mem_patterns ps h.2]
    tauto
  | .ofClass _ cls ps _ named, h => by
    rw [CasePattern.trees, List.forall_mem_cons, List.forall_mem_append] at h
    exact mem_both (mem_both (bind_mem_expr h.1) (bind_mem_patterns ps h.2.1))
      (bind_mem_patterns named h.2.2)

theorem bind_mem_patterns : ∀ ps : List CasePattern, (∀ t ∈ CasePattern.treesAll ps, t.Overt false) →
    (.bind x ∈ CasePattern.touchesAll ps ↔ x ∈ CasePattern.boundAll ps)
  | [], _ => by simp [CasePattern.touchesAll, CasePattern.boundAll]
  | p :: ps, h => by
    rw [CasePattern.treesAll, List.forall_mem_append] at h
    exact mem_both (bind_mem_pattern p h.1) (bind_mem_patterns ps h.2)

end

theorem bind_mem_items {items : List WithItem} (h : ∀ t ∈ items.flatMap WithItem.trees, t.Overt false) :
    .bind x ∈ items.flatMap WithItem.touches ↔ x ∈ items.flatMap WithItem.bound := by
  induction items with
  | nil => simp
  | cons item items ih =>
    simp only [List.flatMap_cons, List.forall_mem_append, WithItem.trees, List.forall_mem_cons] at h
    exact mem_both (mem_both (bind_mem_expr h.1.1) (bind_mem_option h.1.2)) (ih h.2)

theorem boundBy_aliases {names : List Alias} :
    BoundBy (names.flatMap Alias.events) x ↔ x ∈ names.filterMap Alias.bound := by
  induction names with
  | nil => simp [BoundBy]
  | cons a names ih =>
    rw [List.flatMap_cons, boundBy_append, ih]
    unfold Alias.events
    split
    · next hstar => simp [BoundBy, Alias.bound, hstar]
    · rw [boundBy_touched, bind_mem_map]
      cases hbound : a.bound <;> simp [hbound, eq_comm]

theorem boundBy_annotated {target : Expr} {simple hasValue : Bool} (ht : target.tree.Overt false)
    (h : bindsTarget target simple hasValue = true) :
    BoundBy (annotatedEvents target simple hasValue) x ↔ x ∈ target.bound := by
  rw [← bind_mem_expr ht, ← boundBy_touched]
  unfold annotatedEvents
  split
  · cases simple with
    | true => simp [BoundBy]
    | false => rw [if_neg Bool.false_ne_true, if_pos (show hasValue = true from h)]
  · rfl

mutual

theorem bind_mem_events {texts : Bool} : ∀ s : Stmt, s.Overt texts →
    (BoundBy (s.events texts) x ↔ x ∈ s.bound)
  | .function .., h | .class_ .., h => by
    rw [Stmt.Overt] at h
    rw [Stmt.events, Stmt.bound, boundBy_touched, List.mem_cons, List.mem_singleton,
      or_iff_left (h x), bind_inj]
  | .break_ .., h => by
    rw [Stmt.Overt] at h
    rw [Stmt.events, Stmt.bound, boundBy_touched]
    exact iff_of_false (h x) List.not_mem_nil
  | .annAssign _ target typeHint value simple, h => by
    obtain ⟨hsimple, htarget, hhint, hvalue⟩ := h
    rw [Stmt.events, Stmt.bound, boundBy_append, boundBy_touched, List.mem_append, List.mem_append,
      List.mem_append, boundBy_annotated htarget hsimple, bind_mem_option hvalue, or_assoc]
    cases texts with
    | true => simp [show typeHint.bound = [] from hhint]
    | false => rw [if_neg Bool.false_ne_true, bind_mem_expr hhint]
  | .for_ _ _ mark target iter body orElse, h => by
    obtain ⟨hmark, htarget, hiter, hbody, helse⟩ := h
    rw [Stmt.events, hmark]
    exact mem_both (mem_both (boundBy_iff (mem_both (bind_mem_expr htarget) (bind_mem_expr hiter)))
      (bind_mem_eventsAll body hbody)) (bind_mem_eventsAll orElse helse)
  | .while_ _ mark test body orElse, h => by
    obtain ⟨hmark, htest, hbody, helse⟩ := h
    rw [Stmt.events, hmark]
    exact mem_both (mem_both (boundBy_iff (bind_mem_expr htest)) (bind_mem_eventsAll body hbody))
      (bind_mem_eventsAll orElse helse)
  | .if_ _ test body orElse, h =>
    mem_both (mem_both (boundBy_iff (bind_mem_expr h.1)) (bind_mem_eventsAll body h.2.1))
      (bind_mem_eventsAll orElse h.2.2)
  | .with_ _ _ items body, h => mem_both (boundBy_iff (bind_mem_items h.1)) (bind_mem_eventsAll body h.2)
  | .match_ _ subject cases, h => mem_both (boundBy_iff (bind_mem_expr h.1)) (bind_mem_caseEvents cases h.2)
  | .try_ _ _ body handlers orElse final, h => by
    obtain ⟨hbody, hhandlers, helse, hfinal⟩ := h
    simp only [Stmt.events, Stmt.bound, boundBy_append, List.mem_append,
      bind_mem_eventsAll body hbody, bind_mem_handlerEvents handlers hhandlers,
      bind_mem_eventsAll orElse helse, bind_mem_eventsAll final hfinal]
    tauto
  | .callbackLoop _ header target iter body, h => by
    obtain ⟨htarget, hiter, hbody⟩ := h
    simp only [Stmt.events, Stmt.bound, boundBy_append, boundBy_touched, List.mem_append,
      bind_mem_map, bind_mem_expr htarget, bind_mem_expr hiter, bind_mem_eventsAll body hbody]
    tauto
  | .block _ _ target body, h => mem_both (boundBy_iff bind_mem_map) (bind_mem_eventsAll body h)
  | .return_ .., h => boundBy_iff (bind_mem_option h)
  | .delete .., h => boundBy_iff (bind_mem_exprs h)
  | .assign _ targets value, h => by
    obtain ⟨htargets, hvalue⟩ := List.forall_mem_append.1 h
    exact boundBy_iff (mem_both (bind_mem_exprs htargets)
      (bind_mem_expr (List.forall_mem_singleton.1 hvalue)))
  | .augAssign _ target _ value, h => by
    obtain ⟨htarget, hvalue⟩ := List.forall_mem_cons.1 h
    exact boundBy_iff (mem_both (bind_mem_expr htarget)
      (bind_mem_expr (List.forall_mem_singleton.1 hvalue)))
  | .raise _ exc cause, h => by
    obtain ⟨hexc, hcause⟩ := List.forall_mem_append.1 h
    exact boundBy_iff (mem_both (bind_mem_option hexc) (bind_mem_option hcause))
  | .assert_ _ test message, h => by
    obtain ⟨htest, hmessage⟩ := List.forall_mem_cons.1 h
    exact boundBy_iff (mem_both (bind_mem_expr htest) (bind_mem_option hmessage))
  | .expr _ value, h => boundBy_iff (bind_mem_expr (List.forall_mem_singleton.1 h))
  | .import_ .., _ | .importFrom .., _ | .supportImport .., _ => boundBy_aliases
  | .global .., _ | .nonlocal .., _ => by simp [Stmt.events, Stmt.bound, BoundBy]
  | .pass .., _ | .continue_ .., _ => iff_of_false List.not_mem_nil List.not_mem_nil

theorem bind_mem_eventsAll {texts : Bool} : ∀ body : List Stmt, Stmt.OvertAll texts body →
    (BoundBy (Stmt.eventsAll texts body) x ↔ x ∈ Stmt.boundAll body)
  | [], _ => iff_of_false List.not_mem_nil List.not_mem_nil
  | s :: rest, h => mem_both (bind_mem_events s h.1) (bind_mem_eventsAll rest h.2)

theorem bind_mem_handlerEvents {texts : Bool} : ∀ handlers : List Handler,
    Handler.OvertAll texts handlers →
    (BoundBy (Handler.eventsAll texts handlers) x ↔ x ∈ Handler.boundAll handlers)
  | [], _ => iff_of_false List.not_mem_nil List.not_mem_nil
  | .mk _ type name body :: rest, h => by
    obtain ⟨htype, hbody, hrest⟩ := h
    simp only [Handler.eventsAll, Handler.boundAll, boundBy_append, boundBy_touched, List.mem_append,
      bind_mem_map, bind_mem_option htype, bind_mem_eventsAll body hbody,
      bind_mem_handlerEvents rest hrest]
    tauto

theorem bind_mem_caseEvents {texts : Bool} : ∀ cases : List MatchCase,
    MatchCase.OvertAll texts cases →
    (BoundBy (MatchCase.eventsAll texts cases) x ↔ x ∈ MatchCase.boundAll cases)
  | [], _ => iff_of_false List.not_mem_nil List.not_mem_nil
  | .mk pattern guard body :: rest, h => by
    obtain ⟨hpattern, hguard, hbody, hrest⟩ := h
    have hhead := mem_both (q := x) (bind_mem_pattern pattern hpattern) (bind_mem_option hguard)
    exact mem_both (mem_both (boundBy_iff hhead) (bind_mem_eventsAll body hbody))
      (bind_mem_caseEvents rest hrest)

end

end

/-! ### Checking -/

theorem unbinding_iff {ts : List Touch} : Unbinding ts ↔ ∀ t ∈ ts, t.binds = false := by
  constructor
  · rintro h ⟨_ | _, x⟩ ht
    · rfl
    · exact (h x ht).elim
  · exact fun h x hx => nomatch h _ hx

theorem names_bound_iff {names : List String} {ts : List Touch} :
    (∀ x, x ∈ names ↔ .bind x ∈ ts) ↔
      (∀ x ∈ names, .bind x ∈ ts) ∧ ∀ t ∈ ts, t.binds = true → t.name ∈ names := by
  constructor
  · refine fun h => ⟨fun x => (h x).1, ?_⟩
    rintro ⟨_, x⟩ ht rfl
    exact (h x).2 ht
  · exact fun h x => ⟨h.1 x, fun hx => h.2 _ hx rfl⟩

instance (ts : List Touch) : Decidable (Unbinding ts) := decidable_of_iff _ unbinding_iff.symm

instance (names : List String) (ts : List Touch) : Decidable (∀ x, x ∈ names ↔ .bind x ∈ ts) :=
  decidable_of_iff _ names_bound_iff.symm

instance : DecidablePred CompClause.Settled
  | [] => .isTrue trivial
  | .mk .. :: _ => instDecidableAnd

mutual

instance decideOvert (inside : Bool) : ∀ t : ExprTree, Decidable (t.Overt inside)
  | .node (some (.lambda ..)) _ => instDecidableIte
  | .node (some (.comp ..)) children | .node (some (.dictComp ..)) children =>
    have := decideOvertAll true children
    instDecidableAnd
  | .node none children | .node (some (.boolOp ..)) children | .node (some (.named ..)) children
  | .node (some (.binary ..)) children | .node (some (.unary ..)) children
  | .node (some (.conditional ..)) children | .node (some (.dict ..)) children
  | .node (some (.set ..)) children | .node (some (.await ..)) children
  | .node (some (.yield ..)) children | .node (some (.yieldFrom ..)) children
  | .node (some (.compare ..)) children | .node (some (.call ..)) children
  | .node (some (.formatted ..)) children | .node (some (.joined ..)) children
  | .node (some (.const ..)) children | .node (some (.member ..)) children
  | .node (some (.subscript ..)) children | .node (some (.starred ..)) children
  | .node (some (.name ..)) children | .node (some (.list ..)) children
  | .node (some (.tuple ..)) children | .node (some (.slice ..)) children =>
    decideOvertAll inside children

instance decideOvertAll (inside : Bool) : ∀ ts : List ExprTree, Decidable (ExprTree.OvertAll inside ts)
  | [] => .isTrue trivial
  | t :: ts =>
    have := decideOvert inside t
    have := decideOvertAll inside ts
    instDecidableAnd

end

mutual

instance decideStmtOvert (texts : Bool) : ∀ s : Stmt, Decidable (s.Overt texts)
  | .function .. | .class_ .. | .break_ .. => decidable_of_iff _ unbinding_iff.symm
  | .annAssign .. => instDecidableAnd
  | .for_ _ _ _ _ _ body orElse | .while_ _ _ _ body orElse | .if_ _ _ body orElse =>
    have := decideStmtOvertAll texts body
    have := decideStmtOvertAll texts orElse
    instDecidableAnd
  | .with_ _ _ _ body | .callbackLoop _ _ _ _ body =>
    have := decideStmtOvertAll texts body
    instDecidableAnd
  | .match_ _ _ cases =>
    have := decideCasesOvert texts cases
    instDecidableAnd
  | .try_ _ _ body handlers orElse final =>
    have := decideStmtOvertAll texts body
    have := decideHandlersOvert texts handlers
    have := decideStmtOvertAll texts orElse
    have := decideStmtOvertAll texts final
    instDecidableAnd
  | .block _ _ _ body => decideStmtOvertAll texts body
  | .return_ .. | .delete .. | .assign .. | .augAssign .. | .raise .. | .assert_ .. | .expr ..
  | .import_ .. | .importFrom .. | .supportImport .. | .global .. | .nonlocal .. | .pass ..
  | .continue_ .. => List.decidableBAll _ _

instance decideStmtOvertAll (texts : Bool) : ∀ body : List Stmt, Decidable (Stmt.OvertAll texts body)
  | [] => .isTrue trivial
  | s :: rest =>
    have := decideStmtOvert texts s
    have := decideStmtOvertAll texts rest
    instDecidableAnd

instance decideHandlersOvert (texts : Bool) :
    ∀ handlers : List Handler, Decidable (Handler.OvertAll texts handlers)
  | [] => .isTrue trivial
  | .mk _ _ _ body :: rest =>
    have := decideStmtOvertAll texts body
    have := decideHandlersOvert texts rest
    instDecidableAnd

instance decideCasesOvert (texts : Bool) :
    ∀ cases : List MatchCase, Decidable (MatchCase.OvertAll texts cases)
  | [] => .isTrue trivial
  | .mk _ _ body :: rest =>
    have := decideStmtOvertAll texts body
    have := decideCasesOvert texts rest
    instDecidableAnd

end

end LoopEscape
