import LoopEscape.Compile.Stage
import LoopEscape.Proofs.Expand.Relation

/-!
# The numbers of loops

Expansion numbers the callback loops of a module one after the other, an outer loop before those inside of
it, and records each of them once (`expandLoops_numbers`).
-/

namespace LoopEscape

structure LoopNode where
  loc : Loc
  header : CallbackHeader
  target : Expr
  iter : Expr

def LoopNode.Entry (n : LoopNode × Nat) (e : Loc × Option LoopSummary) : Prop :=
  ∃ decls, e = (n.1.loc, LoopSummary.of? (Taxonomy.of n.2 n.1.header.toLoopHeader) n.1.loc
    n.1.header.toLoopHeader n.1.target n.1.iter decls)

mutual

def Stmt.loopNodes : Stmt → List LoopNode
  | .callbackLoop loc header target iter body => ⟨loc, header, target, iter⟩ :: Stmt.loopNodesAll body
  | .function _ _ _ _ body _ _ | .class_ _ _ _ _ body _ | .with_ _ _ _ body | .block _ _ _ body =>
    Stmt.loopNodesAll body
  | .for_ _ _ _ _ _ body orElse | .while_ _ _ _ body orElse | .if_ _ _ body orElse =>
    Stmt.loopNodesAll body ++ Stmt.loopNodesAll orElse
  | .match_ _ _ cases => MatchCase.loopNodesAll cases
  | .try_ _ _ body handlers orElse final =>
    Stmt.loopNodesAll body ++ (Handler.loopNodesAll handlers ++
      (Stmt.loopNodesAll orElse ++ Stmt.loopNodesAll final))
  | _ => []

def Stmt.loopNodesAll : List Stmt → List LoopNode
  | [] => []
  | s :: rest => Stmt.loopNodes s ++ Stmt.loopNodesAll rest

def Handler.loopNodesAll : List Handler → List LoopNode
  | [] => []
  | .mk _ _ _ body :: rest => Stmt.loopNodesAll body ++ Handler.loopNodesAll rest

def MatchCase.loopNodesAll : List MatchCase → List LoopNode
  | [] => []
  | .mk _ _ body :: rest => Stmt.loopNodesAll body ++ MatchCase.loopNodesAll rest

end

def Stmt.loopNode? : Stmt → Option LoopNode
  | .callbackLoop loc header target iter _ => some ⟨loc, header, target, iter⟩
  | _ => none

theorem loopNodesAll_eq (body : List Stmt) : Stmt.loopNodesAll body = body.flatMap Stmt.loopNodes := by
  induction body with
  | nil => rfl
  | cons s rest ih => rw [Stmt.loopNodesAll, ih, List.flatMap_cons]

theorem loopNodes_eq (s : Stmt) :
    s.loopNodes = s.loopNode?.toList ++ s.bodies.flatMap Stmt.loopNodesAll := by
  have hhandlers (hs : List Handler) : Handler.loopNodesAll hs = hs.flatMap fun h => Stmt.loopNodesAll h.body := by
    induction hs with
    | nil => rfl
    | cons h hs ih => cases h; rw [Handler.loopNodesAll, ih, List.flatMap_cons, Handler.body]
  have hcases (cs : List MatchCase) : MatchCase.loopNodesAll cs = cs.flatMap fun c => Stmt.loopNodesAll c.body := by
    induction cs with
    | nil => rfl
    | cons c cs ih => cases c; rw [MatchCase.loopNodesAll, ih, List.flatMap_cons, MatchCase.body]
  cases s <;> simp [Stmt.loopNodes, Stmt.loopNode?, Stmt.bodies, hhandlers, hcases, List.flatMap_map]

theorem loopNodes_inner {s : Stmt} (hs : s.isInner = true) :
    s.loopNodes = s.bodies.flatMap Stmt.loopNodesAll := by
  rw [loopNodes_eq]
  cases s <;> first | rfl | cases hs

def Expand.Numbers {α : Type} (work : Expand α) (nodes : List LoopNode) : Prop :=
  ∀ s, (work s).2.nextId = s.nextId + nodes.length ∧ ∃ entries,
    (work s).2.loops = entries.reverse ++ s.loops ∧ List.Forall₂ LoopNode.Entry (nodes.zipIdx s.nextId) entries

namespace Expand.Numbers

variable {α β : Type} {work : Expand α} {nodes nodes' : List LoopNode}

theorem pure (a : α) : Expand.Numbers (pure a) [] := fun _ => ⟨rfl, [], rfl, .nil⟩

theorem bind {next : α → Expand β} (h : work.Numbers nodes) (h' : ∀ a, (next a).Numbers nodes') :
    (work >>= next).Numbers (nodes ++ nodes') := by
  intro s
  obtain ⟨hid, es, hes, hentries⟩ := h s
  obtain ⟨hid', es', hes', hentries'⟩ := h' (work s).1 (work s).2
  refine ⟨hid'.trans ?_, es ++ es', hes'.trans ?_, ?_⟩
  · rw [hid, List.length_append, Nat.add_assoc]
  · rw [hes, List.reverse_append, List.append_assoc]
  · rw [List.zipIdx_append]
    exact List.rel_append hentries (hid ▸ hentries')

theorem map {f : α → β} (h : work.Numbers nodes) : (work >>= fun a => Pure.pure (f a)).Numbers nodes := by
  have hbind := h.bind fun a => pure (f a)
  rwa [List.append_nil] at hbind

theorem mapM {f : α → Expand β} {nodes : α → List LoopNode} {l : List α}
    (h : ∀ a ∈ l, (f a).Numbers (nodes a)) : (l.mapM f).Numbers (l.flatMap nodes) := by
  induction l with
  | nil => exact pure _
  | cons a l ih =>
    obtain ⟨ha, hl⟩ := List.forall_mem_cons.1 h
    rw [List.mapM_cons, List.flatMap_cons]
    exact ha.bind fun _ => (ih hl).map

theorem inScope (h : work.Numbers nodes) : (Expand.inScope work).Numbers nodes := fun s =>
  h { s with wanted := [] }

theorem record {n : LoopNode} {summary : Nat → Option LoopSummary} {next : Nat → Expand β} (c : Bool)
    (names : Nat → List String) (hn : ∀ id, LoopNode.Entry (n, id) (n.loc, summary id))
    (h : ∀ id, (next id).Numbers nodes) :
    (Expand.freshId >>= fun id =>
      if c = true then Expand.want (names id) >>= fun _ => Expand.record n.loc (summary id) >>= fun _ => next id
      else Expand.record n.loc (summary id) >>= fun _ => next id).Numbers (n :: nodes) := by
  intro s
  have hrun (wanted : List String) : ∃ entries,
      (next s.nextId ⟨s.nextId + 1, (n.loc, summary s.nextId) :: s.loops, wanted⟩).2.nextId =
        s.nextId + (n :: nodes).length ∧
      (next s.nextId ⟨s.nextId + 1, (n.loc, summary s.nextId) :: s.loops, wanted⟩).2.loops =
        entries.reverse ++ s.loops ∧ List.Forall₂ LoopNode.Entry ((n :: nodes).zipIdx s.nextId) entries := by
    obtain ⟨hid, es, hes, hentries⟩ :=
      h s.nextId ⟨s.nextId + 1, (n.loc, summary s.nextId) :: s.loops, wanted⟩
    refine ⟨(n.loc, summary s.nextId) :: es, hid.trans ?_, hes.trans ?_, .cons (hn s.nextId) hentries⟩
    · rw [List.length_cons, Nat.add_right_comm, Nat.add_assoc]
    · rw [List.reverse_cons, List.append_assoc]
      rfl
  cases c with
  | true =>
    obtain ⟨es, hid, hes, hentries⟩ := hrun (s.wanted ++ names s.nextId)
    exact ⟨hid, es, hes, hentries⟩
  | false =>
    obtain ⟨es, hid, hes, hentries⟩ := hrun s.wanted
    exact ⟨hid, es, hes, hentries⟩

end Expand.Numbers

theorem expandAll_numbers (body : List Stmt) (ctx : ExpandContext) :
    (Stmt.expandAll ctx body).Numbers (Stmt.loopNodesAll body) := by
  induction body using Stmt.suite_induction generalizing ctx with
  | nil => exact .pure _
  | cons s rest ih ihrest =>
    rw [Stmt.expandAll, Stmt.loopNodesAll]
    refine .bind ?_ fun _ => (ihrest ctx).map
    cases hs : s.isInner with
    | true =>
      rw [Stmt.expand_inner hs, loopNodes_inner hs]
      exact (Expand.Numbers.mapM fun b hb => ih b hb ctx).map
    | false =>
      cases s with
      | callbackLoop loc header target iter body =>
        rw [Stmt.expand, Stmt.loopNodes]
        exact Expand.Numbers.record (n := ⟨loc, header, target, iter⟩) (!ctx.scope.isModule) _
          (fun id => ⟨_, rfl⟩) fun id => (Expand.Numbers.inScope (ih body (.head _) _)).map
      | function =>
        rw [Stmt.expand, Stmt.loopNodes]
        exact (Expand.Numbers.inScope (ih _ (.head _) _)).map
      | class_ =>
        rw [Stmt.expand, Stmt.loopNodes]
        exact (ih _ (.head _) _).map
      | global | nonlocal => exact .pure _
      | _ => cases hs

theorem expandLoops_numbers (debug : Bool) (firstId : Nat) (body : List Stmt) :
    List.Forall₂ LoopNode.Entry ((Stmt.loopNodesAll body).zipIdx firstId) (expandLoops debug firstId body).loops ∧
      (expandLoops debug firstId body).nextId = firstId + (Stmt.loopNodesAll body).length := by
  obtain ⟨hid, entries, hloops, hentries⟩ :=
    expandAll_numbers body { debug, scope := { isModule := true } } { nextId := firstId }
  rw [List.append_nil] at hloops
  refine ⟨?_, hid⟩
  show List.Forall₂ _ _ (List.reverse _)
  rw [hloops, List.reverse_reverse]
  exact hentries

def LoopNode.Summed (n : LoopNode × Nat) (s : LoopSummary) : Prop :=
  s.taxonomy = Taxonomy.of n.2 n.1.header.toLoopHeader ∧ s.loc = n.1.loc ∧ s.header = n.1.header.toLoopHeader

end LoopEscape
