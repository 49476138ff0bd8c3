import LoopEscape.Proofs.Expand.Mentions
import LoopEscape.Proofs.Expand.Relation

/-!
# Imports in expanded code

Expansion imports the support module in one place only, at the start of a module: no statement that a
callback loop becomes does so (`expand_unaided`).
-/

namespace LoopEscape

open Generate

/-! ### Statements that import the support module -/

/-- Whether the statement imports the support module under the name that generated code has for it. -/
def Stmt.importsSupport : Stmt → Bool
  | .import_ _ names => names.any fun a => a.name == supportModule && a.asName == some supportName
  | .supportImport .. => true
  | _ => false

def Stmt.Unaided (s : Stmt) : Prop := s.importsSupport = false

theorem unaided_frame (s : Stmt) (h : s.isFrame = true) : s.Unaided := by
  cases s <;> first | rfl | cases h

theorem expand_unaided {p : ExpandPlace} {scope : LabelScope} {body code : List Stmt}
    (hto : Stmt.ExpandAllTo p scope body code) :
    Stmt.EveryAll Stmt.Unaided body → Stmt.EveryAll Stmt.Unaided code := by
  refine hto.induction (motive := fun _ body code =>
    Stmt.EveryAll Stmt.Unaided body → Stmt.EveryAll Stmt.Unaided code) ?nil ?append ?loop ?function ?class_
    ?declaration ?inner
  case nil => exact fun _ _ => trivial
  case append => exact fun hs hbody h => everyAll_append.2 ⟨hs ⟨h.1, trivial⟩, hbody h.2⟩
  case loop =>
    intro p loc _ _ _ _ _ _ _ _ _ _ _ _ ih h
    exact ⟨⟨rfl, everyAll_append.2 ⟨everyAll_append.2 ⟨every_scopeStart unaided_frame,
      every_declarations unaided_frame⟩, rfl, rfl, every_layers unaided_frame
      (every_orPass unaided_frame (ih h.1.2))⟩⟩, every_dispatch unaided_frame⟩
  case function =>
    exact fun ih h => ⟨⟨rfl, every_insertAfterDoc (every_scopeStart unaided_frame) (ih h.1.2)⟩, trivial⟩
  case class_ => exact fun ih h => ⟨⟨rfl, ih h.1.2⟩, trivial⟩
  case declaration =>
    intro p s _ _ h
    split
    · trivial
    · exact h
  case inner =>
    intro p s bs hs hbs h
    obtain ⟨h, -⟩ := h
    have hown : Stmt.Unaided (s.refill orPass bs) := by
      unfold Stmt.refill
      split <;> first | rfl | exact h.here
    have hsuites : ∀ b ∈ bs, Stmt.EveryAll Stmt.Unaided b := fun b' hb' => by
      obtain ⟨b, hb, ih⟩ := forall₂_mem_right hbs hb'
      exact ih ((Stmt.every_iff.1 h).2 b hb)
    exact ⟨Stmt.every_refill hs hbs.length_eq hown hsuites
      fun b hb _ => every_orPass unaided_frame (hsuites b hb), trivial⟩

end LoopEscape
