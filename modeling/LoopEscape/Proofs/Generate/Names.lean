import LoopEscape.Generate.Lower
import LoopEscape.Escape.Taxonomy
import Mathlib.Data.List.Basic
import Mathlib.Data.List.TakeWhile
import Mathlib.Data.Nat.Digits.Defs

/-!
# Generated names

Generated names are reserved, and a name tells for what end it was generated, for which loop and for which
label (`MadeName.text_injective`).
-/

namespace LoopEscape

theorem toString_injective {m n : Nat} (h : toString m = toString n) : m = n := by
  have hd : Nat.toDigits 10 m = Nat.toDigits 10 n := by
    have : m.repr = n.repr := h
    rw [Nat.repr_eq_ofList_toDigits, Nat.repr_eq_ofList_toDigits] at this
    exact String.ofList_injective this
  rw [← Nat.ofDigitChars_toDigits (b := 10) (n := m) (by omega) (by omega), hd,
    Nat.ofDigitChars_toDigits (by omega) (by omega)]

def holderName (k : Nat) : String := generatedName ["label", toString k]

theorem isReserved_generatedName (parts : List String) : isReserved (generatedName parts) = true := by
  have h : (generatedName parts).toList =
      reservedStart.toList ++ ("_".intercalate parts).toList := by
    simp [generatedName]
  rw [isReserved, h, List.isPrefixOf_iff_prefix]
  exact List.prefix_append _ _

@[simp] theorem isReserved_supportName : isReserved Generate.supportName = true := isReserved_generatedName _

theorem isReserved_holderName (k : Nat) : isReserved (holderName k) = true :=
  isReserved_generatedName _

namespace LoopNames

variable (id : Nat)

@[simp] theorem isReserved_task : isReserved (LoopNames.of id).task = true :=
  isReserved_generatedName _

@[simp] theorem isReserved_item : isReserved (LoopNames.of id).item = true :=
  isReserved_generatedName _

@[simp] theorem isReserved_slot : isReserved (LoopNames.of id).slot = true :=
  isReserved_generatedName _

@[simp] theorem isReserved_value : isReserved (LoopNames.of id).value = true :=
  isReserved_generatedName _

@[simp] theorem isReserved_brk : isReserved (LoopNames.of id).brk = true :=
  isReserved_generatedName _

@[simp] theorem isReserved_once : isReserved (LoopNames.of id).once = true :=
  isReserved_generatedName _

@[simp] theorem isReserved_result : isReserved (LoopNames.of id).result = true :=
  isReserved_generatedName _

end LoopNames

@[simp] theorem isReserved_breakVariable (id : Nat) (label : String) :
    isReserved (breakVariable id label) = true :=
  isReserved_generatedName _

/-! ### Names for different ends -/

def firstPart (name : String) : List Char :=
  (name.toList.drop reservedStart.length).takeWhile (· != '_')

theorem firstPart_generatedName {part : String} (h : '_' ∉ part.toList) (rest : List String) :
    firstPart (generatedName (part :: rest)) = part.toList := by
  have hall : ∀ c ∈ part.toList, (c != '_') = true := by
    intro c hc
    rw [bne_iff_ne]
    rintro rfl
    exact h hc
  have hdrop : (generatedName (part :: rest)).toList.drop reservedStart.length =
      ['_'].intercalate (part.toList :: rest.map String.toList) := by
    rw [generatedName, String.toList_append, String.toList_intercalate, ← String.length_toList,
      List.drop_left, List.map_cons]
    rfl
  rw [firstPart, hdrop]
  cases rest with
  | nil =>
    rw [List.map_nil, List.intercalate_singleton]
    exact List.takeWhile_eq_self_iff.2 hall
  | cons b rest =>
    rw [List.map_cons, List.intercalate_cons_cons, List.append_assoc,
      List.takeWhile_append_of_pos hall, List.singleton_append, List.takeWhile_cons_of_neg (by simp),
      List.append_nil]

theorem isDigit_of_mem_toString {n : Nat} {c : Char} (h : c ∈ (toString n).toList) :
    c.isDigit = true := by
  have hr : (toString n).toList = Nat.toDigits 10 n := by
    rw [Nat.toString_eq_repr, Nat.repr_eq_ofList_toDigits, String.toList_ofList]
  rw [hr] at h
  exact Nat.isDigit_of_mem_toDigits (by omega) (by omega) h

theorem underscore_notMem_toString (n : Nat) : '_' ∉ (toString n).toList := fun h =>
  absurd (isDigit_of_mem_toString h) (by decide)

inductive MadeName
  | task (loop : Nat)
  | item (loop : Nat)
  | slot (loop : Nat)
  | value (loop : Nat)
  | brk (loop : Nat)
  | once (loop : Nat)
  | result (loop : Nat)
  | breakVar (loop : Nat) (label : String)
  | holder (number : Nat)
  | caught
  | support
deriving DecidableEq

namespace MadeName

def text : MadeName → String
  | task k => (LoopNames.of k).task
  | item k => (LoopNames.of k).item
  | slot k => (LoopNames.of k).slot
  | value k => (LoopNames.of k).value
  | brk k => (LoopNames.of k).brk
  | once k => (LoopNames.of k).once
  | result k => (LoopNames.of k).result
  | breakVar k l => breakVariable k l
  | holder k => holderName k
  | caught => Lower.jumpVariable
  | support => Generate.supportName

def lead : MadeName → String ⊕ Nat
  | task _ => .inl "task"
  | item _ => .inl "item"
  | slot _ => .inl "slot"
  | value _ => .inl "value"
  | once _ => .inl "once"
  | result _ => .inl "res"
  | holder _ => .inl "label"
  | caught => .inl "jump"
  | support => .inl "rt"
  | brk k | breakVar k _ => .inr k

def tail : MadeName → List String
  | task k | item k | slot k | value k | once k | result k | holder k => [toString k]
  | brk _ => ["brk"]
  | breakVar _ l => ["brk", l]
  | caught | support => []

theorem text_eq (m : MadeName) : m.text = generatedName (m.lead.elim id toString :: m.tail) := by
  cases m <;> rfl

theorem underscore_notMem_lead (m : MadeName) : '_' ∉ (m.lead.elim id toString).toList := by
  cases m with
  | brk k => exact underscore_notMem_toString k
  | breakVar k l => exact underscore_notMem_toString k
  | _ =>
    dsimp only [lead, Sum.elim_inl, id]
    decide

theorem any_of_lead {m : MadeName} {w : String} (h : m.lead = .inl w) :
    w.toList.any (!·.isDigit) = true := by
  cases m <;> cases h <;> decide

theorem lead_eq {m n : MadeName} (h : m.text = n.text) : m.lead = n.lead := by
  have hfirst : (m.lead.elim id toString : String) = n.lead.elim id toString := by
    have hparts := congrArg firstPart (m.text_eq.symm.trans (h.trans n.text_eq))
    rw [firstPart_generatedName m.underscore_notMem_lead, firstPart_generatedName n.underscore_notMem_lead] at hparts
    exact String.toList_injective hparts
  have hno {w : String} {k : Nat} (hw : w.toList.any (!·.isDigit) = true) : w ≠ toString k := by
    rintro rfl
    obtain ⟨c, hc, hd⟩ := List.any_eq_true.1 hw
    rw [isDigit_of_mem_toString hc] at hd
    cases hd
  cases hm : m.lead with
  | inl w =>
    cases hn : n.lead with
    | inl v => rw [hm, hn] at hfirst; exact congrArg _ hfirst
    | inr k => rw [hm, hn] at hfirst; exact absurd hfirst (hno (any_of_lead hm))
  | inr j =>
    cases hn : n.lead with
    | inl v => rw [hm, hn] at hfirst; exact absurd hfirst.symm (hno (any_of_lead hn))
    | inr k => rw [hm, hn] at hfirst; exact congrArg _ (toString_injective hfirst)

def rest (m : MadeName) : List Char := m.tail.flatMap fun part => '_' :: part.toList

theorem text_toList (m : MadeName) :
    m.text.toList = reservedStart.toList ++ ((m.lead.elim id toString).toList ++ m.rest) := by
  rw [text_eq, generatedName, String.toList_append, String.toList_intercalate, List.map_cons]
  cases m <;> simp [rest, tail, List.intercalate_cons_cons]

theorem rest_eq {m n : MadeName} (h : m.text = n.text) : m.rest = n.rest := by
  have hchars := congrArg String.toList h
  rw [text_toList, text_toList, lead_eq h] at hchars
  exact List.append_cancel_left (List.append_cancel_left hchars)

theorem text_injective : Function.Injective text := by
  intro m n h
  have hlead := lead_eq h
  have hrest := rest_eq h
  have hnumber {j k : Nat} (h : (toString j).toList = (toString k).toList) : j = k :=
    toString_injective (String.toList_injective h)
  cases m <;> cases n <;>
    simp only [lead, Sum.inl.injEq, Sum.inr.injEq, reduceCtorEq, String.reduceEq] at hlead <;>
    simp only [rest, tail, List.flatMap_cons, List.flatMap_nil, List.append_nil, List.cons.injEq, true_and] at hrest
  case brk.brk | caught.caught | support.support => simp_all
  case breakVar.breakVar k l j l' =>
    simp only [List.append_cancel_left_eq, List.cons.injEq, true_and] at hrest
    rw [hlead, String.toList_injective hrest]
  case brk.breakVar | breakVar.brk => simp at hrest
  all_goals exact congrArg _ (hnumber hrest)

theorem text_ne {m n : MadeName} (h : m ≠ n) : m.text ≠ n.text := fun he => h (text_injective he)

end MadeName

theorem holderName_injective {k l : Nat} (h : holderName k = holderName l) : k = l :=
  MadeName.holder.inj (MadeName.text_injective h)

/-! ### The names of a loop -/

namespace LoopNames

def Outside (x : String) : Prop := ∃ k, x = (LoopNames.of k).task ∨ x = (LoopNames.of k).result

theorem not_outside {m : MadeName} (h : ∀ k, m ≠ .task k ∧ m ≠ .result k) : ¬ Outside m.text := by
  rintro ⟨k, hk | hk⟩
  · exact MadeName.text_ne (h k).1 hk
  · exact MadeName.text_ne (h k).2 hk

def inside (k : Nat) : List String :=
  [(LoopNames.of k).item, (LoopNames.of k).slot, (LoopNames.of k).value, (LoopNames.of k).once,
    (LoopNames.of k).brk]

theorem mem_inside {k : Nat} {m : MadeName} :
    m.text ∈ inside k ↔ m ∈ [MadeName.item k, .slot k, .value k, .once k, .brk k] :=
  List.mem_map_of_injective (l := [MadeName.item k, .slot k, .value k, .once k, .brk k]) MadeName.text_injective

theorem not_outside_of_mem {k : Nat} {x : String} (h : x ∈ inside k) : ¬ Outside x := by
  obtain ⟨m, hm, rfl⟩ : ∃ m ∈ [MadeName.item k, .slot k, .value k, .once k, .brk k], m.text = x :=
    List.mem_map.1 h
  refine not_outside fun i => ⟨?_, ?_⟩ <;> rintro rfl <;> simp at hm

theorem breakVariable_notMem (k : Nat) (l : String) : breakVariable k l ∉ inside k := fun h => by
  simpa using mem_inside (m := .breakVar k l).1 h

theorem breakVariable_injective {k : Nat} {l l' : String}
    (h : breakVariable k l = breakVariable k l') : l = l' :=
  (MadeName.breakVar.inj (MadeName.text_injective h)).2

end LoopNames

/-! ### All names of a loop -/

def MadeName.number? : MadeName → Option Nat
  | task k | item k | slot k | value k | brk k | once k | result k | breakVar k _ => some k
  | holder _ | caught | support => none

namespace Taxonomy

/-- The names that a loop has in generated code, as its generator is told them. -/
def ownNames (t : Taxonomy) : List String :=
  [t.names.task, t.names.item, t.names.slot, t.names.value, t.names.brk, t.names.once, t.names.result] ++
    t.breakVars.map (·.2)

def madeNames (t : Taxonomy) : List MadeName :=
  [.task t.id, .item t.id, .slot t.id, .value t.id, .brk t.id, .once t.id, .result t.id] ++
    t.escapes.map fun e => .breakVar t.id e.label

theorem ownNames_of (k : Nat) (header : LoopHeader) :
    (Taxonomy.of k header).ownNames = (Taxonomy.of k header).madeNames.map MadeName.text := by
  simp only [ownNames, madeNames, breakVars, List.map_append, List.map_map]
  rfl

theorem number_of_mem {t : Taxonomy} {m : MadeName} (h : m ∈ t.madeNames) : m.number? = some t.id := by
  simp only [madeNames, List.mem_append, List.mem_cons, List.not_mem_nil, or_false, List.mem_map] at h
  rcases h with (rfl | rfl | rfl | rfl | rfl | rfl | rfl) | ⟨l, -, rfl⟩ <;> rfl

end Taxonomy

end LoopEscape
