import LoopEscape.Execute.Import
import Mathlib.Data.List.Basic

/-!
# The table of modules after loading

Loading enters a module, runs its body, and takes its name out again if that fails.  Whatever the body does to
the table, all other entries are those that it leaves.  A load that fails leaves no entry for its module, so
the table is as before exactly if there was none (`loadFile_table`).  Over a series of loads the entry of a
module is told by its last load (`performAll_last`).
-/

namespace LoopEscape

namespace ModuleTable

theorem get?_erase (t : ModuleTable) (name n : String) :
    (t.erase name).get? n = if n = name then none else t.get? n := by
  rw [get?, erase, get?]
  induction t with
  | nil => simp
  | cons e rest ih =>
    obtain ⟨k, m⟩ := e
    by_cases hk : k = name
    · rw [List.filter_cons_of_neg (by simp [hk]), ih, List.lookup_cons]
      split_ifs with hn
      · rfl
      · rw [show (n == k) = false from beq_false_of_ne fun h => hn (h.trans hk)]
    · rw [List.filter_cons_of_pos (by simpa using hk), List.lookup_cons, List.lookup_cons]
      by_cases hn : n = k
      · subst hn
        rw [beq_self_eq_true, if_neg hk]
      · rw [beq_false_of_ne hn]
        exact ih

theorem get?_add (t : ModuleTable) (m : LoadedModule) (n : String) :
    (t.add m).get? n = if n = m.name then some m else t.get? n := by
  rw [get?, add, List.lookup_cons]
  by_cases hn : n = m.name
  · rw [if_pos hn, hn, beq_self_eq_true]
  · rw [if_neg hn, beq_false_of_ne hn]
    exact (get?_erase t m.name n).trans (if_neg hn)

theorem get?_fill (t : ModuleTable) (name : String) (vars : Namespace) {n : String} (hn : n ≠ name) :
    (t.fill name vars).get? n = t.get? n := by
  rw [get?, fill, get?]
  induction t with
  | nil => rfl
  | cons e rest ih =>
    obtain ⟨k, m⟩ := e
    rw [List.map_cons, List.lookup_cons, List.lookup_cons, ih]
    by_cases hk : n = k
    · subst hk
      rw [beq_self_eq_true, if_neg hn]
    · rw [beq_false_of_ne hk]

end ModuleTable

/-- The bodies of other modules leave the entry of `n` as they find it. -/
def Interpreter.Spares (run : Interpreter) (n : String) : Prop :=
  ∀ t name body, name ≠ n → (run t name body).1.get? n = t.get? n

theorem Interpreter.plain_spares (n : String) : Interpreter.plain.Spares n := by
  intro t name body hname
  unfold plain
  split
  · rfl
  · exact t.get?_fill name _ (Ne.symm hname)

namespace Importer

structure Load where
  base : Job
  path : String
  name : Option String := none
  settings : Option Settings := none

namespace Load

def loader (l : Load) : Loader :=
  { name := l.name.getD (pathStem l.path), path := shortPath l.path, settings := l.settings }

def target (l : Load) : String := l.loader.name

end Load

/-- What running the body of a module makes of the table that it finds, with its own module in it. -/
def ran (i : Importer) (l : Load) : ModuleTable × Except Failure Namespace :=
  i.run.exec l.target (l.loader.statements l.base i.files) (i.modules.add l.loader.newModule)

def perform (i : Importer) (l : Load) : Importer × Except Failure LoadedModule :=
  i.loadFile l.base l.path l.name l.settings

theorem perform_eq (i : Importer) (l : Load) :
    i.perform l = match i.ran l with
      | (modules, .ok vars) => ({ i with modules }, .ok { l.loader.newModule with vars })
      | (modules, .error f) => ({ i with modules := modules.erase l.target }, .error f) := by
  unfold perform loadFile load ran Load.target
  rfl

theorem perform_get? (i : Importer) (l : Load) {n : String} (hn : n ≠ l.target) :
    (i.perform l).1.get? n = (i.ran l).1.get? n := by
  rw [perform_eq]
  split
  · next h => rw [h]; rfl
  · next modules f h =>
    rw [h]
    exact (ModuleTable.get?_erase modules l.target n).trans (if_neg hn)

theorem perform_spares {i : Importer} {n : String} (hrun : i.run.Spares n) {l : Load} (hl : l.target ≠ n) :
    (i.perform l).1.get? n = i.get? n := by
  have hadd : (i.modules.add l.loader.newModule).get? n = i.get? n :=
    (ModuleTable.get?_add ..).trans (if_neg (Ne.symm hl))
  rw [perform_get? i l (Ne.symm hl), ran]
  unfold Interpreter.exec
  split
  · exact hadd
  · exact (hrun _ _ _ hl).trans hadd

theorem perform_run (i : Importer) (l : Load) : (i.perform l).1.run = i.run := by
  rw [perform_eq]
  split <;> rfl

/-! ### Series of loads -/

def performAll (i : Importer) (ls : List Load) : Importer := ls.foldl (fun i l => (i.perform l).1) i

theorem performAll_spares {i : Importer} {n : String} (hrun : i.run.Spares n) {ls : List Load}
    (hls : ∀ l ∈ ls, l.target ≠ n) : (i.performAll ls).get? n = i.get? n := by
  induction ls generalizing i with
  | nil => rfl
  | cons l ls ih =>
    obtain ⟨hl, hls⟩ := List.forall_mem_cons.1 hls
    exact (ih (perform_run i l ▸ hrun) hls).trans (perform_spares hrun hl)

theorem performAll_run (i : Importer) (ls : List Load) : (i.performAll ls).run = i.run := by
  induction ls generalizing i with
  | nil => rfl
  | cons l ls ih => exact (ih _).trans (perform_run i l)

theorem performAll_last {i : Importer} {n : String} (hrun : i.run.Spares n) (before : List Load) (l : Load)
    {after : List Load} (hafter : ∀ l' ∈ after, l'.target ≠ n) :
    (i.performAll (before ++ l :: after)).get? n = ((i.performAll before).perform l).1.get? n := by
  rw [performAll, List.foldl_append, List.foldl_cons]
  refine performAll_spares ?_ hafter
  rw [perform_run]
  exact performAll_run i before ▸ hrun

/-- The table after a load and after a series of loads, whatever the bodies do to it.  All entries but that of
the module are as its body leaves them, and so is its own if the load succeeds.  A load that fails takes this
entry out: if the body leaves the other entries alone, the table is as it was if and only if the module had no
entry.  After a series of loads the entry of a module that no other body touches is told by its last load. -/
theorem loadFile_table (i : Importer) (l : Load) :
    (∀ n, n ≠ l.target → (i.perform l).1.get? n = (i.ran l).1.get? n) ∧
    (∀ vars, (i.ran l).2 = .ok vars → (i.perform l).2 = .ok { l.loader.newModule with vars } ∧
      (i.perform l).1.get? l.target = (i.ran l).1.get? l.target) ∧
    (∀ f, (i.ran l).2 = .error f → (i.perform l).2 = .error f ∧ (i.perform l).1.get? l.target = none ∧
      ((∀ n, n ≠ l.target → (i.ran l).1.get? n = i.get? n) →
        ((∀ n, (i.perform l).1.get? n = i.get? n) ↔ i.get? l.target = none))) ∧
    (∀ f, l.loader.statements l.base i.files = .error f →
      i.ran l = (i.modules.add l.loader.newModule, .error f)) ∧
    ∀ n, i.run.Spares n → ∀ ls : List Load,
      ((∀ l ∈ ls, l.target ≠ n) → (i.performAll ls).get? n = i.get? n) ∧
      ∀ before l after, ls = before ++ l :: after → (∀ l' ∈ after, l'.target ≠ n) →
        (i.performAll ls).get? n = ((i.performAll before).perform l).1.get? n := by
  refine ⟨fun n => perform_get? i l, fun vars hvars => ?_, fun f hf => ?_, fun f hf => ?_,
    fun n hrun ls => ⟨performAll_spares hrun, ?_⟩⟩
  · rw [perform_eq, show i.ran l = ((i.ran l).1, .ok vars) from Prod.ext rfl hvars]
    exact ⟨rfl, rfl⟩
  · have hnone : (i.perform l).1.get? l.target = none := by
      rw [perform_eq, show i.ran l = ((i.ran l).1, .error f) from Prod.ext rfl hf]
      exact (ModuleTable.get?_erase ..).trans (if_pos rfl)
    refine ⟨?_, hnone, fun hleft => ⟨fun h => (h l.target).symm.trans hnone, fun h n => ?_⟩⟩
    · rw [perform_eq, show i.ran l = ((i.ran l).1, .error f) from Prod.ext rfl hf]
    · by_cases hn : n = l.target
      · rw [hn, hnone, h]
      · rw [perform_get? i l hn, hleft n hn]
  · rw [ran, hf]
    rfl
  · rintro before l after rfl hafter
    exact performAll_last hrun before l hafter

/-- A module that was loaded is lost when a file that is not there is loaded under its name. -/
theorem loadFile_loses :
    let i : Importer := { files := {}, modules := [("m", ⟨"m", none, [], none⟩)] }
    let l : Load := { base := { source := default }, path := "missing.cbit", name := some "m" }
    (i.get? "m").isSome = true ∧ (i.perform l).2.toOption.isNone = true ∧
      ((i.perform l).1.get? "m").isNone = true := by
  decide +kernel

end Importer

end LoopEscape
