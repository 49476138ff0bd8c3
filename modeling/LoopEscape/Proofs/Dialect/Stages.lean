import LoopEscape.Dialect.Attach

/-!
# The stages of parsing

Parsing strips a source of what belongs to the dialect, parses the plain code that is left, and puts the
marks back.
-/

namespace LoopEscape

open Attach

theorem mapError_eq_ok {ε ε' α : Type} {f : ε → ε'} {x : Except ε α} {a : α}
    (h : x.mapError f = .ok a) : x = .ok a := by
  cases x with
  | error e => cases h
  | ok b =>
    cases h
    rfl

theorem bind_eq_ok {ε α β : Type} {x : Except ε α} {f : α → Except ε β} {b : β}
    (h : x >>= f = .ok b) : ∃ a, x = .ok a ∧ f a = .ok b := by
  cases x with
  | error e => cases h
  | ok a => exact ⟨a, rfl, h⟩

def Stripper.adjustments (s : Stripper) : Shifts := s.shifts.filter fun e => e.2 != 0

theorem strip_stages {source : String} {stripped : Stripped} (h : strip source = .ok stripped) :
    ∃ stream s code, scan source = .ok stream ∧ ({} : Stripper).run true stream.tokens = .ok s ∧
      layout s.emitted.reverse = .ok code ∧ stream.encoding.restore code.toList = some stripped.code.toList ∧
      stripped.shifts = s.adjustments ∧ stripped.marks = s.marks := by
  unfold strip at h
  split at h
  · cases h
  next stream hscan =>
  split at h
  · cases h
  next s hrun =>
  split at h
  · cases h
  next code hcode =>
  split at h
  · cases h
  next restored hrestored =>
    cases h
    exact ⟨stream, s, code, hscan, hrun, hcode, by simpa using hrestored, rfl, rfl⟩

theorem parseSource_stages {strict : Bool} {source : Source} {module : Module}
    (h : parseSource strict source = .ok module) : ∃ stripped plain left,
      strip source.text = .ok stripped ∧
      parsePlain strict (place stripped.shifts) stripped.code = .ok plain ∧
      Stmt.attachAll ⟨stripped.shifts, strict⟩ none plain stripped.marks = .ok (module.body, left) := by
  replace h := mapError_eq_ok h
  unfold parseText at h
  split at h
  · cases h
  obtain ⟨stripped, hstrip, h⟩ := bind_eq_ok h
  obtain ⟨plain, hplain, h⟩ := bind_eq_ok h
  obtain ⟨⟨body, left⟩, hattach, h⟩ := bind_eq_ok h
  refine ⟨stripped, plain, left, mapError_eq_ok hstrip, mapError_eq_ok hplain, ?_⟩
  dsimp only at h
  split at h
  · cases h
    exact mapError_eq_ok hattach
  · cases h

def Source.parsed? (strict : Bool) (source : Source) : Option (List Stmt) := do
  let stripped ← (strip source.text).toOption
  let plain ← (parsePlain strict (place stripped.shifts) stripped.code).toOption
  let (body, left) ←
    (Stmt.attachAll ⟨stripped.shifts, strict⟩ none plain stripped.marks).toOption
  if left.isEmpty then some body else none

theorem eq_ok_of_toOption {ε α : Type} {x : Except ε α} {a : α} (h : x.toOption = some a) :
    x = .ok a := by
  cases x with
  | error e => cases h
  | ok b =>
    cases h
    rfl

theorem parseSource_attached {strict : Bool} {source : Source} {stripped : Stripped} {plain : List Stmt}
    (hnul : source.text.contains '\x00' = false) (hstrip : strip source.text = .ok stripped)
    (hplain : parsePlain strict (place stripped.shifts) stripped.code = .ok plain) :
    parseSource strict source =
      match Stmt.attachAll ⟨stripped.shifts, strict⟩ none plain stripped.marks with
      | .error f => .error ((f.failure source).inSource source.path)
      | .ok (body, left) =>
        if left.isEmpty then .ok ⟨body, stripped.settings⟩ else .error .inconsistent := by
  rw [parseSource, parseText, if_neg (by rw [hnul]; decide), hstrip]
  show Except.mapError _ ((parsePlain strict (place stripped.shifts) stripped.code).mapError _ >>= _) = _
  rw [hplain]
  show Except.mapError _ ((StateT.run (Stmt.attachAll _ none plain) stripped.marks).mapError _ >>= _) = _
  rw [StateT.run]
  cases Stmt.attachAll ⟨stripped.shifts, strict⟩ none plain stripped.marks with
  | error f => rfl
  | ok r =>
    show Except.mapError _ (if r.2.isEmpty then _ else _) = _
    dsimp only
    split <;> rfl

theorem parseSource_of_parsed? {strict : Bool} {source : Source} {body : List Stmt}
    (hnul : source.text.contains '\x00' = false) (h : source.parsed? strict = some body) :
    ∃ settings, parseSource strict source = .ok ⟨body, settings⟩ := by
  obtain ⟨stripped, hstrip, h⟩ := Option.bind_eq_some_iff.1 h
  obtain ⟨plain, hplain, h⟩ := Option.bind_eq_some_iff.1 h
  obtain ⟨⟨body', left⟩, hattach, h⟩ := Option.bind_eq_some_iff.1 h
  rw [parseSource_attached hnul (eq_ok_of_toOption hstrip) (eq_ok_of_toOption hplain),
    eq_ok_of_toOption hattach]
  dsimp only at h ⊢
  split at h
  · next hleft =>
    cases h
    exact ⟨_, if_pos hleft⟩
  · cases h

end LoopEscape
