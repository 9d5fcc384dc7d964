import Mathlib.Tactic

/-! When a computation that may fail returns a value. -/

namespace Library
variable {α β ε : Type}

theorem bind_ok_iff {m : Except ε α} {f : α → Except ε β} {b : β} :
    m >>= f = .ok b ↔ ∃ a, m = .ok a ∧ f a = .ok b := by
  cases m with
  | error failure =>
    refine ⟨fun h => absurd h (by simp [bind, Except.bind]), ?_⟩
    rintro ⟨a, h, -⟩
    exact absurd h (by simp)
  | ok a =>
    refine ⟨fun h => ⟨a, rfl, h⟩, ?_⟩
    rintro ⟨a', h, hf⟩
    rw [← Except.ok.inj h] at hf
    exact hf

theorem ite_ok_iff {p : Prop} [Decidable p] {failure : ε} {a b : α} :
    (if p then .ok a else .error failure : Except ε α) = .ok b ↔ p ∧ a = b := by
  by_cases hp : p
  · simp [hp]
  · simp [hp]

theorem ite_error_iff {p : Prop} [Decidable p] {failure : ε} {m : Except ε α} {b : α} :
    (if p then .error failure else m) = .ok b ↔ ¬ p ∧ m = .ok b := by
  by_cases hp : p
  · simp [hp]
  · simp [hp]

theorem mapM_ok_iff {f : α → Except ε β} {list : List α} {results : List β} :
    list.mapM f = .ok results ↔ List.Forall₂ (fun a b => f a = .ok b) list results := by
  induction list generalizing results with
  | nil =>
    rw [List.forall₂_nil_left_iff, List.mapM_nil]
    exact ⟨fun h => (Except.ok.inj h).symm, fun h => h ▸ rfl⟩
  | cons first rest ih =>
    rw [List.mapM_cons, List.forall₂_cons_left_iff, bind_ok_iff]
    constructor
    · rintro ⟨value, hfirst, h⟩
      obtain ⟨values, hrest, h⟩ := bind_ok_iff.mp h
      exact ⟨value, values, hfirst, ih.mp hrest, (Except.ok.inj h).symm⟩
    · rintro ⟨value, values, hfirst, hrest, rfl⟩
      exact ⟨value, hfirst, bind_ok_iff.mpr ⟨values, ih.mpr hrest, rfl⟩⟩

theorem mapM_some_mem {f : α → Option β} {list : List α} {results : List β} {b : β}
    (h : list.mapM f = some results) (mem : b ∈ results) : ∃ a ∈ list, f a = some b := by
  induction list generalizing results with
  | nil =>
    rw [List.mapM_nil] at h
    rw [← Option.some.inj h] at mem
    exact absurd mem List.not_mem_nil
  | cons first rest ih =>
    rw [List.mapM_cons] at h
    obtain ⟨value, hfirst, h⟩ := Option.bind_eq_some_iff.mp h
    obtain ⟨values, hrest, h⟩ := Option.bind_eq_some_iff.mp h
    rw [← Option.some.inj h] at mem
    rcases List.mem_cons.mp mem with rfl | hlater
    · exact ⟨first, List.mem_cons_self, hfirst⟩
    · obtain ⟨a, hmem, ha⟩ := ih hrest hlater
      exact ⟨a, List.mem_cons_of_mem _ hmem, ha⟩

theorem mapM_ok_mem {f : α → Except ε β} {list : List α} {results : List β} {a : α}
    (h : list.mapM f = .ok results) (mem : a ∈ list) : ∃ b, f a = .ok b := by
  have hall := mapM_ok_iff.mp h
  clear h
  induction hall with
  | nil => exact absurd mem List.not_mem_nil
  | cons hfirst _ ih =>
    rcases List.mem_cons.mp mem with rfl | hlater
    · exact ⟨_, hfirst⟩
    · exact ih hlater

end Library
