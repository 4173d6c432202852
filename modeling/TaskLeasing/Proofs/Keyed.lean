import Mathlib.Data.List.Nodup

namespace TaskLeasing

variable {β γ : Type} [DecidableEq γ]

/-- Where no two have the same key, one stands apart from those of other keys. -/
theorem perm_cons_filter {l : List β} {key : β → γ} (distinct : (l.map key).Nodup) {a : β}
    (member : a ∈ l) : l.Perm (a :: l.filter fun b => key b ≠ key a) := by
  induction l with
  | nil => cases member
  | cons first rest ih =>
    obtain ⟨absent, distinct'⟩ := List.nodup_cons.mp distinct
    rcases List.mem_cons.mp member with rfl | later
    · have others : rest.filter (fun b => key b ≠ key a) = rest := by
        refine List.filter_eq_self.mpr fun b atB => ?_
        have other : key b ≠ key a := fun same => absent (same ▸ List.mem_map_of_mem atB)
        simp [other]
      rw [List.filter_cons_of_neg (by simp), others]
    · have other : key first ≠ key a := fun same => absent (same ▸ List.mem_map_of_mem later)
      rw [List.filter_cons_of_pos (by simp [other])]
      exact ((ih distinct' later).cons first).trans (.swap a first _)

theorem find?_key {l : List β} {key : β → γ} (distinct : (l.map key).Nodup) {a : β}
    (member : a ∈ l) : l.find? (fun b => key b = key a) = some a := by
  induction l with
  | nil => cases member
  | cons first rest ih =>
    obtain ⟨absent, distinct'⟩ := List.nodup_cons.mp distinct
    rcases List.mem_cons.mp member with rfl | later
    · simp
    · have other : key first ≠ key a := fun same => absent (same ▸ List.mem_map_of_mem later)
      rw [List.find?_cons_of_neg (by simp [other])]
      exact ih distinct' later

end TaskLeasing
