import Mathlib.Tactic

/-!
# Tables as lists of rows

An `UPDATE` that leaves the key of every row alone, and an insertion under a new key.
-/

namespace List

variable {ρ κ : Type*} [DecidableEq κ] {key : ρ → κ} {f : ρ → ρ}

/-- The row with a key is found after the update where it was found before. -/
theorem find?_map_of_key (hf : ∀ r, key (f r) = key r) (rows : List ρ) (k : κ) :
    (rows.map f).find? (fun r => key r = k) = (rows.find? (fun r => key r = k)).map f := by
  rw [List.find?_map]
  simp only [Function.comp_def, hf]

/-- An update of the rows with one key is found under that key, and changes nothing elsewhere. -/
theorem find?_map_at (key : ρ → κ) {g : ρ → ρ} (k₀ : κ) (hg : ∀ r, key r = k₀ → key (g r) = k₀) (rows : List ρ) (k : κ) :
    (rows.map fun r => if key r = k₀ then g r else r).find? (fun r => key r = k) =
      if k = k₀ then (rows.find? fun r => key r = k₀).map g else rows.find? fun r => key r = k := by
  have hkey (r : ρ) : key (if key r = k₀ then g r else r) = key r := by
    split_ifs with hr
    · rw [hg r hr, hr]
    · rfl
  rw [find?_map_of_key hkey]
  split_ifs with hk
  · subst hk
    cases hr : rows.find? fun r => key r = k with
    | none => rfl
    | some r =>
      have hrk : key r = k := by simpa using List.find?_some hr
      simp [hrk]
  · cases hr : rows.find? fun r => key r = k with
    | none => rfl
    | some r =>
      have hrk : key r = k := by simpa using List.find?_some hr
      simp [hrk, hk]

/-- A row whose key is new is found under it. -/
theorem find?_append_new {rows : List ρ} {row : ρ} (hnew : ∀ r ∈ rows, key r ≠ key row) (k : κ) :
    (rows ++ [row]).find? (fun r => key r = k) = if k = key row then some row else rows.find? fun r => key r = k := by
  rw [List.find?_append]
  split_ifs with hk
  · subst hk
    have hnone : rows.find? (fun r => key r = key row) = none :=
      List.find?_eq_none.2 fun r hr => by simpa using hnew r hr
    simp [hnone]
  · have hne : ¬ key row = k := fun h => hk h.symm
    simp [hne]

end List
