import Mathlib.Data.List.Nodup

/-!
Contract: a table as the list of its rows.

Owns: the conditional update of all matching rows, key uniqueness, and the
lemmas that relate lookups by key to membership.

Does not own: the meaning of a row or of a key.
-/

namespace TangraAuth.Library

variable {ρ κ : Type}

/-- `UPDATE table SET … WHERE matching`. -/
def updateWhere (matching : ρ → Bool) (change : ρ → ρ) (rs : List ρ) : List ρ :=
  rs.map fun row => if matching row then change row else row

/-- No two rows share a key. -/
def UniqueKey (key : ρ → κ) (rs : List ρ) : Prop := (rs.map key).Nodup

variable {matching : ρ → Bool} {change : ρ → ρ} {key : ρ → κ}

@[grind =]
theorem mem_updateWhere {rs : List ρ} {row : ρ} : row ∈ updateWhere matching change rs ↔
      ∃ old ∈ rs, (if matching old then change old else old) = row := by
  simp only [updateWhere, List.mem_map]

theorem of_mem_updateWhere {rs : List ρ} {row : ρ} (mem : row ∈ updateWhere matching change rs) :
    ∃ old ∈ rs, (matching old = true ∧ row = change old) ∨ (matching old = false ∧ row = old) := by
  obtain ⟨old, oldMem, isRow⟩ := mem_updateWhere.mp mem
  cases matched : matching old with
  | true => exact ⟨old, oldMem, Or.inl ⟨matched, by simpa [matched] using isRow.symm⟩⟩
  | false => exact ⟨old, oldMem, Or.inr ⟨matched, by simpa [matched] using isRow.symm⟩⟩

/-- A query that the change does not touch finds the same row, changed. -/
theorem find?_updateWhere {sel : ρ → Bool}
    (preserved : ∀ row, sel (change row) = sel row) (rs : List ρ) :
    (updateWhere matching change rs).find? sel
      = (rs.find? sel).map fun row => if matching row then change row else row := by
  have same : (sel ∘ fun row => if matching row then change row else row) = sel := by
    funext row
    grind
  rw [updateWhere, List.find?_map, same]

theorem map_updateWhere_of_preserved (preserved : ∀ row, key (change row) = key row) (rs : List ρ) :
    (updateWhere matching change rs).map key = rs.map key := by
  induction rs with
  | nil => rfl
  | cons row rest ih =>
    simp only [updateWhere, List.map_cons, List.map_map] at ih ⊢
    rw [ih]
    cases matching row <;> simp [preserved]

/-- Selected rows keep what the change keeps of them. -/
theorem map_filter_updateWhere {sel : ρ → Bool} {v : ρ → κ}
    (keepsSelected : ∀ row, sel (change row) = sel row)
    (keepsView : ∀ row, v (change row) = v row) (rs : List ρ) :
    ((updateWhere matching change rs).filter sel).map v = (rs.filter sel).map v := by
  induction rs with
  | nil => rfl
  | cons row rest ih =>
    have sameSelected : sel (if matching row then change row else row) = sel row := by
      split_ifs
      · exact keepsSelected row
      · rfl
    have sameView : v (if matching row then change row else row) = v row := by
      split_ifs
      · exact keepsView row
      · rfl
    show (List.filter sel (_ :: updateWhere matching change rest)).map v = _
    by_cases isSelected : sel row = true
    · grind
    grind

/-- Rows that are not selected before the change nor after it. -/
theorem filter_updateWhere {sel : ρ → Bool} (outside : ∀ row, matching row = true →
      sel row = false ∧ sel (change row) = false) (rs : List ρ) :
    (updateWhere matching change rs).filter sel = rs.filter sel := by
  induction rs with
  | nil => rfl
  | cons row rest ih =>
    grind [updateWhere]

theorem uniqueKey_updateWhere (preserved : ∀ row, key (change row) = key row) {rs : List ρ}
    (unique : UniqueKey key rs) : UniqueKey key (updateWhere matching change rs) := by
  unfold UniqueKey
  rw [map_updateWhere_of_preserved preserved]
  exact unique

theorem uniqueKey_append_singleton {rs : List ρ} {row : ρ} (unique : UniqueKey key rs)
    (fresh : ∀ old ∈ rs, key old ≠ key row) : UniqueKey key (rs ++ [row]) := by
  unfold UniqueKey at unique ⊢
  grind

theorem uniqueKey_filter {rs : List ρ} (unique : UniqueKey key rs) (kept : ρ → Bool) :
    UniqueKey key (rs.filter kept) := by
  have sublist : (rs.filter kept).Sublist rs := List.filter_sublist
  exact List.Nodup.sublist (sublist.map key) unique

theorem eq_of_uniqueKey {rs : List ρ} (unique : UniqueKey key rs) {left right : ρ}
    (leftMem : left ∈ rs) (rightMem : right ∈ rs) (sameKey : key left = key right) :
    left = right :=
  List.inj_on_of_nodup_map unique leftMem rightMem sameKey

theorem mem_keys_append {rs : List ρ} {val : κ} (known : val ∈ rs.map key) (row : ρ) :
    val ∈ (rs ++ [row]).map key := by
  rw [List.map_append]
  exact List.mem_append_left _ known

variable {ν : Type} [DecidableEq κ]

theorem mem_keys_delete {key : ρ → κ} {rs : List ρ} {val deleted : κ}
    (known : val ∈ rs.map key) (differs : val ≠ deleted) :
    val ∈ (rs.filter fun row => key row ≠ deleted).map key := by
  obtain ⟨row, mem, rfl⟩ := List.mem_map.mp known
  exact List.mem_map_of_mem (List.mem_filter.mpr ⟨mem, by simpa using differs⟩)

/-- The values of `key` in a table of pairs become `values`. -/
def replaceAt (key : κ) (values : List ν) (pairs : List (κ × ν)) : List (κ × ν) :=
  pairs.filter (fun pair => pair.1 ≠ key) ++ values.map (fun val => (key, val))

@[grind =]
theorem mem_replaceAt {key : κ} {values : List ν} {pairs : List (κ × ν)} {pair : κ × ν} :
    pair ∈ replaceAt key values pairs ↔
      (pair ∈ pairs ∧ pair.1 ≠ key) ∨ (pair.1 = key ∧ pair.2 ∈ values) := by
  obtain ⟨left, right⟩ := pair
  simp [replaceAt]
  tauto

end TangraAuth.Library
