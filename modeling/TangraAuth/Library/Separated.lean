import Mathlib.Data.String.Basic

/-!
Contract: texts made of parts with a separator between them.

Owns: the parts of a text, and that a text is determined by them.

Does not own: what the parts may be.
-/

namespace TangraAuth.Library

/-- The parts of a text between the separators. -/
def fields (sep : Char) (text : String) : List String :=
  (text.toList.splitOn sep).map String.ofList

variable {sep : Char}

theorem fields_cons {first rest : String} (apart : sep ∉ first.toList) :
    fields sep (first ++ String.singleton sep ++ rest) = first :: fields sep rest := by
  have letters : (first ++ String.singleton sep ++ rest).toList
      = first.toList ++ sep :: rest.toList := by
    simp [String.toList_append]
  have split : (first.toList ++ sep :: rest.toList).splitOn sep
      = first.toList :: rest.toList.splitOn sep := by
    refine List.splitOnP_append_cons_of_forall_mem ?_ sep (by simp) _
    intro letter mem
    have differs : letter ≠ sep := fun same => apart (same ▸ mem)
    simpa using differs
  unfold fields
  rw [letters, split]
  simp

theorem fields_of_not_mem {text : String} (apart : sep ∉ text.toList) :
    fields sep text = [text] := by
  have whole : text.toList.splitOn sep = [text.toList] := by
    refine List.splitOnP_eq_singleton ?_
    intro letter mem
    have differs : letter ≠ sep := fun same => apart (same ▸ mem)
    simpa using differs
  unfold fields
  rw [whole]
  simp

/-- The text of the parts with the separator between them. -/
def joined (sep : Char) (parts : List String) : String :=
  String.ofList (List.intercalate [sep] (parts.map String.toList))

theorem fields_joined {parts : List String} (nonempty : parts ≠ [])
    (apart : ∀ part ∈ parts, sep ∉ part.toList) : fields sep (joined sep parts) = parts := by
  have split : (List.intercalate [sep] (parts.map String.toList)).splitOn sep
      = parts.map String.toList :=
    List.splitOn_intercalate sep (by simpa using apart) (by simpa using nonempty)
  rw [fields, joined, String.toList_ofList, split, List.map_map]
  simp

/-- A text is its parts with the separator between them. -/
theorem fields_injective : Function.Injective (fields sep) := by
  intro left right same
  have lists : left.toList.splitOn sep = right.toList.splitOn sep :=
    List.map_injective_iff.mpr (fun _ _ => String.ofList_inj.mp) same
  have joined := congrArg (List.intercalate [sep]) lists
  rw [List.intercalate_splitOn, List.intercalate_splitOn] at joined
  exact String.toList_injective joined

end TangraAuth.Library
