import Mathlib.Data.List.Induction

/-!
Contract: the roles a user holds, each with every source that grants it.

Owns: the fold of the rows of the query, and what it groups.

Does not own: the query that returns the rows.
-/

namespace TangraAuth.Authz

structure EffectiveRoleRow where
  roleID : String
  slug : String
  source : String
  groupID : String
  groupName : String

structure RoleSource where
  kind : String
  groupID : String
  groupName : String
deriving DecidableEq

structure EffectiveRole where
  roleID : String
  slug : String
  sources : List RoleSource

def EffectiveRoleRow.roleSource (r : EffectiveRoleRow) : RoleSource :=
  ⟨r.source, r.groupID, r.groupName⟩

structure RoleFold where
  out : List EffectiveRole
  index : String → Option Nat

namespace RoleFold

/-- The entry with the source, which it may have already. -/
def withSource (src : RoleSource) (entry : EffectiveRole) : EffectiveRole :=
  if src ∈ entry.sources then entry else { entry with sources := entry.sources ++ [src] }

def step (fold : RoleFold) (r : EffectiveRoleRow) : RoleFold :=
  match fold.index r.roleID with
  | some i => { fold with out := fold.out.modify i (withSource r.roleSource) }
  | none =>
    let entered : List EffectiveRole := fold.out ++ [⟨r.roleID, r.slug, []⟩]
    ⟨entered.modify fold.out.length (withSource r.roleSource),
      Function.update fold.index r.roleID (some fold.out.length)⟩

end RoleFold

def foldEffectiveRoles (rs : List EffectiveRoleRow) : List EffectiveRole :=
  (rs.foldl RoleFold.step ⟨[], fun _ => none⟩).out

/-! ### What it groups -/

/-- The distinct role ids, as they are first seen. -/
def roleIDs (rs : List EffectiveRoleRow) : List String :=
  (rs.map EffectiveRoleRow.roleID).eraseDups

/-- The slug of the role's first row and the distinct sources of its rows. -/
def entryOf (rs : List EffectiveRoleRow) (id : String) : EffectiveRole :=
  let own := rs.filter (·.roleID == id)
  ⟨id, (own.head?.map EffectiveRoleRow.slug).getD "",
    (own.map EffectiveRoleRow.roleSource).eraseDups⟩

theorem eraseDups_concat {α : Type} [DecidableEq α] (items : List α) (item : α) :
    (items ++ [item]).eraseDups
      = if item ∈ items then items.eraseDups else items.eraseDups ++ [item] := by
  rw [List.eraseDups_append]
  split_ifs with old <;> simp [List.removeAll, old, List.eraseDups_cons]

section Rows

variable {rs : List EffectiveRoleRow} {r : EffectiveRoleRow}

theorem roleIDs_concat : roleIDs (rs ++ [r])
    = if r.roleID ∈ roleIDs rs then roleIDs rs else roleIDs rs ++ [r.roleID] := by
  simp only [roleIDs, List.map_append, List.map_singleton, eraseDups_concat, List.mem_eraseDups]

theorem entryOf_concat_of_ne {id : String} (other : r.roleID ≠ id) :
    entryOf (rs ++ [r]) id = entryOf rs id := by
  simp [entryOf, other]

theorem entryOf_concat_self (seen : r.roleID ∈ roleIDs rs) : entryOf (rs ++ [r]) r.roleID
      = RoleFold.withSource r.roleSource (entryOf rs r.roleID) := by
  have own : (rs ++ [r]).filter (·.roleID == r.roleID)
      = rs.filter (·.roleID == r.roleID) ++ [r] := by simp
  have first : rs.filter (·.roleID == r.roleID) ≠ [] := by
    simpa [roleIDs] using seen
  obtain ⟨row, others, isOwn⟩ := List.exists_cons_of_ne_nil first
  simp only [entryOf, RoleFold.withSource, own, List.map_append, List.map_singleton,
    eraseDups_concat, List.mem_eraseDups, isOwn]
  split_ifs <;> rfl

theorem entryOf_concat_new (new : r.roleID ∉ roleIDs rs) :
    entryOf (rs ++ [r]) r.roleID = ⟨r.roleID, r.slug, [r.roleSource]⟩ := by
  have none : rs.filter (·.roleID == r.roleID) = [] := by
    simpa [roleIDs] using new
  simp [entryOf, none, List.eraseDups_cons]

end Rows

/-- The map and the slice agree on the rows passed so far. -/
structure RoleFold.Folded (fold : RoleFold) (rs : List EffectiveRoleRow) : Prop where
  out : fold.out = (roleIDs rs).map (entryOf rs)
  index : ∀ id i, fold.index id = some i ↔ (roleIDs rs)[i]? = some id

theorem RoleFold.Folded.step {fold : RoleFold} {rs : List EffectiveRoleRow}
    (folded : fold.Folded rs) (r : EffectiveRoleRow) : (fold.step r).Folded (rs ++ [r]) := by
  obtain ⟨out, index⟩ := folded
  unfold RoleFold.step
  cases position : fold.index r.roleID with
  | some i =>
    have located := (index r.roleID i).mp position
    have seen : r.roleID ∈ roleIDs rs := List.mem_of_getElem? located
    have same : roleIDs (rs ++ [r]) = roleIDs rs := by rw [roleIDs_concat, if_pos seen]
    refine ⟨List.ext_getElem? fun j => ?_, by rwa [same]⟩
    rw [same, List.getElem?_modify, out, List.getElem?_map, List.getElem?_map]
    cases there : (roleIDs rs)[j]? with
    | none => rfl
    | some id =>
      by_cases here : i = j
      · subst here
        cases located.symm.trans there
        simp [entryOf_concat_self seen]
      · have other : r.roleID ≠ id := by
          rintro rfl
          exact here (Option.some.inj (position.symm.trans ((index _ j).mpr there)))
        simp [here, entryOf_concat_of_ne other]
  | none =>
    have new : r.roleID ∉ roleIDs rs := by
      intro mem
      obtain ⟨i, located⟩ := List.mem_iff_getElem?.mp mem
      cases position.symm.trans ((index _ i).mpr located)
    have more : roleIDs (rs ++ [r]) = roleIDs rs ++ [r.roleID] := by
      rw [roleIDs_concat, if_neg new]
    have count : fold.out.length = (roleIDs rs).length := by rw [out, List.length_map]
    have kept : (roleIDs rs).map (entryOf (rs ++ [r])) = fold.out := by
      rw [out]
      refine List.map_congr_left fun id mem => entryOf_concat_of_ne ?_
      rintro rfl
      exact new mem
    constructor
    · rw [more, List.map_append, kept, List.map_singleton, entryOf_concat_new new]
      simp [List.modify_eq_take_drop, RoleFold.withSource]
    · intro id i
      have old := index id i
      rw [more, count]
      grind [Function.update_apply]

/-- One entry for each distinct role id as first seen, with the distinct sources of its rows
in their order. -/
theorem foldEffectiveRoles_eq (rs : List EffectiveRoleRow) :
    foldEffectiveRoles rs = (roleIDs rs).map (entryOf rs) := by
  have folded : (rs.foldl RoleFold.step ⟨[], fun _ => none⟩).Folded rs := by
    induction rs using List.reverseRecOn with
    | nil => exact ⟨rfl, fun id i => by simp [roleIDs]⟩
    | append_singleton rs r ih =>
      rw [List.foldl_append]
      exact ih.step r
  exact folded.out

end TangraAuth.Authz
