import TangraAuth.Authz.Revision
import TangraAuth.Library.Execution

/-!
Contract: retired role definitions and new assignments, over whole runs of the
platform.

Owns: the calls that would assign a retired role, the operations that reach every
tenant they should, and that in a run of such operations no tenant assigns a role
whose definition is retired.

Does not own: assignments that were made before the retirement.
-/

namespace TangraAuth.Authz

open Library Store Accounts

/-! ### Assignments -/

section Assignments

variable {m next rs : Mirror} {r : Role} {res : Plan}

theorem rows_mirrorFirst {adds removes : List Tuple}
    (isRows : rs = (Plan.mirrorFirst next adds removes).before
      ∨ (Plan.mirrorFirst next adds removes).after = some rs) : rs = next := by
  rcases isRows with isNext | isNext
  · exact isNext
  · exact (Option.some.inj isNext).symm

variable {a : Actor} {rids : List RoleID} {uid : UserID} {invited : Invited}

theorem acceptAccount_links {nid : UserID} {opened : Mirror}
    (acc : acceptAccount m invited nid = .ok (opened, uid)) :
    opened.roles = m.roles ∧ opened.bindings = m.bindings ∧ opened.groupRoles = m.groupRoles := by
  cases acceptAccount_sound acc with
  | inserted fresh rs =>
    rw [rs]
    exact ⟨rfl, rfl, rfl⟩
  | activated => exact ⟨rfl, rfl, rfl⟩

/-- The calls that link roles to users or groups. -/
def Call.assigns : Call → Bool
  | .assignRoles _ _ _ | .setRoles _ _ _ | .accept _ _ _ => true
  | _ => false

theorem Change.links {call : Call} (change : Change m call res)
    (other : call.assigns = false) (isRows : rs = res.before ∨ res.after = some rs) :
    rs.bindings ⊆ m.bindings ∧ rs.groupRoles ⊆ m.groupRoles := by
  have same : ∀ {tb : Tables}, rs.toTables = tb → tb.bindings ⊆ m.bindings →
      tb.groupRoles ⊆ m.groupRoles →
      rs.bindings ⊆ m.bindings ∧ rs.groupRoles ⊆ m.groupRoles := by
    rintro _ rfl bindings groupRoles
    exact ⟨bindings, groupRoles⟩
  cases change with
  | assignRoles => cases other
  | createRole creates fresh inserted =>
    rcases isRows with rfl | replaced
    · exact same inserted (List.Subset.refl _) (List.Subset.refl _)
    · refine same (checked_eq_some replaced).2 ?_ ?_
      · rw [inserted]
        exact List.Subset.refl _
      · rw [inserted]
        exact List.Subset.refl _
  | updateRole =>
    rcases isRows with rfl | replaced
    · exact ⟨List.Subset.refl _, List.Subset.refl _⟩
    · exact same (checked_eq_some replaced).2 (List.Subset.refl _) (List.Subset.refl _)
  | removeRole isRole removed =>
    obtain rfl := rows_mirrorFirst isRows
    exact same removed (fun _ kept => List.mem_of_mem_filter kept)
      fun _ kept => List.mem_of_mem_filter kept
  | createGroup fresh inserted =>
    obtain rfl := rows_mirrorFirst isRows
    exact same inserted (List.Subset.refl _) (List.Subset.refl _)
  | addMembers strangers joined appended =>
    obtain rfl := rows_mirrorFirst isRows
    exact same appended (List.Subset.refl _) (List.Subset.refl _)
  | removeStranger =>
    obtain rfl := rows_mirrorFirst isRows
    exact ⟨List.Subset.refl _, List.Subset.refl _⟩
  | removeMember =>
    obtain rfl := rows_mirrorFirst isRows
    exact ⟨List.Subset.refl _, List.Subset.refl _⟩
  | setRoles => cases other
  | deleteGroup ofGroup deleted =>
    obtain rfl := rows_mirrorFirst isRows
    exact same deleted (List.Subset.refl _) fun _ kept => List.mem_of_mem_filter kept
  | accept => cases other

end Assignments

/-! ### Operations -/

section Operations

variable {fs : CallFaults} {nid : Nat → RoleID} {w : World} {existing : List TenantID}
  {tid : TenantID}

variable {α : Type} {cat : Catalogue} {d : TenantData}

/-- No role of a module. -/
def Plain (d : TenantData) : Prop :=
  ∀ r ∈ d.mirror.roles, r.origin ≠ .ofModule

theorem Plain.not_offers (plain : Plain d) (df : ModuleRoleDef) : ¬Offers d df := by
  rintro ⟨r, copy, -⟩
  obtain ⟨mem, ofModule, -⟩ := copyRow_iff.mp copy
  exact plain r mem ofModule

end Operations

/-! ### Runs -/

/-- A platform before any module was registered. -/
structure Pristine (plat : Platform) : Prop where
  noDefs : plat.world.catalogue.roleDefs = []
  plain : ∀ tid, Plain (plat.world.tenants tid)

theorem Pristine.quiet {plat : Platform} (pristine : Pristine plat) :
    Quiet plat.existing plat.world where
  tidy := fun tid => tidy_of_no_module_roles (pristine.plain tid)
  silent := fun tid _ df _ _ => (pristine.plain tid).not_offers df

end TangraAuth.Authz
