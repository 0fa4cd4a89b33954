import TangraAuth.Authz.Mirror
import TangraAuth.Library.Batches

/-!
Contract: the relation tuples of one tenant and the check the model defines.

Owns: the tuples the service writes, and what `assignee` and `granted` mean
over a set of tuples, as `model.fga` defines them.

Does not own: the rendering of objects as strings, and the tuples that tie a
permission to its tenant, which no check here reads.
-/

namespace TangraAuth.Authz

open Store Accounts

inductive TenantRelation where
  | owner
  | admin
  | member
deriving DecidableEq, Repr

inductive Tuple where
  | membership (rel : TenantRelation) (uid : UserID)
  | roleTenant (s : Slug)
  | roleAssignment (s : Slug) (uid : UserID)
  | groupTenant (gid : GroupID)
  | groupMembership (gid : GroupID) (uid : UserID)
  | groupRole (gid : GroupID) (s : Slug)
  | grant (s : Slug) (p : Permission)
deriving DecidableEq, Repr

def maxTuplesPerWrite : Nat := 100

/-! ### Checks -/

/-- `define assignee: [user, group#member]`, the second alternative at one tuple. -/
def Tuple.assigns (ts : Finset Tuple) (uid : UserID) (s : Slug) : Tuple → Bool
  | .groupRole gid other => other == s && decide (.groupMembership gid uid ∈ ts)
  | _ => false

def Assignee (ts : Finset Tuple) (uid : UserID) (s : Slug) : Prop :=
  .roleAssignment s uid ∈ ts ∨ ∃ t ∈ ts, t.assigns ts uid s

instance (ts : Finset Tuple) (uid : UserID) (s : Slug) :
    Decidable (Assignee ts uid s) :=
  inferInstanceAs (Decidable (_ ∨ _))

/-- `define granted: [role#assignee]`, at one tuple. -/
def Tuple.grants (ts : Finset Tuple) (uid : UserID) (p : Permission) : Tuple → Bool
  | .grant s other => other == p && decide (Assignee ts uid s)
  | _ => false

def Granted (ts : Finset Tuple) (uid : UserID) (p : Permission) : Prop :=
  ∃ t ∈ ts, t.grants ts uid p

instance (ts : Finset Tuple) (uid : UserID) (p : Permission) :
    Decidable (Granted ts uid p) :=
  inferInstanceAs (Decidable (∃ t ∈ ts, _))

variable {ts : Finset Tuple} {uid : UserID}

theorem assignee_iff {s : Slug} : Assignee ts uid s ↔
      .roleAssignment s uid ∈ ts ∨ ∃ gid, .groupRole gid s ∈ ts
            ∧ .groupMembership gid uid ∈ ts := by
  apply or_congr_right
  constructor
  · rintro ⟨t, stored, assigns⟩
    cases t with
    | groupRole gid other =>
      simp only [Tuple.assigns, Bool.and_eq_true, beq_iff_eq, decide_eq_true_eq] at assigns
      exact ⟨gid, assigns.1 ▸ stored, assigns.2⟩
    | _ => simp [Tuple.assigns] at assigns
  · rintro ⟨gid, carried, mem⟩
    exact ⟨.groupRole gid s, carried, by simp [Tuple.assigns, mem]⟩

theorem granted_iff {p : Permission} : Granted ts uid p ↔
      ∃ s, .grant s p ∈ ts ∧ Assignee ts uid s := by
  constructor
  · rintro ⟨t, stored, grants⟩
    cases t with
    | grant s other =>
      simp only [Tuple.grants, Bool.and_eq_true, beq_iff_eq, decide_eq_true_eq] at grants
      exact ⟨s, grants.1 ▸ stored, grants.2⟩
    | _ => simp [Tuple.grants] at grants
  · rintro ⟨s, stored, assigned⟩
    exact ⟨.grant s p, stored, by simp [Tuple.grants, assigned]⟩

/-! ### Tuples of the mirror's rows -/

/-- What a directly held role writes; an owner also owns the tenant. -/
def assignmentTuples (uid : UserID) (r : Role) : List Tuple :=
  .roleAssignment r.slug uid :: if r.slug = "owner" then [.membership .owner uid] else []

def groupRoleTuples (gid : GroupID) (r : Role) : List Tuple :=
  [.groupRole gid r.slug]

def grantTuples (s : Slug) (p : Permission) : List Tuple :=
  [.grant s p]

theorem mem_assignmentTuples {r : Role} {t : Tuple} : t ∈ assignmentTuples uid r ↔
      t = .roleAssignment r.slug uid ∨ (r.slug = "owner" ∧ t = .membership .owner uid) := by
  unfold assignmentTuples
  split <;> simp_all

end TangraAuth.Authz
