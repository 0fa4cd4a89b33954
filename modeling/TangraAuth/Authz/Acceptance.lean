import TangraAuth.Accounts.Steps
import TangraAuth.Authz.RetiredRoles
import TangraAuth.Authz.Retry

/-!
Contract: an invitation from the request that makes it to its acceptance.

Owns: the checks at its creation, the transaction that redeems it with the
write of tuples after the commit, when that succeeds, and what a failed
acceptance leaves.

Does not own: the password's hash, names, mails and audit events.
-/

namespace TangraAuth.Authz

open Library Store Accounts

/-- Clock, tenants and invitations are those of `accounts`, the users of a tenant those of its
mirror. -/
structure Records (H E : Type) where
  accounts : Shared H E
  tenants : TenantID → State

variable {H E : Type} [DecidableEq H]

/-! ### Creation -/

def groupsMax : Nat := 50

/-- `mayAssign` is the answer of the escalation check. -/
def checkGrants (tb : Tables) (mayAssign : Bool) (rids : List RoleID)
    (groupIDs : List GroupID) : Bool :=
  groupIDs.length ≤ groupsMax && (tb.rolesByID rids).isSome
    && groupIDs.all (fun id => (tb.group id).isSome) && mayAssign

/-- No result where no invitation is made. -/
def createWith (ht : Token → H) (records : Records H E) (tid : TenantID)
    (email : Email) (mayAssign : Bool) (id : InvitationID) (tok : Token)
    (rids : List RoleID) (groupIDs : List GroupID) : Option (Records H E) :=
  let here := records.tenants tid
  if checkGrants here.mirror.toTables mayAssign rids groupIDs then
    let accounts := records.accounts.apply
      (newInvitation ht records.accounts tid email id tok rids groupIDs)
    match here.mirror.userByEmail email with
    | none => some { records with accounts := accounts }
    | some u =>
      match u.status with
      | .invited => some { records with accounts := accounts }
      | .imported =>
        let activated := here.mirror.updateUserStatus u.id .invited
        some ⟨accounts, Function.update records.tenants tid { here with mirror := activated }⟩
      | .active | .deactivated => none
  else none

/-! ### Acceptance -/

/-- The transaction is rolled back, or the write of tuples after its commit stops. A commit
whose answer is lost leaves what a write without requests does. -/
inductive AcceptFault where
  | rolledBack
  | write (requests : Nat)

inductive AcceptError where
  | invalidToken
  | policy
  | refused (refusal : Refusal)
  | unavailable

def Records.planAccept (records : Records H E) (inv : Invitation H)
    (nid : UserID) (addedAt : Int) : Planned :=
  Authz.planAccept (records.tenants inv.tenantID).mirror
    ⟨inv.email, inv.roleIDs, inv.groupIDs⟩ nid addedAt

/-- The commit and the write after it. -/
def Records.settle (records : Records H E) (inv : Invitation H) (plan : Plan)
    (fault : Option Nat) : Except AcceptError Unit × Records H E :=
  let written := execute (.ok plan) fault (records.tenants inv.tenantID)
  (written.1.mapError .refused,
    { accounts := records.accounts.apply (.markInvitationAccepted inv.id)
      tenants := Function.update records.tenants inv.tenantID written.2 })

def accept (ht : Token → H) (records : Records H E) (tok : Token)
    (pw : Password) (nid : UserID) (addedAt : Int) (fault : Option AcceptFault) :
    Except AcceptError Unit × Records H E :=
  if plausibleToken tok = false then (.error .invalidToken, records)
  else
    match redeemable records.accounts (ht tok) with
    | none => (.error .invalidToken, records)
    | some (inv, pol) =>
      match check pol pw, records.planAccept inv nid addedAt with
      | .error _, _ => (.error .policy, records)
      | .ok (), .error (refusal, _) => (.error (.refused refusal), records)
      | .ok (), .ok plan =>
        match fault with
        | some .rolledBack => (.error .unavailable, records)
        | some (.write requests) => records.settle inv plan (some requests)
        | none => records.settle inv plan none

/-! ### When the transaction passes -/

/-- The roles of the invitation are all there, those not retired are named once, and the
address has no account or an invited one. -/
structure Acceptable (tb : Tables) (invited : Invited) : Prop where
  roles : ∃ all, tb.rolesByID invited.roleIDs = some all
    ∧ ((all.filter fun r => !r.retired).map Role.id).Nodup
  account : ∀ u, tb.userByEmail invited.email = some u → u.status = .invited

variable {m : Mirror} {uid nid : UserID} {addedAt : Int} {invited : Invited}

theorem joinGroups_total (groups : List GroupID) (known : uid ∈ m.users.map Account.id) :
    ∃ entered, joinGroups uid addedAt groups m = some entered := by
  induction groups generalizing m with
  | nil => exact ⟨_, rfl⟩
  | cons gid rest ih =>
    rw [joinGroups]
    split
    case h_1 => exact ih known
    case h_2 group found =>
      have isGroup : gid ∈ m.groups.map Group.id :=
        List.mem_map.mpr ⟨group, List.mem_of_find?_eq_some found,
          by simpa using List.find?_some found⟩
      split
      case h_1 refused =>
        unfold Mirror.addGroupMember checked at refused
        grind
      case h_2 count next added =>
        have users : next.users = m.users := by
          rcases Mirror.addGroupMember_eq_some added with ⟨-, -, rfl⟩ | ⟨-, -, -, inserted⟩
          · rfl
          · rw [inserted]
            rfl
        obtain ⟨entered, joined⟩ := ih (users ▸ known)
        exact ⟨_, congrArg (Option.map _) joined⟩

theorem acceptAccount_known {opened : Mirror}
    (acc : acceptAccount m invited nid = .ok (opened, uid)) :
    uid ∈ opened.users.map Account.id := by
  cases acceptAccount_sound acc with
  | inserted fresh rs =>
    rw [rs]
    simp [Tables.insertUser]
  | activated mem =>
    rw [Mirror.updateUserStatus, Tables.updateUserStatus_ids]
    exact List.mem_map_of_mem mem

theorem planAccept_iff (fresh : nid ∉ m.users.map Account.id) :
    (∃ plan, planAccept m invited nid addedAt = .ok plan) ↔ Acceptable m.toTables invited := by
  constructor
  · rintro ⟨plan, planned⟩
    obtain ⟨opened, uid, all, bound, next, joined, acc, found, replaced, -⟩ :=
      planAccept_eq_ok planned
    rw [rolesByID_congr (acceptAccount_links acc).1] at found
    refine ⟨⟨all, found, (checked_eq_some replaced).1.1⟩, fun u held => ?_⟩
    unfold acceptAccount at acc
    rw [held] at acc
    cases status : u.status with
    | invited => rfl
    | _ => simp [status] at acc
  · rintro ⟨⟨all, found, once⟩, acc⟩
    obtain ⟨opened, uid, opening⟩ : ∃ opened uid,
        acceptAccount m invited nid = .ok (opened, uid) := by
      unfold acceptAccount
      cases held : m.userByEmail invited.email with
      | none => simp [Mirror.insertUser, checked, fresh]
      | some u => simp [acc u held]
    rw [← rolesByID_congr (acceptAccount_links opening).1] at found
    have known := acceptAccount_known opening
    obtain ⟨bound, replaced⟩ : ∃ bound, opened.replaceBindings uid
        ((all.filter fun r => !r.retired).map Role.id) = some bound := by
      refine checked_isSome ⟨once, fun _ => known, fun id named => ?_⟩
      obtain ⟨r, kept, rfl⟩ := List.mem_map.mp named
      exact List.mem_map_of_mem ((Tables.rolesByID_eq_some found).2 r (List.mem_of_mem_filter kept))
    have users : bound.users = opened.users := by
      rw [(checked_eq_some replaced).2]
      rfl
    obtain ⟨entered, joined⟩ := @joinGroups_total bound uid addedAt invited.groupIDs (users ▸ known)
    unfold planAccept
    simp only [opening, found, replaced, joined]
    exact ⟨_, rfl⟩

/-! ### Success -/

/-- The token opens the invitation, and the password is good enough. -/
structure Redeems (ht : Token → H) (records : Records H E) (tok : Token)
    (pw : Password) (inv : Invitation H) : Prop where
  genuine : plausibleToken tok = true
  opens : ∃ pol, redeemable records.accounts (ht tok) = some (inv, pol) ∧ check pol pw = .ok ()

def Records.Acceptable (records : Records H E) (inv : Invitation H) : Prop :=
  Authz.Acceptable (records.tenants inv.tenantID).mirror.toTables
    ⟨inv.email, inv.roleIDs, inv.groupIDs⟩

def Records.Fresh (records : Records H E) (nid : UserID) : Prop :=
  ∀ tid, nid ∉ (records.tenants tid).mirror.users.map Account.id

variable {ht : Token → H} {records : Records H E} {tok : Token}
  {pw : Password} {inv : Invitation H}

/-- What is left once the token is redeemed. -/
theorem accept_redeemed (redeems : Redeems ht records tok pw inv) (fault : Option AcceptFault) :
    accept ht records tok pw nid addedAt fault
      = match records.planAccept inv nid addedAt, fault with
        | .error (refusal, _), _ => (.error (.refused refusal), records)
        | .ok _, some .rolledBack => (.error .unavailable, records)
        | .ok plan, some (.write requests) => records.settle inv plan (some requests)
        | .ok plan, none => records.settle inv plan none := by
  obtain ⟨genuine, pol, found, strong⟩ := redeems
  unfold accept
  simp only [genuine, found, strong]
  grind

theorem settle_ok {plan : Plan} (planned : records.planAccept inv nid addedAt = .ok plan) :
    (records.settle inv plan none).1 = .ok () := by
  obtain ⟨_, _, _, _, _, _, -, -, -, -, rfl⟩ := planAccept_eq_ok planned
  simp [Records.settle, execute, writeWith_none, Plan.mirrorFirst, Except.mapError]

/-- An open invitation is accepted with a good password exactly if its roles are all there, the
current ones named once, and the address has not got an account by other means. -/
theorem accept_succeeds_iff (fresh : records.Fresh nid) (redeems : Redeems ht records tok pw inv) :
    (accept ht records tok pw nid addedAt none).1 = .ok () ↔ records.Acceptable inv := by
  rw [accept_redeemed redeems, Records.Acceptable, ← @planAccept_iff _ nid addedAt _ (fresh _)]
  show _ ↔ ∃ plan, records.planAccept inv nid addedAt = .ok plan
  cases planned : records.planAccept inv nid addedAt with
  | error refusal => simp
  | ok plan => simp [settle_ok planned]

namespace Sample

/-- The invitation of a new address to a role, in a tenant with the custom role 10. -/
def inviting (roleIDs : List RoleID) : Option (Records (List UInt8) (List UInt8)) := do
  let here ← step tenant (.createRole owner 10 "team" true [])
  createWith Accounts.Sample.hashToken ⟨(Accounts.Sample.pool false []).shared, fun _ => here⟩
    1 5 true 1 [1] roleIDs []

end Sample

theorem member_invitation_accepted : ∃ made, Sample.inviting [3, 10] = some made
      ∧ (accept Accounts.Sample.hashToken made [1] Accounts.Sample.newPassword 9 0 none).1
        = .ok () := by
  obtain ⟨made, isMade, inv, redeems, acceptable, fresh⟩ : ∃ made,
      Sample.inviting [3, 10] = some made
        ∧ ∃ inv, Redeems Accounts.Sample.hashToken made [1] Accounts.Sample.newPassword inv
          ∧ made.Acceptable inv ∧ made.Fresh 9 :=
    ⟨_, rfl, _, ⟨rfl, _, rfl, rfl⟩, ⟨⟨_, rfl, by decide⟩, fun _ found => nomatch found⟩,
      fun _ => List.not_mem_nil⟩
  exact ⟨made, isMade, (accept_succeeds_iff fresh redeems).mpr acceptable⟩

/-- The role of the invitation is removed before it is accepted. -/
theorem removed_role_blocks_accept : ∃ made removed, Sample.inviting [10] = some made
      ∧ step (made.tenants 1) (.removeRole 10) = some removed
      ∧ (redeemable made.accounts [1]).isSome
      ∧ (accept Accounts.Sample.hashToken { made with tenants := fun _ => removed } [1]
          Accounts.Sample.newPassword 9 0 none).1 = .error (.refused .notFound) :=
  ⟨_, _, rfl, rfl, rfl, rfl⟩

/-! ### What a fault leaves -/

theorem redeemable_settle {plan : Plan} {hash : H} {pol : Tenant.Policy} {fault : Option Nat}
    (found : redeemable records.accounts hash = some (inv, pol)) :
    redeemable (records.settle inv plan fault).2.accounts hash = none := by
  obtain ⟨read, isOpen, unexpired⟩ := redeemable_eq_some found
  have isAcceptable : acceptable records.accounts.now inv.id inv = true := by
    simp [acceptable, isOpen, unexpired]
  have marked : getInvitationByTokenHash (records.settle inv plan fault).2.accounts.invitations hash
      = some { inv with acceptedAt := some records.accounts.now } := by
    refine (find?_updateWhere (by simp) records.accounts.invitations).trans ?_
    rw [getInvitationByTokenHash] at read
    rw [read, Option.map_some, if_pos isAcceptable]
  unfold redeemable
  rw [marked]
  exact if_pos (Or.inl rfl)

/-- The transaction commits, unless a call of it fails. -/
def Passes (ht : Token → H) (records : Records H E) (tok : Token) (pw : Password) : Prop :=
  ∃ inv, Redeems ht records tok pw inv ∧ records.Acceptable inv

theorem accept_blocked (fresh : records.Fresh nid)
    (blocked : ¬Passes ht records tok pw) (fault : Option AcceptFault) :
    (accept ht records tok pw nid addedAt fault).2 = records := by
  unfold accept
  split_ifs with implausible
  · rfl
  · split
    case h_1 => rfl
    case h_2 inv pol found =>
      split
      case h_1 | h_2 => rfl
      case h_3 plan strong planned =>
        refine absurd ⟨inv, ⟨by simpa using implausible, pol, found, strong⟩, ?_⟩ blocked
        exact (planAccept_iff (fresh _)).mp ⟨plan, planned⟩

/-- Nobody became active, and the token redeems as before. -/
def Records.Unmoved (records left : Records H E) (hash : H) : Prop :=
  (∀ tid, ∀ u ∈ (left.tenants tid).mirror.users, u.status = .active →
      u ∈ (records.tenants tid).mirror.users)
    ∧ redeemable left.accounts hash = redeemable records.accounts hash

/-- A failed acceptance moves nothing, unless the transaction passed and the write after its
commit failed. -/
theorem failed_accept_unmoved_iff (fresh : records.Fresh nid) {fault : Option AcceptFault}
    {res : Except AcceptError Unit} {left : Records H E}
    (done : accept ht records tok pw nid addedAt fault = (res, left))
    (failed : res ≠ .ok ()) :
    records.Unmoved left (ht tok) ↔ ¬((∃ requests, fault = some (.write requests))
        ∧ Passes ht records tok pw) := by
  have same : records = left → records.Unmoved left (ht tok) := by
    rintro rfl
    exact ⟨fun _ _ mem _ => mem, rfl⟩
  by_cases passes : Passes ht records tok pw
  · obtain ⟨inv, redeems, isAcceptable⟩ := id passes
    obtain ⟨plan, planned⟩ := (@planAccept_iff _ nid addedAt _ (fresh _)).mpr isAcceptable
    have planned : records.planAccept inv nid addedAt = .ok plan := planned
    rw [accept_redeemed redeems, planned] at done
    match fault with
    | none => exact absurd ((congrArg Prod.fst done).symm.trans (settle_ok planned)) failed
    | some .rolledBack => exact iff_of_true (same (congrArg Prod.snd done)) (by simp)
    | some (.write requests) =>
      -- Once the commit is made the token is spent.
      refine iff_of_false (fun unmoved => ?_) fun spared => spared ⟨⟨requests, rfl⟩, passes⟩
      obtain ⟨-, pol, found, -⟩ := redeems
      have isLeft : (records.settle inv plan (some requests)).2 = left :=
        congrArg Prod.snd done
      have spent := unmoved.2
      rw [← isLeft, redeemable_settle found, found] at spent
      cases spent
  · have isLeft := (accept_blocked fresh passes fault).symm.trans (congrArg Prod.snd done)
    exact iff_of_true (same isLeft) fun both => passes both.2

/-- A failing transaction, rolled back. -/
theorem rolled_back_accept_unmoved : ∃ made left, Sample.inviting [3] = some made
      ∧ accept Accounts.Sample.hashToken made [1] Accounts.Sample.newPassword 9 0
          (some .rolledBack) = (.error .unavailable, left)
      ∧ made.Unmoved left [1] := by
  obtain ⟨made, left, isMade, done, fresh⟩ : ∃ made left, Sample.inviting [3] = some made
      ∧ accept Accounts.Sample.hashToken made [1] Accounts.Sample.newPassword 9 0
          (some .rolledBack) = (.error .unavailable, left) ∧ made.Fresh 9 :=
    ⟨_, _, rfl, rfl, fun _ => List.not_mem_nil⟩
  exact ⟨made, left, isMade, done, (failed_accept_unmoved_iff fresh done (by simp)).mpr (by simp)⟩

/-- The write fails after the commit: an error, an active account and a spent token. -/
theorem failed_write_spends_token : ∃ made left, Sample.inviting [3] = some made
      ∧ accept Accounts.Sample.hashToken made [1] Accounts.Sample.newPassword 9 0
          (some (.write 0)) = (.error (.refused .writeFailed), left)
      ∧ ⟨9, 5, .active⟩ ∈ (left.tenants 1).mirror.users ∧ ¬made.Unmoved left [1] := by
  refine ⟨_, _, rfl, rfl, by decide, fun unmoved => ?_⟩
  have spent : false = true := congrArg Option.isSome unmoved.2
  cases spent

end TangraAuth.Authz
