import TangraAuth.Accounts.Flows

/-!
Contract: what one action of each flow and each event can do, said once.

Owns: for every kind of flow a relation with one case for each outcome of an
action, the same for events, and the proofs that the definitions take no other
step. The invariants of this development are proved over these relations and
do not look at the flows again.

Does not own: the invariants.
-/

namespace TangraAuth.Accounts

open Library Store

variable {H E : Type}

/-- Calls that only move counters and locks, or drop a challenge. -/
def Effect.Idle : Effect H E → Prop
  | .count _ _ => True
  | .refuse _ _ _ => True
  | .clearFailures _ => True
  | .delChallenge _ => True
  | _ => False

def AllIdle (effs : List (Effect H E)) : Prop :=
  ∀ eff ∈ effs, eff.Idle

@[simp] theorem allIdle_nil : AllIdle ([] : List (Effect H E)) := by
  simp [AllIdle]

@[simp] theorem allIdle_singleton (eff : Effect H E) : AllIdle [eff] ↔ eff.Idle := by
  simp [AllIdle]

section

variable (hs : Hashing E) (ht : Token → H) (sh : Shared H E)

/-! ### Sign-in -/

/-- The outcomes of one action of `Start`. -/
inductive SigninStep :
    SigninFlow E → List (Effect H E) → Option (SigninFlow E) → Prop
  | stops (f : SigninFlow E) {effs : List (Effect H E)} :
      AllIdle effs → SigninStep f effs none
  | admitted (input : SigninInput) {effs : List (Effect H E)} :
      AllIdle effs →
      SigninStep (.countIP input) effs (some (.lookup input))
  | noTenant (input : SigninInput) :
      SigninStep (.lookup input) [] (some (.countAccount input none none))
  | tenantRead (input : SigninInput) {tn : Store.Tenant} :
      sh.tenants input.tenantID = some tn →
      SigninStep (.lookup input) [] (some (.user input tn))
  | unknown (input : SigninInput) (tn : Store.Tenant) :
      SigninStep (.user input tn) [] (some (.countAccount input (some tn) none))
  | userRead (input : SigninInput) (tn : Store.Tenant) {u : User E} :
      getUserByEmail sh.users input.tenantID input.email = some u →
      u.status ≠ .imported →
      SigninStep (.user input tn) [] (some (.countAccount input (some tn) (some u)))
  | counted (input : SigninInput) (tn : Store.Tenant) (u : User E)
      {effs : List (Effect H E)} :
      AllIdle effs →
      SigninStep (.countAccount input (some tn) (some u)) effs (some (.locked input tn u))
  | unlocked (input : SigninInput) (tn : Store.Tenant) (u : User E) :
      SigninStep (.locked input tn u) [] (some (.verify input tn u))
  | verified (input : SigninInput) (tn : Store.Tenant) (u : User E)
      {effs : List (Effect H E)} :
      AllIdle effs → (hs.verify input.password u.passwordHash).1 = true →
      tn.status = .active → u.status = .active →
      SigninStep (.verify input tn u) effs (some (.roles input tn u))
  | verifiedWeak (input : SigninInput) (tn : Store.Tenant) (u : User E)
      {effs : List (Effect H E)} :
      AllIdle effs → hs.verify input.password u.passwordHash = (true, true) →
      tn.status = .active → u.status = .active →
      SigninStep (.verify input tn u) effs (some (.rehash input tn u))
  | rehashFailed (input : SigninInput) (tn : Store.Tenant) (u : User E) :
      SigninStep (.rehash input tn u) [] (some (.roles input tn u))
  | rehashed (input : SigninInput) (tn : Store.Tenant) (u : User E) (salt : Nat) :
      SigninStep (.rehash input tn u)
        [.setPassword input.tenantID u.id (hs.hash salt input.password) .rehash]
        (some (.roles input tn u))
  | rolesRead (input : SigninInput) (tn : Store.Tenant) (u : User E)
      (roles : List Slug) :
      SigninStep (.roles input tn u) [] (some (.finish input tn u roles))
  | challenged (input : SigninInput) (tn : Store.Tenant) (u : User E)
      (roles : List Slug) (operator : Bool) (pol : Tenant.Policy) (tok : Token) :
      u.mfaEnabled = true →
      SigninStep (.finish input tn u roles) [.putChallenge (ht tok)
          ⟨input.tenantID, u.id, roles, operator, pol, input.password⟩] none
  | established (input : SigninInput) (tn : Store.Tenant) (u : User E)
      (roles : List Slug) (operator : Bool) (pol : Tenant.Policy) :
      u.mfaEnabled = false →
      SigninStep (.finish input tn u roles)
        [.create ⟨input.tenantID, u.id, roles, ["pwd"], operator, pol, input.password,
          input.begun⟩] none

theorem signinAct_step (choice : Choice) (f : SigninFlow E) :
    SigninStep hs ht sh f (signinAct hs ht sh choice f).1 (signinAct hs ht sh choice f).2 := by
  cases f with
  | countIP input =>
    simp only [signinAct]
    split_ifs
    · exact .admitted input (by simp)
    · exact .stops _ (by simp [Effect.Idle])
    · exact .admitted input (by simp [Effect.Idle])
  | lookup input =>
    simp only [signinAct]
    split
    case h_1 => exact .noTenant input
    case h_2 tn found =>
      exact .tenantRead input (Option.ite_none_left_eq_some.mp found).2
  | user input tn =>
    simp only [signinAct]
    split
    case h_1 => exact .unknown input tn
    case h_2 u found =>
      split_ifs with imported
      · exact .unknown input tn
      · exact .userRead input tn (Option.ite_none_left_eq_some.mp found).2 imported
  | countAccount input tn known =>
    have idle : AllIdle (if choice.fails then [] else
        [.count (.signinAccount (tn.map fun _ => input.tenantID) input.email)
          accountWindow] : List (Effect H E)) := by
      split_ifs <;> simp [Effect.Idle]
    simp only [signinAct]
    by_cases limited : choice.fails = false ∧ accountLimit < (sh.counters.incr sh.now
        (.signinAccount (tn.map fun _ => input.tenantID) input.email) accountWindow).2
    · rw [if_pos limited]
      exact .stops _ idle
    · rw [if_neg limited]
      cases tn with
      | none => exact .stops _ idle
      | some tn =>
        cases known with
        | none => exact .stops _ idle
        | some u => exact .counted input tn u idle
  | locked input tn u =>
    simp only [signinAct]
    split_ifs
    · exact .stops _ (by simp)
    · exact .unlocked input tn u
  | verify input tn u =>
    simp only [signinAct]
    by_cases refused : (hs.verify input.password u.passwordHash).1 = false
        ∨ tn.status ≠ .active ∨ u.status ≠ .active
    · rw [if_pos refused]
      exact .stops _ (by split_ifs <;> simp [Effect.Idle])
    · rw [if_neg refused]
      push Not at refused
      have accepted : (hs.verify input.password u.passwordHash).1 = true := by
        simpa using refused.1
      cases weaker : (hs.verify input.password u.passwordHash).2 with
      | false =>
        simp only [Bool.false_eq_true, if_false]
        exact .verified input tn u (by split_ifs <;> simp [Effect.Idle]) accepted
          refused.2.1 refused.2.2
      | true =>
        simp only [if_true]
        exact .verifiedWeak input tn u (by split_ifs <;> simp [Effect.Idle])
          (Prod.ext accepted weaker) refused.2.1 refused.2.2
  | rehash input tn u =>
    simp only [signinAct]
    split_ifs
    · exact .rehashFailed input tn u
    · exact .rehashed input tn u choice.salt
  | roles input tn u =>
    simp only [signinAct]
    split_ifs
    · exact .stops _ (by simp)
    · exact .rolesRead input tn u choice.roles
  | finish input tn u roles =>
    simp only [signinAct]
    split_ifs with failed enrolled
    · exact .stops _ (by simp)
    · exact .challenged input tn u roles _ _ choice.token enrolled
    · exact .established input tn u roles _ _ (by simpa using enrolled)

/-! ### The second step of a sign-in -/

/-- The outcomes of one action of `complete`. -/
inductive CompletionStep [DecidableEq H] :
    CompletionFlow H → List (Effect H E) → Option (CompletionFlow H) → Prop
  | stops (f : CompletionFlow H) {effs : List (Effect H E)} :
      AllIdle effs → CompletionStep f effs none
  | loaded (challengeID : Token) (begun : Nat) {ch : Challenge} :
      sh.challenges.get sh.now (ht challengeID) = some ch →
      CompletionStep (.pending challengeID begun) [] (some (.locked (ht challengeID) begun ch))
  | unlocked (key : H) (begun : Nat) (ch : Challenge) :
      CompletionStep (.locked key begun ch) [] (some (.verify key begun ch))
  | verified (key : H) (begun : Nat) (ch : Challenge) (method : String) :
      CompletionStep (.verify key begun ch) [] (some (.consume key begun ch method))
  | consumed (key : H) (begun : Nat) (ch : Challenge) (method : String)
      {effs : List (Effect H E)} :
      AllIdle effs →
      CompletionStep (.consume key begun ch method) effs (some (.clear begun ch method))
  | cleared (begun : Nat) (ch : Challenge) (method : String)
      {effs : List (Effect H E)} :
      AllIdle effs →
      CompletionStep (.clear begun ch method) effs (some (.establish begun ch method))
  | established (begun : Nat) (ch : Challenge) (method : String) :
      CompletionStep (.establish begun ch method)
        [.create ⟨ch.tenantID, ch.userID, ch.roles, ["pwd", method],
          ch.operator, ch.policy, ch.presented, begun⟩] none

theorem completionAct_step [DecidableEq H] (choice : Choice) (f : CompletionFlow H) :
    CompletionStep ht sh f (completionAct ht sh choice f).1 (completionAct ht sh choice f).2 := by
  cases f with
  | pending challengeID begun =>
    simp only [completionAct]
    split
    case h_1 => exact .stops _ (by simp)
    case h_2 ch found =>
      exact .loaded challengeID begun (Option.ite_none_left_eq_some.mp found).2
  | locked key begun ch =>
    simp only [completionAct]
    split_ifs
    · exact .stops _ (by simp)
    · exact .unlocked key begun ch
  | verify key begun ch =>
    simp only [completionAct]
    cases choice.secondFactor with
    | none => exact .stops _ (by split_ifs <;> simp [Effect.Idle])
    | some method => exact .verified key begun ch method
  | consume key begun ch method =>
    simp only [completionAct]
    exact .consumed key begun ch method (by split_ifs <;> simp [Effect.Idle])
  | clear begun ch method =>
    simp only [completionAct]
    exact .cleared begun ch method (by split_ifs <;> simp [Effect.Idle])
  | establish begun ch method =>
    simp only [completionAct]
    split_ifs
    · exact .stops _ (by simp)
    · exact .established begun ch method

/-! ### Recovery and password change -/

inductive RequestStep :
    RequestFlow → List (Effect H E) → Option RequestFlow → Prop
  | stops (f : RequestFlow) : RequestStep f [] none
  | tenantRead (tid : TenantID) (email : Email) :
      RequestStep (.tenant tid email) [] (some (.user tid email))
  | userRead (tid : TenantID) (email : Email) {u : User E} :
      getUserByEmail sh.users tid email = some u → u.status = .active →
      RequestStep (.user tid email) [] (some (.insert tid u.id))
  | inserted (tid : TenantID) (uid : UserID) (tok : Token) :
      RequestStep (.insert tid uid) [.insertRecoveryRequest
          ⟨tid, uid, ht tok, sh.now + recoveryLifetime, none⟩] none

theorem requestAct_step (choice : Choice) (f : RequestFlow) :
    RequestStep ht sh f (requestAct ht sh choice f).1 (requestAct ht sh choice f).2 := by
  cases f with
  | tenant tid email =>
    simp only [requestAct]
    split
    case h_1 => exact .stops _
    case h_2 =>
      split_ifs
      · exact .tenantRead tid email
      · exact .stops _
  | user tid email =>
    simp only [requestAct]
    split
    case h_1 => exact .stops _
    case h_2 u found =>
      split_ifs with active
      · exact .userRead tid email (Option.ite_none_left_eq_some.mp found).2 active
      · exact .stops _
  | insert tid uid =>
    simp only [requestAct]
    split_ifs
    · exact .stops _
    · exact .inserted tid uid choice.token

/-- The outcomes of one action of `Recovery.Complete`. A password that is set was checked. -/
inductive RecoveryStep [DecidableEq H] :
    RecoveryFlow H → List (Effect H E) → Option (RecoveryFlow H) → Prop
  | stops (f : RecoveryFlow H) : RecoveryStep f [] none
  | peeked (tok : Token) (next : Password) {req : RecoveryRequest H} :
      peekRecovery sh.recovery sh.now (ht tok) = some req →
      RecoveryStep (.peek tok next) [] (some (.tenant (ht tok) next req))
  | checked (hash : H) (next : Password) (req : RecoveryRequest H) :
      next.length ≤ maxLength →
      RecoveryStep (.tenant hash next req) [] (some (.use hash next req))
  | used (hash : H) (next : Password) (req : RecoveryRequest H) :
      RecoveryStep (.use hash next req) [.useRecoveryRequest hash] (some (.set next req))
  | written (next : Password) (req : RecoveryRequest H) (salt : Nat) :
      RecoveryStep (.set next req)
        [.setPassword req.tenantID req.userID (hs.hash salt next) (.change next)]
        (some (.revoke req))

theorem recoveryAct_step [DecidableEq H] (choice : Choice) (f : RecoveryFlow H) :
    RecoveryStep hs ht sh f (recoveryAct hs ht sh choice f).1
      (recoveryAct hs ht sh choice f).2 := by
  cases f with
  | peek tok next =>
    simp only [recoveryAct]
    split
    case h_1 => exact .stops _
    case h_2 req found =>
      exact .peeked tok next (Option.ite_none_left_eq_some.mp found).2
  | tenant hash next req =>
    simp only [recoveryAct]
    split
    case h_1 => exact .stops _
    case h_2 =>
      split_ifs
      · exact .stops _
      · split
        case h_1 => exact .stops _
        case h_2 pol parsed =>
          split
          case h_1 => exact .stops _
          case h_2 accepted => exact .checked hash next req (check_eq_ok accepted).1
  | use hash next req =>
    simp only [recoveryAct]
    split
    case h_1 => exact .stops _
    case h_2 => exact .used hash next req
  | set next req =>
    simp only [recoveryAct]
    split
    case h_1 => exact .stops _
    case h_2 => exact .written next req choice.salt
  | revoke req => exact .stops _

/-- The outcomes of one action of `Changer.Change`. -/
inductive ChangeStep :
    ChangeFlow → List (Effect H E) → Option ChangeFlow → Prop
  | stops (f : ChangeFlow) : ChangeStep f [] none
  | verified (tid : TenantID) (uid : UserID) (current next : Password)
      {u : User E} :
      getUser sh.users tid uid = some u →
      (hs.verify current u.passwordHash).1 = true →
      ChangeStep (.user tid uid current next) [] (some (.tenant tid uid next))
  | checked (tid : TenantID) (uid : UserID) (next : Password) :
      next.length ≤ maxLength →
      ChangeStep (.tenant tid uid next) [] (some (.set tid uid next))
  | written (tid : TenantID) (uid : UserID) (next : Password) (salt : Nat) :
      ChangeStep (.set tid uid next) [.setPassword tid uid (hs.hash salt next) (.change next)]
        (some (.revoke tid uid))

theorem changeAct_step (choice : Choice) (f : ChangeFlow) :
    ChangeStep hs sh f (changeAct hs sh choice f).1 (changeAct hs sh choice f).2 := by
  cases f with
  | user tid uid current next =>
    simp only [changeAct]
    split
    case h_1 => exact .stops _
    case h_2 u found =>
      split_ifs with accepted
      · exact .verified tid uid current next
          (Option.ite_none_left_eq_some.mp found).2 accepted
      · exact .stops _
  | tenant tid uid next =>
    simp only [changeAct]
    split
    case h_1 => exact .stops _
    case h_2 =>
      split
      case h_1 => exact .stops _
      case h_2 pol parsed =>
        split
        case h_1 => exact .stops _
        case h_2 accepted => exact .checked tid uid next (check_eq_ok accepted).1
  | set tid uid next =>
    simp only [changeAct]
    split
    case h_1 => exact .stops _
    case h_2 => exact .written tid uid next choice.salt
  | revoke tid uid => exact .stops _

/-! ### Administration -/

inductive AdminStep :
    AdminFlow → List (Effect H E) → Option AdminFlow → Prop
  | stops (f : AdminFlow) : AdminStep f [] none
  | found (tid : TenantID) (uid : UserID) {u : User E} :
      getUser sh.users tid uid = some u → u.status ≠ .imported →
      AdminStep (.deactivate tid uid) [] (some (.deactivateOwner tid uid u.status))
  | already (tid : TenantID) (uid : UserID) (status : UserStatus) :
      AdminStep (.deactivateOwner tid uid status) [] (some (.deactivateRevoke tid uid))
  | permitted (tid : TenantID) (uid : UserID) (status : UserStatus) :
      AdminStep (.deactivateOwner tid uid status) [] (some (.deactivateWrite tid uid))
  | deactivated (tid : TenantID) (uid : UserID) :
      AdminStep (.deactivateWrite tid uid) [.updateUserStatus tid uid .deactivated]
        (some (.deactivateRevoke tid uid))
  | foundDeactivated (tid : TenantID) (uid : UserID) {u : User E} :
      getUser sh.users tid uid = some u → u.status = .deactivated →
      AdminStep (.reactivate tid uid) [] (some (.reactivateWrite tid uid))
  | reactivated (tid : TenantID) (uid : UserID) :
      AdminStep (.reactivateWrite tid uid) [.updateUserStatus tid uid .active] none

theorem adminAct_step (choice : Choice) (f : AdminFlow) :
    AdminStep sh f (adminAct sh choice f).1 (adminAct sh choice f).2 := by
  cases f with
  | deactivate tid uid =>
    simp only [adminAct]
    split
    case h_1 => exact .stops _
    case h_2 u found =>
      split_ifs with status
      · exact .stops _
      · exact .found tid uid (Option.ite_none_left_eq_some.mp found).2 status
  | deactivateOwner tid uid status =>
    simp only [adminAct]
    split_ifs
    · exact .stops _
    · exact .already tid uid _
    · exact .permitted tid uid status
  | deactivateWrite tid uid =>
    simp only [adminAct]
    split
    case h_1 => exact .stops _
    case h_2 => exact .deactivated tid uid
  | deactivateRevoke tid uid => exact .stops _
  | reactivate tid uid =>
    simp only [adminAct]
    split
    case h_1 => exact .stops _
    case h_2 u found =>
      split_ifs with status
      · exact .foundDeactivated tid uid (Option.ite_none_left_eq_some.mp found).2
          status
      · exact .stops _
  | reactivateWrite tid uid =>
    simp only [adminAct]
    split_ifs
    · exact .stops _
    · exact .reactivated tid uid

/-! ### All flows -/

/-- The outcomes of one action of any flow. -/
inductive FlowStep [DecidableEq H] :
    Flow H E → List (Effect H E) → Option (Flow H E) → Prop
  | signin {f : SigninFlow E} {effs : List (Effect H E)}
      {rest : Option (SigninFlow E)} : SigninStep hs ht sh f effs rest →
      FlowStep (.signin f) effs (rest.map .signin)
  | completion {f : CompletionFlow H} {effs : List (Effect H E)}
      {rest : Option (CompletionFlow H)} : CompletionStep ht sh f effs rest →
      FlowStep (.completion f) effs (rest.map .completion)
  | request {f : RequestFlow} {effs : List (Effect H E)}
      {rest : Option RequestFlow} : RequestStep ht sh f effs rest →
      FlowStep (.request f) effs (rest.map .request)
  | recovery {f : RecoveryFlow H} {effs : List (Effect H E)}
      {rest : Option (RecoveryFlow H)} :
      RecoveryStep hs ht sh f effs rest →
      FlowStep (.recovery f) effs (rest.map .recovery)
  | change {f : ChangeFlow} {effs : List (Effect H E)}
      {rest : Option ChangeFlow} : ChangeStep hs sh f effs rest →
      FlowStep (.change f) effs (rest.map .change)
  | admin {f : AdminFlow} {effs : List (Effect H E)}
      {rest : Option AdminFlow} : AdminStep sh f effs rest →
      FlowStep (.admin f) effs (rest.map .admin)

theorem flowAct_step [DecidableEq H] (choice : Choice) (f : Flow H E) :
    FlowStep hs ht sh f (flowAct hs ht sh choice f).1 (flowAct hs ht sh choice f).2 := by
  cases f with
  | signin f => exact .signin (signinAct_step hs ht sh choice f)
  | completion f => exact .completion (completionAct_step ht sh choice f)
  | request f => exact .request (requestAct_step ht sh choice f)
  | recovery f => exact .recovery (recoveryAct_step hs ht sh choice f)
  | change f => exact .change (changeAct_step hs sh choice f)
  | admin f => exact .admin (adminAct_step sh choice f)

end

/-! ### Events -/

variable {sh : Shared H E}

theorem redeemable_eq_some [DecidableEq H] {hash : H} {inv : Invitation H}
    {pol : Tenant.Policy} (found : redeemable sh hash = some (inv, pol)) :
    getInvitationByTokenHash sh.invitations hash = some inv
      ∧ inv.outstanding = true ∧ sh.now < inv.expiresAt := by
  unfold redeemable at found
  split at found
  case h_1 => cases found
  case h_2 held read =>
    by_cases refused : held.outstanding = false ∨ held.expiresAt ≤ sh.now
    · rw [if_pos refused] at found
      cases found
    · rw [if_neg refused] at found
      push Not at refused
      have isHeld : held = inv := by
        split at found
        case h_1 => cases found
        case h_2 tn isT =>
          split_ifs at found
          split at found
          case h_1 => cases found
          case h_2 => exact congrArg Prod.fst (Option.some.inj found)
      subst isHeld
      exact ⟨read, by simpa using refused.1, refused.2⟩

section

variable (hs : Hashing E) (ht : Token → H) (sh : Shared H E)

/-- The outcomes of one event. -/
inductive EventStep [DecidableEq H] : Event → List (Effect H E) → Prop
  | advance (duration : Nat) :
      EventStep (.advance duration) [.advance duration]
  | reset (tid : TenantID) (email : Email) (invID : InvitationID) (tok : Token)
      (rids : List RoleID) {u : User E} :
      getUserByEmail sh.users tid email = some u →
      resettable tid u.id u = true → freshInvitation sh invID = true →
      EventStep (.resetUser tid email invID tok rids)
        [.resetCredentials tid u.id, .revokePendingInvitations tid u.email,
          .insertInvitation ⟨invID, tid, u.email, rids, [], ht tok,
            sh.now + resetInvitationLifetime, none, none⟩]
  | acceptNew (tok : Token) (pw : Password) (salt : Nat) (nid : UserID)
      {inv : Invitation H} {pol : Tenant.Policy} :
      redeemable sh (ht tok) = some (inv, pol) →
      pw.length ≤ maxLength → freshUser sh nid = true →
      EventStep (.accept tok pw salt nid) [.insertUser ⟨nid, inv.tenantID, inv.email, .active,
            some (hs.hash salt pw), false⟩,
          .markInvitationAccepted inv.id]
  | acceptInvited (tok : Token) (pw : Password) (salt : Nat) (nid : UserID)
      {inv : Invitation H} {pol : Tenant.Policy} {u : User E} :
      redeemable sh (ht tok) = some (inv, pol) →
      pw.length ≤ maxLength →
      getUserByEmail sh.users inv.tenantID inv.email = some u →
      u.status = .invited →
      EventStep (.accept tok pw salt nid)
        [.setPassword inv.tenantID u.id (hs.hash salt pw) .initial,
          .updateUserStatus inv.tenantID u.id .active,
          .markInvitationAccepted inv.id]
  | refused (event : Event) : EventStep event []
  | invited (event : Event) {inv : Invitation H} :
      freshInvitation sh inv.id = true →
      EventStep event [.insertInvitation inv]
  | activated (event : Event) {inv : Invitation H} {tid : TenantID}
      {u : User E} :
      freshInvitation sh inv.id = true → u ∈ sh.users.rows →
      u.tenantID = tid → u.status = .imported →
      EventStep event [.insertInvitation inv, .updateUserStatus tid u.id .invited]
  | resent (event : Event) (tid : TenantID) (id : InvitationID) (hash : H)
      (expiresAt : Int) :
      EventStep event [.rotateInvitationToken tid id hash expiresAt]
  | imported (tid : TenantID) (uid : UserID) (email : Email) :
      EventStep (.importUser tid uid email) [.insertUser ⟨uid, tid, email, .imported, none, false⟩]
  | refreshed (tid : TenantID) (uid : UserID) (email : Email) :
      EventStep (.refreshImported tid uid email) [.updateImportedUser tid uid email]
  | removed (tid : TenantID) (uid : UserID) :
      EventStep (.removeImported tid uid) [.deleteImportedUser tid uid]
  | mfaSet (tid : TenantID) (uid : UserID) (enabled : Bool) :
      EventStep (.setMFA tid uid enabled) [.setMFA tid uid enabled]
  | tenantPut (event : Event) (tid : TenantID) (tn : Store.Tenant) :
      (∀ pre, sh.tenants tid = some pre → pre.status = .active →
        tn.status ≠ .active → event = .suspend tid) →
      EventStep event [.putTenant tid tn]

end

variable {hs : Hashing E} {ht : Token → H}
  {effs : List (Effect H E)}

theorem acceptEffects_step [DecidableEq H] {tok : Token} {pw : Password} {salt : Nat}
    {nid : UserID} (commits : acceptEffects hs ht sh tok pw salt nid = some effs) :
    EventStep hs ht sh (.accept tok pw salt nid) effs := by
  unfold acceptEffects at commits
  by_cases implausible : plausibleToken tok = false
  · rw [if_pos implausible] at commits
    cases commits
  · rw [if_neg implausible] at commits
    split at commits
    case h_1 => cases commits
    case h_2 inv pol found =>
      split at commits
      case h_1 => cases commits
      case h_2 accepted =>
        dsimp only at commits
        split at commits
        case h_1 =>
          split_ifs at commits with fresh
          cases commits
          exact .acceptNew tok pw salt nid found (check_eq_ok accepted).1 fresh
        case h_2 u read =>
          split_ifs at commits with status
          cases commits
          exact .acceptInvited tok pw salt nid found (check_eq_ok accepted).1 read status

theorem resetEffects_step [DecidableEq H] (hs : Hashing E) {tid : TenantID}
    {email : Email} {invID : InvitationID} {tok : Token} {rids : List RoleID}
    (commits : resetEffects ht sh tid email invID tok rids = some effs) :
    EventStep hs ht sh (.resetUser tid email invID tok rids)
      effs := by
  unfold resetEffects at commits
  split at commits
  case h_1 => cases commits
  case h_2 =>
    split at commits
    case h_1 => cases commits
    case h_2 u found =>
      split_ifs at commits with allowed
      cases commits
      exact .reset tid email invID tok rids found allowed.1 allowed.2

variable {event : Event}

theorem eventEffects_step [DecidableEq H] (commits : eventEffects hs ht sh event = some effs) :
    EventStep hs ht sh event effs := by
  cases event with
  | advance duration =>
    cases commits
    exact .advance duration
  | resetUser tid email invID tok rids =>
    exact resetEffects_step hs commits
  | accept tok pw salt nid => exact acceptEffects_step commits
  | invite tid email invID tok rids groupIDs =>
    simp only [eventEffects] at commits
    split_ifs at commits with fresh
    split at commits
    case h_1 =>
      cases commits
      exact .invited _ fresh
    case h_2 u found =>
      have read := getUserByEmail_eq_some found
      cases status : u.status with
      | imported =>
        rw [status] at commits
        cases commits
        exact .activated _ fresh read.1 read.2.1 status
      | invited =>
        rw [status] at commits
        cases commits
        exact .invited _ fresh
      | active | deactivated =>
        rw [status] at commits
        cases commits
        exact .refused _
  | activate tid uid invID tok rids groupIDs =>
    simp only [eventEffects] at commits
    split_ifs at commits with fresh
    split at commits
    case h_1 => cases commits
    case h_2 u found =>
      have read := getUser_eq_some found
      split_ifs at commits with status
      cases commits
      exact .activated _ fresh read.1 read.2.1 status
  | resend tid invID tok =>
    simp only [eventEffects] at commits
    split at commits
    case h_1 => cases commits
    case h_2 =>
      split_ifs at commits
      cases commits
      exact .resent _ _ _ _ _
  | importUser tid uid email =>
    simp only [eventEffects] at commits
    split_ifs at commits
    cases commits
    exact .imported tid uid email
  | refreshImported tid uid email =>
    simp only [eventEffects] at commits
    split_ifs at commits
    cases commits
    exact .refreshed tid uid email
  | removeImported tid uid =>
    cases commits
    exact .removed tid uid
  | setMFA tid uid enabled =>
    cases commits
    exact .mfaSet tid uid enabled
  | createTenant tid =>
    simp only [eventEffects] at commits
    split at commits
    case h_1 =>
      cases commits
      exact .tenantPut _ _ _ (fun _ _ _ suspended => absurd rfl suspended)
    case h_2 => cases commits
  | suspend tid =>
    simp only [eventEffects] at commits
    split at commits
    case h_1 => cases commits
    case h_2 =>
      split_ifs at commits
      cases commits
      exact .tenantPut _ _ _ (fun _ _ _ _ => rfl)
  | reactivateTenant tid =>
    simp only [eventEffects] at commits
    split at commits
    case h_1 => cases commits
    case h_2 =>
      cases commits
      exact .tenantPut _ _ _ (fun _ _ _ suspended => absurd rfl suspended)
  | updatePolicy tid pol =>
    simp only [eventEffects] at commits
    split at commits
    case h_1 => cases commits
    case h_2 tn found =>
      split at commits
      case h_1 => cases commits
      case h_2 accepted parsed =>
        cases commits
        refine .tenantPut _ _ _ ?_
        grind

/-! ### The program -/

theorem program_act [DecidableEq H] {post : Shared H E} {f : Flow H E}
    {choice : Choice} {rest : Option (Flow H E)}
    (acted : (program hs ht).act sh f choice = some (post, rest)) :
    ∃ effs, FlowStep hs ht sh f effs rest ∧ post = sh.applyAll effs := by
  grind [flowAct_step, program]

theorem program_environment [DecidableEq H] {post : Shared H E}
    (moved : (program hs ht).environment sh event = some post) :
    ∃ effs, EventStep hs ht sh event effs ∧ post = sh.applyAll effs := by
  obtain ⟨effs, commits, isAfter⟩ := Option.map_eq_some_iff.mp moved
  exact ⟨effs, eventEffects_step commits, isAfter.symm⟩

theorem EventStep.creates_none [DecidableEq H]
    (step : EventStep hs ht sh event effs) (creation : Creation) :
    .create creation ∉ effs := by
  cases step <;> simp

/-- A session appears in a step only by an action that creates it. -/
theorem act_of_created [DecidableEq H]
    {pre post : Pool (Shared H E) (Flow H E)}
    {move : Move (Flow H E) Choice Event} {creation : Creation}
    (taken : (program hs ht).step pre move = some post)
    (created : post.shared.created = creation :: pre.shared.created) :
    ∃ slot choice f effs rest, move = .act slot choice ∧ pre.flows slot = some f
      ∧ FlowStep hs ht pre.shared f effs rest
      ∧ .create creation ∈ effs := by
  cases move with
  | spawn slot f =>
    obtain ⟨-, -, rfl⟩ := Program.step_spawn taken
    simp at created
  | drop slot =>
    cases taken
    simp at created
  | act slot choice =>
    obtain ⟨f, sh, rest, held, acted, rfl⟩ := Program.step_act taken
    obtain ⟨effs, step, rfl⟩ := program_act acted
    grind [create_mem_of_created]
  | environment event =>
    obtain ⟨sh, moved, rfl⟩ := Program.step_environment taken
    obtain ⟨effs, step, rfl⟩ := program_environment moved
    exact absurd (create_mem_of_created created) (step.creates_none creation)

end TangraAuth.Accounts
