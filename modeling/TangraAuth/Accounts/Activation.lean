import TangraAuth.Accounts.Steps

/-!
Contract: how a user whom a reset returned to invited can become active again.

Owns: the state a reset leaves behind, which calls in flight can still undo it,
and the result that otherwise only the acceptance of a later invitation
activates the user.

Does not own: the sessions of the user, which the reset treats separately.
-/

namespace TangraAuth.Accounts

open Library Store

variable {H E : Type}

/-- What a reset leaves behind: no password, no usable request, and every invitation of before
spent. `earlier` are the invitations that existed before the reset. -/
structure Cleared (tid : TenantID) (uid : UserID) (email : Email)
    (earlier : List InvitationID) (sh : Shared H E) : Prop where
  present : ∃ u ∈ sh.users.rows, u.tenantID = tid ∧ u.id = uid
  row : ∀ u ∈ sh.users.rows, u.tenantID = tid → u.id = uid →
    (u.status = .invited ∨ u.status = .deactivated) ∧ u.passwordHash = none ∧ u.email = email
  requests : ∀ req ∈ sh.recovery, req.tenantID = tid → req.userID = uid → req.open sh.now = false
  known : ∀ id ∈ earlier, ∃ inv ∈ sh.invitations, inv.id = id
  spent : ∀ inv ∈ sh.invitations, inv.id ∈ earlier → inv.tenantID = tid → inv.email = email →
    inv.outstanding = false

/-- The calls that leave a cleared user cleared. -/
def Harmless (tid : TenantID) (uid : UserID) (earlier : List InvitationID) : Effect H E → Prop
  | .updateUserStatus tn u status =>
    tn = tid → u = uid → status = .invited ∨ status = .deactivated
  | .setPassword tn u _ _ => ¬ (tn = tid ∧ u = uid)
  | .insertRecoveryRequest req =>
    ¬ (req.tenantID = tid ∧ req.userID = uid)
  | .insertInvitation inv => inv.id ∉ earlier
  | _ => True

variable {tid : TenantID} {uid : UserID} {email : Email}
  {earlier : List InvitationID} {sh : Shared H E}

section Cleared

variable (cleared : Cleared tid uid email earlier sh)

include cleared

theorem Cleared.not_active : ¬ IsActive sh tid uid := by
  intro active
  obtain ⟨u, found, status⟩ := active
  have read := getUser_eq_some found
  have row := (cleared.row u read.1 read.2.1 read.2.2).1
  rw [status] at row
  simp at row

/-- Updates that keep the key keep the row clauses when the changed rows meet them. -/
theorem Cleared.update {matching : User E → Bool} {change : User E → User E}
    (keepsID : ∀ u, (change u).id = u.id)
    (keepsTenant : ∀ u, (change u).tenantID = u.tenantID)
    (meets : ∀ u ∈ sh.users.rows, matching u = true → u.tenantID = tid → u.id = uid →
      ((change u).status = .invited ∨ (change u).status = .deactivated)
        ∧ (change u).passwordHash = none ∧ (change u).email = email) :
    Cleared tid uid email earlier
      { sh with users := sh.users.update matching change keepsID } := by
  refine { cleared with present := ?_, row := ?_ }
  · obtain ⟨u, mem, isT, isID⟩ := cleared.present
    refine ⟨_, mem_updateWhere.mpr ⟨u, mem, rfl⟩, ?_⟩
    cases matching u <;> simp [keepsID, keepsTenant, isT, isID]
  grind [row, UserTable.update]

theorem Cleared.note (tn : TenantID) (u : UserID) (purpose : Purpose) :
    Cleared tid uid email earlier (sh.note tn u purpose) :=
  ⟨cleared.present, cleared.row, cleared.requests, cleared.known, cleared.spent⟩

/-- Updates of invitations keep the clauses when they keep ids and addresses and never make a
spent invitation outstanding. -/
theorem Cleared.updateInvitations {matching : Invitation H → Bool}
    {change : Invitation H → Invitation H}
    (keepsID : ∀ inv, (change inv).id = inv.id)
    (keepsTenant : ∀ inv, (change inv).tenantID = inv.tenantID)
    (keepsEmail : ∀ inv, (change inv).email = inv.email)
    (keepsSpent : ∀ inv, inv.outstanding = false → (change inv).outstanding = false) :
    Cleared tid uid email earlier
      { sh with invitations := updateWhere matching change sh.invitations } := by
  refine { cleared with known := ?_, spent := ?_ }
  · intro id mem
    obtain ⟨inv, isMem, isID⟩ := cleared.known id mem
    grind
  grind [spent]

/-- A harmless call leaves a cleared user cleared. -/
theorem Cleared.apply [DecidableEq H] (eff : Effect H E) (harmless : Harmless tid uid earlier eff) :
    Cleared tid uid email earlier (sh.apply eff) := by
  have frame : ∀ {other : Shared H E}, other.users = sh.users →
      other.recovery = sh.recovery → other.invitations = sh.invitations →
      other.now = sh.now → Cleared tid uid email earlier other := by
    intro other users recovery invitations now
    constructor
    · rw [users]; exact cleared.present
    · rw [users]; exact cleared.row
    · rw [recovery, now]; exact cleared.requests
    · rw [invitations]; exact cleared.known
    · rw [invitations]; exact cleared.spent
  cases eff with
  | count counter window | clearFailures u | putChallenge key ch | delChallenge key
  | create creation | putTenant tn val => exact frame rfl rfl rfl rfl
  | refuse u pol ch =>
    simp only [Shared.apply, Shared.refuse]
    grind
  | insertUser u =>
    obtain ⟨held, mem, isT, isID⟩ := cleared.present
    refine { cleared with present := ?_, row := ?_ }
    · refine ⟨held, ?_, isT, isID⟩
      show held ∈ (insertUser sh.users u).rows
      grind [insertUser]
    grind [of_mem_insertUser, row, Shared.apply]
  | updateImportedUser tn u address =>
    apply cleared.update
    · exact fun _ => rfl
    · intro row mem matched isT isID
      have status := (cleared.row row mem isT isID).1
      simp only [isImported, Bool.and_eq_true, beq_iff_eq] at matched
      rw [matched.2] at status
      simp at status
  | deleteImportedUser tn u =>
    obtain ⟨held, mem, isT, isID⟩ := cleared.present
    refine { cleared with present := ⟨held, ?_, isT, isID⟩, row := ?_ }
    · have status := (cleared.row held mem isT isID).1
      refine List.mem_filter.mpr ⟨mem, ?_⟩
      rcases status with status | status <;> simp [isImported, status]
    · intro row rowMem
      exact cleared.row row (List.mem_filter.mp rowMem).1
  | updateUserStatus tn u status =>
    apply cleared.update
    · exact fun _ => rfl
    · intro row mem matched isT isID
      have key := isUser_iff.mp matched
      have pre := cleared.row row mem isT isID
      exact ⟨harmless (key.1.symm.trans isT) (key.2.symm.trans isID), pre.2⟩
  | setPassword tn u encoded purpose =>
    have spared : Cleared tid uid email earlier
        { sh with users := setPassword sh.users tn u encoded } := by
      apply cleared.update
      · exact fun _ => rfl
      · intro row mem matched isT isID
        have key := isUser_iff.mp matched
        exact absurd ⟨key.1.symm.trans isT, key.2.symm.trans isID⟩ harmless
    exact spared.note tn u purpose
  | setMFA tn u enabled =>
    apply cleared.update
    · exact fun _ => rfl
    grind [row]
  | resetCredentials tn u =>
    have reset : Cleared tid uid email earlier
        { sh with users := resetCredentials sh.users tn u } := by
      apply cleared.update
      · exact fun _ => rfl
      · intro row mem matched isT isID
        have pre := cleared.row row mem isT isID
        exact ⟨Or.inl rfl, rfl, pre.2.2⟩
    exact reset.note tn u .initial
  | insertInvitation inv =>
    refine { cleared with known := ?_, spent := ?_ }
    · intro id mem
      obtain ⟨old, oldMem, isID⟩ := cleared.known id mem
      exact ⟨old, List.mem_append_left _ oldMem, isID⟩
    · intro other mem isEarlier
      rcases List.mem_append.mp mem with pre | added
      · exact cleared.spent other pre isEarlier
      · rw [List.mem_singleton.mp added] at isEarlier
        exact absurd isEarlier harmless
  | revokePendingInvitations tn address | markInvitationAccepted id =>
    apply cleared.updateInvitations <;> intro inv
    · rfl
    · rfl
    · rfl
    · simp [Invitation.outstanding]
  | rotateInvitationToken tn id hash expiresAt =>
    apply cleared.updateInvitations <;> intro inv
    · rfl
    · rfl
    · rfl
    · exact fun spent => spent
  | insertRecoveryRequest req =>
    refine { cleared with requests := ?_ }
    intro other mem isT isUser
    rcases List.mem_append.mp mem with pre | added
    · exact cleared.requests other pre isT isUser
    · rw [List.mem_singleton.mp added] at isT isUser
      exact absurd ⟨isT, isUser⟩ harmless
  | useRecoveryRequest hash =>
    refine { cleared with requests := ?_ }
    intro other mem isT isUser
    obtain ⟨old, oldMem, out⟩ := of_mem_updateWhere mem
    grind [requests, Shared.apply]
  | advance duration =>
    refine { cleared with requests := ?_ }
    intro req mem isT isUser
    have closed := cleared.requests req mem isT isUser
    grind [RecoveryRequest.open, Shared.apply]

theorem Cleared.applyAll [DecidableEq H] {effs : List (Effect H E)}
    (harmless : ∀ eff ∈ effs, Harmless tid uid earlier eff) :
    Cleared tid uid email earlier (sh.applyAll effs) :=
  applyAll_preserves (fun _ eff pre allowed => pre.apply eff allowed) harmless cleared

end Cleared

/-! ### Calls in flight -/

/-- The calls already past the check that should have stopped them: each of them still has a
write ahead that makes the user active, or that leaves a request with which to do so. -/
def Restores (hs : Hashing E) (tid : TenantID) (uid : UserID) : Flow H E → Prop
  | .signin (.countAccount input _ (some u)) =>
    input.tenantID = tid ∧ u.id = uid ∧ hs.verify input.password u.passwordHash = (true, true)
  | .signin (.locked input _ u) =>
    input.tenantID = tid ∧ u.id = uid ∧ hs.verify input.password u.passwordHash = (true, true)
  | .signin (.verify input _ u) =>
    input.tenantID = tid ∧ u.id = uid ∧ hs.verify input.password u.passwordHash = (true, true)
  | .signin (.rehash input _ u) => input.tenantID = tid ∧ u.id = uid
  | .request (.insert tn u) => tn = tid ∧ u = uid
  | .recovery (.tenant _ _ req) =>
    req.tenantID = tid ∧ req.userID = uid
  | .recovery (.use _ _ req) => req.tenantID = tid ∧ req.userID = uid
  | .recovery (.set _ req) => req.tenantID = tid ∧ req.userID = uid
  | .change (.tenant tn u _) => tn = tid ∧ u = uid
  | .change (.set tn u _) => tn = tid ∧ u = uid
  | .admin (.reactivateWrite tn u) => tn = tid ∧ u = uid
  | _ => False

/-- The calls are harmless, and the rest of the flow restores nothing. -/
def Quiet (hs : Hashing E) (tid : TenantID) (uid : UserID)
    (earlier : List InvitationID) (effs : List (Effect H E))
    (rest : Option (Flow H E)) : Prop :=
  (∀ eff ∈ effs, Harmless tid uid earlier eff)
    ∧ ∀ next, rest = some next → ¬ Restores hs tid uid next

section Quiet

variable {hs : Hashing E} {ht : Token → H}
  {effs : List (Effect H E)}

theorem Effect.Idle.harmless {eff : Effect H E} (idle : eff.Idle) :
    Harmless tid uid earlier eff := by
  cases eff <;> trivial

theorem AllIdle.harmless (idle : AllIdle effs) : ∀ eff ∈ effs, Harmless tid uid earlier eff :=
  fun eff mem => (idle eff mem).harmless

/-- An action that only reads leaves its flow quiet when the next point is. -/
theorem quiet_of_next {next : Flow H E} (idle : AllIdle effs) (calm : ¬ Restores hs tid uid next) :
    Quiet hs tid uid earlier effs (some next) := by
  grind [AllIdle.harmless, Quiet]

theorem quiet_of_end (harmless : ∀ eff ∈ effs, Harmless tid uid earlier eff) :
    Quiet hs tid uid earlier effs none := by
  refine ⟨harmless, ?_⟩
  intro other isOther
  cases isOther

variable (cleared : Cleared tid uid email earlier sh)

include cleared

/-- A read of the user's row finds no password, so nothing verifies against it. -/
theorem Cleared.verify_read {u : User E} (mem : u ∈ sh.users.rows)
    (isT : u.tenantID = tid) (isID : u.id = uid) (pw : Password) :
    hs.verify pw u.passwordHash = (false, false) := by
  rw [(cleared.row u mem isT isID).2.1]
  rfl

theorem SigninStep.quiet {f : SigninFlow E} {rest : Option (SigninFlow E)}
    (step : SigninStep hs ht sh f effs rest)
    (calm : ¬ Restores hs tid uid (.signin f : Flow H E)) :
    Quiet hs tid uid earlier effs (rest.map .signin) := by
  cases step with
  | stops _ idle => exact quiet_of_end idle.harmless
  | admitted input idle | verified input tn u idle accepted tenantActive userActive =>
    exact quiet_of_next idle (fun restores => restores)
  | noTenant input | tenantRead input found | unknown input tn
  | rehashFailed input tn u | rolesRead input tn u roles =>
    exact quiet_of_next allIdle_nil (fun restores => restores)
  | @userRead input tn u found known =>
    apply quiet_of_next allIdle_nil
    intro restores
    obtain ⟨isT, isID, accepted⟩ := restores
    have read := getUserByEmail_eq_some found
    rw [cleared.verify_read read.1 (read.2.1.trans isT) isID] at accepted
    simp at accepted
  | counted input tn u idle => exact quiet_of_next idle calm
  | unlocked input tn u => exact quiet_of_next allIdle_nil calm
  | verifiedWeak input tn u idle accepted tenantActive userActive =>
    apply quiet_of_next idle
    intro restores
    exact calm ⟨restores.1, restores.2, accepted⟩
  | rehashed input tn u salt =>
    refine ⟨?_, ?_⟩
    · intro eff mem
      rw [List.mem_singleton.mp mem]
      exact calm
    grind [Restores]
  | challenged input tn u roles operator pol tok enrolled
  | established input tn u roles operator pol enrolled =>
    apply quiet_of_end
    intro eff mem
    rw [List.mem_singleton.mp mem]
    trivial

omit cleared in
/-- The second step of a sign-in writes no user and no request. -/
theorem CompletionStep.quiet [DecidableEq H] {f : CompletionFlow H}
    {rest : Option (CompletionFlow H)}
    (step : CompletionStep ht sh f effs rest) :
    Quiet hs tid uid earlier effs (rest.map .completion) := by
  cases step with
  | stops _ idle => exact quiet_of_end idle.harmless
  | loaded challengeID begun found | unlocked key begun ch
  | verified key begun ch method =>
    exact quiet_of_next allIdle_nil (fun restores => restores)
  | consumed key begun ch method idle | cleared begun ch method idle =>
    exact quiet_of_next idle (fun restores => restores)
  | established begun ch method =>
    apply quiet_of_end
    intro eff mem
    rw [List.mem_singleton.mp mem]
    trivial

theorem RequestStep.quiet {f : RequestFlow} {rest : Option RequestFlow}
    (step : RequestStep ht sh f effs rest)
    (calm : ¬ Restores hs tid uid (.request f : Flow H E)) :
    Quiet hs tid uid earlier effs (rest.map .request) := by
  cases step with
  | stops => exact quiet_of_end (by simp)
  | tenantRead tn address => exact quiet_of_next allIdle_nil (fun restores => restores)
  | @userRead tn address u found active =>
    apply quiet_of_next allIdle_nil
    intro restores
    have read := getUserByEmail_eq_some found
    have status := (cleared.row u read.1 (read.2.1.trans restores.1) restores.2).1
    rw [active] at status
    simp at status
  | inserted tn u tok =>
    apply quiet_of_end
    intro eff mem
    rw [List.mem_singleton.mp mem]
    exact calm

theorem RecoveryStep.quiet [DecidableEq H] {f : RecoveryFlow H}
    {rest : Option (RecoveryFlow H)}
    (step : RecoveryStep hs ht sh f effs rest)
    (calm : ¬ Restores hs tid uid (.recovery f : Flow H E)) :
    Quiet hs tid uid earlier effs (rest.map .recovery) := by
  cases step with
  | stops => exact quiet_of_end (by simp)
  | @peeked tok pw req found =>
    apply quiet_of_next allIdle_nil
    intro restores
    have sel := List.find?_some found
    rw [Bool.and_eq_true] at sel
    have closed :=
      cleared.requests req (List.mem_of_find?_eq_some found) restores.1 restores.2
    rw [sel.2] at closed
    cases closed
  | checked hash pw req short => exact quiet_of_next allIdle_nil calm
  | used hash pw req =>
    refine ⟨?_, ?_⟩
    · intro eff mem
      rw [List.mem_singleton.mp mem]
      trivial
    · intro next isNext
      cases isNext
      exact calm
  | written pw req salt =>
    refine ⟨?_, ?_⟩
    · intro eff mem
      rw [List.mem_singleton.mp mem]
      exact calm
    grind [Restores]

theorem ChangeStep.quiet {f : ChangeFlow} {rest : Option ChangeFlow}
    (step : ChangeStep hs sh f effs rest)
    (calm : ¬ Restores hs tid uid (.change f : Flow H E)) :
    Quiet hs tid uid earlier effs (rest.map .change) := by
  cases step with
  | stops => exact quiet_of_end (by simp)
  | @verified tn u current pw row found accepted =>
    apply quiet_of_next allIdle_nil
    intro restores
    have read := getUser_eq_some found
    rw [cleared.verify_read read.1 (read.2.1.trans restores.1)
      (read.2.2.trans restores.2)] at accepted
    simp at accepted
  | checked tn u pw short => exact quiet_of_next allIdle_nil calm
  | written tn u pw salt =>
    refine ⟨?_, ?_⟩
    · intro eff mem
      rw [List.mem_singleton.mp mem]
      exact calm
    grind [Restores]

/-- A flow that `Reactivate`s the user finds them deactivated. -/
def FindsDeactivated (tid : TenantID) (uid : UserID) (sh : Shared H E) (f : Flow H E) : Prop :=
  f = .admin (.reactivate tid uid)
    ∧ ∃ u, getUser sh.users tid uid = some u ∧ u.status = .deactivated

omit cleared in
theorem AdminStep.quiet {f : AdminFlow} {rest : Option AdminFlow} (step : AdminStep sh f effs rest)
    (calm : ¬ Restores hs tid uid (.admin f : Flow H E))
    (unfound : ¬ FindsDeactivated tid uid sh (.admin f)) :
    Quiet hs tid uid earlier effs (rest.map .admin) := by
  cases step with
  | stops => exact quiet_of_end (by simp)
  | found | already | permitted =>
    exact quiet_of_next allIdle_nil (fun restores => restores)
  | deactivated tn u =>
    refine ⟨?_, ?_⟩
    · intro eff mem
      rw [List.mem_singleton.mp mem]
      exact fun _ _ => Or.inr rfl
    grind [Restores]
  | @foundDeactivated tn u row found status =>
    grind [Quiet, Restores, FindsDeactivated]
  | reactivated tn u =>
    apply quiet_of_end
    intro eff mem
    rw [List.mem_singleton.mp mem]
    intro isT isUser
    exact absurd ⟨isT, isUser⟩ calm

theorem FlowStep.quiet [DecidableEq H] {f : Flow H E}
    {rest : Option (Flow H E)}
    (step : FlowStep hs ht sh f effs rest)
    (calm : ¬ Restores hs tid uid f)
    (unfound : ¬ FindsDeactivated tid uid sh f) :
    Quiet hs tid uid earlier effs rest := by
  cases step with
  | signin step | request step | recovery step | change step => exact step.quiet cleared calm
  | completion step => exact step.quiet
  | admin step => exact step.quiet calm unfound

end Quiet

/-! ### Events -/

section Events

variable {hs : Hashing E} {ht : Token → H}
  {effs : List (Effect H E)}

/-- A fresh invitation is none of the earlier ones. -/
theorem Cleared.fresh_later (cleared : Cleared tid uid email earlier sh)
    {id : InvitationID} (fresh : freshInvitation sh id = true) : id ∉ earlier := by
  intro mem
  obtain ⟨inv, isMem, isID⟩ := cleared.known id mem
  have ne := List.all_eq_true.mp fresh inv isMem
  simp [isID] at ne

/-- The event accepts an invitation that is none of the earlier ones. -/
def AcceptsLater [DecidableEq H] (ht : Token → H) (earlier : List InvitationID)
    (sh : Shared H E) (event : Event) : Prop :=
  ∃ tok pw salt nid inv pol, event = .accept tok pw salt nid
      ∧ redeemable sh (ht tok) = some (inv, pol)
      ∧ inv.id ∉ earlier

theorem isActive_updateUserStatus {users : UserTable E} {u : User E} (mem : u ∈ users.rows) :
    ∃ active, getUser (updateUserStatus users u.tenantID u.id .active) u.tenantID
      u.id = some active ∧ active.status = .active := by
  have written : { u with status := .active }
      ∈ (updateUserStatus users u.tenantID u.id .active).rows := by
    refine mem_updateWhere.mpr ⟨u, mem, ?_⟩
    rw [if_pos (isUser_iff.mpr ⟨rfl, rfl⟩)]
  have read := getUser_of_mem written
  exact ⟨_, read, rfl⟩

/-- An event keeps a cleared user cleared, or it accepts a later invitation of the user. -/
theorem EventStep.quiet_or_accepts [DecidableEq H] {event : Event}
    (cleared : Cleared tid uid email earlier sh)
    (step : EventStep hs ht sh event effs) :
    (∀ eff ∈ effs, Harmless tid uid earlier eff) ∨ (AcceptsLater ht earlier sh event
        ∧ IsActive (sh.applyAll effs) tid uid) := by
  cases step with
  | advance duration | acceptNew tok pw salt nid found short fresh
  | resent event tn id hash expiresAt | imported tn u address
  | refreshed tn u address | removed tn u | mfaSet tn u enabled
  | tenantPut event tn val kept => exact Or.inl (by simp [Harmless])
  | reset tn address invID tok rids found allowed fresh =>
    have later := cleared.fresh_later fresh
    exact Or.inl (by simp [Harmless, later])
  | @acceptInvited tok pw salt nid inv pol u found short read invited =>
    have row := getUserByEmail_eq_some read
    by_cases isOurs : inv.tenantID = tid ∧ u.id = uid
    · obtain ⟨isT, isID⟩ := isOurs
      have held := redeemable_eq_some found
      have address := (cleared.row u row.1 (row.2.1.trans isT) isID).2.2
      refine Or.inr ⟨⟨tok, pw, salt, nid, inv, pol, rfl, found, ?_⟩, ?_⟩
      · intro isEarlier
        have spent := cleared.spent inv (List.mem_of_find?_eq_some held.1) isEarlier
          isT (row.2.2.symm.trans address)
        rw [held.2.1] at spent
        cases spent
      · subst isT isID
        have written : withPassword (hs.hash salt pw) u
            ∈ (setPassword sh.users u.tenantID u.id (hs.hash salt pw)).rows := by
          refine mem_updateWhere.mpr ⟨u, row.1, ?_⟩
          rw [if_pos (isUser_iff.mpr ⟨rfl, rfl⟩)]
        have active := isActive_updateUserStatus written
        rw [← row.2.1]
        exact active
    · exact Or.inl (by simpa [Harmless] using isOurs)
  | refused => exact Or.inl (by simp)
  | invited event fresh | activated event fresh mem isT status =>
    grind [Cleared.fresh_later, Harmless]

end Events

/-! ### Runs -/

section Runs

variable [DecidableEq H] (hs : Hashing E) (ht : Token → H)

/-- Nothing issued before is left with which to undo a reset of the user: no open recovery
request, and no call in flight that is already past its check. -/
structure Settled (pl : Pool (Shared H E) (Flow H E))
    (tid : TenantID) (uid : UserID) : Prop where
  requests : ∀ req ∈ pl.shared.recovery, req.tenantID = tid →
    req.userID = uid → req.open pl.shared.now = false
  flows : pl.All fun _ f => ¬ Restores hs tid uid f

/-- The move is a `Reactivate` of the user that finds them deactivated. -/
def Reactivates (tid : TenantID) (uid : UserID) (pl : Pool (Shared H E) (Flow H E))
    (move : Move (Flow H E) Choice Event) : Prop :=
  ∃ slot choice f, move = .act slot choice ∧ pl.flows slot = some f
    ∧ FindsDeactivated tid uid pl.shared f

theorem cleared_of_reset {pl reset : Pool (Shared H E) (Flow H E)}
    {tid : TenantID} {email : Email} {invID : InvitationID} {tok : Token}
    {rids : List RoleID} {u : User E}
    (found : getUserByEmail pl.shared.users tid email = some u)
    (resets : (program hs ht).step pl
      (.environment (.resetUser tid email invID tok rids)) = some reset)
    (settled : Settled hs pl tid u.id) :
    Cleared tid u.id u.email (pl.shared.invitations.map Invitation.id) reset.shared
      ∧ reset.flows = pl.flows := by
  obtain ⟨post, moved, rfl⟩ := Program.step_environment resets
  obtain ⟨effs, commits, rfl⟩ := Option.map_eq_some_iff.mp moved
  change resetEffects ht pl.shared tid email invID tok rids = some effs at commits
  unfold resetEffects at commits
  rw [found] at commits
  split at commits
  case h_1 => cases commits
  case h_2 =>
    dsimp only at commits
    split_ifs at commits with allowed
    cases commits
    refine ⟨?_, rfl⟩
    have read := getUserByEmail_eq_some found
    have fresh := List.all_eq_true.mp allowed.2
    constructor
    · -- the row is still there
      refine ⟨withoutCredentials u, ?_, read.2.1, rfl⟩
      refine mem_updateWhere.mpr ⟨u, read.1, ?_⟩
      rw [if_pos allowed.1]
    · intro row mem isT isID
      obtain ⟨old, oldMem, out⟩ := of_mem_updateWhere mem
      rcases out with ⟨matched, isRow⟩ | ⟨unmatched, isRow⟩
      · subst isRow
        have isOld := eq_of_uniqueKey pl.shared.users.unique oldMem read.1 isID
        rw [isOld]
        exact ⟨Or.inl rfl, rfl, rfl⟩
      · subst isRow
        have isOld := eq_of_uniqueKey pl.shared.users.unique oldMem read.1 isID
        rw [isOld, allowed.1] at unmatched
        cases unmatched
    · exact settled.requests
    · intro id mem
      obtain ⟨inv, isMem, isID⟩ := List.mem_map.mp mem
      refine ⟨_, List.mem_append_left _ (mem_updateWhere.mpr ⟨inv, isMem, rfl⟩), ?_⟩
      rw [← isID]
      split_ifs <;> rfl
    · intro inv mem isEarlier isT isEmail
      rcases List.mem_append.mp mem with pre | added
      · obtain ⟨old, oldMem, out⟩ := of_mem_updateWhere pre
        rcases out with ⟨-, isInvitation⟩ | ⟨unmatched, isInvitation⟩
        · rw [isInvitation]
          simp [Invitation.outstanding]
        grind
      grind

/-- The invariant of the runs after a reset: the user is active again, or still cleared with
nothing in flight to restore them. -/
theorem obligations_of_reset (tid : TenantID) (uid : UserID) (email : Email)
    (earlier : List InvitationID) :
    (program hs ht).Obligations (fun sh => IsActive sh tid uid ∨ Cleared tid uid email earlier sh)
      (fun sh f => IsActive sh tid uid ∨ ¬ Restores hs tid uid f)
      (fun pl move => ¬ IsActive pl.shared tid uid ∧ ¬ Reactivates tid uid pl move) := by
  constructor
  · intro sh f invariant allowed
    refine Or.inr ?_
    intro restores
    cases f with
    | signin f | request f | recovery f | change f | admin f =>
      cases f <;> first | exact restores | cases allowed
    | completion f => exact restores
  · intro pl slot f choice sh rest invariant assertions held permitted acted
    obtain ⟨inactive, unreactivated⟩ := permitted
    have cleared := invariant.resolve_left inactive
    have calm : ∀ other held, pl.flows other = some held → ¬ Restores hs tid uid held :=
      fun other held isHeld => (assertions other held isHeld).resolve_left inactive
    obtain ⟨effs, step, rfl⟩ := program_act acted
    have quiet := step.quiet cleared (calm slot f held)
      (fun finds => unreactivated ⟨slot, choice, f, rfl, held, finds⟩)
    refine ⟨Or.inr (cleared.applyAll quiet.1), ?_, ?_⟩
    · intro next isNext
      exact Or.inr (quiet.2 next isNext)
    grind
  · intro pl event sh invariant assertions permitted moved
    have cleared := invariant.resolve_left permitted.1
    obtain ⟨effs, step, rfl⟩ := program_environment moved
    rcases step.quiet_or_accepts cleared with harmless | ⟨-, active⟩
    · refine ⟨Or.inr (cleared.applyAll harmless), ?_⟩
      intro slot held isHeld
      exact Or.inr ((assertions slot held isHeld).resolve_left permitted.1)
    · exact ⟨Or.inl active, fun _ _ _ => Or.inl active⟩

variable {hs ht}

/-- From a cleared state, the step that makes the user active accepts a later invitation. -/
theorem accepts_of_activates {tid : TenantID} {uid : UserID} {email : Email}
    {earlier : List InvitationID} {pl post : Pool (Shared H E) (Flow H E)}
    {move : Move (Flow H E) Choice Event}
    (cleared : Cleared tid uid email earlier pl.shared)
    (calm : pl.All fun _ f => ¬ Restores hs tid uid f)
    (unreactivated : ¬ Reactivates tid uid pl move)
    (taken : (program hs ht).step pl move = some post)
    (active : IsActive post.shared tid uid) :
    ∃ event, move = .environment event ∧ AcceptsLater ht earlier pl.shared event := by
  cases move with
  | spawn slot f =>
    obtain ⟨-, -, rfl⟩ := Program.step_spawn taken
    exact absurd active cleared.not_active
  | act slot choice =>
    obtain ⟨f, sh, rest, held, acted, rfl⟩ := Program.step_act taken
    obtain ⟨effs, step, rfl⟩ := program_act acted
    have quiet := step.quiet cleared (calm slot f held)
      (fun finds => unreactivated ⟨slot, choice, f, rfl, held, finds⟩)
    exact absurd active (cleared.applyAll quiet.1).not_active
  | drop slot =>
    cases taken
    exact absurd active cleared.not_active
  | environment event =>
    obtain ⟨sh, moved, rfl⟩ := Program.step_environment taken
    obtain ⟨effs, step, rfl⟩ := program_environment moved
    rcases step.quiet_or_accepts cleared with harmless | ⟨accepts, -⟩
    · exact absurd active (cleared.applyAll harmless).not_active
    · exact ⟨event, rfl, accepts⟩

variable (hs ht)

/-- After a reset that leaves nothing behind to undo it, and as long as no administrator
reactivates the user out of a later deactivation, the step that makes the user active again is
the acceptance of an invitation that did not exist before the reset. -/
theorem reset_undone_only_by_later_invitation
    (pl reset : Pool (Shared H E) (Flow H E)) (tid : TenantID)
    (email : Email) (invID : InvitationID) (tok : Token) (rids : List RoleID)
    (u : User E)
    (found : getUserByEmail pl.shared.users tid email = some u)
    (resets : (program hs ht).step pl
      (.environment (.resetUser tid email invID tok rids)) = some reset)
    (settled : Settled hs pl tid u.id)
    (moves : List (Move (Flow H E) Choice Event))
    (meets : EveryStep (program hs ht).step (fun pre move => ¬ IsActive pre.shared tid u.id
        ∧ ¬ Reactivates tid u.id pre move) reset moves) :
    EveryStep (program hs ht).step
      (fun pre move => ∀ post, (program hs ht).step pre move = some post →
        IsActive post.shared tid u.id →
        ∃ event, move = .environment event
          ∧ AcceptsLater ht (pl.shared.invitations.map Invitation.id) pre.shared
            event) reset moves := by
  obtain ⟨cleared, sameFlows⟩ := cleared_of_reset hs ht found resets settled
  have obligations := obligations_of_reset hs ht tid u.id u.email
    (pl.shared.invitations.map Invitation.id)
  refine everyStep_of_preserves (Program.step_preserves obligations) ?_ ?_ meets
  · intro pre move invariant permitted post taken active
    have clearedBefore := invariant.1.resolve_left permitted.1
    have calm : pre.All fun _ f => ¬ Restores hs tid u.id f :=
      fun slot f held => (invariant.2 slot f held).resolve_left permitted.1
    exact accepts_of_activates clearedBefore calm permitted.2 taken active
  · refine ⟨Or.inr cleared, ?_⟩
    intro slot f held
    rw [sameFlows] at held
    exact Or.inr (settled.flows slot f held)

/-- A reset whose invitation is accepted meets the conditions. -/
theorem reset_then_accepted : ∃ reset fin,
      (program (Sample.hashing false) Sample.hashToken).step (Sample.pool false [])
          (.environment (.resetUser 1 1 5 [5] [])) = some reset
        ∧ run (program (Sample.hashing false) Sample.hashToken).step reset
          [.environment (.accept [5] Sample.newPassword 0 2)] = some fin
        ∧ IsActive fin.shared 1 1
        ∧ EveryStep (program (Sample.hashing false) Sample.hashToken).step (fun pre move => ∀ post,
            (program (Sample.hashing false) Sample.hashToken).step pre move = some post →
            IsActive post.shared 1 1 →
            ∃ event, move = .environment event
              ∧ AcceptsLater Sample.hashToken [] pre.shared event) reset
          [.environment (.accept [5] Sample.newPassword 0 2)] := by
  refine ⟨_, _, rfl, rfl, ⟨_, rfl, rfl⟩, ?_⟩
  refine reset_undone_only_by_later_invitation (Sample.hashing false) Sample.hashToken
    (Sample.pool false []) _ 1 1 5 [5] [] (Sample.user false) rfl rfl ?_ _ ?_
  · exact ⟨fun _ mem => absurd mem List.not_mem_nil, fun _ _ held => nomatch held⟩
  · refine ⟨⟨?_, ?_⟩, fun _ _ => trivial⟩
    · intro active
      obtain ⟨u, found, status⟩ := active
      cases found
      cases status
    · intro reactivates
      obtain ⟨_, _, _, isAct, -⟩ := reactivates
      cases isAct

/-- A recovery token issued before the reset still sets a password after it, and the user is
active without any acceptance. -/
theorem recovery_token_undoes_reset : ∃ reset fin,
      (program (Sample.hashing false) Sample.hashToken).step
          (Sample.pool false [⟨1, 1, [9], 30 * minute, none⟩])
          (.environment (.resetUser 1 1 5 [5] [])) = some reset
        ∧ (getUser reset.shared.users 1 1).map User.status = some .invited
        ∧ run (program (Sample.hashing false) Sample.hashToken).step reset
          [.spawn 0 (.recovery (.peek [9] Sample.newPassword)), .act 0 Sample.choice,
            .act 0 Sample.choice, .act 0 Sample.choice, .act 0 Sample.choice,
            .act 0 Sample.choice] = some fin
        ∧ IsActive fin.shared 1 1 := by
  exact ⟨_, _, rfl, rfl, rfl, _, rfl, rfl⟩

end Runs

end TangraAuth.Accounts
