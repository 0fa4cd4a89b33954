import TangraAuth.Accounts.Steps

/-!
Contract: active accounts and their passwords.

Owns: which writes can leave an active account without a password hash, and that no run
does, whatever its interleaving, in which the administrator's status writes meet no
invited account. The check such a call makes first keeps imported accounts from its write.
-/

namespace TangraAuth.Accounts

open Library Store

variable {H E : Type}

/-! ### The property -/

def ActiveHavePasswords (sh : Shared H E) : Prop :=
  ∀ u ∈ sh.users.rows, u.status = .active → u.passwordHash.isSome = true

/-- The account, if there is one, is not invited. -/
def uninvited (sh : Shared H E) (tid : TenantID) (uid : UserID) : Bool :=
  (getUser sh.users tid uid).all fun u => u.status != .invited

/-- The account whose status the administrator's call is about to write. -/
def statusTarget : Flow H E → Option (TenantID × UserID)
  | .admin (.deactivateWrite tid uid) => some (tid, uid)
  | .admin (.reactivateWrite tid uid) => some (tid, uid)
  | _ => none

/-- A status write of `Deactivate` or `Reactivate` meets no invited account. -/
def WritesUninvited (pl : Pool (Shared H E) (Flow H E)) : Move (Flow H E) Choice Event → Prop
  | .act slot _ =>
    ((pl.flows slot).bind statusTarget).all
      (fun target => uninvited pl.shared target.1 target.2) = true
  | .spawn _ _ | .drop _ | .environment _ => True

instance (pl : Pool (Shared H E) (Flow H E)) :
    (move : Move (Flow H E) Choice Event) → Decidable (WritesUninvited pl move)
  | .act _ _ => inferInstanceAs (Decidable (_ = true))
  | .spawn _ _ | .drop _ | .environment _ => .isTrue True.intro

/-! ### What the calls do to passwords -/

/-- Only invited and imported accounts may be without a password. -/
def Passworded (sh : Shared H E) : Prop :=
  ∀ u ∈ sh.users.rows, u.status = .active ∨ u.status = .deactivated → u.passwordHash.isSome = true

theorem Passworded.active {sh : Shared H E} (passworded : Passworded sh) :
    ActiveHavePasswords sh := fun u mem active => passworded u mem (Or.inl active)

/-- The call makes no account active or deactivated that has no password. -/
def Secured (sh : Shared H E) : Effect H E → Prop
  | .insertUser u =>
    u.status = .active ∨ u.status = .deactivated → u.passwordHash.isSome = true
  | .updateUserStatus tid uid status =>
    status = .active ∨ status = .deactivated →
      ∀ u ∈ sh.users.rows, isUser tid uid u = true → u.passwordHash.isSome = true
  | _ => True

theorem Passworded.update {sh next : Shared H E} (passworded : Passworded sh)
    {matching : User E → Bool} {change : User E → User E}
    (rs : next.users.rows = updateWhere matching change sh.users.rows)
    (secured : ∀ u ∈ sh.users.rows, matching u = true →
      (change u).status = .active ∨ (change u).status = .deactivated →
      (change u).passwordHash.isSome = true) : Passworded next := by
  grind [Passworded, updateWhere]

theorem Passworded.apply [DecidableEq H] {sh : Shared H E}
    (passworded : Passworded sh) {eff : Effect H E}
    (secured : Secured sh eff) : Passworded (sh.apply eff) := by
  cases eff with
  | insertUser inserted =>
    intro u mem
    rcases of_mem_insertUser mem with pre | ⟨rfl, -⟩
    · exact passworded u pre
    · exact secured
  | updateImportedUser tid uid email =>
    refine passworded.update rfl ?_
    exact fun u mem _ => passworded u mem
  | deleteImportedUser tid uid =>
    intro u mem
    exact passworded u (List.mem_of_mem_filter mem)
  | updateUserStatus tid uid status =>
    refine passworded.update rfl ?_
    exact fun u mem matched isStatus => secured isStatus u mem matched
  | setPassword tid uid encoded purpose =>
    refine passworded.update rfl ?_
    exact fun _ _ _ _ => rfl
  | setMFA tid uid enabled =>
    refine passworded.update rfl ?_
    exact fun u mem _ => passworded u mem
  | resetCredentials tid uid =>
    refine passworded.update rfl ?_
    intro u _ _ isStatus
    simp [withoutCredentials] at isStatus
  | refuse uid pol ch =>
    simp only [Shared.apply, Shared.refuse]
    split_ifs
    · exact passworded
    · exact passworded
  | _ => exact passworded

/-- The call is secured in every state. -/
def AlwaysSecured (eff : Effect H E) : Prop :=
  ∀ sh : Shared H E, Secured sh eff

theorem Passworded.applyAll [DecidableEq H] {sh : Shared H E}
    (passworded : Passworded sh) {effs : List (Effect H E)}
    (secured : ∀ eff ∈ effs, AlwaysSecured eff) : Passworded (sh.applyAll effs) :=
  applyAll_preserves (fun sh _ holds always => holds.apply (always sh)) secured passworded

theorem AllIdle.alwaysSecured {effs : List (Effect H E)} (idle : AllIdle effs) :
    ∀ eff ∈ effs, AlwaysSecured eff := by
  intro eff mem sh
  have isIdle := idle eff mem
  cases eff <;> first | exact True.intro | exact isIdle.elim

/-! ### Accounts past their import -/

/-- The account exists and is not imported. -/
def Joined (tid : TenantID) (uid : UserID) (sh : Shared H E) : Prop :=
  ∃ u ∈ sh.users.rows, isUser tid uid u = true ∧ u.status ≠ .imported

/-- The account an administrator's call has read and not written yet. -/
def readAccount : Flow H E → Option (TenantID × UserID)
  | .admin (.deactivateOwner tid uid _) | .admin (.deactivateWrite tid uid)
  | .admin (.reactivateWrite tid uid) => some (tid, uid)
  | _ => none

/-- The call has read no account, or one that has joined. -/
def ReadJoined (sh : Shared H E) (f : Flow H E) : Prop :=
  ∀ tid uid, readAccount f = some (tid, uid) → Joined tid uid sh

/-- The call makes no account imported again. -/
def Effect.Advancing : Effect H E → Prop
  | .updateUserStatus _ _ status => status ≠ .imported
  | _ => True

theorem AllIdle.advancing {effs : List (Effect H E)} (idle : AllIdle effs) :
    ∀ eff ∈ effs, eff.Advancing := by
  intro eff mem
  have isIdle := idle eff mem
  cases eff <;> first | exact True.intro | exact isIdle.elim

/-- An account that has joined is not removed, and stays joined. -/
theorem Joined.apply [DecidableEq H] {sh : Shared H E} {tid : TenantID} {uid : UserID}
    (joined : Joined tid uid sh) {eff : Effect H E} (advancing : eff.Advancing) :
    Joined tid uid (sh.apply eff) := by
  obtain ⟨u, mem, matched, past⟩ := joined
  have update : ∀ {next : Shared H E} {matching : User E → Bool} {change : User E → User E},
      next.users.rows = updateWhere matching change sh.users.rows →
      (isUser tid uid (change u) = true ∧ (change u).status ≠ .imported) →
      Joined tid uid next := by
    intro next matching change isNext changed
    refine ⟨if matching u then change u else u, ?_, ?_⟩
    · rw [isNext]
      exact mem_updateWhere.mpr ⟨u, mem, rfl⟩
    · split_ifs
      · exact changed
      · exact ⟨matched, past⟩
  cases eff with
  | insertUser inserted =>
    refine ⟨u, ?_, matched, past⟩
    show u ∈ (insertUser sh.users inserted).rows
    grind [insertUser]
  | deleteImportedUser tn id =>
    refine ⟨u, List.mem_filter.mpr ⟨mem, ?_⟩, matched, past⟩
    simp [isImported, past]
  | updateImportedUser | setMFA => exact update rfl ⟨matched, past⟩
  | updateUserStatus => exact update rfl ⟨matched, advancing⟩
  | setPassword =>
    refine update rfl ⟨matched, ?_⟩
    simp only [withPassword]
    split_ifs
    · simp
    · exact past
  | resetCredentials => exact update rfl ⟨matched, by simp [withoutCredentials]⟩
  | refuse =>
    simp only [Shared.apply, Shared.refuse]
    split_ifs <;> exact ⟨u, mem, matched, past⟩
  | _ => exact ⟨u, mem, matched, past⟩

theorem Joined.applyAll [DecidableEq H] {sh : Shared H E} {tid : TenantID} {uid : UserID}
    (joined : Joined tid uid sh) {effs : List (Effect H E)}
    (advancing : ∀ eff ∈ effs, eff.Advancing) : Joined tid uid (sh.applyAll effs) :=
  applyAll_preserves (fun _ _ holds advances => holds.apply advances) advancing joined

/-! ### What the operations do to passwords -/

section

variable [DecidableEq H] {hs : Hashing E} {ht : Token → H}
  {sh : Shared H E} {effs : List (Effect H E)}

variable {tid : TenantID} {uid : UserID}

omit [DecidableEq H] in
theorem Passworded.secured_updateUserStatus (passworded : Passworded sh)
    (joined : Joined tid uid sh) (isUninvited : uninvited sh tid uid = true)
    (status : UserStatus) : Secured sh (.updateUserStatus tid uid status) := by
  obtain ⟨u, mem, matched, past⟩ := joined
  obtain ⟨rfl, rfl⟩ := isUser_iff.mp matched
  rw [uninvited, getUser_of_mem mem, Option.all_some, bne_iff_ne] at isUninvited
  intro _ row rowMem isRow
  obtain rfl := eq_of_uniqueKey sh.users.unique rowMem mem (isUser_iff.mp isRow).2
  have hashed := passworded row rowMem
  cases isStatus : row.status <;> simp_all

theorem FlowStep.passworded {pl : Pool (Shared H E) (Flow H E)} {slot : Nat}
    {choice : Choice} {f : Flow H E} {rest : Option (Flow H E)}
    (step : FlowStep hs ht pl.shared f effs rest)
    (held : pl.flows slot = some f) (writes : WritesUninvited pl (.act slot choice))
    (read : ReadJoined pl.shared f) (passworded : Passworded pl.shared) :
    Passworded (pl.shared.applyAll effs) := by
  have always : (∀ eff ∈ effs, AlwaysSecured eff) →
      Passworded (pl.shared.applyAll effs) := fun secured => passworded.applyAll secured
  cases step with
  | signin step =>
    cases step with
    | stops _ idle | admitted _ idle | counted _ _ _ idle | verified _ _ _ idle
    | verifiedWeak _ _ _ idle => exact always idle.alwaysSecured
    | rehashed | challenged | established => exact passworded.apply True.intro
    | _ => exact passworded
  | completion step =>
    cases step with
    | stops _ idle | consumed _ _ _ _ idle | cleared _ _ _ idle => exact always idle.alwaysSecured
    | established => exact passworded.apply True.intro
    | _ => exact passworded
  | request step =>
    cases step with
    | inserted => exact passworded.apply True.intro
    | _ => exact passworded
  | recovery step =>
    cases step with
    | used | written => exact passworded.apply True.intro
    | _ => exact passworded
  | change step =>
    cases step with
    | written => exact passworded.apply True.intro
    | _ => exact passworded
  | admin step =>
    cases step with
    | deactivated tid uid =>
      simp only [WritesUninvited, held, Option.bind_some, statusTarget, Option.all_some] at writes
      exact passworded.apply
        (passworded.secured_updateUserStatus (read tid uid rfl) writes .deactivated)
    | reactivated tid uid =>
      simp only [WritesUninvited, held, Option.bind_some, statusTarget, Option.all_some] at writes
      exact passworded.apply
        (passworded.secured_updateUserStatus (read tid uid rfl) writes .active)
    | _ => exact passworded

theorem EventStep.passworded {event : Event}
    (step : EventStep hs ht sh event effs) (passworded : Passworded sh) :
    Passworded (sh.applyAll effs) := by
  cases step with
  | acceptInvited tok pw salt nid redeemed short found invited =>
    rename_i inv pol u
    -- The password is written before the status, so the account has one by then.
    have written : Passworded (sh.apply
        (.setPassword inv.tenantID u.id (hs.hash salt pw) .initial)) :=
      passworded.apply True.intro
    refine (written.apply ?_).apply True.intro
    intro _ row mem matched
    obtain ⟨old, oldMem, ⟨-, rfl⟩ | ⟨unmatched, rfl⟩⟩ := of_mem_updateWhere mem
    · rfl
    · rw [matched] at unmatched
      cases unmatched
  | reset => exact passworded.applyAll (by simp [AlwaysSecured, Secured])
  | acceptNew => exact passworded.applyAll (by simp [AlwaysSecured, Secured])
  | activated => exact passworded.applyAll (by simp [AlwaysSecured, Secured])
  | imported => exact passworded.applyAll (by simp [AlwaysSecured, Secured])
  | _ => exact passworded.applyAll (by simp [AlwaysSecured, Secured])

theorem FlowStep.advancing {f : Flow H E} {rest : Option (Flow H E)}
    (step : FlowStep hs ht sh f effs rest) : ∀ eff ∈ effs, eff.Advancing := by
  cases step with
  | signin step | completion step =>
    cases step <;> first | exact AllIdle.advancing ‹_› | simp [Effect.Advancing]
  | request step | recovery step | change step | admin step =>
    cases step <;> simp [Effect.Advancing]

theorem EventStep.advancing {event : Event} (step : EventStep hs ht sh event effs) :
    ∀ eff ∈ effs, eff.Advancing := by
  cases step <;> simp [Effect.Advancing]

/-- The guards of `Deactivate` and `Reactivate` let no imported account through. -/
theorem FlowStep.readJoined {f next : Flow H E}
    (step : FlowStep hs ht sh f effs (some next)) (read : ReadJoined sh f) :
    ReadJoined (sh.applyAll effs) next := by
  intro tid uid isRead
  generalize isRest : some next = rest at step
  cases step with
  | admin step =>
    obtain ⟨inner, rfl, rfl⟩ := Option.map_eq_some_iff.mp isRest.symm
    cases step with
    | @found _ _ u found past =>
      cases isRead
      have row := getUser_eq_some found
      exact ⟨u, row.1, isUser_iff.mpr row.2, past⟩
    | permitted => exact read tid uid isRead
    | @foundDeactivated _ _ u found status =>
      cases isRead
      have row := getUser_eq_some found
      exact ⟨u, row.1, isUser_iff.mpr row.2, by simp [status]⟩
    | already | deactivated => cases isRead
  | signin | completion | request | recovery | change =>
    obtain ⟨inner, -, rfl⟩ := Option.map_eq_some_iff.mp isRest.symm
    cases isRead

theorem passworded_obligations (hs : Hashing E) (ht : Token → H) :
    (program hs ht).Obligations Passworded ReadJoined WritesUninvited where
  entry := by
    intro sh f _ begins tid uid isRead
    cases f with
    | admin f =>
      cases f with
      | deactivate | reactivate | deactivateRevoke => cases isRead
      | deactivateOwner | deactivateWrite | reactivateWrite => cases begins
    | _ => cases isRead
  act := by
    intro pl slot f choice post rest passworded read held writes acted
    obtain ⟨effs, step, rfl⟩ := program_act acted
    refine ⟨step.passworded held writes (read slot f held) passworded, ?_, ?_⟩
    · rintro next rfl
      exact step.readJoined (read slot f held)
    · intro other flow _ isHeld tid uid isRead
      exact (read other flow isHeld tid uid isRead).applyAll step.advancing
  environment := by
    intro pl event post passworded read _ moved
    obtain ⟨effs, step, rfl⟩ := program_environment moved
    refine ⟨step.passworded passworded, ?_⟩
    intro slot flow held tid uid isRead
    exact (read slot flow held tid uid isRead).applyAll step.advancing

/-- **Active accounts have passwords.** From a state in which the active and deactivated accounts
have password hashes, no run leaves an active account without one in which the status writes of
`Deactivate` and `Reactivate` meet no invited account. -/
theorem active_users_have_passwords (hs : Hashing E) (ht : Token → H)
    {init fin : Pool (Shared H E) (Flow H E)}
    {moves : List (Move (Flow H E) Choice Event)}
    (passworded : Passworded init.shared) (read : init.All ReadJoined)
    (permitted : EveryStep (program hs ht).step WritesUninvited init moves)
    (reaches : run (program hs ht).step init moves = some fin) :
    ActiveHavePasswords fin.shared := by
  have kept := Program.run_preserves (passworded_obligations hs ht)
    ⟨passworded, read⟩ permitted reaches
  exact kept.1.active

end

/-! ### An instance -/

namespace Sample

/-- A directory account is imported and activated, which makes it invited. -/
def activation : List (Move (Flow (List UInt8) (List UInt8)) Choice Event) :=
  [.environment (.importUser 1 2 5), .environment (.activate 1 2 1 [9] [] [])]

/-- `Deactivate` of an account, then `Reactivate`, each from its first read to its last write. -/
def suspension (uid : UserID) : List (Move (Flow (List UInt8) (List UInt8)) Choice Event) :=
  [.spawn 0 (.admin (.deactivate 1 uid)), .act 0 Sample.choice, .act 0 Sample.choice,
    .act 0 Sample.choice, .act 0 Sample.choice,
    .spawn 0 (.admin (.reactivate 1 uid)), .act 0 Sample.choice, .act 0 Sample.choice]

/-- The invitation is accepted with a new password. -/
def acceptance : List (Move (Flow (List UInt8) (List UInt8)) Choice Event) :=
  [.environment (.accept [9] Sample.newPassword 7 3)]

end Sample

/-- A directory account that accepts its invitation before it is deactivated and reactivated. -/
theorem accepted_user_has_password :
    ∃ fin : Pool (Shared (List UInt8) (List UInt8)) (Flow (List UInt8) (List UInt8)),
      run (program (Sample.hashing false) Sample.hashToken).step (Sample.pool false [])
          (Sample.activation ++ Sample.acceptance ++ Sample.suspension 2) = some fin
        ∧ (getUser fin.shared.users 1 2).map (·.status) = some .active
        ∧ ActiveHavePasswords fin.shared := by
  refine ⟨_, rfl, by decide +kernel, ?_⟩
  refine @active_users_have_passwords _ _ _ (Sample.hashing false) Sample.hashToken
    (Sample.pool false []) _
    (Sample.activation ++ Sample.acceptance ++ Sample.suspension 2) ?_ ?_ ?_ rfl
  · intro u mem _
    obtain rfl := List.mem_singleton.mp mem
    rfl
  · intro slot f held
    cases held
  · decide +kernel

/-- The same account deactivated and reactivated while its invitation is open: it is active and
has no password. -/
theorem reactivated_invitee_has_no_password :
    ∃ fin : Pool (Shared (List UInt8) (List UInt8)) (Flow (List UInt8) (List UInt8)),
      run (program (Sample.hashing false) Sample.hashToken).step (Sample.pool false [])
          (Sample.activation ++ Sample.suspension 2) = some fin
        ∧ Passworded (Sample.pool false []).shared
        ∧ ¬ ActiveHavePasswords fin.shared := by
  refine ⟨_, rfl, ?_, ?_⟩
  · intro u mem _
    obtain rfl := List.mem_singleton.mp mem
    rfl
  · intro holds
    have found := holds ⟨2, 1, 5, .active, none, false⟩ (by decide +kernel) rfl
    cases found

end TangraAuth.Accounts
