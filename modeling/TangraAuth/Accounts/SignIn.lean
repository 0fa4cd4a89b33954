import TangraAuth.Accounts.Steps

/-!
Contract: a sign-in that creates a session does so for an active user of an
active tenant.

Owns: what a sign-in in flight has read about its user and tenant, the calls
that withdraw the admission, and the result that the admission still stands
at the creation of the session unless it was withdrawn in between.

Does not own: which password was presented.
-/

namespace TangraAuth.Accounts

open Library Store

variable {H E : Type}

def TenantIsActive (sh : Shared H E) (tid : TenantID) : Prop :=
  ∃ tn, sh.tenants tid = some tn ∧ tn.status = .active

/-- The user is active, and so is the tenant. -/
structure Admissible (sh : Shared H E) (tid : TenantID) (uid : UserID) :
    Prop where
  user : IsActive sh tid uid
  tenant : TenantIsActive sh tid

/-! ### Calls that withdraw the admission -/

def SuspendsTenant (tid : TenantID) : Effect H E → Prop
  | .putTenant tn val => tn = tid ∧ val.status ≠ .active
  | _ => False

def EndsUser (tid : TenantID) (uid : UserID) : Effect H E → Prop
  | .updateUserStatus tn u status => tn = tid ∧ u = uid ∧ status ≠ .active
  | .resetCredentials tn u => tn = tid ∧ u = uid
  | _ => False

section Calls

variable [DecidableEq H] {sh : Shared H E} {tid : TenantID}
  {uid : UserID}

theorem TenantIsActive.apply (active : TenantIsActive sh tid)
    (eff : Effect H E) (kept : ¬ SuspendsTenant tid eff) :
    TenantIsActive (sh.apply eff) tid := by
  cases eff with
  | putTenant tn val =>
    by_cases same : tid = tn
    · subst same
      refine ⟨val, if_pos rfl, ?_⟩
      by_contra suspended
      exact kept ⟨rfl, suspended⟩
    · obtain ⟨pre, read, status⟩ := active
      exact ⟨pre, (if_neg same).trans read, status⟩
  | refuse u pol key =>
    simp only [Shared.apply, Shared.refuse]
    split_ifs
    · exact active
    · exact active
  | _ => exact active

omit [DecidableEq H] in
/-- An update keeps an active row active when it leaves key and status of active rows alone. -/
theorem IsActive.update (active : IsActive sh tid uid)
    {matching : User E → Bool} {change : User E → User E}
    {other : Shared H E}
    (isUpdate : other.users.rows = updateWhere matching change sh.users.rows)
    (keepsID : ∀ u, (change u).id = u.id)
    (keepsTenant : ∀ u, (change u).tenantID = u.tenantID)
    (keepsActive : ∀ u, u.tenantID = tid → u.id = uid →
      u.status = .active → matching u = true → (change u).status = .active) :
    IsActive other tid uid := by
  obtain ⟨u, mem, isT, isID, status⟩ := isActive_iff.mp active
  rw [isActive_iff, isUpdate]
  grind

theorem IsActive.apply (active : IsActive sh tid uid)
    (eff : Effect H E) (kept : ¬ EndsUser tid uid eff) :
    IsActive (sh.apply eff) tid uid := by
  cases eff with
  | insertUser inserted =>
    obtain ⟨u, mem, isT, isID, status⟩ := isActive_iff.mp active
    refine isActive_iff.mpr ⟨u, ?_, isT, isID, status⟩
    show u ∈ (insertUser sh.users inserted).rows
    grind [insertUser]
  | deleteImportedUser tn u =>
    obtain ⟨row, mem, isT, isID, status⟩ := isActive_iff.mp active
    refine isActive_iff.mpr ⟨row, ?_, isT, isID, status⟩
    exact List.mem_filter.mpr ⟨mem, by simp [isImported, status]⟩
  | updateImportedUser tn u address | setMFA tn u enabled =>
    refine active.update rfl (fun _ => rfl) (fun _ => rfl) ?_
    exact fun _ _ _ status _ => status
  | updateUserStatus tn u status =>
    refine active.update rfl (fun _ => rfl) (fun _ => rfl) ?_
    intro row isT isID _ matched
    have key := isUser_iff.mp matched
    by_contra ended
    exact kept ⟨key.1.symm.trans isT, key.2.symm.trans isID, ended⟩
  | setPassword tn u encoded purpose =>
    refine active.update rfl (fun _ => rfl) (fun _ => rfl) ?_
    grind [withPassword]
  | resetCredentials tn u =>
    refine active.update rfl (fun _ => rfl) (fun _ => rfl) ?_
    intro row isT isID _ matched
    simp only [resettable, Bool.and_eq_true] at matched
    have key := isUser_iff.mp matched.1
    exact absurd ⟨key.1.symm.trans isT, key.2.symm.trans isID⟩ kept
  | refuse u pol key =>
    simp only [Shared.apply, Shared.refuse]
    split_ifs
    · exact active
    · exact active
  | _ => exact active

theorem Admissible.applyAll (admissible : Admissible sh tid uid)
    {effs : List (Effect H E)}
    (kept : ∀ eff ∈ effs, ¬ EndsUser tid uid eff ∧ ¬ SuspendsTenant tid eff) :
    Admissible (sh.applyAll effs) tid uid := by
  have callKeeps : ∀ (pre : Shared H E) (eff : Effect H E), Admissible pre tid uid →
      (¬ EndsUser tid uid eff ∧ ¬ SuspendsTenant tid eff) →
      Admissible (pre.apply eff) tid uid := by
    intro pre eff holds allowed
    exact ⟨holds.user.apply eff allowed.1, holds.tenant.apply eff allowed.2⟩
  exact applyAll_preserves callKeeps kept admissible

theorem TenantIsActive.applyAll (active : TenantIsActive sh tid)
    {effs : List (Effect H E)}
    (kept : ∀ eff ∈ effs, ¬ SuspendsTenant tid eff) :
    TenantIsActive (sh.applyAll effs) tid := by
  have callKeeps : ∀ (pre : Shared H E) (eff : Effect H E),
      TenantIsActive pre tid → ¬ SuspendsTenant tid eff →
      TenantIsActive (pre.apply eff) tid :=
    fun pre eff holds allowed => holds.apply eff allowed
  exact applyAll_preserves callKeeps kept active

end Calls

/-! ### What a sign-in in flight has read -/

/-- The flow goes on to create a session for the user, as far as its reads are concerned. -/
def Holds (tid : TenantID) (uid : UserID) : Flow H E → Prop
  | .signin (.countAccount input (some tn) (some u)) =>
    input.tenantID = tid ∧ u.id = uid ∧ tn.status = .active ∧ u.status = .active
  | .signin (.locked input tn u) =>
    input.tenantID = tid ∧ u.id = uid ∧ tn.status = .active ∧ u.status = .active
  | .signin (.verify input tn u) =>
    input.tenantID = tid ∧ u.id = uid ∧ tn.status = .active ∧ u.status = .active
  | .signin (.rehash input _ u) => input.tenantID = tid ∧ u.id = uid
  | .signin (.roles input _ u) => input.tenantID = tid ∧ u.id = uid
  | .signin (.finish input _ u _) => input.tenantID = tid ∧ u.id = uid
  | .completion (.locked _ _ ch) =>
    ch.tenantID = tid ∧ ch.userID = uid
  | .completion (.verify _ _ ch) =>
    ch.tenantID = tid ∧ ch.userID = uid
  | .completion (.consume _ _ ch _) =>
    ch.tenantID = tid ∧ ch.userID = uid
  | .completion (.clear _ ch _) =>
    ch.tenantID = tid ∧ ch.userID = uid
  | .completion (.establish _ ch _) =>
    ch.tenantID = tid ∧ ch.userID = uid
  | _ => False

/-- The flow has read the tenant as active, and not yet its user. -/
def HoldsTenant (tid : TenantID) : Flow H E → Prop
  | .signin (.user input tn) => input.tenantID = tid ∧ tn.status = .active
  | _ => False

/-- What a flow relies on: its user and tenant are active. -/
structure Relies (sh : Shared H E) (f : Flow H E) : Prop where
  user : ∀ tid uid, Holds tid uid f → Admissible sh tid uid
  tenant : ∀ tid, HoldsTenant tid f → TenantIsActive sh tid

/-- What the cache relies on: so are those of every challenge that is still pending. -/
def ChallengesRely (sh : Shared H E) : Prop :=
  ∀ ch, Pending sh ch → Admissible sh ch.tenantID ch.userID

variable {f : Flow H E}

section Reads

variable {hs : Hashing E} {ht : Token → H} {sh : Shared H E}
  {effs : List (Effect H E)} {tid : TenantID} {uid : UserID}

/-- What `Start` holds after an action it held before, or it has just read it. -/
theorem SigninStep.holds {f next : SigninFlow E} (step : SigninStep hs ht sh f effs (some next))
    (relies : Relies sh (.signin f : Flow H E))
    (held : Holds tid uid (.signin next : Flow H E)) :
    Admissible sh tid uid := by
  cases step with
  | admitted input idle | noTenant input | tenantRead input found | unknown input tn =>
    exact held.elim
  | @userRead input tn u found known =>
    obtain ⟨isT, isID, tenantActive, userActive⟩ := held
    have read := getUserByEmail_eq_some found
    refine ⟨?_, relies.tenant tid ⟨isT, tenantActive⟩⟩
    exact isActive_iff.mpr ⟨u, read.1, read.2.1.trans isT, isID, userActive⟩
  | counted input tn u idle | unlocked input tn u | rehashFailed input tn u
  | rehashed input tn u salt | rolesRead input tn u roles =>
    exact relies.user _ _ held
  | verified input tn u idle accepted tenantActive userActive
  | verifiedWeak input tn u idle accepted tenantActive userActive =>
    exact relies.user _ _ ⟨held.1, held.2, tenantActive, userActive⟩

theorem CompletionStep.holds [DecidableEq H] {f next : CompletionFlow H}
    (step : CompletionStep ht sh f effs (some next))
    (challengesRely : ChallengesRely sh)
    (relies : Relies sh (.completion f : Flow H E))
    (held : Holds tid uid (.completion next : Flow H E)) :
    Admissible sh tid uid := by
  cases step with
  | @loaded challengeID begun ch found =>
    obtain ⟨isT, isUser⟩ := held
    subst isT isUser
    exact challengesRely ch ⟨_, found⟩
  | unlocked key begun ch | verified key begun ch method
  | consumed key begun ch method idle | cleared begun ch method idle =>
    exact relies.user _ _ held

variable {next : Flow H E}

/-- Whatever a flow holds after an action was admissible before it. -/
theorem FlowStep.holds [DecidableEq H] (step : FlowStep hs ht sh f effs (some next))
    (challengesRely : ChallengesRely sh) (relies : Relies sh f)
    (held : Holds tid uid next) : Admissible sh tid uid := by
  generalize isRest : some next = rest at step
  cases step with
  | signin step =>
    obtain ⟨inner, rfl, rfl⟩ := Option.map_eq_some_iff.mp isRest.symm
    exact step.holds relies held
  | completion step =>
    obtain ⟨inner, rfl, rfl⟩ := Option.map_eq_some_iff.mp isRest.symm
    exact step.holds challengesRely relies held
  | request step | recovery step | change step | admin step =>
    obtain ⟨inner, rfl, rfl⟩ := Option.map_eq_some_iff.mp isRest.symm
    exact held.elim

theorem FlowStep.not_holds_of_admin [DecidableEq H] {f : AdminFlow}
    (step : FlowStep hs ht sh (.admin f) effs (some next)) :
    ¬ Holds tid uid next := by
  generalize isRest : some next = rest at step
  cases step with
  | admin step =>
    obtain ⟨inner, -, rfl⟩ := Option.map_eq_some_iff.mp isRest.symm
    exact fun held => held.elim

theorem FlowStep.holdsTenant [DecidableEq H] (step : FlowStep hs ht sh f effs (some next))
    (held : HoldsTenant tid next) : TenantIsActive sh tid := by
  generalize isRest : some next = rest at step
  cases step with
  | signin step =>
    obtain ⟨inner, rfl, rfl⟩ := Option.map_eq_some_iff.mp isRest.symm
    cases step with
    | @tenantRead input tn found =>
      grind [TenantIsActive, HoldsTenant]
    | _ => exact held.elim
  | completion step | request step | recovery step | change step | admin step =>
    obtain ⟨inner, rfl, rfl⟩ := Option.map_eq_some_iff.mp isRest.symm
    exact held.elim

/-- What a call of a flow is to the admission of users: it suspends no tenant, ends the user
only of a `Deactivate` about to write, and puts challenges and creates sessions only for the
user the flow holds. -/
structure Respects (f : Flow H E) (eff : Effect H E) : Prop where
  suspends : ∀ tid, ¬ SuspendsTenant tid eff
  ends : ∀ tid uid, EndsUser tid uid eff → f = .admin (.deactivateWrite tid uid)
  puts : ∀ key ch, eff = .putChallenge key ch → Holds ch.tenantID ch.userID f
  creates : ∀ creation, eff = .create creation → Holds creation.tenantID creation.userID f

variable {eff : Effect H E}

theorem AllIdle.respects (allIdle : AllIdle effs) (mem : eff ∈ effs) : Respects f eff := by
  have idle := allIdle eff mem
  cases eff <;> first
    | exact idle.elim
    | constructor <;> simp [SuspendsTenant, EndsUser]

theorem FlowStep.respects [DecidableEq H] {rest : Option (Flow H E)}
    (step : FlowStep hs ht sh f effs rest) (mem : eff ∈ effs) :
    Respects f eff := by
  cases step with
  | signin step =>
    cases step with
    | stops _ allIdle | admitted input allIdle | counted input tn u allIdle
    | verified input tn u allIdle | verifiedWeak input tn u allIdle =>
      exact allIdle.respects mem
    | rehashed input tn u salt =>
      rw [List.mem_singleton.mp mem]
      constructor <;> simp [SuspendsTenant, EndsUser]
    | challenged input tn u roles operator pol tok enrolled
    | established input tn u roles operator pol enrolled =>
      rw [List.mem_singleton.mp mem]
      constructor <;> simp [SuspendsTenant, EndsUser, Holds]
    | _ => exact absurd mem List.not_mem_nil
  | completion step =>
    cases step with
    | stops _ allIdle | consumed key begun ch method allIdle
    | cleared begun ch method allIdle => exact allIdle.respects mem
    | established begun ch method =>
      rw [List.mem_singleton.mp mem]
      constructor <;> simp [SuspendsTenant, EndsUser, Holds]
    | _ => exact absurd mem List.not_mem_nil
  | request step =>
    cases step with
    | inserted tn u tok =>
      rw [List.mem_singleton.mp mem]
      constructor <;> simp [SuspendsTenant, EndsUser]
    | _ => exact absurd mem List.not_mem_nil
  | recovery step =>
    cases step with
    | used hash pw req | written pw req salt =>
      rw [List.mem_singleton.mp mem]
      constructor <;> simp [SuspendsTenant, EndsUser]
    | _ => exact absurd mem List.not_mem_nil
  | change step =>
    cases step with
    | written tn u pw salt =>
      rw [List.mem_singleton.mp mem]
      constructor <;> simp [SuspendsTenant, EndsUser]
    | _ => exact absurd mem List.not_mem_nil
  | admin step =>
    cases step with
    | deactivated tn u | reactivated tn u =>
      rw [List.mem_singleton.mp mem]
      constructor <;> simp [SuspendsTenant, EndsUser]
    | _ => exact absurd mem List.not_mem_nil

/-- What a call of an event is to the admission of users. -/
structure EventRespects (sh : Shared H E) (event : Event)
    (eff : Effect H E) : Prop where
  suspends : ∀ tid, TenantIsActive sh tid → SuspendsTenant tid eff → event = .suspend tid
  ends : ∀ tid uid, IsActive sh tid uid → EndsUser tid uid eff →
    ∃ email invID tok rids u, event = .resetUser tid email invID tok rids
        ∧ getUserByEmail sh.users tid email = some u ∧ u.id = uid
  puts : ∀ key ch, eff ≠ .putChallenge key ch

theorem eventRespects_of_neither {event : Event} (suspends : ∀ tid, ¬ SuspendsTenant tid eff)
    (ends : ∀ tid uid, IsActive sh tid uid → ¬ EndsUser tid uid eff)
    (puts : ∀ key ch, eff ≠ .putChallenge key ch) :
    EventRespects sh event eff :=
  ⟨fun tid _ suspended => absurd suspended (suspends tid),
    fun tid uid active ended => absurd ended (ends tid uid active),
    puts⟩

theorem EventStep.respects [DecidableEq H] {event : Event}
    (step : EventStep hs ht sh event effs) (mem : eff ∈ effs) :
    EventRespects sh event eff := by
  cases step with
  | reset tn address invID tok rids found allowed fresh =>
    simp only [List.mem_cons, List.not_mem_nil, or_false] at mem
    rcases mem with rfl | rfl | rfl
    · constructor
      · simp [SuspendsTenant]
      · intro tid uid _ ended
        obtain ⟨isT, isUser⟩ := ended
        simp_all
      · simp
    · apply eventRespects_of_neither <;> simp [SuspendsTenant, EndsUser]
    · apply eventRespects_of_neither <;> simp [SuspendsTenant, EndsUser]
  | @activated _ inv tn u fresh isMem isT status =>
    simp only [List.mem_cons, List.not_mem_nil, or_false] at mem
    rcases mem with rfl | rfl
    · apply eventRespects_of_neither <;> simp [SuspendsTenant, EndsUser]
    · apply eventRespects_of_neither
      · simp [SuspendsTenant]
      · -- an imported row is not an active one, and ids are unique
        intro tid uid active ended
        obtain ⟨row, rowMem, -, isID, rowStatus⟩ := isActive_iff.mp active
        have same := eq_of_uniqueKey sh.users.unique rowMem isMem (isID.trans ended.2.1.symm)
        rw [same, status] at rowStatus
        cases rowStatus
      · simp
  | tenantPut event tn val kept =>
    rw [List.mem_singleton.mp mem]
    constructor
    · grind [TenantIsActive, SuspendsTenant]
    · simp [EndsUser]
    · simp
  | refused => exact absurd mem List.not_mem_nil
  | acceptNew tok pw salt nid found short fresh =>
    simp only [List.mem_cons, List.not_mem_nil, or_false] at mem
    rcases mem with rfl | rfl <;> apply eventRespects_of_neither <;> simp [SuspendsTenant, EndsUser]
  | acceptInvited tok pw salt nid found short read invited =>
    simp only [List.mem_cons, List.not_mem_nil, or_false] at mem
    rcases mem with rfl | rfl | rfl <;>
      apply eventRespects_of_neither <;> simp [SuspendsTenant, EndsUser]
  | _ =>
    rw [List.mem_singleton.mp mem]
    apply eventRespects_of_neither <;> simp [SuspendsTenant, EndsUser]

end Reads

/-! ### Runs -/

section Runs

variable [DecidableEq H]

/-- A sign-in of the user is under way: it has read them as active, or its challenge is still
pending. -/
def SigningIn (pl : Pool (Shared H E) (Flow H E)) (tid : TenantID) (uid : UserID) : Prop :=
  (∃ ch, Pending pl.shared ch ∧ ch.tenantID = tid ∧ ch.userID = uid)
    ∨ ∃ slot f, pl.flows slot = some f ∧ Holds tid uid f

/-- The move writes the user's deactivation, resets them, or suspends their tenant. -/
def Withdraws (pl : Pool (Shared H E) (Flow H E))
    (move : Move (Flow H E) Choice Event) (tid : TenantID) (uid : UserID) :
    Prop :=
  (∃ slot choice, move = .act slot choice
      ∧ pl.flows slot = some (.admin (.deactivateWrite tid uid)))
    ∨ (∃ email invID tok rids u, move = .environment (.resetUser tid email invID tok rids)
        ∧ getUserByEmail pl.shared.users tid email = some u ∧ u.id = uid)
    ∨ move = .environment (.suspend tid)

/-- The move withdraws the admission of nobody whose sign-in is under way. -/
structure Undisturbed (pl : Pool (Shared H E) (Flow H E))
    (move : Move (Flow H E) Choice Event) : Prop where
  user : ∀ tid uid, Withdraws pl move tid uid → ¬ SigningIn pl tid uid
  tenant : ∀ tid, move = .environment (.suspend tid) → pl.All fun _ f => ¬ HoldsTenant tid f

variable (hs : Hashing E) (ht : Token → H)

theorem obligations_of_undisturbed :
    (program hs ht).Obligations ChallengesRely Relies Undisturbed := by
  constructor
  · intro sh f invariant allowed
    constructor
    · intro tid uid held
      cases f with
      | signin f | completion f => cases f <;> first | exact held.elim | cases allowed
      | _ => exact held.elim
    · intro tid held
      cases f with
      | signin f => cases f <;> first | exact held.elim | cases allowed
      | _ => exact held.elim
  · intro pl slot f choice sh rest invariant assertions held permitted acted
    obtain ⟨effs, step, rfl⟩ := program_act acted
    -- whoever is signing in keeps the admission, as this action is no deactivation of them
    have keeps : ∀ tid uid, SigningIn pl tid uid → Admissible pl.shared tid uid →
        Admissible (pl.shared.applyAll effs) tid uid := by
      intro tid uid signingIn admissible
      apply admissible.applyAll
      intro eff mem
      have respects := step.respects mem
      refine ⟨?_, respects.suspends tid⟩
      intro ended
      have isWrite := respects.ends tid uid ended
      rw [isWrite] at held
      exact permitted.user tid uid (Or.inl ⟨slot, choice, rfl, held⟩) signingIn
    have keepsTenant : ∀ tid, TenantIsActive pl.shared tid →
        TenantIsActive (pl.shared.applyAll effs) tid := by
      intro tid active
      exact active.applyAll fun eff mem => (step.respects mem).suspends tid
    refine ⟨?_, ?_, ?_⟩
    · intro ch pending
      rcases pending_of_applyAll pending with pre | ⟨key, put⟩
      · exact keeps _ _ (Or.inl ⟨ch, pre, rfl, rfl⟩) (invariant ch pre)
      · have holds := (step.respects put).puts key ch rfl
        exact keeps _ _ (Or.inr ⟨slot, f, held, holds⟩) ((assertions slot f held).user _ _ holds)
    · intro next isNext
      subst isNext
      constructor
      · intro tid uid holds
        have admissible := step.holds invariant (assertions slot f held) holds
        apply admissible.applyAll
        intro eff mem
        have respects := step.respects mem
        refine ⟨?_, respects.suspends tid⟩
        intro ended
        have isWrite := respects.ends tid uid ended
        subst isWrite
        exact step.not_holds_of_admin holds
      grind [FlowStep.holdsTenant]
    · intro other flow' ne isHeld
      have relies := assertions other flow' isHeld
      constructor
      · intro tid uid holds
        exact keeps _ _ (Or.inr ⟨other, flow', isHeld, holds⟩) (relies.user _ _ holds)
      grind [Relies.tenant]
  · intro pl event sh invariant assertions permitted moved
    obtain ⟨effs, step, rfl⟩ := program_environment moved
    have keeps : ∀ tid uid, SigningIn pl tid uid → Admissible pl.shared tid uid →
        Admissible (pl.shared.applyAll effs) tid uid := by
      intro tid uid signingIn admissible
      apply admissible.applyAll
      intro eff mem
      have respects := step.respects mem
      constructor
      · intro ended
        obtain ⟨email, invID, tok, rids, u, isReset, found, isUser⟩ :=
          respects.ends tid uid admissible.user ended
        refine permitted.user tid uid (Or.inr (Or.inl ?_)) signingIn
        grind
      · intro suspended
        have isSuspend := respects.suspends tid admissible.tenant suspended
        exact permitted.user tid uid (Or.inr (Or.inr (by rw [isSuspend]))) signingIn
    refine ⟨?_, ?_⟩
    · intro ch pending
      rcases pending_of_applyAll pending with pre | ⟨key, put⟩
      · exact keeps _ _ (Or.inl ⟨ch, pre, rfl, rfl⟩) (invariant ch pre)
      · exact absurd rfl ((step.respects put).puts key ch)
    · intro slot f isHeld
      have relies := assertions slot f isHeld
      constructor
      · intro tid uid holds
        exact keeps _ _ (Or.inr ⟨slot, f, isHeld, holds⟩) (relies.user _ _ holds)
      · intro tid holds
        have active := relies.tenant tid holds
        apply active.applyAll
        intro eff mem suspended
        have isSuspend := (step.respects mem).suspends tid active suspended
        exact permitted.tenant tid (by rw [isSuspend]) slot f isHeld holds

/-- Along every run from a quiet start in which nobody's admission is withdrawn while their
sign-in is under way, a session is created only for an active user of an active tenant. -/
theorem session_created_for_admissible_user (init : Pool (Shared H E) (Flow H E))
    (idle : ∀ slot, init.flows slot = none)
    (noChallenge : ∀ ch, ¬ Pending init.shared ch)
    (moves : List (Move (Flow H E) Choice Event))
    (undisturbed : EveryStep (program hs ht).step Undisturbed init moves) :
    EveryStep (program hs ht).step (fun pre move => ∀ post creation,
        (program hs ht).step pre move = some post →
        post.shared.created = creation :: pre.shared.created →
        Admissible pre.shared creation.tenantID creation.userID) init moves := by
  have obligations := obligations_of_undisturbed hs ht
  refine everyStep_of_preserves (Program.step_preserves obligations) ?_ ?_ undisturbed
  · intro pre move invariant permitted post creation taken created
    obtain ⟨slot, choice, f, effs, rest, -, held, step, mem⟩ :=
      act_of_created taken created
    have holds := (step.respects mem).creates creation rfl
    exact (invariant.2 slot f held).user _ _ holds
  · refine ⟨fun ch pending => absurd pending (noChallenge ch), ?_⟩
    intro slot f held
    rw [idle slot] at held
    cases held

omit [DecidableEq H] in
theorem undisturbed_spawn (pl : Pool (Shared H E) (Flow H E)) (slot : Nat)
    (f : Flow H E) : Undisturbed pl (.spawn slot f) := by
  constructor
  · intro tid uid withdraws
    simp [Withdraws] at withdraws
  · intro tid isSuspend
    cases isSuspend

omit [DecidableEq H] in
theorem undisturbed_act {pl : Pool (Shared H E) (Flow H E)} {slot : Nat}
    (held : pl.flows slot = some f)
    (other : ∀ tid uid, f ≠ .admin (.deactivateWrite tid uid)) (choice : Choice) :
    Undisturbed pl (.act slot choice) := by
  constructor
  · grind [Withdraws]
  · intro tid isSuspend
    cases isSuspend

/-- An undisturbed sign-in, up to its session. -/
theorem undisturbed_signin_creates : ∃ fin creation,
      run (program (Sample.hashing false) Sample.hashToken).step (Sample.pool false [])
          Sample.signin = some fin
        ∧ fin.shared.created = [creation]
        ∧ EveryStep (program (Sample.hashing false) Sample.hashToken).step
          (fun pre move => ∀ post creation,
            (program (Sample.hashing false) Sample.hashToken).step pre move = some post →
            post.shared.created = creation :: pre.shared.created →
            Admissible pre.shared creation.tenantID creation.userID)
          (Sample.pool false []) Sample.signin := by
  refine ⟨_, _, rfl, rfl, ?_⟩
  refine session_created_for_admissible_user (Sample.hashing false) Sample.hashToken
    (Sample.pool false []) (fun _ => rfl) ?_ Sample.signin ?_
  · intro ch pending
    obtain ⟨key, read⟩ := pending
    cases read
  · refine ⟨undisturbed_spawn _ _ _, ?_⟩
    intro next taken
    cases taken
    iterate 8
      refine ⟨undisturbed_act rfl (by simp) _, ?_⟩
      intro next taken
      cases taken
    trivial

/-- The challenge of a sign-in outlives the deactivation of its user and still establishes a
session. -/
theorem challenge_outlives_deactivation : ∃ pre post creation,
      run (program (Sample.hashing false) Sample.hashToken).step (Sample.pool true [])
          (Sample.signin
            ++ .spawn 1 (.admin (.deactivate 1 1)) :: List.replicate 4 (.act 1 Sample.choice)
            ++ .spawn 2 (.completion (.pending [7] 0)) :: List.replicate 5 (.act 2 Sample.choice))
        = some pre
        ∧ (getUser pre.shared.users 1 1).map User.status = some .deactivated
        ∧ (program (Sample.hashing false) Sample.hashToken).step pre (.act 2 Sample.choice)
          = some post
        ∧ post.shared.created = creation :: pre.shared.created
        ∧ creation.tenantID = 1 ∧ creation.userID = 1 := by
  exact ⟨_, _, _, rfl, rfl, rfl, rfl, rfl, rfl⟩

end Runs

end TangraAuth.Accounts
