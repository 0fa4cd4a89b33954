import TangraAuth.Accounts.Steps

/-!
Contract: after a password change, sign-ins rest on the new password and the
stored hash is the new one's.

Owns: what sign-ins in flight and pending challenges have shown of a user's
password, which of them a change must not overtake, and the two results for
runs in which none is overtaken.

Does not own: whether the user may sign in at all.

History: `changed` holds the last change of a user and its epoch; a sign-in
step began after the change exactly when its `begun` is at least that epoch.
-/

namespace TangraAuth.Accounts

open Library Store

variable {H E : Type}

/-- The last changes, by tenant and user. -/
abbrev Changes := TenantID → UserID → Option (Nat × Password)

/-- What was presented is the user's password since the last change. -/
def Shows (chg : Changes) (tid : TenantID) (uid : UserID) (presented : Password) :
    Prop :=
  ∀ epoch pw, chg tid uid = some (epoch, pw) → presentedBytes presented = utf8 pw

/-- It is, or the step began before the last change. -/
def ShowsOrEarlier (chg : Changes) (tid : TenantID) (uid : UserID)
    (presented : Password) (begun : Nat) : Prop :=
  ∀ epoch pw, chg tid uid = some (epoch, pw) → presentedBytes presented = utf8 pw ∨ begun < epoch

variable {tid : TenantID} {uid : UserID} {presented : Password}

/-- The tables and caches agree with the last changes. -/
structure Agrees (hs : Hashing E) (sh : Shared H E) : Prop where
  stored : ∀ tid uid epoch pw, sh.changed tid uid = some (epoch, pw) →
    ∀ u ∈ sh.users.rows, u.tenantID = tid → u.id = uid →
      ∃ salt, u.passwordHash = some (hs.hash salt pw)
  epochs : ∀ tid uid epoch pw, sh.changed tid uid = some (epoch, pw) → epoch ≤ sh.epoch
  challenges : ∀ ch, Pending sh ch → Shows sh.changed ch.tenantID ch.userID ch.presented

/-- A password a sign-in in flight has shown, or will find to be right. `lasting` when a re-hash
or a challenge, which outlive the step, are still ahead. -/
structure Shown where
  tenantID : TenantID
  userID : UserID
  presented : Password
  begun : Nat
  lasting : Bool

def Challenge.shown (ch : Challenge) (begun : Nat) : Shown :=
  ⟨ch.tenantID, ch.userID, ch.presented, begun, false⟩

/-- A password that verifies against the hash that was read. -/
def shownTo (hs : Hashing E) (input : SigninInput) (u : User E) : Option Shown :=
  match hs.verify input.password u.passwordHash with
  | (false, _) => none
  | (true, weaker) =>
    some ⟨input.tenantID, u.id, input.password, input.begun, weaker || u.mfaEnabled⟩

def shown (hs : Hashing E) : Flow H E → Option Shown
  | .signin (.countAccount input (some _) (some u)) => shownTo hs input u
  | .signin (.locked input _ u) => shownTo hs input u
  | .signin (.verify input _ u) => shownTo hs input u
  | .signin (.rehash input _ u) =>
    some ⟨input.tenantID, u.id, input.password, input.begun, true⟩
  | .signin (.roles input _ u) =>
    some ⟨input.tenantID, u.id, input.password, input.begun, u.mfaEnabled⟩
  | .signin (.finish input _ u _) =>
    some ⟨input.tenantID, u.id, input.password, input.begun, u.mfaEnabled⟩
  | .completion (.locked _ begun ch) => some (ch.shown begun)
  | .completion (.verify _ begun ch) => some (ch.shown begun)
  | .completion (.consume _ begun ch _) => some (ch.shown begun)
  | .completion (.clear begun ch _) => some (ch.shown begun)
  | .completion (.establish begun ch _) => some (ch.shown begun)
  | _ => none

/-- The epoch a sign-in step began in. -/
def begunIn : Flow H E → Option Nat
  | .signin (.countIP input) => some input.begun
  | .signin (.lookup input) => some input.begun
  | .signin (.user input _) => some input.begun
  | .signin (.countAccount input _ _) => some input.begun
  | .signin (.locked input _ _) => some input.begun
  | .signin (.verify input _ _) => some input.begun
  | .signin (.rehash input _ _) => some input.begun
  | .signin (.roles input _ _) => some input.begun
  | .signin (.finish input _ _ _) => some input.begun
  | .completion (.pending _ begun) => some begun
  | .completion (.locked _ begun _) => some begun
  | .completion (.verify _ begun _) => some begun
  | .completion (.consume _ begun _ _) => some begun
  | .completion (.clear begun _ _) => some begun
  | .completion (.establish begun _ _) => some begun
  | _ => none

/-- What a flow has shown is the new password, unless nothing of it outlives a step that began
before the change. -/
structure Presents (hs : Hashing E) (sh : Shared H E)
    (f : Flow H E) : Prop where
  begun : ∀ epoch, begunIn f = some epoch → epoch ≤ sh.epoch
  lasting : ∀ given, shown hs f = some given → given.lasting = true →
    Shows sh.changed given.tenantID given.userID given.presented
  all : ∀ given, shown hs f = some given →
    ShowsOrEarlier sh.changed given.tenantID given.userID given.presented given.begun

/-! ### Calls that change no password -/

/-- Calls that neither re-hash or change a password nor put a challenge. -/
def Plain : Effect H E → Prop
  | .setPassword _ _ _ .rehash => False
  | .setPassword _ _ _ (.change _) => False
  | .putChallenge _ _ => False
  | _ => True

/-- No change is added and no epoch lost. -/
structure Forgets (pre post : Shared H E) : Prop where
  changed : ∀ tid uid change, post.changed tid uid = some change → pre.changed tid uid = some change
  epoch : pre.epoch ≤ post.epoch

variable {f : Flow H E}

section Plain

variable {hs : Hashing E} {pre post : Shared H E}

theorem Forgets.refl (sh : Shared H E) : Forgets sh sh :=
  ⟨fun _ _ _ isChange => isChange, Nat.le_refl _⟩

theorem Forgets.trans {last : Shared H E} (first : Forgets pre post)
    (second : Forgets post last) : Forgets pre last :=
  ⟨fun tid uid change isChange =>
      first.changed tid uid change (second.changed tid uid change isChange),
    Nat.le_trans first.epoch second.epoch⟩

theorem Forgets.shows (forgets : Forgets pre post) (shows : Shows pre.changed tid uid presented) :
    Shows post.changed tid uid presented :=
  fun epoch pw isChange =>
    shows epoch pw (forgets.changed tid uid _ isChange)

theorem Forgets.presents (forgets : Forgets pre post) (presents : Presents hs pre f) :
    Presents hs post f :=
  ⟨fun epoch isBegun => Nat.le_trans (presents.begun epoch isBegun) forgets.epoch,
    fun given isShown isLasting => forgets.shows (presents.lasting given isShown isLasting),
    fun given isShown epoch pw isChange =>
      presents.all given isShown epoch pw (forgets.changed _ _ _ isChange)⟩

/-- Changed users keep their hashes. -/
def RowsKept (pre post : Shared H E) : Prop :=
  ∀ u ∈ post.users.rows, ∀ change, post.changed u.tenantID u.id = some change →
    ∃ old ∈ pre.users.rows, old.tenantID = u.tenantID ∧ old.id = u.id
      ∧ old.passwordHash = u.passwordHash

/-- A call that adds no change and no challenge and keeps the hashes of changed users keeps the
agreement. -/
theorem Agrees.of_rows (agrees : Agrees hs pre) (forgets : Forgets pre post)
    (challenges : ∀ ch, Pending post ch → Pending pre ch)
    (rs : RowsKept pre post) : Agrees hs post := by
  constructor
  · intro tid uid epoch pw isChange u mem isT isID
    subst isT isID
    obtain ⟨old, oldMem, sameTenant, sameID, sameHash⟩ := rs u mem _ isChange
    have stored := agrees.stored _ _ _ _ (forgets.changed _ _ _ isChange) old oldMem
      sameTenant sameID
    rw [sameHash] at stored
    exact stored
  · intro tid uid epoch pw isChange
    have bound := agrees.epochs _ _ _ _ (forgets.changed _ _ _ isChange)
    exact Nat.le_trans bound forgets.epoch
  grind [Forgets.shows, challenges]

variable {matching : User E → Bool} {change : User E → User E}

/-- An update that keeps keys, and the hashes of all whose history does not start over. -/
theorem rows_of_update (isUpdate : post.users.rows = updateWhere matching change pre.users.rows)
    (keepsTenant : ∀ u, (change u).tenantID = u.tenantID)
    (keepsID : ∀ u, (change u).id = u.id)
    (keepsHash : ∀ u, matching u = true →
      (change u).passwordHash = u.passwordHash ∨ post.changed u.tenantID u.id = none) :
    RowsKept pre post := by
  intro u mem _ isChange
  rw [isUpdate] at mem
  obtain ⟨old, oldMem, ⟨matched, rfl⟩ | ⟨-, rfl⟩⟩ := of_mem_updateWhere mem
  · rw [keepsTenant, keepsID] at isChange ⊢
    rcases keepsHash old matched with same | forgotten
    · exact ⟨old, oldMem, rfl, rfl, same.symm⟩
    · rw [forgotten] at isChange
      cases isChange
  · exact ⟨u, oldMem, rfl, rfl, rfl⟩

theorem forgets_initial (sh : Shared H E) (tid : TenantID)
    (uid : UserID) : Forgets sh (sh.note tid uid .initial) := by
  refine ⟨?_, Nat.le_refl _⟩
  grind [Shared.note]

theorem note_initial (sh : Shared H E) {u : User E} (matched : isUser tid uid u = true) :
    (sh.note tid uid .initial).changed u.tenantID u.id = none := by
  simp [Shared.note, isUser_iff.mp matched]

variable [DecidableEq H]

variable {eff : Effect H E}

theorem forgets_of_plain {sh : Shared H E} (plain : Plain eff) : Forgets sh (sh.apply eff) := by
  have initial := forgets_initial sh
  cases eff with
  | insertUser u => exact ⟨(initial u.tenantID u.id).changed, Nat.le_refl _⟩
  | resetCredentials tn u => exact ⟨(initial tn u).changed, Nat.le_refl _⟩
  | setPassword tn u encoded purpose =>
    cases purpose with
    | rehash => exact plain.elim
    | change pw => exact plain.elim
    | initial => exact ⟨(initial tn u).changed, Nat.le_refl _⟩
  | refuse u pol key =>
    simp only [Shared.apply, Shared.refuse]
    split_ifs
    · exact ⟨fun _ _ _ isChange => isChange, Nat.le_refl _⟩
    · exact ⟨fun _ _ _ isChange => isChange, Nat.le_refl _⟩
  | _ => exact ⟨fun _ _ _ isChange => isChange, Nat.le_refl _⟩

theorem Agrees.apply_plain {sh : Shared H E} (agrees : Agrees hs sh)
    (plain : Plain eff) : Agrees hs (sh.apply eff) := by
  have challenges : ∀ ch, Pending (sh.apply eff) ch → Pending sh ch := by
    intro ch pending
    rcases pending_of_apply pending with pre | ⟨key, isPut⟩
    · exact pre
    · subst isPut
      exact plain.elim
  refine agrees.of_rows (forgets_of_plain plain) challenges ?_
  have untouched : (sh.apply eff).users = sh.users → RowsKept sh (sh.apply eff) := by
    intro same u mem _ _
    rw [same] at mem
    exact ⟨u, mem, rfl, rfl, rfl⟩
  cases eff with
  | insertUser inserted =>
    intro u mem change isChange
    rcases of_mem_insertUser mem with old | ⟨rfl, -⟩
    · exact ⟨u, old, rfl, rfl, rfl⟩
    · cases (note_initial sh (isUser_iff.mpr ⟨rfl, rfl⟩)).symm.trans isChange
  | deleteImportedUser tn u =>
    intro row mem _ _
    exact ⟨row, (List.mem_filter.mp mem).1, rfl, rfl, rfl⟩
  | updateImportedUser tn u address | updateUserStatus tn u status
  | setMFA tn u enabled =>
    exact rows_of_update rfl (fun _ => rfl) (fun _ => rfl) fun _ _ => Or.inl rfl
  | setPassword tn u encoded purpose =>
    cases purpose with
    | rehash => exact plain.elim
    | change pw => exact plain.elim
    | initial =>
      exact rows_of_update rfl (fun _ => rfl) (fun _ => rfl)
        fun _ matched => Or.inr (note_initial sh matched)
  | resetCredentials tn u =>
    refine rows_of_update rfl (fun _ => rfl) (fun _ => rfl) fun _ matched => ?_
    simp only [resettable, Bool.and_eq_true] at matched
    exact Or.inr (note_initial sh matched.1)
  | refuse u pol key =>
    refine untouched ?_
    simp only [Shared.apply, Shared.refuse]
    split_ifs <;> rfl
  | _ => exact untouched rfl

theorem Agrees.applyAll_plain {sh : Shared H E} (agrees : Agrees hs sh)
    {effs : List (Effect H E)} (plain : ∀ eff ∈ effs, Plain eff) :
    Agrees hs (sh.applyAll effs) ∧ Forgets sh (sh.applyAll effs) := by
  have callKeeps : ∀ (now : Shared H E) (eff : Effect H E),
      (Agrees hs now ∧ Forgets sh now) → Plain eff →
      Agrees hs (now.apply eff) ∧ Forgets sh (now.apply eff) :=
    fun now eff holds isPlain =>
      ⟨holds.1.apply_plain isPlain, holds.2.trans (forgets_of_plain isPlain)⟩
  exact applyAll_preserves callKeeps plain ⟨agrees, Forgets.refl sh⟩

end Plain

/-! ### Calls that write a password or a challenge -/

section Writes

variable [DecidableEq H] {hs : Hashing E} {sh : Shared H E}

/-- The bytes of a password within the length limit are compared uncut. -/
theorem hash_of_shown {pw : Password} (short : presented.length ≤ maxLength)
    (same : presentedBytes presented = utf8 pw) (salt : Nat) :
    hs.hash salt presented = hs.hash salt pw := by
  have uncut : presentedBytes presented = utf8 presented := by
    unfold presentedBytes
    rw [if_neg (by omega)]
  unfold Hashing.hash
  rw [← uncut, same]

/-- A re-hash of the password that was shown stores a hash of the same password. -/
theorem Agrees.rehash (agrees : Agrees hs sh)
    (shows : Shows sh.changed tid uid presented) (short : presented.length ≤ maxLength)
    (salt : Nat) :
    Agrees hs (sh.apply (.setPassword tid uid (hs.hash salt presented) .rehash)) := by
  have sameChanges : (sh.apply (.setPassword tid uid
      (hs.hash salt presented) .rehash)).changed = sh.changed := by
    funext tn u
    simp [Shared.apply, Shared.note]
  constructor
  · rw [sameChanges]
    intro tn id epoch pw isChange u mem isT isID
    obtain ⟨old, oldMem, out⟩ := of_mem_updateWhere mem
    rcases out with ⟨matched, isUser⟩ | ⟨-, isUser⟩
    · subst isUser
      have key := isUser_iff.mp matched
      have isKey : tn = tid ∧ id = uid :=
        ⟨isT.symm.trans key.1, isID.symm.trans key.2⟩
      rw [isKey.1, isKey.2] at isChange
      exact ⟨salt, congrArg some (hash_of_shown short (shows epoch pw isChange) salt)⟩
    grind [stored]
  · rw [sameChanges]
    exact agrees.epochs
  · intro ch pending
    rw [sameChanges]
    exact agrees.challenges ch pending

theorem changed_of_change {tn : TenantID} {u : UserID} {encoded : E}
    {pw : Password} {change : Nat × Password}
    (isChange : (sh.apply (.setPassword tid uid encoded (.change pw))).changed tn u = some change) :
    (tn = tid ∧ u = uid ∧ change = (sh.epoch + 1, pw))
      ∨ (¬ (tn = tid ∧ u = uid) ∧ sh.changed tn u = some change) := by
  by_cases same : tn = tid ∧ u = uid
  · have isNew : some (sh.epoch + 1, pw) = some change := by
      simpa [Shared.apply, Shared.note, same] using isChange
    exact Or.inl ⟨same.1, same.2, (Option.some.inj isNew).symm⟩
  · exact Or.inr ⟨same, by simpa [Shared.apply, Shared.note, same] using isChange⟩

/-- A change that overtakes no pending challenge of its user. -/
theorem Agrees.change (agrees : Agrees hs sh) (alone : ∀ ch, Pending sh ch →
      ¬ (ch.tenantID = tid ∧ ch.userID = uid)) (salt : Nat)
    (pw : Password) :
    Agrees hs (sh.apply (.setPassword tid uid (hs.hash salt pw) (.change pw))) := by
  constructor
  · intro tn id epoch written isChange u mem isT isID
    obtain ⟨old, oldMem, out⟩ := of_mem_updateWhere mem
    rcases changed_of_change isChange with ⟨sameTenant, sameID, isNew⟩ | ⟨other, pre⟩
    · cases isNew
      rcases out with ⟨-, isUser⟩ | ⟨unmatched, isUser⟩
      · subst isUser
        exact ⟨salt, rfl⟩
      · subst isUser
        have matched : isUser tid uid u = true :=
          isUser_iff.mpr ⟨isT.trans sameTenant, isID.trans sameID⟩
        rw [matched] at unmatched
        cases unmatched
    · rcases out with ⟨matched, isUser⟩ | ⟨-, isUser⟩
      · subst isUser
        have key := isUser_iff.mp matched
        exact absurd ⟨isT.symm.trans key.1, isID.symm.trans key.2⟩ other
      grind [stored]
  · intro tn id epoch written isChange
    show epoch ≤ sh.epoch + 1
    rcases changed_of_change isChange with ⟨-, -, isNew⟩ | ⟨-, pre⟩
    · cases isNew
      omega
    · have bound := agrees.epochs tn id epoch written pre
      omega
  · intro ch pending epoch written isChange
    have pre : Pending sh ch := pending
    rcases changed_of_change isChange with ⟨sameTenant, sameID, -⟩ | ⟨-, isOld⟩
    · exact absurd ⟨sameTenant, sameID⟩ (alone ch pre)
    · exact agrees.challenges ch pre epoch written isOld

theorem Agrees.putChallenge (agrees : Agrees hs sh) (key : H)
    {ch : Challenge}
    (shows : Shows sh.changed ch.tenantID ch.userID ch.presented) :
    Agrees hs (sh.apply (.putChallenge key ch)) := by
  refine ⟨agrees.stored, agrees.epochs, ?_⟩
  grind [pending_of_apply, challenges, Shared.apply]

omit [DecidableEq H] in
theorem begunIn_of_shown {given : Shown} (isShown : shown hs f = some given) :
    begunIn f = some given.begun := by
  have read : ∀ {input : SigninInput} {u : User E},
      shownTo hs input u = some given → some input.begun = some given.begun := by
    intro input u isRead
    unfold shownTo at isRead
    split at isRead
    case h_1 => cases isRead
    case h_2 =>
      cases isRead
      rfl
  cases f with
  | signin f =>
    cases f with
    | countAccount input tn known =>
      cases tn with
      | none => cases isShown
      | some tn =>
        cases known with
        | none => cases isShown
        | some u => exact read isShown
    | locked input tn u => exact read isShown
    | verify input tn u => exact read isShown
    | rehash input tn u | roles input tn u | finish input tn u roles =>
      cases isShown; rfl
    | _ => cases isShown
  | completion f =>
    cases f with
    | pending challengeID begun => cases isShown
    | _ => cases isShown; rfl
  | _ => cases isShown

/-- A flow that has shown nothing lasting of the user's password presents it after a change as
before: it began earlier. -/
theorem Presents.change (presents : Presents hs sh f)
    (alone : ∀ given, shown hs f = some given → given.lasting = true →
      ¬ (given.tenantID = tid ∧ given.userID = uid)) (encoded : E)
    (pw : Password) :
    Presents hs (sh.apply (.setPassword tid uid encoded (.change pw))) f := by
  constructor
  · intro epoch isBegun
    have bound := presents.begun epoch isBegun
    show epoch ≤ sh.epoch + 1
    omega
  · intro given isShown lasting epoch written isChange
    rcases changed_of_change isChange with ⟨sameTenant, sameID, -⟩ | ⟨-, pre⟩
    · exact absurd ⟨sameTenant, sameID⟩ (alone given isShown lasting)
    · exact presents.lasting given isShown lasting epoch written pre
  · intro given isShown epoch written isChange
    rcases changed_of_change isChange with ⟨-, -, isNew⟩ | ⟨-, pre⟩
    · have bound := presents.begun given.begun (begunIn_of_shown isShown)
      cases isNew
      exact Or.inr (by omega)
    · exact presents.all given isShown epoch written pre

end Writes

/-! ### Actions and events -/

section Steps

variable {hs : Hashing E} {ht : Token → H} {sh : Shared H E}
  {effs : List (Effect H E)}

theorem presents_of_none (begun : ∀ epoch, begunIn f = some epoch → epoch ≤ sh.epoch)
    (nothing : shown hs f = none) : Presents hs sh f := by
  refine ⟨begun, ?_, ?_⟩
  · intro given isShown
    rw [nothing] at isShown
    cases isShown
  · intro given isShown
    rw [nothing] at isShown
    cases isShown

/-- A flow that shows the new password presents it, whatever it does with it. -/
theorem presents_of_shows (begun : ∀ epoch, begunIn f = some epoch → epoch ≤ sh.epoch)
    (shows : ∀ given, shown hs f = some given →
      Shows sh.changed given.tenantID given.userID given.presented) :
    Presents hs sh f :=
  ⟨begun, fun given isShown _ => shows given isShown,
    fun given isShown epoch pw isChange => Or.inl (shows given isShown epoch pw isChange)⟩

variable {input : SigninInput} {u : User E} {rest : Option (Flow H E)}

theorem shownTo_eq_some {given : Shown} (isShown : shownTo hs input u = some given) :
    (hs.verify input.password u.passwordHash).1 = true
      ∧ given.tenantID = input.tenantID ∧ given.userID = u.id
      ∧ given.presented = input.password := by
  grind [shownTo]

/-- A password that verifies against the row of a changed user is the new one. -/
theorem Agrees.shows_of_read (faithful : hs.Faithful) (agrees : Agrees hs sh)
    (mem : u ∈ sh.users.rows) (isT : u.tenantID = input.tenantID)
    (accepted : (hs.verify input.password u.passwordHash).1 = true) :
    Shows sh.changed input.tenantID u.id input.password := by
  intro epoch pw isChange
  obtain ⟨salt, stored⟩ := agrees.stored _ _ _ _ isChange u mem isT rfl
  rw [stored] at accepted
  exact faithful salt (utf8 pw) (presentedBytes input.password) accepted

/-- The next point of `Start` presents what the last one did, or what it has just read. -/
theorem SigninStep.presents (faithful : hs.Faithful) (agrees : Agrees hs sh)
    {f next : SigninFlow E}
    (step : SigninStep hs ht sh f effs (some next))
    (presents : Presents hs sh (.signin f : Flow H E)) :
    Presents hs sh (.signin next : Flow H E) := by
  cases step with
  | admitted input idle | noTenant input | tenantRead input found | unknown input tn =>
    exact presents_of_none presents.begun rfl
  | @userRead input tn u found known =>
    refine presents_of_shows presents.begun ?_
    intro given isShown
    have read := getUserByEmail_eq_some found
    obtain ⟨accepted, isT, isUser, isPassword⟩ := shownTo_eq_some isShown
    rw [isT, isUser, isPassword]
    exact agrees.shows_of_read faithful read.1 read.2.1 accepted
  | counted input tn u idle | unlocked input tn u
  | rolesRead input tn u roles => exact ⟨presents.begun, presents.lasting, presents.all⟩
  | verified input tn u idle accepted tenantActive userActive =>
    have isShown : shown hs (.signin (.verify input tn u) : Flow H E)
        = some ⟨input.tenantID, u.id, input.password, input.begun,
          (hs.verify input.password u.passwordHash).2 || u.mfaEnabled⟩ := by
      show shownTo hs input u = _
      unfold shownTo
      split
      case h_1 verdict =>
        rw [verdict] at accepted
        cases accepted
      case h_2 verdict => rw [verdict]
    refine ⟨presents.begun, ?_, ?_⟩
    · grind [Presents.lasting, shown]
    · intro given isGiven
      cases isGiven
      have shows := presents.all _ isShown
      exact shows
  | verifiedWeak input tn u idle accepted tenantActive userActive =>
    have isShown : shown hs (.signin (.verify input tn u) : Flow H E)
        = some ⟨input.tenantID, u.id, input.password, input.begun, true⟩ := by
      show shownTo hs input u = _
      unfold shownTo
      rw [accepted]
      rfl
    refine presents_of_shows presents.begun ?_
    grind [Presents.lasting, shown]
  | rehashFailed input tn u | rehashed input tn u salt =>
    refine presents_of_shows presents.begun ?_
    intro given isGiven
    cases isGiven
    have shows := presents.lasting _ rfl rfl
    exact shows

theorem CompletionStep.presents [DecidableEq H] (agrees : Agrees hs sh)
    {f next : CompletionFlow H}
    (step : CompletionStep ht sh f effs (some next))
    (presents : Presents hs sh (.completion f : Flow H E)) :
    Presents hs sh (.completion next : Flow H E) := by
  cases step with
  | @loaded challengeID begun ch found =>
    refine presents_of_shows presents.begun ?_
    intro given isGiven
    cases isGiven
    exact agrees.challenges ch ⟨_, found⟩
  | unlocked key begun ch | verified key begun ch method
  | consumed key begun ch method idle | cleared begun ch method idle =>
    exact ⟨presents.begun, presents.lasting, presents.all⟩

theorem FlowStep.presents [DecidableEq H] (faithful : hs.Faithful)
    (agrees : Agrees hs sh) {next : Flow H E}
    (step : FlowStep hs ht sh f effs (some next))
    (presents : Presents hs sh f) : Presents hs sh next := by
  have silent : ∀ {other : Flow H E}, begunIn other = none →
      shown hs other = none → Presents hs sh other := by
    intro other notBegun nothing
    refine presents_of_none ?_ nothing
    intro epoch isBegun
    rw [notBegun] at isBegun
    cases isBegun
  generalize isRest : some next = rest at step
  cases step with
  | signin step =>
    obtain ⟨inner, rfl, rfl⟩ := Option.map_eq_some_iff.mp isRest.symm
    exact step.presents faithful agrees presents
  | completion step =>
    obtain ⟨inner, rfl, rfl⟩ := Option.map_eq_some_iff.mp isRest.symm
    exact step.presents agrees presents
  | request step | recovery step | change step | admin step =>
    obtain ⟨inner, rfl, rfl⟩ := Option.map_eq_some_iff.mp isRest.symm
    exact silent rfl rfl

/-- The writes of an action: none of a password or a challenge, a re-hash, a change, or the
challenge of a user with a second factor. -/
theorem FlowStep.writes [DecidableEq H] (step : FlowStep hs ht sh f effs rest) :
    (∀ eff ∈ effs, Plain eff) ∨ (∃ input tn u salt, f = .signin (.rehash input tn u)
        ∧ effs = [.setPassword input.tenantID u.id (hs.hash salt input.password) .rehash])
      ∨ (∃ tid uid salt pw, ((∃ req, f = .recovery (.set pw req) ∧ req.tenantID = tid
            ∧ req.userID = uid)
          ∨ f = .change (.set tid uid pw))
        ∧ effs = [.setPassword tid uid (hs.hash salt pw) (.change pw)]
        ∧ ∀ next, rest = some next → shown hs next = none)
      ∨ (∃ input tn u roles key ch, f = .signin (.finish input tn u roles) ∧ u.mfaEnabled = true
          ∧ ch.tenantID = input.tenantID ∧ ch.userID = u.id
          ∧ ch.presented = input.password
          ∧ effs = [.putChallenge key ch]) := by
  have plain : AllIdle effs → ∀ eff ∈ effs, Plain eff := by
    intro allIdle eff mem
    have idle := allIdle eff mem
    cases eff <;> trivial
  cases step with
  | signin step =>
    cases step with
    | stops _ allIdle | admitted input allIdle | counted input tn u allIdle
    | verified input tn u allIdle | verifiedWeak input tn u allIdle =>
      exact Or.inl (plain allIdle)
    | rehashed input tn u salt =>
      exact Or.inr (Or.inl ⟨input, tn, u, salt, rfl, rfl⟩)
    | challenged input tn u roles operator pol tok enrolled =>
      grind
    | established input tn u roles operator pol enrolled =>
      exact Or.inl (by simp [Plain])
    | _ => exact Or.inl (by simp)
  | completion step =>
    cases step with
    | stops _ allIdle | consumed key begun ch method allIdle
    | cleared begun ch method allIdle => exact Or.inl (plain allIdle)
    | established begun ch method => exact Or.inl (by simp [Plain])
    | _ => exact Or.inl (by simp)
  | request step | admin step => cases step <;> exact Or.inl (by simp [Plain])
  | recovery step =>
    cases step with
    | written pw req salt =>
      grind [shown]
    | used hash pw req => exact Or.inl (by simp [Plain])
    | _ => exact Or.inl (by simp)
  | change step =>
    cases step with
    | written tn u pw salt =>
      grind [shown]
    | _ => exact Or.inl (by simp)

/-- What was presented for a session that is created. -/
theorem FlowStep.creates [DecidableEq H] {creation : Creation}
    (step : FlowStep hs ht sh f effs rest)
    (created : .create creation ∈ effs) :
    ∃ given, shown hs f = some given ∧ given.tenantID = creation.tenantID
      ∧ given.userID = creation.userID ∧ given.presented = creation.presented
      ∧ given.begun = creation.begun := by
  have notIdle : ¬ AllIdle effs := fun allIdle => (allIdle _ created).elim
  cases step with
  | signin step =>
    cases step with
    | stops _ allIdle | admitted input allIdle | counted input tn u allIdle
    | verified input tn u allIdle | verifiedWeak input tn u allIdle =>
      exact absurd allIdle notIdle
    | established input tn u roles operator pol enrolled =>
      cases List.mem_singleton.mp created
      exact ⟨_, rfl, rfl, rfl, rfl, rfl⟩
    | _ => simp at created
  | completion step =>
    cases step with
    | stops _ allIdle | consumed key begun ch method allIdle
    | cleared begun ch method allIdle => exact absurd allIdle notIdle
    | established begun ch method =>
      cases List.mem_singleton.mp created
      exact ⟨_, rfl, rfl, rfl, rfl, rfl⟩
    | _ => simp at created
  | request step | recovery step | change step | admin step => cases step <;> simp at created

theorem EventStep.plain [DecidableEq H] {event : Event} (step : EventStep hs ht sh event effs) :
    ∀ eff ∈ effs, Plain eff := by
  cases step <;> simp [Plain]

end Steps

/-! ### Runs -/

section Runs

variable [DecidableEq H] (hs : Hashing E) (ht : Token → H)

/-- The move writes the new password of a change or of a recovery. -/
def Commits (pl : Pool (Shared H E) (Flow H E))
    (move : Move (Flow H E) Choice Event) (tid : TenantID) (uid : UserID) :
    Prop :=
  ∃ slot choice pw, move = .act slot choice
    ∧ ((∃ req, pl.flows slot = some (.recovery (.set pw req))
        ∧ req.tenantID = tid ∧ req.userID = uid)
      ∨ pl.flows slot = some (.change (.set tid uid pw)))

/-- No change overtakes a sign-in of its user that has a re-hash or a challenge still ahead or
pending, and no re-hash is made of a password over the length limit. -/
structure Orderly (pl : Pool (Shared H E) (Flow H E))
    (move : Move (Flow H E) Choice Event) : Prop where
  challenges : ∀ tid uid, Commits pl move tid uid → ∀ ch, Pending pl.shared ch →
      ¬ (ch.tenantID = tid ∧ ch.userID = uid)
  signins : ∀ tid uid, Commits pl move tid uid →
    pl.All fun _ f => ∀ given, shown hs f = some given → given.lasting = true →
      ¬ (given.tenantID = tid ∧ given.userID = uid)
  rehashes : ∀ slot choice input tn u, move = .act slot choice →
    pl.flows slot = some (.signin (.rehash input tn u)) →
    input.password.length ≤ maxLength

theorem obligations_of_orderly (faithful : hs.Faithful) :
    (program hs ht).Obligations (Agrees hs) (Presents hs) (Orderly hs) := by
  constructor
  · intro sh f agrees allowed
    have nothing : shown hs f = none := by
      cases f with
      | signin f | completion f => cases f <;> first | rfl | cases allowed
      | _ => rfl
    refine presents_of_none ?_ nothing
    intro epoch isBegun
    cases f with
    | signin f =>
      cases f with
      | countIP input =>
        have now : input.begun = sh.epoch := beq_iff_eq.mp allowed
        grind [begunIn]
      | _ => cases allowed
    | completion f =>
      cases f with
      | pending challengeID begun =>
        have now : begun = sh.epoch := beq_iff_eq.mp allowed
        have isEpoch : begun = epoch := Option.some.inj isBegun
        omega
      | _ => cases allowed
    | _ => cases isBegun
  · intro pl slot f choice sh rest agrees assertions held orderly acted
    obtain ⟨effs, step, rfl⟩ := program_act acted
    have presents := assertions slot f held
    -- what the flow presents next it presents already in the state before
    have next : ∀ post, rest = some post → Presents hs pl.shared post := by
      intro post isAfter
      subst isAfter
      exact step.presents faithful agrees presents
    rcases step.writes with plain | rehash | change | put
    · grind [Agrees.applyAll_plain, Forgets.presents, Pool.All]
    · obtain ⟨input, tn, u, salt, isFlow, isEffects⟩ := rehash
      subst isFlow isEffects
      have short := orderly.rehashes slot choice input tn u rfl held
      have shows := presents.lasting _ rfl rfl
      have forgets : Forgets pl.shared (pl.shared.apply (.setPassword input.tenantID u.id
          (hs.hash salt input.password) .rehash)) := by
        refine ⟨?_, Nat.le_refl _⟩
        intro tid uid change isChange
        simpa [Shared.apply, Shared.note] using isChange
      exact ⟨agrees.rehash shows short salt,
        fun post isAfter => forgets.presents (next post isAfter),
        fun other flow' _ isHeld => forgets.presents (assertions other flow' isHeld)⟩
    · obtain ⟨tid, uid, salt, pw, isFlow, isEffects, nothing⟩ := change
      subst isEffects
      have commits : Commits pl (.act slot choice) tid uid := by
        refine ⟨slot, choice, pw, rfl, ?_⟩
        rcases isFlow with ⟨req, isFlow, isT, isUser⟩ | isFlow
        · exact Or.inl ⟨req, isFlow ▸ held, isT, isUser⟩
        · exact Or.inr (isFlow ▸ held)
      refine ⟨agrees.change (orderly.challenges tid uid commits) salt pw, ?_, ?_⟩
      · intro post isAfter
        apply (next post isAfter).change
        grind
      · intro other flow' _ isHeld
        exact (assertions other flow' isHeld).change
          (orderly.signins tid uid commits other flow' isHeld) _ pw
    · obtain ⟨input, tn, u, roles, key, ch, isFlow, enrolled, isT, isUser,
        isPassword, isEffects⟩ := put
      subst isFlow isEffects
      have shows := presents.lasting _ rfl enrolled
      have forgets : Forgets pl.shared (pl.shared.apply (.putChallenge key ch)) :=
        ⟨fun _ _ _ isChange => isChange, Nat.le_refl _⟩
      refine ⟨agrees.putChallenge key ?_, fun post isAfter => forgets.presents (next post isAfter),
        fun other flow' _ isHeld => forgets.presents (assertions other flow' isHeld)⟩
      rw [isT, isUser, isPassword]
      exact shows
  · intro pl event sh agrees assertions orderly moved
    obtain ⟨effs, step, rfl⟩ := program_environment moved
    grind [Agrees.applyAll_plain, EventStep.plain, Forgets.presents, Pool.All]

/-- Along every orderly run from a start without calls in flight: a sign-in step that began after
the last change of the user's password creates a session only for the new password, and in every
state the stored hash of a changed user is a hash of the new password. -/
theorem signin_rests_on_changed_password (faithful : hs.Faithful)
    (init : Pool (Shared H E) (Flow H E))
    (idle : ∀ slot, init.flows slot = none)
    (unchanged : ∀ tid uid, init.shared.changed tid uid = none)
    (moves : List (Move (Flow H E) Choice Event))
    (orderly : EveryStep (program hs ht).step (Orderly hs) init moves) :
    EveryStep (program hs ht).step (fun pre move => ∀ post creation epoch pw,
          (program hs ht).step pre move = some post →
          post.shared.created = creation :: pre.shared.created →
          pre.shared.changed creation.tenantID creation.userID = some (epoch, pw) →
          epoch ≤ creation.begun → presentedBytes creation.presented = utf8 pw)
        init moves
      ∧ ∀ fin, run (program hs ht).step init moves = some fin →
        ∀ tid uid epoch pw u, fin.shared.changed tid uid = some (epoch, pw) →
          getUser fin.shared.users tid uid = some u →
          ∃ salt, u.passwordHash = some (hs.hash salt pw) := by
  have obligations := obligations_of_orderly hs ht faithful
  have initially : Agrees hs init.shared ∧ init.All (Presents hs) := by
    have none_changed : ∀ {tid uid change}, init.shared.changed tid uid ≠ some change := by
      intro tid uid change isChange
      rw [unchanged] at isChange
      cases isChange
    refine ⟨⟨?_, ?_, ?_⟩, ?_⟩
    · exact fun _ _ _ _ isChange => absurd isChange none_changed
    · exact fun _ _ _ _ isChange => absurd isChange none_changed
    · exact fun _ _ _ _ isChange => absurd isChange none_changed
    · intro slot f held
      rw [idle slot] at held
      cases held
  constructor
  · refine everyStep_of_preserves (Program.step_preserves obligations) ?_ initially orderly
    intro pre move inv permitted post creation epoch pw taken created isChange afterwards
    obtain ⟨slot, choice, f, effs, rest, -, held, step, mem⟩ :=
      act_of_created taken created
    obtain ⟨given, isShown, isT, isUser, isPresented, isBegun⟩ := step.creates mem
    have shows := (inv.2 slot f held).all given isShown
    rw [isT, isUser, isPresented, isBegun] at shows
    rcases shows epoch pw isChange with same | earlier
    · exact same
    · omega
  · intro fin reaches tid uid epoch pw u isChange found
    have inv := Program.run_preserves obligations initially orderly reaches
    have read := getUser_eq_some found
    exact inv.1.stored tid uid epoch pw isChange u read.1 read.2.1 read.2.2

omit [DecidableEq H] in
theorem orderly_spawn (pl : Pool (Shared H E) (Flow H E)) (slot : Nat)
    (f : Flow H E) : Orderly hs pl (.spawn slot f) := by
  have none_commits : ∀ tid uid, ¬ Commits pl (.spawn slot f) tid uid := by
    intro tid uid commits
    obtain ⟨_, _, _, isAct, -⟩ := commits
    cases isAct
  refine ⟨fun tid uid commits => absurd commits (none_commits tid uid),
    fun tid uid commits => absurd commits (none_commits tid uid), ?_⟩
  intro _ _ _ _ _ isAct
  cases isAct

omit [DecidableEq H] in
/-- An action that is neither the write of a new password nor a re-hash is orderly. -/
theorem orderly_act {pl : Pool (Shared H E) (Flow H E)} {slot : Nat} (held : pl.flows slot = some f)
    (notRecovery : ∀ pw req, f ≠ .recovery (.set pw req))
    (notChange : ∀ tid uid pw, f ≠ .change (.set tid uid pw))
    (notRehash : ∀ input tn u, f ≠ .signin (.rehash input tn u)) (choice : Choice) :
    Orderly hs pl (.act slot choice) := by
  have none_commits : ∀ tid uid, ¬ Commits pl (.act slot choice) tid uid := by
    intro tid uid commits
    obtain ⟨_, _, pw, isAct, writes⟩ := commits
    cases isAct
    rw [held] at writes
    rcases writes with ⟨req, isFlow, -⟩ | isFlow
    · exact notRecovery pw req (Option.some.inj isFlow)
    · exact notChange tid uid pw (Option.some.inj isFlow)
  refine ⟨fun tid uid commits => absurd commits (none_commits tid uid),
    fun tid uid commits => absurd commits (none_commits tid uid), ?_⟩
  grind

theorem Sample.hashing_faithful (weak : Bool) : (Sample.hashing weak).Faithful := by
  intro salt stored presented accepted
  exact eq_of_beq accepted

/-- A change of the sample user's password, up to its return. -/
def Sample.change : List (Move (Flow (List UInt8) (List UInt8)) Choice Event) :=
  .spawn 1 (.change (.user 1 1 Sample.oldPassword Sample.newPassword))
    :: List.replicate 4 (.act 1 Sample.choice)

def Sample.changeThenSignin : List (Move (Flow (List UInt8) (List UInt8)) Choice Event) :=
  Sample.change ++ .spawn 0 (.signin (.countIP ⟨1, 1, Sample.newPassword, 4, 1⟩))
    :: List.replicate 8 (.act 0 Sample.choice)

/-- A sign-in with the new password after an undisturbed change. -/
theorem changed_password_signs_in : ∃ fin creation,
      run (program (Sample.hashing false) Sample.hashToken).step (Sample.pool false [])
          Sample.changeThenSignin = some fin
        ∧ fin.shared.created = [creation]
        ∧ (EveryStep (program (Sample.hashing false) Sample.hashToken).step
          (fun pre move => ∀ post creation epoch pw,
            (program (Sample.hashing false) Sample.hashToken).step pre move = some post →
            post.shared.created = creation :: pre.shared.created →
            pre.shared.changed creation.tenantID creation.userID = some (epoch, pw) →
            epoch ≤ creation.begun → presentedBytes creation.presented = utf8 pw)
          (Sample.pool false []) Sample.changeThenSignin
        ∧ ∀ fin, run (program (Sample.hashing false) Sample.hashToken).step
            (Sample.pool false []) Sample.changeThenSignin = some fin →
          ∀ tid uid epoch pw u, fin.shared.changed tid uid = some (epoch, pw) →
            getUser fin.shared.users tid uid = some u →
            ∃ salt, u.passwordHash = some ((Sample.hashing false).hash salt pw)) := by
  refine ⟨_, _, rfl, rfl, ?_⟩
  refine signin_rests_on_changed_password (Sample.hashing false) Sample.hashToken
    (Sample.hashing_faithful false) (Sample.pool false []) (fun _ => rfl) (fun _ _ => rfl) _ ?_
  refine ⟨orderly_spawn _ _ _ _, ?_⟩
  intro next taken
  cases taken
  iterate 2
    refine ⟨orderly_act _ rfl (by simp) (by simp) (by simp) _, ?_⟩
    intro next taken
    cases taken
  -- the write: no challenge is pending, and the change is the only call in flight
  refine ⟨⟨?_, ?_, ?_⟩, ?_⟩
  · intro tid uid _ ch pending
    obtain ⟨key, read⟩ := pending
    cases read
  · intro tid uid _ slot f held given isShown
    rcases Pool.put_eq_some held with ⟨-, isFlow⟩ | ⟨other, pre⟩
    · cases isFlow
      cases isShown
    · dsimp only at pre
      rw [Pool.put_of_ne _ _ other, Pool.put_of_ne _ _ other] at pre
      cases pre
  · intro slot choice input tn u isAct isFlow
    cases isAct
    cases isFlow
  intro next taken
  cases taken
  refine ⟨orderly_act _ rfl (by simp) (by simp) (by simp) _, ?_⟩
  intro next taken
  cases taken
  refine ⟨orderly_spawn _ _ _ _, ?_⟩
  intro next taken
  cases taken
  iterate 8
    refine ⟨orderly_act _ rfl (by simp) (by simp) (by simp) _, ?_⟩
    intro next taken
    cases taken
  trivial

/-- The challenge of a sign-in with the old password outlives the change and still establishes
a session, in a step that begins after the change has returned. -/
theorem challenge_outlives_change : ∃ chg pre post creation,
      run (program (Sample.hashing false) Sample.hashToken).step (Sample.pool true [])
          (Sample.signin ++ Sample.change) = some chg
        ∧ chg.flows 1 = none
        ∧ chg.shared.changed 1 1 = some (1, Sample.newPassword)
        ∧ run (program (Sample.hashing false) Sample.hashToken).step chg
          (.spawn 2 (.completion (.pending [7] 1)) :: List.replicate 5 (.act 2 Sample.choice))
            = some pre
        ∧ (program (Sample.hashing false) Sample.hashToken).step pre (.act 2 Sample.choice)
          = some post
        ∧ post.shared.created = creation :: pre.shared.created
        ∧ creation.userID = 1 ∧ 1 ≤ creation.begun
        ∧ creation.presented = Sample.oldPassword
        ∧ presentedBytes creation.presented ≠ utf8 Sample.newPassword := by
  refine ⟨_, _, _, _, rfl, rfl, rfl, rfl, rfl, rfl, rfl, by decide, rfl, ?_⟩
  decide

end Runs

end TangraAuth.Accounts
