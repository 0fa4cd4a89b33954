import TangraAuth.Session.Writes

/-!
Contract: consistency along whole runs of the session manager.

Owns: the preservation of consistency by creation and renewal, the step lemma
over all operations, and the run lemma from an initial state.

Does not own: what consistency gives to the holder of a revoked secret.
-/

namespace TangraAuth.Session

open Library Store

variable {H : Type} [DecidableEq H] {ht : Secret → H}
  {life : TenantID → Int} {bound : Int}

/-! ### Creation -/

variable {st : State H} {sec : Secret}

section Kept

variable (consistent : Consistent ht life bound st)

include consistent

theorem Consistent.insert (row : Store.Session H) (isHash : row.secretHash = ht sec)
    (freshID : st.freshID row.id = true)
    (freshSecret : st.freshSecret ht sec = true) (created : row.createdAt ≤ st.now)
    (expiry : row.expiresAt ≤ st.now + life row.tenantID)
    (unrevoked : row.revokedAt = none) :
    Consistent ht life bound (st.inserted row sec) where
  toLedger := consistent.toLedger.insert row isHash freshID freshSecret
  tenants := consistent.tenants
  created := by
    intro other mem
    rcases List.mem_append.mp mem with old | new
    · exact consistent.created other old
    · cases List.mem_singleton.mp new
      exact created
  expiry := by
    intro other mem
    rcases List.mem_append.mp mem with old | new
    · exact consistent.expiry other old
    · cases List.mem_singleton.mp new
      exact expiry
  views := by
    intro hash e stored
    obtain ⟨⟨⟨held, issued, sameHash⟩, ⟨owner, mem, facts⟩, idle⟩, exp⟩ :=
      consistent.views hash e stored
    exact ⟨⟨⟨held, List.mem_append_left _ issued, sameHash⟩,
      ⟨owner, List.mem_append_left _ mem, facts⟩, idle⟩, exp⟩
  ended := by
    intro other mem revoked
    rcases List.mem_append.mp mem with old | new
    · exact (consistent.ended other old revoked).mono rfl rfl (le_refl _)
        (fun _ _ stored => stored) (fun _ marked => marked)
    grind

variable {fs : Faults}

theorem Consistent.create {params : State.CreateParams} {id : SessionID}
    (freshID : st.freshID id = true) (freshSecret : st.freshSecret ht sec = true)
    (isLifetime : params.policy.sessionLifetime = life params.tenantID)
    (idle : params.policy.idleTimeout ≤ bound) :
    Consistent ht life bound (st.create ht fs params id sec).1 := by
  unfold State.create
  split_ifs
  · exact consistent
  · exact consistent
  · have unused := freshID_eq_true freshID
    have inserted := consistent.insert (State.newRow ht st.now params id sec) rfl
      freshID freshSecret (le_refl _) (by rw [State.newRow, isLifetime]) rfl
    apply inserted.putView
    · apply ViewSound.of_same (loadProfile_same fs _ _)
      exact ⟨⟨sec, List.mem_append_right _ (List.mem_singleton.mpr rfl), rfl⟩,
        ⟨_, List.mem_append_right _ (List.mem_singleton.mpr rfl), rfl, rfl, rfl, rfl,
          le_refl _⟩, idle⟩
    · intro other mem sameID
      rw [(loadProfile_same fs _ _).id] at sameID
      rcases List.mem_append.mp mem with old | new
      · exact absurd sameID (unused other old)
      · cases List.mem_singleton.mp new
        rfl

/-! ### Renewal -/

variable {row : Store.Session H} {next : Secret}

theorem Consistent.rotated (fresh : st.freshSecret ht next = true) {exp : Int}
    (isExpiry : exp = st.now + life row.tenantID) :
    Consistent ht life bound (st.rotated ht row next exp) where
  toLedger := consistent.toLedger.rotated row fresh exp
  tenants := consistent.tenants
  created := by
    intro chg changedMem
    obtain ⟨old, oldMem, -, -, -, createdAt, -⟩ := of_mem_renewed changedMem
    rw [createdAt]
    exact consistent.created old oldMem
  expiry := by
    intro chg changedMem
    obtain ⟨old, oldMem, -, sameTenant, -, -, -, ⟨-, isT, -, -, moved⟩ | rfl⟩ :=
      of_mem_renewed changedMem
    · rw [moved, sameTenant, isT, isExpiry]
      rfl
    · exact consistent.expiry chg oldMem
  views := by
    intro hash e stored
    obtain ⟨⟨⟨held, issued, sameHash⟩, ⟨owner, ownerMem, id, tid, uid, createdAt,
      expiresAt⟩, idle⟩, lasts⟩ := consistent.views hash e stored
    refine ⟨⟨⟨held, List.mem_append_left _ issued, sameHash⟩, ?_, idle⟩, lasts⟩
    refine ⟨_, mem_updateWhere.mpr ⟨owner, ownerMem, rfl⟩, ?_⟩
    cases matched : renewable row.tenantID row.id owner with
    | false => exact ⟨id, tid, uid, createdAt, expiresAt⟩
    | true =>
      refine ⟨id, tid, uid, createdAt, ?_⟩
      -- The new expiry is a full lifetime away, further than any earlier one can be.
      have limit := consistent.expiry owner ownerMem
      simp only [renewable, Bool.and_eq_true, beq_iff_eq] at matched
      grind
  ended := by
    intro chg changedMem revoked
    obtain ⟨old, oldMem, -, -, -, -, sameRevoked, ⟨-, -, unrevoked, -⟩ | rfl⟩ :=
      of_mem_renewed changedMem
    · rw [sameRevoked, unrevoked] at revoked
      cases revoked
    · exact (consistent.ended chg oldMem revoked).mono rfl rfl (le_refl _)
        (fun _ _ stored => stored) (fun _ marked => marked)

/-- The views of a rotation: under the presented secret, the replaced one and the new one. -/
theorem Consistent.rotate (mem : row ∈ st.sessions) (unrevoked : row.revokedAt = none)
    {pol : Tenant.Policy} (isLifetime : pol.sessionLifetime = life row.tenantID) {v : View}
    (id : v.id = row.id) (tid : v.tenantID = row.tenantID)
    (uid : v.userID = row.userID) (createdAt : v.createdAt = row.createdAt)
    (idle : v.idle ≤ bound)
    (presented : ∃ held, (held, row.id) ∈ st.issued ∧ ht held = ht sec)
    (fresh : st.freshSecret ht next = true) :
    Consistent ht life bound (st.rotate ht fs row pol v sec next).1 := by
  unfold State.rotate
  by_cases noEntropy : fs .randomToken = true
  · rw [if_pos noEntropy]
    exact consistent
  by_cases failed : fs .renew = true
  · rw [if_neg noEntropy, if_pos failed]
    exact consistent
  rw [if_neg noEntropy, if_neg failed]
  dsimp only
  unfold renewSession
  have found : st.sessions.any (renewable row.tenantID row.id) = true := by
    rw [List.any_eq_true]
    exact ⟨row, mem, by simp [renewable, unrevoked]⟩
  rw [if_pos found]
  dsimp only
  have rotated := consistent.rotated fresh
    (show st.now + pol.sessionLifetime = st.now + life row.tenantID by
      rw [isLifetime])
  -- The rotated row, which every view below is a projection of.
  have current : ∀ chg : View, chg.id = row.id → chg.tenantID = row.tenantID →
      chg.userID = row.userID → chg.createdAt = row.createdAt →
      chg.expiresAt = st.now + pol.sessionLifetime →
      ∃ owner ∈ (st.rotated ht row next (st.now + pol.sessionLifetime)).sessions,
        owner.id = chg.id ∧ owner.tenantID = chg.tenantID
          ∧ owner.userID = chg.userID ∧ owner.createdAt = chg.createdAt
          ∧ chg.expiresAt ≤ owner.expiresAt := by
    intro chg isID isT isUser isCreated isExpiry
    refine ⟨_, mem_updateWhere.mpr ⟨row, mem, rfl⟩, ?_⟩
    have matched : renewable row.tenantID row.id row = true := by simp [renewable, unrevoked]
    rw [if_pos matched]
    exact ⟨isID.symm, isT.symm, isUser.symm, isCreated.symm, le_of_eq isExpiry⟩
  have live : ∀ chg : View, chg.id = row.id → ∀ other ∈ (st.rotated ht row next
          (st.now + pol.sessionLifetime)).sessions,
        other.id = chg.id → other.revokedAt = none := by
    intro chg isID other otherMem sameID
    obtain ⟨old, oldMem, oldID, -, -, -, sameRevoked, -⟩ := of_mem_renewed otherMem
    have isRow : old = row :=
      eq_of_uniqueKey consistent.ids oldMem mem (oldID.symm.trans (sameID.trans isID))
    rw [sameRevoked, isRow, unrevoked]
  obtain ⟨held, heldIssued, heldHash⟩ := presented
  obtain ⟨replaced, replacedIssued, replacedHash⟩ := consistent.current row mem
  refine ((rotated.putView ?_ (live _ ?_)).putView ?_ (live _ ?_)).putView ?_ (live _ ?_)
  · exact ⟨⟨held, List.mem_append_left _ (id ▸ heldIssued), heldHash⟩,
      current _ id tid uid createdAt rfl, idle⟩
  · exact id
  · exact ⟨⟨replaced, List.mem_append_left _ (id ▸ replacedIssued), replacedHash⟩,
      current _ id tid uid createdAt rfl, idle⟩
  · exact id
  · exact ⟨⟨next, List.mem_append_right _ (List.mem_singleton.mpr (by rw [id])), rfl⟩,
      current _ id tid uid createdAt rfl, idle⟩
  · exact id

omit [DecidableEq H] consistent in
/-- The view a refresh starts from belongs to the row it found. -/
theorem Sound.presented_identity (sound : Sound ht life bound st)
    (mem : row ∈ st.sessions) {held : Secret} (issued : (held, row.id) ∈ st.issued)
    (sameHash : ht held = ht sec) (a : Actor) (tn : Store.Tenant) :
    ((st.getView (ht sec)).getD (st.rebuiltView a row tn)).id = row.id
      ∧ ((st.getView (ht sec)).getD (st.rebuiltView a row tn)).tenantID = row.tenantID
      ∧ ((st.getView (ht sec)).getD (st.rebuiltView a row tn)).userID = row.userID
      ∧ ((st.getView (ht sec)).getD (st.rebuiltView a row tn)).createdAt = row.createdAt := by
  cases cached : st.getView (ht sec) with
  | none => exact ⟨rfl, rfl, rfl, rfl⟩
  | some v =>
    -- Both the view and the row belong to the session the secret was issued for.
    obtain ⟨e, stored, -, rfl⟩ := (ExpiringMap.get_eq_some_iff _ _ _ _).mp cached
    obtain ⟨⟨viewSecret, viewIssued, viewHash⟩, ⟨owner, ownerMem, ownerID, ownerTenant,
      ownerUser, ownerCreated, -⟩, -⟩ := (sound.views _ e stored).1
    have sameSession : e.value.id = row.id :=
      sound.issuedOnce (viewSecret, e.value.id) viewIssued (held, row.id) issued
        (viewHash.trans sameHash.symm)
    have isOwner : owner = row :=
      eq_of_uniqueKey sound.ids ownerMem mem (ownerID.trans sameSession)
    grind

theorem Consistent.renew {resolving : Faults} (short : bound ≤ revocationRetention)
    (writable : resolving.FeedWritable) (fresh : st.freshSecret ht next = true) :
    Consistent ht life bound (st.renew ht resolving fs sec next).1 := by
  have post := consistent.resolve short writable sec
  have frame : SameFrame (st.resolve ht resolving sec).1 st :=
    resolve_frame resolving st sec
  unfold State.renew
  rcases out : st.resolve ht resolving sec with ⟨resolved, failure | a⟩
  · rw [out] at post
    exact post
  rw [out] at post frame
  dsimp only at post frame ⊢
  by_cases failed : fs .get = true
  · rw [if_pos failed]
    exact post
  rw [if_neg failed]
  cases found : getSession resolved.sessions a.tenantID a.sessionID with
  | none => exact post
  | some row =>
    dsimp only
    by_cases wasRevoked : row.revokedAt.isSome = true
    · rw [if_pos wasRevoked]
      exact post
    rw [if_neg wasRevoked]
    cases active : resolved.activePolicy fs row.tenantID with
    | error failure => exact post
    | ok pair =>
      obtain ⟨tn, pol⟩ := pair
      dsimp only
      split_ifs with keeps
      · exact post
      obtain ⟨mem, -, isSession⟩ := getSession_eq_some found
      obtain ⟨isT, -, parsed⟩ := activePolicy_eq_ok active
      obtain ⟨-, sameLifetime, sameIdle⟩ := Tenant.parsePolicy_eq_ok parsed
      obtain ⟨-, idle, isLifetime⟩ := post.tenants row.tenantID tn isT
      obtain ⟨held, issued, sameHash⟩ :=
        consistent.resolve_issued (by rw [out] : (st.resolve ht resolving sec).2 = .ok a)
      rw [← frame.issued, ← isSession] at issued
      have freshNext : resolved.freshSecret ht next = true := by
        unfold State.freshSecret
        rw [frame.issued]
        exact fresh
      obtain ⟨id, tid, uid, createdAt⟩ :=
        post.presented_identity mem issued sameHash a tn
      apply post.rotate mem
      · simpa using wasRevoked
      · exact sameLifetime.trans isLifetime
      · exact id
      · exact tid
      · exact uid
      · exact createdAt
      · rw [sameIdle]
        exact idle
      · exact ⟨held, issued, sameHash⟩
      · exact freshNext

/-! ### Steps and runs -/

theorem Consistent.refreshUser (fs : Faults) (tid : TenantID) (uid : UserID) :
    Consistent ht life bound (st.refreshUser fs tid uid) := by
  unfold State.refreshUser
  split_ifs
  · exact consistent
  · generalize listUserSessions st.sessions st.now tid uid = listed
    induction listed generalizing st with
    | nil => exact consistent
    | cons head rest ih =>
      exact ih (consistent.evictView head.secretHash)

omit [DecidableEq H] in
theorem Consistent.withDirectory (status : TenantID → TenantStatus)
    (roles : TenantID → UserID → List Slug) (users : TenantID → UserID → Option Profile)
      (versions : TenantID → Int) :
    Consistent ht life bound (st.withDirectory status roles users versions) where
  tenants := by
    intro tid tn found
    obtain ⟨old, oldFound, rfl⟩ := Option.map_eq_some_iff.mp found
    exact consistent.tenants tid old oldFound
  toLedger := consistent.toLedger.withDirectory status roles users versions
  created := consistent.created
  expiry := consistent.expiry
  views := by
    intro hash e stored
    obtain ⟨⟨issued, row, idle⟩, exp⟩ := consistent.views hash e stored
    exact ⟨⟨issued, row, idle⟩, exp⟩
  ended := by
    intro row mem revoked
    exact (consistent.ended row mem revoked).mono rfl rfl (le_refl _)
      (fun _ _ stored => stored) (fun _ marked => marked)

omit [DecidableEq H] in
theorem Consistent.advance (elapsed : Nat) :
    Consistent ht life bound { st with now := st.now + elapsed } where
  toLedger := consistent.toLedger.advance elapsed
  tenants := consistent.tenants
  created := by
    intro row mem
    have past := consistent.created row mem
    show row.createdAt ≤ st.now + elapsed
    omega
  expiry := by
    intro row mem
    have limit := consistent.expiry row mem
    grind
  views := by
    intro hash e stored
    obtain ⟨⟨issued, row, idle⟩, ins, exp, within⟩ :=
      consistent.views hash e stored
    refine ⟨⟨issued, row, idle⟩, ins, exp, ?_⟩
    show ins ≤ st.now + elapsed + bound
    omega
  ended := by
    intro row mem revoked
    exact (consistent.ended row mem revoked).mono rfl rfl (by show _ ≤ _ + _; omega)
      (fun _ _ stored => stored) (fun _ marked => marked)

theorem Consistent.createFor {next : State H} {tid : TenantID} {uid : UserID}
    {roles : List Slug} {amr : List String} {id : SessionID} (freshID : st.freshID id = true)
    (freshSecret : st.freshSecret ht sec = true)
    (created : st.createFor ht fs tid uid roles amr id sec
      = some next) : Consistent ht life bound next := by
  unfold State.createFor at created
  cases found : st.tenants tid with
  | none => simp [found] at created
  | some tn =>
    rw [found] at created
    dsimp only at created
    cases parsed : Tenant.parsePolicy tn.policy tn.kind with
    | error field => simp [parsed] at created
    | ok pol =>
      rw [parsed] at created
      cases created
      obtain ⟨-, sameLifetime, sameIdle⟩ := Tenant.parsePolicy_eq_ok parsed
      obtain ⟨-, idle, isLifetime⟩ := consistent.tenants tid tn found
      exact consistent.create freshID freshSecret (sameLifetime.trans isLifetime)
        (by rw [sameIdle]; exact idle)

end Kept

/-- Every step whose feed insertions succeed keeps consistency. -/
theorem step_preserves_consistent (short : bound ≤ revocationRetention)
    (st : State H) (op : Operation) (next : State H)
    (consistent : Consistent ht life bound st)
    (writable : op.FeedWritable)
    (taken : step ht st op = some next) :
    Consistent ht life bound next := by
  cases op with
  | create fs tid uid roles amr id sec =>
    simp only [step] at taken
    split_ifs at taken with fresh
    rw [Bool.and_eq_true] at fresh
    exact consistent.createFor fresh.1 fresh.2 taken
  | resolve fs sec =>
    cases taken
    exact consistent.resolve short writable sec
  | renew resolving fs sec next =>
    simp only [step] at taken
    split_ifs at taken with fresh
    cases taken
    exact consistent.renew short writable.1 fresh
  | byID fs tid id =>
    cases taken
    exact consistent
  | revoke fs tid id why =>
    cases taken
    exact consistent.revoke short writable tid id why
  | revokeUser fs tid uid why keepID =>
    cases taken
    exact consistent.revokeUser short writable tid uid why keepID
  | revokeTenant fs tid why =>
    cases taken
    exact consistent.revokeTenant short writable tid why
  | refreshUser fs tid uid =>
    cases taken
    exact consistent.refreshUser fs tid uid
  | directory status roles users versions =>
    grind [Consistent.withDirectory, step]
  | advance elapsed =>
    cases taken
    exact consistent.advance elapsed

end TangraAuth.Session
