import TangraAuth.Mfa.Accounted

/-!
Contract: what each operation does to the accounts of factors.

Owns: one triple for each service function that adds or removes a factor, and the step
lemma over all operations.

Does not own: the effect of single writes.
-/

namespace TangraAuth.Mfa

open Library Store Accounts
open TangraAuth.Webauthn

/-! ### Rules for calls -/

variable {post : Data → Prop}

section Rules

variable {α : Type} {fs : Faults} {site : Site} {pre : Data → Prop} {stopped : Data → Prop}

theorem call_triple {method : Method} {stmt : Data → Except Error (α × Data)}
    {post : α → Data → Prop}
    (stops : ∀ d, pre d → fs site method = true ∨ (∃ error, stmt d = .error error) → stopped d)
    (succeeds : ∀ d val chg, pre d → stmt d = .ok (val, chg) → post val chg) :
    Triple pre (call fs site method stmt) post stopped := by
  intro d met
  grind [Meets, call]

variable {tid : TenantID} {uid : UserID}

theorem user_triple (stops : ∀ d, pre d →
      fs site .user = true ∨ d.accounts tid uid = none → stopped d) :
    Triple pre (user fs site tid uid)
      (fun acc d => pre d ∧ d.accounts tid uid = some acc) stopped := by
  refine call_triple ?_ ?_
  · rintro d met (fails | ⟨error, refused⟩)
    · exact stops d met (Or.inl fails)
    · refine stops d met (Or.inr ?_)
      cases found : d.accounts tid uid with
      | none => rfl
      | some acc => simp [found, Except.map] at refused
  · intro d acc chg met ran
    cases found : d.accounts tid uid with
    | none => simp [found, Except.map] at ran
    | some row =>
      simp only [found, Except.map, Except.ok.injEq, Prod.mk.injEq] at ran
      obtain ⟨rfl, rfl⟩ := ran
      exact ⟨met, found⟩

theorem listWebAuthnCredentials_triple
    (stops : ∀ d, pre d → fs site .listWebAuthnCredentials = true → stopped d) :
    Triple pre (listWebAuthnCredentials fs site tid uid)
      (fun ks d => pre d ∧ ks = d.userKeys tid uid) stopped := by
  unfold listWebAuthnCredentials query
  refine call_triple ?_ ?_
  · rintro d met (fails | ⟨error, refused⟩)
    · exact stops d met fails
    · cases refused
  · intro d ks chg met ran
    cases ran
    exact ⟨met, rfl⟩

theorem setMFA_triple {enabled : Bool} {secretEnc : Bytes} (stops : ∀ d, pre d →
      fs site .setMFA = true ∨ d.accounts tid uid = none → stopped d)
    (succeeds : ∀ d, pre d → post (d.changeAccount tid uid (withMFA enabled secretEnc))) :
    Triple pre (setMFA fs site tid uid enabled secretEnc) (fun _ => post)
      stopped := by
  refine call_triple ?_ ?_
  · grind
  grind

theorem Within.keeps {work : Work α} (within : Within Quiet work) {kept : Data → Prop}
    (carried : ∀ init reached, Quiet init reached → kept init → kept reached) :
    Triple kept work (fun _ => kept) kept := Within.triple within carried

theorem ignoringError_triple {work : Work α} {post : Option α → Data → Prop}
    (triple : Triple pre work (fun val => post (some val)) (post none)) :
    Triple pre (ignoringError work) post stopped := by
  intro d met
  grind [Meets, ignoringError, Triple]

end Rules

/-! ### The authenticator app -/

section Services

variable {plat : Platform} {party : RelyingParty} {fs : Faults} {a : Actor}

theorem decrypt_nil (uid : UserID) : decrypt plat uid [] = none := rfl

variable (code : String) (draws : Nat → Draw)

/-- The codes are replaced only while the flag is set. -/
theorem regenerate_triple : Triple (fun d => AllAccounted d ∧ Enabled d a.tenantID a.userID)
      (regenerate plat fs a draws) (fun _ => AllAccounted) AllAccounted := by
  unfold regenerate
  cases freshHashes plat draws with
  | none => exact Triple.fail fun _ met => met.1
  | some hashes =>
    have replaced : Triple (fun d => AllAccounted d ∧ Enabled d a.tenantID a.userID)
        (replaceRecoveryCodes fs .regenerate a.tenantID a.userID hashes)
        (fun _ => AllAccounted) AllAccounted := by
      refine call_triple (fun _ met _ => met.1) ?_
      intro d val chg met ran
      split_ifs at ran
      cases ran
      exact met.1.replaceCodes met.2 hashes
    exact Triple.returning replaced

/-- The user and the flag through quiet work, forgotten where it stops. -/
theorem enabled_triple {α : Type} {work : Work α} (within : Within Quiet work) (a : Actor) :
    Triple (fun d => AllAccounted d ∧ Enabled d a.tenantID a.userID) work
      (fun _ d => AllAccounted d ∧ Enabled d a.tenantID a.userID)
      AllAccounted :=
  (Within.keeps within fun _ _ quiet met => ⟨met.1.quiet quiet, met.2.quiet quiet⟩).stop
    fun _ met => met.1

theorem confirm_triple : Triple AllAccounted (confirm plat fs a code draws) (fun _ => AllAccounted)
      AllAccounted := by
  have carried : ∀ init reached, Quiet init reached → AllAccounted init → AllAccounted reached :=
    fun _ _ quiet accounted => accounted.quiet quiet
  refine Triple.bind (Within.keeps pendingSeed_within carried) fun sealed => ?_
  split
  · exact Triple.fail fun _ met => met
  · rename_i sec opened
    have seeded : sealed ≠ [] := by
      rintro rfl
      simp [decrypt_nil] at opened
    refine Triple.bind (Within.keeps (read_within _) carried) fun now => ?_
    split
    · exact Triple.fail fun _ met => met
    · refine Triple.bind (Within.keeps query_within carried) fun ks => ?_
      have activated : Triple AllAccounted (setMFA fs .confirm a.tenantID a.userID true sealed)
          (fun _ d => AllAccounted d ∧ Enabled d a.tenantID a.userID)
          AllAccounted :=
        setMFA_triple (fun _ met _ => met) fun d met =>
          ⟨met.others.setMFA (Or.inl seeded), enabled_setMFA⟩
      refine Triple.bind activated fun _ => ?_
      refine Triple.bind (enabled_triple (setMFACounter_within _ _ _) a) fun _ => ?_
      refine Triple.bind (enabled_triple (ignoringError_within (call_within_of_same ?_)) a)
        fun _ => ?_
      · grind
      · split_ifs
        · exact regenerate_triple draws
        · exact Triple.pure fun _ met => met.1

/-- A user without keys, accounted for unless the flag is all that is left to clear. -/
structure Clearable (fs : Faults) (a : Actor) (d : Data) : Prop where
  others : OthersAccounted d a.tenantID a.userID
  noKeys : d.userKeys a.tenantID a.userID = []
  settled : AllAccounted d ∨ fs .clear .setMFA = false

/-- Between the two writes of `clear` the flag is off and the codes are still there. -/
def SwitchedOff (a : Actor) (d : Data) : Prop :=
  ∃ init, OthersAccounted init a.tenantID a.userID ∧ init.userKeys a.tenantID a.userID = []
    ∧ d = init.changeAccount a.tenantID a.userID (withMFA false [])

theorem clear_triple (codesDrop : fs .clear .replaceRecoveryCodes = false) :
    Triple (Clearable fs a) (clear fs a) (fun _ => AllAccounted) AllAccounted := by
  have switchedOff : Triple (Clearable fs a)
      (setMFA fs .clear a.tenantID a.userID false []) (fun _ => SwitchedOff a)
      AllAccounted := by
    refine setMFA_triple ?_ ?_
    · rintro d ⟨others, -, accounted | spared⟩ (fails | missing)
      · exact accounted
      · exact accounted
      · rw [spared] at fails
        cases fails
      · exact others.all_of_none missing
    · rintro d ⟨others, noKeys, -⟩
      exact ⟨d, others, noKeys, rfl⟩
  refine Triple.bind switchedOff fun _ => call_triple ?_ ?_
  · grind
  · rintro d val chg ⟨init, others, noKeys, rfl⟩ ran
    simp only [List.nodup_nil, if_true, Except.ok.injEq, Prod.mk.injEq] at ran
    obtain ⟨-, rfl⟩ := ran
    exact others.clear noKeys

/-- The codes can be dropped if the app is the last factor. -/
def Disables (fs : Faults) (a : Actor) (d : Data) : Prop :=
  AllAccounted d ∧ (d.userKeys a.tenantID a.userID = [] → fs .clear .replaceRecoveryCodes = false)

theorem Disables.quiet (init reached : Data) (quiet : Quiet init reached)
    (met : Disables fs a init) : Disables fs a reached :=
  ⟨met.1.quiet quiet, fun noKeys => met.2 ((quiet.userKeys_eq_nil _ _).mp noKeys)⟩

theorem disable_triple : Triple (Disables fs a) (disable plat fs a code) (fun _ => AllAccounted)
      AllAccounted := by
  have weaken : ∀ {α : Type} {work : Work α}, Within Quiet work →
      Triple (Disables fs a) work (fun _ => Disables fs a) AllAccounted :=
    fun within => (Within.keeps within Disables.quiet).stop fun _ met => met.1
  refine Triple.bind (weaken query_within) fun row => ?_
  refine Triple.bind (weaken (policyOf_within row)) fun pol => ?_
  refine Triple.bind (listWebAuthnCredentials_triple fun _ met _ => met.1) fun ks => ?_
  -- The list read here stays empty, or not, while the code is verified.
  have verified : Triple (fun d => Disables fs a d ∧ ks = d.userKeys a.tenantID a.userID)
      (verify plat fs a code)
      (fun _ d => Disables fs a d
        ∧ (ks = [] ↔ d.userKeys a.tenantID a.userID = [])) AllAccounted := by
    have kept : Triple (fun d => Disables fs a d ∧ (ks = [] ↔ d.userKeys a.tenantID a.userID = []))
        (verify plat fs a code) _ _ :=
      Within.keeps (verify_within plat code) fun init reached quiet met =>
        ⟨Disables.quiet init reached quiet met.1, met.2.trans (quiet.userKeys_eq_nil _ _).symm⟩
    refine kept.weaken ?_ (fun _ _ met => met) fun _ met => met.1.1
    rintro d ⟨disables, rfl⟩
    exact ⟨disables, Iff.rfl⟩
  refine Triple.ite (fun _ => Triple.fail fun _ met => met.1.1) fun _ => ?_
  refine Triple.bind verified fun _ => Triple.ite ?_ ?_
  · intro isEmpty
    rw [List.isEmpty_iff] at isEmpty
    refine Triple.from fun d met => ?_
    have noKeys := met.2.mp isEmpty
    refine (clear_triple (met.1.2 noKeys)).weaken ?_ (fun _ _ met => met) fun _ met => met
    rintro _ rfl
    exact ⟨met.1.1.others, noKeys, Or.inl met.1.1⟩
  · intro nonempty
    rw [List.isEmpty_iff] at nonempty
    refine setMFA_triple (fun _ met _ => met.1.1) ?_
    intro d met
    exact met.1.1.others.setMFA (Or.inr fun noKeys => nonempty (met.2.mpr noKeys))

/-- A code is accepted only from a user who asks for a second step. -/
theorem verify_triple : Triple AllAccounted (verify plat fs a code)
      (fun _ d => AllAccounted d ∧ Enabled d a.tenantID a.userID)
      AllAccounted := by
  refine Triple.bind (user_triple fun _ met _ => met).mapError fun acc => ?_
  refine Triple.ite ?_ fun _ => Triple.fail fun _ met => met.1
  intro flagged
  refine Triple.from fun d met => ?_
  have enabled : Enabled d a.tenantID a.userID := by
    intro other found
    rw [met.2] at found
    cases found
    exact flagged
  have kept : Triple _ (verifyTrimmed plat fs a acc (Library.trimSpace code)) _ _ :=
    enabled_triple (verifyTrimmed_within plat acc (Library.trimSpace code)) a
  refine kept.weaken ?_ (fun _ _ met => met) fun _ met => met
  rintro _ rfl
  exact ⟨met.1, enabled⟩

/-! ### Security keys -/

/-- The calls of `KeyAdded` up to the flag. -/
def Faults.spareKeyAdded (fs : Faults) : Prop :=
  fs .keyAdded .user = false ∧ fs .keyAdded .listWebAuthnCredentials = false
    ∧ fs .keyAdded .setMFA = false

/-- A key is there, and the flag is set or will be. -/
structure Added (fs : Faults) (a : Actor) (d : Data) : Prop where
  others : OthersAccounted d a.tenantID a.userID
  keyed : d.userKeys a.tenantID a.userID ≠ []
  known : d.accounts a.tenantID a.userID ≠ none
  flagged : Enabled d a.tenantID a.userID ∨ fs.spareKeyAdded

theorem Added.accounted {d : Data} (added : Added fs a d)
    (enabled : Enabled d a.tenantID a.userID) : AllAccounted d :=
  added.others.all_of_enabled enabled fun _ _ => Or.inr added.keyed

theorem keyAdded_triple : Triple (Added fs a) (keyAdded plat fs a draws) (fun _ => AllAccounted)
      AllAccounted := by
  refine Triple.bind (user_triple ?_) fun acc => ?_
  · rintro d added (fails | missing)
    · rcases added.flagged with enabled | ⟨spared, -, -⟩
      · exact added.accounted enabled
      · rw [spared] at fails
        cases fails
    · exact absurd missing added.known
  refine Triple.bind (listWebAuthnCredentials_triple ?_) fun ks => ?_
  · rintro d ⟨added, -⟩ fails
    rcases added.flagged with enabled | ⟨-, spared, -⟩
    · exact added.accounted enabled
    · rw [spared] at fails
      cases fails
  have flag : Triple (fun d => (Added fs a d ∧ d.accounts a.tenantID a.userID = some acc)
        ∧ ks = d.userKeys a.tenantID a.userID)
      (ensureFlag fs a acc)
      (fun _ d => AllAccounted d ∧ Enabled d a.tenantID a.userID)
      AllAccounted := by
    refine Triple.ite ?_ ?_
    · intro already
      refine Triple.pure ?_
      rintro d ⟨⟨added, found⟩, -⟩
      have enabled : Enabled d a.tenantID a.userID := by
        intro other isOther
        rw [found] at isOther
        cases isOther
        exact already
      exact ⟨added.accounted enabled, enabled⟩
    · intro unset
      refine setMFA_triple ?_ ?_
      · rintro d ⟨⟨added, found⟩, -⟩ (fails | missing)
        · rcases added.flagged with enabled | ⟨-, -, spared⟩
          · exact absurd (enabled acc found) unset
          · rw [spared] at fails
            cases fails
        · exact absurd missing added.known
      grind [Added.others, OthersAccounted.setMFA, Added.keyed, enabled_setMFA]
  refine Triple.bind flag fun _ => ?_
  exact Triple.ite (fun _ => Triple.pure fun _ met => met.1) fun _ => regenerate_triple draws

/-- Accounted for, and the flag is set or will be once a key is there. -/
def Registers (fs : Faults) (a : Actor) (d : Data) : Prop :=
  AllAccounted d ∧ (Enabled d a.tenantID a.userID ∨ fs.spareKeyAdded)

theorem Registers.quiet (init reached : Data) (quiet : Quiet init reached)
    (met : Registers fs a init) : Registers fs a reached :=
  ⟨met.1.quiet quiet, met.2.imp_left fun enabled => enabled.quiet quiet⟩

theorem insertWebAuthnCredential_triple {site : Site} {lower : String → String}
    {key : WebAuthnCredential} (isT : key.tenantID = a.tenantID)
    (isUser : key.userID = a.userID) :
    Triple (Registers fs a) (insertWebAuthnCredential fs site lower key)
      (fun _ => Added fs a) AllAccounted := by
  refine call_triple (fun _ met _ => met.1) ?_
  intro d val chg met ran
  cases found : d.accounts key.tenantID key.userID with
  | none => simp [found] at ran
  | some acc =>
    simp only [found] at ran
    split at ran
    · cases ran
    · cases ran
      have others : OthersAccounted d key.tenantID key.userID := met.1.others
      rw [isT, isUser] at found others
      refine ⟨others.changeKeys ?_, ?_, ?_, met.2⟩
      · intro tn2 otherUser other
        refine filter_insert_other ?_
        rw [isT, isUser]
        exact other
      · refine List.ne_nil_of_mem (List.mem_filter.mpr ⟨?_, ownsKey_iff.mpr ⟨isT, isUser⟩⟩)
        exact List.mem_append_right _ List.mem_cons_self
      grind

theorem finishRegistration_triple (resp : Bytes) (id : KeyID) (draws : Nat → Draw) :
    Triple (Registers fs a)
      (finishRegistration plat party fs a resp id draws) (fun _ => AllAccounted)
      AllAccounted := by
  have weaken : ∀ {α : Type} {work : Work α}, Within Quiet work →
      Triple (Registers fs a) work (fun _ => Registers fs a) AllAccounted :=
    fun within => (Within.keeps within Registers.quiet).stop fun _ met => met.1
  refine Triple.bind (weaken (take_within _ _ _ _)) fun ceremony => ?_
  refine Triple.ite (fun _ => Triple.fail fun _ met => met.1) fun _ => ?_
  refine Triple.bind (weaken query_within) fun acc => ?_
  refine Triple.bind (weaken query_within) fun handle => ?_
  refine Triple.bind (weaken query_within) fun ks => ?_
  split
  · exact Triple.fail fun _ met => met.1
  · refine Triple.ite (fun _ => Triple.fail fun _ met => met.1) fun _ => ?_
    refine Triple.ite (fun _ => Triple.fail fun _ met => met.1) fun _ => ?_
    refine Triple.bind (insertWebAuthnCredential_triple rfl rfl).mapError fun _ => ?_
    exact Triple.returning (keyAdded_triple draws)

/-- The calls of `KeyRemoved`, and those of `clear` after it. -/
def Faults.spareKeyRemoved (fs : Faults) : Prop :=
  fs .keyRemoved .user = false ∧ fs .keyRemoved .listWebAuthnCredentials = false
    ∧ fs.spareClear = true

/-- The user has a seed or a key. -/
def HasFactor (d : Data) (a : Actor) : Prop :=
  d.Holds a.tenantID a.userID fun acc =>
    acc.mfaSecretEnc ≠ [] ∨ d.userKeys a.tenantID a.userID ≠ []

/-- A key is gone, the flag is set, and a factor is left or the flag will be cleared. -/
structure Removed (fs : Faults) (a : Actor) (d : Data) : Prop where
  others : OthersAccounted d a.tenantID a.userID
  enabled : Enabled d a.tenantID a.userID
  left : HasFactor d a ∨ fs.spareKeyRemoved

theorem Removed.accounted {d : Data} (removed : Removed fs a d)
    (left : HasFactor d a) : AllAccounted d :=
  removed.others.all_of_enabled removed.enabled left

theorem keyRemoved_triple : Triple (Removed fs a) (keyRemoved fs a) (fun _ => AllAccounted)
      AllAccounted := by
  refine Triple.bind (user_triple ?_) fun acc => ?_
  · rintro d removed (fails | missing)
    · rcases removed.left with left | ⟨spared, -, -⟩
      · exact removed.accounted left
      · rw [spared] at fails
        cases fails
    · exact removed.others.all_of_none missing
  refine Triple.bind (listWebAuthnCredentials_triple ?_) fun ks => ?_
  · rintro d ⟨removed, -⟩ fails
    rcases removed.left with left | ⟨-, spared, -⟩
    · exact removed.accounted left
    · rw [spared] at fails
      cases fails
  refine Triple.ite ?_ ?_
  · intro remains
    refine Triple.pure ?_
    rintro d ⟨⟨removed, found⟩, rfl⟩
    refine removed.accounted ?_
    intro other isOther
    rw [found] at isOther
    cases isOther
    simpa using remains
  · intro nothing
    refine Triple.from ?_
    rintro d ⟨⟨removed, found⟩, rfl⟩
    have bare : acc.mfaSecretEnc = [] ∧ d.userKeys a.tenantID a.userID = [] := by
      simpa using nothing
    have spared : fs.spareKeyRemoved := by
      refine removed.left.resolve_left fun left => ?_
      rcases left acc found with seeded | keyed
      · exact seeded bare.1
      · exact keyed bare.2
    have calls : fs .clear .setMFA = false ∧ fs .clear .replaceRecoveryCodes = false := by
      simpa [Faults.spareClear] using spared.2.2
    refine (clear_triple calls.2).weaken ?_ (fun _ _ met => met) fun _ met => met
    rintro _ rfl
    exact ⟨removed.others, bare.2, Or.inr calls.1⟩

theorem Quiet.otherFactor {pre post : Data} (quiet : Quiet pre post) (a : Actor)
    (id : KeyID) : post.otherFactor a id = pre.otherFactor a id := by
  have seeds : ∀ d : Data, (d.accounts a.tenantID a.userID).any
        (fun acc => !acc.mfaSecretEnc.isEmpty)
      = ((d.accounts a.tenantID a.userID).map Account.factors).any
        fun factors => !factors.2.isEmpty := by
    intro d
    rw [Option.any_map]
    rfl
  have ks : ∀ d : Data, (d.userKeys a.tenantID a.userID).any (fun key => key.id != id)
      = ((d.userKeys a.tenantID a.userID).map (·.id)).any (· != id) := by
    intro d
    rw [List.any_map]
    rfl
  unfold Data.otherFactor
  rw [seeds, seeds, ks, ks, quiet.accounts, quiet.keys]

/-- Accounted for, and another factor is left or the flag will be cleared. -/
def Removes (fs : Faults) (a : Actor) (id : KeyID) (d : Data) : Prop :=
  AllAccounted d ∧ (d.otherFactor a id = true ∨ fs.spareKeyRemoved)

theorem Removes.quiet {id : KeyID} (init reached : Data) (quiet : Quiet init reached)
    (met : Removes fs a id init) : Removes fs a id reached := by
  refine ⟨met.1.quiet quiet, ?_⟩
  rw [quiet.otherFactor]
  exact met.2

/-- The keys of the user that one deletion leaves. -/
def withoutKey (ks : List WebAuthnCredential) (id : KeyID) : List WebAuthnCredential :=
  ks.filter fun key => key.id != id

theorem userKeys_delete (d : Data) (a : Actor) (id : KeyID) :
    (d.keys.delete fun key => ownsKey a.tenantID a.userID key && key.id == id).rows.filter
        (ownsKey a.tenantID a.userID)
      = withoutKey (d.userKeys a.tenantID a.userID) id := by
  simp only [KeyTable.delete, withoutKey, Data.userKeys, List.filter_filter]
  grind

theorem deleteWebAuthnCredential_triple {site : Site} {id : KeyID} : Triple (Removes fs a id)
      (deleteWebAuthnCredential fs site a.tenantID a.userID id)
      (fun _ => Removed fs a) AllAccounted := by
  refine call_triple (fun _ met _ => met.1) ?_
  rintro d val chg ⟨accounted, left⟩ ran
  dsimp only at ran
  split_ifs at ran with present
  cases ran
  obtain ⟨key, mem, isKey⟩ := List.any_eq_true.mp present
  have owned := (Bool.and_eq_true _ _ ▸ isKey).1
  have keyed : d.userKeys a.tenantID a.userID ≠ [] :=
    List.ne_nil_of_mem (List.mem_filter.mpr ⟨mem, owned⟩)
  refine ⟨accounted.others.changeKeys ?_, ?_, left.imp_left ?_⟩
  · intro tn2 otherUser other
    refine filter_delete_other ?_ other
    grind
  · intro acc found
    exact ((accounted _ _).flag acc found).mpr (Or.inr keyed)
  · intro other acc found
    simp only [Data.otherFactor, Bool.or_eq_true] at other
    rcases other with seeded | another
    · grind
    · obtain ⟨kept, keptMem, ne⟩ := List.any_eq_true.mp another
      have remains : kept ∈ withoutKey (d.userKeys a.tenantID a.userID) id :=
        List.mem_filter.mpr ⟨keptMem, ne⟩
      rw [← userKeys_delete] at remains
      exact Or.inr (List.ne_nil_of_mem remains)

theorem remove_triple (id : KeyID) (confirmation : Confirmation) :
    Triple (Removes fs a id) (remove plat party fs a id confirmation)
      (fun _ => AllAccounted) AllAccounted := by
  have weaken : ∀ {α : Type} {work : Work α}, Within Quiet work →
      Triple (Removes fs a id) work (fun _ => Removes fs a id) AllAccounted :=
    fun within => (Within.keeps within Removes.quiet).stop fun _ met => met.1
  refine Triple.bind (weaken (guardRemoval_within id).mapError) fun _ => ?_
  refine Triple.bind (weaken (ignoringError_within query_within)) fun locked => ?_
  refine Triple.ite (fun _ => Triple.fail fun _ met => met.1) fun _ => ?_
  refine Triple.bind (weaken (ignoringError_within <| quiet_of_triples
    (checkConfirmation_triple plat party confirmation))) fun confirmed => ?_
  refine Triple.ite ?_ ?_
  · intro _
    exact Triple.bind (weaken failed_within) fun _ => Triple.fail fun _ met => met.1
  · intro _
    exact Triple.bind deleteWebAuthnCredential_triple fun _ => keyRemoved_triple

/-! ### Resets -/

theorem resetMFA_triple (actorRoles : List Slug) (uid : UserID) (roles : List Slug) :
    Triple AllAccounted (resetMFA fs a actorRoles uid roles) (fun _ => AllAccounted)
      AllAccounted := by
  have carried : ∀ init reached, Quiet init reached → AllAccounted init → AllAccounted reached :=
    fun _ _ quiet accounted => accounted.quiet quiet
  refine Triple.bind (Within.keeps query_within.mapError carried) fun acc => ?_
  refine Triple.ite (fun _ => Triple.fail fun _ met => met) fun _ => ?_
  refine Triple.bind (Within.keeps query_within carried) fun found => ?_
  refine Triple.ite (fun _ => Triple.fail fun _ met => met) fun _ => ?_
  refine Triple.bind (Within.keeps query_within carried) fun _ => ?_
  refine Triple.bind (Within.keeps query_within carried) fun _ => ?_
  grind [call_triple, AllAccounted.withoutFactors, resetMFARows]

theorem resetUser_triple (tid : TenantID) (uid : UserID) :
    Triple AllAccounted (resetUser fs tid uid) (fun _ => AllAccounted)
      AllAccounted := by
  refine call_triple (fun _ met _ => met) ?_
  intro d val chg accounted ran
  split at ran
  · cases ran
  · split_ifs at ran
    cases ran
    refine (accounted.withoutFactors tid uid).quiet (Keeps.changeAccount ?_ _)
    exact fun _ => rfl

end Services

/-! ### Steps -/

section Steps

variable {plat : Platform} {party : RelyingParty} {d : Data}

theorem left_of_triple {α : Type} {work : Work α} {pre : Data → Prop}
    (triple : Triple pre work (fun _ => post) post) (met : pre d) :
    post (work d).2 := by
  have out := triple d met
  rcases ran : work d with ⟨error | val, next⟩ <;> rw [ran] at out <;> exact out

theorem enabled_of_flag {a : Actor} (set : d.enabled a = true) : Enabled d a.tenantID a.userID := by
  intro acc found
  rw [Data.enabled, found] at set
  exact set

/-- One operation that is not broken off between its writes keeps every account. -/
theorem work_accounted (accounted : AllAccounted d) {move : Move}
    (completes : Completes d move) : AllAccounted (move.work plat party d).2 := by
  obtain ⟨op, fs⟩ := move
  have quiet : ∀ {α : Type} {work : Work α}, Within Quiet work →
      Triple AllAccounted work (fun _ => AllAccounted) AllAccounted := fun within =>
    Within.keeps within fun _ _ step met => met.quiet step
  cases op with
  | enrol a sec random =>
    exact left_of_triple (quiet (enrol_within plat sec random)) accounted
  | confirm a code draws =>
    exact left_of_triple (Triple.returning (confirm_triple code draws)) accounted
  | disable a code =>
    refine left_of_triple (disable_triple code) ⟨accounted, ?_⟩
    intro noKeys
    exact completes (List.isEmpty_iff.mpr noKeys)
  | regenerate a code draws =>
    exact left_of_triple (Triple.returning <| Triple.bind (verify_triple code)
      fun _ => regenerate_triple draws) accounted
  | beginRegistration a name candidate random =>
    exact left_of_triple (Triple.returning
      (quiet (beginRegistration_within plat party name candidate random))) accounted
  | finishRegistration a resp id draws =>
    refine left_of_triple (Triple.returning (finishRegistration_triple resp id draws))
      ⟨accounted, ?_⟩
    cases set : d.enabled a with
    | true => exact Or.inl (enabled_of_flag set)
    | false => exact Or.inr (completes set)
  | stepUpOptions a random | signinOptions reference a random =>
    exact left_of_triple (Triple.returning (quiet (beginAssertion_within party _ _ _))) accounted
  | remove a id confirmation =>
    refine left_of_triple (remove_triple id confirmation) ⟨accounted, ?_⟩
    cases other : d.otherFactor a id with
    | true => exact Or.inl rfl
    | false => exact Or.inr (completes other)
  | resetMFA a actorRoles uid roles =>
    exact left_of_triple (resetMFA_triple actorRoles uid roles) accounted
  | resetUser tid uid => exact left_of_triple (resetUser_triple tid uid) accounted
  | verifyCode a code =>
    exact left_of_triple (Triple.returning (quiet (verify_within plat code))) accounted
  | verifySignin reference a resp =>
    exact left_of_triple (quiet (quiet_of_triples (finishAssertion_triple party _ _ resp)))
      accounted
  | updateStatus tid uid status =>
    refine accounted.quiet (Keeps.changeAccount ?_ d)
    exact fun _ => rfl
  | updateTenant tid row | advance duration =>
    exact accounted.quiet (Keeps.of_same rfl rfl rfl)

end Steps

end TangraAuth.Mfa
