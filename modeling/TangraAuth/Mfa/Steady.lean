import TangraAuth.Mfa.Operations

/-!
Contract: the work that leaves every user's factors alone.

Owns: the relation between two states in which users keep their flag, their seed and their
keys and gain no unused code, and that every ceremony and every check of a code stays
within it.

Does not own: the writes that add or remove a factor.
-/

namespace TangraAuth.Mfa

open Library Store Accounts
open TangraAuth.Webauthn

/-- The flag and the seed of a row. -/
def Account.factors (acc : Account) : Bool × Bytes := (acc.mfaEnabled, acc.mfaSecretEnc)

/-- Users keep flag and seed, their keys look the same through `v`, and no unused code
appears. -/
structure Keeps {β : Type} (v : WebAuthnCredential → β) (pre post : Data) : Prop where
  accounts : ∀ tid uid, (post.accounts tid uid).map Account.factors
      = (pre.accounts tid uid).map Account.factors
  keys : ∀ tid uid, (post.userKeys tid uid).map v = (pre.userKeys tid uid).map v
  codes : ∀ tid uid, post.unusedCodes tid uid ≠ [] → pre.unusedCodes tid uid ≠ []

/-- The keys may be flagged, no more. -/
abbrev Quiet : Data → Data → Prop := Keeps (·.id)

/-- Nor are the keys flagged. -/
abbrev Steady : Data → Data → Prop := Keeps fun key => (key.id, key.cloneFlagged)

namespace Keeps

variable {β : Type} {v : WebAuthnCredential → β} {pre between post : Data}

theorem refl (d : Data) : Keeps v d d := ⟨fun _ _ => rfl, fun _ _ => rfl, fun _ _ => id⟩

theorem trans (first : Keeps v pre between) (second : Keeps v between post) : Keeps v pre post where
  accounts tid uid := (second.accounts tid uid).trans (first.accounts tid uid)
  keys tid uid := (second.keys tid uid).trans (first.keys tid uid)
  codes tid uid held := first.codes tid uid (second.codes tid uid held)

theorem of_same (accounts : post.accounts = pre.accounts) (ks : post.keys = pre.keys)
    (codes : post.codes = pre.codes) : Keeps v pre post := by
  refine ⟨?_, ?_, ?_⟩
  · intro tid uid
    rw [accounts]
  · intro tid uid
    simp only [Data.userKeys, ks]
  grind [Data.unusedCodes]

theorem changeAccount {tid : TenantID} {uid : UserID} {change : Account → Account}
    (same : ∀ acc, (change acc).factors = acc.factors) (d : Data) :
    Keeps v d (d.changeAccount tid uid change) := by
  refine ⟨?_, fun _ _ => rfl, fun _ _ => id⟩
  intro tn2 otherUser
  simp only [Data.changeAccount]
  split_ifs
  · rw [Option.map_map]
    exact congrArg (Option.map · _) (funext same)
  · rfl

theorem updateKeys {matching : WebAuthnCredential → Bool}
    {change : WebAuthnCredential → WebAuthnCredential} {keepsID : ∀ key, (change key).id = key.id}
    (sameOwner : ∀ key, (change key).tenantID = key.tenantID ∧ (change key).userID = key.userID)
    (sameView : ∀ key, v (change key) = v key) (d : Data) :
    Keeps v d { d with keys := d.keys.update matching change keepsID } := by
  refine ⟨fun _ _ => rfl, ?_, fun _ _ => id⟩
  intro tid uid
  refine map_filter_updateWhere ?_ sameView d.keys.rows
  intro key
  simp only [ownsKey, sameOwner key]

end Keeps

theorem Steady.quiet {pre post : Data} (steady : Steady pre post) : Quiet pre post where
  accounts := steady.accounts
  keys tid uid := by
    have same := congrArg (List.map Prod.fst) (steady.keys tid uid)
    simpa only [List.map_map, Function.comp_def] using same
  codes := steady.codes

/-! ### Calls -/

section Calls

variable {α β γ : Type} {v : WebAuthnCredential → γ} {fs : Faults} {site : Site}
  {method : Method}

variable {stmt : Data → Except Error (α × Data)} {work : Work α}

theorem call_within (kept : ∀ d val chg, stmt d = .ok (val, chg) → Keeps v d chg) :
    Within (Keeps v) (call fs site method stmt) := by
  grind [Keeps.refl, Within, call]

theorem call_within_of_same (same : ∀ d val chg, stmt d = .ok (val, chg) →
      chg.accounts = d.accounts ∧ chg.keys = d.keys ∧ chg.codes = d.codes) :
    Within (Keeps v) (call fs site method stmt) := by
  grind [call_within, Keeps.of_same]

theorem query_within {read : Data → Except Error α} :
    Within (Keeps v) (query fs site method read) := by
  refine call_within ?_
  intro d val chg ran
  cases found : read d with
  | error error => simp [found, Except.map] at ran
  | ok res =>
    rw [found] at ran
    cases ran
    exact Keeps.refl d

theorem ignoringError_within (within : Within (Keeps v) work) :
    Within (Keeps v) (ignoringError work) := by
  grind [Within, ignoringError]

theorem bind_within {next : α → Work β} (first : Within (Keeps v) work)
    (second : ∀ val, Within (Keeps v) (next val)) : Within (Keeps v) (work >>= next) := by
  refine Within.bind ?_ first second
  exact fun _ _ _ => Keeps.trans

theorem pure_within (val : α) : Within (Keeps v) (pure val : Work α) :=
  Within.pure Keeps.refl val

theorem fail_within (error : Error) : Within (Keeps v) (Task.fail error : Work α) :=
  Within.fail Keeps.refl error

theorem read_within (shown : Data → α) : Within (Keeps v) (Task.read shown : Work α) :=
  Keeps.refl

variable (tid : TenantID) (uid : UserID)

theorem setMFACounter_within (counter : Int) :
    Within (Keeps v) (setMFACounter fs site tid uid counter) := by
  refine call_within ?_
  intro d val chg ran
  cases ran
  refine Keeps.changeAccount ?_ d
  intro acc
  split_ifs <;> rfl

theorem ensureWebAuthnHandle_within (candidate : Bytes) :
    Within (Keeps v) (ensureWebAuthnHandle fs site tid uid candidate) := by
  refine call_within ?_
  intro d val chg ran
  cases found : d.accounts tid uid with
  | none => simp [found] at ran
  | some acc =>
    simp only [found] at ran
    cases ran
    refine Keeps.changeAccount ?_ d
    exact fun _ => rfl

theorem useRecoveryCode_within (hash : String) :
    Within (Keeps v) (useRecoveryCode fs site tid uid hash) := by
  refine call_within ?_
  intro d val chg ran
  dsimp only at ran
  split_ifs at ran
  cases ran
  refine ⟨fun _ _ => rfl, fun _ _ => rfl, ?_⟩
  intro tn2 otherUser held
  obtain ⟨code, mem⟩ := List.exists_mem_of_ne_nil _ held
  obtain ⟨stored, unused⟩ := List.mem_filter.mp mem
  obtain ⟨old, oldMem, ⟨-, rfl⟩ | ⟨-, rfl⟩⟩ := of_mem_updateWhere stored
  · simp at unused
  · exact List.ne_nil_of_mem (List.mem_filter.mpr ⟨oldMem, unused⟩)

end Calls

/-! ### Checks of a code -/

section Services

variable {γ : Type} {v : WebAuthnCredential → γ} {fs : Faults} {a : Actor}

theorem pendingSeed_within : Within (Keeps v) (pendingSeed fs a) := by
  refine bind_within (ignoringError_within query_within) fun pending => ?_
  cases pending with
  | none => exact fail_within _
  | some sealed => exact pure_within _

variable (plat : Platform) (party : RelyingParty)

theorem verifyOTP_within (acc : Account) (code : String) :
    Within (Keeps v) (verifyOTP plat fs a acc code) := by
  unfold verifyOTP
  grind [fail_within, bind_within, read_within, setMFACounter_within, pure_within]

theorem verifyRecovery_within (code : String) :
    Within (Keeps v) (verifyRecovery plat fs a code) := by
  unfold verifyRecovery
  split
  · exact fail_within _
  · refine bind_within query_within fun hashes => ?_
    split
    · exact fail_within _
    · exact bind_within (useRecoveryCode_within _ _ _).mapError fun _ => pure_within _

theorem verifyTrimmed_within (acc : Account) (trimmed : String) :
    Within (Keeps v) (verifyTrimmed plat fs a acc trimmed) := by
  grind [verifyOTP_within, verifyRecovery_within, verifyTrimmed]

theorem verify_within (code : String) : Within (Keeps v) (verify plat fs a code) := by
  refine bind_within query_within.mapError fun acc => ?_
  grind [verifyTrimmed_within, fail_within]

theorem enrol_within (sec : Bytes) (random : Nat) :
    Within (Keeps v) (enrol plat fs a sec random) := by
  refine bind_within query_within fun _ => call_within_of_same ?_
  intro d val chg ran
  cases ran
  exact ⟨rfl, rfl, rfl⟩

theorem policyOf_within (row : Tenant) : Within (Keeps v) (policyOf row) := by
  unfold policyOf
  split
  · exact fail_within _
  · exact pure_within _

theorem state_within : Within (Keeps v) (state fs a) := by
  refine bind_within query_within fun acc => ?_
  refine bind_within query_within fun row => ?_
  refine bind_within (policyOf_within row) fun pol => ?_
  refine bind_within query_within fun ks => ?_
  exact bind_within query_within fun codes => pure_within _

theorem guardRemoval_within (id : KeyID) : Within (Keeps v) (guardRemoval fs a id) := by
  grind [bind_within, state_within, fail_within, pure_within, guardRemoval]

/-! ### Ceremonies -/

theorem save_within (site : Site) (subj : Nat) (ceremony : Ceremony) :
    Within (Keeps v) (save party fs site subj ceremony) := by
  grind [call_within_of_same, save]

theorem take_within (site : Site) (purpose : Purpose) (subj : Nat) (missing : Error) :
    Within (Keeps v) (take fs a site purpose subj missing) := by
  refine bind_within (bind_within (ignoringError_within (call_within_of_same ?_)) fun _ =>
    pure_within _) fun taken => ?_
  · grind
  grind [fail_within, pure_within]

theorem beginRegistration_within (name : String) (candidate : Bytes) (random : Nat) :
    Within (Keeps v) (beginRegistration plat party fs a name candidate random) := by
  unfold beginRegistration
  split
  · exact fail_within _
  · refine bind_within query_within fun acc => ?_
    refine bind_within query_within fun ks => ?_
    grind [fail_within, bind_within, ensureWebAuthnHandle_within, save_within, pure_within]

theorem beginAssertion_within (purpose : Purpose) (subj random : Nat) :
    Within (Keeps v) (beginAssertion party fs a purpose subj random) := by
  refine bind_within query_within fun acc => ?_
  refine bind_within query_within fun handle => ?_
  refine bind_within query_within fun ks => ?_
  split
  · exact fail_within _
  · exact bind_within (save_within party _ _ _) fun _ => pure_within _

theorem failed_within : Within (Keeps v) (failed fs a) := by
  refine bind_within (bind_within (ignoringError_within (bind_within query_within fun row =>
    policyOf_within row)) fun _ => pure_within _) fun pol => ?_
  grind [bind_within, ignoringError_within, call_within_of_same, pure_within, Within]

/-- Work that stays steady, inside work that may flag a key where it stops. -/
theorem steady_triple {α : Type} {work : Work α} (within : Within Steady work) (init : Data) :
    Triple (Steady init) work (fun _ => Steady init) (Quiet init) := by
  have triple : Triple (Steady init) work (fun _ => Steady init) (Steady init) :=
    within.triple fun _ _ step reached => Keeps.trans reached step
  exact triple.stop fun _ met => met.quiet

theorem updateKey_within {site : Site} {method : Method} {tid : TenantID} {id : KeyID}
    {change : WebAuthnCredential → WebAuthnCredential} {keepsID : ∀ key, (change key).id = key.id}
    (sameOwner : ∀ key, (change key).tenantID = key.tenantID ∧ (change key).userID = key.userID)
    (sameView : ∀ key, v (change key) = v key) :
    Within (Keeps v) (updateKey fs site tid method id change keepsID) := by
  grind [call_within, Keeps.updateKeys, updateKey]

/-- A key is flagged only where the assertion is refused. -/
theorem recordAssertion_triple (key : Option WebAuthnCredential) (asserted : Asserted)
    (init : Data) :
    Triple (Steady init) (recordAssertion fs a key asserted) (fun _ => Steady init)
      (Quiet init) := by
  cases key with
  | none => exact steady_triple (fail_within _) init
  | some key =>
    simp only [recordAssertion]
    split_ifs
    · have flagged : Within Quiet
          (flagWebAuthnClone fs .finishAssertion a.tenantID key.id) :=
        updateKey_within (fun _ => ⟨rfl, rfl⟩) fun _ => rfl
      have reaches : Triple (Steady init) (flagWebAuthnClone fs .finishAssertion a.tenantID key.id)
          (fun _ => Quiet init) (Quiet init) := by
        refine (flagged.triple fun _ _ step reached => Keeps.trans reached step).weaken ?_
          (fun _ _ met => met) fun _ met => met
        exact fun _ met => met.quiet
      exact Triple.bind reaches fun _ => Triple.fail fun _ met => met
    · have recorded : Within Steady (updateWebAuthnUse fs .finishAssertion a.tenantID
          key.id asserted.signCount asserted.backupState) :=
        updateKey_within (fun _ => ⟨rfl, rfl⟩) fun _ => rfl
      exact steady_triple recorded init

theorem finishAssertion_triple (purpose : Purpose) (subj : Nat) (resp : Bytes) (init : Data) :
    Triple (Steady init) (finishAssertion party fs a purpose subj resp)
      (fun _ => Steady init) (Quiet init) := by
  refine Triple.bind (steady_triple (take_within _ _ _ _) init) fun ceremony => ?_
  split
  · exact steady_triple (fail_within _) init
  · refine Triple.bind (steady_triple query_within init) fun acc => ?_
    refine Triple.bind (steady_triple query_within init) fun handle => ?_
    refine Triple.bind (steady_triple query_within init) fun ks => ?_
    grind [steady_triple, fail_within, recordAssertion_triple]

theorem checkConfirmation_triple (confirmation : Confirmation) (init : Data) :
    Triple (Steady init) (checkConfirmation plat party fs a confirmation)
      (fun _ => Steady init) (Quiet init) := by
  unfold checkConfirmation
  split_ifs
  · exact steady_triple (bind_within (verify_within plat _) fun _ => pure_within _) init
  · exact finishAssertion_triple party _ _ _ init
  · exact steady_triple (fail_within _) init

/-- Work that flags a key at most where it stops is quiet. -/
theorem quiet_of_triples {α : Type} {work : Work α}
    (triples : ∀ init, Triple (Steady init) work (fun _ => Steady init) (Quiet init)) :
    Within Quiet work := by
  intro d
  have out := triples d d (Keeps.refl d)
  rcases ran : work d with ⟨error | val, next⟩
  · rw [ran] at out
    exact out
  · rw [ran] at out
    exact Steady.quiet out

end Services

end TangraAuth.Mfa
