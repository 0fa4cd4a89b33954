import TangraAuth.Mfa.Runs

/-!
Contract: the last usable factor where the tenant requires one.

Owns: that neither `Disable` nor a removal takes it, whatever calls fail, and the theorem
on whole runs.

Does not own: a key that is flagged as cloned, which is no longer usable.
-/

namespace TangraAuth.Mfa

open Library Store Accounts
open TangraAuth.Webauthn

/-! ### Counting usable factors -/

variable {ks : List WebAuthnCredential}

theorem usableKeys_eq_of_view {others : List WebAuthnCredential}
    (same : ks.map (fun key => (key.id, key.cloneFlagged))
      = others.map fun key => (key.id, key.cloneFlagged)) :
    usableKeys ks = usableKeys others := by
  have counted : ∀ list : List WebAuthnCredential, usableKeys list
      = ((list.map fun key => (key.id, key.cloneFlagged)).filter fun pair => !pair.2).length := by
    intro list
    rw [List.filter_map, List.length_map]
    rfl
  rw [counted, counted, same]

theorem Steady.usableFactors {pre post : Data} (steady : Steady pre post)
    (tid : TenantID) (uid : UserID) :
    post.usableFactors tid uid = pre.usableFactors tid uid := by
  have sameRow := steady.accounts tid uid
  have sameKeys := usableKeys_eq_of_view (steady.keys tid uid)
  unfold Data.usableFactors
  cases new : post.accounts tid uid with
  | none =>
    rw [new] at sameRow
    rw [Option.map_eq_none_iff.mp sameRow.symm]
  | some acc =>
    rw [new] at sameRow
    obtain ⟨old, isOld, sameFactors⟩ := Option.map_eq_some_iff.mp sameRow.symm
    rw [isOld]
    dsimp only
    rw [sameKeys, (Prod.mk.inj sameFactors).2]

theorem usableKeys_withoutKey (unique : UniqueKey (·.id) ks) (id : KeyID) :
    usableKeys ks ≤ usableKeys (withoutKey ks id) + 1 := by
  induction ks with
  | nil => exact Nat.zero_le _
  | cons key rest ih =>
    obtain ⟨fresh, restUnique⟩ := List.nodup_cons.mp unique
    have bound := ih restUnique
    by_cases isKey : key.id = id
    · have untouched : withoutKey rest id = rest := by
        refine List.filter_eq_self.mpr fun other mem => ?_
        have ne : other.id ≠ id := by
          rintro rfl
          exact fresh (List.mem_map.mpr ⟨other, mem, isKey.symm⟩)
        simpa using ne
      have dropped : withoutKey (key :: rest) id = rest := by
        rw [withoutKey, List.filter_cons_of_neg (by simp [isKey])]
        exact untouched
      rw [dropped]
      unfold usableKeys
      rw [List.filter_cons]
      split_ifs
      · exact Nat.le_refl _
      · exact Nat.le_succ _
    · have kept : withoutKey (key :: rest) id = key :: withoutKey rest id :=
        List.filter_cons_of_pos (by simpa using isKey)
      rw [kept]
      unfold usableKeys at bound ⊢
      rw [List.filter_cons, List.filter_cons]
      split_ifs
      · exact Nat.succ_le_succ bound
      · exact bound

variable {id : KeyID}

/-- The deletion of a flagged key takes none. -/
theorem usableKeys_withoutKey_flagged
    (flagged : ∀ key ∈ ks, key.id = id → key.cloneFlagged = true) :
    usableKeys (withoutKey ks id) = usableKeys ks := by
  unfold usableKeys withoutKey
  rw [List.filter_filter]
  refine congrArg List.length (List.filter_congr fun key mem => ?_)
  grind

theorem unique_userKeys (d : Data) (tid : TenantID) (uid : UserID) :
    UniqueKey (·.id) (d.userKeys tid uid) :=
  uniqueKey_filter d.keys.unique _

variable {d : Data} {tid : TenantID}

theorem account_of_usable {uid : UserID} (some : 1 ≤ d.usableFactors tid uid) :
    d.accounts tid uid ≠ none := by
  intro missing
  rw [Data.usableFactors, missing] at some
  exact Nat.not_succ_le_zero 0 some

theorem usableKeys_le_usableFactors {uid : UserID} (known : d.accounts tid uid ≠ none) :
    usableKeys (d.userKeys tid uid) ≤ d.usableFactors tid uid := by
  obtain ⟨acc, found⟩ := Option.ne_none_iff_exists'.mp known
  rw [Data.usableFactors, found]
  exact Nat.le_add_left _ _

/-! ### `Disable` -/

section Leaves

variable {plat : Platform} {party : RelyingParty} {fs : Faults} {actor : Actor}
  {init : Data}

theorem query_triple {α : Type} {site : Site} {method : Method} {read : Data → Except Error α} :
    Triple (· = init) (query fs site method read)
      (fun val d => d = init ∧ read init = .ok val) (· = init) := by
  refine call_triple (fun _ met _ => met) ?_
  rintro d val chg rfl ran
  cases found : read d with
  | error error => simp [found, Except.map] at ran
  | ok res =>
    rw [found] at ran
    cases ran
    exact ⟨rfl, rfl⟩

/-- A user who had a usable factor has one. -/
def Leaves (init : Data) (actor : Actor) (d : Data) : Prop :=
  1 ≤ init.usableFactors actor.tenantID actor.userID →
    1 ≤ d.usableFactors actor.tenantID actor.userID

theorem Steady.leaves (steady : Steady init d) : Leaves init actor d := by
  intro some
  rwa [steady.usableFactors]

theorem policyOf_triple {row : Tenant} {pre : Data → Prop} : Triple pre (policyOf row)
      (fun pol d => pre d ∧ Tenant.parsePolicy row.policy row.kind = .ok pol)
      pre := by
  grind [Triple.fail, Triple.pure, policyOf]

/-- The policy read is the one that requires a factor. -/
theorem required_of_reads {row : Tenant} {pol : Tenant.Policy}
    (requires : init.requires tid) (found : (match init.tenants tid with
      | none => (.error .notFound : Except Error Tenant)
      | some row => .ok row) = .ok row)
    (parsed : Tenant.parsePolicy row.policy row.kind = .ok pol) : pol.mfaRequired = true := by
  grind [Data.requires]

theorem disable_leaves (requires : init.requires actor.tenantID) (code : String) :
    Triple (· = init) (disable plat fs actor code) (fun _ => Leaves init actor)
      (Leaves init actor) := by
  have unchanged : ∀ d, d = init → Leaves init actor d := by
    rintro d rfl
    exact id
  have reads : ∀ {α : Type} {site : Site} {method : Method} {read : Data → Except Error α},
      Triple (· = init) (query fs site method read)
        (fun val d => d = init ∧ read init = .ok val) (Leaves init actor) :=
    query_triple.stop unchanged
  refine Triple.bind reads fun row => Triple.assuming fun found => ?_
  refine Triple.bind (policyOf_triple.stop unchanged) fun pol => Triple.assuming fun parsed => ?_
  have required := required_of_reads requires found parsed
  refine Triple.bind reads fun ks => Triple.assuming fun listed => ?_
  cases listed
  refine Triple.ite (fun _ => Triple.fail unchanged) fun usable => ?_
  have left : usableKeys (init.userKeys actor.tenantID actor.userID) ≠ 0 := fun none =>
    usable ⟨required, none⟩
  have verified : Triple (· = init) (verify plat fs actor code)
      (fun _ => Steady init) (Leaves init actor) := by
    have kept : Triple (Steady init) (verify plat fs actor code) _ _ :=
      (verify_within plat code).triple fun _ _ step reached => Keeps.trans reached step
    refine kept.weaken ?_ (fun _ _ met => met) fun _ steady => steady.leaves
    rintro _ rfl
    exact Keeps.refl _
  refine Triple.bind verified fun _ => Triple.ite ?_ ?_
  · intro isEmpty
    rw [List.isEmpty_iff] at isEmpty
    rw [isEmpty] at left
    exact absurd rfl left
  · intro _
    refine setMFA_triple (fun _ steady _ => steady.leaves) ?_
    intro d steady some
    have sameKeys := usableKeys_eq_of_view (steady.keys actor.tenantID actor.userID)
    have known : (d.changeAccount actor.tenantID actor.userID (withMFA true [])).accounts
        actor.tenantID actor.userID ≠ none := by
      rw [← steady.usableFactors] at some
      simpa [Data.changeAccount] using account_of_usable some
    refine Nat.le_trans ?_ (usableKeys_le_usableFactors known)
    show 1 ≤ usableKeys (d.userKeys actor.tenantID actor.userID)
    rw [sameKeys]
    exact Nat.one_le_iff_ne_zero.mpr left

/-! ### Removal -/

/-- What `GuardRemoval` lets through: a flagged key, or one of two usable factors. -/
def Removable (init : Data) (actor : Actor) (id : KeyID) : Prop :=
  (∀ key ∈ init.userKeys actor.tenantID actor.userID, key.id = id → key.cloneFlagged = true)
    ∨ 2 ≤ init.usableFactors actor.tenantID actor.userID

theorem state_triple : Triple (· = init) (state fs actor) (fun current d => d = init
        ∧ current.keys = init.userKeys actor.tenantID actor.userID
        ∧ current.usable = init.usableFactors actor.tenantID actor.userID
        ∧ (init.requires actor.tenantID → current.required = true))
      (· = init) := by
  refine Triple.bind query_triple fun acc => Triple.assuming fun isAccount => ?_
  refine Triple.bind query_triple fun row => Triple.assuming fun isRow => ?_
  refine Triple.bind policyOf_triple fun pol => Triple.assuming fun parsed => ?_
  refine Triple.bind query_triple fun ks => Triple.assuming fun listed => ?_
  refine Triple.bind query_triple fun codes => Triple.assuming fun _ => ?_
  cases listed
  refine Triple.pure ?_
  rintro d rfl
  refine ⟨rfl, rfl, ?_, fun requires => required_of_reads requires isRow parsed⟩
  grind [State.usable, Data.usableFactors]

theorem guardRemoval_triple (requires : init.requires actor.tenantID) (id : KeyID) :
    Triple (· = init) (guardRemoval fs actor id)
      (fun _ d => d = init ∧ Removable init actor id) (· = init) := by
  refine Triple.bind state_triple fun current => Triple.assuming fun read => ?_
  obtain ⟨isKeys, isUsable, isRequired⟩ := read
  rw [isKeys]
  split
  · exact Triple.fail fun _ met => met
  · rename_i key found
    refine Triple.ite (fun _ => Triple.fail fun _ met => met) fun passed => ?_
    refine Triple.pure fun _ met => ⟨met, ?_⟩
    have isID : key.id = id := by simpa using List.find?_some found
    have mem := List.mem_of_find?_eq_some found
    by_cases flagged : key.cloneFlagged = true
    · refine Or.inl fun other otherMem otherID => ?_
      have same := eq_of_uniqueKey (unique_userKeys init actor.tenantID actor.userID) otherMem
        mem (otherID.trans isID.symm)
      rw [same]
      exact flagged
    grind [Removable]

/-- Rows under the id are flagged in a steady state too. -/
theorem Steady.flagged (steady : Steady init d)
    (flagged : ∀ key ∈ init.userKeys actor.tenantID actor.userID, key.id = id →
      key.cloneFlagged = true) :
    ∀ key ∈ d.userKeys actor.tenantID actor.userID, key.id = id → key.cloneFlagged = true := by
  intro key mem isID
  have shown : (key.id, key.cloneFlagged) ∈ (init.userKeys actor.tenantID actor.userID).map
      fun key => (key.id, key.cloneFlagged) := by
    rw [← steady.keys]
    exact List.mem_map.mpr ⟨key, mem, rfl⟩
  grind

/-- A usable factor is left by a removal that was let through. -/
theorem leaves_delete (removable : Removable init actor id) (steady : Steady init d)
    {ks : KeyTable} (isKeys : ks.rows.filter (ownsKey actor.tenantID actor.userID)
      = withoutKey (d.userKeys actor.tenantID actor.userID) id) :
    Leaves init actor { d with keys := ks } := by
  intro some
  have pre := steady.usableFactors actor.tenantID actor.userID
  rw [← pre] at some
  obtain ⟨acc, found⟩ := Option.ne_none_iff_exists'.mp (account_of_usable some)
  have post : Data.usableFactors { d with keys := ks } actor.tenantID actor.userID
      = (if acc.mfaSecretEnc.isEmpty then 0 else 1)
        + usableKeys (withoutKey (d.userKeys actor.tenantID actor.userID) id) := by
    simp only [Data.usableFactors, found, Data.userKeys, isKeys]
  have counted : d.usableFactors actor.tenantID actor.userID
      = (if acc.mfaSecretEnc.isEmpty then 0 else 1)
        + usableKeys (d.userKeys actor.tenantID actor.userID) := by
    simp only [Data.usableFactors, found]
  rw [post]
  rcases removable with flagged | many
  · rw [usableKeys_withoutKey_flagged (steady.flagged flagged), ← counted]
    exact some
  · have bound := usableKeys_withoutKey (unique_userKeys d actor.tenantID actor.userID) id
    omega

/-- `KeyRemoved` turns the second step off only where nothing usable was left. -/
theorem keyRemoved_leaves :
    Triple (Leaves init actor) (keyRemoved fs actor) (fun _ => Leaves init actor)
      (Leaves init actor) := by
  refine Triple.bind (user_triple fun _ met _ => met) fun acc => ?_
  refine Triple.bind (listWebAuthnCredentials_triple fun _ met _ => met.1) fun ks => ?_
  refine Triple.ite (fun _ => Triple.pure fun _ met => met.1.1) fun nothing => ?_
  refine Triple.from ?_
  rintro d ⟨⟨leaves, found⟩, rfl⟩
  have bare : acc.mfaSecretEnc = [] ∧ d.userKeys actor.tenantID actor.userID = [] := by
    simpa using nothing
  have none : d.usableFactors actor.tenantID actor.userID = 0 := by
    simp only [Data.usableFactors, found, bare.1, bare.2]
    rfl
  have never : ∀ other : Data, Leaves init actor other := by
    intro other some
    have left := leaves some
    rw [none] at left
    exact absurd left (Nat.not_succ_le_zero 0)
  exact fun _ _ => by
    rcases clear fs actor _ with ⟨error | val, next⟩
    · exact never next
    · exact never next

/-- After a removal a usable factor is left; where no key is gone nothing is asked. -/
def LeavesRemoval (init : Data) (actor : Actor) (d : Data) : Prop :=
  (d.userKeys actor.tenantID actor.userID).length
      < (init.userKeys actor.tenantID actor.userID).length → Leaves init actor d

theorem Quiet.leavesRemoval (quiet : Quiet init d) : LeavesRemoval init actor d := by
  intro fewer
  rw [quiet.length_userKeys] at fewer
  exact absurd fewer (Nat.lt_irrefl _)

theorem remove_leaves (requires : init.requires actor.tenantID) (id : KeyID)
    (confirmation : Confirmation) :
    Triple (· = init) (remove plat party fs actor id confirmation)
      (fun _ => LeavesRemoval init actor) (LeavesRemoval init actor) := by
  have unchanged : ∀ d, d = init → LeavesRemoval init actor d := by
    rintro d rfl
    exact Quiet.leavesRemoval (Keeps.refl d)
  refine Triple.bind ((guardRemoval_triple requires id).mapError.stop unchanged) fun _ =>
    Triple.assuming fun removable => ?_
  have locks : Within Steady (ignoringError <| query fs .remove .get fun d =>
      (.ok (d.locks.get d.now actor.userID).isSome : Except Error Bool)) :=
    ignoringError_within query_within
  have looked : Triple (· = init) _ (fun _ => Steady init) (LeavesRemoval init actor) :=
    (steady_triple locks init).weaken (fun _ met => met ▸ Keeps.refl _) (fun _ _ met => met)
      fun _ quiet => quiet.leavesRemoval
  refine Triple.bind looked fun locked => ?_
  refine Triple.ite (fun _ => Triple.fail fun _ met => met.quiet.leavesRemoval) fun _ => ?_
  -- A wrong confirmation may have flagged a key, a right one has not.
  have confirmed : Triple (Steady init)
      (ignoringError (checkConfirmation plat party fs actor confirmation))
      (fun out d => (out.isNone = false → Steady init d) ∧ Quiet init d)
      (LeavesRemoval init actor) := by
    refine ignoringError_triple ?_
    refine (checkConfirmation_triple plat party confirmation init).weaken (fun _ met => met) ?_ ?_
    · grind [Steady.quiet]
    · grind
  refine Triple.bind confirmed fun out => Triple.ite ?_ ?_
  · intro _
    have counted : Triple (Quiet init) (failed fs actor) (fun _ => Quiet init) (Quiet init) :=
      failed_within.triple fun _ _ step reached => Keeps.trans reached step
    refine Triple.bind (counted.weaken (fun _ met => met.2) (fun _ _ met => met)
      fun _ quiet => quiet.leavesRemoval) fun _ => Triple.fail fun _ quiet => quiet.leavesRemoval
  · intro right
    have deleted : Triple (Steady init)
        (deleteWebAuthnCredential fs .remove actor.tenantID actor.userID id)
        (fun _ => Leaves init actor) (LeavesRemoval init actor) := by
      refine call_triple (fun _ steady _ => steady.quiet.leavesRemoval) ?_
      intro d val chg steady ran
      dsimp only at ran
      split_ifs at ran
      cases ran
      exact leaves_delete removable steady (userKeys_delete d actor id)
    refine Triple.bind (deleted.enter fun _ met => met.1 (Bool.eq_false_iff.mpr right)) fun _ => ?_
    exact keyRemoved_leaves.weaken (fun _ met => met) (fun _ _ leaves _ => leaves)
      fun _ leaves _ => leaves

end Leaves

/-- Whatever calls fail, the user keeps a usable factor. -/
theorem work_leavesFactor (plat : Platform) (party : RelyingParty) (d : Data)
    (move : Move) : LeavesFactor d (move.work plat party d).2 move.operation := by
  obtain ⟨op, fs⟩ := move
  cases op with
  | disable actor code =>
    intro requires
    exact left_of_triple (disable_leaves requires code) rfl
  | remove actor id confirmation =>
    intro fewer requires
    exact left_of_triple (remove_leaves requires id confirmation) rfl fewer
  | _ => exact True.intro

/-- **Second factors are accounted for.** From a state that accounts for every user, no run of
the operations leaves it in which none is broken off between the writes of one change, and no
`Disable` or removal from a state reached takes the last usable factor where the tenant requires
one. -/
theorem factors_accounted (plat : Platform) (party : RelyingParty) {init fin : Data}
    {moves : List Move} (accounted : AllAccounted init)
    (completes : EveryStep (step plat party) Completes init moves)
    (reaches : run (step plat party) init moves = some fin) :
    AllAccounted fin ∧ ∀ move next, step plat party fin move = some next →
        LeavesFactor fin next move.operation := by
  refine ⟨?_, ?_⟩
  · refine run_preserves ?_ accounted completes reaches
    intro d move next met completed taken
    cases taken
    exact work_accounted met completed
  · intro move next taken
    cases taken
    exact work_leavesFactor plat party fin move

/-! ### An instance -/

namespace Sample

/-- Every code is right, nothing is sealed, and every ceremony succeeds. -/
def trusting : Platform where
  generateCode _ _ := some "123456"
  openEnvelope _ blob := some blob
  sealEnvelope _ sec _ := sec
  verifyPassword _ _ := true
  hashPassword _ salt := some (String.ofList (List.replicate salt 'h'))
  toUpper text := text
  equalFold name other := name == other
  lower text := text

def created : Created := ⟨List.replicate 16 1, [2], [], 0, false, false, []⟩

def party : RelyingParty where
  ttl := minute
  beginRegistration _ _ _ _ := some []
  parsesCreation _ := true
  createCredential _ _ _ _ _ := some created
  beginLogin _ _ _ _ := some []
  parseAssertion resp := some resp
  validateLogin _ _ _ _ _ := some ⟨1, false, false⟩

def newcomer : Actor := ⟨1, 1⟩

/-- One active user without a factor. -/
def start : Data where
  now := 0
  tenants tid :=
    if tid = 1 then some ⟨.customer, .active, Tenant.defaultPolicy⟩ else none
  accounts tid uid :=
    if tid = 1 ∧ uid = 1 then some ⟨.active, false, [], 0, none⟩ else none
  keys := ⟨[], List.nodup_nil⟩
  codes := []
  enrolments := ExpiringMap.empty
  ceremonies := ExpiringMap.empty
  failures := ExpiringMap.empty
  locks := ExpiringMap.empty

def noFaults : Faults := fun _ _ => false

/-- Only the flag write of `KeyAdded` fails. -/
def flagFails : Faults := fun site method => site == .keyAdded && method == .setMFA

def draws (index : Nat) : Draw := ⟨List.replicate 10 0, index⟩

/-- A key is registered, its flag write failing or not. -/
def registration (fs : Faults) : List Move :=
  [⟨.beginRegistration newcomer "key" [1] 0, noFaults⟩,
    ⟨.finishRegistration newcomer [] 7 draws, fs⟩]

/-- What is there after it. -/
def registered (fs : Faults) : Data :=
  (run (step trusting party) start (registration fs)).getD start

theorem start_accounted : AllAccounted start := by
  intro tid uid
  refine ⟨?_, ?_⟩
  · intro acc found
    grind [Data.userKeys, start]
  · intro acc _ held
    exact absurd rfl held

theorem completes_of_noFaults (d : Data) (op : Operation) : Completes d ⟨op, noFaults⟩ := by
  cases op <;> simp [Completes, noFaults, Faults.spareClear]

end Sample

/-- A first key, registered without a failing call: flag, key and codes are there. -/
theorem first_key_accounted : ∃ final, run (step Sample.trusting Sample.party) Sample.start
        (Sample.registration Sample.noFaults) = some final
      ∧ ((final.accounts 1 1).map (·.mfaEnabled), (final.userKeys 1 1).length,
          (final.unusedCodes 1 1).length) = (some true, 1, 10)
      ∧ AllAccounted final
      ∧ ∀ move next, step Sample.trusting Sample.party final move = some next →
        LeavesFactor final next move.operation := by
  refine ⟨Sample.registered Sample.noFaults, rfl, by decide +kernel, ?_⟩
  have completes : EveryStep (step Sample.trusting Sample.party) Completes Sample.start
      (Sample.registration Sample.noFaults) :=
    ⟨Sample.completes_of_noFaults _ _, fun _ _ =>
      ⟨Sample.completes_of_noFaults _ _, fun _ _ => True.intro⟩⟩
  exact factors_accounted Sample.trusting Sample.party Sample.start_accounted completes rfl

/-- The key is stored and the write of the flag fails: a user with a key who is not asked for a
second step. -/
theorem stored_key_without_flag :
    ∃ final, run (step Sample.trusting Sample.party) Sample.start
        (Sample.registration Sample.flagFails) = some final
      ∧ AllAccounted Sample.start ∧ ¬AllAccounted final := by
  refine ⟨Sample.registered Sample.flagFails, rfl, Sample.start_accounted, ?_⟩
  intro accounted
  have flag := (accounted 1 1).flag ⟨.active, false, [], 0, some [1]⟩ (by decide +kernel)
  have keyed : (Sample.registered Sample.flagFails).userKeys 1 1 ≠ [] := by decide +kernel
  cases flag.mpr (Or.inr keyed)

end TangraAuth.Mfa
