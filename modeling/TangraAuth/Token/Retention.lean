import TangraAuth.Library.Execution
import TangraAuth.Token.Issuer

/-!
Contract: one ring over any schedule of its operations.

Owns: the ring as a system that loads, rotates, sweeps, signs and lets time pass,
and that it publishes a token's key for as long as a verifier may accept the token.

Does not own: several rings over one table.
-/

namespace TangraAuth.Token

open Library Store
open TangraAuth.AuthClient (unix)

/-! ### The system -/

structure State where
  now : Int
  config : Config
  keys : Keys
  tokens : List SignedToken

/-- `shuffle` is the order of the map, which Go does not fix. Each operation that may rotate
comes with the key it would generate. -/
inductive Move where
  | load (fs : Faults) (kid : KeyID) (pk : PublicKey)
  | rotate (fs : Faults) (kid : KeyID) (pk : PublicKey)
  | sweep (fs : Faults) (kid : KeyID) (pk : PublicKey)
  | shuffle (order : List RingKey)
  | issue (req : Request)
  | enroll (tid : Option TenantID) (spiffePaths : List String) (ttl : Int)
  | advance (elapsed : Nat)

/-- A generated key id is no other key's. -/
def Keys.fresh (ks : Keys) (kid : KeyID) : Bool :=
  (ks.ring.all fun key => key.kid != kid) && ks.store.all fun key => key.kid != kid

/-- A refused request leaves no token. -/
def State.sign (st : State) : Except IssueError SignedToken → State
  | .ok tok => { st with tokens := st.tokens ++ [tok] }
  | .error _ => st

def step (st : State) : Move → Option State
  | .load fs kid pk =>
    if st.keys.fresh kid then
      some { st with keys := (st.keys.load fs st.now kid pk).1 }
    else none
  | .rotate fs kid pk =>
    if st.keys.fresh kid then
      some { st with keys := (st.keys.rotate fs st.now kid pk).1 }
    else none
  | .sweep fs kid pk =>
    if st.keys.fresh kid then
      some { st with
        keys := (st.keys.sweep fs st.config st.now kid pk).1 }
    else none
  | .shuffle order =>
    if order.Perm st.keys.ring then
      some { st with keys := { st.keys with ring := order } }
    else none
  | .issue req => some (st.sign (issue st.config st.keys st.now req))
  | .enroll tid spiffePaths ttl =>
    some (st.sign (issueEnrollment st.keys st.now tid spiffePaths ttl))
  | .advance elapsed => some { st with now := st.now + elapsed }

/-- A new ring over a table. -/
def initial (now : Int) (cfg : Config) (store : List SigningKey) : State where
  now := now
  config := cfg.normalize
  keys := ⟨store, []⟩
  tokens := []

/-! ### Keys that still carry a token -/

/-- A key that was active at `signedAt` shows dates no earlier than that. -/
def Dated (signedAt : Int) (key : SigningKey) : Prop :=
  match key.state with
  | .active => True
  | .retiring => ∀ ins, key.retiringAt = some ins → signedAt ≤ ins
  | .retired => ∀ ins, key.retiredAt = some ins → signedAt < ins

/-- The token's key is among the rows, with the dates it can have. -/
def Carried {ρ : Type} (v : ρ → SigningKey) (tok : SignedToken) (signedAt : Int)
    (rs : List ρ) : Prop :=
  ∃ row ∈ rs, (v row).kid = tok.kid ∧ (v row).publicKey = tok.signer ∧ Dated signedAt (v row)

/-- No verifier accepts the token later than `keepRetired` after that instant. -/
def ExpiresWithin (cfg : Config) (tok : SignedToken) (signedAt : Int) : Prop :=
  ∀ skew, tok.VerifiedWith cfg skew → tok.expiresAt + skew ≤ signedAt + cfg.keepRetired

/-- The table has the row of the keys of that id in memory. -/
def RowFor (ks : Keys) (kid : KeyID) : Prop :=
  ∀ key ∈ ks.ring, key.kid = kid →
    ∃ stored ∈ ks.store, stored.kid = kid ∧ stored.publicKey = key.publicKey

structure Sound (cfg : Config) (tokens : List SignedToken) (now : Int) (ks : Keys) :
    Prop where
  uniqueStore : UniqueKey SigningKey.kid ks.store
  uniqueRing : UniqueKey (fun key : RingKey => key.kid) ks.ring
  backed : ∀ key ∈ ks.ring, key.state = .active → ∃ stored ∈ ks.store,
    stored.kid = key.kid ∧ stored.publicKey = key.publicKey ∧ stored.state = .active
  carried : ∀ tok ∈ tokens, ∃ signedAt ≤ now, ExpiresWithin cfg tok signedAt
    ∧ (signedAt + cfg.keepRetired < now ∨ Carried RingKey.toSigningKey tok signedAt ks.ring
        ∧ Carried id tok signedAt ks.store)

theorem Carried.update {ρ : Type} {v : ρ → SigningKey} {tok : SignedToken} {signedAt : Int}
    {rs : List ρ} (carried : Carried v tok signedAt rs) {matching : ρ → Bool}
    {change : ρ → ρ}
    (same : ∀ row, (v (change row)).kid = (v row).kid
      ∧ (v (change row)).publicKey = (v row).publicKey)
    (dated : ∀ row, matching row = true → (v row).kid = tok.kid →
      Dated signedAt (v row) → Dated signedAt (v (change row))) :
    Carried v tok signedAt (updateWhere matching change rs) := by
  obtain ⟨row, mem, isKid, isSigner, isDated⟩ := carried
  refine ⟨_, mem_updateWhere.mpr ⟨row, mem, rfl⟩, ?_⟩
  grind

@[simp] theorem changed_kid (now : Int) (st : KeyState) (key : RingKey) :
    (key.changed now st).kid = key.kid := by
  cases st <;> rfl

@[simp] theorem changed_publicKey (now : Int) (st : KeyState) (key : RingKey) :
    (key.changed now st).publicKey = key.publicKey := by
  cases st <;> rfl

@[simp] theorem changed_state (now : Int) (st : KeyState) (key : RingKey) :
    (key.changed now st).state = st := by
  cases st <;> rfl

theorem row_changed_kid (now : Int) (st : KeyState) (key : SigningKey) :
    (key.changed now st).kid = key.kid := rfl

theorem dated_changed {signedAt now : Int} {st : KeyState} (pre : signedAt ≤ now)
    (strictly : st = .retired → signedAt < now) (key : RingKey) :
    Dated signedAt (key.changed now st).toSigningKey := by
  cases st with
  | active => exact True.intro
  | retiring =>
    intro ins isInstant
    cases isInstant
    exact pre
  | retired =>
    intro ins isInstant
    cases isInstant
    exact strictly rfl

theorem dated_row_changed {signedAt now : Int} {st : KeyState} (pre : signedAt ≤ now)
    (strictly : st = .retired → signedAt < now) (key : SigningKey) :
    Dated signedAt (key.changed now st) := by
  grind [Dated, SigningKey.changed]

section

variable {cfg : Config} {tokens : List SignedToken} {now : Int} {ks : Keys}

theorem RowFor.setState {kid : KeyID} (row : RowFor ks kid) (other : KeyID)
    (st : KeyState) : RowFor (ks.setState now other st) kid := by
  intro key mem isKid
  obtain ⟨old, oldMem, isOld⟩ := of_mem_updateWhere mem
  have same : old.kid = key.kid ∧ old.publicKey = key.publicKey := by
    rcases isOld with ⟨-, rfl⟩ | ⟨-, rfl⟩
    · simp_all
    · exact ⟨rfl, rfl⟩
  obtain ⟨stored, storedMem, storedKid, storedPublic⟩ := row old oldMem (same.1.trans isKid)
  refine ⟨_, mem_updateWhere.mpr ⟨stored, storedMem, rfl⟩, ?_⟩
  split
  · exact ⟨storedKid, storedPublic.trans same.2⟩
  · exact ⟨storedKid, storedPublic.trans same.2⟩

theorem Sound.rowFor (sound : Sound cfg tokens now ks) {key : RingKey}
    (mem : key ∈ ks.ring) (active : key.state = .active) : RowFor ks key.kid := by
  grind [eq_of_uniqueKey, uniqueRing, backed, RowFor]

/-- A change of state keeps the invariant if a key is retired only when its last token is older
than now, and made active only if its row is there. -/
theorem Sound.setState (sound : Sound cfg tokens now ks) {kid : KeyID} {st : KeyState}
    (retires : st = .retired → ∃ key ∈ ks.ring, key.kid = kid
      ∧ ∀ signedAt, Dated signedAt key.toSigningKey → signedAt < now)
    (returns : st = .active → RowFor ks kid) :
    Sound cfg tokens now (ks.setState now kid st) where
  uniqueStore := uniqueKey_updateWhere (row_changed_kid now st) sound.uniqueStore
  uniqueRing := uniqueKey_updateWhere (changed_kid now st) sound.uniqueRing
  backed := by
    intro key mem active
    obtain ⟨old, oldMem, ⟨matched, rfl⟩ | ⟨unmatched, rfl⟩⟩ := of_mem_updateWhere mem
    · rw [changed_state] at active
      obtain ⟨stored, storedMem, isKid, isPublic⟩ :=
        returns active old oldMem (beq_iff_eq.mp matched)
      refine ⟨_, mem_updateWhere.mpr ⟨stored, storedMem, rfl⟩, ?_⟩
      rw [if_pos (beq_iff_eq.mpr isKid), changed_kid, changed_publicKey]
      exact ⟨isKid.trans (beq_iff_eq.mp matched).symm, isPublic, active⟩
    · obtain ⟨stored, storedMem, isKid, isPublic, isActive⟩ :=
        sound.backed key oldMem active
      refine ⟨_, mem_updateWhere.mpr ⟨stored, storedMem, rfl⟩, ?_⟩
      grind
  carried := by
    intro tok mem
    obtain ⟨signedAt, pre, exp, past | ⟨inRing, inStore⟩⟩ := sound.carried tok mem
    · exact ⟨signedAt, pre, exp, Or.inl past⟩
    -- The key in memory decides whether the token is older than now.
    have strictly : tok.kid = kid → st = .retired → signedAt < now := by
      intro sameKid isRetired
      obtain ⟨key, keyMem, isKid, older⟩ := retires isRetired
      obtain ⟨held, heldMem, heldKid, -, heldDated⟩ := inRing
      have same : held = key :=
        eq_of_uniqueKey sound.uniqueRing heldMem keyMem (heldKid.trans (sameKid.trans isKid.symm))
      exact older signedAt (same ▸ heldDated)
    refine ⟨signedAt, pre, exp, Or.inr ⟨?_, ?_⟩⟩
    · apply inRing.update (fun row => ⟨changed_kid now st row, changed_publicKey now st row⟩)
      intro row matched sameKid _
      have isKid : tok.kid = kid := sameKid.symm.trans (beq_iff_eq.mp matched)
      exact dated_changed pre (strictly isKid) row
    · apply inStore.update (fun row => ⟨row_changed_kid now st row, rfl⟩)
      intro row matched sameKid _
      have isKid : tok.kid = kid := sameKid.symm.trans (beq_iff_eq.mp matched)
      exact dated_row_changed pre (strictly isKid) row

theorem mem_setState_ring {kid : KeyID} {st : KeyState} {key : RingKey}
    (mem : key ∈ ks.ring) (other : key.kid ≠ kid) :
    key ∈ (ks.setState now kid st).ring := by
  refine mem_updateWhere.mpr ⟨key, mem, ?_⟩
  rw [if_neg (by simpa using other)]

theorem setState_kids (now : Int) (ks : Keys) (kid : KeyID) (st : KeyState) :
    (ks.setState now kid st).ring.map (fun key => key.kid) = ks.ring.map (fun key => key.kid)
      ∧ (ks.setState now kid st).store.map SigningKey.kid = ks.store.map SigningKey.kid :=
  ⟨map_updateWhere_of_preserved (changed_kid now st) _,
    map_updateWhere_of_preserved (row_changed_kid now st) _⟩

/-! ### Rotation -/

variable (fs : Faults)

theorem retireActive_kids (now : Int) (snap : List RingKey) (ks : Keys) :
    (retireActive fs now snap ks).1.ring.map (fun key => key.kid) = ks.ring.map (fun key => key.kid)
      ∧ (retireActive fs now snap ks).1.store.map SigningKey.kid = ks.store.map SigningKey.kid := by
  induction snap generalizing ks with
  | nil => exact ⟨rfl, rfl⟩
  | cons old rest ih =>
    grind [setState_kids, retireActive]

theorem retireActive_rowFor {kid : KeyID} (snap : List RingKey) {ks : Keys}
    (row : RowFor ks kid) : RowFor (retireActive fs now snap ks).1 kid := by
  induction snap generalizing ks with
  | nil => exact row
  | cons old rest ih =>
    grind [RowFor.setState, retireActive]

/-- The loop keeps the invariant, and the keys it retired still have their rows. -/
theorem retireActive_sound {snap : List RingKey} {ks : Keys}
    (sound : Sound cfg tokens now ks) (present : ∀ key ∈ snap, key ∈ ks.ring)
    (unique : UniqueKey (fun key : RingKey => key.kid) snap) :
    Sound cfg tokens now (retireActive fs now snap ks).1
      ∧ ∀ kid ∈ (retireActive fs now snap ks).2.1, RowFor (retireActive fs now snap ks).1 kid := by
  induction snap generalizing ks with
  | nil =>
    refine ⟨sound, ?_⟩
    intro kid mem
    cases mem
  | cons old rest ih =>
    have uniqueRest := List.nodup_cons.mp unique
    have oldMem := present old List.mem_cons_self
    simp only [retireActive]
    split_ifs with active failing
    · refine ⟨sound, ?_⟩
      intro kid mem
      cases mem
    · have retired : Sound cfg tokens now (ks.setState now old.kid .retiring) :=
        sound.setState (fun impossible => (nomatch impossible))
          (fun impossible => (nomatch impossible))
      have stays : ∀ key ∈ rest, key ∈ (ks.setState now old.kid .retiring).ring := by
        intro key mem
        apply mem_setState_ring (present key (List.mem_cons_of_mem _ mem))
        intro sameKid
        exact uniqueRest.1 (List.mem_map.mpr ⟨key, mem, sameKid⟩)
      obtain ⟨stillSound, rs⟩ := ih retired stays uniqueRest.2
      refine ⟨stillSound, ?_⟩
      intro kid mem
      rcases List.mem_cons.mp mem with rfl | others
      · grind [retireActive_rowFor, Sound.rowFor, RowFor.setState]
      · exact rs kid others
    · exact ih sound (fun key mem => present key (List.mem_cons_of_mem _ mem))
        uniqueRest.2

theorem putBack_sound {retired : List KeyID} {ks : Keys} (sound : Sound cfg tokens now ks)
    (rs : ∀ kid ∈ retired, RowFor ks kid) :
    Sound cfg tokens now (putBack fs now retired ks) := by
  induction retired generalizing ks with
  | nil => exact sound
  | cons kid rest ih =>
    grind [Sound.setState, RowFor.setState, putBack]

/-- No key in memory or in the table has the id. -/
def Unused (ks : Keys) (kid : KeyID) : Prop :=
  (∀ key ∈ ks.ring, key.kid ≠ kid) ∧ ∀ key ∈ ks.store, key.kid ≠ kid

theorem Sound.insert (sound : Sound cfg tokens now ks) {kid : KeyID}
    (unused : Unused ks kid) (pk : PublicKey) (opened : Bool) :
    Sound cfg tokens now (ks.insert (newKey now kid pk) opened) where
  uniqueStore := uniqueKey_append_singleton sound.uniqueStore unused.2
  uniqueRing := uniqueKey_append_singleton sound.uniqueRing unused.1
  backed := by
    intro key mem active
    rcases List.mem_append.mp mem with old | new
    · grind [backed, Keys.insert]
    · cases List.mem_singleton.mp new
      exact ⟨newKey now kid pk, List.mem_append_right _ (List.mem_singleton.mpr rfl), rfl, rfl, rfl⟩
  carried := by
    intro tok mem
    obtain ⟨signedAt, pre, exp, past | ⟨inRing, inStore⟩⟩ := sound.carried tok mem
    · exact ⟨signedAt, pre, exp, Or.inl past⟩
    · obtain ⟨key, keyMem, isKey⟩ := inRing
      obtain ⟨stored, storedMem, isStored⟩ := inStore
      exact ⟨signedAt, pre, exp, Or.inr ⟨⟨key, List.mem_append_left _ keyMem, isKey⟩,
          ⟨stored, List.mem_append_left _ storedMem, isStored⟩⟩⟩

theorem Unused.of_kids {ks next : Keys} {kid : KeyID} (unused : Unused ks kid)
    (ring : ∀ other ∈ next.ring.map (fun key => key.kid), other ∈ ks.ring.map (fun key => key.kid))
    (store : ∀ other ∈ next.store.map SigningKey.kid, other ∈ ks.store.map SigningKey.kid) :
    Unused next kid := by
  constructor
  · intro key mem isKid
    obtain ⟨old, oldMem, same⟩ := List.mem_map.mp (ring _ (List.mem_map_of_mem mem))
    exact unused.1 old oldMem (same.trans isKid)
  · intro key mem isKid
    obtain ⟨old, oldMem, same⟩ := List.mem_map.mp (store _ (List.mem_map_of_mem mem))
    exact unused.2 old oldMem (same.trans isKid)

theorem Sound.rotate (sound : Sound cfg tokens now ks) (fs : Faults) {kid : KeyID}
    (unused : Unused ks kid) (pk : PublicKey) :
    Sound cfg tokens now (ks.rotate fs now kid pk).1 := by
  obtain ⟨retired, rs⟩ :=
    retireActive_sound fs sound (fun _ mem => mem) sound.uniqueRing
  have kids := retireActive_kids fs now ks.ring ks
  simp only [Keys.rotate]
  split_ifs
  · exact sound
  · exact retired
  · exact putBack_sound fs retired rs
  · apply retired.insert
    apply unused.of_kids
    · rw [kids.1]
      exact fun _ mem => mem
    · rw [kids.2]
      exact fun _ mem => mem

/-! ### Sweeping -/

theorem due_eq_true {period : Int} {since : Option Int} (isDue : due now period since = true) :
    ∃ ins, since = some ins ∧ ins + period ≤ now := by
  cases since with
  | none => cases isDue
  | some ins =>
    have passed : now - ins ≥ period := of_decide_eq_true isDue
    exact ⟨ins, rfl, by omega⟩

/-- A retiring key that is due signed nothing now. -/
theorem dated_lt_of_retiring_due {key : SigningKey} (retiring : key.state = .retiring)
    (positive : 0 < cfg.retiringPeriod)
    (isDue : due now cfg.retiringPeriod key.retiringAt = true) {signedAt : Int}
    (dated : Dated signedAt key) : signedAt < now := by
  grind [due_eq_true, Dated]

/-- The key is retired, and for so long that no token of it can be accepted. -/
def Outlived (cfg : Config) (now : Int) (key : SigningKey) : Prop :=
  key.state = .retired ∧ due now cfg.keepRetired key.retiredAt = true

theorem Outlived.past {key : SigningKey} (outlived : Outlived cfg now key) {signedAt : Int}
    (dated : Dated signedAt key) : signedAt + cfg.keepRetired < now := by
  obtain ⟨ins, isInstant, passed⟩ := due_eq_true outlived.2
  unfold Dated at dated
  rw [outlived.1] at dated
  have pre : signedAt < ins := dated ins isInstant
  omega

/-- Rows and keys may go when what they carry in memory is outlived. -/
theorem Sound.removeRow (sound : Sound cfg tokens now ks) {key : RingKey}
    (mem : key ∈ ks.ring) (outlived : Outlived cfg now key.toSigningKey) :
    Sound cfg tokens now { ks with store := removeSigningKey key.kid ks.store } where
  uniqueStore := uniqueKey_filter sound.uniqueStore _
  uniqueRing := sound.uniqueRing
  backed := by
    intro other otherMem active
    obtain ⟨stored, storedMem, isKid, isPublic, isActive⟩ :=
      sound.backed other otherMem active
    refine ⟨stored, List.mem_filter.mpr ⟨storedMem, ?_⟩, isKid, isPublic, isActive⟩
    rw [isActive]
    simp
  carried := by
    intro tok tokenMem
    obtain ⟨signedAt, pre, exp, past | ⟨inRing, inStore⟩⟩ := sound.carried tok tokenMem
    · exact ⟨signedAt, pre, exp, Or.inl past⟩
    by_cases sameKid : tok.kid = key.kid
    · obtain ⟨held, heldMem, heldKid, -, heldDated⟩ := inRing
      have same : held = key :=
        eq_of_uniqueKey sound.uniqueRing heldMem mem (heldKid.trans sameKid)
      exact ⟨signedAt, pre, exp, Or.inl (outlived.past (same ▸ heldDated))⟩
    · obtain ⟨stored, storedMem, isKid, isStored⟩ := inStore
      refine ⟨signedAt, pre, exp, Or.inr ⟨inRing, stored, ?_, isKid, isStored⟩⟩
      have other : stored.kid ≠ key.kid := fun same => sameKid (isKid.symm.trans same)
      exact List.mem_filter.mpr ⟨storedMem, by simp [other]⟩

theorem Sound.drop (sound : Sound cfg tokens now ks) {removed : List KeyID}
    (outlived : ∀ kid ∈ removed, ∃ key ∈ ks.ring, key.kid = kid
      ∧ Outlived cfg now key.toSigningKey) :
    Sound cfg tokens now
      { ks with ring := ks.ring.filter fun key => key.kid ∉ removed } where
  uniqueStore := sound.uniqueStore
  uniqueRing := uniqueKey_filter sound.uniqueRing _
  backed := fun key mem => sound.backed key (List.mem_of_mem_filter mem)
  carried := by
    intro tok tokenMem
    obtain ⟨signedAt, pre, exp, past | ⟨inRing, inStore⟩⟩ := sound.carried tok tokenMem
    · exact ⟨signedAt, pre, exp, Or.inl past⟩
    obtain ⟨held, heldMem, heldKid, isHeld, heldDated⟩ := inRing
    by_cases isRemoved : held.kid ∈ removed
    · obtain ⟨key, mem, sameKid, isOutlived⟩ := outlived _ isRemoved
      have same : held = key := eq_of_uniqueKey sound.uniqueRing heldMem mem sameKid.symm
      exact ⟨signedAt, pre, exp, Or.inl (isOutlived.past (same ▸ heldDated))⟩
    · refine ⟨signedAt, pre, exp, Or.inr ⟨⟨held, ?_, heldKid, isHeld, heldDated⟩, inStore⟩⟩
      exact List.mem_filter.mpr ⟨heldMem, decide_eq_true isRemoved⟩

theorem mem_sweepKeys_ring {snap : List RingKey} {ks : Keys} {key : RingKey}
    (mem : key ∈ ks.ring) (other : key.kid ∉ snap.map (fun visited => visited.kid)) :
    key ∈ (sweepKeys fs cfg now snap ks).1.ring := by
  induction snap generalizing ks with
  | nil => exact mem
  | cons visited rest ih =>
    rw [List.map_cons, List.mem_cons, not_or] at other
    simp only [sweepKeys]
    split
    · exact ih mem other.2
    · split_ifs
      · exact mem
      · exact ih (mem_setState_ring mem other.1) other.2
      · exact ih mem other.2
    grind

theorem sweepKeys_kids (cfg : Config) (now : Int) (snap : List RingKey) (ks : Keys) :
    (sweepKeys fs cfg now snap ks).1.ring.map (fun key => key.kid)
        = ks.ring.map (fun key => key.kid)
      ∧ ∀ kid ∈ (sweepKeys fs cfg now snap ks).1.store.map SigningKey.kid,
        kid ∈ ks.store.map SigningKey.kid := by
  induction snap generalizing ks with
  | nil => exact ⟨rfl, fun _ mem => mem⟩
  | cons visited rest ih =>
    simp only [sweepKeys]
    split
    · exact ih ks
    · split_ifs
      · exact ⟨rfl, fun _ mem => mem⟩
      · have kept := setState_kids now ks visited.kid .retired
        have others := ih (ks.setState now visited.kid .retired)
        exact ⟨others.1.trans kept.1, fun kid mem => kept.2 ▸ others.2 kid mem⟩
      · exact ih ks
    · split_ifs
      · exact ⟨rfl, fun _ mem => mem⟩
      · have others := ih
          { ks with store := removeSigningKey visited.kid ks.store }
        refine ⟨others.1, ?_⟩
        intro kid mem
        obtain ⟨row, rowMem, isKid⟩ := List.mem_map.mp (others.2 kid mem)
        exact List.mem_map.mpr ⟨row, List.mem_of_mem_filter rowMem, isKid⟩
      · exact ih ks

theorem sweepKeys_sound (positive : 0 < cfg.retiringPeriod) {snap : List RingKey}
    {ks : Keys} (sound : Sound cfg tokens now ks)
    (present : ∀ key ∈ snap, key ∈ ks.ring)
    (unique : UniqueKey (fun key : RingKey => key.kid) snap) :
    Sound cfg tokens now (sweepKeys fs cfg now snap ks).1
      ∧ ∀ kid ∈ (sweepKeys fs cfg now snap ks).2.1,
        ∃ key ∈ (sweepKeys fs cfg now snap ks).1.ring, key.kid = kid
          ∧ Outlived cfg now key.toSigningKey := by
  induction snap generalizing ks with
  | nil =>
    refine ⟨sound, ?_⟩
    intro kid mem
    cases mem
  | cons visited rest ih =>
    obtain ⟨alone, uniqueRest⟩ := List.nodup_cons.mp unique
    have visitedMember := present visited List.mem_cons_self
    have presentRest : ∀ key ∈ rest, key ∈ ks.ring := fun key mem =>
      present key (List.mem_cons_of_mem _ mem)
    have stopped : Sound cfg tokens now ks ∧ ∀ kid ∈ ([] : List KeyID),
        ∃ key ∈ ks.ring, key.kid = kid ∧ Outlived cfg now key.toSigningKey :=
      ⟨sound, fun _ mem => (nomatch mem)⟩
    simp only [sweepKeys]
    split
    · exact ih sound presentRest uniqueRest
    · rename_i retiring
      split_ifs with isDue
      · exact stopped
      · apply ih _ _ uniqueRest
        · grind [Sound.setState, dated_lt_of_retiring_due]
        grind [mem_setState_ring]
      · exact ih sound presentRest uniqueRest
    · rename_i retired
      split_ifs with isDue
      · exact stopped
      · have outlived : Outlived cfg now visited.toSigningKey := ⟨retired, isDue⟩
        obtain ⟨stillSound, removed⟩ := ih
          (sound.removeRow visitedMember outlived) presentRest uniqueRest
        refine ⟨stillSound, ?_⟩
        intro kid mem
        rcases List.mem_cons.mp mem with rfl | others
        · grind [mem_sweepKeys_ring]
        · exact removed kid others
      · exact ih sound presentRest uniqueRest

theorem Sound.sweep (sound : Sound cfg tokens now ks) (fs : Faults)
    (positive : 0 < cfg.retiringPeriod) {kid : KeyID} (unused : Unused ks kid)
    (pk : PublicKey) :
    Sound cfg tokens now (ks.sweep fs cfg now kid pk).1 := by
  obtain ⟨swept, removed⟩ :=
    sweepKeys_sound fs positive sound (fun _ mem => mem) sound.uniqueRing
  have kids := sweepKeys_kids fs cfg now ks.ring ks
  simp only [Keys.sweep]
  split_ifs
  · exact swept
  · apply (swept.drop removed).rotate
    refine unused.of_kids ?_ kids.2
    grind
  · exact swept.drop removed

/-! ### Loading -/

theorem Sound.reload (sound : Sound cfg tokens now ks) :
    Sound cfg tokens now { ks with ring := ks.store.map loaded } where
  uniqueStore := sound.uniqueStore
  uniqueRing := by
    unfold UniqueKey
    rw [List.map_map]
    exact sound.uniqueStore
  backed := by
    intro key mem active
    obtain ⟨stored, storedMem, rfl⟩ := List.mem_map.mp mem
    exact ⟨stored, storedMem, rfl, rfl, active⟩
  carried := by
    grind [carried, List.mem_map_of_mem, Carried, loaded]

theorem Sound.load (sound : Sound cfg tokens now ks) (fs : Faults) {kid : KeyID}
    (unused : Unused ks kid) (pk : PublicKey) :
    Sound cfg tokens now (ks.load fs now kid pk).1 := by
  simp only [Keys.load]
  split_ifs
  · exact sound
  · exact sound
  · exact sound.reload
  · apply sound.reload.rotate
    refine ⟨?_, unused.2⟩
    intro key mem
    obtain ⟨stored, storedMem, rfl⟩ := List.mem_map.mp mem
    exact unused.2 stored storedMem

end

/-! ### Signing -/

theorem activeKey_eq_some {ring : List RingKey} {key : RingKey}
    (found : activeKey ring = some key) : key ∈ ring ∧ key.state = .active := by
  unfold activeKey at found
  -- The fold only ever holds an active key of the list.
  have holds : ∀ (rest : List RingKey) (best : Option RingKey),
      (∀ held, best = some held → held ∈ ring ∧ held.state = .active) →
      (∀ other ∈ rest, other ∈ ring) →
      ∀ held, rest.foldl
        (fun best key =>
          if key.state = .active ∧ best.all fun found => decide (found.createdAt < key.createdAt)
          then some key else best) best = some held → held ∈ ring ∧ held.state = .active := by
    intro rest
    induction rest with
    | nil => exact fun best known _ => known
    | cons other rest ih =>
      intro best known members held isHeld
      rw [List.foldl_cons] at isHeld
      refine ih _ ?_ (fun later mem => members later (List.mem_cons_of_mem _ mem)) held isHeld
      grind
  exact holds ring none (fun _ impossible => (nomatch impossible)) (fun _ mem => mem) key found

/-- Seconds are cut off, never added. -/
theorem unix_mul_second_le (ins : Int) : unix ins * second ≤ ins :=
  Int.ediv_mul_le ins (by decide)

structure Config.Normal (cfg : Config) : Prop where
  access : cfg.accessLifetime ≤ 15 * minute
  retiring : 0 < cfg.retiringPeriod
  skew : 0 < cfg.clockSkew ∧ cfg.clockSkew ≤ 60 * second

theorem Config.normalize_normal (cfg : Config) : cfg.normalize.Normal where
  access := by
    unfold Config.normalize
    dsimp only
    split_ifs <;> omega
  retiring := by
    unfold Config.normalize
    dsimp only
    split_ifs with invalid
    · decide
    · omega
  skew := by
    grind [normalize, second]

theorem allowedSkew_le (skew : Int) : allowedSkew skew ≤ 60 * second := by
  unfold allowedSkew
  split_ifs <;> omega

theorem Config.Normal.allowedSkew_eq {cfg : Config} (normal : cfg.Normal) :
    allowedSkew cfg.clockSkew = cfg.clockSkew := by
  have range := normal.skew
  unfold allowedSkew
  rw [if_neg (by omega)]

theorem keepRetired_ge (cfg : Config) : 24 * hour + cfg.clockSkew ≤ cfg.keepRetired := by
  have longest := le_max_right cfg.accessLifetime maxEnrollLifetime
  unfold Config.keepRetired
  unfold maxEnrollLifetime at *
  omega

section

variable {cfg : Config} {tokens : List SignedToken} {now : Int} {ks : Keys}

/-- What a token needs from its issue to be carried from then on. -/
structure SignedNow (cfg : Config) (now : Int) (ks : Keys) (tok : SignedToken) : Prop where
  key : ∃ key ∈ ks.ring, key.state = .active ∧ key.kid = tok.kid ∧ key.publicKey = tok.signer
  expires : ExpiresWithin cfg tok now

theorem signedNow_of_issue (normal : cfg.Normal) {req : Request} {tok : SignedToken}
    (issued : issue cfg ks now req = .ok tok) : SignedNow cfg now ks tok := by
  unfold issue at issued
  split at issued
  · cases issued
  · rename_i key found
    split_ifs at issued
    cases issued
    obtain ⟨mem, active⟩ := activeKey_eq_some found
    refine ⟨⟨key, mem, active, rfl, rfl⟩, ?_⟩
    rintro skew ⟨configured, rfl⟩
    have bounded := allowedSkew_le configured
    have kept := keepRetired_ge cfg
    have positive := normal.skew.1
    have short := normal.access
    have life : (accessClaims cfg now req).expiresAt * second ≤ now + 15 * minute := by
      unfold accessClaims
      dsimp only
      split_ifs with defaulted
      · have cut := unix_mul_second_le (now + cfg.accessLifetime)
        omega
      · have cut := unix_mul_second_le (now + req.lifetime)
        omega
    have scale : 15 * minute + 60 * second ≤ 24 * hour := by decide
    show (accessClaims cfg now req).expiresAt * second + allowedSkew configured
      ≤ now + cfg.keepRetired
    omega

theorem signedNow_of_enrollment (normal : cfg.Normal) {tid : Option TenantID}
    {spiffePaths : List String} {ttl : Int} {tok : SignedToken}
    (issued : issueEnrollment ks now tid spiffePaths ttl = .ok tok) :
    SignedNow cfg now ks tok := by
  unfold issueEnrollment at issued
  split at issued
  · cases issued
  · rename_i tn
    split_ifs at issued with noPaths tooLong
    split at issued
    · cases issued
    · rename_i key found
      split_ifs at issued
      cases issued
      obtain ⟨mem, active⟩ := activeKey_eq_some found
      refine ⟨⟨key, mem, active, rfl, rfl⟩, ?_⟩
      intro skew isSkew
      have kept := keepRetired_ge cfg
      have cut := unix_mul_second_le (now + enrollLifetime ttl)
      have life : enrollLifetime ttl ≤ 24 * hour := by
        unfold enrollLifetime
        split_ifs
        · decide
        · exact not_lt.mp tooLong
      have exact : skew = cfg.clockSkew := isSkew.trans normal.allowedSkew_eq
      show unix (now + enrollLifetime ttl) * second + skew ≤ now + cfg.keepRetired
      omega

theorem Sound.sign (sound : Sound cfg tokens now ks) {tok : SignedToken}
    (signed : SignedNow cfg now ks tok) :
    Sound cfg (tokens ++ [tok]) now ks where
  uniqueStore := sound.uniqueStore
  uniqueRing := sound.uniqueRing
  backed := sound.backed
  carried := by
    intro other mem
    rcases List.mem_append.mp mem with old | new
    · exact sound.carried other old
    · cases List.mem_singleton.mp new
      obtain ⟨key, keyMem, active, isKid, isSigner⟩ := signed.key
      obtain ⟨stored, storedMem, sameKid, samePublic, storedActive⟩ :=
        sound.backed key keyMem active
      refine ⟨now, le_refl now, signed.expires, Or.inr ⟨⟨key, keyMem, isKid, isSigner, ?_⟩,
        ⟨stored, storedMem, sameKid.trans isKid, samePublic.trans isSigner, ?_⟩⟩⟩
      · unfold Dated
        rw [active]
        exact True.intro
      grind [Dated]

theorem Sound.advance (sound : Sound cfg tokens now ks) (elapsed : Nat) :
    Sound cfg tokens (now + elapsed) ks where
  uniqueStore := sound.uniqueStore
  uniqueRing := sound.uniqueRing
  backed := sound.backed
  carried := by
    grind [carried]

theorem Sound.shuffle (sound : Sound cfg tokens now ks) {order : List RingKey}
    (same : order.Perm ks.ring) : Sound cfg tokens now { ks with ring := order } where
  uniqueStore := sound.uniqueStore
  uniqueRing := (same.map _).nodup_iff.mpr sound.uniqueRing
  backed := fun key mem => sound.backed key (same.mem_iff.mp mem)
  carried := by
    intro tok mem
    obtain ⟨signedAt, pre, exp, past | ⟨inRing, inStore⟩⟩ := sound.carried tok mem
    · exact ⟨signedAt, pre, exp, Or.inl past⟩
    · obtain ⟨key, keyMem, isKey⟩ := inRing
      exact ⟨signedAt, pre, exp, Or.inr ⟨⟨key, same.mem_iff.mpr keyMem, isKey⟩, inStore⟩⟩

end

/-! ### Every schedule -/

theorem unused_of_fresh {ks : Keys} {kid : KeyID} (fresh : ks.fresh kid = true) :
    Unused ks kid := by
  simpa [Keys.fresh, Unused] using fresh

theorem step_preserves_sound (st : State) (move : Move) (next : State)
    (sound : st.config.Normal ∧ Sound st.config st.tokens st.now st.keys)
    (taken : step st move = some next) :
    next.config.Normal ∧ Sound next.config next.tokens next.now next.keys := by
  obtain ⟨normal, sound⟩ := sound
  cases move with
  | load fs kid pk =>
    grind [Sound.load, unused_of_fresh, step]
  | rotate fs kid pk =>
    grind [Sound.rotate, unused_of_fresh, step]
  | sweep fs kid pk =>
    grind [Sound.sweep, Config.Normal.retiring, unused_of_fresh, step]
  | shuffle order =>
    grind [Sound.shuffle, step]
  | issue req =>
    cases taken
    grind [Sound.sign, signedNow_of_issue, State.sign, issue]
  | enroll tid spiffePaths ttl =>
    cases taken
    cases issued : issueEnrollment st.keys st.now tid spiffePaths ttl with
    | error refusal => exact ⟨normal, sound⟩
    | ok tok => exact ⟨normal, sound.sign (signedNow_of_enrollment normal issued)⟩
  | advance elapsed =>
    cases taken
    exact ⟨normal, sound.advance elapsed⟩

theorem publicKey_of_mem {ks : Keys} (unique : UniqueKey (fun key : RingKey => key.kid) ks.ring)
    {key : RingKey} (mem : key ∈ ks.ring) :
    ks.publicKey key.kid = some key.publicKey := by
  unfold Keys.publicKey
  cases found : ks.ring.find? fun other => other.kid == key.kid with
  | none =>
    grind
  | some other =>
    grind [eq_of_uniqueKey]

/-- A token's key is published as long as a verifier may accept the token. -/
theorem Sound.published {cfg : Config} {tokens : List SignedToken} {now : Int} {ks : Keys}
    (sound : Sound cfg tokens now ks) {tok : SignedToken} (issued : tok ∈ tokens)
    {skew : Int} (verified : tok.VerifiedWith cfg skew)
    (accepted : now ≤ tok.expiresAt + skew) :
    ks.publicKey tok.kid = some tok.signer := by
  obtain ⟨signedAt, -, exp, past | ⟨inRing, -⟩⟩ := sound.carried tok issued
  · have last := exp skew verified
    omega
  · obtain ⟨key, mem, isKid, isSigner, -⟩ := inRing
    have published := publicKey_of_mem sound.uniqueRing mem
    have sameKid : key.kid = tok.kid := isKid
    have sameKey : key.publicKey = tok.signer := isSigner
    rw [← sameKid, published, sameKey]

theorem sound_initial (now : Int) (cfg : Config) {store : List SigningKey}
    (unique : UniqueKey SigningKey.kid store) :
    (initial now cfg store).config.Normal
      ∧ Sound (initial now cfg store).config (initial now cfg store).tokens
        (initial now cfg store).now (initial now cfg store).keys :=
  ⟨cfg.normalize_normal, unique, List.nodup_nil, fun _ mem => (nomatch mem),
    fun _ mem => (nomatch mem)⟩

/-- Whatever the schedule, a token's key is published as long as a verifier may accept the
token. -/
theorem key_published_while_token_accepted (now : Int) (cfg : Config)
    (store : List SigningKey) (unique : UniqueKey SigningKey.kid store) {moves : List Move}
    {fin : State} (reaches : run step (initial now cfg store) moves = some fin)
    {tok : SignedToken} (issued : tok ∈ fin.tokens) {skew : Int}
    (verified : tok.VerifiedWith fin.config skew)
    (accepted : fin.now ≤ tok.expiresAt + skew) :
    fin.keys.publicKey tok.kid = some tok.signer := by
  obtain ⟨-, sound⟩ :=
    run_preserves_always step_preserves_sound (sound_initial now cfg unique) reaches
  exact sound.published issued verified accepted

namespace Sample

def noFaults : Faults := fun _ => false

def defaults : Config := ⟨0, 0, 0, 0⟩

def enrollment : SignedToken := ⟨1, 11, .enrollment ⟨1, ["svc"], 0, 86400⟩⟩

/-- A token for a day, a rotation at once, the key retired half an hour later, and a sweep at the
last instant the token may be accepted. -/
def schedule : List Move :=
  [.load noFaults 1 11, .enroll (some 1) ["svc"] (24 * hour), .rotate noFaults 2 22,
    .advance 1800000000000, .sweep noFaults 3 33, .advance 84660000000000,
    .sweep noFaults 4 44]

end Sample

theorem day_token_key_published :
    ∃ fin, run step (initial 0 Sample.defaults []) Sample.schedule = some fin
      ∧ Sample.enrollment ∈ fin.tokens
      ∧ fin.now = Sample.enrollment.expiresAt + 60 * second
      ∧ fin.keys.publicKey 1 = some 11 := by
  obtain ⟨fin, reaches, issued, isNow, isConfig⟩ :
      ∃ fin, run step (initial 0 Sample.defaults []) Sample.schedule = some fin
        ∧ Sample.enrollment ∈ fin.tokens
        ∧ fin.now = Sample.enrollment.expiresAt + 60 * second
        ∧ fin.config.clockSkew = 60 * second :=
    ⟨_, rfl, List.mem_singleton.mpr rfl, rfl, rfl⟩
  have verified : Sample.enrollment.VerifiedWith fin.config (60 * second) := by
    show 60 * second = allowedSkew fin.config.clockSkew
    rw [isConfig]
    rfl
  exact ⟨fin, reaches, issued, isNow,
    key_published_while_token_accepted 0 Sample.defaults [] List.nodup_nil reaches issued verified
      (Int.le_of_eq isNow)⟩

end TangraAuth.Token
