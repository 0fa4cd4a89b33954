import TangraAuth.Token.Retention

/-!
Contract: one ring and its table agree on the active key, whatever store calls fail.

Owns: that the table never holds two active keys, and when a ring that has an
active key still has it, in memory and in the table, after a sweep.

Does not own: the dates of keys, and several rings over one table.
-/

namespace TangraAuth.Token

open TangraAuth.Library

/-! ### The property -/

def activeKids (rs : List SigningKey) : List KeyID :=
  (rs.filter fun row => decide (row.state = .active)).map SigningKey.kid

/-- Exactly one active key, the same in memory and in the table. -/
def OneActive (ks : Keys) : Prop :=
  ∃ kid, activeKids (ks.ring.map RingKey.toSigningKey) = [kid] ∧ activeKids ks.store = [kid]

/-- The ring has an active key. -/
def Loaded (ks : Keys) : Prop := ∃ key ∈ ks.ring, key.state = .active

def StoreCall.isStore : StoreCall → Bool
  | .list | .insert | .setState _ _ | .remove _ => true
  | .openKey _ | .generate => false

def Faults.spareStore (fs : Faults) : Prop :=
  ∀ c : StoreCall, c.isStore = true → fs c = false

/-- A rotation whose insertion fails puts back every key it has retired. -/
def Keys.Restores (fs : Faults) (now : Int) (ks : Keys) : Prop :=
  fs .generate = false → (retireActive fs now ks.ring ks).2.2 = true → fs .insert = true →
    ∀ kid ∈ (retireActive fs now ks.ring ks).2.1, fs (.setState kid .active) = false

/-- The rotation of the move, if it comes to one, puts back what it cannot replace. -/
def Restores (st : State) : Move → Prop
  | .rotate fs _ _ => st.keys.Restores fs st.now
  | .sweep fs _ _ =>
    let (swept, removed, ok) := sweepKeys fs st.config st.now st.keys.ring st.keys
    ok = true → rotationDue st.config st.now st.keys.ring = true →
      Keys.Restores fs st.now { swept with ring := swept.ring.filter fun key => key.kid ∉ removed }
  -- While a row is active, `Load` does not rotate.
  | .load _ _ _ | .shuffle _ | .issue _ | .enroll _ _ _ | .advance _ => True

/-! ### At most one active row -/

/-- All active rows have one id. -/
def Single (store : List SigningKey) : Prop :=
  ∀ row ∈ store, ∀ other ∈ store, row.state = .active → other.state = .active → row.kid = other.kid

/-- Every active row was one before. -/
def Fewer (next store : List SigningKey) : Prop :=
  ∀ row ∈ next, row.state = .active → ∃ old ∈ store, old.kid = row.kid ∧ old.state = .active

theorem Fewer.refl (store : List SigningKey) : Fewer store store :=
  fun row mem active => ⟨row, mem, rfl, active⟩

variable {store : List SigningKey}

theorem Fewer.trans {last next : List SigningKey} (later : Fewer last next)
    (earlier : Fewer next store) : Fewer last store := by
  intro row mem active
  obtain ⟨middle, middleMem, sameKid, middleActive⟩ := later row mem active
  obtain ⟨old, oldMem, oldKid, oldActive⟩ := earlier middle middleMem middleActive
  exact ⟨old, oldMem, oldKid.trans sameKid, oldActive⟩

theorem Single.fewer {next : List SigningKey} (single : Single store) (fewer : Fewer next store) :
    Single next := by
  grind [Single, Fewer]

variable {rs : List SigningKey}

theorem activeKids_length_le (unique : UniqueKey SigningKey.kid rs) (single : Single rs) :
    (activeKids rs).length ≤ 1 := by
  have ne : (activeKids rs).Nodup := uniqueKey_filter unique _
  have sameKid : ∀ kid ∈ activeKids rs, ∀ other ∈ activeKids rs, kid = other := by
    intro kid mem other otherMem
    obtain ⟨row, kept, rfl⟩ := List.mem_map.mp mem
    obtain ⟨otherRow, otherKept, rfl⟩ := List.mem_map.mp otherMem
    obtain ⟨rowMem, active⟩ := List.mem_filter.mp kept
    obtain ⟨otherRowMember, otherActive⟩ := List.mem_filter.mp otherKept
    exact single row rowMem otherRow otherRowMember (of_decide_eq_true active)
      (of_decide_eq_true otherActive)
  match kids : activeKids rs with
  | [] => exact Nat.zero_le 1
  | [_] => exact Nat.le_refl 1
  | first :: second :: rest =>
    rw [kids] at ne sameKid
    have same := sameKid first (by simp) second (by simp)
    simp [same] at ne

theorem single_of_length_le (short : (activeKids rs).length ≤ 1) : Single rs := by
  intro row mem other otherMem active otherActive
  have listed : ∀ row ∈ rs, row.state = .active → row.kid ∈ activeKids rs := fun row mem active =>
    List.mem_map_of_mem (List.mem_filter.mpr ⟨mem, decide_eq_true active⟩)
  match kids : activeKids rs with
  | [] =>
    have none := listed row mem active
    rw [kids] at none
    cases none
  | [kid] =>
    have first := listed row mem active
    have second := listed other otherMem otherActive
    rw [kids, List.mem_singleton] at first second
    exact first.trans second.symm
  | first :: second :: rest =>
    rw [kids] at short
    simp at short

theorem activeKids_eq_singleton (unique : UniqueKey SigningKey.kid rs) (single : Single rs)
    {row : SigningKey} (mem : row ∈ rs) (active : row.state = .active) :
    activeKids rs = [row.kid] := by
  have listed : row.kid ∈ activeKids rs :=
    List.mem_map_of_mem (List.mem_filter.mpr ⟨mem, decide_eq_true active⟩)
  have short := activeKids_length_le unique single
  match kids : activeKids rs with
  | [] =>
    rw [kids] at listed
    cases listed
  | [kid] =>
    rw [kids, List.mem_singleton] at listed
    rw [listed]
  | first :: second :: rest =>
    rw [kids] at short
    simp at short

/-! ### The operations on the table -/

section

variable {now : Int} {ks : Keys}

variable {kid : KeyID}

theorem setState_fewer {st : KeyState} (notActive : st ≠ .active) :
    Fewer (ks.setState now kid st).store ks.store := by
  intro row mem active
  obtain ⟨old, oldMem, ⟨-, rfl⟩ | ⟨-, rfl⟩⟩ := of_mem_updateWhere mem
  · exact absurd active notActive
  · exact ⟨row, oldMem, rfl, active⟩

theorem retireActive_fewer (fs : Faults) (snap : List RingKey) (ks : Keys) :
    Fewer (retireActive fs now snap ks).1.store ks.store := by
  induction snap generalizing ks with
  | nil => exact Fewer.refl _
  | cons old rest ih =>
    simp only [retireActive]
    split_ifs
    · exact Fewer.refl _
    · exact (ih _).trans (setState_fewer (by decide))
    · exact ih ks

theorem sweepKeys_fewer (fs : Faults) (cfg : Config) (snap : List RingKey)
    (ks : Keys) : Fewer (sweepKeys fs cfg now snap ks).1.store ks.store := by
  induction snap generalizing ks with
  | nil => exact Fewer.refl _
  | cons visited rest ih =>
    simp only [sweepKeys]
    split
    · exact ih ks
    · split_ifs
      · exact Fewer.refl _
      · exact (ih _).trans (setState_fewer (by decide))
      · exact ih ks
    · split_ifs
      · exact Fewer.refl _
      · refine (ih _).trans ?_
        intro row mem active
        exact ⟨row, List.mem_of_mem_filter mem, rfl, active⟩
      · exact ih ks

theorem not_otherActive (alone : otherActive kid store = false) :
    ∀ row ∈ store, row.state = .active → row.kid = kid := by
  intro row mem active
  by_contra differs
  have found : otherActive kid store = true :=
    List.any_eq_true.mpr ⟨row, mem, by simp [active, differs]⟩
  rw [alone] at found
  cases found

/-- What the index allows keeps the active rows under one id. -/
theorem Single.activate (single : Single ks.store)
    (allowed : activateRefused kid ks.store = false) :
    Single (ks.setState now kid .active).store := by
  by_cases known : (ks.store.any fun key => key.kid == kid) = true
  · have alone : otherActive kid ks.store = false := by
      simpa [activateRefused, known] using allowed
    have isKid : ∀ row ∈ (ks.setState now kid .active).store, row.state = .active →
        row.kid = kid := by
      intro row mem active
      obtain ⟨old, oldMem, ⟨matched, rfl⟩ | ⟨-, rfl⟩⟩ := of_mem_updateWhere mem
      · exact beq_iff_eq.mp matched
      · exact not_otherActive alone row oldMem active
    intro row mem other otherMem active otherActive
    rw [isKid row mem active, isKid other otherMem otherActive]
  · apply single.fewer
    intro row mem active
    obtain ⟨old, oldMem, ⟨matched, rfl⟩ | ⟨-, rfl⟩⟩ := of_mem_updateWhere mem
    · exact absurd (List.any_eq_true.mpr ⟨old, oldMem, matched⟩) known
    · exact ⟨row, oldMem, rfl, active⟩

theorem putBack_single (fs : Faults) {retired : List KeyID} {ks : Keys}
    (single : Single ks.store) : Single (putBack fs now retired ks).store := by
  induction retired generalizing ks with
  | nil => exact single
  | cons kid rest ih =>
    simp only [putBack]
    split_ifs with refused
    · exact ih single
    · have allowed : activateRefused kid ks.store = false := by
        simp only [Bool.or_eq_true, not_or, Bool.not_eq_true] at refused
        exact refused.2
      exact ih (single.activate allowed)

theorem Single.insert (allowed : insertRefused kid ks.store = false) (pk : PublicKey)
    (opened : Bool) : Single (ks.insert (newKey now kid pk) opened).store := by
  have isKid : ∀ row ∈ (ks.insert (newKey now kid pk) opened).store,
      row.state = .active → row.kid = kid := by
    intro row mem active
    rcases List.mem_append.mp mem with old | new
    · exact not_otherActive allowed row old active
    · rw [List.mem_singleton.mp new]
      rfl
  intro row mem other otherMem active otherActive
  rw [isKid row mem active, isKid other otherMem otherActive]

theorem Single.rotate (single : Single ks.store) (fs : Faults) (kid : KeyID)
    (pk : PublicKey) : Single (ks.rotate fs now kid pk).1.store := by
  have retired := single.fewer (@retireActive_fewer now fs ks.ring ks)
  simp only [Keys.rotate]
  split_ifs with _ _ refused
  · exact single
  · exact retired
  · exact putBack_single fs retired
  · simp only [Bool.or_eq_true, not_or, Bool.not_eq_true] at refused
    exact Single.insert refused.2 pk _

theorem Single.sweep (single : Single ks.store) (fs : Faults) (cfg : Config)
    (kid : KeyID) (pk : PublicKey) :
    Single (ks.sweep fs cfg now kid pk).1.store := by
  have swept := single.fewer (@sweepKeys_fewer now fs cfg ks.ring ks)
  simp only [Keys.sweep]
  split_ifs
  · exact swept
  · refine @Single.rotate now _ ?_ fs kid pk
    exact swept
  · exact swept

theorem Single.load (single : Single ks.store) (fs : Faults) (kid : KeyID)
    (pk : PublicKey) : Single (ks.load fs now kid pk).1.store := by
  simp only [Keys.load]
  split_ifs
  · exact single
  · exact single
  · exact single
  · exact @Single.rotate now { ks with ring := ks.store.map loaded } single fs kid pk

/-! ### The ring keeps an active key -/

variable {cfg : Config} {tokens : List SignedToken}

theorem Sound.active_unique (sound : Sound cfg tokens now ks) (single : Single ks.store)
    {key other : RingKey} (mem : key ∈ ks.ring) (otherMem : other ∈ ks.ring)
    (active : key.state = .active) (otherActive : other.state = .active) : other = key := by
  grind [backed, eq_of_uniqueKey, uniqueRing, Single]

theorem Sound.oneActive (sound : Sound cfg tokens now ks) (single : Single ks.store)
    (isLoaded : Loaded ks) : OneActive ks := by
  obtain ⟨key, mem, active⟩ := isLoaded
  obtain ⟨row, rowMem, isKid, -, rowActive⟩ := sound.backed key mem active
  have uniqueRows : UniqueKey SigningKey.kid (ks.ring.map RingKey.toSigningKey) := by
    unfold UniqueKey
    rw [List.map_map]
    exact sound.uniqueRing
  have singleRing : Single (ks.ring.map RingKey.toSigningKey) := by
    intro first firstMem second secondMember firstActive secondActive
    obtain ⟨firstKey, firstKeyMember, rfl⟩ := List.mem_map.mp firstMem
    obtain ⟨secondKey, secondKeyMember, rfl⟩ := List.mem_map.mp secondMember
    rw [sound.active_unique single secondKeyMember firstKeyMember secondActive firstActive]
  refine ⟨key.kid, ?_, ?_⟩
  · exact activeKids_eq_singleton uniqueRows singleRing (List.mem_map_of_mem mem) active
  · rw [← isKid]
    exact activeKids_eq_singleton sound.uniqueStore single rowMem rowActive

theorem retireActive_of_idle (fs : Faults) {snap : List RingKey}
    (idle : ∀ key ∈ snap, key.state ≠ .active) {ks : Keys} :
    retireActive fs now snap ks = (ks, [], true) := by
  induction snap with
  | nil => rfl
  | cons key rest ih =>
    rw [retireActive, if_neg (idle key List.mem_cons_self)]
    exact ih fun later mem => idle later (List.mem_cons_of_mem _ mem)

theorem retireActive_of_unique (fs : Faults) {snap : List RingKey} {key : RingKey}
    (unique : UniqueKey (fun key : RingKey => key.kid) snap) (mem : key ∈ snap)
    (active : key.state = .active)
    (alone : ∀ other ∈ snap, other.state = .active → other = key) (ks : Keys) :
    retireActive fs now snap ks = if fs (.setState key.kid .retiring) then (ks, [], false)
      else (ks.setState now key.kid .retiring, [key.kid], true) := by
  induction snap with
  | nil => cases mem
  | cons first rest ih =>
    obtain ⟨fresh, uniqueRest⟩ := List.nodup_cons.mp unique
    by_cases isFirst : first = key
    · have idle : ∀ other ∈ rest, other.state ≠ .active := by
        intro other otherMem otherActive
        have same := alone other (List.mem_cons_of_mem _ otherMem) otherActive
        rw [isFirst] at fresh
        exact fresh (List.mem_map.mpr ⟨other, otherMem, congrArg (fun key => key.kid) same⟩)
      rw [retireActive, isFirst, if_pos active, retireActive_of_idle fs idle]
    · have notActive : first.state ≠ .active := fun firstActive =>
        isFirst (alone first List.mem_cons_self firstActive)
      have inRest : key ∈ rest := by
        rcases List.mem_cons.mp mem with same | inRest
        · exact absurd same.symm isFirst
        · exact inRest
      rw [retireActive, if_neg notActive]
      exact ih uniqueRest inRest fun other otherMem =>
        alone other (List.mem_cons_of_mem _ otherMem)

/-- The ring has an active key after a rotation that restores what it cannot replace. -/
theorem Sound.rotate_loaded (sound : Sound cfg tokens now ks) (single : Single ks.store)
    (isLoaded : Loaded ks) {fs : Faults} (restores : ks.Restores fs now) (kid : KeyID)
    (pk : PublicKey) : Loaded (ks.rotate fs now kid pk).1 := by
  obtain ⟨key, mem, active⟩ := isLoaded
  obtain ⟨row, rowMem, isKid, -, rowActive⟩ := sound.backed key mem active
  have retires := @retireActive_of_unique now fs ks.ring key sound.uniqueRing mem active
    (fun other otherMem => sound.active_unique single mem otherMem active) ks
  -- Once the key is retired no row is active, and the index refuses nothing.
  have none : ∀ row ∈ (ks.setState now key.kid .retiring).store, row.state ≠ .active := by
    intro later laterMem laterActive
    obtain ⟨old, oldMem, ⟨-, rfl⟩ | ⟨unmatched, rfl⟩⟩ := of_mem_updateWhere laterMem
    · cases laterActive
    · grind [Single]
  have allowed : ∀ kid, otherActive kid (ks.setState now key.kid .retiring).store = false := by
    intro kid
    simp only [otherActive, List.any_eq_false, Bool.and_eq_true, decide_eq_true_eq, not_and]
    exact fun row mem isActive => absurd isActive (none row mem)
  simp only [Keys.rotate, retires]
  by_cases generateFails : fs .generate = true
  · rw [if_pos generateFails]
    exact ⟨key, mem, active⟩
  rw [if_neg generateFails]
  by_cases retireFails : fs (.setState key.kid .retiring) = true
  · simp only [retireFails, if_true, Bool.not_false]
    exact ⟨key, mem, active⟩
  simp only [retireFails, if_false, Bool.not_true, Bool.false_eq_true, insertRefused, allowed,
    Bool.or_false]
  by_cases insertFails : fs .insert = true
  · have putsBack : fs (.setState key.kid .active) = false :=
      restores (Bool.eq_false_iff.mpr generateFails) (by rw [retires, if_neg retireFails])
        insertFails key.kid (by rw [retires, if_neg retireFails]; exact List.mem_singleton_self _)
    simp only [insertFails, if_true, putBack, putsBack, activateRefused, allowed,
      Bool.and_false, Bool.or_false, Bool.false_eq_true, if_false]
    refine ⟨_, mem_updateWhere.mpr ⟨_, mem_updateWhere.mpr ⟨key, mem, rfl⟩, rfl⟩, ?_⟩
    simp
  · simp only [insertFails, Bool.false_eq_true, if_false]
    exact ⟨_, List.mem_append_right _ (List.mem_singleton.mpr rfl), rfl⟩

/-- The loop of a sweep leaves the active key and does not drop it. -/
theorem sweepKeys_active (fs : Faults) (cfg : Config) {snap : List RingKey} {ks : Keys}
    {key : RingKey} (mem : key ∈ ks.ring)
    (isActive : ∀ visited ∈ snap, visited.kid = key.kid → visited.state = .active) :
    key ∈ (sweepKeys fs cfg now snap ks).1.ring ∧ key.kid ∉ (sweepKeys fs cfg now snap ks).2.1 := by
  induction snap generalizing ks with
  | nil => exact ⟨mem, List.not_mem_nil⟩
  | cons visited rest ih =>
    have activeRest : ∀ later ∈ rest, later.kid = key.kid → later.state = .active :=
      fun later laterMem => isActive later (List.mem_cons_of_mem _ laterMem)
    have differs : visited.state ≠ .active → key.kid ≠ visited.kid := fun notActive same =>
      notActive (isActive visited List.mem_cons_self same.symm)
    grind [mem_setState_ring, sweepKeys]

theorem Sound.sweep_loaded (sound : Sound cfg tokens now ks) (single : Single ks.store)
    (positive : 0 < cfg.retiringPeriod) (isLoaded : Loaded ks) {fs : Faults}
    (restores : Restores ⟨now, cfg, ks, tokens⟩ (.sweep fs kid pk)) :
    Loaded (ks.sweep fs cfg now kid pk).1 := by
  obtain ⟨key, mem, active⟩ := isLoaded
  obtain ⟨kept, spared⟩ := @sweepKeys_active now fs cfg ks.ring ks key mem (by
    grind [eq_of_uniqueKey, uniqueRing])
  obtain ⟨swept, removed⟩ :=
    sweepKeys_sound fs positive sound (fun _ mem => mem) sound.uniqueRing
  have sweptSingle := single.fewer (@sweepKeys_fewer now fs cfg ks.ring ks)
  have stillLoaded : Loaded
      { (sweepKeys fs cfg now ks.ring ks).1 with
        ring := (sweepKeys fs cfg now ks.ring ks).1.ring.filter fun key =>
          key.kid ∉ (sweepKeys fs cfg now ks.ring ks).2.1 } :=
    ⟨key, List.mem_filter.mpr ⟨kept, decide_eq_true spared⟩, active⟩
  simp only [Keys.sweep]
  split_ifs with stops rotates
  · exact ⟨key, kept, active⟩
  · exact (swept.drop removed).rotate_loaded sweptSingle stillLoaded
      (restores (by simpa using stops) rotates) kid pk
  · exact stillLoaded

theorem Sound.load_loaded (sound : Sound cfg tokens now ks) (isLoaded : Loaded ks)
    (fs : Faults) (kid : KeyID) (pk : PublicKey) :
    Loaded (ks.load fs now kid pk).1 := by
  obtain ⟨key, mem, active⟩ := isLoaded
  obtain ⟨row, rowMem, -, -, rowActive⟩ := sound.backed key mem active
  have hasActive : (ks.store.any fun key => decide (key.state = .active)) = true :=
    List.any_eq_true.mpr ⟨row, rowMem, decide_eq_true rowActive⟩
  simp only [Keys.load, hasActive, if_true]
  split_ifs
  · exact ⟨key, mem, active⟩
  · exact ⟨key, mem, active⟩
  · exact ⟨loaded row, List.mem_map_of_mem rowMem, rowActive⟩

end

/-! ### Every schedule -/

theorem step_preserves_single (st : State) (move : Move) (next : State)
    (single : Single st.keys.store) (taken : step st move = some next) :
    Single next.keys.store := by
  cases move with
  | load fs kid pk =>
    grind [Single.load, step]
  | rotate fs kid pk =>
    grind [Single.rotate, step]
  | sweep fs kid pk =>
    grind [Single.sweep, step]
  | shuffle order =>
    grind [step]
  | issue req =>
    cases taken
    grind [State.sign, issue]
  | enroll tid spiffePaths ttl =>
    cases taken
    cases issueEnrollment st.keys st.now tid spiffePaths ttl <;> exact single
  | advance elapsed =>
    cases taken
    exact single

theorem step_preserves_loaded {st : State} {move : Move} {next : State} (normal : st.config.Normal)
    (sound : Sound st.config st.tokens st.now st.keys)
    (single : Single st.keys.store) (isLoaded : Loaded st.keys) (restores : Restores st move)
    (taken : step st move = some next) : Loaded next.keys := by
  cases move with
  | load fs kid pk =>
    grind [Sound.load_loaded, step]
  | rotate fs kid pk =>
    grind [Sound.rotate_loaded, Restores, step]
  | sweep fs kid pk =>
    simp only [step] at taken
    split_ifs at taken
    cases taken
    exact sound.sweep_loaded single normal.retiring isLoaded restores
  | shuffle order =>
    simp only [step] at taken
    split_ifs at taken with same
    cases taken
    obtain ⟨key, mem, active⟩ := isLoaded
    exact ⟨key, same.mem_iff.mpr mem, active⟩
  | issue req =>
    cases taken
    grind [State.sign, issue]
  | enroll tid spiffePaths ttl =>
    cases taken
    cases issueEnrollment st.keys st.now tid spiffePaths ttl <;> exact isLoaded
  | advance elapsed =>
    cases taken
    exact isLoaded

/-- What holds of ring and table in every run. -/
structure Kept (st : State) : Prop where
  normal : st.config.Normal
  sound : Sound st.config st.tokens st.now st.keys
  single : Single st.keys.store

theorem step_preserves_kept (st : State) (move : Move) (next : State) (kept : Kept st)
    (taken : step st move = some next) : Kept next := by
  obtain ⟨normal, sound⟩ := step_preserves_sound st move next ⟨kept.normal, kept.sound⟩ taken
  exact ⟨normal, sound, step_preserves_single st move next kept.single taken⟩

theorem kept_initial (now : Int) (cfg : Config) (unique : UniqueKey SigningKey.kid store)
    (single : (activeKids store).length ≤ 1) : Kept (initial now cfg store) where
  normal := cfg.normalize_normal
  sound := ⟨unique, List.nodup_nil, fun _ mem => (nomatch mem), fun _ mem => (nomatch mem)⟩
  single := single_of_length_le single

/-- Whatever fails, the table never has two active keys; and a ring that had an active key has it
or its successor, and the table the same one, after the next sweep whose store calls succeed, if
no rotation since then failed both to insert a key and to put its predecessor back. -/
theorem sweep_leaves_one_active (now : Int) (cfg : Config) (store : List SigningKey)
    (unique : UniqueKey SigningKey.kid store) (single : (activeKids store).length ≤ 1) :
    (∀ moves fin, run step (initial now cfg store) moves = some fin →
      (activeKids fin.keys.store).length ≤ 1)
    ∧ ∀ pre middle post fin, run step (initial now cfg store) pre = some middle →
        Loaded middle.keys → run step middle post = some fin →
        EveryStep step Restores middle post →
        ∀ (fs : Faults) kid pk next, fs.spareStore →
          step fin (.sweep fs kid pk) = some next → OneActive next.keys := by
  have init := kept_initial now cfg unique single
  constructor
  · intro moves fin reaches
    have kept := run_preserves_always step_preserves_kept init reaches
    exact activeKids_length_le kept.sound.uniqueStore kept.single
  · intro pre middle post fin reaches isLoaded continues restores fs kid pk next
      clean swept
    have stepPreserves : ∀ st move next, Kept st ∧ Loaded st.keys → Restores st move →
        step st move = some next → Kept next ∧ Loaded next.keys := by
      rintro st move next ⟨kept, isLoaded⟩ restores taken
      exact ⟨step_preserves_kept st move next kept taken,
        step_preserves_loaded kept.normal kept.sound kept.single isLoaded restores taken⟩
    have atMiddle := run_preserves_always step_preserves_kept init reaches
    have atFinal := run_preserves stepPreserves ⟨atMiddle, isLoaded⟩
      restores continues
    have sweepRestores : Restores fin (.sweep fs kid pk) := by
      intro _ _ _ _ insertFails
      rw [clean .insert rfl] at insertFails
      cases insertFails
    obtain ⟨kept, stillLoaded⟩ := stepPreserves fin _ next atFinal sweepRestores swept
    exact kept.sound.oneActive kept.single stillLoaded

namespace Sample

/-- The store refuses new keys. -/
def insertFails : Faults := fun c => decide (c = .insert)

/-- The store refuses every change but the retirement of a key. -/
def onlyRetires : Faults
  | .insert => true
  | .setState _ .active => true
  | _ => false

def loadedState : State :=
  { initial 0 defaults [] with keys := ((initial 0 defaults []).keys.load noFaults 0 1 11).1 }

end Sample

open Sample in
theorem failed_rotation_is_repaired :
    ∃ fin next, run step loadedState [.rotate insertFails 2 22] = some fin
      ∧ step fin (.sweep noFaults 3 33) = some next ∧ OneActive next.keys := by
  refine ⟨_, _, rfl, rfl, ?_⟩
  refine (sweep_leaves_one_active 0 defaults [] List.nodup_nil (by decide)).2
    [.load noFaults 1 11] loadedState [.rotate insertFails 2 22] _ rfl ?_ rfl ?_ noFaults 3 33 _
    (fun _ _ => rfl) rfl
  · exact ⟨_, List.mem_singleton.mpr rfl, rfl⟩
  · exact ⟨fun _ _ _ _ _ => rfl, fun _ _ => True.intro⟩

open Sample in
/-- A rotation retires the key, fails to insert its successor and fails to put the key back. No
key is active then, and a sweep rotates only for an active key. -/
theorem sweep_leaves_no_active_key :
    ∃ fin next, run step (initial 0 defaults []) [.load noFaults 1 11] = some loadedState
      ∧ Loaded loadedState.keys
      ∧ run step loadedState [.rotate onlyRetires 2 22] = some fin
      ∧ noFaults.spareStore
      ∧ step fin (.sweep noFaults 3 33) = some next
      ∧ activeKids next.keys.store = [] ∧ ¬OneActive next.keys := by
  refine ⟨_, _, rfl, ⟨_, List.mem_singleton.mpr rfl, rfl⟩, rfl, fun _ _ => rfl, rfl, rfl, ?_⟩
  rintro ⟨kid, -, inStore⟩
  cases inStore

end TangraAuth.Token
