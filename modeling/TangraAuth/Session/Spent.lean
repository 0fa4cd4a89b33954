import TangraAuth.Session.Revocation

/-!
Contract: secrets that no resolution turns into an actor any more.

Owns: `Spent`, which a hash is when its rows are revoked and its cached entry is
usable at no later instant; that every operation keeps it, whatever fails; and
that a spent secret resolves in no later state of any run.

Does not own: the ways a secret becomes spent.
-/

namespace TangraAuth.Session

open Library Store

variable {H : Type}

/-- The cached entry would yield an actor if it were presented at `ins`. -/
def UsableAt (st : State H) (ins : Int) (e : Entry View) : Prop :=
  e.live ins = true ∧ Usable { st with now := ins } e.value

theorem usableAt_congr {st other : State H} (sameMarks : st.marks = other.marks)
    (ins : Int) (e : Entry View) :
    UsableAt st ins e ↔ UsableAt other ins e := by
  have sameRevoked : State.revoked { st with now := ins } e.value
      = State.revoked { other with now := ins } e.value := by
    unfold State.revoked
    rw [sameMarks]
  constructor
  · rintro ⟨alive, inGrace, unexpired, active, unmarked⟩
    exact ⟨alive, inGrace, unexpired, active, sameRevoked.symm.trans unmarked⟩
  · rintro ⟨alive, inGrace, unexpired, active, unmarked⟩
    exact ⟨alive, inGrace, unexpired, active, sameRevoked.trans unmarked⟩

structure Spent (st : State H) (hash : H) : Prop where
  rows : ∀ row ∈ st.sessions, row.secretHash = hash → row.revokedAt.isSome
  views : ∀ e, st.views hash = some e → ∀ ins, st.now ≤ ins → ¬ UsableAt st ins e

/-- From one state to the next the hash gains neither a live row nor an entry, and no view
loses a mark before the mark's own expiry. -/
structure Recedes (hash : H) (st next : State H) : Prop where
  now : st.now ≤ next.now
  rows : ∀ row ∈ next.sessions, row.secretHash = hash →
    ∃ old ∈ st.sessions, old.secretHash = hash ∧ (old.revokedAt.isSome → row.revokedAt.isSome)
  views : ∀ e, next.views hash = some e → st.views hash = some e
  marks : ∀ ins, next.now ≤ ins → ∀ v, State.revoked { st with now := ins } v = true →
    State.revoked { next with now := ins } v = true

theorem Recedes.refl (hash : H) (st : State H) : Recedes hash st st where
  now := le_refl _
  rows := fun row mem isHash => ⟨row, mem, isHash, fun revoked => revoked⟩
  views := fun _ stored => stored
  marks := fun _ _ _ marked => marked

theorem Recedes.trans {hash : H} {first second third : State H}
    (left : Recedes hash first second) (right : Recedes hash second third) :
    Recedes hash first third where
  now := le_trans left.now right.now
  rows := by
    intro row mem isHash
    obtain ⟨middle, middleMem, middleHash, stays⟩ := right.rows row mem isHash
    obtain ⟨old, oldMem, oldHash, stayed⟩ := left.rows middle middleMem middleHash
    grind
  views := fun e stored => left.views e (right.views e stored)
  marks := by
    intro ins later v marked
    exact right.marks ins later v (left.marks ins (le_trans right.now later) v marked)

variable {st next : State H}

theorem Spent.recede {hash : H} (spent : Spent st hash) (recedes : Recedes hash st next) :
    Spent next hash where
  rows := by
    intro row mem isHash
    obtain ⟨old, oldMem, oldHash, stays⟩ := recedes.rows row mem isHash
    exact stays (spent.rows old oldMem oldHash)
  views := by
    intro e stored ins later usable
    obtain ⟨alive, inGrace, unexpired, active, unmarked⟩ := usable
    apply spent.views e (recedes.views e stored) ins (le_trans recedes.now later)
    refine ⟨alive, inGrace, unexpired, active, ?_⟩
    rw [← Bool.not_eq_true] at unmarked ⊢
    grind [Recedes.marks]

/-! ### Marks -/

theorem revoked_iff {v : View} : st.revoked v = true ↔
      ∃ subj markedAt, st.marks.get st.now subj = some markedAt ∧ Covers v markedAt subj := by
  constructor
  · intro marked
    unfold State.revoked at marked
    simp only [List.any_cons, List.any_nil, Bool.or_false, Bool.or_eq_true] at marked
    rcases marked with sess | u | tn
    · obtain ⟨markedAt, read⟩ := Option.isSome_iff_exists.mp sess
      exact ⟨.session v.id, markedAt, read, rfl⟩
    · cases read : st.marks.get st.now (.user v.userID) with
      | none => simp [read] at u
      | some markedAt =>
        simp only [read, decide_eq_true_eq] at u
        exact ⟨.user v.userID, markedAt, read, rfl, u⟩
    · cases read : st.marks.get st.now (.tenant v.tenantID) with
      | none => simp [read] at tn
      | some markedAt =>
        simp only [read, decide_eq_true_eq] at tn
        exact ⟨.tenant v.tenantID, markedAt, read, rfl, tn⟩
  grind [revoked_of_mark]

/-- A new mark replaces at most one of its subject, which it outlives. -/
theorem Ledger.revoked_setMark {ht : Secret → H} (lg : Ledger ht st)
    {subj : Subject} {markedAt : Int}
    (wider : ∀ mark v, st.marks subj = some mark → Covers v mark.value subj →
      Covers v markedAt subj) {ins : Int} {v : View}
    (marked : State.revoked { st with now := ins } v = true) :
    State.revoked { st.setMark subj markedAt with now := ins } v = true := by
  obtain ⟨held, heldAt, read, covers⟩ := revoked_iff.mp marked
  by_cases same : held = subj
  · subst same
    obtain ⟨mark, stored, alive, rfl⟩ := (ExpiringMap.get_eq_some_iff _ _ _ _).mp read
    obtain ⟨-, deadline, exp, -, within⟩ := lg.marks held mark stored
    refine revoked_iff.mpr ⟨held, markedAt, ?_, wider mark v stored covers⟩
    refine (ExpiringMap.get_eq_some_iff _ _ _ _).mpr
      ⟨_, setMark_marks_self st held markedAt, ?_, rfl⟩
    simp only [Entry.live, exp, decide_eq_true_eq] at alive ⊢
    omega
  · refine revoked_iff.mpr ⟨held, heldAt, ?_, covers⟩
    rw [← read]
    exact ExpiringMap.get_set_of_ne _ _ _ same _ _

/-! ### Writes -/

variable [DecidableEq H] {ht : Secret → H} {cacheable : H → Prop}

theorem Write.issued_subset (write : Write ht cacheable st next) : st.issued ⊆ next.issued := by
  cases write with
  | insert row sec isHash freshID freshSecret | rotate row next exp freshSecret =>
    exact List.subset_append_left _ _
  | _ => exact List.Subset.refl _

variable {held : Secret} {id : SessionID}

/-- A write recedes from every issued hash it does not cache a view under. -/
theorem Write.recedes (lg : Ledger ht st) (issued : (held, id) ∈ st.issued)
    (notCached : ¬ cacheable (ht held)) (write : Write ht cacheable st next) :
    Recedes (ht held) st next := by
  have same := Recedes.refl (ht held) st
  cases write with
  | evict hash => exact { same with views := fun _ stored => evictView_apply stored }
  | cache hash v allowed =>
    refine { same with views := ?_ }
    intro e stored
    rcases putView_apply stored with ⟨isHash, -⟩ | kept
    · exact absurd (isHash ▸ allowed) notCached
    · exact kept
  | append revocation => exact { same with }
  | mark subj =>
    refine { same with marks := fun _ _ _ marked => lg.revoked_setMark ?_ marked }
    intro mark v stored covers
    exact covers.mono (lg.marks subj mark stored).1
  | markSession id markedAt dated =>
    exact { same with
      marks := fun _ _ _ marked => lg.revoked_setMark (fun _ _ _ covers => covers) marked }
  | revoke sel why =>
    refine { same with rows := ?_ }
    grind [revokeWhere]
  | touch tid id =>
    refine { same with rows := ?_ }
    grind [touchSession]
  | insert new sec newHash freshID freshSecret =>
    refine { same with rows := ?_ }
    intro row mem isHash
    rcases List.mem_append.mp mem with old | added
    · exact ⟨row, old, isHash, fun revoked => revoked⟩
    · cases List.mem_singleton.mp added
      exact absurd (isHash.symm.trans newHash)
        ((freshSecret_eq_true freshSecret).2 (held, id) issued)
  | rotate rotatedRow next exp freshSecret =>
    refine { same with rows := ?_ }
    intro row mem isHash
    obtain ⟨old, oldMem, -, -, -, -, sameRevoked, ⟨-, -, -, newHash, -⟩ | rfl⟩ :=
      of_mem_renewed mem
    · exact absurd (isHash.symm.trans newHash)
        ((freshSecret_eq_true freshSecret).2 (held, id) issued)
    · exact ⟨row, oldMem, isHash, fun revoked => revoked⟩
  | directory status roles users versions => exact { same with }
  | advance elapsed =>
    refine { same with now := ?_, marks := fun _ _ _ marked => marked }
    show st.now ≤ st.now + elapsed
    omega

theorem Writes.recedes (lg : Ledger ht st) (issued : (held, id) ∈ st.issued)
    (notCached : ¬ cacheable (ht held)) (writes : Writes ht cacheable st next) :
    Recedes (ht held) st next ∧ (held, id) ∈ next.issued := by
  induction writes with
  | refl => exact ⟨Recedes.refl _ _, issued⟩
  | tail earlier write ih =>
    obtain ⟨recedes, stillIssued⟩ := ih
    exact ⟨recedes.trans (write.recedes (lg.writes earlier) stillIssued notCached),
      write.issued_subset stillIssued⟩

/-! ### Resolution -/

theorem Spent.never_resolves {sec : Secret} (spent : Spent st (ht sec))
    (fs : Faults) (a : Actor) : (st.resolve ht fs sec).2 ≠ .ok a := by
  intro resolved
  rcases resolve_cases fs st sec with ⟨failure, out⟩ | out | ⟨v, cached, inGrace, out⟩
      | ⟨row, v, -, found, built, out⟩
  · rw [out] at resolved
    cases resolved
  · rw [out] at resolved
    cases resolved
  · rw [out] at resolved
    obtain ⟨-, unexpired, active, unmarked⟩ := admitView_eq_ok resolved
    have same := refreshIfStale_same fs st v
    rw [same.expiresAt] at unexpired
    rw [same.lastSeen, same.idle] at active
    rw [revoked_congr same] at unmarked
    obtain ⟨e, stored, alive, rfl⟩ := (ExpiringMap.get_eq_some_iff _ _ _ _).mp cached
    exact spent.views e stored st.now (le_refl _) ⟨alive, inGrace, unexpired, active, unmarked⟩
  · obtain ⟨mem, isHash⟩ := getSessionByHash_eq_some found
    have revoked := spent.rows row mem isHash
    rw [(viewOfRow_eq_ok built).1] at revoked
    cases revoked

/-- No operation caches a view under a spent hash. -/
theorem Spent.not_caches (lg : Ledger ht st) (issued : (held, id) ∈ st.issued)
    (spent : Spent st (ht held)) {op : Operation}
    (taken : step ht st op = some next) :
    ¬ op.Caches ht st (ht held) := by
  intro caches
  cases op with
  | create fs tid uid roles amr nid sec =>
    simp only [step] at taken
    split_ifs at taken with fresh
    rw [Bool.and_eq_true] at fresh
    exact (freshSecret_eq_true fresh.2).2 (held, id) issued caches
  | resolve fs sec =>
    grind [never_resolves, Operation.Caches]
  | renew resolving fs sec next =>
    simp only [step] at taken
    split_ifs at taken with fresh
    obtain ⟨⟨a, resolved⟩, isHash | isHash | ⟨row, mem, isHash, unrevoked⟩⟩ := caches
    · grind [never_resolves]
    · exact (freshSecret_eq_true fresh).2 (held, id) issued isHash
    · -- The resolution before the rotation leaves the hash spent, or caches under it.
      by_cases presented : ht held = ht sec
      · grind [never_resolves]
      · have recedes := (resolve_writes resolving st sec).recedes lg issued
          fun allowed => presented allowed.1
        have revoked := (spent.recede recedes.1).rows row mem isHash
        rw [unrevoked] at revoked
        cases revoked
  | byID | revoke | revokeUser | revokeTenant | refreshUser | directory | advance =>
    exact caches

/-! ### Runs -/

/-- Along every run a spent secret stays spent. -/
theorem run_preserves_spent {fin : State H} {operations : List Operation}
    (lg : Ledger ht st) (issued : (held, id) ∈ st.issued)
    (spent : Spent st (ht held))
    (reaches : run (step ht) st operations = some fin) :
    Spent fin (ht held) := by
  induction operations generalizing st with
  | nil =>
    cases reaches
    exact spent
  | cons op rest ih =>
    obtain ⟨next, taken, continues⟩ := run_cons_eq_some.mp reaches
    have writes := step_writes taken
    grind [Writes.recedes, Spent.not_caches, Ledger.writes, Spent.recede]

/-- Of a secret whose rows are revoked: no later resolution succeeds exactly when its cached
entry is usable at no later instant. -/
theorem never_resolves_again_iff (lg : Ledger ht st) {sec : Secret} (issued : (sec, id) ∈ st.issued)
    (rs : ∀ row ∈ st.sessions, row.secretHash = ht sec → row.revokedAt.isSome) :
    (∀ operations fin, run (step ht) st operations = some fin →
        ∀ fs a, (fin.resolve ht fs sec).2 ≠ .ok a) ↔
      ∀ e, st.views (ht sec) = some e → ∀ ins, st.now ≤ ins → ¬ UsableAt st ins e := by
  constructor
  · intro never e stored ins later usable
    obtain ⟨elapsed, isElapsed⟩ := Int.eq_ofNat_of_zero_le (Int.sub_nonneg_of_le later)
    have isInstant : st.now + elapsed = ins := by omega
    obtain ⟨alive, isUsable⟩ := usable
    rw [← isInstant] at alive isUsable
    have cached : State.getView { st with now := st.now + elapsed } (ht sec) = some e.value :=
      (ExpiringMap.get_eq_some_iff _ _ _ _).mpr ⟨e, stored, alive, rfl⟩
    obtain ⟨a, resolved⟩ :=
      (resolve_cached_iff (lg.nonempty _ issued) cached noFaults).mpr isUsable
    exact never [.advance elapsed] _ rfl noFaults a resolved
  · intro unusable operations fin reaches fs a
    have spent : Spent st (ht sec) := ⟨rs, unusable⟩
    exact (run_preserves_spent lg issued spent reaches).never_resolves fs a

end TangraAuth.Session
