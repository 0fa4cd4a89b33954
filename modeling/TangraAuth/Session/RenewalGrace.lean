import TangraAuth.Session.Renewals

/-!
Contract: which secrets resolve once the last renewal is past its grace.

Owns: what the cached views and the calls in flight say about the secret in the
session's row, its preservation by every access of a schedule without races, and
the two runs that tell a race from an orderly renewal.

Does not own: the accesses themselves.
-/

namespace TangraAuth.Session.Renewals

open Library Store
open TangraAuth.Session.Concurrent

variable {H : Type}

/-! ### The invariant -/

/-- The hash is the one in the session's row. -/
def Rowed (sess : State H) (hash : H) (id : SessionID) : Prop :=
  ∃ row ∈ sess.sessions, row.id = id ∧ row.secretHash = hash

/-- The hash is in the session's row, or owed a grace view. -/
def Current (sh : Shared H) (hash : H) (id : SessionID) : Prop :=
  Rowed sh.session hash id ∨ hash ∈ sh.rotation.getD []

/-- The hash is in the session's row, unless it was rotated out since the call began. -/
def Recent (sh : Shared H) (began : Int) (hash : H) (id : SessionID) : Prop :=
  Rowed sh.session hash id ∨ sh.rotation.isSome = true ∨ began ≤ sh.completedAt

/-- The grace ends at most `renewGrace` after the last renewal. -/
def Bounded (sh : Shared H) (deadline : Int) : Prop :=
  deadline ≤ sh.completedAt + renewGrace
    ∨ (sh.rotation.isSome = true ∧ deadline ≤ sh.session.now + renewGrace)

/-- What is cached, or in the hand of a call that may cache it, is of a current secret, or in its
grace. -/
structure Backed (ht : Secret → H) (sh : Shared H) (hash : H) (held : Carried) : Prop where
  issued : Issued ht sh.session hash held.id
  full : held.graceUntil = none → Current sh hash held.id
  grace : ∀ deadline, held.graceUntil = some deadline → Bounded sh deadline

structure SharedHolds (ht : Secret → H) (sh : Shared H) : Prop where
  past : sh.completedAt ≤ sh.session.now
  issuance : Issuance ht sh.session
  views : ∀ hash e, sh.session.views hash = some e → Backed ht sh hash (viewCarried e.value)

/-- What is left of it when the call has answered. -/
structure Answers (ht : Secret → H) (sh : Shared H) (began : Int) (hash : H) (held : Carried) :
    Prop where
  issued : Issued ht sh.session hash held.id
  full : held.graceUntil = none → Recent sh began hash held.id
  grace : ∀ deadline, held.graceUntil = some deadline → began < deadline ∧ Bounded sh deadline

structure ResolveHolds (ht : Secret → H) (sh : Shared H) (c : ResolveCall H) : Prop where
  began : c.now ≤ sh.session.now
  answers : ∀ held, c.point.carried = some held → Answers ht sh c.now (ht c.secret) held
  backed : ∀ held, c.point.carried = some held → c.point.inHand = true →
    Backed ht sh (ht c.secret) held

/-- The row a renewal has read is that of the secret it was called with. -/
structure OwnRow (ht : Secret → H) (sh : Shared H) (sec : Secret) (row : Store.Session H) :
    Prop where
  called : Issued ht sh.session (ht sec) row.id
  stored : Issued ht sh.session row.secretHash row.id

/-- A renewal between its rotation and its return. -/
structure Replacing (ht : Secret → H) (sh : Shared H) (next : Secret) (grace fresh : View)
    (todo : List H) : Prop where
  rotation : sh.rotation = some todo
  rowed : Rowed sh.session (ht next) fresh.id
  issued : Issued ht sh.session (ht next) fresh.id
  full : fresh.graceUntil = none
  old : ∀ hash ∈ todo, Issued ht sh.session hash grace.id
  deadline : ∃ deadline, grace.graceUntil = some deadline
    ∧ deadline ≤ sh.session.now + renewGrace

def RenewHolds (ht : Secret → H) (sh : Shared H) (c : RenewCall H) : Prop :=
  match c.point with
  | .resolving inner => inner.secret = c.secret ∧ ResolveHolds ht sh inner
  | .get a => Issued ht sh.session (ht c.secret) a.sessionID
  | .tenant _ row | .clock _ row _ _ => OwnRow ht sh c.secret row
  | .getView _ row _ _ read => OwnRow ht sh c.secret row ∧ read ≤ sh.session.now
  | .version row _ v read | .rotate row _ v read =>
    OwnRow ht sh c.secret row ∧ read ≤ sh.session.now ∧ v.id = row.id
  | .replacing grace fresh _ todo => Replacing ht sh c.next grace fresh todo
  | .returned _ | .failed _ => True

def FlowHolds (ht : Secret → H) (sh : Shared H) : Flow H → Prop
  | .resolve c => ResolveHolds ht sh c
  | .renew c => RenewHolds ht sh c

/-! ### What is kept as the calls advance -/

/-- No secret leaves the row without a renewal in progress that owes it a grace view, no debt is
dropped but `paid`, and the last renewal to end leaves its instant. -/
structure Advances (paid : H → Prop) (sh next : Shared H) : Prop where
  now : sh.session.now ≤ next.session.now
  completedAt : sh.completedAt ≤ next.completedAt
  issued : sh.session.issued ⊆ next.session.issued
  rowed : ∀ hash id, Rowed sh.session hash id → Current next hash id
  owed : ∀ hash, hash ∈ sh.rotation.getD [] → hash ∈ next.rotation.getD [] ∨ paid hash
  rotation : sh.rotation.isSome = true →
    next.rotation.isSome = true ∨ next.session.now ≤ next.completedAt

/-- The secrets in the rows and the rotation are as they were. -/
structure Quiet (sh next : Shared H) : Prop where
  now : sh.session.now ≤ next.session.now
  completedAt : sh.completedAt ≤ next.completedAt
  issued : sh.session.issued ⊆ next.session.issued
  rotation : next.rotation = sh.rotation
  rowed : ∀ hash id, Rowed sh.session hash id → Rowed next.session hash id

section Advances

variable {ht : Secret → H} {paid : H → Prop} {sh next : Shared H} {hash : H} {id : SessionID}

theorem isSome_of_owed {rotation : Option (List H)} (owed : hash ∈ rotation.getD []) :
    rotation.isSome = true := by
  cases rotation with
  | none => cases owed
  | some todo => rfl

theorem Current.recent {began : Int} (current : Current sh hash id) :
    Recent sh began hash id :=
  current.imp_right fun owed => Or.inl (isSome_of_owed owed)

theorem Rowed.access {sess post : State H} (frame : AccessFrame sess post)
    (rowed : Rowed sess hash id) : Rowed post hash id := by
  obtain ⟨row, mem, rfl, rfl⟩ := rowed
  obtain ⟨kept, keptMem, same⟩ := frame.row_kept mem
  exact ⟨kept, keptMem, same.id, same.secretHash⟩

theorem Backed.answers {held : Carried} {began : Int} (backed : Backed ht sh hash held)
    (within : ∀ deadline, held.graceUntil = some deadline → began < deadline) :
    Answers ht sh began hash held :=
  ⟨backed.issued, fun isFull => (backed.full isFull).recent,
    fun deadline isGrace => ⟨within deadline isGrace, backed.grace deadline isGrace⟩⟩

theorem Quiet.advances (quiet : Quiet sh next) : Advances (fun _ => False) sh next where
  now := quiet.now
  completedAt := quiet.completedAt
  issued := quiet.issued
  rowed hash id rowed := Or.inl (quiet.rowed hash id rowed)
  owed _ owed := Or.inl (quiet.rotation ▸ owed)
  rotation rotating := Or.inl (quiet.rotation ▸ rotating)

variable (advances : Advances paid sh next)

include advances

theorem Current.advance (current : Current sh hash id) (unpaid : ¬paid hash) :
    Current next hash id := by
  rcases current with rowed | owed
  · exact advances.rowed hash id rowed
  · exact Or.inr ((advances.owed hash owed).resolve_right unpaid)

theorem Recent.advance {began : Int} (recent : Recent sh began hash id)
    (past : began ≤ sh.session.now) : Recent next began hash id := by
  have now := advances.now
  have completed := advances.completedAt
  rcases recent with rowed | rotating | ended
  · exact (advances.rowed hash id rowed).recent
  · rcases advances.rotation rotating with still | done
    · exact Or.inr (Or.inl still)
    · exact Or.inr (Or.inr (by omega))
  · exact Or.inr (Or.inr (by omega))

theorem Bounded.advance {deadline : Int} (bounded : Bounded sh deadline) :
    Bounded next deadline := by
  have now := advances.now
  have completed := advances.completedAt
  grind [Advances.rotation, Bounded]

theorem Backed.advance {held : Carried} (backed : Backed ht sh hash held) (unpaid : ¬paid hash) :
    Backed ht next hash held where
  issued := backed.issued.subset advances.issued
  full isFull := (backed.full isFull).advance advances unpaid
  grace deadline isGrace := (backed.grace deadline isGrace).advance advances

theorem ResolveHolds.advance {c : ResolveCall H} (holds : ResolveHolds ht sh c)
    (unpaid : c.point.inHand = true → ¬paid (ht c.secret)) : ResolveHolds ht next c where
  began := le_trans holds.began advances.now
  answers held isHeld := by
    obtain ⟨issued, full, grace⟩ := holds.answers held isHeld
    exact ⟨issued.subset advances.issued, fun isFull => (full isFull).advance advances holds.began,
      fun deadline isGrace => (grace deadline isGrace).imp_right (Bounded.advance advances)⟩
  backed held isHeld inHand := (holds.backed held isHeld inHand).advance advances (unpaid inHand)

theorem OwnRow.advance {sec : Secret} {row : Store.Session H} (own : OwnRow ht sh sec row) :
    OwnRow ht next sec row :=
  ⟨own.called.subset advances.issued, own.stored.subset advances.issued⟩

/-- What a call in flight relies on, it may rely on after an access of another one. -/
theorem FlowHolds.advance {f : Flow H} (holds : FlowHolds ht sh f)
    (unpaid : ∀ c, f.resolving = some c → c.point.inHand = true → ¬paid (ht c.secret))
    (quiet : f.todo.isSome = true → Quiet sh next) : FlowHolds ht next f := by
  have now := advances.now
  cases f with
  | resolve c => exact ResolveHolds.advance advances holds (unpaid c rfl)
  | renew c =>
    obtain ⟨sec, nextSec, point⟩ := c
    cases point with
    | resolving inner => exact ⟨holds.1, holds.2.advance advances (unpaid inner rfl)⟩
    | get a => exact Issued.subset holds advances.issued
    | tenant | clock => exact OwnRow.advance advances holds
    | getView a row tn pol read => exact ⟨holds.1.advance advances, le_trans holds.2 now⟩
    | version row pol v read | rotate row pol v read =>
      exact ⟨holds.1.advance advances, le_trans holds.2.1 now, holds.2.2⟩
    | replacing grace fresh renewal todo =>
      obtain ⟨rotation, rowed, issued, full, old, deadline, isGrace, within⟩ := holds
      have quiet := quiet rfl
      exact ⟨quiet.rotation.trans rotation, quiet.rowed _ _ rowed,
        issued.subset advances.issued, full, fun hash mem => (old hash mem).subset advances.issued,
        deadline, isGrace, le_trans within (by omega)⟩
    | returned | failed => trivial

end Advances

/-! ### The `Resolve` part -/

section Resolving

variable [DecidableEq H] {ht : Secret → H} {sh : Shared H} {c : ResolveCall H}
  {point : ResolvePoint H} {post : State H}

/-- What a call takes in hand, or carries on. -/
theorem ResolveHolds.hands (shared : SharedHolds ht sh) (holds : ResolveHolds ht sh c)
    (busy : c.point.carried.isSome = true → c.point.inHand = true)
    (hands : Hands sh.session (ht c.secret) c.now c.point point) :
    ResolveHolds ht sh { c with point := point } := by
  have backed : ∀ held, point.carried = some held → Backed ht sh (ht c.secret) held
      ∧ ∀ deadline, held.graceUntil = some deadline → c.now < deadline := by
    intro held isHeld
    rcases hands.carried_cases isHeld with before | ⟨v, found, rfl, within⟩
      | ⟨row, mem, isHash, -, rfl⟩
    · refine ⟨holds.backed held before (busy (by rw [before]; rfl)), fun deadline isGrace => ?_⟩
      exact ((holds.answers held before).grace deadline isGrace).1
    · obtain ⟨e, stored, -, rfl⟩ := (ExpiringMap.get_eq_some_iff _ _ _ _).mp found
      exact ⟨shared.views _ e stored, within⟩
    · refine ⟨⟨isHash ▸ shared.issuance.current row mem, fun _ => ?_, nofun⟩, nofun⟩
      exact Or.inl ⟨row, mem, rfl, isHash⟩
  refine ⟨holds.began, fun held isHeld => ?_, fun held isHeld _ => (backed held isHeld).1⟩
  exact (backed held isHeld).1.answers (backed held isHeld).2

/-- One access of the call, also at the beginning of a renewal. -/
theorem ResolveHolds.act {failing : Bool} (shared : SharedHolds ht sh)
    (holds : ResolveHolds ht sh c)
    (acted : resolveAct ht sh.session failing c = some (post, point)) :
    Quiet sh { sh with session := post } ∧ SharedHolds ht { sh with session := post }
      ∧ ResolveHolds ht { sh with session := post } { c with point := point } := by
  obtain ⟨frame, hands, caches⟩ := resolveAct_step acted
  have busy : c.point.carried.isSome = true → c.point.inHand = true := by
    obtain ⟨sec, now, late, init⟩ := c
    cases init with
    | answered => cases acted
    | _ => exact id
  have quiet : Quiet sh { sh with session := post } :=
    ⟨le_of_eq frame.now.symm, le_refl _, frame.issued ▸ List.Subset.refl _, rfl,
      fun _ _ rowed => rowed.access frame⟩
  refine ⟨quiet, ⟨?_, frame.issuance shared.issuance, fun hash e stored => ?_⟩, ?_⟩
  · exact le_of_le_of_eq shared.past frame.now.symm
  · rcases caches.stored stored with old | ⟨rfl, v, atPut, rfl⟩
    · exact (shared.views hash e old).advance quiet.advances not_false
    · have backed := holds.backed (viewCarried e.value) (by rw [atPut]; rfl) (by rw [atPut]; rfl)
      exact backed.advance quiet.advances not_false
  · exact (holds.hands shared busy hands).advance quiet.advances fun _ => not_false

end Resolving

/-! ### The renewal itself -/

/-- What an access of the call in a slot leaves. -/
structure Acted (ht : Secret → H) (pl : Pool (Shared H) (Flow H)) (slot : Nat) (next : Shared H)
    (f : Flow H) : Prop where
  shared : SharedHolds ht next
  flow : FlowHolds ht next f
  others : ∀ other held, other ≠ slot → pl.flows other = some held → FlowHolds ht next held

section Renewing

variable {ht : Secret → H} {pl : Pool (Shared H) (Flow H)} {slot : Nat} {c : RenewCall H}
  {point : RenewPoint H} {row : Store.Session H} {pol : Tenant.Policy} {v : View} {read : Int}

theorem FlowHolds.quiet {sh next : Shared H} {f : Flow H} (holds : FlowHolds ht sh f)
    (quiet : Quiet sh next) : FlowHolds ht next f :=
  holds.advance quiet.advances (fun _ _ _ => not_false) fun _ => quiet

theorem FlowHolds.rotation {sh : Shared H} {f : Flow H} (holds : FlowHolds ht sh f)
    (rotating : f.todo.isSome = true) : sh.rotation.isSome = true := by
  cases f with
  | resolve => cases rotating
  | renew c =>
    obtain ⟨sec, next, point⟩ := c
    cases point with
    | replacing grace fresh renewal todo =>
      exact congrArg Option.isSome (Replacing.rotation holds)
    | _ => cases rotating

section

variable (shared : SharedHolds ht pl.shared) (locals : pl.All (FlowHolds ht))

include shared locals

/-- An access that writes nothing. -/
theorem acted_read (before : c.point.todo = none) (after : point.todo = none)
    (holds : RenewHolds ht pl.shared { c with point := point }) :
    Acted ht pl slot (pl.shared.renewed pl.shared.session c.point point)
      (.renew { c with point := point }) := by
  have past := shared.past
  have quiet : Quiet pl.shared (pl.shared.renewed pl.shared.session c.point point) := by
    refine ⟨le_refl _, ?_, List.Subset.refl _, ?_, fun _ _ rowed => rowed⟩
    · simp only [Shared.renewed]
      split_ifs
      · exact past
      · exact le_refl _
    · simp [Shared.renewed, before, after]
  refine ⟨⟨?_, shared.issuance, fun hash e stored => ?_⟩, ?_, fun other held _ isFlow => ?_⟩
  · simp only [Shared.renewed]
    split_ifs
    · exact le_refl _
    · exact past
  · exact (shared.views hash e stored).advance quiet.advances not_false
  · exact FlowHolds.quiet holds quiet
  · exact (locals other held isFlow).quiet quiet

theorem acted_decide (before : c.point.todo = none) (own : OwnRow ht pl.shared c.secret row)
    (past : read ≤ pl.shared.session.now) (isID : v.id = row.id) :
    Acted ht pl slot (pl.shared.renewed pl.shared.session c.point (decideRenewal row pol v read))
      (.renew { c with point := decideRenewal row pol v read }) := by
  unfold decideRenewal
  dsimp only
  split_ifs
  · exact acted_read shared locals before rfl trivial
  · exact acted_read shared locals before rfl ⟨own, past, isID⟩

variable [DecidableEq H]

theorem acted_resolving {failing : Bool} {post : State H} {sec next : Secret}
    {inner : ResolveCall H}
    (isFlow : pl.flows slot = some (.renew ⟨sec, next, .resolving inner⟩))
    (acted : resolvingAct ht pl.shared.session failing inner = some (post, point)) :
    Acted ht pl slot (pl.shared.renewed post (.resolving inner) point)
      (.renew ⟨sec, next, point⟩) := by
  obtain ⟨isSecret, holds⟩ := locals slot _ isFlow
  unfold resolvingAct at acted
  split at acted
  case h_1 v atAnswer =>
    cases acted
    refine @acted_read _ _ _ _ ⟨sec, next, _⟩ _ shared locals rfl rfl ?_
    exact isSecret ▸ (holds.answers (viewCarried v) (by rw [atAnswer]; rfl)).issued
  case h_2 =>
    cases acted
    exact @acted_read _ _ _ _ ⟨sec, next, _⟩ _ shared locals rfl rfl trivial
  case h_3 =>
    obtain ⟨⟨reached, stage⟩, isOutcome, same⟩ := Option.map_eq_some_iff.mp acted
    cases same
    obtain ⟨quiet, kept, later⟩ := holds.act shared isOutcome
    exact ⟨kept, ⟨isSecret, later⟩,
      fun other held _ isOther => (locals other held isOther).quiet quiet⟩

/-- The row is rotated as it was read: the only secret that leaves it is owed a grace view. -/
theorem acted_rotate {exp : Int} {renewal : State.Renewal}
    (isFlow : pl.flows slot = some (.renew c))
    (atRotate : c.point = .rotate row pol v read) (alone : pl.shared.rotation = none)
    (asRead : ∀ other ∈ pl.shared.session.sessions, renewable row.tenantID row.id other = true →
      other.secretHash = row.secretHash)
    (fresh : pl.shared.session.freshSecret ht c.next = true)
    (found : pl.shared.session.sessions.any (renewable row.tenantID row.id) = true) :
    Acted ht pl slot
      ⟨pl.shared.session.rotated ht row c.next exp, pl.shared.completedAt,
        some [ht c.secret, row.secretHash]⟩
      (.renew ⟨c.secret, c.next, .replacing (graceView v read exp) (freshView v read exp) renewal
        [ht c.secret, row.secretHash]⟩) := by
  obtain ⟨sec, next, init⟩ := c
  cases atRotate
  obtain ⟨own, past, isID⟩ := locals slot _ isFlow
  have advances : Advances (fun _ => False) pl.shared
      ⟨pl.shared.session.rotated ht row next exp, pl.shared.completedAt,
        some [ht sec, row.secretHash]⟩ := by
    refine ⟨le_refl _, le_refl _, List.subset_append_left _ _, ?_, ?_, ?_⟩
    · rintro hash id ⟨held, mem, rfl, rfl⟩
      cases matched : renewable row.tenantID row.id held with
      | true => exact Or.inr (by simp [asRead held mem matched])
      | false =>
        refine Or.inl ⟨held, ?_, rfl, rfl⟩
        exact mem_updateWhere.mpr ⟨held, mem, by rw [matched]; rfl⟩
    · simp [alone]
    · simp [alone]
  have issued : Issued ht (pl.shared.session.rotated ht row next exp) (ht next) row.id :=
    ⟨next, List.mem_append_right _ (List.mem_singleton.mpr rfl), rfl⟩
  refine ⟨⟨shared.past, shared.issuance.rotated row fresh exp, fun hash e stored => ?_⟩,
    ⟨rfl, ?_, ?_, rfl, ?_, read + renewGrace, rfl, ?_⟩, fun other held _ isOther => ?_⟩
  · exact (shared.views hash e stored).advance advances not_false
  · obtain ⟨old, mem, matched⟩ := List.any_eq_true.mp found
    have sameID : old.id = row.id := by
      simp only [renewable, Bool.and_eq_true, beq_iff_eq] at matched
      exact matched.1.2
    refine ⟨_, mem_updateWhere.mpr ⟨old, mem, rfl⟩, ?_⟩
    rw [if_pos matched]
    exact ⟨sameID.trans isID.symm, rfl⟩
  · exact isID ▸ issued
  · intro hash mem
    have isHash : hash = ht sec ∨ hash = row.secretHash := by simpa using mem
    show Issued ht _ hash v.id
    rw [isID]
    rcases isHash with rfl | rfl
    · exact own.called.subset advances.issued
    · exact own.stored.subset advances.issued
  · exact Int.add_le_add_right past _
  · have holds := locals other held isOther
    refine holds.advance advances (fun _ _ _ => not_false) fun rotating => ?_
    cases (holds.rotation rotating).symm.trans (congrArg Option.isSome alone)

/-- A debt is paid by the grace view, which is in time. -/
theorem acted_grace {grace fresh : View} {renewal : State.Renewal} {old : H} {rest : List H}
    (isFlow : pl.flows slot = some (.renew c))
    (atReplacing : c.point = .replacing grace fresh renewal (old :: rest))
    (inTime : 0 < State.viewTTL pl.shared.session.now grace)
    (spared : ∀ other held, other ≠ slot → pl.flows other = some held →
      held.Spares ht (old :: rest)) :
    Acted ht pl slot
      ⟨pl.shared.session.putView old grace, pl.shared.completedAt, some rest⟩
      (.renew { c with point := .replacing grace fresh renewal rest }) := by
  obtain ⟨sec, next, init⟩ := c
  cases atReplacing
  obtain ⟨rotation, rowed, issued, full, owed, deadline, isGrace, within⟩ := locals slot _ isFlow
  have advances : Advances (· = old) pl.shared
      ⟨pl.shared.session.putView old grace, pl.shared.completedAt, some rest⟩ := by
    refine ⟨le_refl _, le_refl _, List.Subset.refl _, fun _ _ rowed => Or.inl rowed, ?_,
      fun _ => Or.inl rfl⟩
    intro hash mem
    rw [rotation] at mem
    exact (List.mem_cons.mp mem).symm
  refine ⟨⟨shared.past, ?_, fun hash e stored => ?_⟩,
    ⟨rfl, rowed, issued, full, fun hash mem => owed hash (List.mem_cons_of_mem _ mem), deadline,
      isGrace, within⟩,
    fun other held ne isOther => ?_⟩
  · exact { shared.issuance with }
  · simp only [State.putView, if_pos inTime] at stored
    rcases ExpiringMap.set_apply_eq_some stored with ⟨rfl, rfl⟩ | ⟨notOld, kept⟩
    · refine ⟨owed hash List.mem_cons_self, fun isFull => ?_, fun other isOther => ?_⟩
      · cases isGrace.symm.trans isFull
      · cases isGrace.symm.trans isOther
        exact Or.inr ⟨rfl, within⟩
    · exact (shared.views hash e kept).advance advances notOld
  · obtain ⟨idle, notInHand⟩ := spared other held ne isOther
    refine (locals other held isOther).advance advances
      (fun inner isInner inHand isOld => ?_) fun rotating => ?_
    · exact notInHand inner isInner inHand (congrArg some isOld.symm)
    · cases (congrArg Option.isSome idle).symm.trans rotating

/-- The renewal returns with the view of the secret it has put into the row. -/
theorem acted_finish {grace fresh : View} {renewal : State.Renewal}
    (isFlow : pl.flows slot = some (.renew c))
    (atReplacing : c.point = .replacing grace fresh renewal [])
    (spared : ∀ other held, other ≠ slot → pl.flows other = some held → held.Spares ht []) :
    Acted ht pl slot
      ⟨pl.shared.session.putView (ht c.next) fresh, pl.shared.session.now, none⟩
      (.renew { c with point := .returned renewal }) := by
  obtain ⟨sec, next, init⟩ := c
  cases atReplacing
  obtain ⟨rotation, rowed, issued, full, -, -⟩ := locals slot _ isFlow
  have advances : Advances (fun _ => False) pl.shared
      ⟨pl.shared.session.putView (ht next) fresh, pl.shared.session.now, none⟩ := by
    refine ⟨le_refl _, shared.past, List.Subset.refl _, fun _ _ rowed => Or.inl rowed, ?_,
      fun _ => Or.inr (le_refl _)⟩
    simp [rotation]
  refine ⟨⟨le_refl _, ?_, fun hash e stored => ?_⟩, trivial, fun other held ne isOther => ?_⟩
  · exact { shared.issuance with }
  · rcases putView_apply stored with ⟨rfl, rfl⟩ | kept
    · refine ⟨issued, fun _ => Or.inl rowed, fun deadline isGrace => ?_⟩
      cases full.symm.trans isGrace
    · exact (shared.views hash e kept).advance advances not_false
  · refine (locals other held isOther).advance advances (fun _ _ _ => not_false) fun rotating => ?_
    cases (congrArg Option.isSome (spared other held ne isOther).1).symm.trans rotating

theorem renewAct_acted {failing : Bool} {post : State H} (isFlow : pl.flows slot = some (.renew c))
    (orderly : Orderly ht pl (.act slot failing))
    (acted : renewAct ht pl.shared.session failing c = some (post, point)) :
    Acted ht pl slot (pl.shared.renewed post c.point point) (.renew { c with point := point }) := by
  obtain ⟨inTurn, spared⟩ := orderly _ isFlow
  have holds := locals slot _ isFlow
  obtain ⟨sec, next, init⟩ := c
  cases init with
  | resolving inner => exact acted_resolving shared locals isFlow acted
  | get a =>
    simp only [renewAct] at acted
    split_ifs at acted
    · cases acted
      exact acted_read shared locals rfl rfl trivial
    cases found : getSession pl.shared.session.sessions a.tenantID a.sessionID with
    | none =>
      rw [found] at acted
      cases acted
      exact acted_read shared locals rfl rfl trivial
    | some row =>
      simp only [found] at acted
      split_ifs at acted
      · cases acted
        exact acted_read shared locals rfl rfl trivial
      · cases acted
        obtain ⟨mem, -, isID⟩ := getSession_eq_some found
        exact acted_read shared locals rfl rfl ⟨isID ▸ holds, shared.issuance.current row mem⟩
  | tenant a row =>
    simp only [renewAct] at acted
    split at acted
    · cases acted
      exact acted_read shared locals rfl rfl trivial
    · cases acted
      exact acted_read shared locals rfl rfl holds
  | clock a row tn pol =>
    cases acted
    exact acted_read shared locals rfl rfl ⟨holds, le_refl _⟩
  | getView a row tn pol read =>
    obtain ⟨own, past⟩ := holds
    simp only [renewAct] at acted
    cases found : pl.shared.session.getView (ht sec) with
    | none =>
      rw [found] at acted
      cases acted
      exact acted_read shared locals rfl rfl ⟨own, past, rfl⟩
    | some v =>
      rw [found] at acted
      cases acted
      obtain ⟨e, stored, -, rfl⟩ := (ExpiringMap.get_eq_some_iff _ _ _ _).mp found
      have isID := issued_eq shared.issuance (shared.views _ e stored).issued own.called
      exact acted_decide shared locals rfl own past isID
  | version row pol v read =>
    cases acted
    exact acted_decide shared locals rfl holds.1 holds.2.1 holds.2.2
  | rotate row pol v read =>
    simp only [renewAct, renewSession] at acted
    split_ifs at acted with fresh failed found
    · cases acted
      exact acted_read shared locals rfl rfl trivial
    · cases acted
      exact acted_rotate shared locals isFlow rfl inTurn.1 inTurn.2 fresh found
    · cases acted
      exact acted_read shared locals rfl rfl trivial
  | replacing grace fresh renewal todo =>
    cases todo with
    | nil =>
      cases acted
      exact acted_finish shared locals isFlow rfl (spared _ rfl)
    | cons old rest =>
      cases acted
      exact acted_grace shared locals isFlow rfl inTurn (spared _ rfl)
  | returned | failed => cases acted

end

end Renewing

/-! ### Every interleaving -/

section Interleavings

variable {ht : Secret → H}

theorem starts_holds {sh : Shared H} {f : Flow H} (started : starts sh f = true) :
    FlowHolds ht sh f := by
  cases f with
  | resolve c =>
    obtain ⟨sec, now, late, point⟩ := c
    cases point with
    | getView => exact ⟨le_of_eq (beq_iff_eq.mp started), nofun, nofun⟩
    | _ => cases started
  | renew c =>
    obtain ⟨sec, next, point⟩ := c
    cases point with
    | resolving inner =>
      obtain ⟨presented, now, late, point⟩ := inner
      cases point with
      | getView =>
        simp only [starts, Bool.and_eq_true, beq_iff_eq] at started
        exact ⟨started.1, le_of_eq started.2, nofun, nofun⟩
      | _ => cases started
    | _ => cases started

variable [DecidableEq H]

theorem obligations (ht : Secret → H) :
    (program ht).Obligations (SharedHolds ht) (FlowHolds ht) (Orderly ht) where
  entry _ _ _ := starts_holds
  act pl slot f failing sh rest shared locals isFlow orderly acted := by
    cases f with
    | resolve c =>
      obtain ⟨⟨post, point⟩, isOutcome, same⟩ := Option.map_eq_some_iff.mp acted
      cases same
      obtain ⟨quiet, kept, later⟩ := ResolveHolds.act shared (locals slot _ isFlow) isOutcome
      refine ⟨kept, fun next isNext => ?_, fun other held _ isOther => ?_⟩
      · cases isNext
        exact later
      · exact (locals other held isOther).quiet quiet
    | renew c =>
      obtain ⟨⟨post, point⟩, isOutcome, same⟩ := Option.map_eq_some_iff.mp acted
      cases same
      obtain ⟨kept, later, others⟩ := renewAct_acted shared locals isFlow orderly isOutcome
      refine ⟨kept, fun next isNext => ?_, others⟩
      cases isNext
      exact later
  environment pl event sh shared locals _ moved := by
    have quiet : Quiet pl.shared sh := by
      cases event with
      | directory status roles users versions =>
        cases moved
        exact ⟨le_refl _, le_refl _, List.Subset.refl _, rfl, fun _ _ rowed => rowed⟩
      | advance elapsed =>
        cases moved
        refine ⟨?_, le_refl _, List.Subset.refl _, rfl, fun _ _ rowed => rowed⟩
        exact Int.le_add_of_nonneg_right (Int.natCast_nonneg elapsed)
    have same : sh.completedAt = pl.shared.completedAt ∧ Issuance ht sh.session
        ∧ sh.session.views = pl.shared.session.views := by
      cases event <;> cases moved <;> exact ⟨rfl, { shared.issuance with }, rfl⟩
    obtain ⟨isCompleted, issuance, isViews⟩ := same
    refine ⟨⟨?_, issuance, fun hash e stored => ?_⟩, fun slot held isFlow => ?_⟩
    · exact le_trans (le_of_eq_of_le isCompleted shared.past) quiet.now
    · exact (shared.views hash e (isViews ▸ stored)).advance quiet.advances not_false
    · exact (locals slot held isFlow).quiet quiet

end Interleavings

/-! A session is renewed from two tabs, one after the other or at the same time. -/

def sampleSession : State Secret :=
  ((initial 0 (fun _ => some ⟨.customer, .active, Tenant.defaultPolicy⟩)
    (fun _ _ => ["member"]) (fun _ _ => none) : State Secret).create id noFaults
    { tenantID := 1, userID := 7, roles := ["member"], amr := ["pwd"], operator := false
      policy := Tenant.defaultPolicy } 1 [1]).1

def sample : Pool (Shared Secret) (Flow Secret) := ⟨⟨sampleSession, 0, none⟩, fun _ => none⟩

def acts (slot count : Nat) : List (Move (Flow Secret) Bool Event) :=
  List.replicate count (.act slot false)

end TangraAuth.Session.Renewals
