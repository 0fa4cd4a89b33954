import TangraAuth.Session.InFlight

/-!
Contract: what a `RevokeUser` call that keeps a session guarantees when calls interleave.

Owns: the assertions on the progress of the call and on the `Resolve` calls that
begin after it, that every access keeps them, and for which interleavings a
session the call marked is refused afterwards.

Does not own: refreshes, which move a session's expiry.
-/

namespace TangraAuth.Session.Concurrent

open Library Store

variable {H : Type} {ht : Secret → H} {inserted : Store.Session H → Prop}
  {sess next : State H}

/-! ### The progress of the call -/

/-- The session's row had reached its expiry when the call listed the live ones. -/
def Expired (sess : State H) (listedAt : Int) (id : SessionID) : Prop :=
  ∃ row ∈ sess.sessions, row.id = id ∧ row.expiresAt ≤ listedAt

/-- Every marked session is expired, has its mark, or is still to be published. -/
structure Publishing (sess : State H) (keepID : SessionID) (listedAt date : Int)
    (marked : List SessionID) (pending : List (Store.Session H)) : Prop where
  listed : listedAt ≤ sess.now
  dated : date ≤ sess.now
  covered : ∀ id ∈ marked, Expired sess listedAt id ∨ Stamped sess id date
    ∨ (id ≠ keepID ∧ id ∈ pending.map Store.Session.id)

/-- What holds at each point of the call. -/
def ProgressSound (sess : State H) (target : Target) : Progress H → Prop
  | .listing | .failed => True
  | .marking listedAt listed =>
    listedAt ≤ sess.now ∧ ∀ row ∈ sess.sessions, target.owns row = true → row.revokedAt = none →
      row.expiresAt ≤ listedAt ∨ row.id ∈ listed.map Store.Session.id
  | .dating listedAt listed marked =>
    listedAt ≤ sess.now ∧ ∀ id ∈ marked, Expired sess listedAt id
      ∨ (id ≠ target.keepID ∧ id ∈ listed.map Store.Session.id)
  | .inserting listedAt date marked pending =>
    Publishing sess target.keepID listedAt date marked pending
  | .setting listedAt date marked head rest =>
    Publishing sess target.keepID listedAt date marked (head :: rest)
  | .evicting listedAt date marked _ rest =>
    Publishing sess target.keepID listedAt date marked rest
  | .returned listedAt date _ marked =>
    Publishing sess target.keepID listedAt date marked []

variable {listedAt date : Int} {marked : List SessionID} {sh post : Shared H}

theorem Expired.extend {id : SessionID} (expired : Expired sess listedAt id)
    (grows : Extends inserted sess next) : Expired next listedAt id := by
  obtain ⟨row, mem, sameID, past⟩ := expired
  obtain ⟨kept, keptMem, same⟩ := grows.rows row mem
  exact ⟨kept, keptMem, same.id.trans sameID, le_of_eq_of_le same.expiresAt past⟩

theorem Publishing.extend {keepID : SessionID} {pending : List (Store.Session H)}
    (publishing : Publishing sess keepID listedAt date marked pending)
    (grows : Extends inserted sess next) :
    Publishing next keepID listedAt date marked pending where
  listed := le_trans publishing.listed grows.now
  dated := le_trans publishing.dated grows.now
  covered := by
    intro id mem
    rcases publishing.covered id mem with expired | stamped | waiting
    · exact Or.inl (expired.extend grows)
    · exact Or.inr (Or.inl (grows.stamps id date publishing.dated stamped))
    · exact Or.inr (Or.inr waiting)

/-- Whatever the calls write, the progress stays sound, as long as no row of the user appears
between the listing and the statement that marks. -/
theorem ProgressSound.extend {target : Target} {progress : Progress H}
    (sound : ProgressSound sess target progress) (grows : Extends inserted sess next)
    (elsewhere : ∀ row, inserted row → ∀ listedAt listed,
      progress = .marking listedAt listed → target.owns row = false) :
    ProgressSound next target progress := by
  cases progress with
  | listing => trivial
  | failed => trivial
  | marking listedAt listed =>
    obtain ⟨past, complete⟩ := sound
    refine ⟨le_trans past grows.now, fun row mem owned live => ?_⟩
    rcases grows.origin row mem with new | ⟨old, oldMem, same⟩
    · cases (elsewhere row new listedAt listed rfl).symm.trans owned
    · have wasLive : old.revokedAt = none := by
        by_contra revoked
        have still := same.revoked (Option.isSome_iff_ne_none.mpr revoked)
        rw [live] at still
        cases still
      rw [Target.owns, same.tenantID, same.userID] at owned
      rw [same.expiresAt, same.id]
      exact complete old oldMem owned wasLive
  | dating listedAt listed marked =>
    obtain ⟨past, covered⟩ := sound
    refine ⟨le_trans past grows.now, fun id mem => ?_⟩
    exact (covered id mem).imp_left fun expired => expired.extend grows
  | inserting listedAt date marked pending | setting listedAt date marked head rest
  | evicting listedAt date marked head rest | returned listedAt date returnedAt marked =>
    exact Publishing.extend sound grows

variable [DecidableEq H]

/-- One access of the `RevokeUser` call. -/
theorem revokerAct_sound {failing : Bool} (sound : ProgressSound sh.session sh.target sh.progress)
    (acted : revokerAct failing sh = some post) :
    AccessFrame sh.session post.session
      ∧ (∀ hash e, post.session.views hash = some e → sh.session.views hash = some e)
      ∧ ProgressSound post.session post.target post.progress := by
  have same := AccessFrame.refl sh.session
  obtain ⟨sess, target, progress⟩ := sh
  cases progress with
  | listing =>
    simp only [revokerAct] at acted
    split_ifs at acted
    · cases acted
      exact ⟨same, fun _ _ => id, trivial⟩
    · cases acted
      refine ⟨same, fun _ _ => id, le_refl _, ?_⟩
      intro row mem owned live
      by_cases expired : row.expiresAt ≤ sess.now
      · exact Or.inl expired
      · right
        simp only [Target.owns, Bool.and_eq_true, beq_iff_eq] at owned
        exact List.mem_map_of_mem (mem_listUserSessions.mpr
          ⟨mem, owned.1, owned.2, live, not_le.mp expired⟩)
  | marking listedAt listed =>
    simp only [revokerAct] at acted
    split_ifs at acted
    · cases acted
      exact ⟨same, fun _ _ => id, trivial⟩
    · cases acted
      have frame : AccessFrame sess
          { sess with
            sessions := revokeUserSessions sess.sessions sess.now target.tenantID
              target.userID target.reason (some target.keepID) } :=
        accessFrame_updateRows _ _ fun row =>
          ⟨sameIdentity_revoke sess.now target.reason row, fun _ => rfl⟩
      obtain ⟨past, complete⟩ := sound
      refine ⟨frame, fun _ _ => id, past, ?_⟩
      intro id mem
      obtain ⟨row, rowMem, rfl⟩ := List.mem_map.mp mem
      obtain ⟨inTable, isMarked⟩ := List.mem_filter.mp rowMem
      simp only [Target.selects, Bool.and_eq_true, decide_eq_true_eq, ne_eq,
        Option.some.injEq, Option.isNone_iff_eq_none] at isMarked
      obtain ⟨⟨owned, notKept⟩, live⟩ := isMarked
      rcases complete row inTable owned live with expired | inListing
      · exact Or.inl (Expired.extend ⟨row, inTable, rfl, expired⟩ frame.extends)
      · exact Or.inr ⟨notKept, inListing⟩
  | dating listedAt listed marked =>
    cases acted
    obtain ⟨past, covered⟩ := sound
    exact ⟨same, fun _ _ => id, past, le_refl _, fun id mem => (covered id mem).imp_right Or.inr⟩
  | inserting listedAt date marked pending =>
    cases pending with
    | nil =>
      cases acted
      exact ⟨same, fun _ _ => id, sound⟩
    | cons head rest =>
      simp only [revokerAct] at acted
      split_ifs at acted with kept failed
      · cases acted
        refine ⟨same, fun _ _ => id, sound.listed, sound.dated, ?_⟩
        intro id mem
        rcases sound.covered id mem with expired | stamped | ⟨notKept, waiting⟩
        · exact Or.inl expired
        · exact Or.inr (Or.inl stamped)
        grind
      · cases acted
        exact ⟨same, fun _ _ => id, trivial⟩
      · cases acted
        exact ⟨.same rfl rfl rfl rfl rfl rfl, fun _ _ => id, { sound with }⟩
  | setting listedAt date marked head rest =>
    cases acted
    have frame := accessFrame_setMark sess (.session head.id) date
    have published := Publishing.extend sound frame.extends
    refine ⟨frame, fun _ _ => id, published.listed, published.dated, ?_⟩
    intro id mem
    rcases published.covered id mem with expired | stamped | ⟨notKept, waiting⟩
    · exact Or.inl expired
    · exact Or.inr (Or.inl stamped)
    · rcases List.mem_cons.mp waiting with isHead | later
      · right; left
        subst isHead
        refine ⟨_, _, setMark_marks_self sess (.session head.id) date, rfl, ?_⟩
        have dated : date ≤ sess.now := Publishing.dated sound
        omega
      · exact Or.inr (Or.inr ⟨notKept, later⟩)
  | evicting listedAt date marked head rest =>
    cases acted
    exact ⟨.same rfl rfl rfl rfl rfl rfl, fun _ _ => evictView_apply, { sound with }⟩
  | returned listedAt date returnedAt marked => cases acted
  | failed => cases acted

/-! ### Every interleaving -/

/-- What holds of the shared state. -/
structure SharedSound (ht : Secret → H) (sh : Shared H) : Prop where
  issuance : Issuance ht sh.session
  views : ViewsNamed ht sh.session
  progress : ProgressSound sh.session sh.target sh.progress

/-- A call that began after the return: past the session's mark, it holds no marked session unless
it began after the retention. -/
def LateSound (sh : Shared H) (c : ResolveCall H) : Prop :=
  c.late = true → ∃ listedAt date returnedAt marked,
    sh.progress = .returned listedAt date returnedAt marked ∧ listedAt ≤ c.now
      ∧ (c.point.passedMark = true → ∀ held, c.point.carried = some held → held.id ∈ marked →
          returnedAt + revocationRetention ≤ c.now)

def FlowSound (ht : Secret → H) (sh : Shared H) : Flow H → Prop
  | .create c => ∀ held, c.carried = some held → Named ht sh.session (ht c.secret) held
  | .resolve c => ResolveSound ht sh.session c ∧ LateSound sh c

section Frame

variable {returnedAt : Int}

omit [DecidableEq H]

theorem FlowSound.extend {f : Flow H} (sound : FlowSound ht sh f)
    (grows : Extends inserted sh.session post.session)
    (stays : sh.progress.isReturned = true → post.progress = sh.progress) :
    FlowSound ht post f := by
  cases f with
  | create c => exact fun held isHeld => (sound held isHeld).extend grows
  | resolve c =>
    refine ⟨sound.1.extend grows, fun late => ?_⟩
    obtain ⟨listedAt, date, returnedAt, marked, returned, began, passes⟩ := sound.2 late
    have same := stays (by rw [returned]; rfl)
    exact ⟨listedAt, date, returnedAt, marked, same.trans returned, began, passes⟩

/-- Read as absent, the mark of a marked session has run out. -/
theorem SharedSound.mark_absent (sound : SharedSound ht sh)
    (returned : sh.progress = .returned listedAt date returnedAt marked) {c : ResolveCall H}
    (resolve : ResolveSound ht sh.session c) (began : listedAt ≤ c.now) {v : View}
    (atMark : c.point = .sessionMark v)
    (absent : sh.session.marks.get sh.session.now (.session v.id) = none)
    (isMarked : v.id ∈ marked) : date + revocationRetention ≤ sh.session.now := by
  have publishing : Publishing sh.session sh.target.keepID listedAt date marked [] := by
    have progress := sound.progress
    rw [returned] at progress
    exact progress
  rcases publishing.covered v.id isMarked
    with ⟨row, mem, sameID, past⟩ | ⟨mark, ins, stored, exp, lasts⟩ | ⟨-, waiting⟩
  · -- An expired session has no mark to meet, but the call has checked its expiry.
    have unexpired := resolve.unexpired v (by rw [atMark]; rfl)
    obtain ⟨-, owner, ownerMem, ownerID, later⟩ :=
      resolve.carried (viewCarried v) (by rw [atMark]; rfl)
    have isOwner : row = owner :=
      eq_of_uniqueKey sound.issuance.ids mem ownerMem (sameID.trans ownerID.symm)
    subst isOwner
    have bound : v.expiresAt ≤ row.expiresAt := later
    omega
  · by_contra pre
    have alive : mark.live sh.session.now = true := by
      simp only [Entry.live, exp, decide_eq_true_eq]
      omega
    have read := (ExpiringMap.get_eq_some_iff _ _ _ _).mpr ⟨mark, stored, alive, rfl⟩
    rw [read] at absent
    cases absent
  · cases waiting

theorem SharedSound.extend (sound : SharedSound ht sh)
    (grows : Extends inserted sh.session next) (issuance : Issuance ht next)
    (views : ViewsNamed ht next) (elsewhere : ∀ row, inserted row → ∀ listedAt listed,
      sh.progress = .marking listedAt listed → sh.target.owns row = false) :
    SharedSound ht { sh with session := next } :=
  ⟨issuance, views, sound.progress.extend grows elsewhere⟩

end Frame

/-- No `Create` call inserts a row of the user between the listing of the user's sessions and
the statement that marks them. And a `Resolve` call that began after the return, within the
retention, and holds the view of a marked session nevertheless, put back by a call that was in
flight, reads the session's mark before it runs out. -/
def Undisturbed (pl : Pool (Shared H) (Flow H)) : Move (Flow H) Bool Event → Prop
  | .act slot _ =>
    (∀ c listedAt listed, pl.flows slot = some (.create c) →
      c.point = .insert → pl.shared.progress = .marking listedAt listed →
      ¬(c.params.tenantID = pl.shared.target.tenantID
        ∧ c.params.userID = pl.shared.target.userID))
    ∧ ∀ c v listedAt date returnedAt marked, pl.flows slot = some (.resolve c) →
      c.late = true → c.point = .sessionMark v →
      pl.shared.progress = .returned listedAt date returnedAt marked → v.id ∈ marked →
      c.now < returnedAt + revocationRetention →
      pl.shared.session.now < date + revocationRetention
  | _ => True

omit [DecidableEq H] in
theorem starts_sound {f : Flow H} (sound : SharedSound ht sh) (started : starts sh f = true) :
    FlowSound ht sh f := by
  cases f with
  | create c =>
    obtain ⟨params, id, sec, now, point⟩ := c
    cases point with
    | insert =>
      intro held isHeld
      cases isHeld
    | _ => cases started
  | resolve c =>
    obtain ⟨sec, now, late, point⟩ := c
    cases point with
    | getView =>
      change (now == sh.session.now && late == sh.progress.isReturned) = true at started
      simp only [Bool.and_eq_true, beq_iff_eq] at started
      obtain ⟨rfl, rfl⟩ := started
      refine ⟨⟨fun held isHeld => ?_, not_at_mark rfl⟩, fun isLate => ?_⟩
      · cases isHeld
      have progress := sound.progress
      cases returned : sh.progress with
      | returned listedAt date returnedAt marked =>
        rw [returned] at progress
        exact ⟨listedAt, date, returnedAt, marked, rfl, Publishing.listed progress,
          fun passed => by cases passed⟩
      | _ =>
        rw [returned] at isLate
        cases isLate
    | _ => cases started

theorem obligations : (program ht).Obligations (SharedSound ht) (FlowSound ht) Undisturbed where
  entry _ _ := starts_sound
  act pl slot f failing post rest sound flows isFlow undisturbed acted := by
    have assertion := flows slot f isFlow
    cases f with
    | create c =>
      obtain ⟨out, taken, res⟩ := Option.map_eq_some_iff.mp acted
      cases res
      obtain ⟨grows, issuance, views, carried⟩ :=
        createAct_sound sound.issuance sound.views assertion taken
      refine ⟨sound.extend grows issuance views ?_, fun next isNext => ?_,
        fun other held _ found => (flows other held found).extend grows fun _ => rfl⟩
      · rintro row ⟨isInsert, rfl⟩ listedAt listed isMarking
        have elsewhere := undisturbed.1 c listedAt listed isFlow isInsert isMarking
        rw [← Bool.not_eq_true]
        simpa only [Target.owns, State.newRow, Bool.and_eq_true, beq_iff_eq] using elsewhere
      · obtain ⟨point, isPoint, rfl⟩ := Option.map_eq_some_iff.mp isNext
        exact carried point isPoint
    | resolve c =>
      obtain ⟨out, taken, res⟩ := Option.map_eq_some_iff.mp acted
      cases res
      obtain ⟨resolve, lateSound⟩ := assertion
      obtain ⟨grows, issuance, views, continues⟩ :=
        resolveAct_sound sound.issuance sound.views resolve taken
      refine ⟨sound.extend grows issuance views fun _ => False.elim, fun next isNext => ?_,
        fun other held _ found => (flows other held found).extend grows fun _ => rfl⟩
      cases isNext
      refine ⟨continues, fun late => ?_⟩
      obtain ⟨listedAt, date, returnedAt, marked, returned, began, passes⟩ := lateSound late
      refine ⟨listedAt, date, returnedAt, marked, returned, began, fun passed held isHeld mem => ?_⟩
      obtain ⟨sameCarried, pre | ⟨v, atMark, absent⟩⟩ := (resolveAct_checks taken).2 passed
      · exact passes pre held (sameCarried.symm.trans isHeld) mem
      · have isView : viewCarried v = held := by
          have carried := sameCarried.symm.trans isHeld
          rw [atMark] at carried
          exact Option.some.inj carried
        subst isView
        have ranOut := sound.mark_absent returned resolve began atMark absent mem
        by_contra within
        have inTime := undisturbed.2 c v listedAt date returnedAt marked isFlow late atMark returned
          mem (not_le.mp within)
        omega
  environment pl event post sound flows _ moved := by
    cases event with
    | revoker failing =>
      obtain ⟨frame, cached, progress⟩ := revokerAct_sound sound.progress moved
      refine ⟨⟨frame.issuance sound.issuance, sound.views.extend frame.extends fun hash e stored =>
        Or.inl (cached hash e stored), progress⟩, fun slot held found => ?_⟩
      refine (flows slot held found).extend frame.extends fun isReturned => ?_
      cases returned : pl.shared.progress with
      | returned listedAt date returnedAt marked =>
        have stuck : revokerAct failing pl.shared = none := by simp [revokerAct, returned]
        cases stuck.symm.trans moved
      | _ =>
        rw [returned] at isReturned
        cases isReturned
    | directory status roles users versions =>
      cases moved
      have grows : Extends (fun _ => False) pl.shared.session
          (pl.shared.session.withDirectory status roles users versions) :=
        { (AccessFrame.refl pl.shared.session).extends with }
      exact ⟨sound.extend grows { sound.issuance with } (sound.views.extend grows fun _ _ => Or.inl)
          fun _ => False.elim,
        fun slot held found => (flows slot held found).extend grows fun _ => rfl⟩
    | advance elapsed =>
      cases moved
      have grows : Extends (fun _ => False) pl.shared.session
          { pl.shared.session with now := pl.shared.session.now + elapsed } :=
        { (AccessFrame.refl pl.shared.session).extends with
          now := Int.le_add_of_nonneg_right (Int.natCast_nonneg elapsed) }
      exact ⟨sound.extend grows { sound.issuance with } (sound.views.extend grows fun _ _ => Or.inl)
          fun _ => False.elim,
        fun slot held found => (flows slot held found).extend grows fun _ => rfl⟩

/-- Before the calls: the tables agree, and nothing is in flight. -/
structure Start (ht : Secret → H) (pl : Pool (Shared H) (Flow H)) : Prop where
  issuance : Issuance ht pl.shared.session
  views : ViewsNamed ht pl.shared.session
  progress : pl.shared.progress = .listing
  flows : ∀ slot, pl.flows slot = none

namespace Sample

def tenant : Store.Tenant := ⟨.customer, .active, Tenant.defaultPolicy⟩

/-- No sessions yet; the call is for user 7 of tenant 1 and keeps session 5. -/
def start : Pool (Shared Secret) (Flow Secret) where
  shared :=
    { session := initial 0 (fun id => if id = 1 then some tenant else none) (fun _ _ => [])
        (fun _ _ => none)
      target := ⟨1, 7, .passwordChanged, 5⟩
      progress := .listing }
  flows := fun _ => none

def params : State.CreateParams := ⟨1, 7, [], [], false, Tenant.defaultPolicy⟩

/-- A whole `Create` call. -/
def create (slot : Nat) (id : SessionID) (secret : Secret) : List (Move (Flow Secret) Bool Event) :=
  .spawn slot (.create ⟨params, id, secret, 0, .insert⟩) :: List.replicate 4 (.act slot false)

/-- A `Resolve` call that begins after the return, up to its answer. -/
def resolve (slot : Nat) (secret : Secret) (accesses : Nat) :
    List (Move (Flow Secret) Bool Event) :=
  .spawn slot (.resolve ⟨secret, 0, true, .getView⟩) :: List.replicate accesses (.act slot false)

def revoker (accesses : Nat) : List (Move (Flow Secret) Bool Event) :=
  List.replicate accesses (.environment (.revoker false))

/-- Two sessions; the call runs alone; the other session's secret is refused. -/
def alone : List (Move (Flow Secret) Bool Event) :=
  create 0 5 [1] ++ create 1 6 [2] ++ revoker 8 ++ resolve 2 [2] 2

/-- The second session is created between the listing and the marking. -/
def overtaken : List (Move (Flow Secret) Bool Event) :=
  create 0 5 [1] ++ revoker 1 ++ create 1 6 [2] ++ revoker 4 ++ resolve 2 [2] 6

end Sample

end TangraAuth.Session.Concurrent
