import TangraAuth.Session.ResolveSteps

/-!
Contract: what `Create` and `Resolve` calls in flight rest on, and what their accesses keep.

Owns: which session a cached view, or a view or row in the hand of a call, belongs
to; what no access takes back; and that each access hands on what the call may
go on to rely on.

Does not own: the `RevokeUser` call beside them.
-/

namespace TangraAuth.Session.Concurrent

open Library Store

variable {H : Type} {ht : Secret → H}

/-! ### What calls and cached views rest on -/

/-- Under the hash a session was issued, with a row that expires no earlier. -/
structure Named (ht : Secret → H) (sess : State H) (hash : H) (held : Carried) : Prop where
  issued : Issued ht sess hash held.id
  row : ∃ row ∈ sess.sessions, row.id = held.id ∧ held.expiresAt ≤ row.expiresAt

/-- Every view in the cache is the view of a session issued under its hash. -/
def ViewsNamed (ht : Secret → H) (sess : State H) : Prop :=
  ∀ hash e, sess.views hash = some e → Named ht sess hash (viewCarried e.value)

/-- The session's mark, for a revocation of this date, is kept for the retention. -/
def Stamped (sess : State H) (id : SessionID) (date : Int) : Prop :=
  ∃ mark ins, sess.marks (.session id) = some mark ∧ mark.expires = some ins
    ∧ date + revocationRetention ≤ ins

/-- What no access takes back, and where a row comes from. -/
structure Extends (inserted : Store.Session H → Prop) (sess next : State H) : Prop where
  now : sess.now ≤ next.now
  issued : sess.issued ⊆ next.issued
  rows : ∀ row ∈ sess.sessions, ∃ kept ∈ next.sessions, RowKept row kept
  origin : ∀ row ∈ next.sessions, inserted row ∨ ∃ old ∈ sess.sessions, RowKept old row
  stamps : ∀ id date, date ≤ sess.now → Stamped sess id date → Stamped next id date

variable {inserted : Store.Session H → Prop} {sess next : State H} {hash : H} {held : Carried}

theorem AccessFrame.extends (frame : AccessFrame sess next) :
    Extends (fun _ => False) sess next where
  now := le_of_eq frame.now.symm
  issued := frame.issued ▸ List.Subset.refl _
  rows _ mem := frame.row_kept mem
  origin _ mem := Or.inr (frame.row_old mem)
  stamps id date past stamped := by
    obtain ⟨mark, ins, stored, exp, lasts⟩ := stamped
    rcases frame.marks _ mark stored with kept | ⟨other, replaced⟩
    · exact ⟨mark, ins, kept, exp, lasts⟩
    · exact ⟨_, _, replaced, rfl, by omega⟩

theorem Named.extend (named : Named ht sess hash held) (grows : Extends inserted sess next) :
    Named ht next hash held := by
  obtain ⟨issued, row, mem, sameID, later⟩ := named
  obtain ⟨kept, keptMem, same⟩ := grows.rows row mem
  exact ⟨issued.subset grows.issued, kept, keptMem, same.id.trans sameID,
    le_of_le_of_eq later same.expiresAt.symm⟩

theorem ViewsNamed.extend (views : ViewsNamed ht sess) (grows : Extends inserted sess next)
    (cached : ∀ hash e, next.views hash = some e → sess.views hash = some e
      ∨ Named ht sess hash (viewCarried e.value)) : ViewsNamed ht next :=
  fun hash e stored => ((cached hash e stored).elim (views hash e) id).extend grows

/-! ### One access of a `Resolve` call -/

/-- The session's own mark has been read, and was not there. -/
def ResolvePoint.passedMark : ResolvePoint H → Bool
  | .userMark _ | .tenantMark _ | .touch _ | .putView _ | .answered _ => true
  | _ => false

/-- The view whose session's mark is read next. -/
def ResolvePoint.atMark : ResolvePoint H → Option View
  | .sessionMark v => some v
  | _ => none

/-- What a call carries is the session's of its secret; before it reads the session's mark it has
checked the expiry. -/
structure ResolveSound (ht : Secret → H) (sess : State H)
    (c : ResolveCall H) : Prop where
  carried : ∀ held, c.point.carried = some held → Named ht sess (ht c.secret) held
  unexpired : ∀ v, c.point.atMark = some v → c.now < v.expiresAt

theorem ResolveSound.extend {c : ResolveCall H} (sound : ResolveSound ht sess c)
    (grows : Extends inserted sess next) : ResolveSound ht next c :=
  ⟨fun held isHeld => (sound.carried held isHeld).extend grows, sound.unexpired⟩

variable {c : ResolveCall H} {point : ResolvePoint H} {failing : Bool}

theorem not_at_mark {reads : View → Prop} (elsewhere : point.atMark = none) (v : View)
    (read : point.atMark = some v) : reads v := by
  cases elsewhere.symm.trans read

/-- A point that neither leads to the session's mark nor is past it. -/
theorem away_from_mark {reads : View → Prop} {passes : Prop} (elsewhere : point.atMark = none)
    (notPassed : point.passedMark = false) :
    (∀ v, point.atMark = some v → reads v) ∧ (point.passedMark = true → passes) :=
  ⟨not_at_mark elsewhere, fun passed => absurd passed (Bool.eq_false_iff.mp notPassed)⟩

theorem checkExpiry_checks (now : Int) (v : View) {passes : Prop} :
    (∀ w, (checkExpiry now v : ResolvePoint H).atMark = some w → now < w.expiresAt)
      ∧ ((checkExpiry now v : ResolvePoint H).passedMark = true → passes) := by
  unfold checkExpiry
  split_ifs with expired idle
  · exact away_from_mark rfl rfl
  · exact away_from_mark rfl rfl
  · refine ⟨fun w same => ?_, fun passed => by cases passed⟩
    cases same
    exact not_le.mp expired

variable [DecidableEq H]

/-- The session's mark is read after the expiry check, and passed only if it is not there. -/
theorem resolveAct_checks (acted : resolveAct ht sess failing c = some (next, point)) :
    (∀ v, point.atMark = some v → c.now < v.expiresAt)
      ∧ (point.passedMark = true → point.carried = c.point.carried ∧ (c.point.passedMark = true
        ∨ ∃ v, c.point = .sessionMark v ∧ sess.marks.get sess.now (.session v.id) = none)) := by
  obtain ⟨sec, now, late, init⟩ := c
  cases init with
  | profile v =>
    cases acted
    exact checkExpiry_checks now _
  | stale v | staleRoles v ver =>
    simp only [resolveAct] at acted
    split_ifs at acted
    · cases acted
      exact checkExpiry_checks now v
    · cases acted
      exact away_from_mark rfl rfl
  | sessionMark v =>
    simp only [resolveAct] at acted
    split_ifs at acted with marked
    · cases acted
      exact away_from_mark rfl rfl
    · cases acted
      exact ⟨not_at_mark rfl, fun _ => ⟨rfl, Or.inr ⟨v, rfl, by simpa using marked⟩⟩⟩
  | userMark v | tenantMark v =>
    simp only [resolveAct] at acted
    split_ifs at acted
    · cases acted
      exact away_from_mark rfl rfl
    all_goals
      cases acted
      exact ⟨not_at_mark rfl, fun _ => ⟨rfl, Or.inl rfl⟩⟩
  | touch v =>
    simp only [resolveAct] at acted
    split_ifs at acted <;> cases acted <;> exact ⟨not_at_mark rfl, fun _ => ⟨rfl, Or.inl rfl⟩⟩
  | putView v =>
    cases acted
    exact ⟨not_at_mark rfl, fun _ => ⟨rfl, Or.inl rfl⟩⟩
  | _ =>
    simp only [resolveAct] at acted
    repeat' split at acted
    all_goals cases acted <;> exact away_from_mark rfl rfl

theorem resolveAct_sound (issuance : Issuance ht sess) (views : ViewsNamed ht sess)
    (sound : ResolveSound ht sess c) (acted : resolveAct ht sess failing c = some (next, point)) :
    Extends (fun _ => False) sess next ∧ Issuance ht next ∧ ViewsNamed ht next
      ∧ ResolveSound ht next { c with point := point } := by
  obtain ⟨frame, hands, caches⟩ := resolveAct_step acted
  have grows := frame.extends
  refine ⟨grows, frame.issuance issuance, views.extend grows fun hash e stored => ?_,
    fun held isHeld => Named.extend ?_ grows, (resolveAct_checks acted).1⟩
  · refine (caches.stored stored).imp_right ?_
    rintro ⟨rfl, v, atPut, rfl⟩
    exact sound.carried _ (by rw [atPut]; rfl)
  · rcases hands.carried_cases isHeld with before | ⟨v, found, rfl, -⟩ | ⟨row, mem, isHash, -, rfl⟩
    · exact sound.carried held before
    · obtain ⟨e, stored, -, rfl⟩ := (ExpiringMap.get_eq_some_iff _ _ _ _).mp found
      exact views _ e stored
    · exact ⟨isHash ▸ issuance.current row mem, row, mem, rfl, le_refl _⟩

/-! ### One access of a `Create` call -/

/-- The session a `Create` call has stored. -/
def CreateCall.carried (c : CreateCall) : Option Carried :=
  match c.point with
  | .insert => none
  | .version => some ⟨c.id, c.now + c.params.policy.sessionLifetime, none⟩
  | .profile v | .putView v => some (viewCarried v)

/-- The row a `Create` call is about to insert. -/
def CreateCall.inserts (ht : Secret → H) (c : CreateCall) (row : Store.Session H) : Prop :=
  c.point = .insert ∧ row = State.newRow ht c.now c.params c.id c.secret

theorem createAct_sound {c : CreateCall} {rest : Option CreatePoint} (issuance : Issuance ht sess)
    (views : ViewsNamed ht sess)
    (carried : ∀ held, c.carried = some held → Named ht sess (ht c.secret) held)
    (acted : createAct ht sess failing c = some (next, rest)) :
    Extends (c.inserts ht) sess next ∧ Issuance ht next ∧ ViewsNamed ht next
      ∧ ∀ point, rest = some point → ∀ held,
        CreateCall.carried { c with point := point } = some held →
        Named ht next (ht c.secret) held := by
  have same : Extends (c.inserts ht) sess sess :=
    { (AccessFrame.refl sess).extends with
      origin := fun row mem => Or.inr ⟨row, mem, RowKept.refl row⟩ }
  obtain ⟨params, nid, sec, now, point⟩ := c
  cases point with
  | insert =>
    simp only [createAct] at acted
    split_ifs at acted with fresh failed
    · cases acted
      exact ⟨same, issuance, views, fun _ none => by cases none⟩
    · cases acted
      rw [Bool.and_eq_true] at fresh
      have grows : Extends (CreateCall.inserts ht ⟨params, nid, sec, now, .insert⟩) sess
          (sess.inserted (State.newRow ht now params nid sec) sec) :=
        { same with
          issued := List.subset_append_left _ _
          rows := fun row mem => ⟨row, List.mem_append_left _ mem, RowKept.refl row⟩
          origin := fun row mem => by
            rcases List.mem_append.mp mem with old | new
            · exact Or.inr ⟨row, old, RowKept.refl row⟩
            · exact Or.inl ⟨rfl, List.mem_singleton.mp new⟩ }
      refine ⟨grows, issuance.inserted _ rfl fresh.1 fresh.2,
        views.extend grows fun _ _ => Or.inl, fun point isPoint held isHeld => ?_⟩
      cases isPoint
      cases isHeld
      exact ⟨⟨sec, List.mem_append_right _ (List.mem_singleton.mpr rfl), rfl⟩,
        _, List.mem_append_right _ (List.mem_singleton.mpr rfl), rfl, le_refl _⟩
  | version =>
    cases acted
    refine ⟨same, issuance, views, fun point isPoint held isHeld => ?_⟩
    cases isPoint
    exact carried held isHeld
  | profile v =>
    cases acted
    refine ⟨same, issuance, views, fun point isPoint held isHeld => ?_⟩
    cases isPoint
    have alike := loadProfile_alike (fun _ => failing) sess v
    have unchanged : viewCarried (sess.loadProfile (fun _ => failing) v) = viewCarried v := by
      simp only [viewCarried, alike.id, alike.expiresAt, alike.graceUntil]
    exact carried held ((congrArg some unchanged).symm.trans isHeld)
  | putView v =>
    cases acted
    have grows : Extends (CreateCall.inserts ht ⟨params, nid, sec, now, .putView v⟩) sess
        (sess.putView (ht sec) v) := { same with }
    refine ⟨grows, { issuance with }, views.extend grows fun hash e stored => ?_,
      fun _ none => by cases none⟩
    rcases putView_apply stored with ⟨rfl, rfl⟩ | old
    · exact Or.inr (carried _ rfl)
    · exact Or.inl old

end TangraAuth.Session.Concurrent
