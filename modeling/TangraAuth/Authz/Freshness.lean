import TangraAuth.Authz.DecisionCache

/-!
Contract: checks that begin after a write of tuples has returned.

Owns: the invariant that relates the versions under which values are cached to
the tuples they were computed from, and what a call that begins after a write can
answer, over every interleaving.

Does not own: whether the two ways to read a cached value agree.
-/

namespace TangraAuth.Authz.DecisionCache

open Library Store Accounts

/-! ### The invariant -/

/-- The value is the backend's answer from the tuples it was computed from. -/
def Truthful (timeline : Timeline (Finset Tuple)) (uid : UserID) (obj : Permission)
    (cached : CachedValue) : Prop :=
  cached.value ≠ .zero ↔ Granted (timeline.states cached.seen) uid obj

/-- A value that may stand under a version. -/
structure Answered (timeline : Timeline (Finset Tuple)) (uid : UserID) (obj : Permission)
    (ver : Nat) (cached : CachedValue) : Prop where
  made : timeline.Made ver cached.seen
  truthful : Truthful timeline uid obj cached

structure Coherent (st : State) : Prop where
  sound : st.timeline.Sound
  tuples : st.timeline.current = st.tenant.tuples
  version : st.timeline.version = st.tenant.version
  returned : st.returned ≤ st.timeline.bumpedAt st.timeline.version
  entries : ∀ uid obj version e, st.entries (uid, obj, version) = some e →
      Answered st.timeline uid obj version e.value

/-- The version read by a call that began at `since`. -/
structure Labelled (st : State) (since ver : Nat) : Prop where
  known : ver ≤ st.timeline.version
  since : since ≤ st.timeline.bumpedAt ver

/-- An answer rests on tuples no older than `since`. -/
structure Rests (st : State) (since : Nat) (uid : UserID) (obj : Permission)
    (cached : CachedValue) : Prop where
  since : since ≤ cached.seen
  past : cached.seen ≤ st.timeline.writes
  truthful : Truthful st.timeline uid obj cached

def AllowedHolds (st : State) (c : AllowedCall) : Prop :=
  match c.point with
  | .catalogue => c.since ≤ st.returned
  | .version _ => c.since ≤ st.returned
  | .lookup _ ver => Labelled st c.since ver
  | .check _ ver => Labelled st c.since ver
  | .store obj ver cached =>
    Labelled st c.since ver ∧ Answered st.timeline c.userID obj ver cached
  | .answered _ none => True
  | .answered verdict (some (obj, cached)) =>
    Rests st c.since c.userID obj cached ∧ verdict = (cached.value == .one)

def ItemHolds (st : State) (since : Nat) (uid : UserID) (ver : Nat) : Item → Prop
  | .denied _ => True
  | .ask _ => True
  | .checked obj verdict seen =>
    st.timeline.Made ver seen ∧ (verdict = true ↔ Granted (st.timeline.states seen) uid obj)
  | .valued obj cached => Rests st since uid obj cached

def BatchHolds (st : State) (c : BatchCall) : Prop :=
  match c.point with
  | .version => c.since ≤ st.returned
  | .tenantStatus ver => Labelled st c.since ver
  | .userStatus ver => Labelled st c.since ver
  | .catalogue ver => Labelled st c.since ver
  | .lookups ver _ _ done =>
    Labelled st c.since ver ∧ ∀ item ∈ done, ItemHolds st c.since c.userID ver item
  | .checks ver todo done =>
    Labelled st c.since ver ∧ ∀ item ∈ todo ++ done, ItemHolds st c.since c.userID ver item
  | .stores ver todo done =>
    Labelled st c.since ver ∧ ∀ item ∈ todo ++ done, ItemHolds st c.since c.userID ver item
  | .answered ver items =>
    ∀ item ∈ items, ItemHolds st c.since c.userID ver item

def FlowHolds (st : State) : Flow → Prop
  | .allowed c => AllowedHolds st c
  | .batch c => BatchHolds st c
  | .write (.requests _) => True
  | .write (.bump finished) => finished ≤ st.timeline.writes

/-! ### What time and other calls leave alone -/

structure Later (pre post : State) : Prop where
  timeline : pre.timeline.Later post.timeline
  returned : pre.returned ≤ post.returned

variable {item : Item} {f : Flow}

section Later

variable {pre post st : State} {since ver : Nat} {uid : UserID}
  {obj : Permission} {cached : CachedValue}

theorem Truthful.later (truthful : Truthful pre.timeline uid obj cached)
    (later : Later pre post) (past : cached.seen ≤ pre.timeline.writes) :
    Truthful post.timeline uid obj cached := by
  unfold Truthful
  rw [later.timeline.states cached.seen past]
  exact truthful

theorem Answered.later (answered : Answered pre.timeline uid obj ver cached)
    (later : Later pre post) : Answered post.timeline uid obj ver cached :=
  ⟨answered.made.later later.timeline, answered.truthful.later later answered.made.past⟩

theorem Labelled.later (labelled : Labelled pre since ver) (later : Later pre post) :
    Labelled post since ver where
  known := Nat.le_trans labelled.known later.timeline.version
  since := by
    rw [later.timeline.bumpedAt ver labelled.known]
    exact labelled.since

theorem Rests.later (rests : Rests pre since uid obj cached)
    (later : Later pre post) : Rests post since uid obj cached :=
  ⟨rests.since, Nat.le_trans rests.past later.timeline.writes,
    rests.truthful.later later rests.past⟩

theorem ItemHolds.later (holds : ItemHolds pre since uid ver item)
    (later : Later pre post) : ItemHolds post since uid ver item := by
  cases item with
  | denied _ => trivial
  | ask _ => trivial
  | checked obj verdict seen =>
    refine ⟨holds.1.later later.timeline, ?_⟩
    rw [later.timeline.states seen holds.1.past]
    exact holds.2
  | valued obj cached => exact Rests.later holds later

theorem FlowHolds.later (holds : FlowHolds pre f) (later : Later pre post) : FlowHolds post f := by
  cases f with
  | allowed c =>
    rcases c with ⟨uid, p, resolving, since, point⟩
    cases point with
    | catalogue | version obj => exact Nat.le_trans holds later.returned
    | lookup obj ver | check obj ver => exact Labelled.later holds later
    | store obj ver cached => exact ⟨holds.1.later later, holds.2.later later⟩
    | answered verdict source =>
      cases source with
      | none => trivial
      | some source => exact ⟨holds.1.later later, holds.2⟩
  | batch c =>
    rcases c with ⟨uid, perms, since, point⟩
    cases point with
    | version => exact Nat.le_trans holds later.returned
    | tenantStatus ver | userStatus ver | catalogue ver =>
      exact Labelled.later holds later
    | lookups ver known todo done | checks ver todo done | stores ver todo done =>
      exact ⟨holds.1.later later, fun item mem => (holds.2 item mem).later later⟩
    | answered ver items => exact fun item mem => (holds item mem).later later
  | write point =>
    cases point with
    | requests rest => trivial
    | bump finished => exact Nat.le_trans holds later.timeline.writes

theorem Later.of_same (timeline : post.timeline = pre.timeline)
    (returned : post.returned = pre.returned) : Later pre post :=
  ⟨timeline ▸ Timeline.Later.refl, Nat.le_of_eq returned.symm⟩

end Later

/-! ### Single accesses -/

section Accesses

variable {st post : State} {since ver : Nat} {uid : UserID} {obj : Permission}
  {cached : CachedValue} {missing : Bool}

theorem Coherent.store (coherent : Coherent st)
    (answered : Answered st.timeline uid obj ver cached) :
    Coherent (st.store uid obj ver cached) :=
  { coherent with
    entries := fun otherID other label e stored => by
      rcases ExpiringMap.set_apply_eq_some stored with ⟨isKey, rfl⟩ | ⟨-, old⟩
      · cases isKey
        exact answered
      · exact coherent.entries otherID other label e old }

theorem Coherent.labelled (coherent : Coherent st) (began : since ≤ st.returned) :
    Labelled st since st.tenant.version := by
  refine ⟨Nat.le_of_eq coherent.version.symm, ?_⟩
  grind [version, returned]

/-- A value found under the version of a call rests on tuples the call may answer from. -/
theorem Coherent.rests_of_lookup (coherent : Coherent st) (labelled : Labelled st since ver)
    (found : (if missing then none else st.lookup uid obj ver) = some cached) :
    Rests st since uid obj cached := by
  split at found
  case isTrue => cases found
  case isFalse =>
    obtain ⟨e, stored, -, rfl⟩ := (ExpiringMap.get_eq_some_iff _ _ _ _).mp found
    have answered := coherent.entries uid obj ver e stored
    exact ⟨Nat.le_trans labelled.since answered.made.fresh, answered.made.past, answered.truthful⟩

theorem Coherent.checked (coherent : Coherent st) (labelled : Labelled st since ver) :
    st.timeline.Made ver (st.check uid obj).2 ∧ ((st.check uid obj).1 = true ↔
        Granted (st.timeline.states (st.check uid obj).2) uid obj) := by
  refine ⟨coherent.sound.made labelled.known, ?_⟩
  have current : st.timeline.states st.timeline.writes = st.tenant.tuples :=
    coherent.tuples
  simp [State.check, current]

theorem Rests.of_made (labelled : Labelled st since ver)
    (answered : Answered st.timeline uid obj ver cached) :
    Rests st since uid obj cached :=
  ⟨Nat.le_trans labelled.since answered.made.fresh, answered.made.past, answered.truthful⟩

theorem boolStr_ne_zero {verdict : Bool} : boolStr verdict ≠ .zero ↔ verdict = true := by
  cases verdict <;> simp [boolStr]

theorem grantingRole_ne_zero (d : TenantData) (uid : UserID) (p : Permission) :
    d.grantingRole uid p ≠ .zero := by
  unfold TenantData.grantingRole
  simp only
  split <;> simp

theorem State.batchValue_ne_zero {verdict : Bool} :
    st.batchValue uid obj verdict ≠ .zero ↔ verdict = true := by
  grind [grantingRole_ne_zero, batchValue]

/-- What an access of a check leaves. -/
structure Accessed (pre post : State) : Prop where
  coherent : Coherent post
  timeline : post.timeline = pre.timeline
  returned : post.returned = pre.returned

theorem Accessed.refl (coherent : Coherent st) : Accessed st st := ⟨coherent, rfl, rfl⟩

theorem Accessed.store (coherent : Coherent st)
    (answered : Answered st.timeline uid obj ver cached) :
    Accessed st (if missing then st else st.store uid obj ver cached) := by
  cases missing with
  | true => exact Accessed.refl coherent
  | false => exact ⟨coherent.store answered, rfl, rfl⟩

theorem Accessed.later (accessed : Accessed st post) : Later st post :=
  Later.of_same accessed.timeline accessed.returned

theorem allowedAct_holds {c : AllowedCall} {point : AllowedPoint} (coherent : Coherent st)
    (holds : AllowedHolds st c)
    (acted : allowedAct st missing c = some (post, point)) :
    Accessed st post ∧ AllowedHolds post { c with point := point } := by
  rcases c with ⟨uid, p, resolving, since, init⟩
  cases init with
  | catalogue =>
    simp only [allowedAct] at acted
    split at acted <;> cases acted
    · exact ⟨Accessed.refl coherent, trivial⟩
    · exact ⟨Accessed.refl coherent, holds⟩
  | version obj =>
    cases acted
    exact ⟨Accessed.refl coherent, coherent.labelled holds⟩
  | lookup obj ver =>
    simp only [allowedAct] at acted
    rcases found : (if missing then none else st.lookup uid obj ver) with _ | cached
    · grind [Accessed.refl, AllowedHolds]
    · rw [found] at acted
      cases acted
      exact ⟨Accessed.refl coherent, coherent.rests_of_lookup holds found, rfl⟩
  | check obj ver =>
    cases acted
    obtain ⟨made, truth⟩ := @Coherent.checked st since ver uid obj coherent holds
    exact ⟨Accessed.refl coherent, holds, made, boolStr_ne_zero.trans truth⟩
  | store obj ver cached =>
    cases acted
    have accessed := @Accessed.store st ver uid obj cached missing coherent holds.2
    exact ⟨accessed, (Rests.of_made holds.1 holds.2).later accessed.later, rfl⟩
  | answered verdict source => cases acted

theorem forall_mem_snoc {items : List Item} {holds : Item → Prop}
    (all : ∀ other ∈ items, holds other) (last : holds item) :
    ∀ other ∈ items ++ [item], holds other := by
  grind

theorem lookupItem_holds {known : List Permission} {p : Permission}
    (coherent : Coherent st) (labelled : Labelled st since ver) :
    ItemHolds st since uid ver (lookupItem st missing uid ver known p) := by
  unfold lookupItem
  split
  case h_1 => trivial
  case h_2 obj _ =>
    rcases found : (if missing then none else st.lookup uid obj ver) with _ | cached
    · trivial
    · exact coherent.rests_of_lookup labelled found

theorem checkItem_holds (coherent : Coherent st) (labelled : Labelled st since ver)
    (holds : ItemHolds st since uid ver item) :
    ItemHolds st since uid ver (checkItem st uid item) := by
  cases item with
  | ask obj => exact coherent.checked labelled
  | denied why | checked obj verdict seen | valued obj cached => exact holds

theorem storeItem_holds {item : Item} (coherent : Coherent st)
    (labelled : Labelled st since ver) (holds : ItemHolds st since uid ver item) :
    Accessed st (storeItem st missing uid ver item).1
      ∧ ItemHolds (storeItem st missing uid ver item).1 since uid ver
        (storeItem st missing uid ver item).2 := by
  cases item with
  | ask obj | denied why | valued obj cached => exact ⟨Accessed.refl coherent, holds⟩
  | checked obj verdict seen =>
    have answered : Answered st.timeline uid obj ver ⟨st.batchValue uid obj verdict, seen⟩ :=
      ⟨holds.1, State.batchValue_ne_zero.trans holds.2⟩
    have accessed := @Accessed.store st ver uid obj _ missing coherent answered
    exact ⟨accessed, (Rests.of_made labelled answered).later accessed.later⟩

theorem denyAll_holds {perms : List Permission} {why : DecisionReason} :
    ∀ item ∈ denyAll perms why, ItemHolds st since uid ver item := by
  intro item mem
  obtain ⟨-, -, rfl⟩ := List.mem_map.mp mem
  trivial

theorem batchAct_holds {c : BatchCall} {point : BatchPoint} (coherent : Coherent st)
    (holds : BatchHolds st c) (acted : batchAct st missing c = some (post, point)) :
    Accessed st post ∧ BatchHolds post { c with point := point } := by
  rcases c with ⟨uid, perms, since, init⟩
  cases init with
  | version =>
    cases acted
    exact ⟨Accessed.refl coherent, coherent.labelled holds⟩
  | tenantStatus ver | userStatus ver =>
    grind [Accessed.refl, denyAll_holds, BatchHolds, batchAct]
  | catalogue ver =>
    grind [Accessed.refl, BatchHolds, batchAct]
  | lookups ver known todo done =>
    cases todo with
    | nil =>
      cases acted
      exact ⟨Accessed.refl coherent, holds.1, by simpa using holds.2⟩
    | cons p rest =>
      cases acted
      exact ⟨Accessed.refl coherent, holds.1,
        forall_mem_snoc holds.2 (lookupItem_holds coherent holds.1)⟩
  | checks ver todo done =>
    cases todo with
    | nil =>
      cases acted
      exact ⟨Accessed.refl coherent, holds.1, by simpa using holds.2⟩
    | cons item rest =>
      cases acted
      refine ⟨Accessed.refl coherent, holds.1, fun other mem => ?_⟩
      rw [← List.append_assoc] at mem
      refine forall_mem_snoc (fun old isOld => holds.2 old ?_)
        (checkItem_holds coherent holds.1 (holds.2 item (by simp))) other mem
      simp only [List.mem_append, List.mem_cons] at isOld ⊢
      tauto
  | stores ver todo done =>
    cases todo with
    | nil =>
      cases acted
      exact ⟨Accessed.refl coherent, fun item mem =>
        holds.2 item (List.mem_append_right _ mem)⟩
    | cons item rest =>
      cases acted
      obtain ⟨accessed, stored⟩ := @storeItem_holds st since ver uid missing item
        coherent holds.1 (holds.2 item (by simp))
      refine ⟨accessed, holds.1.later accessed.later, fun other mem => ?_⟩
      rw [← List.append_assoc] at mem
      refine forall_mem_snoc (fun old isOld => ?_) stored other mem
      refine (holds.2 old ?_).later accessed.later
      simp only [List.mem_append, List.mem_cons] at isOld ⊢
      tauto
  | answered ver items => cases acted

theorem Coherent.request (coherent : Coherent st) (changes : List (Edit Tuple)) :
    Coherent (st.request changes) ∧ Later st (st.request changes) := by
  have later : Later st (st.request changes) := ⟨Timeline.later_write _, Nat.le_refl _⟩
  refine ⟨⟨coherent.sound.write _, Timeline.current_write _, coherent.version,
    coherent.returned, fun uid obj ver e stored => ?_⟩, later⟩
  exact (coherent.entries uid obj ver e stored).later later

theorem Coherent.bump {finished : Nat} (coherent : Coherent st)
    (done : finished ≤ st.timeline.writes) :
    Coherent (st.bump finished) ∧ Later st (st.bump finished) := by
  have later : Later st (st.bump finished) :=
    ⟨Timeline.later_bump, Nat.le_max_left _ _⟩
  refine ⟨⟨coherent.sound.bump, coherent.tuples, congrArg (· + 1) coherent.version, ?_,
    fun uid obj ver e stored => ?_⟩, later⟩
  · have came : st.timeline.bump.bumpedAt st.timeline.bump.version
        = st.timeline.writes := by
      simp [Timeline.bump]
    show max st.returned finished ≤ st.timeline.bump.bumpedAt st.timeline.bump.version
    rw [came]
    exact Nat.max_le.mpr ⟨Nat.le_trans coherent.returned coherent.sound.bounded, done⟩
  · exact (coherent.entries uid obj ver e stored).later later

theorem writeAct_holds {point : WritePoint} (coherent : Coherent st)
    (holds : FlowHolds st (.write point)) :
    Coherent (writeAct st point).1 ∧ Later st (writeAct st point).1
      ∧ ∀ next, (writeAct st point).2 = some next →
        FlowHolds (writeAct st point).1 (.write next) := by
  cases point with
  | requests rest =>
    match rest with
    | [] =>
      refine ⟨coherent, Later.of_same rfl rfl, ?_⟩
      intro next isNext
      cases isNext
      exact Nat.le_refl _
    | [changes] =>
      obtain ⟨kept, later⟩ := coherent.request changes
      refine ⟨kept, later, ?_⟩
      intro next isNext
      cases isNext
      exact Nat.le_refl _
    | changes :: next :: rest =>
      grind [Coherent.request, writeAct, FlowHolds]
  | bump finished =>
    grind [Coherent.bump, writeAct, FlowHolds]

end Accesses

/-! ### Every interleaving -/

section Interleavings

variable {st post : State}

theorem act_holds {missing : Bool} {rest : Option Flow} (coherent : Coherent st)
    (holds : FlowHolds st f) (acted : program.act st f missing = some (post, rest)) :
    Coherent post ∧ Later st post ∧ ∀ next, rest = some next → FlowHolds post next := by
  cases f with
  | allowed c =>
    obtain ⟨⟨reached, point⟩, isOutcome, same⟩ := Option.map_eq_some_iff.mp acted
    grind [allowedAct_holds, Accessed.coherent, Accessed.later, FlowHolds]
  | batch c =>
    obtain ⟨⟨reached, point⟩, isOutcome, same⟩ := Option.map_eq_some_iff.mp acted
    grind [batchAct_holds, Accessed.coherent, Accessed.later, FlowHolds]
  | write point =>
    cases acted
    obtain ⟨kept, later, continues⟩ := writeAct_holds coherent holds
    simp_all

theorem starts_holds (started : starts st f = true) : FlowHolds st f := by
  cases f with
  | allowed c =>
    rcases c with ⟨uid, p, resolving, since, point⟩
    simp only [starts, Bool.and_eq_true, beq_iff_eq] at started
    obtain ⟨rfl, rfl⟩ := started
    cases resolving <;> exact Nat.le_refl _
  | batch c =>
    rcases c with ⟨uid, perms, since, point⟩
    simp only [starts, Bool.and_eq_true, beq_iff_eq] at started
    obtain ⟨rfl, rfl⟩ := started
    exact Nat.le_refl _
  | write point =>
    cases point with
    | requests rest => trivial
    | bump finished => cases started

/-- Changes of rows and the passage of time touch neither tuples nor versions. -/
theorem environment_holds {event : Event} (coherent : Coherent st)
    (moved : program.environment st event = some post) :
    Coherent post ∧ Later st post := by
  cases event with
  | directory tn | advance elapsed =>
    cases moved
    exact ⟨{ coherent with }, Later.of_same rfl rfl⟩

theorem freshness_obligations : program.Obligations Coherent FlowHolds fun _ _ => True where
  entry := fun _ _ _ started => starts_holds started
  act := fun pl slot f missing post rest coherent locals held _ acted => by
    obtain ⟨kept, later, continues⟩ := act_holds coherent (locals slot f held) acted
    grind [FlowHolds.later, Pool.All]
  environment := fun pl event post coherent locals _ moved => by
    obtain ⟨kept, later⟩ := environment_holds coherent moved
    grind [FlowHolds.later, Pool.All]

theorem Coherent.initial (tn : TenantData) (now : Int) : Coherent (State.initial tn now) :=
  ⟨Timeline.begin_sound _ _, rfl, rfl, Nat.le_refl _, fun _ _ _ _ none => by cases none⟩

/-- The tenant before any call. -/
def idle (tn : TenantData) (now : Int) : Pool State Flow :=
  ⟨State.initial tn now, fun _ => none⟩

/-- How a call reads a cached text: a batch takes a role's name for a grant, `Allowed` does not. -/
def Flow.reads (value : Stored) : Flow → Bool
  | .allowed _ => value == .one
  | .batch _ => value != .zero
  | .write _ => false

theorem rests_of_answer (holds : FlowHolds st f) {answer : Answer} (given : answer ∈ f.answers) :
    Rests st f.since f.userID answer.object answer.cached
      ∧ answer.verdict = f.reads answer.cached.value := by
  cases f with
  | allowed c =>
    rcases c with ⟨uid, p, resolving, since, point⟩
    cases point with
    | answered verdict source =>
      cases source with
      | none => cases given
      | some source =>
        rw [List.mem_singleton.mp given]
        exact holds
    | _ => cases given
  | batch c =>
    rcases c with ⟨uid, perms, since, point⟩
    cases point with
    | answered ver items =>
      obtain ⟨item, mem, isAnswer⟩ := List.mem_filterMap.mp given
      have itemHolds := holds item mem
      cases item with
      | valued obj cached =>
        cases isAnswer
        refine ⟨itemHolds, ?_⟩
        simp only [Item.decision, Flow.reads]
        split_ifs with isZero <;> simp [isZero]
      | _ => cases isAnswer
    | _ => cases given
  | write point => cases given

theorem ne_zero_of_reads {value : Stored} (reads : f.reads value = true) : value ≠ .zero := by
  rintro rfl
  cases f <;> cases reads

theorem role_of_refused {value : Stored} {answer : Answer} (reads : f.reads value = false)
    (granted : value ≠ .zero) (given : answer ∈ f.answers) :
    ∃ c role, f = .allowed c ∧ value = .role role := by
  cases f with
  | allowed c =>
    cases value with
    | zero => exact absurd rfl granted
    | one => cases reads
    | role role => exact ⟨c, role, rfl, rfl⟩
  | batch c => exact absurd (bne_eq_false_iff_eq.mp reads) granted
  | write point => cases given

/-- A check began when `count` requests or more were known to have been made. -/
def Flow.BeganAfter (count : Nat) : Flow → Prop
  | .allowed c => count ≤ c.since
  | .batch c => count ≤ c.since
  | .write _ => True

variable {count : Nat}

theorem act_beganAfter {missing : Bool} {rest : Option Flow} (began : f.BeganAfter count)
    (acted : program.act st f missing = some (post, rest)) :
    ∀ next, rest = some next → next.BeganAfter count := by
  intro next isNext
  cases f with
  | allowed c | batch c =>
    obtain ⟨out, -, same⟩ := Option.map_eq_some_iff.mp acted
    cases same
    cases isNext
    exact began
  | write point =>
    cases acted
    obtain ⟨point, -, rfl⟩ := Option.map_eq_some_iff.mp isNext
    trivial

theorem starts_beganAfter (known : count ≤ st.returned) (started : starts st f = true) :
    f.BeganAfter count := by
  cases f with
  | allowed c | batch c =>
    simp only [starts, Bool.and_eq_true, beq_iff_eq] at started
    exact Nat.le_trans known (Nat.le_of_eq started.1.symm)
  | write point => trivial

/-- From some moment on: `count` requests are known to have been made. -/
structure Known (count : Nat) (pl : Pool State Flow) : Prop where
  coherent : Coherent pl.shared
  flows : pl.All FlowHolds
  returned : count ≤ pl.shared.returned

variable (pl : Pool State Flow) (move : Move Flow Bool Event) (next : Pool State Flow)

theorem step_known (holds : Known count pl) (taken : program.step pl move = some next) :
    Known count next := by
  obtain ⟨coherent, flows⟩ := Program.step_preserves freshness_obligations pl move next
    ⟨holds.coherent, holds.flows⟩ trivial taken
  refine ⟨coherent, flows, ?_⟩
  cases move with
  | spawn slot f =>
    obtain ⟨-, -, rfl⟩ := Program.step_spawn taken
    exact holds.returned
  | act slot missing =>
    obtain ⟨f, sh, rest, held, acted, rfl⟩ := Program.step_act taken
    obtain ⟨-, later, -⟩ := act_holds holds.coherent (holds.flows slot f held) acted
    exact Nat.le_trans holds.returned later.returned
  | drop slot =>
    cases taken
    exact holds.returned
  | environment event =>
    obtain ⟨sh, moved, rfl⟩ := Program.step_environment taken
    exact Nat.le_trans holds.returned (environment_holds holds.coherent moved).2.returned

/-- Whatever runs in the slot began after that moment. -/
structure SlotAfter (slot count : Nat) (pl : Pool State Flow) : Prop where
  known : Known count pl
  began : ∀ f, pl.flows slot = some f → f.BeganAfter count

theorem step_slotAfter {slot : Nat} (holds : SlotAfter slot count pl)
    (taken : program.step pl move = some next) : SlotAfter slot count next := by
  refine ⟨step_known pl move next holds.known taken, fun last isLast => ?_⟩
  cases move with
  | spawn other f =>
    obtain ⟨-, started, rfl⟩ := Program.step_spawn taken
    rcases Pool.put_eq_some isLast with ⟨-, isFlow⟩ | ⟨-, pre⟩
    · cases isFlow
      exact starts_beganAfter holds.known.returned started
    · exact holds.began last pre
  | act other missing =>
    obtain ⟨f, sh, rest, held, acted, rfl⟩ := Program.step_act taken
    rcases Pool.put_eq_some isLast with ⟨rfl, isRest⟩ | ⟨-, pre⟩
    · exact act_beganAfter (holds.began f held) acted last isRest
    · exact holds.began last pre
  | drop other =>
    cases taken
    grind [Pool.put_eq_some, SlotAfter.began]
  | environment event =>
    grind [SlotAfter.began, Program.step]

theorem Flow.BeganAfter.le_since (began : f.BeganAfter count) {answer : Answer}
    (given : answer ∈ f.answers) : count ≤ f.since := by
  cases f with
  | allowed c => exact began
  | batch c => exact began
  | write point => cases given

/-- In every interleaving: a write of the client returns in `returning`, later a call begins in
`beginning`, and what a call in that slot ever answers was computed from the tuples of a moment
no earlier than the write's last request: it grants only what they grant, and refuses what they
grant only where `Allowed` reads the name of a role. -/
theorem answers_follow_returned_write {tn : TenantData} {now : Int}
    {pre between rest : List (Move Flow Bool Event)}
    {returning returned beginning begun fin : Pool State Flow} {writer slot finished : Nat}
    {missing : Bool} {f last : Flow} {answer : Answer}
    (reaches : run program.step (idle tn now) pre = some returning)
    (atBump : returning.flows writer = some (.write (.bump finished)))
    (returns : program.step returning (.act writer missing) = some returned)
    (continues : run program.step returned between = some beginning)
    (begins : program.step beginning (.spawn slot f) = some begun)
    (ends : run program.step begun rest = some fin)
    (held : fin.flows slot = some last) (given : answer ∈ last.answers) :
    finished ≤ answer.cached.seen ∧ answer.cached.seen ≤ fin.shared.timeline.writes
      ∧ (answer.cached.value ≠ .zero ↔
        Granted (fin.shared.timeline.states answer.cached.seen) last.userID answer.object)
      ∧ (answer.verdict = true →
        Granted (fin.shared.timeline.states answer.cached.seen) last.userID answer.object)
      ∧ (answer.verdict = false →
        Granted (fin.shared.timeline.states answer.cached.seen) last.userID answer.object →
        ∃ c role, last = .allowed c ∧ answer.cached.value = .role role) := by
  have atReturn : finished ≤ returned.shared.returned := by
    obtain ⟨f, sh, remaining, isFlow, acted, rfl⟩ := Program.step_act returns
    rw [atBump] at isFlow
    cases isFlow
    cases acted
    exact Nat.le_max_right _ _
  have reached := Program.run_preserves freshness_obligations
    ⟨Coherent.initial tn now, fun _ _ none => by cases none⟩
    (everyStep_of_forall_mem (fun _ _ => trivial) _) reaches
  obtain ⟨coherent, flows⟩ := Program.step_preserves freshness_obligations _ _ _ reached trivial
    returns
  have atBeginning : Known finished beginning :=
    run_preserves_always step_known ⟨coherent, flows, atReturn⟩ continues
  -- the slot is free when the call begins, so it is followed from there
  obtain ⟨free, -, -⟩ := Program.step_spawn begins
  have inSlot : SlotAfter slot finished beginning := by
    refine ⟨atBeginning, fun other isOther => ?_⟩
    rw [free] at isOther
    cases isOther
  have post := run_preserves_always (fun _ _ _ => step_slotAfter _ _ _)
    (step_slotAfter _ _ _ inSlot begins) ends
  obtain ⟨rests, reads⟩ := rests_of_answer (post.known.flows slot last held) given
  refine ⟨Nat.le_trans ((post.began last held).le_since given) rests.since, rests.past,
    rests.truthful, fun allowed => rests.truthful.mp ?_, fun refused granted => ?_⟩
  · rw [allowed] at reads
    exact ne_zero_of_reads reads.symm
  · rw [refused] at reads
    exact role_of_refused reads.symm (rests.truthful.mpr granted) given

end Interleavings

/-! A member may read documents; the grant is removed, and then the member is checked. -/

def docsRead : Permission := ⟨"", "docs", "read"⟩

def docsMembers : TenantData := TenantData.withMember 7 [docsRead] [docsRead] []

def removal : List (Move Flow Bool Event) :=
  [.spawn 0 (.write (.requests [[.remove (.grant "member" docsRead)]])), .act 0 false]

def memberCheck : Flow := .allowed ⟨7, docsRead, false, 1, .version docsRead⟩

def checkSteps : List (Move Flow Bool Event) := List.replicate 4 (.act 1 false)

theorem check_after_removal_is_fresh : ∃ (fin : Pool State Flow) (last : Flow) (answer : Answer),
      run program.step (idle docsMembers 0)
          (removal ++ [.act 0 false, .spawn 1 memberCheck] ++ checkSteps) = some fin
        ∧ fin.flows 1 = some last ∧ answer ∈ last.answers ∧ answer.verdict = false
        ∧ 1 ≤ answer.cached.seen :=
  ⟨_, _, _, rfl, rfl, List.mem_cons_self, rfl,
    (@answers_follow_returned_write docsMembers 0 removal [] checkSteps _ _ _ _ _ 0 1 1 false
      memberCheck _ _ rfl rfl rfl rfl rfl rfl rfl List.mem_cons_self).1⟩

end TangraAuth.Authz.DecisionCache
