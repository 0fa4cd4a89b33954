import TangraAuth.Authz.Freshness

/-!
Contract: checks in flight while nothing changes.

Owns: when `Allowed` of the client and of the decider, `Decide` and `BatchDecide`
give the verdict of the backend for the resolved permission, over every
interleaving, and the values of the shared cache that one of them misreads.

Does not own: checks that overlap a write.
-/

namespace TangraAuth.Authz.DecisionCache

open Library Store Accounts

/-! ### Right verdicts -/

/-- The permission object a call of `Allowed` is about. -/
def AllowedCall.target (c : AllowedCall) (tn : TenantData) : Option Permission :=
  if c.resolving then resolve tn.mirror.catalogue c.permission else some c.permission

/-- The verdict of the backend for the resolved object. -/
def Verdict (tn : TenantData) (uid : UserID) (target : Option Permission) (verdict : Bool) : Prop :=
  verdict = true ↔ ∃ obj, target = some obj ∧ Granted tn.tuples uid obj

/-- The verdicts of a call that has returned are those of the backend. -/
def Flow.Right (tn : TenantData) : Flow → Prop
  | .allowed c =>
    match c.point with
    | .answered verdict _ => Verdict tn c.userID (c.target tn) verdict
    | _ => True
  | .batch c =>
    match c.point with
    | .answered ver items =>
      List.Forall₂ (fun p item =>
        Verdict tn c.userID (resolve tn.mirror.catalogue p)
          (Item.decision ver item).allowed) c.permissions items
    | _ => True
  | .write _ => True

/-- The move starts no write of tuples and changes no row. -/
def unchanging : Move Flow Bool Event → Bool
  | .spawn _ (.write _) => false
  | .environment (.directory _) => false
  | _ => true

/-- No call of `Allowed` looks up an object for which a role is cached, and no batch is decided
for a user or tenant that is not active. -/
def Avoiding (pl : Pool State Flow) : Move Flow Bool Event → Prop
  | .act slot _ =>
    (∀ c obj ver s seen, pl.flows slot = some (.allowed c) → c.point = .lookup obj ver →
      pl.shared.lookup c.userID obj ver ≠ some ⟨.role s, seen⟩)
    ∧ ∀ c ver, pl.flows slot = some (.batch c) →
      (c.point = .tenantStatus ver → pl.shared.tenant.status = .active)
        ∧ (c.point = .userStatus ver → pl.shared.tenant.userStatus c.userID = some .active)
  | _ => True

/-! ### The invariant -/

/-- The value is the backend's answer. -/
def ValueRight (tn : TenantData) (uid : UserID) (obj : Permission) (val : Stored) : Prop :=
  val ≠ .zero ↔ Granted tn.tuples uid obj

/-- The tenant stays as it is, and what is cached under its version is right. -/
structure Still (tn : TenantData) (st : State) : Prop where
  isTenant : st.tenant = tn
  entries : ∀ uid obj e, st.entries (uid, obj, tn.version) = some e →
      ValueRight tn uid obj e.value.value

def AllowedRight (tn : TenantData) (c : AllowedCall) : Prop :=
  match c.point with
  | .catalogue => c.resolving = true
  | .version obj => c.target tn = some obj
  | .lookup obj ver => c.target tn = some obj ∧ ver = tn.version
  | .check obj ver => c.target tn = some obj ∧ ver = tn.version
  | .store obj ver cached =>
    (c.target tn = some obj ∧ ver = tn.version)
      ∧ cached.value = boolStr (decide (Granted tn.tuples c.userID obj))
  | .answered verdict _ => Verdict tn c.userID (c.target tn) verdict

def ItemRight (tn : TenantData) (uid : UserID) (p : Permission) : Item → Prop
  | .denied _ => resolve tn.mirror.catalogue p = none
  | .ask obj => resolve tn.mirror.catalogue p = some obj
  | .checked obj verdict _ =>
    resolve tn.mirror.catalogue p = some obj ∧ (verdict = true ↔ Granted tn.tuples uid obj)
  | .valued obj cached =>
    resolve tn.mirror.catalogue p = some obj ∧ ValueRight tn uid obj cached.value

def Item.isAsked : Item → Bool
  | .ask _ => true
  | _ => false

/-- An item after the backend was asked. -/
def CheckedRight (tn : TenantData) (uid : UserID) (p : Permission) (item : Item) :
    Prop :=
  ItemRight tn uid p item ∧ item.isAsked = false

/-- An item as the batch returns it. -/
def FinalRight (tn : TenantData) (uid : UserID) (ver : Nat) (p : Permission) (item : Item) : Prop :=
  Verdict tn uid (resolve tn.mirror.catalogue p) (item.decision ver).allowed

/-- The items that were done and those to do, each beside its permission. -/
def Split {α : Type} (perms : List Permission) (isDone : Permission → Item → Prop)
    (isTodo : Permission → α → Prop) (done : List Item) (todo : List α) : Prop :=
  ∃ front back, perms = front ++ back ∧ List.Forall₂ isDone front done
    ∧ List.Forall₂ isTodo back todo

def BatchRight (tn : TenantData) (c : BatchCall) : Prop :=
  match c.point with
  | .version => True
  | .tenantStatus ver => ver = tn.version
  | .userStatus ver => ver = tn.version
  | .catalogue ver => ver = tn.version
  | .lookups ver known todo done =>
    ver = tn.version ∧ known = tn.mirror.catalogue
      ∧ Split c.permissions (ItemRight tn c.userID) (· = ·) done todo
  | .checks ver todo done =>
    ver = tn.version ∧ Split c.permissions (CheckedRight tn c.userID)
      (ItemRight tn c.userID) done todo
  | .stores ver todo done =>
    ver = tn.version ∧ Split c.permissions (FinalRight tn c.userID ver)
      (CheckedRight tn c.userID) done todo
  | .answered ver items =>
    List.Forall₂ (FinalRight tn c.userID ver) c.permissions items

def FlowRight (tn : TenantData) : Flow → Prop
  | .allowed c => AllowedRight tn c
  | .batch c => BatchRight tn c
  | .write _ => False

variable {item : Item}

section Split

variable {α : Type} {perms : List Permission} {isDone : Permission → Item → Prop}
  {isTodo : Permission → α → Prop} {done : List Item} {todo : List α}

/-- One item more is done. -/
theorem Split.move {head : α} (split : Split perms isDone isTodo done (head :: todo))
    (moved : ∀ p, isTodo p head → isDone p item) :
    Split perms isDone isTodo (done ++ [item]) todo := by
  obtain ⟨front, back, rfl, areDone, areTodo⟩ := split
  cases areTodo with
  | cons first others =>
    refine ⟨_ ++ [_], _, ?_, List.rel_append areDone (.cons (moved _ first) .nil), others⟩
    rw [List.append_assoc]
    rfl

theorem Split.head {head : α} (split : Split perms isDone isTodo done (head :: todo)) :
    ∃ p, isTodo p head := by
  obtain ⟨front, back, -, -, areTodo⟩ := split
  cases areTodo with
  | cons first _ => exact ⟨_, first⟩

theorem Split.finish (split : Split perms isDone isTodo done []) :
    List.Forall₂ isDone perms done := by
  obtain ⟨front, back, rfl, areDone, areTodo⟩ := split
  cases areTodo
  rw [List.append_nil]
  exact areDone

theorem Split.start {todo : List Item} {isTodo : Permission → Item → Prop}
    (all : List.Forall₂ isTodo perms todo) : Split perms isDone isTodo [] todo :=
  ⟨[], perms, rfl, .nil, all⟩

end Split

/-! ### Single accesses -/

section Accesses

variable {tn : TenantData} {st post : State} {uid : UserID} {obj : Permission}
  {p : Permission} {cached : CachedValue} {missing : Bool} {ver : Nat}

theorem Still.store (still : Still tn st) (right : ValueRight tn uid obj cached.value) :
    Still tn (st.store uid obj ver cached) where
  isTenant := still.isTenant
  entries := fun otherID other e stored => by
    rcases ExpiringMap.set_apply_eq_some stored with ⟨isKey, rfl⟩ | ⟨-, old⟩
    · cases isKey
      exact right
    · exact still.entries otherID other e old

theorem Still.store_unless (still : Still tn st) (right : ValueRight tn uid obj cached.value) :
    Still tn (if missing then st else st.store uid obj ver cached) := by
  cases missing with
  | true => exact still
  | false => exact still.store right

theorem Still.lookup (still : Still tn st) (found : st.lookup uid obj tn.version = some cached) :
    ValueRight tn uid obj cached.value := by
  obtain ⟨e, stored, -, rfl⟩ := (ExpiringMap.get_eq_some_iff _ _ _ _).mp found
  exact still.entries uid obj e stored

theorem lookup_of_found (found : (if missing then none else st.lookup uid obj ver) = some cached) :
    st.lookup uid obj ver = some cached := by
  split at found
  case isTrue => cases found
  case isFalse => exact found

theorem verdict_of_one {target : Option Permission} (isTarget : target = some obj)
    (right : ValueRight tn uid obj cached.value)
    (noRole : ∀ s, cached.value ≠ .role s) :
    Verdict tn uid target (cached.value == .one) := by
  unfold Verdict
  unfold ValueRight at right
  rw [isTarget]
  simp only [Option.some.injEq, exists_eq_left']
  rw [← right]
  cases isValue : cached.value with
  | zero => simp
  | one => simp
  | role s => exact absurd isValue (noRole s)

theorem boolStr_right : ValueRight tn uid obj (boolStr (decide (Granted tn.tuples uid obj))) :=
  boolStr_ne_zero.trans decide_eq_true_iff

theorem allowedAct_right {c : AllowedCall} {point : AllowedPoint} (still : Still tn st)
    (right : AllowedRight tn c)
    (avoiding : ∀ obj ver s seen, c.point = .lookup obj ver →
      st.lookup c.userID obj ver ≠ some ⟨.role s, seen⟩)
    (acted : allowedAct st missing c = some (post, point)) :
    Still tn post ∧ AllowedRight tn { c with point := point } := by
  rcases c with ⟨uid, p, resolving, since, init⟩
  have isT := still.isTenant
  cases init with
  | catalogue =>
    have isResolving : resolving = true := right
    subst isResolving
    simp only [allowedAct, isT] at acted
    split at acted <;> cases acted
    case h_1 unknown =>
      refine ⟨still, ?_⟩
      simp [AllowedRight, Verdict, AllowedCall.target, unknown]
    case h_2 obj known => exact ⟨still, known⟩
  | version obj =>
    cases acted
    exact ⟨still, right, by rw [isT]⟩
  | lookup obj ver =>
    obtain ⟨isTarget, rfl⟩ := right
    simp only [allowedAct] at acted
    rcases found : (if missing then none else st.lookup uid obj tn.version) with _ | cached
    · grind [AllowedRight, AllowedCall.target]
    · rw [found] at acted
      cases acted
      have isFound := lookup_of_found found
      refine ⟨still, verdict_of_one isTarget (still.lookup isFound) fun s isRole => ?_⟩
      refine avoiding obj tn.version s cached.seen rfl ?_
      rw [isFound, ← isRole]
  | check obj ver =>
    cases acted
    refine ⟨still, right, ?_⟩
    simp only [isT]
  | store obj ver cached =>
    cases acted
    have isValue := right.2
    have valueRight : ValueRight tn uid obj cached.value := by
      rw [isValue]
      exact boolStr_right
    refine ⟨still.store_unless valueRight, verdict_of_one right.1.1 valueRight fun s => ?_⟩
    rw [isValue]
    unfold boolStr
    split <;> simp
  | answered verdict source => cases acted

theorem lookupItem_right (still : Still tn st) : ItemRight tn uid p
      (lookupItem st missing uid tn.version tn.mirror.catalogue p) := by
  unfold lookupItem
  split
  case h_1 unknown => exact unknown
  case h_2 obj known =>
    rcases found : (if missing then none else st.lookup uid obj tn.version) with _ | cached
    · exact known
    · exact ⟨known, still.lookup (lookup_of_found found)⟩

theorem checkItem_right (still : Still tn st) (right : ItemRight tn uid p item) :
    CheckedRight tn uid p (checkItem st uid item) := by
  cases item with
  | ask obj =>
    refine ⟨⟨right, ?_⟩, rfl⟩
    simp [still.isTenant]
  | denied why | checked obj verdict seen | valued obj cached => exact ⟨right, rfl⟩

theorem finalRight_of_valued (known : resolve tn.mirror.catalogue p = some obj)
    (right : ValueRight tn uid obj cached.value) :
    FinalRight tn uid ver p (.valued obj cached) := by
  unfold FinalRight Verdict
  unfold ValueRight at right
  rw [known]
  simp only [Option.some.injEq, exists_eq_left', Item.decision]
  rw [← right]
  split <;> simp_all

theorem finalRight_of_denied {why : DecisionReason}
    (unknown : resolve tn.mirror.catalogue p = none) :
    FinalRight tn uid ver p (.denied why) := by
  unfold FinalRight Verdict
  rw [unknown]
  simp [Item.decision]

theorem storeItem_still (still : Still tn st) (right : CheckedRight tn uid p item) :
    Still tn (storeItem st missing uid ver item).1
      ∧ FinalRight tn uid ver p (storeItem st missing uid ver item).2 := by
  cases item with
  | ask obj => cases right.2
  | denied why => exact ⟨still, finalRight_of_denied right.1⟩
  | valued obj cached => exact ⟨still, finalRight_of_valued right.1.1 right.1.2⟩
  | checked obj verdict seen =>
    have valueRight : ValueRight tn uid obj (st.batchValue uid obj verdict) :=
      State.batchValue_ne_zero.trans right.1.2
    exact ⟨still.store_unless valueRight, finalRight_of_valued right.1.1 valueRight⟩

theorem batchAct_right {c : BatchCall} {point : BatchPoint} (still : Still tn st)
    (right : BatchRight tn c)
    (active : ∀ ver, (c.point = .tenantStatus ver → st.tenant.status = .active)
        ∧ (c.point = .userStatus ver → st.tenant.userStatus c.userID = some .active))
    (acted : batchAct st missing c = some (post, point)) :
    Still tn post ∧ BatchRight tn { c with point := point } := by
  rcases c with ⟨uid, perms, since, init⟩
  cases init with
  | version =>
    cases acted
    exact ⟨still, congrArg TenantData.version still.isTenant⟩
  | tenantStatus ver =>
    simp only [batchAct, (active ver).1 rfl, if_true] at acted
    cases acted
    exact ⟨still, right⟩
  | userStatus ver =>
    simp only [batchAct, (active ver).2 rfl, if_true] at acted
    cases acted
    exact ⟨still, right⟩
  | catalogue ver =>
    cases acted
    refine ⟨still, right, by rw [still.isTenant], [], perms, rfl, .nil, ?_⟩
    exact List.forall₂_same.mpr fun _ _ => rfl
  | lookups ver known todo done =>
    grind [Split.start, Split.finish, Split.move, lookupItem_right, BatchRight, batchAct]
  | checks ver todo done =>
    grind [Split.start, Split.finish, Split.move, checkItem_right, BatchRight, batchAct]
  | stores ver todo done =>
    obtain ⟨rfl, split⟩ := right
    cases todo with
    | nil =>
      cases acted
      exact ⟨still, split.finish⟩
    | cons item rest =>
      cases acted
      obtain ⟨p, itemRight⟩ := split.head
      exact ⟨(storeItem_still still itemRight).1, rfl,
        split.move fun _ otherRight => (storeItem_still still otherRight).2⟩
  | answered ver items => cases acted

end Accesses

/-! ### Every interleaving -/

variable {slot : Nat}

section Interleavings

variable {tn : TenantData}

variable {f : Flow}

theorem starts_right {st : State} (permitted : unchanging (.spawn slot f) = true)
    (started : starts st f = true) : FlowRight tn f := by
  cases f with
  | allowed c =>
    rcases c with ⟨uid, p, resolving, since, point⟩
    simp only [starts, Bool.and_eq_true, beq_iff_eq] at started
    obtain ⟨-, rfl⟩ := started
    cases resolving <;> rfl
  | batch c =>
    rcases c with ⟨uid, perms, since, point⟩
    simp only [starts, Bool.and_eq_true, beq_iff_eq] at started
    obtain ⟨-, rfl⟩ := started
    trivial
  | write point => cases permitted

theorem act_right {pl : Pool State Flow} {missing : Bool} {post : State} {rest : Option Flow}
    (still : Still tn pl.shared) (right : FlowRight tn f)
    (held : pl.flows slot = some f) (avoiding : Avoiding pl (.act slot missing))
    (acted : program.act pl.shared f missing = some (post, rest)) :
    Still tn post ∧ ∀ next, rest = some next → FlowRight tn next := by
  cases f with
  | allowed c =>
    obtain ⟨⟨reached, point⟩, isOutcome, same⟩ := Option.map_eq_some_iff.mp acted
    cases same
    obtain ⟨kept, callRight⟩ := allowedAct_right still right
      (fun obj ver s seen => avoiding.1 c obj ver s seen held) isOutcome
    refine ⟨kept, ?_⟩
    intro next isNext
    cases isNext
    exact callRight
  | batch c =>
    obtain ⟨⟨reached, point⟩, isOutcome, same⟩ := Option.map_eq_some_iff.mp acted
    cases same
    obtain ⟨kept, callRight⟩ := batchAct_right still right
      (fun ver => avoiding.2 c ver held) isOutcome
    refine ⟨kept, ?_⟩
    intro next isNext
    cases isNext
    exact callRight
  | write point => exact right.elim

/-- The tenant and what is cached stand still, and every call in flight is right so far. -/
structure RightPool (tn : TenantData) (pl : Pool State Flow) : Prop where
  still : Still tn pl.shared
  flows : ∀ slot f, pl.flows slot = some f → FlowRight tn f

theorem step_right (pl : Pool State Flow) (move : Move Flow Bool Event)
    (next : Pool State Flow) (holds : RightPool tn pl)
    (permitted : unchanging move = true ∧ Avoiding pl move)
    (taken : program.step pl move = some next) : RightPool tn next := by
  obtain ⟨still, flows⟩ := holds
  cases move with
  | spawn slot f =>
    obtain ⟨-, started, rfl⟩ := Program.step_spawn taken
    refine ⟨still, fun other held found => ?_⟩
    rcases Pool.put_eq_some found with ⟨-, isFlow⟩ | ⟨-, pre⟩
    · cases isFlow
      exact starts_right permitted.1 started
    · exact flows other held pre
  | act slot missing =>
    obtain ⟨f, post, rest, isFlow, acted, rfl⟩ := Program.step_act taken
    obtain ⟨kept, continues⟩ :=
      act_right still (flows slot f isFlow) isFlow permitted.2 acted
    refine ⟨kept, fun other held found => ?_⟩
    rcases Pool.put_eq_some found with ⟨-, isRest⟩ | ⟨-, pre⟩
    · exact continues held isRest
    · exact flows other held pre
  | drop slot =>
    cases taken
    refine ⟨still, fun other held found => ?_⟩
    rcases Pool.put_eq_some found with ⟨-, gone⟩ | ⟨-, pre⟩
    · cases gone
    · exact flows other held pre
  | environment event =>
    cases event with
    | directory rs => cases permitted.1
    | advance elapsed =>
      cases taken
      exact ⟨⟨still.isTenant, still.entries⟩, flows⟩

theorem right_of_flowRight (right : FlowRight tn f) : f.Right tn := by
  cases f with
  | allowed c =>
    rcases c with ⟨uid, p, resolving, since, point⟩
    cases point with
    | answered verdict source => exact right
    | _ => trivial
  | batch c =>
    rcases c with ⟨uid, perms, since, point⟩
    cases point with
    | answered ver items => exact right
    | _ => trivial
  | write point => exact right.elim

/-- While nothing changes: from a cache without wrong values, every call that returns gives the
backend's verdict for the resolved permission, whatever ran before it or runs beside it. -/
theorem verdicts_are_the_backends {init fin : Pool State Flow}
    {moves : List (Move Flow Bool Event)} {slot : Nat} {f : Flow}
    (noCalls : ∀ slot, init.flows slot = none)
    (cached : ∀ uid obj e, init.shared.entries (uid, obj, init.shared.tenant.version) = some e →
        ValueRight init.shared.tenant uid obj e.value.value)
    (permitted : EveryStep program.step
      (fun pl move => unchanging move = true ∧ Avoiding pl move) init moves)
    (reaches : run program.step init moves = some fin)
    (held : fin.flows slot = some f) : f.Right init.shared.tenant := by
  have begins : RightPool init.shared.tenant init := by
    refine ⟨⟨rfl, cached⟩, fun other f isFlow => ?_⟩
    rw [noCalls other] at isFlow
    cases isFlow
  have ends := run_preserves step_right begins permitted reaches
  exact right_of_flowRight (ends.flows slot f held)

end Interleavings

/-! A member who may read documents is checked, or decided on and then checked. -/

def memberCheckMoves (acts : Nat) : List (Move Flow Bool Event) :=
  .spawn 1 (.allowed ⟨7, docsRead, false, 0, .version docsRead⟩)
    :: List.replicate acts (.act 1 false)

theorem avoiding_of_allowed {pl : Pool State Flow} {missing : Bool} {c : AllowedCall}
    (held : pl.flows slot = some (.allowed c))
    (noRole : ∀ obj ver, c.point = .lookup obj ver → pl.shared.lookup c.userID obj ver = none) :
    Avoiding pl (.act slot missing) := by
  constructor
  · intro other obj ver s seen isOther atLookup found
    rw [held] at isOther
    cases isOther
    rw [noRole obj ver atLookup] at found
    cases found
  · intro other ver isOther
    rw [held] at isOther
    cases isOther

theorem first_check_is_the_backends : Verdict docsMembers 7 (some docsRead) true := by
  have permitted : EveryStep program.step
      (fun pl move => unchanging move = true ∧ Avoiding pl move) (idle docsMembers 0)
      (memberCheckMoves 4) := by
    refine ⟨⟨rfl, trivial⟩, ?_⟩
    intro atVersion taken
    cases taken
    refine ⟨⟨rfl, avoiding_of_allowed rfl nofun⟩, ?_⟩
    intro atLookup taken
    cases taken
    refine ⟨⟨rfl, avoiding_of_allowed rfl fun _ _ _ => rfl⟩, ?_⟩
    intro atCheck taken
    cases taken
    refine ⟨⟨rfl, avoiding_of_allowed rfl nofun⟩, ?_⟩
    intro atStore taken
    cases taken
    exact ⟨⟨rfl, avoiding_of_allowed rfl nofun⟩, fun _ _ => trivial⟩
  exact @verdicts_are_the_backends (idle docsMembers 0) _ (memberCheckMoves 4) 1 _
    (fun _ => rfl) (fun _ _ _ none => by cases none) permitted rfl rfl

def memberDecision : List (Move Flow Bool Event) :=
  .spawn 0 (.batch ⟨7, [docsRead], 0, .version⟩) :: List.replicate 10 (.act 0 false)

/-- The decision is stored as the granting role, which the check takes for a denial. -/
theorem check_after_decision_denies :
    (∀ move ∈ memberDecision ++ memberCheckMoves 2, unchanging move = true)
      ∧ Granted docsMembers.tuples 7 docsRead
      ∧ ∃ (fin : Pool State Flow) (ver : Nat) (items : List Item)
          (source : Option (Permission × CachedValue)),
        run program.step (idle docsMembers 0) (memberDecision ++ memberCheckMoves 2) = some fin
          ∧ fin.flows 0 = some (.batch ⟨7, [docsRead], 0, .answered ver items⟩)
          ∧ items.map (fun item => (item.decision ver).allowed) = [true]
          ∧ fin.flows 1 = some (.allowed ⟨7, docsRead, false, 0, .answered false source⟩) := by
  refine ⟨by decide, by decide, _, _, _, _, rfl, rfl, ?_, rfl⟩
  decide

end TangraAuth.Authz.DecisionCache
