import TangraAuth.Accounts.Effects
import TangraAuth.Session.ResolveSteps

/-!
Contract: role changes beside sign-ins, `Create` and `Resolve` calls in flight.

Owns: the second half of a sign-in, from the read of the roles over the stored
challenge to the session, as single accesses; role changes as a write to the store
followed by the new tenant version; and the roles of the cached views over every
interleaving of them.

Does not own: how a sign-in checks its credentials, or what a role change does to
the tuples.

A role change whose version never follows stays in progress.
-/

namespace TangraAuth.Session.RoleViews

open Library Store
open TangraAuth.Session.Concurrent

variable {H : Type}

/-- A sign-in between its two steps, with the roles read in the first. -/
structure Challenge where
  tenantID : TenantID
  userID : UserID
  roles : List Slug
  operator : Bool
  policy : Tenant.Policy

/-- `changing` counts the role changes of a tenant that are written to the store and not yet
followed by the new version. -/
structure Shared (H : Type) where
  session : State H
  challenges : ExpiringMap H Challenge
  changing : TenantID → Nat

inductive StartPoint where
  | roles
  | finish (ch : Challenge)

/-- `Start` once the credentials are accepted; `key` is that of the challenge it may store, `id`
and `secret` those of the session it may create. -/
structure StartCall (H : Type) where
  tenantID : TenantID
  userID : UserID
  operator : Bool
  policy : Tenant.Policy
  mfaEnabled : Bool
  key : H
  id : SessionID
  secret : Secret
  point : StartPoint

inductive CompletePoint where
  | pending
  | consume (ch : Challenge)
  | establish (ch : Challenge)

/-- The second step of a sign-in with a second factor. -/
structure CompleteCall (H : Type) where
  key : H
  method : String
  id : SessionID
  secret : Secret
  point : CompletePoint

inductive Flow (H : Type) where
  | start (c : StartCall H)
  | complete (c : CompleteCall H)
  | create (c : CreateCall)
  | resolve (c : ResolveCall H)

/-- What happens around the calls: the two halves of a role change, changes of statuses and
profiles, and time. -/
inductive Event where
  | write (tid : TenantID) (roles : UserID → List Slug)
  | bump (tid : TenantID)
  | directory (status : TenantID → TenantStatus) (users : TenantID → UserID → Option Profile)
  | advance (elapsed : Nat)

/-! ### One access of each call -/

/-- The parameters with which `establish` creates the session. -/
def Challenge.params (ch : Challenge) (amr : List String) : State.CreateParams where
  tenantID := ch.tenantID
  userID := ch.userID
  roles := ch.roles
  amr := amr
  operator := ch.operator
  policy := ch.policy

def establish (sess : State H) (ch : Challenge) (amr : List String)
    (id : SessionID) (sec : Secret) : Flow H :=
  .create ⟨ch.params amr, id, sec, sess.now, .insert⟩

variable [DecidableEq H]

/-- `none` next is the call's return. -/
def startAct (sh : Shared H) (failing : Bool) (c : StartCall H) : Shared H × Option (Flow H) :=
  match c.point with
  | .roles =>
    if failing then (sh, none)
    else
      (sh, some (.start { c with
        point := .finish
          { tenantID := c.tenantID, userID := c.userID
            roles := sh.session.roles c.tenantID c.userID
            operator := c.operator, policy := c.policy } }))
  | .finish ch =>
    if c.mfaEnabled then
      ({ sh with
          challenges := sh.challenges.set sh.session.now c.key ch Accounts.challengeTTL }, none)
    else (sh, some (establish sh.session ch ["pwd"] c.id c.secret))

def completeAct (sh : Shared H) (c : CompleteCall H) : Shared H × Option (Flow H) :=
  match c.point with
  | .pending =>
    match sh.challenges.get sh.session.now c.key with
    | none => (sh, none)
    | some ch => (sh, some (.complete { c with point := .consume ch }))
  | .consume ch =>
    ({ sh with challenges := sh.challenges.del c.key },
      some (.complete { c with point := .establish ch }))
  | .establish ch =>
    (sh, some (establish sh.session ch ["pwd", c.method] c.id c.secret))

/-- Other callers of `Create` pass roles they have just read. -/
def starts (sh : Shared H) : Flow H → Bool
  | .start ⟨_, _, _, _, _, _, _, _, .roles⟩ => true
  | .complete ⟨_, _, _, _, .pending⟩ => true
  | .create ⟨params, _, _, now, .insert⟩ =>
    now == sh.session.now && params.roles == sh.session.roles params.tenantID params.userID
  | .resolve ⟨_, now, _, .getView⟩ => now == sh.session.now
  | _ => false

def program (ht : Secret → H) : Program (Shared H) (Flow H) Bool Event where
  entry := starts
  act sh f failing :=
    match f with
    | .start c => some (startAct sh failing c)
    | .complete c => some (completeAct sh c)
    | .create c =>
      (createAct ht sh.session failing c).map fun out =>
        ({ sh with session := out.1 }, out.2.map fun point => .create { c with point := point })
    | .resolve c =>
      (resolveAct ht sh.session failing c).map fun out =>
        ({ sh with session := out.1 }, some (.resolve { c with point := out.2 }))
  environment sh event :=
    match event with
    | .write tid roles =>
      some { sh with
        session :=
          { sh.session with
            roles := Function.update sh.session.roles tid roles }
        changing := Function.update sh.changing tid (sh.changing tid + 1) }
    | .bump tid =>
      match sh.changing tid with
      | 0 => none
      | left + 1 =>
        some { sh with
          session :=
            { sh.session with
              versions := Function.update sh.session.versions tid (sh.session.versions tid + 1) }
          changing := Function.update sh.changing tid left }
    | .directory status users =>
      some { sh with
        session := sh.session.withDirectory status sh.session.roles users sh.session.versions }
    | .advance elapsed =>
      some { sh with
        session := { sh.session with now := sh.session.now + elapsed } }

/-! ### Roles and versions in hand -/

/-- The roles a call has read and not yet labelled with a version. -/
def Flow.unlabelled : Flow H → Option (TenantID × UserID × List Slug)
  | .start ⟨_, _, _, _, _, _, _, _, .finish ch⟩
  | .complete ⟨_, _, _, _, .consume ch⟩
  | .complete ⟨_, _, _, _, .establish ch⟩ =>
    some (ch.tenantID, ch.userID, ch.roles)
  | .create ⟨params, _, _, _, .insert⟩ | .create ⟨params, _, _, _, .version⟩ =>
    some (params.tenantID, params.userID, params.roles)
  | .resolve ⟨_, _, _, .version v⟩ => some (v.tenantID, v.userID, v.roles)
  | _ => none

/-- The labelled view a call has in hand. -/
def Flow.labelled : Flow H → Option View
  | .create ⟨_, _, _, _, .profile v⟩ | .create ⟨_, _, _, _, .putView v⟩ => some v
  | .resolve ⟨_, _, _, .version _⟩ => none
  | .resolve c => c.point.view
  | _ => none

/-- The version a call has read before the roles it will label with it. -/
def Flow.versionRead : Flow H → Option (TenantID × Int)
  | .resolve ⟨_, _, _, .staleRoles v ver⟩ => some (v.tenantID, ver)
  | _ => none

/-- A view labelled with the current version has the current roles, unless they are changing. -/
structure Labelled (sh : Shared H) (v : View) : Prop where
  past : v.policyVersion ≤ sh.session.versions v.tenantID
  current : v.policyVersion = sh.session.versions v.tenantID →
    sh.changing v.tenantID = 0 → v.roles = sh.session.roles v.tenantID v.userID

structure FlowHolds (sh : Shared H) (f : Flow H) : Prop where
  unlabelled : ∀ tid uid roles, f.unlabelled = some (tid, uid, roles) →
    sh.session.roles tid uid = roles
  labelled : ∀ v, f.labelled = some v → Labelled sh v
  versionRead : ∀ tid ver, f.versionRead = some (tid, ver) → ver ≤ sh.session.versions tid

structure Faithful (sh : Shared H) : Prop where
  views : ∀ hash e, sh.session.views hash = some e → Labelled sh e.value
  challenges : ∀ key ch, sh.challenges.get sh.session.now key = some ch →
      sh.session.roles ch.tenantID ch.userID = ch.roles

/-- A role change is written only if it leaves the roles alone that a pending sign-in or a call
in flight has read and not yet labelled with a version. -/
def Undisturbing (pl : Pool (Shared H) (Flow H)) : Move (Flow H) Bool Event → Prop
  | .environment (.write tid roles) =>
    (∀ key ch, pl.shared.challenges.get pl.shared.session.now key = some ch →
        ch.tenantID = tid → roles ch.userID = ch.roles)
      ∧ ∀ slot f uid held, pl.flows slot = some f →
        f.unlabelled = some (tid, uid, held) → roles uid = held
  | _ => True

/-! ### What an access keeps -/

variable {v : View} {f : Flow H} {failing : Bool}

section Accesses

variable {ht : Secret → H} {sh : Shared H} {sess : State H}

omit [DecidableEq H] in
theorem Labelled.of_alike {chg : View} (labelled : Labelled sh v)
    (alike : Alike chg v) : Labelled sh chg := by
  refine ⟨?_, ?_⟩
  · rw [alike.policyVersion, alike.tenantID]
    exact labelled.past
  · rw [alike.policyVersion, alike.tenantID, alike.userID, alike.roles]
    exact labelled.current

omit [DecidableEq H] in
/-- A label with a version that was read no later than the roles. -/
theorem Labelled.of_read (past : v.policyVersion ≤ sh.session.versions v.tenantID)
    (roles : v.roles = sh.session.roles v.tenantID v.userID) : Labelled sh v :=
  ⟨past, fun _ _ => roles⟩

/-- An access that leaves roles and versions alone. -/
structure Quiet (sh next : Shared H) : Prop where
  roles : next.session.roles = sh.session.roles
  versions : next.session.versions = sh.session.versions
  changing : next.changing = sh.changing

omit [DecidableEq H] in
theorem Labelled.quiet {next : Shared H} (labelled : Labelled sh v)
    (quiet : Quiet sh next) : Labelled next v := by
  refine ⟨?_, ?_⟩
  · rw [quiet.versions]
    exact labelled.past
  · rw [quiet.versions, quiet.changing, quiet.roles]
    exact labelled.current

omit [DecidableEq H] in
theorem FlowHolds.quiet {next : Shared H} (holds : FlowHolds sh f)
    (quiet : Quiet sh next) : FlowHolds next f := by
  refine ⟨?_, fun v isView => (holds.labelled v isView).quiet quiet, ?_⟩
  · rw [quiet.roles]
    exact holds.unlabelled
  · rw [quiet.versions]
    exact holds.versionRead

omit [DecidableEq H] in
theorem FlowHolds.ofRoles {tid : TenantID} {uid : UserID} {roles : List Slug}
    (isRoles : f.unlabelled = some (tid, uid, roles)) (noView : f.labelled = none)
    (noVersion : f.versionRead = none) (current : sh.session.roles tid uid = roles) :
    FlowHolds sh f := by
  refine ⟨?_, ?_, ?_⟩
  · grind
  · intro _ held
    rw [noView] at held
    cases held
  · intro _ _ held
    rw [noVersion] at held
    cases held

omit [DecidableEq H] in
theorem FlowHolds.ofView (noRoles : f.unlabelled = none) (isView : f.labelled = some v)
    (noVersion : f.versionRead = none) (labelled : Labelled sh v) :
    FlowHolds sh f := by
  refine ⟨?_, ?_, ?_⟩
  · intro _ _ _ held
    rw [noRoles] at held
    cases held
  · grind
  · intro _ _ held
    rw [noVersion] at held
    cases held

variable {sec : Secret} {point : ResolvePoint H}

omit [DecidableEq H] in
theorem labelled_resolve {now : Int} {late : Bool} (isLabelled : point.isUnlabelled = false) :
    Flow.labelled (.resolve ⟨sec, now, late, point⟩) = point.view := by
  cases point with
  | version v => cases isLabelled
  | _ => rfl

omit [DecidableEq H] in
theorem FlowHolds.resolve {now : Int} {late : Bool} (notLoading : point.isLoading = false)
    (labelled : ∀ v, point.view = some v → Labelled sh v) :
    FlowHolds sh (.resolve ⟨sec, now, late, point⟩) := by
  refine ⟨?_, ?_, ?_⟩
  · intro tid uid roles held
    cases point with
    | version v => cases notLoading
    | _ => cases held
  · intro v isView
    have isLabelled : point.isUnlabelled = false := by
      cases point with
      | version v => cases notLoading
      | _ => rfl
    grind [labelled_resolve]
  · intro tid ver held
    cases point with
    | staleRoles v read => cases notLoading
    | _ => cases held

theorem resolveAct_holds {c : ResolveCall H} (faithful : Faithful sh)
    (holds : FlowHolds sh (.resolve c))
    (acted : resolveAct ht sh.session failing c = some (sess, point)) :
    FlowHolds sh (.resolve { c with point := point }) := by
  obtain ⟨sec, now, late, init⟩ := c
  cases (resolveAct_step acted).hands with
  | nothing noView noRow =>
    refine FlowHolds.resolve ?_ ?_
    · cases point with
      | version v => cases noView
      | staleRoles v ver => cases noView
      | _ => rfl
    · intro v isView
      rw [noView] at isView
      cases isView
  | cached v found within =>
    refine FlowHolds.resolve rfl fun other isView => ?_
    cases isView
    obtain ⟨e, stored, -, rfl⟩ := (ExpiringMap.get_eq_some_iff _ _ _ _).mp found
    exact faithful.views _ e stored
  | stored row found | active row tn pol =>
    exact FlowHolds.resolve rfl fun _ held => by cases held
  | loaded row tn pol =>
    exact FlowHolds.ofRoles rfl rfl rfl rfl
  | labelled v =>
    refine FlowHolds.resolve rfl fun other isView => ?_
    cases isView
    exact Labelled.of_read (le_refl _) (holds.unlabelled _ _ _ rfl).symm
  | outdated v =>
    refine ⟨nofun, holds.labelled, ?_⟩
    intro tid ver held
    cases held
    exact le_refl _
  | reloaded v ver =>
    refine FlowHolds.resolve rfl fun other isView => ?_
    cases isView
    exact Labelled.of_read (holds.versionRead _ _ rfl) rfl
  | carried v chg isView isChanged alike wasLabelled settled =>
    refine FlowHolds.resolve settled fun other isOther => ?_
    rw [isChanged] at isOther
    cases isOther
    exact (holds.labelled v ((labelled_resolve wasLabelled).trans isView)).of_alike alike

omit [DecidableEq H] in
/-- An access that caches labelled views at most. -/
theorem Faithful.access (faithful : Faithful sh) (now : sess.now = sh.session.now)
    (roles : sess.roles = sh.session.roles)
    (versions : sess.versions = sh.session.versions)
    (views : ∀ hash e, sess.views hash = some e →
      sh.session.views hash = some e ∨ Labelled sh e.value) :
    Faithful { sh with session := sess } ∧ Quiet sh { sh with session := sess } := by
  have quiet : Quiet sh { sh with session := sess } := ⟨roles, versions, rfl⟩
  refine ⟨⟨fun hash e stored => ?_, ?_⟩, quiet⟩
  · grind [Labelled.quiet, views]
  · intro key ch found
    rw [roles]
    grind [challenges]

theorem resolveAct_faithful {c : ResolveCall H} (faithful : Faithful sh)
    (holds : FlowHolds sh (.resolve c))
    (acted : resolveAct ht sh.session failing c = some (sess, point)) :
    Faithful { sh with session := sess } ∧ Quiet sh { sh with session := sess } := by
  obtain ⟨frame, -, caches⟩ := resolveAct_step acted
  refine faithful.access frame.now frame.roles frame.versions ?_
  intro hash e stored
  obtain ⟨sec, now, late, init⟩ := c
  cases caches with
  | same views =>
    rw [views] at stored
    exact Or.inl stored
  | evicted views =>
    rw [views] at stored
    exact Or.inl (ExpiringMap.del_apply_eq_some stored).2
  | put v =>
    rcases putView_apply stored with ⟨-, rfl⟩ | kept
    · exact Or.inr (holds.labelled v rfl)
    · exact Or.inl kept

theorem createAct_faithful {c : CreateCall} {rest : Option CreatePoint}
    (faithful : Faithful sh) (holds : FlowHolds sh (.create c))
    (acted : createAct ht sh.session failing c = some (sess, rest)) :
    Faithful { sh with session := sess } ∧ Quiet sh { sh with session := sess } := by
  obtain ⟨params, id, sec, now, init⟩ := c
  cases init with
  | insert =>
    simp only [createAct] at acted
    split_ifs at acted <;> cases acted
    · exact faithful.access rfl rfl rfl fun _ _ stored => Or.inl stored
    · exact faithful.access rfl rfl rfl fun _ _ stored => Or.inl stored
  | version | profile v => grind [Faithful.access, createAct]
  | putView v =>
    cases acted
    refine faithful.access rfl rfl rfl fun hash e stored => ?_
    rcases putView_apply stored with ⟨-, rfl⟩ | kept
    · exact Or.inr (holds.labelled v rfl)
    · exact Or.inl kept

theorem createAct_holds {c : CreateCall} {point : CreatePoint} (holds : FlowHolds sh (.create c))
    (acted : createAct ht sh.session failing c = some (sess, some point)) :
    FlowHolds sh (.create { c with point := point } : Flow H) := by
  obtain ⟨params, id, sec, now, init⟩ := c
  cases init with
  | insert =>
    simp only [createAct] at acted
    split_ifs at acted <;> cases acted
    exact FlowHolds.ofRoles rfl rfl rfl (holds.unlabelled _ _ _ rfl)
  | version =>
    cases acted
    exact FlowHolds.ofView rfl rfl rfl
      (Labelled.of_read (le_refl _) (holds.unlabelled _ _ _ rfl).symm)
  | profile v =>
    cases acted
    exact FlowHolds.ofView rfl rfl rfl ((holds.labelled v rfl).of_alike (loadProfile_alike _ _ v))
  | putView v => cases acted

omit [DecidableEq H] in
theorem FlowHolds.establish {ch : Challenge} {amr : List String} {id : SessionID}
    (current : sh.session.roles ch.tenantID ch.userID = ch.roles) :
    FlowHolds sh (establish sh.session ch amr id sec) :=
  FlowHolds.ofRoles rfl rfl rfl current

omit [DecidableEq H] in
theorem Faithful.withChallenges (faithful : Faithful sh)
    {challenges : ExpiringMap H Challenge}
    (current : ∀ key ch, challenges.get sh.session.now key = some ch →
      sh.session.roles ch.tenantID ch.userID = ch.roles) :
    Faithful { sh with challenges := challenges } :=
  ⟨fun hash e stored => (faithful.views hash e stored).quiet ⟨rfl, rfl, rfl⟩, current⟩

theorem startAct_holds {c : StartCall H} (faithful : Faithful sh)
    (holds : FlowHolds sh (.start c)) :
    Faithful (startAct sh failing c).1 ∧ Quiet sh (startAct sh failing c).1
      ∧ ∀ next, (startAct sh failing c).2 = some next → FlowHolds sh next := by
  obtain ⟨tid, uid, operator, pol, mfaEnabled, key, id, sec, point⟩ := c
  cases point with
  | roles =>
    cases failing with
    | true => exact ⟨faithful, ⟨rfl, rfl, rfl⟩, fun _ none => by cases none⟩
    | false =>
      refine ⟨faithful, ⟨rfl, rfl, rfl⟩, ?_⟩
      intro next isNext
      cases isNext
      exact FlowHolds.ofRoles rfl rfl rfl rfl
  | finish ch =>
    have current := holds.unlabelled _ _ _ rfl
    cases mfaEnabled with
    | true =>
      refine ⟨faithful.withChallenges ?_, ⟨rfl, rfl, rfl⟩, fun _ none => by cases none⟩
      intro other found isFound
      obtain ⟨e, stored, alive, rfl⟩ := (ExpiringMap.get_eq_some_iff _ _ _ _).mp isFound
      rcases ExpiringMap.set_apply_eq_some stored with ⟨-, rfl⟩ | ⟨-, kept⟩
      · exact current
      · exact faithful.challenges other e.value
          ((ExpiringMap.get_eq_some_iff _ _ _ _).mpr ⟨e, kept, alive, rfl⟩)
    | false =>
      refine ⟨faithful, ⟨rfl, rfl, rfl⟩, ?_⟩
      grind [FlowHolds.establish, startAct]

theorem completeAct_holds {c : CompleteCall H} (faithful : Faithful sh)
    (holds : FlowHolds sh (.complete c)) :
    Faithful (completeAct sh c).1 ∧ Quiet sh (completeAct sh c).1
      ∧ ∀ next, (completeAct sh c).2 = some next → FlowHolds sh next := by
  obtain ⟨key, method, id, sec, point⟩ := c
  cases point with
  | pending =>
    cases found : sh.challenges.get sh.session.now key with
    | none =>
      simp only [completeAct, found]
      exact ⟨faithful, ⟨rfl, rfl, rfl⟩, fun _ none => by cases none⟩
    | some ch =>
      simp only [completeAct, found]
      refine ⟨faithful, ⟨rfl, rfl, rfl⟩, ?_⟩
      intro next isNext
      cases isNext
      exact FlowHolds.ofRoles rfl rfl rfl (faithful.challenges key ch found)
  | consume ch =>
    refine ⟨faithful.withChallenges ?_, ⟨rfl, rfl, rfl⟩, ?_⟩
    · intro other found isFound
      obtain ⟨e, stored, alive, rfl⟩ := (ExpiringMap.get_eq_some_iff _ _ _ _).mp isFound
      exact faithful.challenges other e.value ((ExpiringMap.get_eq_some_iff _ _ _ _).mpr
        ⟨e, (ExpiringMap.del_apply_eq_some stored).2, alive, rfl⟩)
    · intro next isNext
      cases isNext
      exact FlowHolds.ofRoles rfl rfl rfl (holds.unlabelled _ _ _ rfl)
  | establish ch =>
    refine ⟨faithful, ⟨rfl, rfl, rfl⟩, ?_⟩
    intro next isNext
    cases isNext
    exact FlowHolds.establish (holds.unlabelled _ _ _ rfl)

end Accesses

/-! ### Role changes -/

section Changes

variable {sh : Shared H} {tid : TenantID}

omit [DecidableEq H] in
/-- While a change of the tenant's roles is in progress its views need not be current. -/
theorem Labelled.write (labelled : Labelled sh v) (roles : UserID → List Slug) : Labelled
      { sh with
        session :=
          { sh.session with roles := Function.update sh.session.roles tid roles }
        changing := Function.update sh.changing tid (sh.changing tid + 1) }
      v := by
  refine ⟨labelled.past, fun isVersion unchanged => ?_⟩
  by_cases same : v.tenantID = tid
  · rw [same] at unchanged
    simp at unchanged
  · simp only [Function.update_of_ne same] at unchanged ⊢
    exact labelled.current isVersion unchanged

omit [DecidableEq H] in
/-- After the new version no view of the tenant is labelled with it yet. -/
theorem Labelled.bump (labelled : Labelled sh v) (left : Nat) : Labelled
      { sh with
        session :=
          { sh.session with
            versions := Function.update sh.session.versions tid (sh.session.versions tid + 1) }
        changing := Function.update sh.changing tid left } v := by
  have past := labelled.past
  by_cases same : v.tenantID = tid
  · rw [same] at past
    refine ⟨?_, fun isVersion _ => ?_⟩
    · simp only [same, Function.update_self]
      omega
    · simp only [same, Function.update_self] at isVersion
      omega
  · refine ⟨?_, fun isVersion unchanged => ?_⟩
    · simp only [Function.update_of_ne same]
      exact past
    grind [current]

end Changes

/-! ### Every interleaving -/

section Interleavings

variable {ht : Secret → H} {sh next : Shared H}

omit [DecidableEq H] in
/-- A call that begins has read nothing yet, or has just read the roles it passes on. -/
theorem starts_holds (started : starts sh f = true) : FlowHolds sh f := by
  have fresh : f.unlabelled = none → f.labelled = none → f.versionRead = none → FlowHolds sh f := by
    intro noRoles noView noVersion
    refine ⟨?_, ?_, ?_⟩
    · rw [noRoles]
      exact fun _ _ _ held => by cases held
    · rw [noView]
      exact fun _ held => by cases held
    · rw [noVersion]
      exact fun _ _ held => by cases held
  cases f with
  | start c =>
    obtain ⟨tid, uid, operator, pol, mfaEnabled, key, id, sec, point⟩ := c
    cases point with
    | roles => exact fresh rfl rfl rfl
    | finish ch => cases started
  | complete c =>
    obtain ⟨key, method, id, sec, point⟩ := c
    cases point with
    | pending => exact fresh rfl rfl rfl
    | _ => cases started
  | create c =>
    obtain ⟨params, id, sec, now, point⟩ := c
    cases point with
    | insert =>
      simp only [starts, Bool.and_eq_true, beq_iff_eq] at started
      exact FlowHolds.ofRoles rfl rfl rfl started.2.symm
    | _ => cases started
  | resolve c =>
    obtain ⟨sec, now, late, point⟩ := c
    cases point with
    | getView => exact fresh rfl rfl rfl
    | _ => cases started

theorem act_holds {rest : Option (Flow H)} (faithful : Faithful sh) (holds : FlowHolds sh f)
    (acted : (program ht).act sh f failing = some (next, rest)) :
    Faithful next ∧ Quiet sh next ∧ ∀ later, rest = some later → FlowHolds sh later := by
  cases f with
  | start c =>
    grind [startAct_holds, program]
  | complete c =>
    grind [completeAct_holds, program]
  | create c =>
    obtain ⟨⟨sess, point⟩, isOutcome, same⟩ := Option.map_eq_some_iff.mp acted
    cases same
    obtain ⟨kept, quiet⟩ := createAct_faithful faithful holds isOutcome
    refine ⟨kept, quiet, ?_⟩
    intro later isLater
    obtain ⟨point, rfl, rfl⟩ := Option.map_eq_some_iff.mp isLater
    exact createAct_holds holds isOutcome
  | resolve c =>
    obtain ⟨⟨sess, point⟩, isOutcome, same⟩ := Option.map_eq_some_iff.mp acted
    grind [resolveAct_faithful, resolveAct_holds]

variable {pl : Pool (Shared H) (Flow H)}

/-- A permitted change writes none of the roles that are in hand. -/
theorem write_holds {tid : TenantID} {roles : UserID → List Slug}
    (faithful : Faithful pl.shared) (locals : pl.All FlowHolds)
    (permitted : Undisturbing pl (.environment (.write tid roles)))
    (moved : (program ht).environment pl.shared (.write tid roles) = some next) :
    Faithful next ∧ ∀ slot f, pl.flows slot = some f → FlowHolds next f := by
  cases moved
  refine ⟨⟨fun hash e stored => (faithful.views hash e stored).write roles, ?_⟩, ?_⟩
  · intro key ch found
    by_cases same : ch.tenantID = tid
    · simp only [same, Function.update_self]
      exact permitted.1 key ch found same
    · simp only [Function.update_of_ne same]
      exact faithful.challenges key ch found
  · intro slot f held
    have holds := locals slot f held
    refine ⟨?_, fun v isView => (holds.labelled v isView).write roles, holds.versionRead⟩
    intro other uid read isRead
    by_cases same : other = tid
    · subst same
      simp only [Function.update_self]
      exact permitted.2 slot f uid read held isRead
    · simp only [Function.update_of_ne same]
      exact holds.unlabelled other uid read isRead

theorem bump_holds {tid : TenantID} (faithful : Faithful pl.shared) (locals : pl.All FlowHolds)
    (moved : (program ht).environment pl.shared (.bump tid) = some next) :
    Faithful next ∧ ∀ slot f, pl.flows slot = some f → FlowHolds next f := by
  simp only [program] at moved
  split at moved <;> cases moved
  case h_2 left isLeft =>
    refine ⟨⟨fun hash e stored => (faithful.views hash e stored).bump left,
      faithful.challenges⟩, ?_⟩
    intro slot f held
    have holds := locals slot f held
    refine ⟨holds.unlabelled, fun v isView => (holds.labelled v isView).bump left, ?_⟩
    intro other ver isRead
    have read := holds.versionRead other ver isRead
    grind

omit [DecidableEq H] in
theorem quiet_holds (locals : pl.All FlowHolds) (quiet : Quiet pl.shared next) :
    ∀ slot f, pl.flows slot = some f → FlowHolds next f :=
  fun slot f held => (locals slot f held).quiet quiet

theorem environment_holds {event : Event} (faithful : Faithful pl.shared)
    (locals : pl.All FlowHolds) (permitted : Undisturbing pl (.environment event))
    (moved : (program ht).environment pl.shared event = some next) :
    Faithful next ∧ ∀ slot f, pl.flows slot = some f → FlowHolds next f := by
  cases event with
  | write tid roles => exact write_holds faithful locals permitted moved
  | bump tid => exact bump_holds faithful locals moved
  | directory status users =>
    cases moved
    obtain ⟨kept, quiet⟩ := @Faithful.access _ pl.shared
      (pl.shared.session.withDirectory status pl.shared.session.roles users
        pl.shared.session.versions) faithful rfl rfl rfl fun _ _ stored => Or.inl stored
    exact ⟨kept, quiet_holds locals quiet⟩
  | advance elapsed =>
    cases moved
    have quiet : Quiet pl.shared
        { pl.shared with
          session :=
            { pl.shared.session with now := pl.shared.session.now + elapsed } } :=
      ⟨rfl, rfl, rfl⟩
    refine ⟨⟨fun hash e stored => (faithful.views hash e stored).quiet quiet, ?_⟩,
      quiet_holds locals quiet⟩
    intro key ch found
    have later : pl.shared.session.now ≤ pl.shared.session.now + elapsed := by omega
    exact faithful.challenges key ch (ExpiringMap.get_of_get_later _ later found)

theorem role_obligations : (program ht).Obligations Faithful FlowHolds Undisturbing where
  entry := fun _ _ _ started => starts_holds started
  act := fun pl slot f failing sh rest faithful locals held _ acted => by
    obtain ⟨kept, quiet, continues⟩ := act_holds faithful (locals slot f held) acted
    grind [FlowHolds.quiet, Pool.All]
  environment := fun pl event sh faithful locals permitted moved =>
    environment_holds faithful locals permitted moved

/-- No session, no challenge and no call yet. -/
def idle (now : Int) (tns : TenantID → Option Store.Tenant)
    (roles : TenantID → UserID → List Slug) (users : TenantID → UserID → Option Profile) :
    Pool (Shared H) (Flow H) :=
  ⟨⟨initial now tns roles users, .empty, fun _ => 0⟩, fun _ => none⟩

/-- In every state reached without a write to roles that a call or a challenge has in hand: a
cached view under the tenant's current version has the user's current roles, unless a role change
is in progress. -/
theorem current_view_has_current_roles {now : Int} {tns : TenantID → Option Store.Tenant}
    {roles : TenantID → UserID → List Slug} {users : TenantID → UserID → Option Profile}
    {moves : List (Move (Flow H) Bool Event)} {fin : Pool (Shared H) (Flow H)}
    {hash : H} {e : Entry View}
    (permitted : EveryStep (program ht).step Undisturbing (idle now tns roles users) moves)
    (reaches : run (program ht).step (idle now tns roles users) moves = some fin)
    (cached : fin.shared.session.views hash = some e)
    (isCurrent : e.value.policyVersion = fin.shared.session.versions e.value.tenantID)
    (unchanged : fin.shared.changing e.value.tenantID = 0) :
    e.value.roles = fin.shared.session.roles e.value.tenantID e.value.userID := by
  have begins : Faithful (idle now tns roles users : Pool (Shared H) (Flow H)).shared
      ∧ (idle now tns roles users : Pool (Shared H) (Flow H)).All FlowHolds :=
    ⟨⟨fun _ _ none => (by cases none), fun _ _ none => (by cases none)⟩,
      fun _ _ none => (by cases none)⟩
  obtain ⟨faithful, -⟩ := Program.run_preserves role_obligations begins permitted reaches
  exact (faithful.views hash e cached).current isCurrent unchanged

end Interleavings

/-! A member becomes an administrator, before or between the two steps of a sign-in. -/

def sampleTenants : TenantID → Option Store.Tenant :=
  fun _ => some ⟨.customer, .active, Tenant.defaultPolicy⟩

def sample : Pool (Shared Secret) (Flow Secret) :=
  idle 0 sampleTenants (fun _ _ => ["member"]) fun _ _ => none

def promotion : List (Move (Flow Secret) Bool Event) :=
  [.environment (.write 1 fun _ => ["admin"]), .environment (.bump 1)]

def firstStep : List (Move (Flow Secret) Bool Event) :=
  [.spawn 0 (.start ⟨1, 7, false, Tenant.defaultPolicy, true, [9], 0, [], .roles⟩),
    .act 0 false, .act 0 false]

def secondStep : List (Move (Flow Secret) Bool Event) :=
  .spawn 1 (.complete ⟨[9], "totp", 5, [1], .pending⟩) :: List.replicate 7 (.act 1 false)

/-- The challenge keeps the roles of the first step, and `Create` labels them with the version
of the second. -/
theorem sign_in_over_promotion_has_old_roles :
    ∃ (fin : Pool (Shared Secret) (Flow Secret)) (e : Entry View),
      run (program id).step sample (firstStep ++ promotion ++ secondStep) = some fin
        ∧ fin.shared.session.views [1] = some e
        ∧ e.value.policyVersion = fin.shared.session.versions e.value.tenantID
        ∧ fin.shared.changing e.value.tenantID = 0
        ∧ e.value.roles = ["member"]
        ∧ fin.shared.session.roles e.value.tenantID e.value.userID = ["admin"] :=
  ⟨_, _, rfl, rfl, rfl, rfl, rfl, rfl⟩

def isWrite : Move (Flow Secret) Bool Event → Bool
  | .environment (.write _ _) => true
  | _ => false

theorem undisturbing_of_noWrite {moves : List (Move (Flow Secret) Bool Event)}
    (noWrite : ∀ move ∈ moves, isWrite move = false) (pl : Pool (Shared Secret) (Flow Secret)) :
    EveryStep (program id).step Undisturbing pl moves := by
  refine everyStep_of_preserves (fun _ _ _ _ _ _ => trivial) (fun pl move _ none => ?_)
    True.intro (everyStep_of_forall_mem noWrite pl)
  cases move with
  | environment event =>
    cases event with
    | write tid roles => cases none
    | _ => trivial
  | _ => trivial

theorem sign_in_after_promotion_has_new_roles :
    ∃ (fin : Pool (Shared Secret) (Flow Secret)) (e : Entry View),
      run (program id).step sample (promotion ++ firstStep ++ secondStep) = some fin
        ∧ fin.shared.session.views [1] = some e
        ∧ e.value.roles = fin.shared.session.roles e.value.tenantID e.value.userID := by
  have permitted : EveryStep (program id).step Undisturbing sample
      (promotion ++ firstStep ++ secondStep) := by
    refine ⟨⟨fun _ _ none => (by cases none), fun _ _ _ _ none => (by cases none)⟩, ?_⟩
    intro next _
    exact undisturbing_of_noWrite (by decide) next
  refine ⟨_, _, rfl, rfl, ?_⟩
  exact @current_view_has_current_roles Secret _ id _ _ _ _ _ _ [1] _ permitted rfl rfl rfl rfl

end TangraAuth.Session.RoleViews
