import Mathlib.Data.List.Basic

/-!
Contract: the pictures of users.

Owns: `Avatars.Set` down to its statements, with the keys of the table, and when other
pictures decide whether it succeeds.

Does not own: the decoder of uploads and the hash, which are parameters, and the audit.
-/

namespace TangraAuth.User

structure Profile where
  id : String
  tenantID : String
  avatarID : Option String

structure Avatar where
  id : String
  tenantID : String
  userID : String
  contentType : String
  bytes : List UInt8

structure AvatarTables where
  users : List Profile
  avatars : List Avatar

structure Editor where
  userID : String
  tenantID : String
  isAdmin : Bool
  system : Bool

def mayEdit (actor : Editor) (uid : String) : Bool :=
  actor.userID == uid || actor.isAdmin || actor.system

def Profile.isUser (tid uid : String) (u : Profile) : Bool := u.tenantID == tid && u.id == uid

def Avatar.isOf (tid uid : String) (a : Avatar) : Bool := a.tenantID == tid && a.userID == uid

/-- `id` is the primary key and `user_id` unique. -/
def Avatar.clashes (a other : Avatar) : Bool := other.id == a.id || other.userID == a.userID

/-- One transaction: `none` rolls it back. -/
def upsertAvatar (t : AvatarTables) (a : Avatar) : Option AvatarTables :=
  let kept := t.avatars.filter fun other => !other.isOf a.tenantID a.userID
  if kept.any a.clashes || !t.users.any (Profile.isUser a.tenantID a.userID) then none
  else some
    { users := t.users.map fun u =>
        if u.isUser a.tenantID a.userID then { u with avatarID := some a.id } else u
      avatars := kept ++ [a] }

inductive SetError (Reason : Type) where
  | forbidden
  | notFound
  | refused (why : Reason)
  | store

section Calls

variable {Upload Reason : Type} (normaliseAvatar : Upload → Except Reason (List UInt8))
  (digest : List UInt8 → String) (actor : Editor) (uid : String) (upload : Upload)

def setAvatar (t : AvatarTables) : Except (SetError Reason) (String × AvatarTables) :=
  if !mayEdit actor uid then .error .forbidden
  else if !t.users.any (Profile.isUser actor.tenantID uid) then .error .notFound
  else match normaliseAvatar upload with
    | .error why => .error (.refused why)
    | .ok bytes =>
      let id := digest bytes
      match upsertAvatar t ⟨id, actor.tenantID, uid, "image/jpeg", bytes⟩ with
      | none => .error .store
      | some stored => .ok ("/api/v1/users/" ++ uid ++ "/avatar/" ++ id, stored)

/-- The tables without the pictures of others. -/
def AvatarTables.alone (t : AvatarTables) (tid uid : String) : AvatarTables :=
  { t with avatars := t.avatars.filter (Avatar.isOf tid uid) }

/-- The call passes its checks and the upload becomes the bytes. -/
def Acceptable (t : AvatarTables) (bytes : List UInt8) : Prop :=
  mayEdit actor uid ∧ t.users.any (Profile.isUser actor.tenantID uid)
    ∧ normaliseAvatar upload = .ok bytes

/-- No picture of another has the id, or names the user under another tenant. -/
def Unclaimed (t : AvatarTables) (tid uid id : String) : Prop :=
  ∀ other ∈ t.avatars, ¬ other.isOf tid uid → other.id ≠ id ∧ other.userID ≠ uid

theorem setAvatar_isOk_iff (t : AvatarTables) :
    (setAvatar normaliseAvatar digest actor uid upload t).isOk = true
    ↔ ∃ bytes, Acceptable normaliseAvatar actor uid upload t bytes
      ∧ Unclaimed t actor.tenantID uid (digest bytes) := by
  unfold setAvatar Acceptable
  cases mayEdit actor uid with
  | false => simp [Except.isOk, Except.toBool]
  | true =>
    cases isUser : t.users.any (Profile.isUser actor.tenantID uid) with
    | false => simp [Except.isOk, Except.toBool]
    | true =>
      cases normaliseAvatar upload with
      | error why => simp [Except.isOk, Except.toBool]
      | ok bytes =>
        have stored :
          (upsertAvatar t ⟨digest bytes, actor.tenantID, uid, "image/jpeg", bytes⟩).isSome
            ↔ Unclaimed t actor.tenantID uid (digest bytes) := by
          simp [upsertAvatar, Avatar.clashes, isUser, Unclaimed]
        simp only [Except.ok.injEq, exists_eq_left', true_and, ← stored]
        cases upsertAvatar t ⟨digest bytes, actor.tenantID, uid, "image/jpeg", bytes⟩ <;>
          simp [Except.isOk, Except.toBool]

/-- Other pictures decide the outcome of an acceptable upload unless its id is unclaimed. -/
theorem setAvatar_alone_iff (t : AvatarTables) :
    (setAvatar normaliseAvatar digest actor uid upload t).isOk
        = (setAvatar normaliseAvatar digest actor uid upload (t.alone actor.tenantID uid)).isOk
      ↔ ∀ bytes, Acceptable normaliseAvatar actor uid upload t bytes →
        Unclaimed t actor.tenantID uid (digest bytes) := by
  have alone : ∀ id, Unclaimed (t.alone actor.tenantID uid) actor.tenantID uid id := by
    intro id other mem foreign
    exact absurd (List.mem_filter.mp mem).2 foreign
  rw [Bool.eq_iff_iff, setAvatar_isOk_iff, setAvatar_isOk_iff]
  constructor
  · intro same bytes acceptable
    obtain ⟨bytes', acceptable', unclaimed⟩ := same.mpr ⟨bytes, acceptable, alone _⟩
    cases acceptable.2.2.symm.trans acceptable'.2.2
    exact unclaimed
  · intro unclaimed
    constructor
    · rintro ⟨bytes, acceptable, -⟩
      exact ⟨bytes, acceptable, alone _⟩
    · rintro ⟨bytes, acceptable, -⟩
      exact ⟨bytes, acceptable, unclaimed bytes acceptable⟩

end Calls

/-- The picture of a user of another tenant. -/
def Sample.stored : AvatarTables :=
  ⟨[⟨"u", "t", none⟩, ⟨"v", "s", some "h"⟩], [⟨"h", "s", "v", "image/jpeg", [7]⟩]⟩

def Sample.upload (t : AvatarTables) : Except (SetError Unit) (String × AvatarTables) :=
  setAvatar Except.ok (fun _ => "h") ⟨"u", "t", false, false⟩ "u" [7] t

theorem shared_picture_refused : (Sample.upload Sample.stored).isOk = false
    ∧ (Sample.upload (Sample.stored.alone "t" "u")).isOk = true :=
  ⟨rfl, rfl⟩

end TangraAuth.User
