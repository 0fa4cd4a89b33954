import Mathlib.Algebra.Group.Nat.Defs
import TangraAuth.Token.Issuer

/-!
Contract: the lifetime of a minted enrollment token, from the request's seconds.

Owns: `secs` in 64-bit nanoseconds, `MintEnrollmentToken` with its two refusals, and
for which numbers of seconds the lifetime asked for is the one that is judged.

Does not own: the caller's policy and the audit record.
-/

namespace TangraAuth.Grpcapi

open TangraAuth.Store TangraAuth.Token
open TangraAuth.AuthClient (unix)

/-- A 64-bit number of nanoseconds: the product wraps. -/
def secs (n : Int64) : Int64 := n * 1000000000

inductive MintError where
  | failed
  | lifetimeExceeded
deriving DecidableEq

structure MintEnrollmentTokenResponse where
  token : SignedToken
  expiresAt : Int
deriving DecidableEq

def mintEnrollmentToken (ks : Keys) (now : Int) (tid : Option TenantID)
    (spiffePaths : List String) (ttlSeconds : Int64) :
    Except MintError MintEnrollmentTokenResponse :=
  match issueEnrollment ks now tid spiffePaths (secs ttlSeconds).toInt with
  | .error .enrollmentLifetime => .error .lifetimeExceeded
  | .error _ => .error .failed
  | .ok tok => .ok ⟨tok, now + enrollLifetime (secs ttlSeconds).toInt⟩

/-- What `ttl_seconds` asks for, in nanoseconds. -/
def askedLifetime (ttlSeconds : Int) : Int :=
  if ttlSeconds ≤ 0 then defaultEnrollLifetime else ttlSeconds * second

/-- The token expires `life` after its issue time, and the response says so. -/
def MintEnrollmentTokenResponse.LastsFor (resp : MintEnrollmentTokenResponse)
    (now life : Int) : Prop :=
  resp.expiresAt = now + life ∧ ∃ cl, resp.token.body = .enrollment cl
      ∧ cl.issuedAt = unix now ∧ (cl.expiresAt - cl.issuedAt) * second = life

/-- Requests with these seconds are refused for their lifetime exactly when it is too long,
and the others get the lifetime they ask for. -/
def MintsAsAsked (ttlSeconds : Int64) : Prop :=
  ∀ ks now tid spiffePaths, spiffePaths ≠ [] →
    (mintEnrollmentToken ks now (some tid) spiffePaths ttlSeconds
        = .error .lifetimeExceeded ↔ ttlSeconds.toInt * second > maxEnrollLifetime)
      ∧ ∀ resp, mintEnrollmentToken ks now (some tid) spiffePaths ttlSeconds = .ok resp →
        resp.LastsFor now (askedLifetime ttlSeconds.toInt)

/-- What is left of the nanoseconds in 64 bits is judged as the seconds are: too long if they
are, and not positive, or the default itself, if they are not positive. -/
def KeepsSide (ttlSeconds : Int) : Prop :=
  (ttlSeconds * second > maxEnrollLifetime →
      (ttlSeconds * second).bmod (2 ^ 64) > maxEnrollLifetime)
    ∧ (ttlSeconds ≤ 0 → (ttlSeconds * second).bmod (2 ^ 64) ≤ 0
      ∨ (ttlSeconds * second).bmod (2 ^ 64) = defaultEnrollLifetime)

theorem secs_toInt (n : Int64) : (secs n).toInt = (n.toInt * second).bmod (2 ^ 64) :=
  Int64.toInt_mul n 1000000000

/-- Up to the longest lifetime nothing wraps. -/
theorem secs_toInt_of_le {n : Int64} (positive : 0 < n.toInt)
    (short : n.toInt * second ≤ maxEnrollLifetime) : (secs n).toInt = n.toInt * second := by
  rw [secs_toInt]
  unfold maxEnrollLifetime hour minute second at *
  exact Int.bmod_eq_of_le_mul_two (by omega) (by omega)

section Answer

variable {ks : Keys} {now : Int} {tid : TenantID} {spiffePaths : List String}
  {ttlSeconds : Int64} (given : spiffePaths ≠ [])

/-- The response made with a key. -/
def minted (now : Int) (tid : TenantID) (spiffePaths : List String) (life : Int)
    (key : RingKey) : MintEnrollmentTokenResponse :=
  ⟨⟨key.kid, key.publicKey,
    .enrollment ⟨tid, spiffePaths, unix now, unix (now + life)⟩⟩, now + life⟩

include given

theorem mint_eq : mintEnrollmentToken ks now (some tid) spiffePaths ttlSeconds =
    if (secs ttlSeconds).toInt > maxEnrollLifetime then .error .lifetimeExceeded
    else match (activeKey ks.ring).filter fun key => key.priv with
      | none => .error .failed
      | some key => .ok
        (minted now tid spiffePaths (enrollLifetime (secs ttlSeconds).toInt) key) := by
  simp only [mintEnrollmentToken, issueEnrollment, if_neg given]
  by_cases long : (secs ttlSeconds).toInt > maxEnrollLifetime
  · simp only [if_pos long]
  · simp only [if_neg long]
    cases activeKey ks.ring with
    | none => rfl
    | some key => cases priv : key.priv <;> simp [priv, minted, Option.filter]

theorem mint_error_iff :
    mintEnrollmentToken ks now (some tid) spiffePaths ttlSeconds = .error .lifetimeExceeded
      ↔ (secs ttlSeconds).toInt > maxEnrollLifetime := by
  rw [mint_eq given]
  split_ifs with long
  · simp [long]
  · cases (activeKey ks.ring).filter fun key => key.priv <;> simp [long]

theorem exists_key_of_mint {resp : MintEnrollmentTokenResponse}
    (answer : mintEnrollmentToken ks now (some tid) spiffePaths ttlSeconds = .ok resp) :
    ∃ key, resp = minted now tid spiffePaths (enrollLifetime (secs ttlSeconds).toInt) key := by
  rw [mint_eq given] at answer
  split_ifs at answer
  cases found : (activeKey ks.ring).filter fun key => key.priv with
  | none =>
    rw [found] at answer
    cases answer
  | some key =>
    rw [found] at answer
    cases answer
    exact ⟨key, rfl⟩

end Answer

namespace Sample

/-- An active key with its private half. -/
def key : RingKey := ⟨⟨1, 11, .active, 0, none, none⟩, true⟩

def keys : Keys := ⟨[], [key]⟩

end Sample

/-- Whole seconds are not touched by the truncation of the dates. -/
theorem unix_add_mul (now seconds : Int) : unix (now + seconds * second) = unix now + seconds :=
  Int.add_mul_ediv_right now seconds (by decide)

theorem enrollLifetime_secs {ttlSeconds : Int64} (keeps : KeepsSide ttlSeconds.toInt)
    (short : ttlSeconds.toInt * second ≤ maxEnrollLifetime) :
    enrollLifetime (secs ttlSeconds).toInt = askedLifetime ttlSeconds.toInt := by
  unfold enrollLifetime askedLifetime
  by_cases positive : 0 < ttlSeconds.toInt
  · rw [secs_toInt_of_le positive short, if_neg (by unfold second; omega), if_neg (by omega)]
  · rw [secs_toInt, if_pos (show ttlSeconds.toInt ≤ 0 by omega)]
    rcases keeps.2 (by omega) with rest | rest
    · rw [if_pos rest]
    · rw [rest, if_neg (by decide)]

/-- Both lifetimes are whole seconds. -/
theorem askedLifetime_seconds (ttlSeconds : Int) :
    ∃ seconds, askedLifetime ttlSeconds = seconds * second := by
  unfold askedLifetime
  split_ifs
  · exact ⟨600, by decide⟩
  · exact ⟨ttlSeconds, rfl⟩

/-- The lifetime asked for is the one judged exactly when the wrapped nanoseconds are on its
side of the limits. -/
theorem mints_as_asked_iff (ttlSeconds : Int64) :
    MintsAsAsked ttlSeconds ↔ KeepsSide ttlSeconds.toInt := by
  constructor
  · intro asked
    obtain ⟨refused, lasts⟩ := asked Sample.keys 0 1 ["svc"] (by decide)
    rw [mint_error_iff (by decide)] at refused
    have wrapped := secs_toInt ttlSeconds
    unfold KeepsSide
    rw [← wrapped]
    refine ⟨refused.mpr, fun nonpositive => ?_⟩
    -- The seconds are not refused, so the sample keys mint a token of the judged lifetime.
    have short : ¬(secs ttlSeconds).toInt > maxEnrollLifetime := by
      rw [refused]
      unfold maxEnrollLifetime hour minute second
      omega
    have answer := @mint_eq Sample.keys 0 1 ["svc"] ttlSeconds (by decide)
    rw [if_neg short] at answer
    obtain ⟨exp, -⟩ := lasts (minted 0 1 ["svc"] _ Sample.key) answer
    have same := Int.add_left_cancel exp
    rw [askedLifetime, if_pos nonpositive, enrollLifetime] at same
    split_ifs at same with rest
    · exact Or.inl rest
    · exact Or.inr same
  · intro keeps ks now tid spiffePaths given
    rw [mint_error_iff given]
    have judged : (secs ttlSeconds).toInt > maxEnrollLifetime
        ↔ ttlSeconds.toInt * second > maxEnrollLifetime := by
      refine ⟨fun long => ?_, fun long => ?_⟩
      · by_contra short
        have life := enrollLifetime_secs keeps (Int.not_lt.mp short)
        unfold enrollLifetime askedLifetime at life
        have : defaultEnrollLifetime ≤ maxEnrollLifetime := by decide
        have : 0 < maxEnrollLifetime := by decide
        split_ifs at life <;> omega
      · rw [secs_toInt]
        exact keeps.1 long
    refine ⟨judged, fun resp answer => ?_⟩
    have short : ¬(secs ttlSeconds).toInt > maxEnrollLifetime := by
      intro long
      rw [(mint_error_iff given).mpr long] at answer
      cases answer
    obtain ⟨key, rfl⟩ := exists_key_of_mint given answer
    have life := enrollLifetime_secs keeps (Int.not_lt.mp (judged.not.mp short))
    obtain ⟨seconds, whole⟩ := askedLifetime_seconds ttlSeconds.toInt
    rw [life]
    refine ⟨rfl, _, rfl, rfl, ?_⟩
    rw [whole, unix_add_mul, Int.add_comm, Int.add_sub_cancel]

/-- 584 years are minted as a third of a second. -/
theorem wrapped_seconds_minted : mintEnrollmentToken Sample.keys 0 (some 1) ["svc"] 18446744074
        = .ok ⟨⟨1, 11, .enrollment ⟨1, ["svc"], 0, 0⟩⟩, 290448384⟩
      ∧ (18446744074 : Int) * second > maxEnrollLifetime := by
  decide

end TangraAuth.Grpcapi
