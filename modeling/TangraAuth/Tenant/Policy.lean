import Mathlib.Data.Int.Order.Basic
import Mathlib.Tactic.Basic

/-!
Contract: the per-tenant security policy and its range checks.

Owns: the policy record, its documented defaults, `validate` with the texts
of its errors, the rule that a platform tenant always requires a second
factor, and the equivalence of `validate` with the ranges it documents.

Does not own: decoding a policy from its stored text.
-/

namespace TangraAuth

/-! Instants and durations are integer numbers of nanoseconds. -/

def second : Int := 1000000000
def minute : Int := 60 * second
def hour : Int := 60 * minute

namespace Tenant

/-- The per-tenant security policy. -/
structure Policy where
  sessionLifetime : Int
  idleTimeout : Int
  accessTokenLifetime : Int
  passwordMinLength : Int
  mfaRequired : Bool
  lockoutThreshold : Int
  lockoutDuration : Int
deriving DecidableEq, Repr

def maxSessionLifetime : Int := 24 * hour
def maxAccessTokenLifetime : Int := 15 * minute
def minPasswordLength : Int := 8

/-- The documented defaults. -/
def defaultPolicy : Policy where
  sessionLifetime := 8 * hour
  idleTimeout := hour
  accessTokenLifetime := 15 * minute
  passwordMinLength := 12
  mfaRequired := false
  lockoutThreshold := 10
  lockoutDuration := 15 * minute

/-- The field a policy error is about. -/
inductive PolicyField where
  | sessionLifetime
  | idleTimeout
  | accessTokenLifetime
  | passwordMinLength
  | lockoutThreshold
  | lockoutDuration
deriving DecidableEq, Repr

/-- The documented ranges, checked in this order. -/
def Policy.validate (pol : Policy) : Except PolicyField Unit :=
  if pol.sessionLifetime ≤ 0 ∨ pol.sessionLifetime > maxSessionLifetime then
    .error .sessionLifetime
  else if pol.idleTimeout ≤ 0 ∨ pol.idleTimeout > pol.sessionLifetime then
    .error .idleTimeout
  else if pol.accessTokenLifetime ≤ 0 ∨ pol.accessTokenLifetime > maxAccessTokenLifetime then
    .error .accessTokenLifetime
  else if pol.passwordMinLength < minPasswordLength ∨ pol.passwordMinLength > 256 then
    .error .passwordMinLength
  else if pol.lockoutThreshold < 3 ∨ pol.lockoutThreshold > 20 then
    .error .lockoutThreshold
  else if pol.lockoutDuration < minute ∨ pol.lockoutDuration > hour then
    .error .lockoutDuration
  else .ok ()

/-- The ranges as one statement. -/
structure Policy.Valid (pol : Policy) : Prop where
  lifetime_pos : 0 < pol.sessionLifetime
  lifetime_le : pol.sessionLifetime ≤ maxSessionLifetime
  idle_pos : 0 < pol.idleTimeout
  idle_le : pol.idleTimeout ≤ pol.sessionLifetime
  access_pos : 0 < pol.accessTokenLifetime
  access_le : pol.accessTokenLifetime ≤ maxAccessTokenLifetime
  length_ge : minPasswordLength ≤ pol.passwordMinLength
  length_le : pol.passwordMinLength ≤ 256
  threshold_ge : 3 ≤ pol.lockoutThreshold
  threshold_le : pol.lockoutThreshold ≤ 20
  lockout_ge : minute ≤ pol.lockoutDuration
  lockout_le : pol.lockoutDuration ≤ hour

/-- `validate` accepts exactly the policies within every range. -/
theorem Policy.validate_eq_ok_iff (pol : Policy) : pol.validate = .ok () ↔ pol.Valid := by
  constructor
  · intro accepted
    unfold validate at accepted
    split_ifs at accepted with life idle access length threshold lockout
    push Not at life idle access length threshold lockout
    exact ⟨life.1, life.2, idle.1, idle.2, access.1, access.2, length.1, length.2,
      threshold.1, threshold.2, lockout.1, lockout.2⟩
  · intro valid
    unfold validate
    rw [if_neg, if_neg, if_neg, if_neg, if_neg, if_neg]
    · have := valid.lockout_ge; have := valid.lockout_le; omega
    · have := valid.threshold_ge; have := valid.threshold_le; omega
    · have := valid.length_ge; have := valid.length_le; omega
    · have := valid.access_pos; have := valid.access_le; omega
    · have := valid.idle_pos; have := valid.idle_le; omega
    · have := valid.lifetime_pos; have := valid.lifetime_le; omega

/-- The defaults pass their own check. -/
theorem defaultPolicy_validate : defaultPolicy.validate = .ok () := rfl

/-- Tenants of the platform itself are told apart from customers. -/
inductive Kind where
  | platform
  | customer
deriving DecidableEq, Repr

/-- Platform tenants always require a second factor. -/
def forcedPolicy (decoded : Policy) (kind : Kind) : Policy :=
  if kind = .platform then { decoded with mfaRequired := true } else decoded

/-- `ParsePolicy` after decoding. A caller that drops the error goes on with `forcedPolicy`. -/
def parsePolicy (decoded : Policy) (kind : Kind) : Except PolicyField Policy :=
  match (forcedPolicy decoded kind).validate with
  | .ok () => .ok (forcedPolicy decoded kind)
  | .error field => .error field

theorem parsePolicy_eq_ok {decoded pol : Policy} {kind : Kind}
    (parsed : parsePolicy decoded kind = .ok pol) :
    pol.Valid ∧ pol.sessionLifetime = decoded.sessionLifetime
      ∧ pol.idleTimeout = decoded.idleTimeout := by
  unfold parsePolicy forcedPolicy at parsed
  split at parsed
  case h_1 accepted =>
    cases parsed
    refine ⟨(Policy.validate_eq_ok_iff _).mp accepted, ?_, ?_⟩
    · split_ifs <;> rfl
    · split_ifs <;> rfl
  case h_2 => cases parsed

/-- Forcing the second factor does not touch any range, so a valid policy always parses. -/
theorem parsePolicy_of_valid {decoded : Policy} (valid : decoded.Valid) (kind : Kind) :
    ∃ pol, parsePolicy decoded kind = .ok pol := by
  have accepted : ∀ forced : Bool,
      Policy.validate { decoded with mfaRequired := forced } = .ok () := by
    intro forced
    rw [Policy.validate_eq_ok_iff]
    exact ⟨valid.1, valid.2, valid.3, valid.4, valid.5, valid.6, valid.7, valid.8, valid.9,
      valid.10, valid.11, valid.12⟩
  unfold parsePolicy forcedPolicy
  cases kind with
  | platform => simp_all
  | customer => exact ⟨decoded, by simp [(Policy.validate_eq_ok_iff decoded).mpr valid]⟩

end Tenant

end TangraAuth
