import TangraAuth.Accounts.Password

/-!
Contract: the password rules as the console mirrors them while a person types.

Owns: the requirements the server publishes, the console's `firstBroken`, and on which
passwords it names the rule the server names.

Does not own: the wording of the rules, and the confirmation field.
-/

namespace TangraAuth.Console

open Accounts (Password PasswordRule check singleRune maxLength)
open Library (isSpace)

/-- The rules by their published names. -/
inductive PolicyRule where
  | minLength
  | maxLength
  | rejectTrivial
deriving DecidableEq

structure PasswordRequirements where
  minLength : Int
  maxLength : Int
  rejectTrivial : Bool

def requirementsFor (pol : Tenant.Policy) : PasswordRequirements :=
  ⟨pol.passwordMinLength, maxLength, true⟩

/-- `Rule`. -/
def ruleOf : PasswordRule → PolicyRule
  | .tooShort => .minLength
  | .tooLong => .maxLength
  | .weak => .rejectTrivial

/-- The rule a refusal of the server names. -/
def refusedRule (pol : Tenant.Policy) (pw : Password) : Option PolicyRule :=
  match check pol pw with
  | .ok _ => none
  | .error rule => some (ruleOf rule)

/-- What `String.prototype.trim` removes. -/
def isWhiteSpace (chr : Char) : Bool :=
  let code := chr.toNat
  (0x09 ≤ code && code ≤ 0x0d) || code == 0x20 || code == 0xa0
    || code == 0x1680 || (0x2000 ≤ code && code ≤ 0x200a) || code == 0x2028 || code == 0x2029
    || code == 0x202f || code == 0x205f || code == 0x3000 || code == 0xfeff

def isTrivial (pw : Password) : Bool :=
  pw.all isWhiteSpace || pw.all fun chr => pw.head? == some chr

def meets (req : PasswordRequirements) (pw : Password) : PolicyRule → Bool
  | .minLength => req.minLength ≤ pw.length
  | .maxLength => pw.length ≤ req.maxLength
  | .rejectTrivial => !req.rejectTrivial || !isTrivial pw

def firstBroken (req : PasswordRequirements) (pw : Password) : Option PolicyRule :=
  [.maxLength, .minLength, .rejectTrivial].find? fun rule => !meets req pw rule

/-! ### Where they agree -/

/-- U+0085 is blank to the server only. -/
def nextLine : Char := '\u0085'

/-- U+FEFF is blank to the console only. -/
def byteOrderMark : Char := '\ufeff'

theorem isWhiteSpace_iff (chr : Char) : isWhiteSpace chr = true
    ↔ (isSpace chr = true ∧ chr ≠ nextLine) ∨ chr = byteOrderMark := by
  have next : chr = nextLine ↔ chr.toNat = 0x85 :=
    ⟨fun same => same ▸ rfl, fun same => Char.toNat_inj.mp same⟩
  have mark : chr = byteOrderMark ↔ chr.toNat = 0xfeff :=
    ⟨fun same => same ▸ rfl, fun same => Char.toNat_inj.mp same⟩
  simp only [isWhiteSpace, isSpace, Bool.or_eq_true, Bool.and_eq_true, decide_eq_true_eq,
    beq_iff_eq, ne_eq, next, mark]
  omega

/-- The password is blank to one of the two only. -/
def Disputed (pw : Password) : Prop :=
  (pw.all isSpace ∧ nextLine ∈ pw) ∨ (pw.all isWhiteSpace ∧ byteOrderMark ∈ pw)

theorem all_isWhiteSpace_eq_iff (pw : Password) :
    pw.all isWhiteSpace = pw.all isSpace ↔ ¬ Disputed pw := by
  have notNext : isWhiteSpace nextLine = false := rfl
  have notMark : isSpace byteOrderMark = false := rfl
  rw [Bool.eq_iff_iff]
  simp only [Disputed, List.all_eq_true]
  constructor
  · rintro same (⟨blank, mem⟩ | ⟨white, mem⟩)
    · simp [same.mpr blank nextLine mem] at notNext
    · simp [same.mp white byteOrderMark mem] at notMark
  · intro undisputed
    constructor
    · intro white chr mem
      rcases (isWhiteSpace_iff chr).mp (white chr mem) with blank | rfl
      · exact blank.1
      · exact absurd (Or.inr ⟨white, mem⟩) undisputed
    · intro blank chr mem
      refine (isWhiteSpace_iff chr).mpr (Or.inl ⟨blank chr mem, ?_⟩)
      rintro rfl
      exact undisputed (Or.inl ⟨blank, mem⟩)

theorem isTrivial_eq (pw : Password) : isTrivial pw = (pw.all isWhiteSpace || singleRune pw) := by
  cases pw with
  | nil => rfl
  | cons first rest => simp [isTrivial, singleRune, Bool.beq_comm]

/-- The console names the server's rule unless the password has an allowed length, does not
repeat one character, and is blank to one of the two only. -/
theorem firstBroken_eq_iff (pol : Tenant.Policy) (pw : Password) :
    firstBroken (requirementsFor pol) pw = refusedRule pol pw
      ↔ ¬ (pol.passwordMinLength ≤ pw.length ∧ pw.length ≤ 1024 ∧ singleRune pw = false
        ∧ Disputed pw) := by
  have maxMet : meets (requirementsFor pol) pw .maxLength = decide (pw.length ≤ 1024) := by
    simp only [meets, requirementsFor, maxLength, Int.ofNat_le]
  have minMet : meets (requirementsFor pol) pw .minLength
      = decide (pol.passwordMinLength ≤ pw.length) := rfl
  have trivialMet : meets (requirementsFor pol) pw .rejectTrivial
      = !(pw.all isWhiteSpace || singleRune pw) := by
    rw [← isTrivial_eq]
    rfl
  simp only [firstBroken, List.find?_cons, List.find?_nil, maxMet, minMet, trivialMet, refusedRule,
    check, maxLength]
  by_cases fits : pw.length ≤ 1024
  · by_cases enough : pol.passwordMinLength ≤ pw.length
    · have same := all_isWhiteSpace_eq_iff pw
      simp only [fits, enough, Nat.not_lt.mpr fits, Int.not_lt.mpr enough, if_false, true_and,
        not_and, ← same]
      cases singleRune pw <;> cases pw.all isWhiteSpace <;> cases pw.all isSpace <;> simp [ruleOf]
    · simp [fits, enough, Nat.not_lt.mpr fits, Int.not_le.mp enough, ruleOf]
  · simp [fits, Nat.not_le.mp fits, ruleOf]

/-- Blanks behind a byte order mark: the server accepts them, the console does not. -/
theorem marked_blanks_differ : let pw : Password := byteOrderMark :: List.replicate 11 ' '
    check Tenant.defaultPolicy pw = .ok ()
      ∧ firstBroken (requirementsFor Tenant.defaultPolicy) pw = some .rejectTrivial := by
  decide

end TangraAuth.Console
