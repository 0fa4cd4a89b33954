import TangraAuth.Crypto.Password
import TangraAuth.Tenant.Policy

/-!
Contract: the password rules and the verification of a presented password.

Owns: `check` with its three rules, and `verify` as the callers see it, with
its cut of overlong input and its refusal of a missing hash.

Does not own: the format of the hashes. The callers take hashing as a parameter, of which
`Faithful` states what they rely on.
-/

namespace TangraAuth.Accounts

open Library (isSpace)

/-- A password as its code points. -/
abbrev Password := List Char

def maxLength : Nat := 1024

inductive PasswordRule where
  | tooLong
  | tooShort
  | weak
deriving DecidableEq, Repr

/-- Whether the password repeats one character; so does the empty one. -/
def singleRune : Password → Bool
  | [] => true
  | first :: rest => rest.all fun chr => chr == first

/-- The tenant policy on a new password. -/
def check (pol : Tenant.Policy) (pw : Password) : Except PasswordRule Unit :=
  if pw.length > maxLength then .error .tooLong
  else if (pw.length : Int) < pol.passwordMinLength then .error .tooShort
  else if pw.all isSpace || singleRune pw then .error .weak
  else .ok ()

def utf8 (pw : Password) : List UInt8 :=
  pw.flatMap String.utf8EncodeChar

/-- The hashing the service calls: a salted hash, and a comparison that also reports whether the
stored parameters are weaker than the current ones. -/
structure Hashing (E : Type) where
  hashPassword : Nat → List UInt8 → E
  verifyPassword : List UInt8 → E → Bool × Bool

variable {E : Type}

/-- A hash is accepted only for the bytes it was made from. -/
def Hashing.Faithful (hs : Hashing E) : Prop :=
  ∀ salt stored presented, (hs.verifyPassword presented (hs.hashPassword salt stored)).1 = true →
      presented = stored

/-- `Hash` and the comparison of `Verify`, by the salts the random source yields. The empty text
stands for the hash of the empty password, which is refused, and verifies nothing. -/
def argonHashing (argon : Crypto.Argon2) (salts : Nat → List UInt8) : Hashing String where
  hashPassword salt pw :=
    (Crypto.hashPassword argon (salts salt) pw Crypto.defaultParams).getD ""
  verifyPassword pw encoded := (Crypto.verifyPassword argon pw encoded).toOption.getD (false, false)

section Argon

variable {argon : Crypto.Argon2} (injective : argon.Injective) (salts : Nat → List UInt8)

include injective

theorem argonHashing_verify {stored : List UInt8} (nonempty : stored ≠ []) (salt : Nat)
    (presented : List UInt8) : ((argonHashing argon salts).verifyPassword presented
        ((argonHashing argon salts).hashPassword salt stored)).1 = true ↔ presented = stored := by
  obtain ⟨encoded, hashed, verified⟩ :=
    Crypto.verifyPassword_hashPassword argon (salts salt) nonempty presented
  simp only [argonHashing, hashed, Option.getD_some, verified, Except.toOption, beq_iff_eq]
  exact (injective (salts salt) 2 19456 1 32).eq_iff

theorem argonHashing_faithful : (argonHashing argon salts).Faithful := by
  intro salt stored presented accepted
  by_cases empty : stored = []
  · subst empty
    simp [argonHashing, Crypto.hashPassword, Crypto.verifyPassword, Library.fields,
      Except.toOption] at accepted
  · exact (argonHashing_verify injective salts empty salt presented).mp accepted

end Argon

def Hashing.hash (hs : Hashing E) (salt : Nat) (pw : Password) : E :=
  hs.hashPassword salt (utf8 pw)

/-- The bytes compared for a presented password: overlong input is cut to its first bytes. -/
def presentedBytes (pw : Password) : List UInt8 :=
  if pw.length > maxLength then (utf8 pw).take maxLength else utf8 pw

/-- A missing hash (an unknown or invited account) never verifies. -/
def Hashing.verify (hs : Hashing E) (pw : Password) : Option E → Bool × Bool
  | none => (false, false)
  | some encoded => hs.verifyPassword (presentedBytes pw) encoded

theorem check_eq_ok {pol : Tenant.Policy} {pw : Password} (accepted : check pol pw = .ok ()) :
    pw.length ≤ maxLength ∧ pw ≠ [] := by
  unfold check at accepted
  split_ifs at accepted with long short weak
  refine ⟨by omega, ?_⟩
  rintro rfl
  exact weak rfl

/-! ### Texts of bytes -/

/-- `utf8.DecodeRune`: bytes that encode no code point are read one by one. -/
def decodeRune (text : List UInt8) : Char × Nat :=
  match (text.take 4).toByteArray.utf8DecodeChar? 0 with
  | some chr => (chr, chr.utf8Size)
  | none => ('\uFFFD', 1)

/-- The code points read after the bytes still inside the last one. -/
def runesAfter : Nat → List UInt8 → Password
  | _, [] => []
  | inside + 1, _ :: rest => runesAfter inside rest
  | 0, byte :: rest =>
    let (chr, size) := decodeRune (byte :: rest)
    chr :: runesAfter (size - 1) rest

def runes (text : List UInt8) : Password := runesAfter 0 text

theorem decodeRune_encode (chr : Char) (rest : List UInt8) :
    decodeRune (String.utf8EncodeChar chr ++ rest) = (chr, chr.utf8Size) := by
  have fits : (String.utf8EncodeChar chr).length ≤ 4 := by
    rw [String.length_utf8EncodeChar]
    exact chr.utf8Size_le_four
  unfold decodeRune
  rw [List.take_append, List.take_of_length_le fits, List.toByteArray_append,
    ByteArray.utf8DecodeChar?_utf8EncodeChar_append]

theorem runesAfter_append (inside rest : List UInt8) :
    runesAfter inside.length (inside ++ rest) = runesAfter 0 rest := by
  induction inside with
  | nil => rfl
  | cons byte inside ih => exact ih

theorem runes_utf8 (pw : Password) : runes (utf8 pw) = pw := by
  induction pw with
  | nil => rfl
  | cons chr rest ih =>
    have read := decodeRune_encode chr (utf8 rest)
    have size := String.length_utf8EncodeChar chr
    have encoded : utf8 (chr :: rest) = String.utf8EncodeChar chr ++ utf8 rest := rfl
    rw [encoded, runes]
    cases bytes : String.utf8EncodeChar chr with
    | nil =>
      rw [bytes] at size
      exact absurd size.symm (Nat.ne_of_gt chr.utf8Size_pos)
    | cons byte inside =>
      rw [bytes, List.cons_append] at read
      rw [bytes] at size
      rw [List.cons_append, runesAfter, read]
      have skipped : chr.utf8Size - 1 = inside.length := by
        rw [← size]
        rfl
      simp only [skipped, runesAfter_append]
      exact congrArg (chr :: ·) ih

/-- The bytes compared for a presented text: the limit counts code points, the cut bytes. -/
def cutText (text : List UInt8) : List UInt8 :=
  if (runes text).length > maxLength then text.take maxLength else text

def Hashing.verifyText (hs : Hashing E) (text : List UInt8) : Option E → Bool × Bool
  | none => (false, false)
  | some encoded => hs.verifyPassword (cutText text) encoded

theorem verify_eq_verifyText (hs : Hashing E) (pw : Password) (encoded : Option E) :
    hs.verify pw encoded = hs.verifyText (utf8 pw) encoded := by
  cases encoded with
  | none => rfl
  | some encoded =>
    simp only [Hashing.verify, Hashing.verifyText, presentedBytes, cutText, runes_utf8]

/-- A text verifies against the hash of an accepted password exactly when it is that password,
unless it is overlong and begins with the password's bytes. -/
theorem verify_exact_iff {argon : Crypto.Argon2} (injective : argon.Injective)
    (salts : Nat → List UInt8) (pol : Tenant.Policy) {stored : List UInt8}
    (accepted : check pol (runes stored) = .ok ()) (presented : List UInt8) (salt : Nat) :
    (((argonHashing argon salts).verifyText presented
        (some ((argonHashing argon salts).hashPassword salt stored))).1 = true
          ↔ presented = stored) ↔
      ¬((runes presented).length > maxLength ∧ presented.take maxLength = stored) := by
  obtain ⟨short, notEmpty⟩ := check_eq_ok accepted
  have nonempty : stored ≠ [] := by
    rintro rfl
    exact notEmpty rfl
  unfold Hashing.verifyText
  rw [argonHashing_verify injective salts nonempty]
  unfold cutText
  split_ifs with long
  · have different : presented ≠ stored := by
      rintro rfl
      omega
    simp [long, different]
  · simp [long]

namespace Sample

/-- A key that keeps the bytes. -/
def plain : Crypto.Argon2 where
  idKey pw _ _ _ _ _ := 0 :: pw
  nonempty _ _ _ _ _ _ _ := List.cons_ne_nil _ _
  ofLength _ _ _ _ _ _ _ := rfl

theorem plain_injective : plain.Injective :=
  fun _ _ _ _ _ _ _ same => (List.cons.inj same).2

def salts : Nat → List UInt8 := fun _ => List.replicate 16 7

/-- A password of 1024 characters. -/
def longest : List UInt8 := 98 :: List.replicate 1023 97

end Sample

theorem short_text_verifies_exactly :
    check Tenant.defaultPolicy (runes (utf8 "correct horse".toList)) = .ok ()
      ∧ (((argonHashing Sample.plain Sample.salts).verifyText (utf8 "correct horse!".toList)
            (some ((argonHashing Sample.plain Sample.salts).hashPassword 0
              (utf8 "correct horse".toList)))).1 = true
          ↔ utf8 "correct horse!".toList = utf8 "correct horse".toList) := by
  have accepted : check Tenant.defaultPolicy (runes (utf8 "correct horse".toList)) = .ok () := by
    decide +kernel
  refine ⟨accepted, (verify_exact_iff Sample.plain_injective Sample.salts Tenant.defaultPolicy
    accepted _ 0).mpr ?_⟩
  decide +kernel

/-- One more character is not seen. -/
theorem overlong_text_verifies : check Tenant.defaultPolicy (runes Sample.longest) = .ok ()
      ∧ Sample.longest ++ [97] ≠ Sample.longest
      ∧ ((argonHashing Sample.plain Sample.salts).verifyText (Sample.longest ++ [97])
          (some ((argonHashing Sample.plain Sample.salts).hashPassword 0 Sample.longest))).1
        = true := by
  have cut : cutText (Sample.longest ++ [97]) = Sample.longest := by decide +kernel
  refine ⟨by decide +kernel, by decide +kernel, ?_⟩
  rw [Hashing.verifyText, cut]
  exact (argonHashing_verify Sample.plain_injective Sample.salts (by decide) 0 _).mpr rfl

end TangraAuth.Accounts
