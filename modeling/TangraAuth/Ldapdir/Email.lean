import TangraAuth.Authz.Registration
import TangraAuth.Ldapdir.Names

/-!
Contract: the address under which a person of the directory is known.

Owns: the normalisers of imports, invitations, sign-ins and recovery requests, and that an
imported address is the same to all of them.

Does not own: Unicode's case mapping, which is a parameter.
-/

namespace TangraAuth.Ldapdir

open Accounts (runes utf8 runes_utf8)
open Authz (isControl)
open Library (isSpace trimRunes trimRunes_trimRunes)

/-- `utf8.ValidString`: the bytes are what their code points are written as. -/
def validString (text : Text) : Bool := utf8 (runes text) == text

inductive DecodeError where
  | noEmail | invalidEmail | valueTooLong
  deriving DecidableEq

def maxEmailBytes : Nat := 254

/-- The first at sign is neither the first byte nor the last. -/
def separated (address : Text) : Bool :=
  match address.findIdx? (· == 64) with
  | none => false
  | some position => 0 < position && position != address.length - 1

/-- `strings.ContainsAny(s, " \t\r\n")`. -/
def hasBlank (address : Text) : Bool := address.any fun byte => byte ∈ ([32, 9, 13, 10] : Text)

section Addresses

variable (lower : Char → Char)

/-- `strings.ToLower(strings.TrimSpace(s))`. -/
def normalised (typed : Text) : Text := utf8 ((trimRunes (runes typed)).map lower)

/-- The address that `Start` looks up. -/
def startEmail (typed : Text) : Text := normalised lower typed

/-- The address that `Recovery.Request` looks up. -/
def requestAddr (typed : Text) : Text := normalised lower typed

/-- `none` is `ErrBadEmail`. -/
def normEmail (typed : Text) : Option Text :=
  let address := normalised lower typed
  if !separated address || hasBlank address || maxEmailBytes < address.length then none
  else some address

/-- `decodeEmail` on the first value of the attribute. -/
def decodeEmail (raw : Text) : Except DecodeError Text :=
  if (trimRunes (runes raw)).isEmpty then .error .noEmail
  else if !validString raw then .error .invalidEmail
  else
    let address := normalised lower raw
    if !separated address || hasBlank address || (runes address).any isControl then
      .error .invalidEmail
    else if maxEmailBytes < address.length then .error .valueTooLong
    else .ok address

end Addresses

section Agreement

variable {lower : Char → Char}

theorem trimRunes_map (spaces : ∀ letter, isSpace (lower letter) = isSpace letter)
    (letters : List Char) : trimRunes (letters.map lower) = (trimRunes letters).map lower := by
  have same : isSpace ∘ lower = isSpace := funext spaces
  simp only [trimRunes, List.rdropWhile, List.dropWhile_map, ← List.map_reverse, same]

theorem normalised_normalised (idempotent : ∀ letter, lower (lower letter) = lower letter)
    (spaces : ∀ letter, isSpace (lower letter) = isSpace letter) (typed : Text) :
    normalised lower (normalised lower typed) = normalised lower typed := by
  have twice : lower ∘ lower = lower := funext idempotent
  rw [normalised, normalised, runes_utf8, trimRunes_map spaces, trimRunes_trimRunes, List.map_map,
    twice]

/-- An imported address is the one that invitations, sign-ins and recovery requests make of the
directory's value, and invitations make the same of it again. -/
theorem imported_address_agrees (idempotent : ∀ letter, lower (lower letter) = lower letter)
    (spaces : ∀ letter, isSpace (lower letter) = isSpace letter) {raw address : Text}
    (decoded : decodeEmail lower raw = .ok address) :
    normEmail lower raw = some address ∧ normEmail lower address = some address
      ∧ startEmail lower raw = address ∧ requestAddr lower raw = address := by
  unfold decodeEmail at decoded
  dsimp only at decoded
  split_ifs at decoded with _ _ refused long
  cases decoded
  have accepted : normEmail lower raw = some (normalised lower raw) := by
    simp_all [normEmail]
  refine ⟨accepted, ?_, rfl, rfl⟩
  rw [← accepted, normEmail, normalised_normalised idempotent spaces, normEmail]

end Agreement

/-- The value is typed with a blank in front. -/
theorem padded_address_agrees :
    normEmail id [32, 97, 64, 98] = some [97, 64, 98]
      ∧ normEmail id [97, 64, 98] = some [97, 64, 98]
      ∧ startEmail id [32, 97, 64, 98] = [97, 64, 98]
      ∧ requestAddr id [32, 97, 64, 98] = [97, 64, 98] :=
  imported_address_agrees (fun _ => rfl) (fun _ => rfl) (by decide +kernel)

end TangraAuth.Ldapdir
