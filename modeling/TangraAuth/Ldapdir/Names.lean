import TangraAuth.Accounts.Password
import Mathlib.Data.List.Forall2

/-!
Contract: distinguished names and the base a directory connection is confined to.

Owns: `WithinBase` and `ScopeBase`, and that containment is a preorder on valid names.

Does not own: the parser and the comparisons of names, which are go-ldap's. They are a
parameter with the laws their documentation states.
-/

namespace TangraAuth.Ldapdir

open Accounts (runes utf8)
open Library (isSpace)

abbrev Text := List UInt8

/-- The attributes of one RDN, type and value. -/
abbrev RDN := List (Text × Text)

/-- The DN functions of go-ldap. Names are compared RDN by RDN; an ancestor is what follows at
least one RDN of the other name. -/
structure DNLibrary where
  parse : Text → Option (List RDN)
  rdnEqualFold : RDN → RDN → Bool
  equalFold : List RDN → List RDN → Bool
  ancestorOfFold : List RDN → List RDN → Bool
  equalFold_iff : ∀ left right, equalFold left right = true
    ↔ List.Forall₂ (fun rdn other => rdnEqualFold rdn other = true) left right
  ancestorOfFold_iff : ∀ left right, ancestorOfFold left right = true
    ↔ ∃ front ending, right = front ++ ending ∧ front ≠ []
      ∧ List.Forall₂ (fun rdn other => rdnEqualFold rdn other = true) left ending

def DNLibrary.Alike (lib : DNLibrary) (left right : RDN) : Prop :=
  lib.rdnEqualFold left right = true

def maxDNBytes : Nat := 1024

/-- What `strings.TrimSpace` leaves empty. -/
def blank (text : Text) : Bool := (runes text).all isSpace

variable (lib : DNLibrary)

def parseDN (text : Text) : Option (List RDN) :=
  if blank text || maxDNBytes < text.length then none
  else (lib.parse text).filter fun rdns =>
    !rdns.isEmpty && rdns.all fun rdn => rdn.all fun pair => !pair.1.isEmpty && !pair.2.isEmpty

def within (base dn : List RDN) : Bool :=
  lib.equalFold base dn || lib.ancestorOfFold base dn

def withinBase (connBase entryDN : Text) : Bool :=
  match parseDN lib connBase, parseDN lib entryDN with
  | some base, some e => within lib base e
  | _, _ => false

/-- Every refusal is `ErrInvalidBase`. -/
def scopeBase (connBase requested : Text) : Option Text :=
  match parseDN lib connBase with
  | none => none
  | some base =>
    if blank requested then some connBase
    else match parseDN lib requested with
      | none => none
      | some narrowed => if within lib base narrowed then some requested else none

section Preorder

variable {lib}

/-- The base is, RDN by RDN, the end of the name. -/
theorem within_iff {base dn : List RDN} : within lib base dn = true
    ↔ ∃ front ending, dn = front ++ ending ∧ List.Forall₂ lib.Alike base ending := by
  rw [within, Bool.or_eq_true, lib.equalFold_iff, lib.ancestorOfFold_iff]
  constructor
  · rintro (same | ⟨front, ending, split, -, same⟩)
    · exact ⟨[], dn, rfl, same⟩
    · exact ⟨front, ending, split, same⟩
  · rintro ⟨front, ending, split, same⟩
    by_cases whole : front = []
    · rw [whole, List.nil_append] at split
      exact Or.inl (split ▸ same)
    · exact Or.inr ⟨front, ending, split, whole, same⟩

variable (equivalence : Equivalence lib.Alike)

include equivalence

theorem alike_trans {first second third : List RDN} (left : List.Forall₂ lib.Alike first second)
    (right : List.Forall₂ lib.Alike second third) :
    List.Forall₂ lib.Alike first third := by
  induction left generalizing third with
  | nil => exact right
  | cons same _ ih =>
    obtain ⟨rdn, rest, next, others, rfl⟩ := List.forall₂_cons_left_iff.mp right
    exact .cons (equivalence.trans same next) (ih others)

theorem within_trans {top middle bottom : List RDN} (upper : within lib top middle = true)
    (lower : within lib middle bottom = true) : within lib top bottom = true := by
  rw [within_iff] at upper lower ⊢
  obtain ⟨above, ending, rfl, isTop⟩ := upper
  obtain ⟨front, rest, rfl, isMiddle⟩ := lower
  -- The end of the middle name lies against the end of the bottom one.
  have ends := List.forall₂_drop above.length isMiddle
  rw [List.drop_left] at ends
  refine ⟨front ++ rest.take above.length, rest.drop above.length, ?_,
    alike_trans equivalence isTop ends⟩
  rw [List.append_assoc, List.take_append_drop]

omit equivalence in
theorem withinBase_iff {connBase entryDN : Text} :
    withinBase lib connBase entryDN = true ↔ ∃ base e,
      parseDN lib connBase = some base ∧ parseDN lib entryDN = some e
        ∧ within lib base e = true := by
  unfold withinBase
  cases parseDN lib connBase <;> cases parseDN lib entryDN <;> simp

theorem withinBase_trans {top middle bottom : Text} (upper : withinBase lib top middle = true)
    (lower : withinBase lib middle bottom = true) : withinBase lib top bottom = true := by
  obtain ⟨base, narrowed, isBase, isNarrowed, above⟩ := withinBase_iff.mp upper
  obtain ⟨_, e, isMiddle, isEntry, below⟩ := withinBase_iff.mp lower
  cases isNarrowed.symm.trans isMiddle
  exact withinBase_iff.mpr ⟨base, e, isBase, isEntry, within_trans equivalence above below⟩

theorem scopeBase_within {connBase requested base entryDN : Text}
    (searched : scopeBase lib connBase requested = some base)
    (inside : withinBase lib base entryDN = true) :
    withinBase lib connBase entryDN = true := by
  unfold scopeBase at searched
  split at searched
  case h_1 => cases searched
  case h_2 dn isConn =>
    split_ifs at searched
    · cases searched
      exact inside
    · split at searched
      case h_1 => cases searched
      case h_2 narrowed isRequested =>
        split_ifs at searched with below
        cases searched
        have above := withinBase_iff.mpr ⟨dn, narrowed, isConn, isRequested, below⟩
        exact withinBase_trans equivalence above inside

end Preorder

/-- Containment is reflexive on valid names and transitive, and no search leaves its base. -/
theorem names_confined (equivalence : Equivalence lib.Alike) :
    (∀ name, (parseDN lib name).isSome → withinBase lib name name = true)
      ∧ (∀ top middle bottom, withinBase lib top middle = true →
        withinBase lib middle bottom = true → withinBase lib top bottom = true)
      ∧ ∀ connBase requested base entryDN, scopeBase lib connBase requested = some base →
        withinBase lib base entryDN = true → withinBase lib connBase entryDN = true := by
  refine ⟨fun name valid => ?_, fun _ _ _ => withinBase_trans equivalence,
    fun _ _ _ _ => scopeBase_within equivalence⟩
  obtain ⟨dn, isName⟩ := Option.isSome_iff_exists.mp valid
  refine withinBase_iff.mpr ⟨dn, dn, isName, isName, within_iff.mpr ⟨[], dn, rfl, ?_⟩⟩
  exact List.forall₂_same.mpr fun rdn _ => equivalence.refl rdn

namespace Sample

/-- The small letter of an ASCII one. -/
def foldByte (byte : UInt8) : UInt8 := if 65 ≤ byte ∧ byte ≤ 90 then byte + 32 else byte

def foldRDN (rdn : RDN) : RDN := rdn.map fun pair => (pair.1.map foldByte, pair.2.map foldByte)

/-- RDNs of one attribute, without escapes. -/
def parseNames (text : Text) : Option (List RDN) :=
  (text.splitOn 44).mapM fun part =>
    match part.splitOn 61 with
    | [attr, value] => some [(attr, value)]
    | _ => none

theorem forall₂_fold_iff {left right : List RDN} :
    List.Forall₂ (fun rdn other => (foldRDN rdn == foldRDN other) = true) left right
      ↔ left.map foldRDN = right.map foldRDN := by
  have mapped : List.Forall₂ Eq (left.map foldRDN) (right.map foldRDN)
      ↔ List.Forall₂ (fun rdn other => foldRDN rdn = foldRDN other) left right := by
    rw [List.forall₂_map_left_iff, List.forall₂_map_right_iff]
  simp only [beq_iff_eq]
  rw [← mapped, List.forall₂_eq_eq_eq]

def names : DNLibrary where
  parse := parseNames
  rdnEqualFold left right := foldRDN left == foldRDN right
  equalFold left right := left.map foldRDN == right.map foldRDN
  ancestorOfFold left right := decide (left.length < right.length)
    && left.map foldRDN == (right.drop (right.length - left.length)).map foldRDN
  equalFold_iff left right := by rw [beq_iff_eq, forall₂_fold_iff]
  ancestorOfFold_iff left right := by
    rw [Bool.and_eq_true, decide_eq_true_eq, beq_iff_eq]
    simp only [forall₂_fold_iff]
    constructor
    · rintro ⟨longer, same⟩
      refine ⟨_, _, (List.take_append_drop _ right).symm, fun none => ?_, same⟩
      have counted := congrArg List.length none
      rw [List.length_take, List.length_nil] at counted
      omega
    · rintro ⟨front, ending, rfl, some, same⟩
      have counted := congrArg List.length same
      rw [List.length_map, List.length_map] at counted
      have shorter := List.length_pos_iff.mpr some
      rw [List.length_append, counted, Nat.add_sub_cancel, List.drop_left]
      exact ⟨by omega, same⟩

theorem names_equivalence : Equivalence names.Alike where
  refl rdn := beq_self_eq_true (foldRDN rdn)
  symm same := beq_iff_eq.mpr (beq_iff_eq.mp same).symm
  trans left right := beq_iff_eq.mpr ((beq_iff_eq.mp left).trans (beq_iff_eq.mp right))

end Sample

/-- A search below `dc=y` that is narrowed to `OU=x,DC=y` finds only entries below `dc=y`. -/
theorem sample_name_confined :
    scopeBase Sample.names (utf8 "dc=y".toList) (utf8 "OU=x,DC=y".toList)
        = some (utf8 "OU=x,DC=y".toList)
      ∧ withinBase Sample.names (utf8 "dc=y".toList) (utf8 "cn=z,ou=X,dc=Y".toList) = true := by
  have narrowed : scopeBase Sample.names (utf8 "dc=y".toList) (utf8 "OU=x,DC=y".toList)
      = some (utf8 "OU=x,DC=y".toList) := by decide +kernel
  refine ⟨narrowed, (names_confined Sample.names Sample.names_equivalence).2.2 _ _ _ _ narrowed ?_⟩
  decide +kernel

end TangraAuth.Ldapdir
