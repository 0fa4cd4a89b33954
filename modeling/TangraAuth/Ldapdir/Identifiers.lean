import TangraAuth.Ldapdir.Names

/-!
Contract: the text of an Active Directory objectGUID.

Owns: `formatGUID`, `parseGUID` and the hexadecimal coding they call, and that each undoes
the other.

Does not own: the attribute the bytes are read from.
-/

namespace TangraAuth.Ldapdir

/-! ### Hexadecimal digits -/

def hexDigit (n : Nat) : UInt8 := if n < 10 then .ofNat (48 + n) else .ofNat (87 + n)

/-- `hex.EncodeToString`. -/
def encodeHex (bytes : List UInt8) : Text :=
  bytes.flatMap fun byte => [hexDigit (byte.toNat / 16), hexDigit (byte.toNat % 16)]

def fromHexChar (letter : UInt8) : Option Nat :=
  if 48 ≤ letter ∧ letter ≤ 57 then some (letter.toNat - 48)
  else if 97 ≤ letter ∧ letter ≤ 102 then some (letter.toNat - 87)
  else if 65 ≤ letter ∧ letter ≤ 70 then some (letter.toNat - 55)
  else none

/-- `hex.DecodeString`. -/
def decodeHex : Text → Option (List UInt8)
  | [] => some []
  | high :: low :: rest => do
    let byte := 16 * (← fromHexChar high) + (← fromHexChar low)
    return .ofNat byte :: (← decodeHex rest)
  | [_] => none

/-- A letter of `strings.ToLower`, on ASCII. -/
def lowerASCII (letter : UInt8) : UInt8 := if 65 ≤ letter ∧ letter ≤ 90 then letter + 32 else letter

theorem fromHexChar_spec {letter : UInt8} {n : Nat} (digit : fromHexChar letter = some n) :
    n < 16 ∧ hexDigit n = lowerASCII letter ∧ letter ≠ 45 := by
  have table : ∀ i : Fin 256, (fromHexChar (.ofFin i)).all fun n =>
      n < 16 ∧ hexDigit n = lowerASCII (.ofFin i) ∧ UInt8.ofFin i ≠ 45 := by
    decide +kernel
  have checked := table letter.toFin
  rw [UInt8.ofFin_toFin, digit] at checked
  simpa using checked

theorem fromHexChar_hexDigit : ∀ n < 16, fromHexChar (hexDigit n) = some n := by
  decide

theorem decodeHex_encodeHex (bytes : List UInt8) : decodeHex (encodeHex bytes) = some bytes := by
  induction bytes with
  | nil => rfl
  | cons byte rest ih =>
    have small := byte.toNat_lt
    have high := fromHexChar_hexDigit (byte.toNat / 16) (by omega)
    have low := fromHexChar_hexDigit (byte.toNat % 16) (by omega)
    have whole : 16 * (byte.toNat / 16) + byte.toNat % 16 = byte.toNat := Nat.div_add_mod _ _
    unfold encodeHex at ih ⊢
    simp only [List.flatMap_cons, List.cons_append, List.nil_append, decodeHex, high, low, ih]
    simp only [Option.bind_eq_bind, Option.bind_some, whole, UInt8.ofNat_toNat, Option.pure_def]

/-- What is decoded is two digits for each byte, and encodes to them in lower case. -/
theorem decodeHex_spec {digits : Text} {bytes : List UInt8}
    (decoded : decodeHex digits = some bytes) :
    encodeHex bytes = digits.map lowerASCII ∧ digits.length = 2 * bytes.length
      ∧ ∀ digit ∈ digits, digit ≠ 45 := by
  induction digits using decodeHex.induct generalizing bytes with
  | case1 =>
    cases decoded
    simp [encodeHex]
  | case2 high low rest ih =>
    simp only [decodeHex, Option.bind_eq_bind, Option.bind_eq_some_iff, Option.pure_def,
      Option.some.injEq] at decoded
    obtain ⟨first, isFirst, second, isSecond, others, isRest, rfl⟩ := decoded
    obtain ⟨firstSmall, firstDigit, firstApart⟩ := fromHexChar_spec isFirst
    obtain ⟨secondSmall, secondDigit, secondApart⟩ := fromHexChar_spec isSecond
    obtain ⟨same, length, apart⟩ := ih isRest
    have byte : (UInt8.ofNat (16 * first + second)).toNat = 16 * first + second :=
      UInt8.toNat_ofNat_of_lt (show 16 * first + second < 256 by omega)
    unfold encodeHex at same ⊢
    refine ⟨?_, ?_, ?_⟩
    · have high : (16 * first + second) / 16 = first := by omega
      have low : (16 * first + second) % 16 = second := by omega
      rw [List.flatMap_cons, same, byte, high, low, firstDigit, secondDigit]
      rfl
    · simp only [List.length_cons, length]
      omega
    · simp [firstApart, secondApart]
      exact apart
  | case3 => cases decoded

/-! ### Identifiers -/

/-- The first three groups of sixteen bytes turned round. -/
def swapped (b : List UInt8) : List UInt8 :=
  (b.take 4).reverse ++ ((b.drop 4).take 2).reverse ++ ((b.drop 6).take 2).reverse ++ b.drop 8

/-- `h[0:8]-h[8:12]-h[12:16]-h[16:20]-h[20:32]`. -/
def dashed (h : Text) : Text :=
  h.take 8 ++ 45 :: ((h.drop 8).take 4 ++ 45 :: ((h.drop 12).take 4 ++ 45 :: ((h.drop 16).take 4
    ++ 45 :: h.drop 20)))

def formatGUID (b : List UInt8) : Text := dashed (encodeHex (swapped b))

/-- `strings.ReplaceAll(s, "-", "")`. -/
def undashed (s : Text) : Text := s.filter (· != 45)

def parseGUID (s : Text) : Option (List UInt8) :=
  if s.length ≠ 36 ∨ [8, 13, 18, 23].any fun i => s[i]? != some 45 then none
  else match decodeHex (undashed s) with
    | none => none
    | some g => if g.length ≠ 16 then none else some (swapped g)

theorem swapped_swapped {b : List UInt8} (size : b.length = 16) :
    swapped (swapped b) = b ∧ (swapped b).length = 16 := by
  obtain ⟨b0, b1, b2, b3, b4, b5, b6, b7, rest, rfl⟩ :
      ∃ b0 b1 b2 b3 b4 b5 b6 b7 rest, b = b0 :: b1 :: b2 :: b3 :: b4 :: b5 :: b6 :: b7 :: rest := by
    rcases b with _ | ⟨b0, _ | ⟨b1, _ | ⟨b2, _ | ⟨b3, _ | ⟨b4, _ | ⟨b5, _ | ⟨b6, _ | ⟨b7,
      rest⟩⟩⟩⟩⟩⟩⟩⟩
    all_goals simp at size ⊢
  exact ⟨rfl, size⟩

theorem parseGUID_eq_some {s : Text} {b : List UInt8} : parseGUID s = some b
    ↔ (s.length = 36 ∧ s[8]? = some 45 ∧ s[13]? = some 45 ∧ s[18]? = some 45 ∧ s[23]? = some 45)
      ∧ ∃ g, decodeHex (undashed s) = some g ∧ g.length = 16 ∧ swapped g = b := by
  unfold parseGUID
  cases decodeHex (undashed s) <;> simp

/-- Thirty-two digits are what is left of their groups, and of no other text. -/
theorem undashed_eq_iff {s digits : Text} (apart : ∀ digit ∈ digits, digit ≠ 45)
    (size : digits.length = 32) :
    (s.length = 36 ∧ s[8]? = some 45 ∧ s[13]? = some 45 ∧ s[18]? = some 45 ∧ s[23]? = some 45)
      ∧ undashed s = digits ↔ s = dashed digits := by
  have four : ∀ (text : Text) i, text.drop i = (text.drop i).take 4 ++ text.drop (i + 4) := by
    intro text i
    rw [← List.drop_drop, List.take_append_drop]
  constructor
  · rintro ⟨⟨length, first, second, third, fourth⟩, rfl⟩
    have dash : ∀ i, s[i]? = some 45 → s.drop i = 45 :: s.drop (i + 1) := by
      intro i there
      obtain ⟨within, isDash⟩ := List.getElem?_eq_some_iff.mp there
      rw [← isDash, List.drop_eq_getElem_cons]
    have whole : s = s.take 8 ++ 45 :: ((s.drop 9).take 4 ++ 45 :: ((s.drop 14).take 4
        ++ 45 :: ((s.drop 19).take 4 ++ 45 :: s.drop 24))) := by
      rw [← dash 23 fourth, ← four s 19, ← dash 18 third, ← four s 14, ← dash 13 second, ← four s 9,
        ← dash 8 first, List.take_append_drop]
    let groups := s.take 8 ++ ((s.drop 9).take 4 ++ ((s.drop 14).take 4
      ++ ((s.drop 19).take 4 ++ s.drop 24)))
    have kept : undashed s = groups := by
      have same : undashed s = undashed groups := by
        rw [whole]
        simp [undashed, groups]
      rw [same]
      refine (List.filter_sublist).eq_of_length ?_
      rw [← undashed, ← same, size]
      simp [groups, length]
    rw [kept]
    nth_rewrite 1 [whole]
    simp [dashed, groups, length, List.drop_append, List.drop_take]
  · rintro rfl
    refine ⟨⟨?_, ?_⟩, ?_⟩
    · simp [dashed, size]
    · simp [dashed, size]
    · have kept : undashed digits = digits := by simpa [undashed] using apart
      nth_rewrite 2 [← kept]
      nth_rewrite 2 [← List.take_append_drop 8 digits]
      rw [four digits 8, four digits 12, four digits 16]
      simp [undashed, dashed]

/-- Either coding undoes the other, up to the case of the digits. -/
theorem guid_roundtrip : (∀ b : List UInt8, b.length = 16 → parseGUID (formatGUID b) = some b)
      ∧ ∀ s b, parseGUID s = some b → b.length = 16 ∧ formatGUID b = s.map lowerASCII := by
  constructor
  · intro b size
    obtain ⟨twice, size⟩ := swapped_swapped size
    have decoded := decodeHex_encodeHex (swapped b)
    obtain ⟨-, length, apart⟩ := decodeHex_spec decoded
    obtain ⟨placed, same⟩ := (undashed_eq_iff apart (by omega)).mpr rfl
    exact parseGUID_eq_some.mpr ⟨placed, _, same.symm ▸ decoded, size, twice⟩
  · intro s b parsed
    obtain ⟨placed, g, decoded, size, rfl⟩ := parseGUID_eq_some.mp parsed
    obtain ⟨encoded, length, apart⟩ := decodeHex_spec decoded
    obtain ⟨twice, size'⟩ := swapped_swapped size
    refine ⟨size', ?_⟩
    have whole := (undashed_eq_iff apart (by omega)).mp ⟨placed, rfl⟩
    rw [formatGUID, twice, encoded]
    nth_rewrite 2 [whole]
    simp [dashed, lowerASCII]

end TangraAuth.Ldapdir
