import Mathlib.Data.List.DropRight
import Mathlib.Data.String.Basic

/-!
Contract: texts as Go's standard library reads and writes them.

Owns: white space, the literals and decimals of a scan format, and base64 without padding,
which decodes to what was encoded.

Does not own: the formats made of them.
-/

namespace TangraAuth.Library

/-! ### White space -/

/-- `unicode.IsSpace`. -/
def isSpace (chr : Char) : Bool :=
  let code := chr.toNat
  (0x09 ≤ code && code ≤ 0x0d) || code == 0x20 || code == 0x85 || code == 0xa0
    || code == 0x1680 || (0x2000 ≤ code && code ≤ 0x200a) || code == 0x2028 || code == 0x2029
    || code == 0x202f || code == 0x205f || code == 0x3000

def trimRunes (letters : List Char) : List Char :=
  (letters.dropWhile isSpace).rdropWhile isSpace

def trimSpace (text : String) : String := String.ofList (trimRunes text.toList)

theorem dropWhile_of_prefix {α : Type} {accept : α → Bool} {whole kept : List α}
    (front : kept <+: whole.dropWhile accept) : kept.dropWhile accept = kept := by
  cases kept with
  | nil => rfl
  | cons first rest =>
    obtain ⟨others, same⟩ := front
    have stops : accept first = false := by
      have idempotent := List.dropWhile_idempotent accept whole
      rw [← same, List.cons_append, List.dropWhile_cons] at idempotent
      by_contra accepted
      rw [if_pos (by simpa using accepted)] at idempotent
      have shorter := (List.dropWhile_sublist (p := accept) (l := rest ++ others)).length_le
      rw [idempotent, List.length_cons] at shorter
      omega
    rw [List.dropWhile_cons, if_neg (by simp [stops])]

theorem trimRunes_trimRunes (letters : List Char) :
    trimRunes (trimRunes letters) = trimRunes letters := by
  have front : (trimRunes letters).dropWhile isSpace = trimRunes letters :=
    dropWhile_of_prefix (List.rdropWhile_prefix isSpace _)
  rw [trimRunes, front, trimRunes, List.rdropWhile_idempotent]

theorem trimSpace_trimSpace (text : String) : trimSpace (trimSpace text) = trimSpace text := by
  rw [trimSpace, trimSpace, String.toList_ofList, trimRunes_trimRunes]

/-! ### Scan formats -/

/-- Skips space before a value; a newline is refused. -/
def skipSpace : List Char → Option (List Char)
  | [] => some []
  | chr :: rest =>
    if chr = '\n' then none else if isSpace chr then skipSpace rest else some (chr :: rest)

/-- A literal of the format, which the text has to begin with. -/
def scanLiteral : List Char → List Char → Option (List Char)
  | [], text => some text
  | letter :: literal, chr :: rest => if chr = letter then scanLiteral literal rest else none
  | _ :: _, [] => none

/-- `%d` for an unsigned integer of so many bits, and the rest of the text. -/
def scanUint (bits : Nat) (text : List Char) : Option (Nat × List Char) := do
  let text ← skipSpace text
  let digits := text.takeWhile Char.isDigit
  let value := Nat.ofDigitChars 10 digits 0
  if digits ≠ [] ∧ value < 2 ^ bits then some (value, text.dropWhile Char.isDigit) else none

/-! ### Base64 -/

def alphabet : List Char :=
  "ABCDEFGHIJKLMNOPQRSTUVWXYZabcdefghijklmnopqrstuvwxyz0123456789+/".toList

def letterOf (sextet : Nat) : Char := alphabet.getD sextet 'A'

def sextetOf (letter : Char) : Option Nat := alphabet.findIdx? (· == letter)

/-- The bits of the bytes, six at a time, the last filled up with zeros. -/
def sextets : List UInt8 → List Nat
  | [] => []
  | [a] => [a.toNat / 4, a.toNat % 4 * 16]
  | [a, b] => [a.toNat / 4, a.toNat % 4 * 16 + b.toNat / 16, b.toNat % 16 * 4]
  | a :: b :: c :: rest =>
    a.toNat / 4 :: (a.toNat % 4 * 16 + b.toNat / 16) :: (b.toNat % 16 * 4 + c.toNat / 64)
      :: c.toNat % 64 :: sextets rest

/-- A single sextet left over is an error, bits left over are dropped. -/
def bytesOf : List Nat → Option (List UInt8)
  | [] => some []
  | [_] => none
  | [a, b] => some [.ofNat (a * 4 + b / 16)]
  | [a, b, c] => some [.ofNat (a * 4 + b / 16), .ofNat (b % 16 * 16 + c / 4)]
  | a :: b :: c :: d :: rest =>
    (bytesOf rest).map fun tail => .ofNat (a * 4 + b / 16) :: .ofNat (b % 16 * 16 + c / 4)
      :: .ofNat (c % 4 * 64 + d) :: tail

/-- `base64.RawStdEncoding.EncodeToString`. -/
def encodeBase64 (bytes : List UInt8) : String := String.ofList ((sextets bytes).map letterOf)

/-- `base64.RawStdEncoding.DecodeString`; line breaks are skipped. -/
def decodeBase64 (text : String) : Option (List UInt8) :=
  ((text.toList.filter fun chr => chr != '\r' && chr != '\n').mapM sextetOf).bind bytesOf

theorem sextets_lt (bytes : List UInt8) : ∀ sextet ∈ sextets bytes, sextet < 64 := by
  fun_induction sextets with
  | case1 => simp
  | case2 a =>
    have := a.toNat_lt
    intro sextet mem
    simp only [List.mem_cons, List.not_mem_nil, or_false] at mem
    omega
  | case3 a b =>
    have := a.toNat_lt
    have := b.toNat_lt
    intro sextet mem
    simp only [List.mem_cons, List.not_mem_nil, or_false] at mem
    omega
  | case4 a b c rest ih =>
    have := a.toNat_lt
    have := b.toNat_lt
    have := c.toNat_lt
    intro sextet mem
    simp only [List.mem_cons] at mem
    rcases mem with rfl | rfl | rfl | rfl | later
    · omega
    · omega
    · omega
    · omega
    · exact ih sextet later

theorem ofNat_eq (byte : UInt8) {value : Nat} (same : value = byte.toNat) :
    UInt8.ofNat value = byte := by
  rw [same, UInt8.ofNat_toNat]

theorem bytesOf_sextets (bytes : List UInt8) : bytesOf (sextets bytes) = some bytes := by
  fun_induction sextets with
  | case1 => rfl
  | case2 a => rw [bytesOf, ofNat_eq a (by omega)]
  | case3 a b =>
    have := b.toNat_lt
    rw [bytesOf, ofNat_eq a (by omega), ofNat_eq b (by omega)]
  | case4 a b c rest ih =>
    have := b.toNat_lt
    have := c.toNat_lt
    rw [bytesOf, ih, ofNat_eq a (by omega), ofNat_eq b (by omega), ofNat_eq c (by omega)]
    rfl

/-- Every letter of the alphabet is read back, and is no separator or line break. -/
theorem letterOf_spec : ∀ sextet < 64, sextetOf (letterOf sextet) = some sextet
    ∧ letterOf sextet ∉ ['\r', '\n', '$'] := by
  decide +kernel

theorem mapM_letterOf {digits : List Nat} (small : ∀ sextet ∈ digits, sextet < 64) :
    (digits.map letterOf).mapM sextetOf = some digits := by
  induction digits with
  | nil => rfl
  | cons first rest ih =>
    rw [List.map_cons, List.mapM_cons, (letterOf_spec first (small first List.mem_cons_self)).1,
      ih fun sextet mem => small sextet (List.mem_cons_of_mem _ mem)]
    rfl

theorem letters_encodeBase64 {bytes : List UInt8} {letter : Char}
    (mem : letter ∈ (encodeBase64 bytes).toList) : letter ∉ ['\r', '\n', '$'] := by
  rw [encodeBase64, String.toList_ofList] at mem
  obtain ⟨sextet, inText, rfl⟩ := List.mem_map.mp mem
  exact (letterOf_spec sextet (sextets_lt bytes sextet inText)).2

theorem decodeBase64_encodeBase64 (bytes : List UInt8) :
    decodeBase64 (encodeBase64 bytes) = some bytes := by
  have kept : (encodeBase64 bytes).toList.filter (fun chr => chr != '\r' && chr != '\n')
      = (encodeBase64 bytes).toList := by
    refine List.filter_eq_self.mpr fun letter mem => ?_
    have := letters_encodeBase64 mem
    simp_all
  rw [decodeBase64, kept, encodeBase64, String.toList_ofList, mapM_letterOf (sextets_lt bytes)]
  exact bytesOf_sextets bytes

end TangraAuth.Library
