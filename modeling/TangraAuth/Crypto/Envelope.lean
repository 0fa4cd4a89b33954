import Mathlib.Data.List.Basic

/-!
Contract: the envelope that keeps small secrets in the database.

Owns: `Encrypt` and `Decrypt` with the layout of the blob, and that one undoes the other.

Does not own: AES-GCM, of which `Authentic` says what is relied on, and the random source.
-/

namespace TangraAuth.Crypto

abbrev Bytes := List UInt8

/-- AES-GCM by key, nonce, text and associated data. -/
structure Cipher where
  sealWith : Bytes → Bytes → Bytes → Bytes → Bytes
  openWith : Bytes → Bytes → Bytes → Bytes → Option Bytes

def nonceSize : Nat := 12

def overhead : Nat := 16

/-- The cipher for texts sealed with the data. No tag of fixed length tells all data apart, so
the data is fixed and the others are told from it. -/
structure Cipher.Authentic (cipher : Cipher) (ad : Bytes) : Prop where
  open_seal : ∀ key nonce text,
    cipher.openWith key nonce (cipher.sealWith key nonce text ad) ad = some text
  open_other : ∀ key nonce text other, other ≠ ad →
    cipher.openWith key nonce (cipher.sealWith key nonce text ad) other = none
  length_seal : ∀ key nonce text,
    (cipher.sealWith key nonce text ad).length = text.length + overhead

variable (cipher : Cipher) (kek : Bytes)

/-- What the random source was read into; `none` is its error. -/
def encrypt (dek : Option (Vector UInt8 32)) (n1 n2 : Option (Vector UInt8 nonceSize))
    (plaintext ad : Bytes) : Option Bytes := do
  let dek := (← dek).toList
  let n1 := (← n1).toList
  let n2 := (← n2).toList
  return n1 ++ cipher.sealWith kek n1 dek ad ++ n2 ++ cipher.sealWith dek n2 plaintext ad

/-- `b[low:high]`; `none` is the panic. -/
def slice (bytes : Bytes) (low high : Nat) : Option Bytes :=
  if low ≤ high ∧ high ≤ bytes.length then some ((bytes.drop low).take (high - low)) else none

/-- The outcome, or `none` where a slice panics. -/
def decrypt (blob ad : Bytes) : Option (Except String Bytes) := do
  let wrapLen := 32 + overhead
  if blob.length < nonceSize + wrapLen + nonceSize + 16 then
    return .error "crypto: ciphertext too short"
  match cipher.openWith kek (← slice blob 0 nonceSize)
    (← slice blob nonceSize (nonceSize + wrapLen)) ad with
  | none => return .error "crypto: unwrap failed"
  | some dek =>
    if dek.length ∉ [16, 24, 32] then return .error "crypto/aes: invalid key size"
    let rest ← slice blob (nonceSize + wrapLen) blob.length
    match cipher.openWith dek (← slice rest 0 nonceSize)
      (← slice rest nonceSize rest.length) ad with
    | none => return .error "crypto: open failed"
    | some pt => return .ok pt

theorem slice_eq {bytes pre part post : Bytes} {low high : Nat}
    (whole : bytes = pre ++ (part ++ post)) (init : pre.length = low)
    (stop : low + part.length = high) : slice bytes low high = some part := by
  subst whole init stop
  simp [slice]

/-- On the parts of a blob that is long enough. -/
theorem decrypt_eq {blob n1 wrapped n2 text ad : Bytes}
    (whole : blob = n1 ++ (wrapped ++ (n2 ++ text))) (first : n1.length = 12)
    (second : wrapped.length = 48) (third : n2.length = 12) (fourth : 16 ≤ text.length) :
    decrypt cipher kek blob ad = match cipher.openWith kek n1 wrapped ad with
      | none => some (.error "crypto: unwrap failed")
      | some dek => if dek.length ∉ [16, 24, 32] then some (.error "crypto/aes: invalid key size")
        else match cipher.openWith dek n2 text ad with
          | none => some (.error "crypto: open failed")
          | some pt => some (.ok pt) := by
  have length : blob.length = 72 + text.length := by
    simp only [whole, List.length_append]
    omega
  have nonce : slice blob 0 12 = some n1 := @slice_eq _ [] _ _ _ _ whole rfl (by omega)
  have wrap : slice blob 12 60 = some wrapped := slice_eq whole first (by omega)
  have rest : slice blob 60 blob.length = some (n2 ++ text) := by
    refine @slice_eq _ (n1 ++ wrapped) _ [] _ _ ?_ ?_ ?_
    · simp [whole]
    · simp [first, second]
    · simp only [List.length_append]
      omega
  have inner : slice (n2 ++ text) 0 12 = some n2 := @slice_eq _ [] _ _ _ _ rfl rfl (by omega)
  have last : slice (n2 ++ text) 12 (n2 ++ text).length = some text := by
    refine @slice_eq _ _ _ [] _ _ ?_ third ?_
    · simp
    · simp [third]
  have long : ¬ blob.length < 88 := by omega
  simp only [decrypt, nonceSize, overhead, Nat.reduceAdd, if_neg long, nonce, wrap, rest, inner,
    last,
    Option.bind_eq_bind, Option.bind_some, Option.pure_def]

theorem decrypt_isSome (blob ad : Bytes) : (decrypt cipher kek blob ad).isSome := by
  by_cases short : blob.length < 88
  · simp [decrypt, nonceSize, overhead, short]
  have whole : blob = blob.take 12 ++ ((blob.drop 12).take 48 ++ ((blob.drop 60).take 12
      ++ blob.drop 72)) := by
    have part : ∀ i size, blob.drop i = (blob.drop i).take size ++ blob.drop (i + size) := by
      intro i size
      rw [← List.drop_drop, List.take_append_drop]
    rw [← part 60 12, ← part 12 48, List.take_append_drop]
  rw [decrypt_eq cipher kek whole (by simp; omega) (by simp; omega) (by simp; omega)
    (by simp; omega)]
  split
  · rfl
  · split
    · rfl
    · split <;> rfl

/-- What is encrypted is decrypted with its associated data and no other, and no blob makes a
slice panic. -/
theorem envelope_faithful (ad : Bytes) (authentic : cipher.Authentic ad) :
    (∀ dek n1 n2 plaintext, ∃ blob,
      encrypt cipher kek (some dek) (some n1) (some n2) plaintext ad = some blob
        ∧ decrypt cipher kek blob ad = some (.ok plaintext)
        ∧ ∀ other, other ≠ ad → ∃ text, decrypt cipher kek blob other = some (.error text))
      ∧ ∀ blob other, (decrypt cipher kek blob other).isSome := by
  refine ⟨fun dek n1 n2 plaintext => ⟨_, rfl, ?_⟩, decrypt_isSome cipher kek⟩
  have parts := fun data => @decrypt_eq cipher kek _ _ _ _ _ data
    (List.append_assoc .. |>.trans (List.append_assoc ..)) n1.length_toList
    ((authentic.length_seal kek n1.toList dek.toList).trans (by simp [overhead])) n2.length_toList
    ((authentic.length_seal dek.toList n2.toList plaintext).symm ▸ Nat.le_add_left _ _)
  constructor
  · rw [parts ad, authentic.open_seal]
    simp [authentic.open_seal]
  · intro other differs
    rw [parts other, authentic.open_other _ _ _ other differs]
    exact ⟨_, rfl⟩

/-- A cipher whose tag tells the data `[1]` from the rest. -/
def Sample.tagged : Cipher where
  sealWith _ _ text ad := text ++ List.replicate 16 (if ad = [1] then 1 else 0)
  openWith _ _ text ad :=
    if text.drop (text.length - 16) = List.replicate 16 (if ad = [1] then 1 else 0) then
      some (text.take (text.length - 16))
    else none

/-- The key that encrypts keys, of 32 bytes. -/
def Sample.master : Bytes := List.replicate 32 7

theorem bound_secret_kept : ∃ blob,
    encrypt Sample.tagged Sample.master (some (.replicate _ 3)) (some (.replicate _ 4))
        (some (.replicate _ 5)) [9, 9] [1] = some blob
      ∧ decrypt Sample.tagged Sample.master blob [1] = some (.ok [9, 9])
      ∧ ∀ other, other ≠ [1] →
        ∃ text, decrypt Sample.tagged Sample.master blob other = some (.error text) := by
  refine (envelope_faithful Sample.tagged Sample.master [1] ⟨?_, ?_, ?_⟩).1 _ _ _ [9, 9]
  · simp [Sample.tagged]
  · intro key nonce text other differs
    simp [Sample.tagged, differs]
  · simp [Sample.tagged, overhead]

end TangraAuth.Crypto
