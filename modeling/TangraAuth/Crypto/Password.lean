import TangraAuth.Library.Separated
import TangraAuth.Library.Texts

/-!
Contract: password hashes as PHC strings.

Owns: `HashPassword` and `VerifyPassword` with the format of the string, its parsing and the
comparison, and that a hash is accepted for exactly the password it was made from.

Does not own: the argon2 key derivation and the random source of the salt, which are
parameters.
-/

namespace TangraAuth.Crypto

open Library

structure Params where
  memory : UInt32
  time : UInt32
  threads : UInt8
  saltLen : UInt32
  keyLen : UInt32

def defaultParams : Params := ⟨19 * 1024, 2, 1, 16, 32⟩

/-- `argon2.IDKey` by password, salt, time, memory, threads and key length. A length is only ever
read off a key to derive another one of it; that keys are of this length is left open, since no
derivation into a fixed number of bytes tells all passwords apart. -/
structure Argon2 where
  idKey : List UInt8 → List UInt8 → UInt32 → UInt32 → UInt8 → UInt32 → List UInt8
  nonempty : ∀ pw salt time memory threads keyLen, 0 < keyLen →
    idKey pw salt time memory threads keyLen ≠ []
  ofLength : ∀ pw other salt time memory threads keyLen,
    idKey other salt time memory threads
        (.ofNat (idKey pw salt time memory threads keyLen).length)
      = idKey other salt time memory threads keyLen

/-- With a fixed salt and parameters no two passwords have the same key. -/
def Argon2.Injective (argon : Argon2) : Prop :=
  ∀ salt time memory threads keyLen,
    Function.Injective fun pw => argon.idKey pw salt time memory threads keyLen

def decimal (value : Nat) : String := String.ofList (Nat.toDigits 10 value)

/-- `m=%d,t=%d,p=%d`. -/
def Params.text (p : Params) : String :=
  "m=" ++ decimal p.memory.toNat ++ ",t=" ++ decimal p.time.toNat
    ++ ",p=" ++ decimal p.threads.toNat

/-- The text `$argon2id$v=19$…$salt$key`; `none` for the empty password. -/
def hashPassword (argon : Argon2) (salt pw : List UInt8) (p : Params) : Option String :=
  if pw = [] then none
  else
    let key := argon.idKey pw salt p.time p.memory p.threads p.keyLen
    some (joined '$' ["", "argon2id", "v=19", p.text, encodeBase64 salt, encodeBase64 key])

inductive HashError where
  | unsupported | parameters | salt | hash
deriving DecidableEq, Repr

/-- Memory, time and threads. -/
def scanParams (text : String) : Option (UInt32 × UInt32 × UInt8) := do
  let rest ← scanLiteral "m=".toList text.toList
  let (memory, rest) ← scanUint 32 rest
  let rest ← scanLiteral ",t=".toList rest
  let (time, rest) ← scanUint 32 rest
  let rest ← scanLiteral ",p=".toList rest
  let (threads, _) ← scanUint 8 rest
  some (.ofNat memory, .ofNat time, .ofNat threads)

/-- Whether the password is accepted, and whether the stored parameters are weaker than the
default. The derivation panics for no time or threads, which `HashPassword` never stores. -/
def verifyPassword (argon : Argon2) (pw : List UInt8) (encoded : String) :
    Except HashError (Bool × Bool) :=
  match fields '$' encoded with
  | [_, kind, version, params, salt, key] =>
    if kind ≠ "argon2id" ∨ version ≠ "v=19" then .error .unsupported
    else match scanParams params with
      | none => .error .parameters
      | some (memory, time, threads) =>
        match decodeBase64 salt with
        | none => .error .salt
        | some salt =>
          match decodeBase64 key with
          | none | some [] => .error .hash
          | some want =>
            let got := argon.idKey pw salt time memory threads (.ofNat want.length)
            .ok (got == want,
              decide (memory < defaultParams.memory ∨ time < defaultParams.time))
  | _ => .error .unsupported

/-- A hash with the default parameters is parsed back, and the keys are compared. -/
theorem verifyPassword_hashPassword (argon : Argon2) (salt : List UInt8) {stored : List UInt8}
    (nonempty : stored ≠ []) (presented : List UInt8) : ∃ encoded,
      hashPassword argon salt stored defaultParams = some encoded
        ∧ verifyPassword argon presented encoded
          = .ok (argon.idKey presented salt 2 19456 1 32 == argon.idKey stored salt 2 19456 1 32,
            false) := by
  refine ⟨_, if_neg nonempty, ?_⟩
  have params : scanParams defaultParams.text = some (19456, 2, 1) := by decide +kernel
  have plain : '$' ∉ defaultParams.text.toList := by decide +kernel
  have apart : ∀ bytes, '$' ∉ (encodeBase64 bytes).toList :=
    fun bytes mem => letters_encodeBase64 mem (by decide)
  rw [verifyPassword, fields_joined (List.cons_ne_nil _ _) (by simp [apart, plain])]
  simp only [params, decodeBase64_encodeBase64]
  have ofLength := argon.ofLength stored presented salt 2 19456 1 32
  change (match some (argon.idKey stored salt 2 19456 1 32) with
    | none | some [] => _
    | some want => _) = _
  cases key : argon.idKey stored salt 2 19456 1 32 with
  | nil => exact absurd key (argon.nonempty stored salt 2 19456 1 32 (by decide))
  | cons first rest =>
    rw [key] at ofLength
    simp only [ofLength]
    rfl

end TangraAuth.Crypto
