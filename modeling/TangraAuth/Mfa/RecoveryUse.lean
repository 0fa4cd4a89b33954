import TangraAuth.Mfa.Service

/-!
Contract: a recovery code is redeemed once, however it is spelled.

Owns: what a verification does with an unused code, what is left afterwards, and for
which spellings and which codes that is the single redemption of the code.

Does not own: the upper case of letters and the password hash, which are parameters.
-/

namespace TangraAuth.Mfa

open TangraAuth.Library

def Data.unusedHashes (d : Data) (a : Actor) : List String :=
  (d.unusedCodes a.tenantID a.userID).map (·.codeHash)

/-- The data with a code of the user marked as used. -/
def Data.withUsed (d : Data) (a : Actor) (hash : String) : Data :=
  { d with
    codes := updateWhere
      (fun code => ownsCode a.tenantID a.userID code && code.codeHash == hash && !code.used)
      ({ · with used := true }) d.codes }

/-- No call fails. -/
def served : Faults := fun _ _ => false

/-- The input is accepted, its code is marked, and as long as no code is added every spelling
of it is refused. -/
def RedeemedOnce (plat : Platform) (a : Actor) (d : Data) (hash norm input : String) :
    Prop :=
  verify plat served a input d = (.ok .recovery, d.withUsed a hash) ∧ ∀ later fs spelling,
      (∀ left ∈ later.unusedHashes a, left ∈ (d.withUsed a hash).unusedHashes a) →
      normalizeRecovery plat spelling = some norm →
      ∃ error, (verify plat fs a spelling later).1 = .error error

theorem mem_unusedHashes_withUsed {d : Data} {a : Actor} {hash left : String} :
    left ∈ (d.withUsed a hash).unusedHashes a ↔ left ∈ d.unusedHashes a ∧ left ≠ hash := by
  simp only [Data.unusedHashes, Data.unusedCodes, Data.withUsed, List.mem_map, List.mem_filter,
    mem_updateWhere]
  constructor
  · rintro ⟨code, ⟨⟨old, stored, rfl⟩, unused⟩, rfl⟩
    split_ifs at unused ⊢ with marked
    · simp at unused
    · refine ⟨⟨old, ⟨stored, unused⟩, rfl⟩, fun same => marked ?_⟩
      simpa [same] using unused
  · rintro ⟨⟨code, ⟨stored, unused⟩, rfl⟩, different⟩
    exact ⟨code, ⟨⟨code, stored, by simp [different]⟩, unused⟩, rfl⟩

/-! ### The dash of a generated code -/

theorem mem_trimSpace {text : String} {letter : Char} (mem : letter ∈ text.toList)
    (visible : isSpace letter = false) : letter ∈ (trimSpace text).toList := by
  have kept : ∀ letters : List Char, letter ∈ letters → letter ∈ letters.dropWhile isSpace := by
    intro letters found
    rw [← List.takeWhile_append_dropWhile (p := isSpace) (l := letters), List.mem_append] at found
    rcases found with skipped | kept
    · have space := List.mem_takeWhile_imp skipped
      rw [visible] at space
      cases space
    · exact kept
  rw [trimSpace, String.toList_ofList, trimRunes, List.rdropWhile, List.mem_reverse]
  exact kept _ (List.mem_reverse.mpr (kept _ mem))

theorem generated_not_digits (bytes : Bytes) :
    isDigits (trimSpace (newRecoveryCode bytes)) = false := by
  have dash : '-' ∈ (newRecoveryCode bytes).toList := by
    simp [newRecoveryCode]
  have kept := mem_trimSpace dash (by decide)
  unfold isDigits
  rw [Bool.and_eq_false_iff]
  right
  rw [List.all_eq_false]
  exact ⟨'-', kept, by decide⟩

/-! ### One verification -/

section Verification

variable {plat : Platform} {a : Actor} {d : Data} {norm input : String}

theorem normalizeRecovery_trimSpace :
    normalizeRecovery plat (trimSpace input) = normalizeRecovery plat input := by
  unfold normalizeRecovery
  rw [trimSpace_trimSpace]

/-- A verification stops before it looks at the code, or goes on with the user it read. -/
theorem verify_cases (fs : Faults) : (∃ error, (verify plat fs a input d).1 = .error error)
      ∨ ∃ acc, verify plat fs a input d = verifyTrimmed plat fs a acc (trimSpace input) d := by
  by_cases broken : fs .verify .user = true
  · left
    simp [verify, user, query, call, Task.mapError, broken, bind, Task.andThen]
  · cases isUser : d.accounts a.tenantID a.userID with
    | none =>
      left
      simp [verify, user, query, call, Task.mapError, broken, isUser, bind, Task.andThen,
        Except.map]
    | some acc =>
      cases enabled : acc.mfaEnabled with
      | false =>
        left
        simp [verify, user, query, call, Task.mapError, broken, isUser, enabled, bind,
          Task.andThen, Except.map, Task.fail]
      | true =>
        right
        refine ⟨acc, ?_⟩
        simp [verify, user, query, call, Task.mapError, broken, isUser, enabled, bind,
          Task.andThen, Except.map]

theorem verifyOTP_cases (fs : Faults) (acc : Account) (code : String) :
    (∃ error, (verifyOTP plat fs a acc code d).1 = .error error)
      ∨ (verifyOTP plat fs a acc code d).1 = .ok .otp ∧ (trimSpace code).utf8ByteSize = 6 := by
  unfold verifyOTP
  split_ifs
  · exact Or.inl ⟨_, rfl⟩
  · cases decrypt plat a.userID acc.mfaSecretEnc with
    | none => exact Or.inl ⟨_, rfl⟩
    | some sec =>
      simp only [bind, Task.andThen, Task.read]
      cases matched : matchCode plat d.now sec code with
      | none => exact Or.inl ⟨_, rfl⟩
      | some counter =>
        have six : (trimSpace code).utf8ByteSize = 6 := by
          rw [matchCode] at matched
          by_contra other
          rw [if_pos other] at matched
          cases matched
        dsimp only
        split_ifs
        · exact Or.inl ⟨_, rfl⟩
        · simp only [Task.andThen]
          cases answer : setMFACounter fs .verify a.tenantID a.userID counter d with
          | mk res chg =>
            cases res with
            | error error => exact Or.inl ⟨error, rfl⟩
            | ok _ => exact Or.inr ⟨rfl, six⟩

theorem verify_of_letters {acc : Account} (isUser : d.accounts a.tenantID a.userID = some acc)
    (enabled : acc.mfaEnabled = true) (letters : isDigits (trimSpace input) = false)
    (spelled : normalizeRecovery plat input = some norm) {hash : String}
    (first : (d.unusedHashes a).find? (plat.verifyPassword norm) = some hash) :
    verify plat served a input d = (.ok .recovery, d.withUsed a hash) := by
  have stored := List.mem_of_find?_eq_some first
  obtain ⟨code, isUnused, isHash⟩ := List.mem_map.mp stored
  obtain ⟨isCode, own⟩ := List.mem_filter.mp isUnused
  have marks : d.codes.any (fun code => ownsCode a.tenantID a.userID code
      && code.codeHash == hash && !code.used) = true := by
    refine List.any_eq_true.mpr ⟨code, isCode, ?_⟩
    simp only [Bool.and_eq_true] at own
    simp [own.1, own.2, isHash]
  have used : useRecoveryCode served .verify a.tenantID a.userID hash d
      = (.ok (), d.withUsed a hash) := by
    simp [useRecoveryCode, call, served, marks, Data.withUsed]
  have listed : listRecoveryCodeHashes served .verify a.tenantID a.userID d
      = (.ok (d.unusedHashes a), d) := rfl
  have onward : verify plat served a input d
      = verifyTrimmed plat served a acc (trimSpace input) d := by
    simp [verify, user, query, call, served, Task.mapError, isUser, enabled, bind, Task.andThen,
      Except.map]
  rw [onward, verifyTrimmed, if_neg (by simp [letters])]
  unfold verifyRecovery
  rw [normalizeRecovery_trimSpace, spelled]
  simp only [bind, Task.andThen, listed, first, Task.mapError, used]
  rfl

theorem size_of_digits (keepsDigits : ∀ text, isDigits text = true → plat.toUpper text = text)
    (digits : isDigits (trimSpace input) = true)
    (spelled : normalizeRecovery plat input = some norm) :
    (trimSpace input).utf8ByteSize = 10 := by
  have each : ∀ letter ∈ (trimSpace input).toList, letter ≠ '-' ∧ letter ≠ ' ' := by
    intro letter mem
    have digit := List.all_eq_true.mp (Bool.and_eq_true_iff.mp digits).2 letter mem
    constructor <;> rintro rfl <;> revert digit <;> decide
  have kept : (trimSpace input).toList.filter (fun letter => letter ≠ '-' ∧ letter ≠ ' ')
      = (trimSpace input).toList :=
    List.filter_eq_self.mpr fun letter mem => by simpa using each letter mem
  unfold normalizeRecovery at spelled
  simp only [kept, String.ofList_toList, keepsDigits _ digits] at spelled
  split_ifs at spelled with size
  simpa using size

/-- Digits are never taken for a recovery code. -/
theorem verify_ne_recovery (digits : isDigits (trimSpace input) = true) (fs : Faults) :
    (verify plat fs a input d).1 ≠ .ok .recovery := by
  rcases verify_cases fs with ⟨error, refused⟩ | ⟨acc, onward⟩
  · rw [refused]
    simp
  · rw [onward, verifyTrimmed, if_pos digits]
    rcases verifyOTP_cases fs acc (trimSpace input) with ⟨error, refused⟩ | ⟨answer, -⟩
    · rw [refused]
      simp
    · rw [answer]
      simp

theorem verify_refused (fs : Faults)
    (keepsDigits : ∀ text, isDigits text = true → plat.toUpper text = text)
    (spelled : normalizeRecovery plat input = some norm)
    (spent : ∀ hash ∈ d.unusedHashes a, plat.verifyPassword norm hash = false) :
    ∃ error, (verify plat fs a input d).1 = .error error := by
  rcases verify_cases fs with refused | ⟨acc, onward⟩
  · exact refused
  · rw [onward, verifyTrimmed]
    split_ifs with digits
    · rcases verifyOTP_cases fs acc (trimSpace input) with refused | ⟨-, six⟩
      · exact refused
      · -- Ten digits are no one-time code.
        rw [trimSpace_trimSpace, size_of_digits keepsDigits digits spelled] at six
        omega
    · have listed : listRecoveryCodeHashes fs .verify a.tenantID a.userID d
          = (if fs .verify .listRecoveryCodeHashes then .error .unavailable
            else .ok (d.unusedHashes a), d) := by
        simp only [listRecoveryCodeHashes, query, call]
        split_ifs <;> rfl
      have none : (d.unusedHashes a).find? (plat.verifyPassword norm) = none :=
        List.find?_eq_none.mpr fun hash mem => by simp [spent hash mem]
      unfold verifyRecovery
      rw [normalizeRecovery_trimSpace, spelled]
      simp only [bind, Task.andThen, listed]
      split_ifs
      · exact ⟨_, rfl⟩
      · simp only [none]
        exact ⟨_, rfl⟩

end Verification

/-- A generated code is redeemed once exactly when it is not spelled in digits only and no
other unused code of the user has its normal form. -/
theorem recovery_code_redeemed_once_iff {plat : Platform}
    (keepsDigits : ∀ text, isDigits text = true → plat.toUpper text = text)
    {a : Actor} {d : Data} {acc : Account}
    (isUser : d.accounts a.tenantID a.userID = some acc)
    (enabled : acc.mfaEnabled = true) {bytes : Bytes} {norm hash : String}
    (normal : normalizeRecovery plat (newRecoveryCode bytes) = some norm)
    (unused : hash ∈ d.unusedHashes a) (hashed : plat.verifyPassword norm hash = true)
    {input : String} (spelled : normalizeRecovery plat input = some norm) :
    RedeemedOnce plat a d hash norm input ↔ isDigits (trimSpace input) = false
        ∧ ∀ other ∈ d.unusedHashes a, plat.verifyPassword norm other = true → other = hash := by
  constructor
  · rintro ⟨accepted, spent⟩
    constructor
    · by_contra digits
      exact verify_ne_recovery (by simpa using digits) served (congrArg Prod.fst accepted)
    · intro other isUnused verifies
      by_contra different
      -- The other code is left, and the dashed spelling reaches it.
      obtain ⟨error, refused⟩ := spent (d.withUsed a hash) served (newRecoveryCode bytes)
        (fun _ left => left) normal
      have left := mem_unusedHashes_withUsed.mpr ⟨isUnused, different⟩
      obtain ⟨first, found⟩ := Option.isSome_iff_exists.mp
        (List.find?_isSome.mpr ⟨other, left, verifies⟩)
      have isStill : (d.withUsed a hash).accounts a.tenantID a.userID = some acc := isUser
      have answer := verify_of_letters isStill enabled (generated_not_digits bytes) normal found
      rw [answer] at refused
      cases refused
  · rintro ⟨letters, alone⟩
    obtain ⟨first, found⟩ := Option.isSome_iff_exists.mp
      (List.find?_isSome.mpr ⟨hash, unused, hashed⟩)
    have isHash := alone first (List.mem_of_find?_eq_some found) (List.find?_some found)
    subst isHash
    refine ⟨verify_of_letters isUser enabled letters spelled found, ?_⟩
    intro later fs spelling fewer spelledLater
    refine verify_refused fs keepsDigits spelledLater fun left isLeft => ?_
    obtain ⟨wasUnused, different⟩ := mem_unusedHashes_withUsed.mp (fewer left isLeft)
    by_contra verifies
    exact different (alone left wasUnused (by simpa using verifies))

namespace Sample

/-- A hash is the text itself, and every text is in upper case. -/
def literal : Platform where
  generateCode _ _ := none
  openEnvelope _ blob := some blob
  sealEnvelope _ secret _ := secret
  verifyPassword text hash := text == hash
  hashPassword text _ := some text
  toUpper text := text
  equalFold left right := left == right
  lower text := text

def holder : Actor := ⟨1, 1⟩

/-- A user with security keys only and one unused recovery code. -/
def holding (hash : String) : Data where
  now := 0
  tenants _ := none
  accounts _ _ := some ⟨.active, true, [], 0, none⟩
  keys := ⟨[], KeyTable.unique_nil⟩
  codes := [⟨1, 1, hash, false⟩]
  enrolments := .empty
  ceremonies := .empty
  failures := .empty
  locks := .empty

end Sample

theorem lettered_code_redeemed_once :
    normalizeRecovery Sample.literal (newRecoveryCode (List.replicate 10 0)) = some "AAAAAAAAAA"
      ∧ RedeemedOnce Sample.literal Sample.holder (Sample.holding "AAAAAAAAAA") "AAAAAAAAAA"
        "AAAAAAAAAA" " AAAAA AAAAA" := by
  have normal : normalizeRecovery Sample.literal (newRecoveryCode (List.replicate 10 0))
      = some "AAAAAAAAAA" := by decide +kernel
  refine ⟨normal, (recovery_code_redeemed_once_iff (fun _ _ => rfl) rfl rfl normal (by decide)
    (by decide) (by decide +kernel)).mpr ⟨by decide +kernel, ?_⟩⟩
  intro other unused _
  simpa [Data.unusedHashes, Data.unusedCodes, Sample.holding, ownsCode, Sample.holder] using unused

/-- A code of digits is refused when its dash is left out. -/
theorem digit_code_refused :
    normalizeRecovery Sample.literal (newRecoveryCode (List.replicate 10 24)) = some "2222222222"
      ∧ normalizeRecovery Sample.literal "2222222222" = some "2222222222"
      ∧ (verify Sample.literal served Sample.holder "2222222222"
          (Sample.holding "2222222222")).1 = .error .invalidCode := by
  decide +kernel

end TangraAuth.Mfa
