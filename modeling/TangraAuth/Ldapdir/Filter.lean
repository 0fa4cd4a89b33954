import TangraAuth.Ldapdir.Email

/-!
Contract: the filters of a directory search.

Owns: the policy on compiled filters, their canonical texts, the conjunction of
a connection's base filter with the filter of a search, and the plan of a search.

Does not own: go-ldap's compiler of filters and the writer that inverts it.
-/

namespace TangraAuth.Ldapdir

/-- A BER packet; the data are the octets of a primitive one. -/
structure Packet where
  classType : Nat
  tag : Nat
  data : Option Text
  children : List Packet

def packetString (p : Packet) : Text := p.data.getD []

def classContext : Nat := 128
def maxFilterBytes : Nat := 4096
def maxFilterDepth : Nat := 16
def maxFilterComponents : Nat := 64

/-! ### The policy -/

def isAlpha (byte : UInt8) : Bool := 97 ≤ byte && byte ≤ 122 || 65 ≤ byte && byte ≤ 90

def isDigit (byte : UInt8) : Bool := 48 ≤ byte && byte ≤ 57

def isKeychar (byte : UInt8) : Bool := isAlpha byte || isDigit byte || byte == 45

def isDescriptor (s : Text) : Bool := s.head?.any isAlpha && s.all isKeychar

def isOID (s : Text) : Bool :=
  let parts := s.splitOn 46
  2 ≤ parts.length && parts.all fun n =>
    !n.isEmpty && !(1 < n.length && n.head? == some 48) && n.all isDigit

abbrev Check := Except String

def invalid {α : Type} : Check α := .error "filter is not valid"

def checkValue (v : Text) : Check Unit :=
  if v.contains 0 then .error "filter contains a NUL character" else pure ()

def checkAttr (a : Text) : Check Unit :=
  let typ := (a.splitOn 59).headD []
  let opts := (a.splitOn 59).tail
  if (isDescriptor typ || isOID typ) && opts.all fun o => !o.isEmpty && o.all isKeychar then pure ()
  else .error "filter attribute description is not allowed"

/-- `strings.EqualFold(rule, "dn")`. -/
def foldsToDN (rule : Text) : Bool :=
  rule ∈ ([[100, 110], [100, 78], [68, 110], [68, 78]] : List Text)

/-- The tags are those of matching rule, type, value and `:dn:` flag. -/
def checkExtensible : List Packet → Check Unit
  | [] => pure ()
  | c :: rest => do
    match c.tag with
    | 1 =>
      if foldsToDN (packetString c) then .error "write the :dn: flag in lower case"
      else if isDescriptor (packetString c) || isOID (packetString c) then pure ()
      else .error "filter matching rule is not allowed"
    | 2 => checkAttr (packetString c)
    | 3 => checkValue (packetString c)
    | 4 => pure ()
    | _ => invalid
    checkExtensible rest

mutual

/-- The components counted up to the packet's last one. The tags are and 0, or 1, not 2,
equality 3, substrings 4, order 5 and 6, presence 7, approximation 8, extensible match 9. -/
def walk (depth components : Nat) : Packet → Check Nat
  | ⟨classType, tag, data, children⟩ =>
    if maxFilterDepth < depth then .error "filter nests deeper than 16 levels"
    else if maxFilterComponents < components + 1 then .error "filter has more than 64 components"
    else if classType ≠ classContext then invalid
    else match tag, children with
      | 0, _ | 1, _ | 2, _ => walkAll (depth + 1) (components + 1) children
      | 7, _ => do
        checkAttr (data.getD [])
        pure (components + 1)
      | 3, [attr, value] | 5, [attr, value] | 6, [attr, value] | 8, [attr, value] => do
        checkAttr (packetString attr)
        checkValue (packetString value)
        pure (components + 1)
      | 4, [attr, parts] => do
        checkAttr (packetString attr)
        parts.children.forM fun part => checkValue (packetString part)
        pure (components + 1)
      | 9, _ => do
        checkExtensible children
        pure (components + 1)
      | _, _ => invalid

def walkAll (depth components : Nat) : List Packet → Check Nat
  | [] => pure components
  | c :: rest => do
    let components ← walk depth components c
    walkAll depth components rest

end

def checkFilter (p : Packet) : Check Unit := do
  let _ ← walk 1 0 p

/-! ### Canonical texts -/

/-- `(objectClass=*)`. -/
def matchAll : Text := [40, 111, 98, 106, 101, 99, 116, 67, 108, 97, 115, 115, 61, 42, 41]

/-- `(&fg)`. -/
def andText (f g : Text) : Text := [40, 38] ++ f ++ g ++ [41]

/-- `CompileFilter`, an error as `filterParseDetail` shows it, and `DecompileFilter`. -/
structure FilterLibrary where
  compile : Text → Check Packet
  decompile : Packet → Option Text

section Filters

variable (lib : FilterLibrary)

/-- What a canonical text is written as again, empty if it does not compile. -/
def rewritten (canon : Text) : Check Text :=
  match lib.compile canon with
  | .error _ => pure []
  | .ok p => do
    checkFilter p
    pure ((lib.decompile p).getD [])

def canonicalise (p : Packet) : Check Text :=
  match lib.decompile p with
  | none => .error "filter cannot be re-serialised"
  | some canon =>
    if maxFilterBytes < canon.length then
      .error "filter is longer than 4096 bytes once canonicalised"
    else do
      let again ← rewritten lib canon
      if again = canon then pure canon else .error "filter cannot be re-serialised"

def compileUserFilter (s : Text) : Check Text :=
  if maxFilterBytes < s.length then .error "filter is longer than 4096 bytes"
  else if !validString s then .error "filter is not valid UTF-8"
  else if s.contains 0 then .error "filter contains a NUL character"
  else if blank s then pure matchAll
  else do
    let p ← lib.compile s
    checkFilter p
    canonicalise lib p

/-- The zero value of a filter is the empty text. -/
def combine (base user : Text) : Check Text :=
  if base = [] ∨ user = [] then .error "filter is missing"
  else match lib.compile (andText base user) with
    | .error _ => .error "filters cannot be combined"
    | .ok p =>
      if p.classType = classContext ∧ p.tag = 0 ∧ p.children.length = 2
          ∧ lib.decompile p = some (andText base user) then
        pure (andText base user)
      else .error "filters cannot be combined"

/-- What is saved of a base filter. Every refusal is `ErrInvalidFilter`. -/
def canonicalFilter (f : Text) : Option Text :=
  if blank f then some []
  else if maxFilterBytes < f.length then none
  else (compileUserFilter lib f).toOption

inductive PlanError where
  | validation
  | filter (detail : String)
  | base

structure SearchPlan where
  sub : Bool
  userCan : Text
  filter : Text
  baseDN : Text

/-- The plan of a search, as far as it is computed: the rest is copied from the connection. -/
def planSearch (names : DNLibrary) (baseFilter baseDN : Text) (scope : String)
    (filter requested : Text) : Except PlanError SearchPlan := do
  let sub ← match scope with
    | "" | "sub" => pure true
    | "one" => pure false
    | _ => .error .validation
  let user ← (compileUserFilter lib filter).mapError .filter
  let base ← (compileUserFilter lib baseFilter).mapError .filter
  let effective ← (combine lib base user).mapError .filter
  match scopeBase names baseDN requested with
  | none => .error .base
  | some dn => pure ⟨sub, user, effective, dn⟩

end Filters

/-! ### Closure -/

def allPacket : Packet :=
  ⟨classContext, 7, some [111, 98, 106, 101, 99, 116, 67, 108, 97, 115, 115], []⟩

def andPacket (p q : Packet) : Packet := ⟨classContext, 0, none, [p, q]⟩

/-- What is assumed of go-ldap: the writer escapes what an allowed packet holds, and the filter
that matches everything is read and written as such. -/
structure FilterLibrary.Lawful (lib : FilterLibrary) : Prop where
  plain : ∀ p s, checkFilter p = .ok () → lib.decompile p = some s →
    validString s = true ∧ 0 ∉ s ∧ blank s = false
  compileAll : lib.compile matchAll = .ok allPacket
  decompileAll : lib.decompile allPacket = some matchAll

/-- Two complete texts are read as the conjunction of what they are read as alone, and a
conjunction is written as its children's texts. -/
def FilterLibrary.Conjoins (lib : FilterLibrary) (f g : Text) : Prop :=
  ∀ p q, lib.compile f = .ok p → lib.compile g = .ok q →
    lib.compile (andText f g) = .ok (andPacket p q)
      ∧ (lib.decompile p = some f → lib.decompile q = some g →
        lib.decompile (andPacket p q) = some (andText f g))

variable {lib : FilterLibrary}

/-- A text that is read as an allowed packet which is written as that text. -/
structure Stable (lib : FilterLibrary) (canon : Text) (p : Packet) : Prop where
  short : canon.length ≤ maxFilterBytes
  compiled : lib.compile canon = .ok p
  checked : checkFilter p = .ok ()
  written : lib.decompile p = some canon

theorem bind_eq_ok {α β : Type} {x : Check α} {f : α → Check β} {b : β}
    (isOk : (x >>= f) = .ok b) : ∃ a, x = .ok a ∧ f a = .ok b := by
  cases x with
  | error e => cases isOk
  | ok a => exact ⟨a, rfl, isOk⟩

theorem FilterLibrary.Lawful.ne_nil (lawful : lib.Lawful) {p : Packet} {s : Text}
    (checked : checkFilter p = .ok ()) (written : lib.decompile p = some s) : s ≠ [] := by
  rintro rfl
  exact absurd (lawful.plain p [] checked written).2.2 (by decide)

theorem rewritten_eq_ok {canon : Text} (filled : canon ≠ [])
    (isOk : rewritten lib canon = .ok canon) :
    ∃ p, lib.compile canon = .ok p ∧ checkFilter p = .ok () ∧ lib.decompile p = some canon := by
  unfold rewritten at isOk
  split at isOk
  · cases isOk
    exact absurd rfl filled
  · rename_i p compiled
    obtain ⟨⟨⟩, checked, isOk⟩ := bind_eq_ok isOk
    refine ⟨p, compiled, checked, ?_⟩
    cases written : lib.decompile p <;> simp_all [pure, Except.pure]

/-- The fixed point is the one that `canonicalise` looks for itself. -/
theorem canonicalise_stable (lawful : lib.Lawful) {p : Packet} {canon : Text}
    (checked : checkFilter p = .ok ()) (isOk : canonicalise lib p = .ok canon) :
    ∃ again, Stable lib canon again := by
  unfold canonicalise at isOk
  split at isOk
  · cases isOk
  rename_i text written
  split at isOk
  · cases isOk
  rename_i short
  obtain ⟨again, rewrites, isOk⟩ := bind_eq_ok isOk
  split at isOk
  · rename_i same
    subst same
    cases isOk
    obtain ⟨q, compiled, allowed, decompiled⟩ :=
      rewritten_eq_ok (lawful.ne_nil checked written) rewrites
    exact ⟨q, Nat.le_of_not_lt short, compiled, allowed, decompiled⟩
  · cases isOk

theorem compileUserFilter_stable (lawful : lib.Lawful) {s canon : Text}
    (isOk : compileUserFilter lib s = .ok canon) : ∃ p, Stable lib canon p := by
  unfold compileUserFilter at isOk
  split at isOk
  · cases isOk
  split at isOk
  · cases isOk
  split at isOk
  · cases isOk
  split at isOk
  · cases isOk
    exact ⟨allPacket, by decide, lawful.compileAll, rfl, lawful.decompileAll⟩
  · obtain ⟨p, -, isOk⟩ := bind_eq_ok isOk
    obtain ⟨⟨⟩, checked, isOk⟩ := bind_eq_ok isOk
    exact canonicalise_stable lawful checked isOk

theorem Stable.compileUserFilter (lawful : lib.Lawful) {canon : Text} {p : Packet}
    (stable : Stable lib canon p) : compileUserFilter lib canon = .ok canon := by
  obtain ⟨valid, noNul, filled⟩ := lawful.plain p canon stable.checked stable.written
  have short : ¬maxFilterBytes < canon.length := Nat.not_lt.mpr stable.short
  simp [Ldapdir.compileUserFilter, canonicalise, rewritten, short, valid, noNul, filled,
    stable.compiled, stable.checked, stable.written, pure, Except.pure, bind, Except.bind]

theorem Stable.combine (lawful : lib.Lawful) {base user : Text} {p q : Packet}
    (first : Stable lib base p) (second : Stable lib user q)
    (conjoins : lib.Conjoins base user) :
    combine lib base user = .ok (andText base user) := by
  have baseFilled := lawful.ne_nil first.checked first.written
  have userFilled := lawful.ne_nil second.checked second.written
  obtain ⟨compiled, written⟩ := conjoins p q first.compiled second.compiled
  simp only [Ldapdir.combine, baseFilled, userFilled, or_self, if_false, compiled]
  exact if_pos ⟨rfl, rfl, rfl, written first.written second.written⟩

/-- What is saved of a base filter has a canonical text. -/
theorem canonicalFilter_accepted (lawful : lib.Lawful) {f saved : Text}
    (isSaved : canonicalFilter lib f = some saved) :
    ∃ base, compileUserFilter lib saved = .ok base := by
  unfold canonicalFilter at isSaved
  split at isSaved
  · cases isSaved
    exact ⟨matchAll, rfl⟩
  split at isSaved
  · cases isSaved
  cases isOk : compileUserFilter lib f with
  | error detail => simp [isOk, Except.toOption] at isSaved
  | ok canon =>
    rw [isOk] at isSaved
    cases isSaved
    obtain ⟨p, stable⟩ := compileUserFilter_stable lawful isOk
    exact ⟨_, stable.compileUserFilter lawful⟩

/-- A canonical text is its own canonical text; what is saved of a base filter is accepted by a
search, whose plan then fails for no filter accepted alone; and two accepted filters combine to
the conjunction of exactly these two. -/
theorem accepted_filters_closed (lawful : lib.Lawful) :
    (∀ s canon, compileUserFilter lib s = .ok canon → compileUserFilter lib canon = .ok canon)
      ∧ (∀ f saved, canonicalFilter lib f = some saved →
        ∃ base, compileUserFilter lib saved = .ok base ∧ ∀ t user,
          compileUserFilter lib t = .ok user → lib.Conjoins base user →
          ∀ names baseDN scope requested detail,
            planSearch lib names saved baseDN scope t requested ≠ .error (.filter detail))
      ∧ ∀ s t base user, compileUserFilter lib s = .ok base →
        compileUserFilter lib t = .ok user → lib.Conjoins base user →
        combine lib base user = .ok (andText base user)
          ∧ ∃ p q, lib.compile (andText base user) = .ok (andPacket p q)
            ∧ lib.decompile p = some base ∧ lib.decompile q = some user := by
  refine ⟨fun s canon isOk => ?_, fun f saved isSaved => ?_, ?_⟩
  · obtain ⟨p, stable⟩ := compileUserFilter_stable lawful isOk
    exact stable.compileUserFilter lawful
  · obtain ⟨base, isBase⟩ := canonicalFilter_accepted lawful isSaved
    refine ⟨base, isBase, fun t user isUser conjoins names baseDN scope requested detail => ?_⟩
    obtain ⟨p, first⟩ := compileUserFilter_stable lawful isBase
    obtain ⟨q, second⟩ := compileUserFilter_stable lawful isUser
    have combined := first.combine lawful second conjoins
    simp only [planSearch, isUser, isBase, combined, Except.mapError, bind, Except.bind, pure,
      Except.pure]
    grind
  · intro s t base user isBase isUser conjoins
    obtain ⟨p, first⟩ := compileUserFilter_stable lawful isBase
    obtain ⟨q, second⟩ := compileUserFilter_stable lawful isUser
    exact ⟨first.combine lawful second conjoins, p, q,
      (conjoins p q first.compiled second.compiled).1, first.written, second.written⟩

namespace Sample

/-- `(cn=a)`. -/
def common : Text := [40, 99, 110, 61, 97, 41]

def commonPacket : Packet :=
  ⟨classContext, 3, none, [⟨0, 4, some [99, 110], []⟩, ⟨0, 4, some [97], []⟩]⟩

/-- A library that knows the filter that matches everything, `(cn=a)`, and the conjunction of the
latter with itself. -/
def small : FilterLibrary where
  compile s :=
    if s = matchAll then .ok allPacket
    else if s = common then .ok commonPacket
    else if s = andText common common then .ok (andPacket commonPacket commonPacket)
    else invalid
  decompile p :=
    match p.tag with
    | 7 => some matchAll
    | 3 => some common
    | 0 => some (andText common common)
    | _ => none

end Sample

theorem equality_filters_combine :
    combine Sample.small Sample.common Sample.common
      = .ok (andText Sample.common Sample.common) := by
  have lawful : Sample.small.Lawful := by
    refine ⟨fun p s _ written => ?_, rfl, rfl⟩
    simp only [Sample.small] at written
    split at written <;> cases written <;> decide +kernel
  refine ((accepted_filters_closed lawful).2.2 Sample.common Sample.common _ _ rfl rfl ?_).1
  rintro p q ⟨⟩ ⟨⟩
  exact ⟨rfl, fun _ _ => rfl⟩

end TangraAuth.Ldapdir
