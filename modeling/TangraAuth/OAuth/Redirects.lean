import TangraAuth.OAuth.Codes
import Mathlib.Data.List.TakeWhile

/-!
Contract: the redirect URIs of registered clients.

Owns: the registration of a client with the check of its redirect URIs, the scheme and the
host of a URI, and which registered URIs stay on https or on a loopback host.

Does not own: who may register a client, and how an IPv6 literal is read.
-/

namespace TangraAuth.OAuth

open Store

/-! ### Registration -/

def hasPrefix (text init : String) : Bool := init.toList.isPrefixOf text.toList

def validRedirect (text : String) : Bool :=
  decide (text.utf8ByteSize ≤ 512) && (hasPrefix text "https://"
    || hasPrefix text "http://127.0.0.1" || hasPrefix text "http://localhost")

structure ClientBody where
  redirectURIs : List String
  isPublic : Bool

inductive CreateError where
  | scope
  | body
  | validation
  | internal
  | insert
deriving DecidableEq, Repr

/-- `createClient`, with the outcomes of the scope, of the body, of the two random tokens, of the
password hash and of the insertion. -/
def createClient {E : Type} (scope : Option TenantID) (body : Option ClientBody)
    (id sec : Option String) (hashPassword : String → Option E)
    (inserts : ClientApplication E → Bool) : Except CreateError (ClientApplication E) :=
  let insert := fun client => if inserts client then .ok client else .error .insert
  match scope, body with
  | none, _ => .error .scope
  | some _, none => .error .body
  | some tid, some body =>
    if body.redirectURIs.all validRedirect then
      match id with
      | none => .error .internal
      | some id =>
        if body.isPublic then insert ⟨id, tid, body.redirectURIs, true, none⟩
        else
          match sec.bind hashPassword with
          | none => .error .internal
          | some hash => insert ⟨id, tid, body.redirectURIs, false, some hash⟩
    else .error .validation

/-! ### What a URI names -/

def scheme (uri : String) : String :=
  String.ofList ((uri.toList.takeWhile (· != ':')).map Char.toLower)

/-- User information, host and port. -/
def authority (uri : String) : List Char :=
  ((uri.toList.dropWhile (· != ':')).drop 3).takeWhile fun letter =>
    !(letter == '/' || letter == '?' || letter == '#')

/-- After the last `@`, and before the port. -/
def host (uri : String) : List Char :=
  let hostPort := ((authority uri).reverse.takeWhile (· != '@')).reverse
  if hostPort.head? = some '[' then hostPort.takeWhile (· != ']')
  else hostPort.takeWhile (· != ':')

/-- A decimal from 0 to 255 without a leading zero. -/
def octet (text : List Char) : Bool :=
  text.all Char.isDigit && (text == ['0'] || text.head?.any (· != '0'))
    && decide (Nat.ofDigitChars 10 text 0 ≤ 255)

/-- `localhost`, an address in 127.0.0.0/8, or a bracketed literal of `::1`. -/
def loopback (isV6 : List Char → Bool) (host : List Char) : Bool :=
  host.map Char.toLower == "localhost".toList
    || ("127.".toList.isPrefixOf host && decide ((host.splitOn '.').length = 4)
      && (host.splitOn '.').all octet)
    || (host.head? == some '[' && isV6 host)

def Secure (isV6 : List Char → Bool) (uri : String) : Prop :=
  scheme uri = "https" ∨ (scheme uri = "http" ∧ loopback isV6 (host uri) = true)

/-- A name of the check, to its end; the octet of the address may have more digits. -/
def Named (host : List Char) : Prop :=
  host = "localhost".toList
    ∨ ∃ digits, host = "127.0.0.1".toList ++ digits ∧ octet ('1' :: digits) = true

/-- Without user information, the host ends where the name of the check does. -/
def Delimited (isV6 : List Char → Bool) (uri : String) : Prop :=
  hasPrefix uri "https://" = true ∨
  if '@' ∈ authority uri then loopback isV6 (host uri) = true else Named (host uri)

section Redirects

variable {isV6 : List Char → Bool} {uri : String}

theorem validRedirect_of_createClient {E : Type} {scope : Option TenantID}
    {body : Option ClientBody} {id sec : Option String} {hashPassword : String → Option E}
    {inserts : ClientApplication E → Bool} {client : ClientApplication E}
    (created : createClient scope body id sec hashPassword inserts = .ok client)
    (mem : uri ∈ client.redirectURIs) : validRedirect uri = true := by
  unfold createClient at created
  dsimp only at created
  grind

theorem exists_of_hasPrefix {text init : String} (starts : hasPrefix text init = true) :
    ∃ rest, text.toList = init.toList ++ rest := by
  obtain ⟨rest, isText⟩ := List.isPrefixOf_iff_prefix.mp starts
  exact ⟨rest, isText.symm⟩

theorem octet_iff_split (text : List Char) : octet text = true
    ↔ (text.splitOn '.').length = 1 ∧ (text.splitOn '.').all octet = true := by
  constructor
  · intro isOctet
    have whole : text.splitOn '.' = [text] := by
      refine List.splitOnP_eq_singleton fun letter mem => ?_
      have digit : letter.isDigit = true := by
        simp only [octet, Bool.and_eq_true, List.all_eq_true] at isOctet
        exact isOctet.1.1 letter mem
      rw [beq_eq_false_iff_ne]
      rintro rfl
      cases digit
    rw [whole]
    simpa using isOctet
  · rintro ⟨one, all⟩
    obtain ⟨part, isPart⟩ := List.length_eq_one_iff.mp one
    have joined : ['.'].intercalate (text.splitOn '.') = text := List.intercalate_splitOn '.'
    rw [isPart, List.intercalate_singleton] at joined
    rw [isPart, joined] at all
    simpa using all

theorem loopback_address (tail : List Char) :
    loopback isV6 ("127.0.0.1".toList ++ tail) = true ↔ Named ("127.0.0.1".toList ++ tail) := by
  have parts : loopback isV6 ("127.0.0.1".toList ++ tail)
      = ((decide ((('1' :: tail).splitOn '.').length + 3 = 4)
        && (('1' :: tail).splitOn '.').all octet) || false) := rfl
  rw [parts, Bool.or_false, Bool.and_eq_true, decide_eq_true_eq, show 4 = 1 + 3 from rfl,
    Nat.add_right_cancel_iff, ← octet_iff_split]
  constructor
  · exact fun isOctet => Or.inr ⟨tail, rfl, isOctet⟩
  · rintro (isLocal | ⟨digits, same, isOctet⟩)
    · have first : some '1' = some 'l' := congrArg List.head? isLocal
      cases first
    · rwa [List.append_cancel_left same]

theorem loopback_localhost (tail : List Char) :
    loopback isV6 ("localhost".toList ++ tail) = true ↔ Named ("localhost".toList ++ tail) := by
  have parts : loopback isV6 ("localhost".toList ++ tail)
      = ((("localhost".toList ++ tail.map Char.toLower == "localhost".toList) || false) || false) :=
    rfl
  rw [parts, Bool.or_false, Bool.or_false, beq_iff_eq, List.append_right_eq_self,
    List.map_eq_nil_iff]
  constructor
  · rintro rfl
    exact Or.inl rfl
  · rintro (isLocal | ⟨digits, same, -⟩)
    · exact List.append_right_eq_self.mp isLocal
    · have first : some 'l' = some '1' := congrArg List.head? same
      cases first

/-- An `http` URI behind one of the names of the check. -/
theorem secure_iff_delimited {name rest : List Char}
    (isURI : uri.toList = "http://".toList ++ (name ++ rest))
    (unbracketed : name.head?.any (· != '['))
    (apart : ∀ letter ∈ name, letter ∉ ['/', '?', '#', ':'])
    (decided : ∀ tail, loopback isV6 (name ++ tail) = true ↔ Named (name ++ tail)) :
    Secure isV6 uri ↔ Delimited isV6 uri := by
  have isScheme : scheme uri = "http" := by
    rw [scheme, isURI]
    rfl
  have other : hasPrefix uri "https://" = false := by
    rw [hasPrefix, isURI]
    rfl
  obtain ⟨tail, isAuthority⟩ : ∃ tail, authority uri = name ++ tail := by
    have starts : authority uri = (name ++ rest).takeWhile fun letter =>
        !(letter == '/' || letter == '?' || letter == '#') := by
      rw [authority, isURI]
      rfl
    rw [starts, List.takeWhile_append_of_pos]
    · exact ⟨_, rfl⟩
    · grind
  simp only [Secure, Delimited, isScheme, other, Bool.false_eq_true, false_or, true_and]
  rw [or_iff_right (by decide)]
  split_ifs with plain
  · rfl
  · have isHost : host uri = name ++ tail.takeWhile (· != ':') := by
      rw [isAuthority] at plain
      have whole : (name ++ tail).reverse.takeWhile (· != '@') = (name ++ tail).reverse := by
        refine List.takeWhile_eq_self_iff.mpr fun letter mem => ?_
        rw [List.mem_reverse] at mem
        simpa using fun same : letter = '@' => plain (same ▸ mem)
      rw [host, isAuthority, whole, List.reverse_reverse, if_neg, List.takeWhile_append_of_pos]
      · grind
      · intro bracket
        cases name with
        | nil => cases unbracketed
        | cons first others =>
          cases bracket
          cases unbracketed
    rw [isHost]
    exact decided _

end Redirects

/-- Every redirect URI that is accepted is on https or on a loopback host exactly when it is
delimited. -/
theorem accepted_redirect_secure_iff {E : Type} (isV6 : List Char → Bool)
    (scope : Option TenantID) (body : Option ClientBody) (id sec : Option String)
    (hashPassword : String → Option E) (inserts : ClientApplication E → Bool)
    (clients : String → Option (ClientApplication E)) (req : AuthorizeRequest)
    (client : ClientApplication E)
    (created : createClient scope body id sec hashPassword inserts = .ok client)
    (accepted : validateClient clients req = .ok client) :
    Secure isV6 req.redirectURI ↔ Delimited isV6 req.redirectURI := by
  have mem : req.redirectURI ∈ client.redirectURIs := by
    unfold validateClient at accepted
    grind
  have valid := validRedirect_of_createClient created mem
  simp only [validRedirect, Bool.and_eq_true, Bool.or_eq_true] at valid
  rcases valid.2 with (isSecure | address) | isLocal
  · obtain ⟨rest, isURI⟩ := exists_of_hasPrefix isSecure
    have isScheme : scheme req.redirectURI = "https" := by
      rw [scheme, isURI]
      rfl
    exact iff_of_true (Or.inl isScheme) (Or.inl isSecure)
  · obtain ⟨rest, isURI⟩ := exists_of_hasPrefix address
    exact secure_iff_delimited isURI (by decide) (by simp) loopback_address
  · obtain ⟨rest, isURI⟩ := exists_of_hasPrefix isLocal
    exact secure_iff_delimited isURI (by decide) (by simp) loopback_localhost

/-- A public client with the URI. -/
def Sample.registered (uri : String) : ClientApplication Unit := ⟨"app", 1, [uri], true, none⟩

def Sample.register (uri : String) : Except CreateError (ClientApplication Unit) :=
  createClient (some 1) (some ⟨[uri], true⟩) (some "app") none (fun _ => none) fun _ => true

theorem localhost_redirect_secure : Secure (fun _ => false) "http://localhost:80/"
      ↔ Delimited (fun _ => false) "http://localhost:80/" := by
  have created : Sample.register "http://localhost:80/"
      = .ok (Sample.registered "http://localhost:80/") := rfl
  exact accepted_redirect_secure_iff _ _ _ _ _ _ _
    (fun _ => some (Sample.registered "http://localhost:80/")) ⟨"app", "http://localhost:80/", []⟩ _
    created rfl

/-- A host that only begins with the name is registered and accepted. -/
theorem prefixed_host_accepted :
    Sample.register "http://localhost.evil/" = .ok (Sample.registered "http://localhost.evil/")
      ∧ validateClient (fun _ => some (Sample.registered "http://localhost.evil/"))
        ⟨"app", "http://localhost.evil/", []⟩ = .ok (Sample.registered "http://localhost.evil/")
      ∧ ∀ isV6, ¬ Secure isV6 "http://localhost.evil/" := by
  refine ⟨rfl, rfl, fun isV6 secure => ?_⟩
  have isScheme : scheme "http://localhost.evil/" = "http" := rfl
  have unsafeHost : loopback isV6 (host "http://localhost.evil/") = false := rfl
  rw [Secure, isScheme, unsafeHost] at secure
  simp at secure

end TangraAuth.OAuth
