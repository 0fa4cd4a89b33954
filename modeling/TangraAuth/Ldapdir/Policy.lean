import Mathlib.Algebra.Group.Nat.Defs
import Mathlib.Data.List.Basic
import Mathlib.Data.Nat.Basic

/-!
Contract: the directory targets that may be saved and dialled.

Owns: addresses and prefixes as far as the policy reads them, `CheckURL` on the text of a
directory URL, `Control` on the address of a dial, and that the two give one verdict.

Does not own: the parsers of the library, which are parameters, and the resolution of names.
-/

namespace TangraAuth.Ldapdir

/-! ### Addresses -/

/-- `netip.Addr`. -/
inductive Addr where
  | v4 (bits : BitVec 32)
  | v6 (bits : BitVec 128) (zone : List Char)
deriving DecidableEq

namespace Addr

def zone : Addr → List Char
  | v4 _ => []
  | v6 _ zone => zone

/-- The IPv4-mapped form. -/
def mapped (bits : BitVec 32) : Addr := v6 (.ofNat 128 (0xffff * 2 ^ 32 + bits.toNat)) []

def unmap : Addr → Addr
  | v4 bits => v4 bits
  | v6 bits zone => if bits.toNat / 2 ^ 32 = 0xffff then v4 (.ofNat 32 bits.toNat) else v6 bits zone

def isUnspecified : Addr → Bool
  | v4 bits => bits == 0
  | v6 bits zone => bits == 0 && zone == []

def isLoopback : Addr → Bool
  | v4 bits => bits.toNat / 2 ^ 24 == 127
  | v6 bits _ => bits == 1

def isLinkLocalUnicast : Addr → Bool
  | v4 bits => bits.toNat / 2 ^ 16 == 169 * 256 + 254
  | v6 bits _ => bits.toNat / 2 ^ 118 == 0xfe80 / 2 ^ 6

def isMulticast : Addr → Bool
  | v4 bits => bits.toNat / 2 ^ 28 == 0xe
  | v6 bits _ => bits.toNat / 2 ^ 120 == 0xff

end Addr

structure Prefix where
  addr : Addr
  bits : Nat

/-- An address of the other family, or one with a zone, is in no prefix. -/
def Prefix.contains (range : Prefix) (ip : Addr) : Bool :=
  match range.addr, ip with
  | .v4 left, .v4 right => left.toNat / 2 ^ (32 - range.bits) == right.toNat / 2 ^ (32 - range.bits)
  | .v6 left _, .v6 right [] =>
    left.toNat / 2 ^ (128 - range.bits) == right.toNat / 2 ^ (128 - range.bits)
  | _, _ => false

def thisNetwork : Prefix := ⟨.v4 0, 8⟩

/-! ### The policy -/

structure TargetPolicy where
  deny : List Prefix
  allow : List Prefix
  ports : List Nat

/-- `ErrTargetRefused` and `ErrInvalidURL`, with their texts. -/
inductive Refusal where
  | target (text : String)
  | url (text : String)
deriving DecidableEq, Repr

def neverDialled (ip : Addr) : Bool :=
  ip.isUnspecified || ip.isLoopback || ip.isLinkLocalUnicast || ip.isMulticast
    || thisNetwork.contains ip

/-- An IPv4 address is also matched in its mapped form. -/
def inAny (prefixes : List Prefix) (ip : Addr) : Bool :=
  prefixes.any fun range => range.contains ip ||
    match ip with
    | .v4 bits => range.contains (.mapped bits)
    | .v6 _ _ => false

def TargetPolicy.checkPort (pol : TargetPolicy) (port : Nat) : Except Refusal Unit :=
  if port ∈ pol.ports then .ok () else .error (.target "port not allowed")

def TargetPolicy.checkIP (pol : TargetPolicy) (ip : Addr) : Except Refusal Unit :=
  if neverDialled ip.unmap then .error (.target "address class is never dialled")
  else if inAny pol.deny ip.unmap && !inAny pol.allow ip.unmap then
    .error (.target "address in a denied range")
  else .ok ()

/-! ### Texts -/

structure URL where
  scheme : String
  opaquePart : List Char
  user : Bool
  host : List Char
  path : List Char
  rawPath : List Char

/-- The library's parsers. -/
structure Net where
  parseURL : List Char → Option URL
  parseAddr : List Char → Option Addr
  splitHostPort : List Char → Option (List Char × List Char)
  joinHostPort : List Char → List Char → List Char

structure Endpoint where
  scheme : String
  host : List Char
  port : Nat

def Endpoint.addr (net : Net) (endpoint : Endpoint) : List Char :=
  net.joinHostPort endpoint.host (Nat.toDigits 10 endpoint.port)

/-- Of 1 to 5 digits, in 1..65535. -/
def parsePort (text : List Char) : Option Nat :=
  if text ≠ [] ∧ text.length ≤ 5 ∧ text.all Char.isDigit then
    let port := Nat.ofDigitChars 10 text 0
    if 1 ≤ port ∧ port ≤ 65535 then some port else none
  else none

def hostnameChar (letter : Char) : Bool :=
  ('a' ≤ letter && letter ≤ 'z') || ('A' ≤ letter && letter ≤ 'Z') || letter.isDigit
    || letter == '-' || letter == '_'

def validHostname (text : List Char) : Bool :=
  let host := if text.getLast? = some '.' then text.dropLast else text
  let labels := host.splitOn '.'
  host != [] && host.length ≤ 253
    && labels.all (fun label => label != [] && label.length ≤ 63 && label.head? != some '-'
      && label.getLast? != some '-' && label.all hostnameChar)
    && !(labels.getLastD []).all Char.isDigit

section Check

variable (net : Net)

/-- What follows the host. -/
def withPort (host : List Char) (ip : Option Addr) :
    List Char → Except Refusal (List Char × List Char × Option Addr)
  | [] => .ok (host, [], ip)
  | ':' :: digit :: port => .ok (host, digit :: port, ip)
  | _ => .error (.url "malformed port")

/-- The host, the text of the port, and the address if the host is a literal. -/
def splitURLHost : List Char → Except Refusal (List Char × List Char × Option Addr)
  | '[' :: text =>
    if ']' ∈ text then
      match net.parseAddr (text.takeWhile (· != ']')) with
      | some (.v6 bits []) => withPort (text.takeWhile (· != ']')) (some (.v6 bits []))
          (text.dropWhile (· != ']')).tail
      | _ => .error (.url "bracketed host must be an unzoned IPv6 address")
    else .error (.url "unterminated IPv6 literal")
  | text =>
    match net.parseAddr (text.takeWhile (· != ':')) with
    | some (.v4 bits) =>
      withPort (text.takeWhile (· != ':')) (some (.v4 bits)) (text.dropWhile (· != ':'))
    | _ =>
      if validHostname (text.takeWhile (· != ':')) then
        withPort (text.takeWhile (· != ':')) none (text.dropWhile (· != ':'))
      else .error (.url "host is not a valid name or address")

def defaultPort (scheme : String) : Option Nat :=
  if scheme = "ldap" then some 389 else if scheme = "ldaps" then some 636 else none

/-- `CheckURL` up to the policy: the endpoint, and the address if its host is a literal. -/
def readURL (raw : List Char) : Except Refusal (Endpoint × Option Addr) :=
  if raw = [] ∨ raw.any (fun letter => letter ≤ ' ' || letter == '\x7f') then
    .error (.url "empty or contains control characters")
  else if raw.any fun letter => letter == '?' || letter == '#' then
    .error (.url "query or fragment not allowed")
  else
    match net.parseURL raw with
    | none => .error (.url "unparseable")
    | some url =>
      match defaultPort url.scheme with
      | none => .error (.url "scheme must be ldap or ldaps")
      | some port =>
        if url.opaquePart ≠ [] ∨ url.user ∨ url.path ≠ [] ∨ url.rawPath ≠ [] then
          .error (.url "only scheme, host and port are allowed")
        else
          match splitURLHost net url.host with
          | .error refusal => .error refusal
          | .ok (host, [], ip) => .ok (⟨url.scheme, host, port⟩, ip)
          | .ok (host, text, ip) =>
            match parsePort text with
            | none => .error (.url "port must be 1..65535")
            | some port => .ok (⟨url.scheme, host, port⟩, ip)

def TargetPolicy.checkURL (pol : TargetPolicy) (raw : List Char) : Except Refusal Endpoint := do
  let (endpoint, literal) ← readURL net raw
  pol.checkPort endpoint.port
  match literal with
  | some ip => pol.checkIP ip
  | none => pure ()
  pure endpoint

def TargetPolicy.control (pol : TargetPolicy) (network : String) (address : List Char) :
    Except Refusal Unit :=
  if network ∈ ["tcp", "tcp4", "tcp6"] then
    match net.splitHostPort address with
    | none => .error (.target "malformed address")
    | some (host, text) =>
      match parsePort text, net.parseAddr host with
      | none, _ => .error (.target "malformed port")
      | some port, some ip =>
        if ip.zone = [] then do
          pol.checkPort port
          pol.checkIP ip
        else .error (.target "not a resolved address")
      | some _, none => .error (.target "not a resolved address")
  else .error (.target "network not allowed")

end Check

/-! ### One verdict -/

theorem Addr.unmap_mapped (bits : BitVec 32) : (Addr.mapped bits).unmap = .v4 bits := by
  have small := bits.isLt
  have val : (BitVec.ofNat 128 (0xffff * 2 ^ 32 + bits.toNat)).toNat
      = 0xffff * 2 ^ 32 + bits.toNat := by
    rw [BitVec.toNat_ofNat]
    exact Nat.mod_eq_of_lt (by omega)
  have high : (0xffff * 2 ^ 32 + bits.toNat) / 2 ^ 32 = 0xffff := by omega
  rw [mapped, unmap, val, if_pos high]
  congr 1
  apply BitVec.eq_of_toNat_eq
  rw [BitVec.toNat_ofNat]
  omega

theorem parsePort_bounds {text : List Char} {port : Nat} (read : parsePort text = some port) :
    1 ≤ port ∧ port ≤ 65535 := by
  grind [parsePort]

theorem toDigits_all (port : Nat) : (Nat.toDigits 10 port).all Char.isDigit = true :=
  List.all_eq_true.mpr fun _ mem => Nat.isDigit_of_mem_toDigits (by decide) (by decide) mem

theorem parsePort_toDigits {port : Nat} (bounds : 1 ≤ port ∧ port ≤ 65535) :
    parsePort (Nat.toDigits 10 port) = some port := by
  have short : (Nat.toDigits 10 port).length ≤ 5 :=
    (Nat.length_toDigits_le_iff (by decide) (by decide)).mpr (by omega)
  simp [parsePort, toDigits_all, short, bounds, Nat.toDigits_ne_nil, Nat.ofDigitChars_ten_toDigits]

/-- A host that reads as an address without a zone is split off again behind a port. -/
def Net.Joins (net : Net) : Prop :=
  ∀ host ip port, net.parseAddr host = some ip → ip.zone = [] → port.all Char.isDigit = true →
    net.splitHostPort (net.joinHostPort host port) = some (host, port)

section Verdict

variable {net : Net} {pol : TargetPolicy}

theorem withPort_eq_ok {host other text port : List Char} {ip literal : Option Addr}
    (split : withPort host ip text = .ok (other, port, literal)) : host = other ∧ ip = literal := by
  unfold withPort at split
  split at split <;> cases split <;> exact ⟨rfl, rfl⟩

theorem splitURLHost_eq_ok {text host port : List Char} {ip : Addr}
    (split : splitURLHost net text = .ok (host, port, some ip)) :
    net.parseAddr host = some ip ∧ ip.zone = [] := by
  unfold splitURLHost at split
  split at split
  · split_ifs at split
    split at split
    · rename_i bits read
      obtain ⟨rfl, isIP⟩ := withPort_eq_ok split
      cases isIP
      exact ⟨read, rfl⟩
    · cases split
  · split at split
    · rename_i bits read
      obtain ⟨rfl, isIP⟩ := withPort_eq_ok split
      cases isIP
      exact ⟨read, rfl⟩
    · split_ifs at split
      cases (withPort_eq_ok split).2

theorem readURL_eq_ok {raw : List Char} {endpoint : Endpoint} {ip : Addr}
    (read : readURL net raw = .ok (endpoint, some ip)) :
    net.parseAddr endpoint.host = some ip ∧ ip.zone = [] ∧ 1 ≤ endpoint.port
      ∧ endpoint.port ≤ 65535 := by
  have defaults : ∀ scheme port, defaultPort scheme = some port → 1 ≤ port ∧ port ≤ 65535 := by
    intro scheme port isPort
    unfold defaultPort at isPort
    split_ifs at isPort <;> cases isPort <;> decide
  unfold readURL at read
  split_ifs at read
  split at read
  · cases read
  · split at read
    · cases read
    · rename_i url _ port isPort
      split_ifs at read
      split at read
      · cases read
      · rename_i split
        cases read
        obtain ⟨parsed, unzoned⟩ := splitURLHost_eq_ok split
        exact ⟨parsed, unzoned, defaults _ _ isPort⟩
      · rename_i split
        split at read
        · cases read
        · rename_i portRead
          cases read
          obtain ⟨parsed, unzoned⟩ := splitURLHost_eq_ok split
          exact ⟨parsed, unzoned, parsePort_bounds portRead⟩

theorem control_eq {network : String} (isTCP : network ∈ ["tcp", "tcp4", "tcp6"])
    {address host text : List Char} {port : Nat} {ip : Addr}
    (split : net.splitHostPort address = some (host, text)) (isPort : parsePort text = some port)
    (parsed : net.parseAddr host = some ip) (unzoned : ip.zone = []) :
    pol.control net network address = (do pol.checkPort port; pol.checkIP ip) := by
  simp [TargetPolicy.control, isTCP, split, isPort, parsed, unzoned]

end Verdict

/-- The save-time and the dial-time check of a literal are one, an IPv4 address and its mapped
form get one verdict, and the classes that are never dialled are refused under every policy. -/
theorem save_and_dial_agree {net : Net} (joins : net.Joins) (pol : TargetPolicy) :
    (∀ raw endpoint ip network, readURL net raw = .ok (endpoint, some ip) →
      network ∈ ["tcp", "tcp4", "tcp6"] →
      (pol.checkURL net raw).map (fun _ => ()) = pol.control net network (endpoint.addr net)) ∧
    (∀ bits, pol.checkIP (.mapped bits) = pol.checkIP (.v4 bits)) ∧
    ∀ ip, neverDialled ip.unmap = true → ¬ (pol.checkIP ip).isOk := by
  refine ⟨fun raw endpoint ip network read isTCP => ?_, fun bits => ?_, fun ip never => ?_⟩
  · obtain ⟨parsed, unzoned, bounds⟩ := readURL_eq_ok read
    have split : net.splitHostPort (endpoint.addr net) = some _ :=
      joins _ _ _ parsed unzoned (toDigits_all endpoint.port)
    rw [control_eq isTCP split (parsePort_toDigits bounds) parsed unzoned]
    have saved : pol.checkURL net raw
        = (do pol.checkPort endpoint.port; pol.checkIP ip; pure endpoint) := by
      rw [TargetPolicy.checkURL, read]
      rfl
    rw [saved]
    cases pol.checkPort endpoint.port with
    | error refusal => rfl
    | ok => cases pol.checkIP ip <;> rfl
  · rw [TargetPolicy.checkIP, Addr.unmap_mapped]
    rfl
  · simp [TargetPolicy.checkIP, never, Except.isOk, Except.toBool]

/-- Parsers that know one address. -/
def Sample.net : Net where
  parseURL raw := some ⟨"ldap", [], false, raw.drop 7, [], []⟩
  parseAddr text := if text = "10.0.0.1".toList then some (.v4 0x0a000001) else none
  splitHostPort text := some (text.takeWhile (· != ':'), (text.dropWhile (· != ':')).tail)
  joinHostPort host port := host ++ ':' :: port

theorem sample_target_agrees :
    (TargetPolicy.checkURL Sample.net ⟨[], [], [389]⟩ "ldap://10.0.0.1".toList).map (fun _ => ())
      = TargetPolicy.control Sample.net ⟨[], [], [389]⟩ "tcp" "10.0.0.1:389".toList := by
  have joins : Sample.net.Joins := by
    intro host ip port parsed _ _
    simp only [Sample.net, Option.ite_none_right_eq_some] at parsed
    rw [parsed.1]
    rfl
  exact (save_and_dial_agree joins ⟨[], [], [389]⟩).1 _ ⟨"ldap", "10.0.0.1".toList, 389⟩
    (.v4 0x0a000001) "tcp" (by rfl) (by decide)

end TangraAuth.Ldapdir
