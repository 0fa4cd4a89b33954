import TangraAuth.AuthClient.Feed

/-!
Contract: introspection of a token by the server, beside the SDK's own check.

Owns: `Introspect` with its one bounded query of the feed, and for which feeds it and a
verifier that holds the same rows say the same of a token.

Does not own: signature, issuer and time checks. The two sides agree on them and on the
claims.
-/

namespace TangraAuth.Grpcapi

open Library Store
open TangraAuth.AuthClient

/-! ### The server -/

/-- Why the token library refused a token, as far as the answer tells it apart. -/
inductive TokenError where
  | expired
  | other
deriving DecidableEq, Repr

inductive InactiveReason where
  | invalid
  | expired
  | revoked
deriving DecidableEq, Repr

/-- The answer; `identity` is that of a token whose signature and times were good. -/
structure IntrospectResponse where
  active : Bool
  reason : Option InactiveReason
  identity : Option Claims
deriving DecidableEq, Repr

inductive IntrospectError where
  | feedUnavailable
deriving DecidableEq, Repr

/-- Where the query of the feed begins: a second before the token was issued. -/
def introspectSince (cl : Claims) : Int := cl.issuedAt * second - second

/-- The rows asked for. -/
def introspectLimit : Nat := 1000

/-- The entry names the token's session, subject or tenant. -/
def names (cl : Claims) (e : Revocation) : Bool :=
  match e.subject with
  | .session id => id == cl.sessionID
  | .user id => id == cl.subject
  | .tenant id => id == cl.tenantID

/-- `Introspect`, on what the token library made of the token and on the feed's answers. -/
def introspect (verified : Except TokenError Claims)
    (since : Int → Nat → Option (List Revocation)) : Except IntrospectError IntrospectResponse :=
  match verified with
  | .error .expired => .ok ⟨false, some .expired, none⟩
  | .error .other => .ok ⟨false, some .invalid, none⟩
  | .ok cl =>
    match since (introspectSince cl) introspectLimit with
    | none => .error .feedUnavailable
    | some entries =>
      let hit := entries.any fun e =>
        !decide (unix e.ts < cl.issuedAt) && names cl e
      .ok ⟨!hit, if hit then some .revoked else none, some cl⟩

/-- `Sessions.Since` for the order the database lists the rows in. -/
def sinceIn (order : List Revocation) (_since : Int) (limit : Nat) : Option (List Revocation) :=
  some (order.take (pageLimit limit))

/-- The token is reported inactive. -/
def Inactive (out : Except IntrospectError IntrospectResponse) : Prop :=
  ∃ resp, out = .ok resp ∧ resp.active = false

/-! ### The verifier -/

/-- But for revocations the verifier accepts the token: it is for its audience and tenant, and
the feed is fresh. -/
structure Accepts (vf : Verifier) (now : Int) (cl : Claims) : Prop where
  audience : ∀ expected, vf.config.audience = some expected → expected ∈ cl.audience
  tenant : ∀ expected, vf.config.tenantID = some expected → cl.tenantID = expected
  fresh : ∃ ins, vf.syncedAt = some ins ∧ now - ins ≤ vf.config.maxStale

theorem Accepts.verify_eq_revoked {vf : Verifier} {now : Int} {cl : Claims}
    (accepts : Accepts vf now cl) :
    vf.verify now cl = .error .revoked ↔ vf.revoked cl = true := by
  obtain ⟨ins, synced, fresh⟩ := accepts.fresh
  have audience : ¬(vf.config.audience.any fun expected =>
      decide (expected ∉ cl.audience)) = true := by
    rw [Option.any_eq_true]
    rintro ⟨expected, isExpected, missing⟩
    exact of_decide_eq_true missing (accepts.audience expected isExpected)
  have tn : ¬(vf.config.tenantID.any fun expected =>
      decide (cl.tenantID ≠ expected)) = true := by
    rw [Option.any_eq_true]
    rintro ⟨expected, isExpected, foreign⟩
    exact of_decide_eq_true foreign (accepts.tenant expected isExpected)
  unfold Verifier.verify
  grind

/-! ### Agreement -/

/-- The entry is not older than the second the token was issued in. -/
def Dated (cl : Claims) (e : Revocation) : Prop := cl.issuedAt ≤ unix e.ts

/-- An entry about the token stands behind the rows asked for, and none of these names it. -/
def Crowded (cl : Claims) (order : List Revocation) : Prop :=
  (∃ e ∈ order.drop introspectLimit, Dated cl e ∧ concerns cl e = true)
    ∧ ∀ e ∈ order.take introspectLimit, Dated cl e → names cl e = false

/-- A row of another tenant names the subject among the rows asked for, and no row is about the
token. -/
def Foreign (cl : Claims) (order : List Revocation) : Prop :=
  (∃ e ∈ order.take introspectLimit, Dated cl e
      ∧ e.subject = .user cl.subject ∧ e.tenantID ≠ cl.tenantID)
    ∧ ∀ e ∈ order, Dated cl e → concerns cl e = false

section Agreement

variable {cl : Claims} {rs order : List Revocation}

theorem names_of_concerns {e : Revocation} (about : concerns cl e = true) : names cl e = true := by
  unfold concerns at about
  unfold names
  grind

theorem foreign_of_names {e : Revocation} (named : names cl e = true)
    (notAbout : concerns cl e = false) :
    e.subject = .user cl.subject ∧ e.tenantID ≠ cl.tenantID := by
  grind [names, concerns]

theorem names_of_foreign {e : Revocation} (subj : e.subject = .user cl.subject) :
    names cl e = true := by
  simp [names, subj]

theorem inactive_iff : Inactive (introspect (.ok cl) (sinceIn order)) ↔
      ∃ e ∈ order.take introspectLimit, Dated cl e ∧ names cl e = true := by
  have hits : (order.take introspectLimit).any (fun e =>
        !decide (unix e.ts < cl.issuedAt) && names cl e) = true ↔
      ∃ e ∈ order.take introspectLimit, Dated cl e ∧ names cl e = true := by
    rw [List.any_eq_true]
    simp only [Bool.and_eq_true, Bool.not_eq_true', decide_eq_false_iff_not, not_lt, Dated]
  rw [← hits]
  constructor
  · rintro ⟨resp, isResponse, inactive⟩
    cases isResponse
    exact Bool.not_inj inactive
  · intro hit
    refine ⟨_, rfl, ?_⟩
    grind [pageLimit, introspectLimit]

/-- Every row about the token is among those the query may list. -/
theorem revoked_iff {vf : Verifier}
    (listing : Ordered Revocation.ts (rowsSince rs (introspectSince cl)) order)
    (applied : ∀ e, e ∈ vf.entries ↔ e ∈ rs) :
    vf.revoked cl = true ↔ ∃ e ∈ order, Dated cl e ∧ concerns cl e = true := by
  unfold Verifier.revoked
  rw [List.any_eq_true]
  simp only [Bool.and_eq_true, Bool.not_eq_true', decide_eq_false_iff_not, not_lt, applied]
  constructor
  · rintro ⟨e, mem, dated, about⟩
    refine ⟨e, ?_, dated, about⟩
    rw [listing.1.mem_iff, mem_rowsSince]
    refine ⟨mem, ?_⟩
    unfold unix at dated
    unfold introspectSince second at *
    omega
  · rintro ⟨e, mem, dated, about⟩
    exact ⟨e, (mem_rowsSince.mp (listing.1.mem_iff.mp mem)).1, dated, about⟩

/-- **Introspection and the SDK.** For every token both find good and every set of rows, the server
reports the token inactive exactly when a verifier that holds the same rows refuses it as revoked,
if and only if no row about the token is crowded out of the query and no row of another tenant
names the subject instead. -/
theorem introspect_agrees_iff (cl : Claims) (rs order : List Revocation) (vf : Verifier) (now : Int)
    (listing : Ordered Revocation.ts (rowsSince rs (introspectSince cl)) order)
    (applied : ∀ e, e ∈ vf.entries ↔ e ∈ rs)
    (accepts : Accepts vf now cl) :
    (Inactive (introspect (.ok cl) (sinceIn order)) ↔ vf.verify now cl = .error .revoked)
      ↔ ¬Crowded cl order ∧ ¬Foreign cl order := by
  rw [inactive_iff, accepts.verify_eq_revoked, revoked_iff listing applied]
  constructor
  · intro agree
    refine ⟨?_, ?_⟩
    · rintro ⟨⟨e, behind, dated, about⟩, unnamed⟩
      obtain ⟨hit, asked, hitDated, named⟩ :=
        agree.mpr ⟨e, List.mem_of_mem_drop behind, dated, about⟩
      rw [unnamed hit asked hitDated] at named
      cases named
    · rintro ⟨⟨e, asked, dated, subj, -⟩, unrevoked⟩
      obtain ⟨row, listed, rowDated, about⟩ :=
        agree.mp ⟨e, asked, dated, names_of_foreign subj⟩
      rw [unrevoked row listed rowDated] at about
      cases about
  · rintro ⟨notCrowded, notForeign⟩
    constructor
    · rintro ⟨e, asked, dated, named⟩
      by_contra unrevoked
      refine notForeign ⟨⟨e, asked, dated, ?_⟩, ?_⟩
      · refine foreign_of_names named (Bool.eq_false_iff.mpr fun about => unrevoked ?_)
        exact ⟨e, List.mem_of_mem_take asked, dated, about⟩
      · intro row listed rowDated
        exact Bool.eq_false_iff.mpr fun about => unrevoked ⟨row, listed, rowDated, about⟩
    · rintro ⟨e, listed, dated, about⟩
      by_contra active
      rw [← List.take_append_drop introspectLimit order] at listed
      rcases List.mem_append.mp listed with asked | behind
      · exact active ⟨e, asked, dated, names_of_concerns about⟩
      · refine notCrowded ⟨⟨e, behind, dated, about⟩, ?_⟩
        intro row asked rowDated
        exact Bool.eq_false_iff.mpr fun named => active ⟨row, asked, rowDated, named⟩

end Agreement

/-! ### An instance -/

namespace Sample

def claims : Claims := ⟨1, 1, 1, [], [], [], 0, 900⟩

/-- The token's session is revoked. -/
def own : Revocation := ⟨2, .session 1, 1, .signout⟩

/-- Other sessions are revoked first. -/
def others (count : Nat) : List Revocation :=
  (List.range count).map fun index => ⟨1, .session (index + 2), 1, .signout⟩

def verifier (rs : List Revocation) : Verifier := ⟨⟨none, none, 1, 1⟩, rs, none, some 3⟩

theorem accepts (rs : List Revocation) : Accepts (verifier rs) 3 claims where
  audience _ impossible := nomatch impossible
  tenant _ impossible := nomatch impossible
  fresh := by
    refine ⟨3, rfl, ?_⟩
    show (3 : Int) - 3 ≤ 1
    decide

theorem listing (count : Nat) :
    Ordered Revocation.ts (rowsSince (others count ++ [own]) (introspectSince claims))
      (others count ++ [own]) := by
  have dates : ∀ row ∈ others count, row.ts = 1 := by
    intro row mem
    obtain ⟨index, -, rfl⟩ := List.mem_map.mp mem
    rfl
  have all : rowsSince (others count ++ [own]) (introspectSince claims)
      = others count ++ [own] := by
    refine List.filter_eq_self.mpr fun row mem => decide_eq_true ?_
    rcases List.mem_append.mp mem with other | isOwn
    · rw [dates row other]
      decide
    · rw [List.mem_singleton.mp isOwn]
      decide
  rw [all]
  refine ⟨List.Perm.refl _, ?_⟩
  rw [List.pairwise_append]
  refine ⟨?_, List.pairwise_singleton _ _, ?_⟩
  · grind [List.pairwise_of_forall_mem_list]
  · intro first firstMem second isOwn
    rw [dates first firstMem, List.mem_singleton.mp isOwn]
    decide

end Sample

/-- Behind one other row the revocation is found on both sides. -/
theorem short_feed_agrees : Inactive (introspect (.ok Sample.claims)
        (sinceIn (Sample.others 1 ++ [Sample.own])))
      ↔ (Sample.verifier (Sample.others 1 ++ [Sample.own])).verify 3 Sample.claims
        = .error .revoked := by
  refine (introspect_agrees_iff Sample.claims _ _ _ 3 (Sample.listing 1)
    (fun _ => Iff.rfl) (Sample.accepts _)).mpr ⟨?_, ?_⟩
  · rintro ⟨⟨e, behind, -⟩, -⟩
    cases behind
  · rintro ⟨-, unrevoked⟩
    have dated : Dated Sample.claims Sample.own := by
      show (0 : Int) ≤ 2 / second
      decide
    have about := unrevoked Sample.own (by decide) dated
    cases about

/-- Behind a thousand other rows the server does not see the revocation, the verifier does. -/
theorem crowded_feed_disagrees : ¬(Inactive (introspect (.ok Sample.claims)
        (sinceIn (Sample.others 1000 ++ [Sample.own])))
      ↔ (Sample.verifier (Sample.others 1000 ++ [Sample.own])).verify 3 Sample.claims
        = .error .revoked) := by
  intro agree
  have refused : (Sample.verifier (Sample.others 1000 ++ [Sample.own])).verify 3
      Sample.claims = .error .revoked := by
    rw [(Sample.accepts _).verify_eq_revoked]
    exact List.any_eq_true.mpr ⟨Sample.own, List.mem_append_right _ List.mem_cons_self,
      by decide⟩
  obtain ⟨e, asked, -, named⟩ := inactive_iff.mp (agree.mpr refused)
  have length : (Sample.others 1000).length = introspectLimit := by
    simp [Sample.others, introspectLimit]
  rw [← length, List.take_left] at asked
  obtain ⟨index, -, rfl⟩ := List.mem_map.mp asked
  simp [names, Sample.claims] at named

end TangraAuth.Grpcapi
