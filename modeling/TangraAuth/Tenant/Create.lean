import TangraAuth.Ldapdir.Email

/-!
Contract: the creation of a customer tenant by an operator.

Owns: `Create` call by call, with no transaction around the calls, and which failures leave the
slug free.

Does not own: the escalation check and the mail of the invitation.
-/

namespace TangraAuth.Tenant

open Ldapdir (Text normEmail)

inductive CreateError where
  | notOperator | validation | badEmail | store
  deriving DecidableEq

/-- The calls of `Create` in their order. -/
inductive Call where
  | insertTenant | insertRole (s : String) | writeTuples | inviteOwner
  deriving DecidableEq

/-- A failing call was refused and had no effect, or it was made and its answer was lost. -/
inductive Fault where
  | refused | lost
  deriving DecidableEq

structure Platform where
  tenants : List (Nat × String)
  roles : List (Nat × String)
  tuples : List (Nat × String)
  invitations : List (Nat × Text)
  deriving DecidableEq

def Platform.free (plat : Platform) (s : String) : Prop :=
  s ∉ plat.tenants.map Prod.snd

def reserved : List String :=
  ["api", "www", "admin", "operator", "auth", "static", "assets", "login"]

def slugLetter (letter : Char) : Bool :=
  (letter.isAlphanum && !letter.isUpper) || letter == '-'

def parseSlug (s : String) : Bool :=
  let letters := s.toList
  !letters.isEmpty && letters.length ≤ 63 && letters.all slugLetter && letters.head? != some '-'
    && letters.getLast? != some '-' && !reserved.contains s

def builtinRoles : List String := ["owner", "admin", "member", "auditor"]

variable (fs : Call → Option Fault) (lower : Char → Char) (tid : Nat)

/-- The checks in front of the first call. -/
def checkCreate (isOperator : Bool) (s dn : String) (ownerEmail : Text) : Except CreateError Unit :=
  if !isOperator then .error .notOperator
  else if !parseSlug s then .error .validation
  else
    let name := Library.trimSpace dn
    if name == "" || 120 < name.utf8ByteSize || !ownerEmail.contains 64 then .error .validation
    else .ok ()

/-- The constraints of the table: a free slug, which by its check has not two letters. -/
def Platform.accepts (plat : Platform) (s : String) : Bool :=
  !(plat.tenants.map Prod.snd).contains s && s.toList.length != 2

def Platform.after (plat : Platform) (s : String) (ownerEmail : Text) : Call → Platform
  | .insertTenant => { plat with tenants := plat.tenants ++ [(tid, s)] }
  | .insertRole r => { plat with roles := plat.roles ++ [(tid, r)] }
  | .writeTuples =>
    { plat with tuples := plat.tuples ++ builtinRoles.map fun r => (tid, r) }
  | .inviteOwner =>
    { plat with
      invitations := plat.invitations ++ [(tid, (normEmail lower ownerEmail).getD [])] }

/-- What a call refuses by itself. `InsertTenant` returns the database's error as it is, so the
`ErrConflict` that `Create` would turn into a validation error never reaches it. -/
def Platform.refuses (plat : Platform) (s : String) (ownerEmail : Text) : Call → Option CreateError
  | .insertTenant => if plat.accepts s then none else some .store
  | .inviteOwner => if (normEmail lower ownerEmail).isNone then some .badEmail else none
  | _ => none

/-- The calls up to the first that fails. -/
def runCalls (s : String) (ownerEmail : Text) :
    List Call → Platform → Except CreateError Nat × Platform
  | [], plat => (.ok tid, plat)
  | c :: rest, plat =>
    match plat.refuses lower s ownerEmail c, fs c with
    | some error, _ => (.error error, plat)
    | none, some .refused => (.error .store, plat)
    | none, some .lost => (.error .store, plat.after lower tid s ownerEmail c)
    | none, none => runCalls s ownerEmail rest (plat.after lower tid s ownerEmail c)

def laterCalls : List Call := builtinRoles.map .insertRole ++ [.writeTuples, .inviteOwner]

def create (isOperator : Bool) (s dn : String) (ownerEmail : Text)
    (plat : Platform) : Except CreateError Nat × Platform :=
  match checkCreate isOperator s dn ownerEmail with
  | .error error => (.error error, plat)
  | .ok _ => runCalls fs lower tid s ownerEmail (.insertTenant :: laterCalls) plat

theorem runCalls_tenants (s : String) (ownerEmail : Text) {calls : List Call}
    (later : .insertTenant ∉ calls) (plat : Platform) :
    (runCalls fs lower tid s ownerEmail calls plat).2.tenants = plat.tenants := by
  induction calls generalizing plat with
  | nil => rfl
  | cons c rest ih =>
    have kept : (plat.after lower tid s ownerEmail c).tenants = plat.tenants := by
      cases c with
      | insertTenant => exact absurd List.mem_cons_self later
      | insertRole _ | writeTuples | inviteOwner => rfl
    unfold runCalls
    split
    · rfl
    · rfl
    · exact kept
    · rw [ih fun mem => later (List.mem_cons_of_mem _ mem)]
      exact kept

/-- After an error the slug is still free exactly if the tenant's row was not inserted: a check
in front of the calls refuses, the table's check does, or the insertion fails. -/
theorem failed_create_frees_slug_iff {isOperator : Bool} {s dn : String}
    {ownerEmail : Text} {plat post : Platform} {error : CreateError}
    (free : plat.free s)
    (fails : create fs lower tid isOperator s dn ownerEmail plat = (.error error, post)) :
    post.free s ↔ checkCreate isOperator s dn ownerEmail ≠ .ok ()
      ∨ s.toList.length = 2 ∨ fs .insertTenant = some .refused := by
  have accepts : plat.accepts s = (s.toList.length != 2) := by
    have untaken : (plat.tenants.map Prod.snd).contains s = false := by
      simpa [Platform.free] using free
    rw [Platform.accepts, untaken, Bool.not_false, Bool.true_and]
  unfold create at fails
  cases checked : checkCreate isOperator s dn ownerEmail with
  | error refusal =>
    rw [checked] at fails
    cases fails
    simpa using free
  | ok _ =>
    rw [checked] at fails
    have isAfter := congrArg Prod.snd fails
    unfold runCalls at isAfter
    by_cases short : s.toList.length = 2
    · simp [Platform.refuses, accepts, short] at isAfter
      rw [← isAfter]
      simpa [short] using free
    have taken : ∀ next : Platform, next.tenants = plat.tenants ++ [(tid, s)] → ¬next.free s := by
      intro next rs
      simp [Platform.free, rs]
    simp only [Platform.refuses, accepts, short, bne_iff_ne, ne_eq, not_false_eq_true,
      if_true] at isAfter
    rcases faulted : fs .insertTenant with _ | (_ | _) <;> rw [faulted] at isAfter
    · have later : Call.insertTenant ∉ laterCalls := by decide
      have rs := runCalls_tenants fs lower tid s ownerEmail later
        (plat.after lower tid s ownerEmail .insertTenant)
      have none := taken post (isAfter ▸ rs)
      simp [none, short]
    · rw [← isAfter]
      simpa using free
    · have none := taken post (by rw [← isAfter]; rfl)
      simp [none, short]

/-- Every insertion of a tenant is refused. -/
def Sample.frozen (c : Call) : Option Fault := if c = .insertTenant then some .refused else none

theorem refused_insertion_frees_slug :
    ∃ post, create Sample.frozen id 2 true "acme" "Acme" [97, 64, 98]
        ⟨[(1, "base")], [], [], []⟩ = (.error .store, post) ∧ post.free "acme" := by
  refine ⟨_, rfl, ?_⟩
  have free : Platform.free ⟨[(1, "base")], [], [], []⟩ "acme" := by simp [Platform.free]
  exact (@failed_create_frees_slug_iff Sample.frozen id 2 true "acme" "Acme" [97, 64, 98] _ _ _
    free rfl).mpr (Or.inr (Or.inr rfl))

/-- The owner's address has an at sign and nothing in front of it: the invitation refuses it when
the tenant is there. -/
theorem bad_owner_address_takes_slug :
    ∃ post, create (fun _ => none) id 1 true "acme" "Acme" [64, 97] ⟨[], [], [], []⟩
        = (.error .badEmail, post) ∧ ¬post.free "acme" :=
  ⟨_, rfl, by unfold Platform.free; decide +kernel⟩

end TangraAuth.Tenant
