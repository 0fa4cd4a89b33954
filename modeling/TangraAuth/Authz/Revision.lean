import TangraAuth.Authz.Lifecycle
import TangraAuth.Authz.Registered

/-!
Contract: what registrations and retirements leave of the copies of retired role
definitions, however far they get.

Owns: a copy that is still offered, the revision of catalogue and tenants by one
operation, with the definitions it withdraws, and the tenants that follow the
definitions once the operation ends.

Does not own: the order of operations on the platform, and who may assign a role.
-/

namespace TangraAuth.Authz

open Library Store Accounts

/-! ### Copies -/

/-- The tenant has a copy of the definition that is not retired. -/
def Offers (d : TenantData) (df : ModuleRoleDef) : Prop :=
  ∃ r, CopyRow df.moduleName df.slug d r ∧ r.retired = false

section Offers

variable {pre d post : TenantData} {df other : ModuleRoleDef} {mod : String}
  {r row : Role}

theorem Offers.of_key (offers : Offers d df) (sameKey : other.key = df.key) : Offers d other := by
  have sameModule : other.moduleName = df.moduleName := congrArg Prod.fst sameKey
  have sameSlug : other.slug = df.slug := congrArg Prod.snd sameKey
  obtain ⟨r, copy, current⟩ := offers
  exact ⟨r, by rw [sameModule, sameSlug]; exact copy, current⟩

theorem KeptAs.copyRow {s : String} (kept : KeptAs pre r post row)
    (mem : r ∈ pre.mirror.roles) (copy : CopyRow mod s post row) :
    CopyRow mod s pre r := by
  obtain ⟨-, ofModule, ofName, ofSlug⟩ := copyRow_iff.mp copy
  have wasModule : r.origin = .ofModule := kept.origin ▸ ofModule
  have named : (pre.roleInfo r.id).moduleName = mod := kept.moduleName ▸ ofName
  have newSlug := post.copies row kept.member ofModule
  have oldSlug := pre.copies r mem wasModule
  rw [ofName, kept.slug, oldSlug, named] at newSlug
  exact copyRow_iff.mpr ⟨mem, wasModule, named, (moduleRoleSlug_injective newSlug).trans ofSlug⟩

/-- A copy of a retired definition is not offered unless it was. -/
theorem Orderly.offers {cat : Catalogue} (orderly : Orderly mod (cat.roleDefsOf mod) pre post)
    (mem : df ∈ cat.roleDefs) (retired : df.retired = true)
    (offers : Offers post df) : Offers pre df := by
  obtain ⟨row, copy, current⟩ := offers
  rcases orderly.traced row copy.1 with ⟨r, stored, kept, sameFlag⟩
    | ⟨ofModule, ofName, followed, isDef, isSlug, isFlag⟩
  · exact ⟨r, kept.copyRow stored copy, sameFlag.symm.trans current⟩
  · obtain ⟨-, -, named, slugged⟩ := copyRow_iff.mp copy
    have isNamed : df.moduleName = mod := named.symm.trans ofName
    have ownSlug := post.copies row copy.1 ofModule
    rw [ofName, slugged, isSlug] at ownSlug
    obtain ⟨stored, ofDef⟩ := mem_roleDefsOf.mp isDef
    have same : followed = df := eq_of_uniqueKey cat.defined stored mem
      (Prod.ext (ofDef.trans isNamed.symm) (moduleRoleSlug_injective ownSlug))
    rw [isFlag, same, retired] at current
    cases current

end Offers

/-! ### The revision of catalogue and tenants -/

/-- A definition that is retired now was retired before or is one of those `withdrawn`, and the
tenants follow the definitions of the module. -/
structure Revised (withdrawn : ModuleRoleDef → Prop) (mod : String) (pre post : World) :
    Prop where
  retired : ∀ df ∈ post.catalogue.roleDefs, df.retired = true →
    ∃ old ∈ pre.catalogue.roleDefs, old.key = df.key ∧ (old.retired = true ∨ withdrawn old)
  tenants : AllOrderly mod (post.catalogue.roleDefsOf mod) pre.tenants post.tenants

/-- No tenant of the list offers a copy of a retired definition, and copies are as registrations
leave them. -/
structure Quiet (existing : List TenantID) (w : World) : Prop where
  tidy : AllTidy w.tenants
  silent : ∀ tid ∈ existing, ∀ df ∈ w.catalogue.roleDefs,
    df.retired = true → ¬Offers (w.tenants tid) df

section Revised

variable {withdrawn : ModuleRoleDef → Prop} {mod : String} {pre post : World}
  {existing : List TenantID}

/-- What is offered of a retired definition was withdrawn just now, and was offered before. -/
theorem Revised.offers (revised : Revised withdrawn mod pre post)
    (quiet : Quiet existing pre) {tid : TenantID} (listed : tid ∈ existing)
    {df : ModuleRoleDef} (mem : df ∈ post.catalogue.roleDefs)
    (retired : df.retired = true) (offers : Offers (post.tenants tid) df) :
    ∃ old ∈ pre.catalogue.roleDefs, old.key = df.key ∧ withdrawn old
      ∧ Offers (pre.tenants tid) old := by
  have offered := (revised.tenants tid).offers mem retired offers
  grind [retired, Offers.of_key, Quiet.silent]

/-- The platform stays quiet if a copy that was offered and is withdrawn is offered no more. -/
theorem Revised.quiet (revised : Revised withdrawn mod pre post) (quiet : Quiet existing pre)
    (reached : ∀ tid ∈ existing, ∀ old ∈ pre.catalogue.roleDefs, withdrawn old →
      Offers (pre.tenants tid) old → ∀ df ∈ post.catalogue.roleDefs,
        old.key = df.key → df.retired = true →
          ¬Offers (post.tenants tid) df) : Quiet existing post where
  tidy := fun tid => (revised.tenants tid).tidy
  silent := fun tid listed df mem retired offers => by
    grind [offers]

/-- Tenants that follow the definitions of one module keep the platform quiet. -/
theorem Quiet.orderly (quiet : Quiet existing pre) (cat : post.catalogue = pre.catalogue)
    (orderly : AllOrderly mod (pre.catalogue.roleDefsOf mod) pre.tenants
      post.tenants) : Quiet existing post := by
  have revised : Revised (fun _ => False) mod pre post := by
    refine ⟨fun df mem retired => ?_, cat ▸ orderly⟩
    exact ⟨df, cat ▸ mem, rfl, Or.inl retired⟩
  exact revised.quiet quiet fun _ _ _ _ never => never.elim

end Revised

/-! ### The catalogue in a registration -/

/-- The registration retires the definition, unless it is retired. -/
def Registration.Withdraws (reg : Registration) (df : ModuleRoleDef) : Prop :=
  reg.wellFormed = true ∧ reg.delegate = "" ∧ reg.declaresRoles = true
    ∧ df.moduleName = reg.moduleName
    ∧ df.slug ∉ reg.roles.map ModuleRole.slug

/-- The catalogue while its definitions are written. -/
structure Revising (reg : Registration) (pre now : Catalogue) : Prop where
  known : ∀ df ∈ now.roleDefs, (∃ old ∈ pre.roleDefs, old.key = df.key)
    ∨ df.slug ∈ reg.roles.map ModuleRole.slug
  retired : ∀ df ∈ now.roleDefs, df.retired = true →
    ∃ old ∈ pre.roleDefs, old.key = df.key ∧ (old.retired = true ∨ reg.Withdraws old)

section Catalogue

variable {cat pre now : Catalogue} {df other : ModuleRoleDef}
  {reg : Registration}

theorem Revising.refl : Revising reg cat cat :=
  ⟨fun df mem => Or.inl ⟨df, mem, rfl⟩, fun df mem retired => ⟨df, mem, rfl, Or.inl retired⟩⟩

theorem Revising.retire (revising : Revising reg pre now) {s : String}
    (wellFormed : reg.wellFormed = true) (direct : reg.delegate = "")
      (declares : reg.declaresRoles = true)
    (isUndeclared : s ∉ reg.roles.map ModuleRole.slug) :
    Revising reg pre (now.retireModuleRoleDef reg.moduleName s) := by
  refine ⟨fun other mem => ?_, fun other mem retired => ?_⟩
  · grind [of_mem_updateWhere, known, ModuleRoleDef.key, Catalogue.retireModuleRoleDef]
  · obtain ⟨old, stored, ⟨matched, rfl⟩ | ⟨-, rfl⟩⟩ := of_mem_updateWhere mem
    · have isKey : old.key = (reg.moduleName, s) := beq_iff_eq.mp matched
      have isSlug : old.slug = s := congrArg Prod.snd isKey
      rcases revising.known old stored with ⟨oldest, wasStored, sameKey⟩ | declared
      · have oldSlug : oldest.slug = s := congrArg Prod.snd (sameKey.trans isKey)
        have oldModule : oldest.moduleName = reg.moduleName :=
          congrArg Prod.fst (sameKey.trans isKey)
        grind [ModuleRoleDef.key, Registration.Withdraws]
      · exact absurd (isSlug ▸ declared) isUndeclared
    · exact revising.retired other stored retired

end Catalogue

/-! ### Registrations -/

section Registrations

variable {fs : CallFaults} {nid : Nat → RoleID} {reg : Registration}
  {cat : Catalogue} {d : TenantData} {w : World} {mod : String}

/-- A tenant where the copies of these definitions follow them. -/
def Followed (defs : List ModuleRoleDef) (d : TenantData) : Prop :=
  ∀ df ∈ defs, df.retired = true → ¬Offers d df

variable {next : TenantData} {α : Type} {work : Work α} {follows : Prop} {done : List TenantID}
  {tid : TenantID}

theorem Followed.orderly (followed : Followed (cat.roleDefsOf mod) d)
    (orderly : Orderly mod (cat.roleDefsOf mod) d next) :
    Followed (cat.roleDefsOf mod) next := fun df mem retired offers =>
  followed df mem retired (orderly.offers (mem_roleDefsOf.mp mem).1 retired offers)

/-- The loop over the tenants: all are orderly, and where the work follows the definitions, the
tenants that were visited do. -/
structure Visiting (mod : String) (follows : Prop) (init : World) (done : List TenantID)
    (now : World) : Prop where
  catalogue : now.catalogue = init.catalogue
  tenants : AllOrderly mod (init.catalogue.roleDefsOf mod) init.tenants now.tenants
  followed : follows → ∀ tid ∈ done, Followed (init.catalogue.roleDefsOf mod) (now.tenants tid)

theorem Visiting.start {now : World} (tidy : AllTidy w.tenants)
    (cat : now.catalogue = w.catalogue) (tns : now.tenants = w.tenants) :
    Visiting mod follows w [] now := by
  refine ⟨cat, fun tid => ?_, fun _ _ none => absurd none List.not_mem_nil⟩
  rw [tns]
  exact Orderly.refl (tidy tid)

theorem Visiting.step {now post : World} (visiting : Visiting mod follows w done now)
    (orderly : Orderly mod (w.catalogue.roleDefsOf mod) (now.tenants tid) next)
    (isFollowed : follows → Followed (w.catalogue.roleDefsOf mod) next)
    (cat : post.catalogue = now.catalogue)
    (tns : post.tenants = Function.update now.tenants tid next) :
    Visiting mod follows w (done ++ [tid]) post := by
  refine ⟨cat.trans visiting.catalogue, fun other => ?_, fun does other isDone => ?_⟩
  · rw [tns]
    by_cases isT : other = tid
    · rw [isT, Function.update_self]
      exact (visiting.tenants tid).trans orderly
    · rw [Function.update_of_ne isT]
      exact visiting.tenants other
  · rw [tns]
    by_cases isT : other = tid
    · rw [isT, Function.update_self]
      exact isFollowed does
    · rw [Function.update_of_ne isT]
      refine visiting.followed does other
        ((List.mem_append.mp isDone).resolve_right fun isLast => ?_)
      exact isT (List.mem_singleton.mp isLast)

/-- The definitions are written first, the tenants are as they were. -/
def Drafting (reg : Registration) (w now : World) : Prop :=
  now.tenants = w.tenants ∧ Revising reg w.catalogue now.catalogue

theorem Drafting.revised {now : World} (drafting : Drafting reg w now) (tidy : AllTidy w.tenants) :
    Revised reg.Withdraws reg.moduleName w now := by
  refine ⟨drafting.2.retired, fun tid => ?_⟩
  rw [drafting.1]
  exact Orderly.refl (tidy tid)

end Registrations

/-! ### The retirement of a module -/

/-- The retirement of the module retires the definition. -/
def Catalogue.Withdraws (cat : Catalogue) (name : String) (df : ModuleRoleDef) :
    Prop :=
  (cat.modules.any fun row => row.name == name) = true ∧ df.moduleName = name

section Retirement

variable {fs : CallFaults} {nid : Nat → RoleID} {w now : World} {name : String}
  {existing : List TenantID}

/-- The module's definitions are written first, in one statement. -/
def Withdrawing (name : String) (w now : World) : Prop :=
  now.tenants = w.tenants
    ∧ (now.catalogue = w.catalogue ∨ now.catalogue = (w.catalogue.retireModule name).2)

theorem Withdrawing.revised (withdrawing : Withdrawing name w now) (tidy : AllTidy w.tenants) :
    Revised (w.catalogue.Withdraws name) name w now := by
  have unchanged : ∀ {cat : Catalogue}, cat = w.catalogue →
      ∀ df ∈ cat.roleDefs, df.retired = true → ∃ old ∈ w.catalogue.roleDefs, old.key = df.key
        ∧ (old.retired = true ∨ w.catalogue.Withdraws name old) := by
    rintro _ rfl df mem retired
    exact ⟨df, mem, rfl, Or.inl retired⟩
  refine ⟨?_, fun tid => ?_⟩
  · rcases withdrawing.2 with same | retiredNow
    · exact unchanged same
    · unfold Catalogue.retireModule at retiredNow
      split at retiredNow
      case isFalse => exact unchanged retiredNow
      case isTrue known =>
        rw [retiredNow]
        intro df mem retired
        obtain ⟨old, stored, ⟨matched, rfl⟩ | ⟨-, rfl⟩⟩ := of_mem_updateWhere mem
        · exact ⟨old, stored, rfl, Or.inr ⟨known, by simpa using matched⟩⟩
        · exact ⟨df, stored, rfl, Or.inl retired⟩
  · rw [withdrawing.1]
    exact Orderly.refl (tidy tid)

end Retirement

end TangraAuth.Authz
