import TangraAuth.Authz.Objects

/-!
Contract: the texts of permissions, of their objects and of module roles are unambiguous.

Owns: the parsers of objects and of module-role slugs, and that every parser reads
exactly the texts of its printer.

Does not own: service identities.
-/

namespace TangraAuth.Authz.Objects

open Library Store

/-! ### Objects -/

def parseObject (obj : String) : Option (String × Permission) :=
  match obj.toList.dropPrefix? "permission:".toList with
  | none => none
  | some rest =>
    match cut '/' (String.ofList rest) with
    | none => none
    | some (tid, name) =>
      if validTenantID tid then (readNames (fields '~' name)).map fun p => (tid, p)
      else none

theorem permissionObject_eq (tid : String) (p : Permission) :
    permissionObject tid p = "permission:" ++ (tid ++ "/" ++ p.joined "~") := by
  unfold permissionObject Permission.joined
  split_ifs <;> simp [String.append_assoc]

theorem readObject_eq_some_iff {name : String} {p : Permission} :
    readNames (fields '~' name) = some p ↔ p.wellFormed = true ∧ p.joined "~" = name := by
  rw [readNames_eq_some_iff]
  refine and_congr_right fun wellFormed => ?_
  exact (joined_eq_iff (by decide) (by decide) wellFormed).symm

theorem takeWhile_append_separator {sep : Char} {letters : List Char} (mem : sep ∈ letters) :
    letters.takeWhile (· != sep) ++ sep :: (letters.dropWhile (· != sep)).tail = letters := by
  induction letters with
  | nil => cases mem
  | cons first rest ih =>
    by_cases same : first = sep
    · simp [same]
    · have later : sep ∈ rest :=
        (List.mem_cons.mp mem).resolve_left fun isFirst => same isFirst.symm
      simp [same, ih later]

theorem cut_eq_some {sep : Char} {text pre post : String}
    (isCut : cut sep text = some (pre, post)) :
    pre ++ String.singleton sep ++ post = text := by
  unfold cut at isCut
  split_ifs at isCut with mem
  cases isCut
  apply String.toList_injective
  simp only [String.toList_append, String.toList_singleton, String.toList_ofList,
    List.append_assoc, List.singleton_append]
  exact takeWhile_append_separator mem

theorem parseObject_eq_some_iff {obj tid : String} {p : Permission} :
    parseObject obj = some (tid, p) ↔ validTenantID tid = true ∧ p.wellFormed = true
        ∧ permissionObject tid p = obj := by
  rw [permissionObject_eq]
  constructor
  · intro parsed
    unfold parseObject at parsed
    split at parsed
    case h_1 => cases parsed
    case h_2 rest isRest =>
      split at parsed
      case h_1 => cases parsed
      case h_2 found name isCut =>
        split_ifs at parsed with valid
        obtain ⟨read, isRead, same⟩ := Option.map_eq_some_iff.mp parsed
        cases same
        obtain ⟨wellFormed, rfl⟩ := readObject_eq_some_iff.mp isRead
        obtain ⟨init, isObject, isStart⟩ := List.dropPrefix?_eq_some_iff.mp isRest
        refine ⟨valid, wellFormed, String.toList_injective ?_⟩
        have isT : tid ++ "/" ++ p.joined "~" = String.ofList rest :=
          cut_eq_some isCut
        simp only [isT, isObject, eq_of_beq isStart, String.toList_append, String.toList_ofList]
  · rintro ⟨valid, wellFormed, rfl⟩
    have isRest : ("permission:" ++ (tid ++ "/" ++ p.joined "~")).toList.dropPrefix?
        "permission:".toList = some (tid ++ "/" ++ p.joined "~").toList :=
      List.dropPrefix?_eq_some_iff.mpr ⟨_, String.toList_append, beq_self_eq_true _⟩
    have isCut : cut '/' (tid ++ "/" ++ p.joined "~") = some (tid, p.joined "~") :=
      cut_append (not_mem_of_validTenantID (by decide) valid)
    unfold parseObject
    rw [isRest]
    dsimp only
    rw [String.ofList_toList, isCut]
    dsimp only
    rw [if_pos valid, readObject_eq_some_iff.mpr ⟨wellFormed, rfl⟩, Option.map_some]

/-! ### Slugs of module roles -/

/-- `ModuleRoleSlug` with its refusal. -/
def checkedModuleRoleSlug (mod s : String) : Option Slug :=
  if validModule mod && validRoleDefSlug s then some (moduleRoleSlug mod s)
  else none

def parseModuleRoleSlug (text : Slug) : Option (String × String) :=
  match fields '.' text with
  | [init, mod, s] =>
    if init ≠ "m" ∨ !validModule mod ∨ !validRoleDefSlug s then none
    else some (mod, s)
  | _ => none

theorem parseModuleRoleSlug_eq_some_iff {text mod s : String} :
    parseModuleRoleSlug text = some (mod, s) ↔ checkedModuleRoleSlug mod s = some text := by
  have isFields : validModule mod = true → validRoleDefSlug s = true →
      fields '.' (moduleRoleSlug mod s) = ["m", mod, s] := by
    intro named isSlug
    have plain : '.' ∉ s.toList := by
      simp only [validRoleDefSlug, Bool.and_eq_true, List.all_eq_true] at isSlug
      intro dot
      exact absurd (isSlug.1.1.1 '.' dot) (by decide)
    rw [fields_moduleRoleSlug (not_mem_of_isName (by decide) (by decide) named),
      fields_of_not_mem plain]
  constructor
  · intro parsed
    unfold parseModuleRoleSlug at parsed
    split at parsed
    case h_2 => cases parsed
    case h_1 init found foundSlug areFields =>
      split_ifs at parsed with refused
      cases parsed
      simp only [ne_eq, Bool.not_eq_eq_eq_not, Bool.not_true, not_or, not_not,
        Bool.not_eq_false] at refused
      obtain ⟨rfl, named, isSlug⟩ := refused
      have sameText := fields_injective ((isFields named isSlug).trans areFields.symm)
      simp [checkedModuleRoleSlug, named, isSlug, sameText]
  · intro checked
    unfold checkedModuleRoleSlug at checked
    split_ifs at checked with valid
    cases checked
    rw [Bool.and_eq_true] at valid
    unfold parseModuleRoleSlug
    rw [isFields valid.1 valid.2]
    simp [valid.1, valid.2]

/-! ### Every text -/

/-- Each parser reads exactly the texts of its printer, objects tell tenants and permissions
apart and carry their tenant, and no slug is both a module role's and a custom role's. -/
theorem references_unambiguous : (∀ text p, parseAny text = some p ↔
      p.wellFormed = true ∧ p.text = text)
    ∧ (∀ obj tid p, parseObject obj = some (tid, p) ↔
      validTenantID tid = true ∧ p.wellFormed = true ∧ permissionObject tid p = obj)
    ∧ (∀ tid p otherTid other, validTenantID tid = true → p.wellFormed = true →
      validTenantID otherTid = true → other.wellFormed = true →
      permissionObject tid p = permissionObject otherTid other →
      tid = otherTid ∧ p = other)
    ∧ (∀ tid p, validTenantID tid = true → objectTenant (permissionObject tid p) = .ok tid)
    ∧ (∀ text mod s, parseModuleRoleSlug text = some (mod, s) ↔
      checkedModuleRoleSlug mod s = some text)
    ∧ ∀ text mod s, checkedModuleRoleSlug mod s = some text → parseCustomSlug text = false := by
  refine ⟨fun _ _ => parseAny_eq_some_iff, fun _ _ _ => parseObject_eq_some_iff, ?_,
    fun _ _ valid => permissionObject_belongs valid,
    fun _ _ _ => parseModuleRoleSlug_eq_some_iff, ?_⟩
  · intro tid p otherTid other valid wellFormed otherValid otherFormed same
    have read := parseObject_eq_some_iff.mpr ⟨valid, wellFormed, rfl⟩
    rw [same, parseObject_eq_some_iff.mpr ⟨otherValid, otherFormed, rfl⟩, Option.some.injEq,
      Prod.mk.injEq] at read
    exact ⟨read.1.symm, read.2.symm⟩
  · intro text mod s checked
    unfold checkedModuleRoleSlug at checked
    split_ifs at checked
    cases checked
    -- A custom slug holds no dot.
    rw [Bool.eq_false_iff]
    intro custom
    simp only [parseCustomSlug, Bool.and_eq_true, List.all_eq_true] at custom
    exact absurd (custom.1.1.1.2 '.' dot_mem_moduleRoleSlug) (by decide)

end TangraAuth.Authz.Objects
