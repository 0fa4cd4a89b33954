import TangraAuth.Authz.Calls
import TangraAuth.Library.Separated

/-!
Contract: the grammar of permission references and of the names they are made of.

Owns: the names a module, a resource, an action and a role definition may have,
the text of a reference, and its parsers, which read exactly these texts.

Does not own: object identifiers and service identities.
-/

namespace TangraAuth.Authz

open Library Store

/-! ### Names -/

def isLower (letter : Char) : Bool := 'a' ≤ letter && letter ≤ 'z'

/-- A lower-case letter and at most `limit` more letters that `allowed` accepts. -/
def isName (allowed : Char → Bool) (limit : Nat) (text : String) : Bool :=
  match text.toList with
  | [] => false
  | first :: rest => isLower first && rest.all allowed && decide (rest.length ≤ limit)

def isModuleLetter (letter : Char) : Bool := isAlnum letter || letter == '-'

def isResourceLetter (letter : Char) : Bool := isModuleLetter letter || letter == '_'

def validModule (text : String) : Bool := isName isModuleLetter 31 text

def validResource (text : String) : Bool := isName isResourceLetter 63 text

def validAction (text : String) : Bool := isName isResourceLetter 31 text

/-- One to 32 letters, digits and inner dashes. -/
def validRoleDefSlug (text : String) : Bool :=
  let letters := text.toList
  letters.all isModuleLetter && letters.head?.any isAlnum && letters.getLast?.any isAlnum
    && decide (letters.length ≤ 32)

/-- No name holds a letter that its grammar leaves out, such as a separator. -/
theorem not_mem_of_isName {allowed : Char → Bool} {limit : Nat} {text : String} {letter : Char}
    (notLower : isLower letter = false) (excluded : allowed letter = false)
    (valid : isName allowed limit text = true) : letter ∉ text.toList := by
  grind [isName]

/-! ### References -/

def Permission.withModule (p : Permission) (mod : String) : Permission :=
  { p with moduleName := mod }

/-- The same resource and action under no module. -/
def Permission.legacy (p : Permission) : Permission := p.withModule ""

/-- `resource:action`. -/
def Permission.short (p : Permission) : String :=
  p.resource ++ ":" ++ p.action

/-- `module:resource:action`, or `resource:action` under no module. -/
def Permission.text (p : Permission) : String :=
  if p.isLegacy then p.short
  else p.moduleName ++ ":" ++ p.short

/-- Inside the grammar; the module may be missing. -/
def Permission.wellFormed (p : Permission) : Bool :=
  (p.isLegacy || validModule p.moduleName) && validResource p.resource && validAction p.action

def build (mod resource action : String) : Option Permission :=
  if Permission.wellFormed ⟨mod, resource, action⟩ then
    some ⟨mod, resource, action⟩
  else none

def parse (text : String) : Option Permission :=
  match fields ':' text with
  | [mod, resource, action] =>
    if mod = "" then none else build mod resource action
  | _ => none

def parseLegacy (text : String) : Option Permission :=
  match fields ':' text with
  | [resource, action] => build "" resource action
  | _ => none

/-- Either form, told apart by the number of separators. -/
def parseAny (text : String) : Option Permission :=
  if text.toList.count ':' = 2 then parse text else parseLegacy text

/-- Parses a short reference and places it in the module. -/
def qualify (mod text : String) : Option Permission :=
  match parseLegacy text with
  | none => none
  | some p =>
    if validModule mod then some (p.withModule mod) else none

/-- The slug of a module's role in a tenant. Slugs of other roles hold no dot. -/
def moduleRoleSlug (mod s : String) : Slug := "m." ++ mod ++ "." ++ s

/-! ### What the parsers return -/

variable {mod : String} {p : Permission}

theorem build_eq_some {resource action : String} (built : build mod resource action = some p) :
    p = ⟨mod, resource, action⟩ ∧ p.wellFormed = true := by
  grind [build]

variable {text : String}

theorem validModule_ne_empty (valid : validModule mod = true) : mod ≠ "" := by
  rintro rfl
  exact absurd valid (by decide)

/-- No separator of references or slugs is inside a name. -/
theorem Permission.not_mem_of_wellFormed (letter : Char) (notLower : isLower letter = false)
    (excluded : isResourceLetter letter = false) (wellFormed : p.wellFormed = true) :
    letter ∉ p.moduleName.toList ∧ letter ∉ p.resource.toList ∧ letter ∉ p.action.toList := by
  simp only [Permission.wellFormed, Bool.and_eq_true, Bool.or_eq_true] at wellFormed
  obtain ⟨⟨named, resource⟩, action⟩ := wellFormed
  refine ⟨?_, not_mem_of_isName notLower excluded resource,
    not_mem_of_isName notLower excluded action⟩
  rcases named with legacy | valid
  · rw [show p.moduleName = "" by simpa [Permission.isLegacy] using legacy]
    simp
  · refine not_mem_of_isName notLower ?_ valid
    simp only [isResourceLetter, Bool.or_eq_false_iff] at excluded
    exact excluded.1

/-- The names with a separator between them. -/
def Permission.joined (p : Permission) (sep : String) : String :=
  if p.isLegacy then p.resource ++ sep ++ p.action
  else p.moduleName ++ sep ++ (p.resource ++ sep ++ p.action)

def Permission.names (p : Permission) : List String :=
  if p.isLegacy then [p.resource, p.action]
  else [p.moduleName, p.resource, p.action]

theorem joined_eq_iff {sep : Char} (notLower : isLower sep = false)
    (excluded : isResourceLetter sep = false) (wellFormed : p.wellFormed = true) :
    p.joined (String.singleton sep) = text ↔ p.names = fields sep text := by
  obtain ⟨named, resource, action⟩ :=
    Permission.not_mem_of_wellFormed sep notLower excluded wellFormed
  have areNames : fields sep (p.joined (String.singleton sep)) = p.names := by
    have short := (fields_cons resource).trans (congrArg _ (fields_of_not_mem action))
    unfold Permission.joined Permission.names
    split_ifs
    · exact short
    · exact (fields_cons named).trans (congrArg _ short)
  rw [← areNames]
  exact fields_injective.eq_iff.symm

/-- Two names are read under no module, three under the first one. -/
def readNames : List String → Option Permission
  | [resource, action] => build "" resource action
  | [mod, resource, action] =>
    if mod = "" then none else build mod resource action
  | _ => none

theorem readNames_eq_some_iff {names : List String} : readNames names = some p ↔
      p.wellFormed = true ∧ p.names = names := by
  constructor
  · intro read
    unfold readNames at read
    split at read
    case h_1 =>
      obtain ⟨rfl, wellFormed⟩ := build_eq_some read
      exact ⟨wellFormed, rfl⟩
    case h_2 mod resource action =>
      split_ifs at read with unnamed
      obtain ⟨rfl, wellFormed⟩ := build_eq_some read
      exact ⟨wellFormed, if_neg (by simpa [Permission.isLegacy] using unnamed)⟩
    case h_3 => cases read
  · rintro ⟨wellFormed, rfl⟩
    have isBuilt : build p.moduleName p.resource p.action = some p := if_pos wellFormed
    unfold Permission.names
    by_cases legacy : p.moduleName = ""
    · simpa [readNames, Permission.isLegacy, legacy] using isBuilt
    · simpa [readNames, Permission.isLegacy, legacy] using isBuilt

theorem parse_eq_some_iff : parse text = some p ↔
    readNames (fields ':' text) = some p ∧ p.isLegacy = false := by
  unfold parse
  split
  case h_1 mod resource action isParts =>
    rw [isParts]
    refine ⟨fun read => ⟨read, ?_⟩, And.left⟩
    split_ifs at read with unnamed
    rw [(build_eq_some read).1]
    simpa [Permission.isLegacy] using unnamed
  case h_2 other =>
    refine ⟨fun impossible => (nomatch impossible), ?_⟩
    rintro ⟨read, ofModule⟩
    have isNames := (readNames_eq_some_iff.mp read).2
    rw [Permission.names, ofModule, if_neg Bool.false_ne_true] at isNames
    exact absurd isNames.symm (other _ _ _)

theorem parseLegacy_eq_some_iff : parseLegacy text = some p ↔
    readNames (fields ':' text) = some p ∧ p.isLegacy = true := by
  unfold parseLegacy
  split
  case h_1 resource action isParts =>
    rw [isParts]
    refine ⟨fun read => ⟨read, ?_⟩, And.left⟩
    rw [(build_eq_some read).1]
    rfl
  case h_2 other =>
    refine ⟨fun impossible => (nomatch impossible), ?_⟩
    rintro ⟨read, legacy⟩
    have isNames := (readNames_eq_some_iff.mp read).2
    rw [Permission.names, if_pos legacy] at isNames
    exact absurd isNames.symm (other _ _)

/-- The parser reads exactly the texts of references inside the grammar. -/
theorem parseAny_eq_some_iff : parseAny text = some p ↔ p.wellFormed = true ∧ p.text = text := by
  have reads : readNames (fields ':' text) = some p ↔ p.wellFormed = true ∧ p.text = text := by
    rw [readNames_eq_some_iff]
    refine and_congr_right fun wellFormed => ?_
    exact (joined_eq_iff (by decide) (by decide) wellFormed).symm
  have separators : p.wellFormed = true → p.text = text →
      text.toList.count ':' = if p.isLegacy then 1 else 2 := by
    rintro wellFormed rfl
    obtain ⟨named, resource, action⟩ :=
      Permission.not_mem_of_wellFormed ':' (by decide) (by decide) wellFormed
    unfold Permission.text Permission.short
    split_ifs <;> simp [List.count_eq_zero_of_not_mem, named, resource, action]
  unfold parseAny
  split_ifs with two
  · rw [parse_eq_some_iff, reads, and_iff_left_iff_imp]
    rintro ⟨wellFormed, isText⟩
    rw [separators wellFormed isText] at two
    by_contra legacy
    simp [legacy] at two
  · rw [parseLegacy_eq_some_iff, reads, and_iff_left_iff_imp]
    rintro ⟨wellFormed, isText⟩
    rw [separators wellFormed isText] at two
    by_contra ofModule
    simp [ofModule] at two

/-- A qualified reference belongs to the module and is the text's reference there. -/
theorem qualify_eq_some : qualify mod text = some p ↔
      validModule mod = true ∧ p.moduleName = mod ∧ parseLegacy text = some p.legacy := by
  unfold qualify
  split
  case h_1 fails => simp [fails]
  case h_2 found parsed =>
    have noModule : found.moduleName = "" := by
      simpa [Permission.isLegacy] using (parseLegacy_eq_some_iff.mp parsed).2
    by_cases valid : validModule mod = true
    · rw [if_pos valid, parsed]
      simp only [Option.some.injEq, valid, true_and]
      constructor
      · rintro rfl
        exact ⟨rfl, by simp [Permission.legacy, Permission.withModule, ← noModule]⟩
      · rintro ⟨rfl, rfl⟩
        rfl
    · simp [valid]

/-- The short text of a reference inside the grammar is read as its legacy reference. -/
theorem parseLegacy_short (wellFormed : p.wellFormed = true) :
    parseLegacy p.short = some p.legacy := by
  have legacyFormed : p.legacy.wellFormed = true := by
    simp only [Permission.wellFormed, Bool.and_eq_true] at wellFormed
    simp [Permission.wellFormed, Permission.legacy, Permission.withModule, Permission.isLegacy,
      wellFormed.1.2, wellFormed.2]
  refine parseLegacy_eq_some_iff.mpr ⟨readNames_eq_some_iff.mpr ⟨legacyFormed, ?_⟩, rfl⟩
  exact (joined_eq_iff (by decide) (by decide) legacyFormed).mp rfl

/-! ### Slugs of module roles -/

variable {s : String}

theorem fields_moduleRoleSlug (plain : '.' ∉ mod.toList) :
    fields '.' (moduleRoleSlug mod s) = "m" :: mod :: fields '.' s := by
  have text : moduleRoleSlug mod s = "m" ++ "." ++ (mod ++ "." ++ s) := by
    simp [moduleRoleSlug, String.append_assoc]
  rw [text]
  exact (fields_cons (by decide)).trans (congrArg _ (fields_cons plain))

theorem dot_mem_moduleRoleSlug : '.' ∈ (moduleRoleSlug mod s).toList := by
  simp [moduleRoleSlug, String.toList_append]

end TangraAuth.Authz
