import Mathlib.Data.Finset.Basic

/-!
Contract: a set of facts that is edited by a sequence of atomic requests.

Owns: edits, their split into requests of a bounded size, the write that can
stop after any number of requests, and the rule for writing the difference of
two lists: it replaces the facts of the one by the facts of the other.

Does not own: what a fact says, and who computes the difference.
-/

namespace TangraAuth.Library

variable {τ : Type} [DecidableEq τ]

/-- One change of the set. Adding a present fact and removing an absent one do nothing. -/
inductive Edit (τ : Type) where
  | add (fact : τ)
  | remove (fact : τ)

def edits (adds removes : List τ) : List (Edit τ) :=
  adds.map Edit.add ++ removes.map Edit.remove

def Edit.apply (facts : Finset τ) : Edit τ → Finset τ
  | .add fact => insert fact facts
  | .remove fact => facts.erase fact

def applyEdits (facts : Finset τ) (changes : List (Edit τ)) : Finset τ :=
  changes.foldl Edit.apply facts

/-- Requests of at most `limit` edits, filled one after another; `current` is the request
being filled. -/
def packRequests (limit : Nat) : List (Edit τ) → List (Edit τ) → List (List (Edit τ))
  | current, [] => if current.isEmpty then [] else [current]
  | current, change :: rest =>
    if current.length = limit then current :: packRequests limit [change] rest
    else packRequests limit (current ++ [change]) rest

def writeRequests (limit : Nat) (adds removes : List τ) : List (List (Edit τ)) :=
  packRequests limit [] (edits adds removes)

/-- What a write that is not interrupted leaves. -/
def write (facts : Finset τ) (adds removes : List τ) : Finset τ :=
  applyEdits facts (edits adds removes)

/-- A write as its caller sees it. A fault says how many requests took effect before the
error; a write with no request has nothing that can fail. -/
def writeWith (limit : Nat) (fault : Option Nat) (facts : Finset τ) (adds removes : List τ) :
    Bool × Finset τ :=
  match writeRequests limit adds removes, fault with
  | [], _ => (true, facts)
  | req :: rest, none => (true, applyEdits facts (req :: rest).flatten)
  | req :: rest, some count => (false, applyEdits facts ((req :: rest).take count).flatten)

/-! ### Requests -/

omit [DecidableEq τ] in
theorem packRequests_flatten (limit : Nat) (current changes : List (Edit τ)) :
    (packRequests limit current changes).flatten = current ++ changes := by
  induction changes generalizing current with
  | nil => cases current <;> simp [packRequests]
  | cons change rest ih =>
    by_cases full : current.length = limit
    · rw [packRequests, if_pos full, List.flatten_cons, ih]
      rfl
    · rw [packRequests, if_neg full, ih, List.append_assoc]
      rfl

omit [DecidableEq τ] in
theorem writeRequests_flatten (limit : Nat) (adds removes : List τ) :
    (writeRequests limit adds removes).flatten = edits adds removes :=
  packRequests_flatten limit [] _

omit [DecidableEq τ] in
theorem packRequests_sizes {limit : Nat} (pos : 0 < limit) (changes : List (Edit τ))
    {current : List (Edit τ)} (within : current.length ≤ limit) :
    ∀ req ∈ packRequests limit current changes, 1 ≤ req.length ∧ req.length ≤ limit := by
  induction changes generalizing current with
  | nil =>
    intro req mem
    cases current with
    | nil => cases mem
    | cons first rest =>
      cases List.mem_singleton.mp mem
      exact ⟨Nat.succ_le_succ (Nat.zero_le _), within⟩
  | cons change rest ih =>
    by_cases full : current.length = limit
    · rw [packRequests, if_pos full]
      intro req mem
      rcases List.mem_cons.mp mem with rfl | later
      · omega
      · exact @ih [change] pos req later
    · rw [packRequests, if_neg full]
      refine ih ?_
      rw [List.length_append]
      exact Nat.lt_of_le_of_ne within full

omit [DecidableEq τ] in
theorem writeRequests_sizes {limit : Nat} (pos : 0 < limit) (adds removes : List τ) :
    ∀ req ∈ writeRequests limit adds removes, 1 ≤ req.length ∧ req.length ≤ limit :=
  packRequests_sizes pos _ (Nat.zero_le limit)

variable {adds removes : List τ}

omit [DecidableEq τ] in
theorem edits_eq_nil : edits adds removes = [] ↔ adds = [] ∧ removes = [] := by
  simp [edits]

variable {limit : Nat}

omit [DecidableEq τ] in
theorem packRequests_ne_nil {current changes : List (Edit τ)} (nonempty : current ++ changes ≠ []) :
    packRequests limit current changes ≠ [] := by
  intro empty
  have flat := packRequests_flatten limit current changes
  rw [empty] at flat
  exact nonempty flat.symm

theorem writeWith_none (limit : Nat) (facts : Finset τ) (adds removes : List τ) :
    writeWith limit none facts adds removes = (true, write facts adds removes) := by
  have flat := writeRequests_flatten limit adds removes
  unfold writeWith write
  split
  case h_1 applyEdits =>
    rw [applyEdits] at flat
    rw [← flat]
    rfl
  case h_2 nonempty _ =>
    rw [nonempty] at flat
    rw [flat]
  case h_3 impossible => cases impossible

theorem writeWith_nothing (limit : Nat) (fault : Option Nat) (facts : Finset τ) :
    writeWith limit fault facts [] [] = (true, facts) := rfl

variable {facts : Finset τ}

/-- The caller sees no error exactly when there is no fault or nothing to write. -/
theorem writeWith_fst {fault : Option Nat} : (writeWith limit fault facts adds removes).1 = true ↔
      fault = none ∨ (adds = [] ∧ removes = []) := by
  by_cases nothing : adds = [] ∧ removes = []
  · rw [nothing.1, nothing.2, writeWith_nothing]
    simp
  · have requests : writeRequests limit adds removes ≠ [] :=
      packRequests_ne_nil fun empty => nothing (edits_eq_nil.mp empty)
    unfold writeWith
    grind

theorem writeWith_unstarted : (writeWith limit (some 0) facts adds removes).2 = facts := by
  unfold writeWith
  split
  case h_1 => rfl
  case h_2 impossible => cases impossible
  case h_3 count _ same =>
    cases same
    rfl

/-! ### What a write leaves -/

theorem mem_applyEdits_adds (facts : Finset τ) (adds : List τ) (fact : τ) :
    fact ∈ applyEdits facts (adds.map Edit.add) ↔ fact ∈ facts ∨ fact ∈ adds := by
  induction adds generalizing facts with
  | nil => simp [applyEdits]
  | cons new rest ih =>
    have step := ih (insert new facts)
    simp only [applyEdits, List.map_cons, List.foldl_cons, Edit.apply] at step ⊢
    rw [step, Finset.mem_insert, List.mem_cons]
    tauto

theorem mem_applyEdits_removes (facts : Finset τ) (removes : List τ) (fact : τ) :
    fact ∈ applyEdits facts (removes.map Edit.remove) ↔ fact ∈ facts ∧ fact ∉ removes := by
  induction removes generalizing facts with
  | nil => simp [applyEdits]
  | cons old rest ih =>
    have step := ih (facts.erase old)
    simp only [applyEdits, List.map_cons, List.foldl_cons, Edit.apply] at step ⊢
    rw [step, Finset.mem_erase, List.mem_cons]
    tauto

variable {fact : τ}

theorem mem_write :
    fact ∈ write facts adds removes ↔ (fact ∈ facts ∨ fact ∈ adds) ∧ fact ∉ removes := by
  unfold write edits applyEdits
  rw [List.foldl_append]
  have removed := mem_applyEdits_removes (applyEdits facts (adds.map Edit.add)) removes fact
  have added := mem_applyEdits_adds facts adds fact
  exact removed.trans (and_congr_left fun _ => added)

/-- What a list of edits leaves came from before or was added, and what is not removed stays. -/
theorem applyEdits_bounds {changes : List (Edit τ)} :
    (fact ∈ applyEdits facts changes → fact ∈ facts ∨ Edit.add fact ∈ changes)
      ∧ (fact ∈ facts → Edit.remove fact ∉ changes → fact ∈ applyEdits facts changes) := by
  induction changes generalizing facts with
  | nil => exact ⟨Or.inl, fun stored _ => stored⟩
  | cons change rest ih =>
    obtain ⟨made, kept⟩ := @ih (change.apply facts)
    cases change with
    | add new =>
      grind [applyEdits, Edit.apply]
    | remove old =>
      simp only [Edit.apply, Finset.mem_erase] at made kept
      constructor
      · intro stored
        rcases made stored with pre | added
        · exact Or.inl pre.2
        · exact Or.inr (List.mem_cons_of_mem _ added)
      · intro stored unremoved
        have differs : fact ≠ old := fun same => unremoved (same ▸ List.mem_cons_self)
        exact kept ⟨differs, stored⟩ fun removed => unremoved (List.mem_cons_of_mem _ removed)

/-- However far a write gets, what it leaves lies between the facts without its removals and
the facts with its additions. -/
theorem writeWith_bounds {fault : Option Nat} :
    (fact ∈ (writeWith limit fault facts adds removes).2 → fact ∈ facts ∨ fact ∈ adds)
      ∧ (fact ∈ facts → fact ∉ removes → fact ∈ (writeWith limit fault facts adds removes).2) := by
  have asked : ∀ change, change ∈ (writeRequests limit adds removes).flatten →
      change ∈ edits adds removes := by
    intro change mem
    rwa [writeRequests_flatten] at mem
  have added : Edit.add fact ∈ edits adds removes → fact ∈ adds := by simp [edits]
  have removed : Edit.remove fact ∈ edits adds removes → fact ∈ removes := by simp [edits]
  unfold writeWith
  split
  case h_1 => exact ⟨Or.inl, fun stored _ => stored⟩
  case h_2 req rest requests =>
    grind [applyEdits_bounds]
  case h_3 req rest count requests =>
    rw [requests] at asked
    have part : ∀ change, change ∈ ((req :: rest).take count).flatten →
        change ∈ edits adds removes := by
      intro change mem
      obtain ⟨requested, taken, mem⟩ := List.mem_flatten.mp mem
      exact asked _ (List.mem_flatten.mpr ⟨requested, List.mem_of_mem_take taken, mem⟩)
    grind [applyEdits_bounds]

theorem write_adds_append (facts : Finset τ) (first second : List τ) :
    write (write facts first []) second [] = write facts (first ++ second) [] := by
  ext fact
  simp only [mem_write, List.mem_append]
  tauto

/-! ### Differences -/

section Differences

variable {α κ : Type} [DecidableEq κ] (key : α → κ)

/-- The elements of `wanted` whose key `present` lacks. -/
def missing (present wanted : List α) : List α :=
  wanted.filter fun item => key item ∉ present.map key

variable {key}

variable {present wanted : List α}

theorem mem_missing {item : α} :
    item ∈ missing key present wanted ↔ item ∈ wanted ∧ key item ∉ present.map key := by
  simp only [missing, List.mem_filter, decide_eq_true_eq]

theorem missing_eq_nil :
    missing key present wanted = [] ↔ ∀ item ∈ wanted, key item ∈ present.map key := by
  simp only [missing, List.filter_eq_nil_iff, decide_eq_true_eq, not_not]

/-- Writing the difference of two lists replaces the facts of the one by the facts of the
other, and touches no other fact. -/
theorem mem_write_difference {factsOf : α → List τ}
    (written : ∀ item ∈ present, ∀ fact ∈ factsOf item, fact ∈ facts)
    (keyed : ∀ left ∈ present, ∀ right ∈ wanted, key left = key right → left = right)
    (apart : ∀ left ∈ present, ∀ right ∈ wanted,
      ∀ fact, fact ∈ factsOf left → fact ∈ factsOf right → left = right) :
    fact ∈ write facts ((missing key present wanted).flatMap factsOf)
        ((missing key wanted present).flatMap factsOf) ↔
      (∃ item ∈ wanted, fact ∈ factsOf item)
        ∨ (fact ∈ facts ∧ ∀ item ∈ present, fact ∉ factsOf item) := by
  simp only [mem_write, List.mem_flatMap, mem_missing]
  constructor
  · rintro ⟨stored | ⟨item, ⟨isWanted, -⟩, ofItem⟩, kept⟩
    · by_cases ofPresent : ∃ item ∈ present, fact ∈ factsOf item
      · obtain ⟨item, isPresent, ofItem⟩ := ofPresent
        grind
      grind
    · exact Or.inl ⟨item, isWanted, ofItem⟩
  · rintro (⟨item, isWanted, ofItem⟩ | ⟨stored, other⟩)
    · constructor
      · grind
      grind
    grind

end Differences

end TangraAuth.Library
