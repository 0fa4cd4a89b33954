import Mathlib.Tactic.Common

/-!
Contract: a relation that is kept twice, as rows and as facts, and is changed by
writing the difference between the rows and what is wanted.

Owns: the pair, the change of one key and of several keys at once, and how
changes combine. Rows and facts need not agree.

Does not own: how rows and facts are stored.
-/

namespace TangraAuth.Library

/-- The values of each key, as the rows have them and as the facts have them. -/
@[ext]
structure Ledger (κ ν : Type) where
  rows : κ → ν → Prop
  facts : κ → ν → Prop

namespace Ledger

variable {κ ν : Type}

/-- What the difference between a row and what is wanted leaves of a fact. -/
def Settled (wanted row fact : Prop) : Prop := (row → wanted ∧ fact) ∧ (¬row → wanted ∨ fact)

/-- The keys of `ks` get the values of `want`. -/
def change (lg : Ledger κ ν) (ks : κ → Prop) (want : κ → ν → Prop) : Ledger κ ν where
  rows key val := (ks key ∧ want key val) ∨ (¬ks key ∧ lg.rows key val)
  facts key val :=
    (ks key ∧ Settled (want key val) (lg.rows key val) (lg.facts key val))
      ∨ (¬ks key ∧ lg.facts key val)

def assign (lg : Ledger κ ν) (key : κ) (want : ν → Prop) : Ledger κ ν :=
  lg.change (· = key) fun _ => want

variable {lg : Ledger κ ν} {ks : κ → Prop} {want : κ → ν → Prop} {key : κ} {val : ν}

theorem change_rows_of (chg : ks key) : (lg.change ks want).rows key val ↔ want key val := by
  simp [change, chg]

theorem change_facts_of (chg : ks key) : (lg.change ks want).facts key val ↔
      Settled (want key val) (lg.rows key val) (lg.facts key val) := by
  simp [change, chg]

theorem change_rows_of_not (other : ¬ks key) :
    (lg.change ks want).rows key val ↔ lg.rows key val := by
  simp [change, other]

theorem change_facts_of_not (other : ¬ks key) :
    (lg.change ks want).facts key val ↔ lg.facts key val := by
  simp [change, other]

theorem settled_of_iff {wanted row fact : Prop} (same : wanted ↔ row) :
    Settled wanted row fact ↔ fact := by
  unfold Settled
  tauto

theorem settled_cases {wanted row fact : Prop} :
    Settled wanted row fact ↔ (wanted ∧ (row → fact)) ∨ (¬wanted ∧ ¬row ∧ fact) := by
  unfold Settled
  tauto

/-- A value that a key has and keeps, or lacks and does not get, is not touched. -/
theorem change_unchanged (same : ks key → (want key val ↔ lg.rows key val)) :
    ((lg.change ks want).rows key val ↔ lg.rows key val)
      ∧ ((lg.change ks want).facts key val ↔ lg.facts key val) := by
  by_cases chg : ks key
  · rw [change_rows_of chg, change_facts_of chg]
    exact ⟨same chg, settled_of_iff (same chg)⟩
  · exact ⟨change_rows_of_not chg, change_facts_of_not chg⟩

theorem assign_rows_self {wanted : ν → Prop} :
    (lg.assign key wanted).rows key val ↔ wanted val := by
  simp [assign, change]

theorem assign_facts_self {wanted : ν → Prop} : (lg.assign key wanted).facts key val ↔
      Settled (wanted val) (lg.rows key val) (lg.facts key val) := by
  simp [assign, change]

theorem assign_rows_other {wanted : ν → Prop} {other : κ} (differs : other ≠ key) :
    (lg.assign key wanted).rows other val ↔ lg.rows other val := by
  simp [assign, change, differs]

theorem assign_facts_other {wanted : ν → Prop} {other : κ} (differs : other ≠ key) :
    (lg.assign key wanted).facts other val ↔ lg.facts other val := by
  simp [assign, change, differs]

/-- Asking every key for what its rows say changes nothing. -/
theorem change_self (same : ∀ key val, ks key → (want key val ↔ lg.rows key val)) :
    lg.change ks want = lg := by
  ext key val
  · exact (change_unchanged (same key val)).1
  · exact (change_unchanged (same key val)).2

theorem change_none (none : ∀ key, ¬ks key) : lg.change ks want = lg :=
  change_self fun key _ chg => absurd chg (none key)

/-- Keys that ask for what their rows say may be left out. -/
theorem change_congr {others : κ → Prop}
    (same : ∀ key val, (ks key ↔ others key) ∨ (want key val ↔ lg.rows key val)) :
    lg.change ks want = lg.change others want := by
  have both : ∀ key val, ((lg.change ks want).rows key val ↔ (lg.change others want).rows key val)
      ∧ ((lg.change ks want).facts key val ↔ (lg.change others want).facts key val) := by
    intro key val
    rcases same key val with sameKey | unchanged
    · simp only [change, sameKey, and_self]
    · have left := @change_unchanged _ _ lg ks want key val fun _ => unchanged
      have right := @change_unchanged _ _ lg others want key val fun _ => unchanged
      exact ⟨left.1.trans right.1.symm, left.2.trans right.2.symm⟩
  ext key val
  · exact (both key val).1
  · exact (both key val).2

theorem change_assign (fresh : ¬ks key) : (lg.change ks want).assign key (want key)
      = lg.change (fun other => ks other ∨ other = key) want := by
  ext other val
  · by_cases isKey : other = key
    · subst isKey
      simp [assign, change]
    · by_cases chg : ks other <;> simp [assign, change, isKey, chg]
  · by_cases isKey : other = key
    · subst isKey
      simp [assign, change, fresh]
    · by_cases chg : ks other <;> simp [assign, change, isKey, chg]

/-- Rows and facts say the same. -/
def Agreeing (lg : Ledger κ ν) : Prop := ∀ key val, lg.rows key val ↔ lg.facts key val

theorem Agreeing.change (agreeing : lg.Agreeing) : (lg.change ks want).Agreeing := by
  intro key val
  by_cases chg : ks key
  · rw [change_rows_of chg, change_facts_of chg, ← agreeing key val]
    unfold Settled
    tauto
  · rw [change_rows_of_not chg, change_facts_of_not chg, agreeing key val]

/-- The key was assigned in part: rows and facts lie between those of before and those of an
assignment that ends. -/
structure Toward (lg : Ledger κ ν) (key : κ) (wanted : ν → Prop) (post : Ledger κ ν) :
    Prop where
  rowsKept : ∀ other val, lg.rows other val → (other = key → wanted val) → post.rows other val
  rowsMade : ∀ other val, post.rows other val → lg.rows other val ∨ (other = key ∧ wanted val)
  factsKept : ∀ other val, lg.facts other val →
    (other = key → lg.rows other val → wanted val) → post.facts other val
  factsMade : ∀ other val, post.facts other val →
    lg.facts other val ∨ (other = key ∧ wanted val ∧ ¬lg.rows other val)

section Toward

variable {wanted : ν → Prop} {post : Ledger κ ν}

theorem Toward.refl : lg.Toward key wanted lg where
  rowsKept := fun _ _ row _ => row
  rowsMade := fun _ _ => Or.inl
  factsKept := fun _ _ fact _ => fact
  factsMade := fun _ _ => Or.inl

theorem toward_assign : lg.Toward key wanted (lg.assign key wanted) := by
  constructor <;> intro other val
  all_goals
    by_cases isKey : other = key
    · subst isKey
      simp only [assign_rows_self, assign_facts_self, Settled, true_and, forall_const]
      tauto
    · simp only [assign_rows_other isKey, assign_facts_other isKey, isKey]
      tauto

theorem Toward.unchanged (toward : lg.Toward key wanted post) {other : κ}
    (same : other = key → (wanted val ↔ lg.rows other val)) :
    (post.rows other val ↔ lg.rows other val) ∧ (post.facts other val ↔ lg.facts other val) := by
  refine ⟨⟨fun row => ?_, fun row => ?_⟩, ⟨fun fact => ?_, fun fact => ?_⟩⟩
  · rcases toward.rowsMade other val row with old | ⟨isKey, isWanted⟩
    · exact old
    · exact (same isKey).mp isWanted
  · exact toward.rowsKept other val row fun isKey => (same isKey).mpr row
  · rcases toward.factsMade other val fact with old | ⟨isKey, isWanted, unlisted⟩
    · exact old
    · exact absurd ((same isKey).mp isWanted) unlisted
  · exact toward.factsKept other val fact fun isKey => (same isKey).mpr

end Toward

end Ledger

end TangraAuth.Library
