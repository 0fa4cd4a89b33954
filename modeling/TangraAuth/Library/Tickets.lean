import TangraAuth.Library.Threads

/-!
Contract: tickets that calls take from a store and use later.

Owns: the single use of a ticket as an invariant of a pool: it is in the store, in the
hand of one flow, or used, and in one of these places only; and a rule for each way in
which it moves.

Does not own: where tickets come from, and that a flow takes one that is still there.
-/

namespace TangraAuth.Library

variable {σ φ κ : Type}

/-- Which tickets are stored, which a flow has taken and not used yet, and how often each was
used. -/
structure Tickets (σ φ κ : Type) where
  stored : σ → κ → Prop
  spends : φ → κ → Prop
  used : σ → κ → Nat

namespace Tickets

variable (tickets : Tickets σ φ κ)

/-- Some flow in the slot has taken the ticket. -/
def SpentBy (pl : Pool σ φ) (slot : Nat) (key : κ) : Prop :=
  ∃ f, pl.flows slot = some f ∧ tickets.spends f key

/-- The ticket is in one place. -/
structure Single (pl : Pool σ φ) (key : κ) : Prop where
  stored : tickets.stored pl.shared key →
    tickets.used pl.shared key = 0 ∧ ∀ slot, ¬ tickets.SpentBy pl slot key
  spent : ∀ slot, tickets.SpentBy pl slot key → tickets.used pl.shared key = 0
  alone : ∀ slot other, tickets.SpentBy pl slot key → tickets.SpentBy pl other key → slot = other
  once : tickets.used pl.shared key ≤ 1

variable {tickets} {pl next : Pool σ φ} {key : κ}

variable {sh : σ} {slot : Nat} {rest : Option φ}

theorem spentBy_put {other : Nat}
    (held : tickets.SpentBy ⟨sh, Pool.put pl.flows slot rest⟩ other key) :
    (other = slot ∧ ∃ f, rest = some f ∧ tickets.spends f key)
      ∨ (other ≠ slot ∧ tickets.SpentBy pl other key) := by
  grind [SpentBy, Pool.put]

theorem Single.quiet (single : tickets.Single pl key)
    (kept : tickets.stored next.shared key → tickets.stored pl.shared key)
    (used : tickets.used next.shared key = tickets.used pl.shared key)
    (spends : ∀ slot, tickets.SpentBy next slot key → tickets.SpentBy pl slot key) :
    tickets.Single next key where
  stored inStore := by
    obtain ⟨unused, free⟩ := single.stored (kept inStore)
    grind
  spent slot held := used.trans (single.spent slot (spends slot held))
  alone slot other held otherHeld :=
    single.alone slot other (spends slot held) (spends other otherHeld)
  once := by
    rw [used]
    exact single.once

theorem Single.put {sh : σ} {slot : Nat} {rest : Option φ} (single : tickets.Single pl key)
    (kept : tickets.stored sh key → tickets.stored pl.shared key)
    (used : tickets.used sh key = tickets.used pl.shared key)
    (spends : ∀ f, rest = some f → tickets.spends f key → tickets.SpentBy pl slot key) :
    tickets.Single ⟨sh, Pool.put pl.flows slot rest⟩ key := by
  grind [quiet, Pool.put, SpentBy]

/-- A stored ticket leaves the store for the hand of one flow. -/
theorem Single.take (single : tickets.Single pl key) (inStore : tickets.stored pl.shared key)
    (gone : ¬ tickets.stored sh key)
    (used : tickets.used sh key = tickets.used pl.shared key) :
    tickets.Single ⟨sh, Pool.put pl.flows slot rest⟩ key := by
  obtain ⟨unused, free⟩ := single.stored inStore
  have only : ∀ other, tickets.SpentBy ⟨sh, Pool.put pl.flows slot rest⟩ other key →
      other = slot := by
    intro other held
    rcases spentBy_put held with ⟨same, -⟩ | ⟨-, pre⟩
    · exact same
    · exact absurd pre (free other)
  refine ⟨fun still => absurd still gone, fun _ _ => used.trans unused, ?_, ?_⟩
  · grind
  · show tickets.used sh key ≤ 1
    omega

theorem Single.use (single : tickets.Single pl key) (held : tickets.SpentBy pl slot key)
    (kept : tickets.stored sh key → tickets.stored pl.shared key)
    (used : tickets.used sh key = tickets.used pl.shared key + 1)
    (done : ∀ f, rest = some f → ¬ tickets.spends f key) :
    tickets.Single ⟨sh, Pool.put pl.flows slot rest⟩ key := by
  have free : ∀ other, ¬ tickets.SpentBy ⟨sh, Pool.put pl.flows slot rest⟩ other key := by
    intro other otherHeld
    rcases spentBy_put otherHeld with ⟨-, f, isRest, isSpent⟩ | ⟨elsewhere, pre⟩
    · exact done f isRest isSpent
    · exact elsewhere (single.alone other slot pre held)
  refine ⟨?_, ?_, ?_, ?_⟩
  · intro inStore
    exact absurd held ((single.stored (kept inStore)).2 slot)
  · intro other otherHeld
    exact absurd otherHeld (free other)
  · intro other _ otherHeld
    exact absurd otherHeld (free other)
  grind [spent]

/-- A ticket that was never used and that no flow holds may be stored. -/
theorem single_of_unused (unused : tickets.used next.shared key = 0)
    (free : ∀ slot, ¬ tickets.SpentBy next slot key) : tickets.Single next key where
  stored _ := ⟨unused, free⟩
  spent _ _ := unused
  alone slot _ held := absurd held (free slot)
  once := by
    rw [unused]
    exact Nat.zero_le 1

end Tickets

end TangraAuth.Library
