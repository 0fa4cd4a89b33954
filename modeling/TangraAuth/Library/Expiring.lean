import Mathlib.Data.Option.Basic

/-!
Contract: a key-value map whose entries may carry an expiry instant.

Owns: reading, writing and deleting entries against a clock, and the lemmas
that say which reads a write, a deletion or the passage of time can change.

Does not own: who reads the clock, or what the values mean. An instant is an
integer, so a time to live may be negative as in the callers' arithmetic.
-/

namespace TangraAuth.Library

/-- A stored value with the instant from which it is gone, if there is one. -/
structure Entry (ν : Type) where
  value : ν
  expires : Option Int
deriving DecidableEq, Repr

/-- An entry is readable strictly before its expiry instant. -/
def Entry.live {ν : Type} (e : Entry ν) (now : Int) : Bool :=
  match e.expires with
  | none => true
  | some ins => decide (now < ins)

theorem Entry.live_of_live_later {ν : Type} {e : Entry ν} {now later : Int} (order : now ≤ later)
    (alive : e.live later = true) : e.live now = true := by
  unfold Entry.live at alive ⊢
  grind

/-- A map from keys to entries, dead ones included. -/
abbrev ExpiringMap (κ ν : Type) : Type := κ → Option (Entry ν)

namespace ExpiringMap

variable {κ ν : Type}

/-- The map without entries. -/
def empty : ExpiringMap κ ν := fun _ => none

/-- The value a read at `now` sees. -/
def get (map : ExpiringMap κ ν) (now : Int) (key : κ) : Option ν :=
  match map key with
  | none => none
  | some e => if e.live now then some e.value else none

/-- A write with a time to live; without a positive one the entry never expires. -/
def set [DecidableEq κ] (map : ExpiringMap κ ν) (now : Int) (key : κ) (val : ν)
    (ttl : Int) : ExpiringMap κ ν :=
  fun other =>
    if other = key then some ⟨val, if 0 < ttl then some (now + ttl) else none⟩
    else map other

/-- Removal of one key. -/
def del [DecidableEq κ] (map : ExpiringMap κ ν) (key : κ) : ExpiringMap κ ν :=
  fun other => if other = key then none else map other

/-- Counts one more under the key: a live count keeps its expiry, a new one starts at one. -/
def incr [DecidableEq κ] (map : ExpiringMap κ Nat) (now : Int) (key : κ) (ttl : Int) :
    ExpiringMap κ Nat × Nat :=
  match map key with
  | none => (map.set now key 1 ttl, 1)
  | some e =>
    if e.live now then
      (fun other =>
        if other = key then some ⟨e.value + 1, e.expires⟩ else map other,
        e.value + 1)
    else (map.set now key 1 ttl, 1)

@[simp] theorem empty_apply (key : κ) : (empty : ExpiringMap κ ν) key = none := rfl

@[simp] theorem get_empty (now : Int) (key : κ) :
    (empty : ExpiringMap κ ν).get now key = none := rfl

@[grind =]
theorem get_eq_some_iff (map : ExpiringMap κ ν) (now : Int) (key : κ) (val : ν) :
    map.get now key = some val ↔ ∃ e, map key = some e ∧ e.live now = true ∧ e.value = val := by
  grind [get]

theorem get_of_get_later (map : ExpiringMap κ ν) {now later : Int} (order : now ≤ later)
    {key : κ} {val : ν} (read : map.get later key = some val) :
    map.get now key = some val := by
  grind [Entry.live_of_live_later]

section Updates

variable [DecidableEq κ]

@[simp, grind =] theorem set_apply_self (map : ExpiringMap κ ν) (now : Int) (key : κ) (val : ν)
    (ttl : Int) :
    map.set now key val ttl key = some ⟨val, if 0 < ttl then some (now + ttl) else none⟩ := by
  simp [set]

@[simp, grind =] theorem set_apply_of_ne (map : ExpiringMap κ ν) (now : Int) {key other : κ}
    (ne : other ≠ key) (val : ν) (ttl : Int) :
    map.set now key val ttl other = map other := by
  simp [set, ne]

@[simp, grind =] theorem del_apply_self (map : ExpiringMap κ ν) (key : κ) :
    map.del key key = none := by
  simp [del]

@[simp, grind =] theorem del_apply_of_ne (map : ExpiringMap κ ν) {key other : κ}
    (ne : other ≠ key) : map.del key other = map other := by
  simp [del, ne]

/-- What an entry of a written map can be: the new one, or an old one elsewhere. -/
theorem set_apply_eq_some {map : ExpiringMap κ ν} {now : Int} {key other : κ} {val : ν}
    {ttl : Int} {e : Entry ν} (stored : map.set now key val ttl other = some e) :
    (other = key ∧ e = ⟨val, if 0 < ttl then some (now + ttl) else none⟩)
      ∨ (other ≠ key ∧ map other = some e) := by
  by_cases same : other = key
  · simp_all
  grind

theorem del_apply_eq_some {map : ExpiringMap κ ν} {key other : κ} {e : Entry ν}
    (stored : map.del key other = some e) : other ≠ key ∧ map other = some e := by
  grind [del]

theorem get_set_self (map : ExpiringMap κ ν) (now : Int) (key : κ) (val : ν) {ttl : Int}
    (positive : 0 < ttl) : (map.set now key val ttl).get now key = some val := by
  rw [get_eq_some_iff]
  refine ⟨_, set_apply_self map now key val ttl, ?_, rfl⟩
  simp only [Entry.live, if_pos positive, decide_eq_true_eq]
  omega

theorem get_set_of_ne (map : ExpiringMap κ ν) (now ins : Int) {key other : κ}
    (ne : other ≠ key) (val : ν) (ttl : Int) :
    (map.set now key val ttl).get ins other = map.get ins other := by
  simp [get, ne]

theorem get_del_of_ne (map : ExpiringMap κ ν) (now : Int) {key other : κ}
    (ne : other ≠ key) : (map.del key).get now other = map.get now other := by
  simp [get, ne]

end Updates

end ExpiringMap

end TangraAuth.Library
