import Mathlib.Data.List.Perm.Basic

/-!
Contract: reading a table page by page, with the last key read as the cursor.

Owns: the orders a sorted query may return, the cursor after a page, and when a
page leaves nothing behind its cursor.

Does not own: how the table changes between two pages.
-/

namespace TangraAuth.Library

variable {α : Type} (key : α → Int)

/-- `order` lists the rows by key; rows of equal key come in any order. -/
def Ordered (rs order : List α) : Prop :=
  order.Perm rs ∧ order.Pairwise fun first second => key first ≤ key second

instance [DecidableEq α] (rs order : List α) : Decidable (Ordered key rs order) :=
  inferInstanceAs (Decidable (_ ∧ _))

/-- The cursor after a page: the last key on it, or where the query began. -/
def nextKey (since : Int) (page : List α) : Int :=
  (page.getLast?.map key).getD since

/-- The page does not end between two rows of equal key. -/
def WholeKeys (limit : Nat) (order : List α) : Prop :=
  ∀ first ∈ order.take limit, ∀ second ∈ order.drop limit, key first ≠ key second

theorem exists_mem_nextKey {page : List α} (filled : page ≠ []) (since : Int) :
    ∃ last ∈ page, nextKey key since page = key last := by
  refine ⟨page.getLast filled, List.getLast_mem filled, ?_⟩
  simp [nextKey, List.getLast?_eq_getLast_of_ne_nil filled]

variable {key}

@[simp] theorem nextKey_nil (since : Int) : nextKey key since ([] : List α) = since := rfl

theorem since_lt_nextKey {since : Int} {page : List α} (above : ∀ row ∈ page, since < key row)
    (filled : page ≠ []) : since < nextKey key since page := by
  obtain ⟨last, mem, isKey⟩ := exists_mem_nextKey key filled since
  rw [isKey]
  exact above last mem

/-- Nothing a whole page's cursor has passed was left off the page. -/
theorem mem_page_of_le_nextKey {since : Int} {rs order : List α} {limit : Nat}
    (ordered : Ordered key rs order) (whole : WholeKeys key limit order)
    {row : α} (mem : row ∈ rs) (above : since < key row)
    (passed : key row ≤ nextKey key since (order.take limit)) : row ∈ order.take limit := by
  have listed : row ∈ order.take limit ++ order.drop limit := by
    rw [List.take_append_drop]
    exact ordered.1.mem_iff.mpr mem
  rcases List.mem_append.mp listed with onPage | later
  · exact onPage
  · by_cases filled : order.take limit = []
    · rw [filled, nextKey_nil] at passed
      omega
    · obtain ⟨last, lastMem, isKey⟩ := exists_mem_nextKey key filled since
      have sorted := ordered.2
      rw [← List.take_append_drop limit order, List.pairwise_append] at sorted
      have pre := sorted.2.2 last lastMem row later
      have same : key last = key row := by omega
      exact absurd same (whole last lastMem row later)

/-- Behind a whole page, pages are whole in the rest when they are whole in the list. -/
theorem wholeKeys_drop {order : List α} {limit : Nat} (whole : WholeKeys key limit order)
    (more : Nat) : WholeKeys key (limit + more) order ↔ WholeKeys key more (order.drop limit) := by
  unfold WholeKeys
  rw [List.take_add, ← List.drop_drop]
  constructor
  · intro both first mem
    exact both first (List.mem_append_right _ mem)
  · intro rest first mem second later
    rcases List.mem_append.mp mem with onPage | onRest
    · exact whole first onPage second (List.mem_of_mem_drop later)
    · exact rest first onRest second later

/-- The rows past the last key of a whole page are those behind the page. -/
theorem filter_lt_eq_drop {order : List α} {limit : Nat} {last : α}
    (sorted : order.Pairwise fun first second => key first ≤ key second)
    (isLast : (order.take limit).getLast? = some last) (whole : WholeKeys key limit order) :
    order.filter (fun row => key last < key row) = order.drop limit := by
  have lastMem := List.mem_of_getLast? isLast
  obtain ⟨earlier, isPage⟩ := List.getLast?_eq_some_iff.mp isLast
  have split := sorted
  rw [← List.take_append_drop limit order, List.pairwise_append] at split
  obtain ⟨onPage, -, across⟩ := split
  rw [isPage, List.pairwise_append] at onPage
  have upTo : ∀ row ∈ order.take limit, ¬key last < key row := by
    intro row mem
    rw [isPage] at mem
    rcases List.mem_append.mp mem with pre | isRow
    · have := onPage.2.2 row pre last List.mem_cons_self
      omega
    · rw [List.mem_singleton.mp isRow]
      omega
  have past : ∀ row ∈ order.drop limit, key last < key row := by
    intro row later
    have := across last lastMem row later
    have := whole last lastMem row later
    omega
  conv_lhs => rw [← List.take_append_drop limit order]
  rw [List.filter_append, List.filter_eq_nil_iff.mpr (by simpa using upTo),
    List.filter_eq_self.mpr (by simpa using past), List.nil_append]

end TangraAuth.Library
