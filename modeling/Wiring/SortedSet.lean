import Wiring.KeyOrder

/-!
# Finite sets kept in order

A set is its list of members, strictly increasing, so listing a set lists its members in order and
two sets with the same members are equal (`ext`).  Sets are compared by their member lists, which
makes sets of sets possible.
-/

namespace Wiring

/-- Finite set whose members stand in strictly increasing order. -/
structure SortedSet (α : Type) [Ord α] where
  /-- Members in order. -/
  items : List α
  /-- Members increase, so none repeats. -/
  sorted : items.Pairwise fun first second => compare first second = .lt

namespace SortedSet

variable {α : Type} [Ord α]

theorem ext_items {left right : SortedSet α} (same : left.items = right.items) : left = right := by
  cases left
  cases right
  cases same
  rfl

instance [DecidableEq α] : DecidableEq (SortedSet α) := fun left right =>
  if same : left.items = right.items then isTrue (ext_items same)
  else isFalse (by rintro rfl; exact same rfl)

instance : Membership α (SortedSet α) := ⟨fun set item => item ∈ set.items⟩

instance [DecidableEq α] (item : α) (set : SortedSet α) : Decidable (item ∈ set) :=
  inferInstanceAs (Decidable (item ∈ set.items))

/-- The set without members. -/
def empty : SortedSet α := ⟨[], .nil⟩

instance : EmptyCollection (SortedSet α) := ⟨empty⟩
instance : Inhabited (SortedSet α) := ⟨empty⟩

/-- Number of members. -/
def size (set : SortedSet α) : Nat := set.items.length

/-- Whether the set has no member. -/
def isEmpty (set : SortedSet α) : Bool := set.items.isEmpty

/-- Insert into an ordered list, leaving it alone when the item is there. -/
def insertItem (item : α) : List α → List α
  | [] => [item]
  | other :: rest =>
      match compare item other with
      | .lt => item :: other :: rest
      | .eq => other :: rest
      | .gt => other :: insertItem item rest

theorem mem_of_mem_insertItem {item found : α} {items : List α}
    (mem : found ∈ insertItem item items) : found = item ∨ found ∈ items := by
  induction items with
  | nil => simpa [insertItem] using mem
  | cons other rest ih =>
      simp only [insertItem] at mem
      split at mem
      · simpa using mem
      · exact .inr mem
      · rcases List.mem_cons.mp mem with rfl | mem
        · simp
        · rcases ih mem with same | mem
          · exact .inl same
          · exact .inr (by simp [mem])

theorem insertItem_sorted [Std.TransOrd α] {item : α} {items : List α}
    (sorted : items.Pairwise fun first second => compare first second = .lt) :
    (insertItem item items).Pairwise fun first second => compare first second = .lt := by
  induction items with
  | nil => simp [insertItem]
  | cons other rest ih =>
      obtain ⟨above, sorted_rest⟩ := List.pairwise_cons.mp sorted
      simp only [insertItem]
      split
      next before =>
        refine List.pairwise_cons.mpr ⟨fun found mem => ?_, sorted⟩
        rcases List.mem_cons.mp mem with rfl | mem
        · exact before
        · exact Std.TransCmp.lt_trans before (above found mem)
      next => exact sorted
      next after =>
        refine List.pairwise_cons.mpr ⟨fun found mem => ?_, ih sorted_rest⟩
        rcases mem_of_mem_insertItem mem with rfl | mem
        · exact Std.OrientedCmp.gt_iff_lt.mp after
        · exact above found mem

section Operations

variable [Std.TransOrd α]

/-- Add a member. -/
def insert (set : SortedSet α) (item : α) : SortedSet α :=
  ⟨insertItem item set.items, insertItem_sorted set.sorted⟩

/-- Add every item of a list. -/
def insertAll (set : SortedSet α) (items : List α) : SortedSet α := items.foldl insert set

/-- Set of the items of a list. -/
def ofList (items : List α) : SortedSet α := empty.insertAll items

/-- Union of two sets. -/
def union (left right : SortedSet α) : SortedSet α := left.insertAll right.items

instance : Union (SortedSet α) := ⟨union⟩

end Operations

/-- Members that pass a test. -/
def filter (set : SortedSet α) (keep : α → Bool) : SortedSet α :=
  ⟨set.items.filter keep, set.sorted.filter _⟩

/-- Remove a member. -/
def erase [DecidableEq α] (set : SortedSet α) (item : α) : SortedSet α := set.filter (· != item)

instance : Ord (SortedSet α) := ⟨compareOn items⟩

instance [Std.TransOrd α] : Std.TransOrd (SortedSet α) :=
  inferInstanceAs (Std.TransCmp (compareOn items))

instance [Std.LawfulEqOrd α] : Std.LawfulEqOrd (SortedSet α) where
  compare_self := Std.compare_self (α := List α)
  eq_of_compare same := ext_items (Std.LawfulEqOrd.eq_of_compare same)

theorem mem_def {set : SortedSet α} {item : α} : item ∈ set ↔ item ∈ set.items := .rfl

@[simp]
theorem not_mem_empty (item : α) : item ∉ (empty : SortedSet α) := by simp [mem_def, empty]

theorem mem_insertItem [Std.LawfulEqOrd α] {item found : α} {items : List α} :
    found ∈ insertItem item items ↔ found = item ∨ found ∈ items := by
  refine ⟨mem_of_mem_insertItem, fun either => ?_⟩
  induction items with
  | nil => simpa [insertItem] using either
  | cons other rest ih =>
      simp only [insertItem]
      split
      next => simpa using either
      next same =>
        rcases either with rfl | mem
        · simp [Std.LawfulEqOrd.eq_of_compare same]
        · exact mem
      next =>
        rcases either with rfl | mem
        · simp [ih (.inl rfl)]
        · rcases List.mem_cons.mp mem with rfl | mem
          · simp
          · simp [ih (.inr mem)]

section Membership

variable [Std.TransOrd α] [Std.LawfulEqOrd α]

@[simp]
theorem mem_insert {set : SortedSet α} {item found : α} :
    found ∈ set.insert item ↔ found = item ∨ found ∈ set := mem_insertItem

@[simp]
theorem mem_insertAll {set : SortedSet α} {items : List α} {found : α} :
    found ∈ set.insertAll items ↔ found ∈ items ∨ found ∈ set := by
  induction items generalizing set with
  | nil => simp [insertAll]
  | cons item rest ih =>
      have step : set.insertAll (item :: rest) = (set.insert item).insertAll rest := rfl
      rw [step, ih, mem_insert, List.mem_cons]
      constructor
      · rintro (mem | rfl | mem) <;> simp [*]
      · rintro ((rfl | mem) | mem) <;> simp [*]

@[simp]
theorem mem_ofList {items : List α} {found : α} : found ∈ ofList items ↔ found ∈ items := by
  simp [ofList]

@[simp]
theorem mem_union {left right : SortedSet α} {found : α} :
    found ∈ left ∪ right ↔ found ∈ left ∨ found ∈ right := by
  show found ∈ left.insertAll right.items ↔ _
  rw [mem_insertAll]
  exact Or.comm

end Membership

@[simp]
theorem mem_filter {set : SortedSet α} {keep : α → Bool} {found : α} :
    found ∈ set.filter keep ↔ found ∈ set ∧ keep found := by
  simp [mem_def, filter]

@[simp]
theorem mem_erase [DecidableEq α] {set : SortedSet α} {item found : α} :
    found ∈ set.erase item ↔ found ∈ set ∧ found ≠ item := by
  simp [erase]

/-- Removing a member makes the set smaller. -/
theorem size_erase_lt [DecidableEq α] {set : SortedSet α} {item : α} (mem : item ∈ set) :
    (set.erase item).size < set.size :=
  List.length_filter_lt_length_iff_exists.mpr ⟨item, mem, by simp⟩

/-- A set is determined by its members. -/
theorem ext [Std.TransOrd α] {left right : SortedSet α}
    (same : ∀ item, item ∈ left ↔ item ∈ right) : left = right :=
  ext_items (KeyOrder.eq_of_mem_iff (fun item => item) left.sorted right.sorted same)

end SortedSet
end Wiring
