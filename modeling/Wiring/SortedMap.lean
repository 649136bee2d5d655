import Wiring.KeyOrder

/-!
# Finite maps kept in key order

A map is its list of entries, strictly increasing by key, so listing a map lists its keys in order
and two maps with equal look-ups are equal (`ext`).  `alter` is the one primitive; insertion,
removal, update and merging are read through `get?`.
-/

namespace Wiring

/-- Finite map whose entries stand in strictly increasing key order. -/
structure SortedMap (κ ν : Type) [Ord κ] where
  /-- Entries in key order. -/
  entries : List (κ × ν)
  /-- Keys increase, so none repeats. -/
  sorted : entries.Pairwise fun first second => compare first.1 second.1 = .lt

namespace SortedMap

variable {κ ν : Type} [Ord κ]

instance [DecidableEq κ] [DecidableEq ν] : DecidableEq (SortedMap κ ν) := fun left right =>
  if same : left.entries = right.entries then
    isTrue (by cases left; cases right; cases same; rfl)
  else
    isFalse (by rintro rfl; exact same rfl)

/-- The map without entries. -/
def empty : SortedMap κ ν := ⟨[], .nil⟩

instance : EmptyCollection (SortedMap κ ν) := ⟨empty⟩
instance : Inhabited (SortedMap κ ν) := ⟨empty⟩

/-- Keys in increasing order. -/
def keys (map : SortedMap κ ν) : List κ := map.entries.map (·.1)

/-- Values in the order of their keys. -/
def values (map : SortedMap κ ν) : List ν := map.entries.map (·.2)

/-- Number of entries. -/
def size (map : SortedMap κ ν) : Nat := map.entries.length

/-- Whether the map has no entry. -/
def isEmpty (map : SortedMap κ ν) : Bool := map.entries.isEmpty

/-- Value of the first entry with the given key. -/
def lookup (key : κ) : List (κ × ν) → Option ν
  | [] => none
  | (other, value) :: rest =>
      match compare key other with
      | .eq => some value
      | _ => lookup key rest

/-- Value stored under a key. -/
def get? (map : SortedMap κ ν) (key : κ) : Option ν := lookup key map.entries

/-- Whether a key has a value. -/
def contains (map : SortedMap κ ν) (key : κ) : Bool := (map.get? key).isSome

/-- Entries of a key whose value may be absent. -/
def pairs (key : κ) : Option ν → List (κ × ν)
  | none => []
  | some value => [(key, value)]

omit [Ord κ] in
theorem mem_pairs {key : κ} {value? : Option ν} {entry : κ × ν} :
    entry ∈ pairs key value? ↔ entry.1 = key ∧ value? = some entry.2 := by
  obtain ⟨other, value⟩ := entry
  cases value? <;> simp [pairs, eq_comm]

/-- Change the value under one key of an ordered entry list; `none` stands for absence. -/
def alterEntries (key : κ) (change : Option ν → Option ν) : List (κ × ν) → List (κ × ν)
  | [] => pairs key (change none)
  | (other, value) :: rest =>
      match compare key other with
      | .lt => pairs key (change none) ++ (other, value) :: rest
      | .eq => pairs other (change (some value)) ++ rest
      | .gt => (other, value) :: alterEntries key change rest

theorem key_of_mem_alterEntries {key : κ} {change : Option ν → Option ν} {entry : κ × ν}
    {entries : List (κ × ν)} (mem : entry ∈ alterEntries key change entries) :
    entry.1 = key ∨ ∃ other ∈ entries, entry.1 = other.1 := by
  induction entries with
  | nil => exact .inl (mem_pairs.mp mem).1
  | cons head rest ih =>
      obtain ⟨other, value⟩ := head
      simp only [alterEntries] at mem
      split at mem
      · rcases List.mem_append.mp mem with mem | mem
        · exact .inl (mem_pairs.mp mem).1
        · exact .inr ⟨entry, mem, rfl⟩
      · rcases List.mem_append.mp mem with mem | mem
        · exact .inr ⟨(other, value), by simp, (mem_pairs.mp mem).1⟩
        · exact .inr ⟨entry, by simp [mem], rfl⟩
      · rcases List.mem_cons.mp mem with rfl | mem
        · exact .inr ⟨(other, value), by simp, rfl⟩
        · rcases ih mem with same | ⟨found, mem_rest, same⟩
          · exact .inl same
          · exact .inr ⟨found, by simp [mem_rest], same⟩

theorem alterEntries_sorted [Std.TransOrd κ] {key : κ} {change : Option ν → Option ν}
    {entries : List (κ × ν)}
    (sorted : entries.Pairwise fun first second => compare first.1 second.1 = .lt) :
    (alterEntries key change entries).Pairwise
      fun first second => compare first.1 second.1 = .lt := by
  induction entries with
  | nil => cases h : change none <;> simp [alterEntries, pairs, h]
  | cons head rest ih =>
      obtain ⟨other, value⟩ := head
      obtain ⟨above, sorted_rest⟩ := List.pairwise_cons.mp sorted
      simp only [alterEntries]
      split
      next before =>
        refine List.pairwise_append.mpr ⟨?_, sorted, ?_⟩
        · cases change none <;> simp [pairs]
        · intro first first_mem second second_mem
          rw [(mem_pairs.mp first_mem).1]
          rcases List.mem_cons.mp second_mem with rfl | second_mem
          · exact before
          · exact Std.TransCmp.lt_trans before (above second second_mem)
      next same =>
        refine List.pairwise_append.mpr ⟨?_, sorted_rest, ?_⟩
        · cases change (some value) <;> simp [pairs]
        · intro first first_mem second second_mem
          rw [(mem_pairs.mp first_mem).1]
          exact above second second_mem
      next after =>
        refine List.pairwise_cons.mpr ⟨fun entry mem => ?_, ih sorted_rest⟩
        rcases key_of_mem_alterEntries mem with same | ⟨found, found_mem, same⟩
        · rw [same]
          exact Std.OrientedCmp.gt_iff_lt.mp after
        · rw [same]
          exact above found found_mem

section Operations

variable [Std.TransOrd κ]

/-- Change the value under one key; `none` stands for absence. -/
def alter (map : SortedMap κ ν) (key : κ) (change : Option ν → Option ν) : SortedMap κ ν :=
  ⟨alterEntries key change map.entries, alterEntries_sorted map.sorted⟩

/-- Store a value under a key, replacing any earlier one. -/
def insert (map : SortedMap κ ν) (key : κ) (value : ν) : SortedMap κ ν :=
  map.alter key fun _ => some value

/-- Remove a key. -/
def erase (map : SortedMap κ ν) (key : κ) : SortedMap κ ν :=
  map.alter key fun _ => none

/-- Apply a function to the value under a key, starting from a default when the key is new. -/
def update (map : SortedMap κ ν) (key : κ) (start : ν) (change : ν → ν) : SortedMap κ ν :=
  map.alter key fun value? => some (change (value?.getD start))

/-- Union of two maps; a key of both keeps the combination of its left and right values. -/
def mergeWith (combine : ν → ν → ν) (left right : SortedMap κ ν) : SortedMap κ ν :=
  right.entries.foldl
    (fun map entry => map.alter entry.1 fun value? => Option.merge combine value? (some entry.2))
    left

/-- Union of two maps in which the right value wins. -/
def overrideWith (left right : SortedMap κ ν) : SortedMap κ ν :=
  mergeWith (fun _ value => value) left right

/-- Map of a list of pairs; of two pairs with one key the later wins. -/
def ofList (pairs : List (κ × ν)) : SortedMap κ ν :=
  pairs.foldl (fun map pair => map.insert pair.1 pair.2) empty

end Operations

theorem lookup_eq_none_of_lt {key : κ} {entries : List (κ × ν)}
    (below : ∀ entry ∈ entries, compare key entry.1 = .lt) : lookup key entries = none := by
  induction entries with
  | nil => rfl
  | cons head rest ih =>
      have head_below := below head (by simp)
      simp only [lookup, head_below]
      exact ih fun entry mem => below entry (by simp [mem])

theorem lookup_cons_eq_none_of_lt [Std.TransOrd κ] {key : κ} {head : κ × ν}
    {rest : List (κ × ν)} (before : compare key head.1 = .lt)
    (above : ∀ entry ∈ rest, compare head.1 entry.1 = .lt) : lookup key (head :: rest) = none := by
  refine lookup_eq_none_of_lt fun entry mem => ?_
  rcases List.mem_cons.mp mem with rfl | mem
  · exact before
  · exact Std.TransCmp.lt_trans before (above entry mem)

@[simp]
theorem lookup_cons_self [Std.ReflOrd κ] {key : κ} {value : ν} {rest : List (κ × ν)} :
    lookup key ((key, value) :: rest) = some value := by
  simp [lookup]

theorem lookup_cons_ne [Std.LawfulEqOrd κ] {key other : κ} {value : ν} {rest : List (κ × ν)}
    (differs : key ≠ other) : lookup key ((other, value) :: rest) = lookup key rest := by
  simp only [lookup]
  split
  next same => exact absurd (Std.LawfulEqOrd.eq_of_compare same) differs
  next => rfl

theorem ne_of_compare_gt [Std.ReflOrd κ] {key other : κ} (after : compare key other = .gt) :
    key ≠ other := by
  rintro rfl
  rw [Std.compare_self] at after
  cases after

theorem lookup_pairs_append [Std.LawfulEqOrd κ] [DecidableEq κ] {key other : κ}
    {value? : Option ν} {rest : List (κ × ν)} (absent : lookup key rest = none) :
    lookup other (pairs key value? ++ rest) =
      if other = key then value? else lookup other rest := by
  by_cases same : other = key
  · subst same
    cases value? <;> simp [pairs, absent]
  · cases value? <;> simp [pairs, same, lookup_cons_ne same]

theorem lookup_alterEntries [Std.TransOrd κ] [Std.LawfulEqOrd κ] [DecidableEq κ] {key other : κ}
    {change : Option ν → Option ν} {entries : List (κ × ν)}
    (sorted : entries.Pairwise fun first second => compare first.1 second.1 = .lt) :
    lookup other (alterEntries key change entries) =
      if other = key then change (lookup key entries) else lookup other entries := by
  induction entries with
  | nil =>
      have single : lookup other (pairs key (change none) ++ []) =
          if other = key then change none else lookup other [] := lookup_pairs_append rfl
      simpa [alterEntries, lookup] using single
  | cons head rest ih =>
      obtain ⟨here, value⟩ := head
      obtain ⟨above, sorted_rest⟩ := List.pairwise_cons.mp sorted
      simp only [alterEntries]
      split
      next before =>
        have absent : lookup key ((here, value) :: rest) = none :=
          lookup_cons_eq_none_of_lt before above
        rw [lookup_pairs_append absent, absent]
      next same =>
        cases Std.LawfulEqOrd.eq_of_compare same
        rw [lookup_pairs_append (lookup_eq_none_of_lt above), lookup_cons_self]
        by_cases eq : other = key
        · simp [eq]
        · simp [eq, lookup_cons_ne eq]
      next after =>
        have differs : key ≠ here := ne_of_compare_gt after
        rw [lookup_cons_ne differs]
        by_cases eq : other = here
        · subst eq
          simp [Ne.symm differs]
        · rw [lookup_cons_ne eq, lookup_cons_ne eq, ih sorted_rest]

@[simp]
theorem get?_empty (key : κ) : (empty : SortedMap κ ν).get? key = none := rfl

section Lookup

variable [Std.TransOrd κ] [Std.LawfulEqOrd κ] [DecidableEq κ]

theorem get?_alter (map : SortedMap κ ν) (key other : κ) (change : Option ν → Option ν) :
    (map.alter key change).get? other =
      if other = key then change (map.get? key) else map.get? other :=
  lookup_alterEntries map.sorted

theorem get?_insert (map : SortedMap κ ν) (key other : κ) (value : ν) :
    (map.insert key value).get? other = if other = key then some value else map.get? other :=
  map.get?_alter key other _

theorem get?_erase (map : SortedMap κ ν) (key other : κ) :
    (map.erase key).get? other = if other = key then none else map.get? other :=
  map.get?_alter key other _

theorem get?_update (map : SortedMap κ ν) (key other : κ) (start : ν) (change : ν → ν) :
    (map.update key start change).get? other =
      if other = key then some (change ((map.get? key).getD start)) else map.get? other :=
  map.get?_alter key other _

theorem get?_foldl_merge (combine : ν → ν → ν) (map : SortedMap κ ν) (key : κ)
    {entries : List (κ × ν)}
    (sorted : entries.Pairwise fun first second => compare first.1 second.1 = .lt) :
    (entries.foldl (fun map entry =>
        map.alter entry.1 fun value? => Option.merge combine value? (some entry.2)) map).get? key =
      Option.merge combine (map.get? key) (lookup key entries) := by
  induction entries generalizing map with
  | nil => simp [lookup]
  | cons head rest ih =>
      obtain ⟨other, value⟩ := head
      obtain ⟨above, sorted_rest⟩ := List.pairwise_cons.mp sorted
      rw [List.foldl_cons, ih _ sorted_rest, get?_alter]
      by_cases same : key = other
      · subst same
        simp [lookup_eq_none_of_lt above]
      · simp [same, lookup_cons_ne same]

/-- A merged map combines what the two maps hold under a key. -/
theorem get?_mergeWith (combine : ν → ν → ν) (left right : SortedMap κ ν) (key : κ) :
    (mergeWith combine left right).get? key =
      Option.merge combine (left.get? key) (right.get? key) :=
  get?_foldl_merge combine left key right.sorted

end Lookup

theorem mem_of_lookup [Std.LawfulEqOrd κ] {key : κ} {value : ν} {entries : List (κ × ν)}
    (found : lookup key entries = some value) : (key, value) ∈ entries := by
  induction entries with
  | nil => cases found
  | cons head rest ih =>
      obtain ⟨other, stored⟩ := head
      simp only [lookup] at found
      split at found
      next same =>
        cases found
        rw [Std.LawfulEqOrd.eq_of_compare same]
        exact List.mem_cons_self
      next => exact List.mem_cons_of_mem _ (ih found)

theorem lookup_of_mem [Std.TransOrd κ] {key : κ} {value : ν} {entries : List (κ × ν)}
    (sorted : entries.Pairwise fun first second => compare first.1 second.1 = .lt)
    (mem : (key, value) ∈ entries) : lookup key entries = some value := by
  induction entries with
  | nil => cases mem
  | cons head rest ih =>
      obtain ⟨above, sorted_rest⟩ := List.pairwise_cons.mp sorted
      rcases List.mem_cons.mp mem with rfl | mem
      · exact lookup_cons_self
      · have after : compare key head.1 = .gt :=
          Std.OrientedCmp.gt_iff_lt.mpr (above (key, value) mem)
        simp only [lookup, after]
        exact ih sorted_rest mem

/-- Entries are exactly the pairs that look-up finds. -/
theorem mem_entries_iff [Std.TransOrd κ] [Std.LawfulEqOrd κ] {map : SortedMap κ ν} {key : κ}
    {value : ν} : (key, value) ∈ map.entries ↔ map.get? key = some value :=
  ⟨lookup_of_mem map.sorted, mem_of_lookup⟩

/-- A map is determined by its look-ups. -/
theorem ext [Std.TransOrd κ] [Std.LawfulEqOrd κ] {left right : SortedMap κ ν}
    (same : ∀ key, left.get? key = right.get? key) : left = right := by
  have entries_eq : left.entries = right.entries :=
    KeyOrder.eq_of_mem_iff (·.1) left.sorted right.sorted fun ⟨key, value⟩ => by
      rw [mem_entries_iff, mem_entries_iff, same]
  cases left
  cases right
  cases entries_eq
  rfl

theorem length_alterEntries_none [Std.TransOrd κ] [Std.LawfulEqOrd κ] {key : κ} {value : ν}
    {entries : List (κ × ν)}
    (sorted : entries.Pairwise fun first second => compare first.1 second.1 = .lt)
    (found : lookup key entries = some value) :
    (alterEntries key (fun _ => none) entries).length < entries.length := by
  induction entries with
  | nil => cases found
  | cons head rest ih =>
      obtain ⟨other, stored⟩ := head
      obtain ⟨above, sorted_rest⟩ := List.pairwise_cons.mp sorted
      simp only [alterEntries]
      split
      next before =>
        rw [lookup_cons_eq_none_of_lt before above] at found
        cases found
      next => simp [pairs]
      next after =>
        rw [lookup_cons_ne (ne_of_compare_gt after)] at found
        have shorter := ih sorted_rest found
        simp only [List.length_cons]
        omega

/-- Removing a present key makes the map smaller. -/
theorem size_erase_lt [Std.TransOrd κ] [Std.LawfulEqOrd κ] {map : SortedMap κ ν} {key : κ}
    {value : ν} (found : map.get? key = some value) : (map.erase key).size < map.size :=
  length_alterEntries_none map.sorted found

end SortedMap
end Wiring
