/-!
# Finite maps in arrival order

Keys are listed in the order of their first insertion; storing under a known key changes its value
and keeps its place.
-/

namespace Wiring

/-- Finite map whose entries stand in the order in which their keys arrived. -/
structure ArrivalMap (κ ν : Type) where
  /-- Entries in arrival order. -/
  entries : List (κ × ν)
  /-- No key repeats. -/
  distinct : (entries.map (·.1)).Nodup

namespace ArrivalMap

variable {κ ν : Type}

/-- The map without entries. -/
def empty : ArrivalMap κ ν := ⟨[], .nil⟩

instance : EmptyCollection (ArrivalMap κ ν) := ⟨empty⟩
instance : Inhabited (ArrivalMap κ ν) := ⟨empty⟩

/-- Keys in arrival order. -/
def keys (map : ArrivalMap κ ν) : List κ := map.entries.map (·.1)

/-- Number of entries. -/
def size (map : ArrivalMap κ ν) : Nat := map.entries.length

/-- Remove every entry that fails a test on its key. -/
def filterKeys (map : ArrivalMap κ ν) (keep : κ → Bool) : ArrivalMap κ ν where
  entries := map.entries.filter fun entry => keep entry.1
  distinct := (List.filter_sublist.map _).nodup map.distinct

variable [DecidableEq κ]

/-- Value of the first entry with the given key. -/
def lookup (key : κ) : List (κ × ν) → Option ν
  | [] => none
  | (other, value) :: rest => if other = key then some value else lookup key rest

/-- Value stored under a key. -/
def get? (map : ArrivalMap κ ν) (key : κ) : Option ν := lookup key map.entries

/-- Whether a key has a value. -/
def contains (map : ArrivalMap κ ν) (key : κ) : Bool := (map.get? key).isSome

/-- Replace the value under a known key, or append a new entry. -/
def putEntry (key : κ) (value : ν) : List (κ × ν) → List (κ × ν)
  | [] => [(key, value)]
  | (other, stored) :: rest =>
      if other = key then (other, value) :: rest else (other, stored) :: putEntry key value rest

theorem keys_putEntry (key : κ) (value : ν) (entries : List (κ × ν)) :
    (putEntry key value entries).map (·.1) =
      if key ∈ entries.map (·.1) then entries.map (·.1) else entries.map (·.1) ++ [key] := by
  induction entries with
  | nil => simp [putEntry]
  | cons head rest ih =>
      obtain ⟨other, stored⟩ := head
      by_cases same : other = key
      · simp [putEntry, same]
      · by_cases mem : key ∈ rest.map (·.1)
        · simp only [mem, if_true] at ih
          simp [putEntry, same, ih, mem]
        · simp only [mem, if_false] at ih
          simp [putEntry, same, ih, mem, Ne.symm same]

/-- Store a value under a key; a known key keeps its place. -/
def insert (map : ArrivalMap κ ν) (key : κ) (value : ν) : ArrivalMap κ ν where
  entries := putEntry key value map.entries
  distinct := by
    rw [keys_putEntry]
    split
    · exact map.distinct
    next absent =>
      refine List.nodup_append.mpr ⟨map.distinct, by simp, ?_⟩
      intro first first_mem second second_mem same
      rw [List.mem_singleton.mp second_mem] at same
      exact absent (same ▸ first_mem)

/-- Map of a list of pairs; of two pairs with one key the later wins. -/
def ofList (pairs : List (κ × ν)) : ArrivalMap κ ν :=
  pairs.foldl (fun map pair => map.insert pair.1 pair.2) empty

/-- Remove a key. -/
def erase (map : ArrivalMap κ ν) (key : κ) : ArrivalMap κ ν := map.filterKeys (· != key)

theorem lookup_putEntry (key other : κ) (value : ν) (entries : List (κ × ν)) :
    lookup other (putEntry key value entries) =
      if other = key then some value else lookup other entries := by
  induction entries with
  | nil => by_cases same : other = key <;> simp [putEntry, lookup, same, Ne.symm]
  | cons head rest ih =>
      obtain ⟨here, stored⟩ := head
      by_cases found : here = key
      · subst found
        by_cases same : here = other
        · simp [putEntry, lookup, same]
        · simp [putEntry, lookup, same, Ne.symm same]
      · by_cases same : here = other
        · subst same
          simp [putEntry, lookup, found]
        · simp [putEntry, lookup, found, same, ih]

theorem get?_insert (map : ArrivalMap κ ν) (key other : κ) (value : ν) :
    (map.insert key value).get? other = if other = key then some value else map.get? other :=
  lookup_putEntry key other value map.entries

theorem lookup_filter (key other : κ) (entries : List (κ × ν)) :
    lookup other (entries.filter fun entry => entry.1 != key) =
      if other = key then none else lookup other entries := by
  induction entries with
  | nil => simp [lookup]
  | cons head rest ih =>
      obtain ⟨here, stored⟩ := head
      by_cases removed : here = key
      · subst removed
        by_cases same : here = other
        · subst same
          simpa [lookup] using ih
        · simpa [lookup, same, Ne.symm same] using ih
      · by_cases same : here = other
        · subst same
          simp [lookup, removed]
        · simpa [lookup, removed, same] using ih

theorem get?_erase (map : ArrivalMap κ ν) (key other : κ) :
    (map.erase key).get? other = if other = key then none else map.get? other :=
  lookup_filter key other map.entries

theorem key_mem_of_lookup {key : κ} {value : ν} {entries : List (κ × ν)}
    (found : lookup key entries = some value) : (key, value) ∈ entries := by
  induction entries with
  | nil => cases found
  | cons head rest ih =>
      obtain ⟨other, stored⟩ := head
      by_cases same : other = key
      · simp only [lookup, same, if_true, Option.some.injEq] at found
        simp [same, found]
      · simp only [lookup, same, if_false] at found
        exact List.mem_cons_of_mem _ (ih found)

/-- Removing a present key makes the map smaller. -/
theorem size_erase_lt {map : ArrivalMap κ ν} {key : κ} {value : ν}
    (found : map.get? key = some value) : (map.erase key).size < map.size :=
  List.length_filter_lt_length_iff_exists.mpr ⟨_, key_mem_of_lookup found, by simp⟩

end ArrivalMap
end Wiring
