import Mathlib.Order.Bounds.Basic
import Wiring.Proofs.FreeNames

/-!
# Names of methods

A class hands out names of methods while methods are added to it, in any order and for any bases.
A base may itself end in a number, so that different bases lead to the same candidates.  The search
looks at no more candidates than there are reserved names and one, it takes the first free one, and
no name is handed out twice.
-/

namespace Wiring
namespace BootstrapClass

/-! ### The search for a free name -/

/-- Free candidate that a search finds from a number on, within a number of tries. -/
def search? (reserved : SortedSet String) (base : String) : Nat → Nat → Option String
  | 0, _ => none
  | tries + 1, number =>
      if candidate base number ∈ reserved then search? reserved base tries (number + 1)
      else some (candidate base number)

variable {reserved : SortedSet String} {base : String} {start number : Nat}

/-- A search ends with the first free candidate as soon as it has the tries to get there. -/
theorem IsFirstFree.search?_eq (first : IsFirstFree reserved base start number) (tries : Nat) :
    search? reserved base tries start =
      if number < start + tries then some (candidate base number) else none := by
  have after := first.from_start
  induction tries generalizing start with
  | zero =>
      rw [search?, if_neg (by omega)]
  | succ tries ih =>
      rw [search?]
      split
      next taken =>
        have later : start ≠ number := by
          rintro rfl
          exact first.free taken
        have first_later : IsFirstFree reserved base (start + 1) number :=
          ⟨by omega, first.free, fun earlier after before =>
            first.taken earlier (by omega) before⟩
        rw [ih first_later (by omega), Nat.add_right_comm, Nat.add_assoc]
      next free =>
        have found : number = start := by
          by_contra later
          exact free (first.taken start (Nat.le_refl start) (by omega))
        rw [if_pos (by omega), found]

/-! ### One allocation -/

/-- What the allocation of a name for a base does to a class. -/
structure Allocates (cls : BootstrapClass) (base name : String) (after : BootstrapClass) :
    Prop where
  /-- The search ends after at most one more try than there are reserved names. -/
  tries : ∃ tries ≤ cls.reserved.size + 1, search? cls.reserved base tries 0 = some name ∧
    ∀ fewer < tries, search? cls.reserved base fewer 0 = none
  /-- A free base is taken as it is. -/
  base_free : base ∉ cls.reserved → name = base
  /-- A reserved base is followed by the least positive number that makes it free. -/
  base_reserved : base ∈ cls.reserved → ∃ number, name = base ++ toString number ∧
    IsLeast {number | 0 < number ∧ base ++ toString number ∉ cls.reserved} number
  /-- The name was free. -/
  fresh : name ∉ cls.reserved
  /-- The name and no other is reserved in addition. -/
  reserves : ∀ other, other ∈ after.reserved ↔ other = name ∨ other ∈ cls.reserved
  /-- Nothing else changes. -/
  unchanged : { after with reserved := cls.reserved } = cls

theorem candidate_of_pos (base : String) {number : Nat} (positive : 0 < number) :
    candidate base number = base ++ toString number := by
  cases number with
  | zero => omega
  | succ number => rfl

theorem IsFirstFree.isLeast (first : IsFirstFree reserved base 0 number)
    (taken : base ∈ reserved) :
    0 < number ∧ IsLeast {number | 0 < number ∧ base ++ toString number ∉ reserved} number := by
  have positive : 0 < number := by
    rcases Nat.eq_zero_or_pos number with rfl | positive
    · exact absurd taken first.free
    · exact positive
  refine ⟨positive, ⟨positive, candidate_of_pos base positive ▸ first.free⟩, ?_⟩
  rintro other ⟨other_positive, other_free⟩
  by_contra before
  refine other_free (candidate_of_pos base other_positive ▸ first.taken other ?_ ?_)
  · exact Nat.zero_le other
  · exact Nat.lt_of_not_le before

theorem allocates (cls : BootstrapClass) (base : String) :
    cls.Allocates base (cls.allocate base).1 (cls.allocate base).2 := by
  obtain ⟨number, first, bound, found⟩ := exists_isFirstFree cls.reserved base 0
  have named : (cls.allocate base).1 = candidate base number := found
  constructor
  · refine ⟨number + 1, by omega, ?_, fun fewer before => ?_⟩
    · rw [first.search?_eq, if_pos (by omega), named]
    · rw [first.search?_eq, if_neg (by omega)]
  · intro free
    rcases Nat.eq_zero_or_pos number with rfl | positive
    · exact named
    · exact absurd (first.taken 0 (Nat.le_refl 0) positive) free
  · intro taken
    obtain ⟨positive, least⟩ := first.isLeast taken
    exact ⟨number, named.trans (candidate_of_pos base positive), least⟩
  · exact cls.freeName_not_mem base
  · exact fun other => SortedSet.mem_insert
  · rfl

/-! ### Histories of a class -/

/-- Call that reserves the name of a method. -/
inductive Call where
  /-- Allocate a name for a base. -/
  | allocate (base : String)
  /-- Add a method. -/
  | add (method : Method)
  deriving DecidableEq

namespace Call

/-- Name of the method that a call adds. -/
def added? : Call → Option String
  | allocate _ => none
  | add method => some method.name

end Call

/-- Class after a call. -/
def perform (cls : BootstrapClass) : Call → BootstrapClass
  | .allocate base => (cls.allocate base).2
  | .add method => cls.addMethod method

/-- Class after calls in order. -/
def performAll (cls : BootstrapClass) (calls : List Call) : BootstrapClass :=
  calls.foldl perform cls

/-- Names that calls allocate, in order. -/
def allocated : BootstrapClass → List Call → List String
  | _, [] => []
  | cls, .allocate base :: later =>
      (cls.allocate base).1 :: (cls.perform (.allocate base)).allocated later
  | cls, .add method :: later => (cls.perform (.add method)).allocated later

theorem allocated_append (cls : BootstrapClass) (before later : List Call) :
    cls.allocated (before ++ later) =
      cls.allocated before ++ (cls.performAll before).allocated later := by
  induction before generalizing cls with
  | nil => rfl
  | cons call before ih =>
      cases call with
      | allocate base =>
          simp only [List.cons_append, allocated, ih]
          rfl
      | add method => exact ih (cls.perform (.add method))

/-- A call reserves the name that it allocates or adds. -/
theorem mem_reserved_perform {cls : BootstrapClass} {call : Call} {name : String} :
    name ∈ (cls.perform call).reserved ↔
      name ∈ cls.reserved ∨ name ∈ cls.allocated [call] ∨ name ∈ call.added? := by
  cases call with
  | allocate base => simpa [perform, allocated, Call.added?, or_comm] using
      (cls.allocates base).reserves name
  | add method => simp [perform, addMethod, allocated, Call.added?, or_comm, eq_comm]

/-- Calls reserve the names that they allocate or add. -/
theorem mem_reserved_performAll {cls : BootstrapClass} {calls : List Call} {name : String} :
    name ∈ (cls.performAll calls).reserved ↔
      name ∈ cls.reserved ∨ name ∈ cls.allocated calls ∨ name ∈ calls.filterMap Call.added? := by
  induction calls generalizing cls with
  | nil => simp [performAll, allocated]
  | cons call later ih =>
      have split : cls.allocated (call :: later) =
          cls.allocated [call] ++ (cls.perform call).allocated later :=
        cls.allocated_append [call] later
      have step : cls.performAll (call :: later) = (cls.perform call).performAll later := rfl
      rw [step, ih, mem_reserved_perform, split, List.mem_append, List.filterMap_cons]
      cases call.added? with
      | none => simp only [Option.mem_def, reduceCtorEq, or_false]; tauto
      | some added =>
          simp only [Option.mem_def, Option.some.injEq, List.mem_cons, eq_comm (a := added)]
          tauto

/-- Allocated names were not reserved before and differ from each other. -/
theorem nodup_allocated (cls : BootstrapClass) (calls : List Call) :
    (cls.allocated calls).Nodup ∧ ∀ name ∈ cls.allocated calls, name ∉ cls.reserved := by
  induction calls generalizing cls with
  | nil => exact ⟨List.nodup_nil, nofun⟩
  | cons call later ih =>
      obtain ⟨distinct, fresh⟩ := ih (cls.perform call)
      have kept : ∀ name ∈ (cls.perform call).allocated later, name ∉ cls.reserved :=
        fun name mem known => fresh name mem (mem_reserved_perform.mpr (.inl known))
      cases call with
      | allocate base =>
          have allocates := cls.allocates base
          refine ⟨List.nodup_cons.mpr ⟨fun again => ?_, distinct⟩, fun name mem => ?_⟩
          · exact fresh _ again ((allocates.reserves _).mpr (.inl rfl))
          · rcases List.mem_cons.mp mem with rfl | mem
            · exact allocates.fresh
            · exact kept name mem
      | add method => exact ⟨distinct, kept⟩

/-- In every history of a class, an allocation ends, returns the first free candidate for its base,
which was neither allocated nor added before, and reserves that name alone.  No name is allocated
twice. -/
theorem allocates_in_every_history (package className : String) (isMain : Bool) :
    (∀ calls, ((create package className isMain).allocated calls).Nodup) ∧
      ∀ before base later,
        let started := create package className isMain
        let cls := started.performAll before
        let name := (cls.allocate base).1
        let after := (cls.allocate base).2
        started.allocated (before ++ .allocate base :: later) =
            started.allocated before ++ name :: after.allocated later ∧
          name ∉ started.allocated before ∧ name ∉ before.filterMap Call.added? ∧
          (∀ other, other ∈ cls.reserved ↔
            other ∈ started.allocated before ∨ other ∈ before.filterMap Call.added?) ∧
          cls.Allocates base name after := by
  refine ⟨fun calls => (nodup_allocated _ calls).1, fun before base later => ?_⟩
  intro started cls name after
  have known : ∀ other, other ∈ cls.reserved ↔
      other ∈ started.allocated before ∨ other ∈ before.filterMap Call.added? := by
    intro other
    have none_reserved : other ∉ started.reserved := SortedSet.not_mem_empty other
    rw [mem_reserved_performAll, or_iff_right none_reserved]
  have allocates := cls.allocates base
  refine ⟨started.allocated_append before _, fun mem => ?_, fun mem => ?_, known, allocates⟩
  · exact allocates.fresh ((known name).mpr (.inl mem))
  · exact allocates.fresh ((known name).mpr (.inr mem))

example : (create "a" "Boot" false).allocated
    [.allocate "registerFoo1", .allocate "registerFoo", .allocate "registerFoo"] =
      ["registerFoo1", "registerFoo", "registerFoo2"] := by
  cbv

end BootstrapClass
end Wiring
