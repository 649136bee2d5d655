import Wiring.Bootstrap.Class

/-!
# Free method names

Candidates with different numbers differ, so a candidate that was rejected never comes back, and the
search ends at the first candidate that is not reserved.
-/

namespace Wiring
namespace BootstrapClass

theorem toList_candidate_succ (base : String) (number : Nat) :
    (candidate base (number + 1)).toList = base.toList ++ Nat.toDigits 10 (number + 1) := by
  simp [candidate, toString, Nat.repr, String.toList_append]

theorem candidate_zero_ne_succ (base : String) (number : Nat) :
    candidate base 0 ≠ candidate base (number + 1) := by
  intro same
  have lists := congrArg String.toList same
  rw [toList_candidate_succ] at lists
  simp only [candidate, List.self_eq_append_right] at lists
  exact Nat.toDigits_ne_nil lists

/-- Candidates are numbered without repetition. -/
theorem candidate_injective (base : String) : Function.Injective (candidate base) := by
  intro first second same
  cases first with
  | zero =>
      cases second with
      | zero => rfl
      | succ second => exact absurd same (candidate_zero_ne_succ base second)
  | succ first =>
      cases second with
      | zero => exact absurd same.symm (candidate_zero_ne_succ base first)
      | succ second =>
          have lists := congrArg String.toList same
          rw [toList_candidate_succ, toList_candidate_succ] at lists
          have digits := List.append_cancel_left lists
          have values := congrArg (Nat.ofDigitChars 10 · 0) digits
          simpa [Nat.ofDigitChars_ten_toDigits] using values

/-- Whether a number belongs to the first free candidate from another number on. -/
structure IsFirstFree (reserved : SortedSet String) (base : String) (start number : Nat) :
    Prop where
  /-- The candidate does not come before the start. -/
  from_start : start ≤ number
  /-- The candidate is free. -/
  free : candidate base number ∉ reserved
  /-- The candidates between are reserved. -/
  taken : ∀ earlier, start ≤ earlier → earlier < number → candidate base earlier ∈ reserved

variable {reserved : SortedSet String} {base : String} {start number : Nat}

/-- Forgetting the reserved candidate that the search starts from does not change where it ends. -/
theorem IsFirstFree.of_erase (reserved_start : candidate base start ∈ reserved)
    (first : IsFirstFree (reserved.erase (candidate base start)) base (start + 1) number) :
    IsFirstFree reserved base start number where
  from_start := Nat.le_of_succ_le first.from_start
  free mem := by
    refine first.free (SortedSet.mem_erase.mpr ⟨mem, fun same => ?_⟩)
    have numbers := candidate_injective base same
    have after := first.from_start
    omega
  taken earlier after before := by
    rcases Nat.eq_or_lt_of_le after with rfl | later
    · exact reserved_start
    · exact (SortedSet.mem_erase.mp (first.taken earlier later before)).1

/-- The name that is found is the first free candidate, and every reserved name rejects at most one
candidate before it. -/
theorem exists_isFirstFree (reserved : SortedSet String) (base : String) (start : Nat) :
    ∃ number, IsFirstFree reserved base start number ∧ number ≤ start + reserved.size ∧
      freeCandidate reserved base start = candidate base number := by
  fun_induction freeCandidate reserved base start with
  | case1 reserved start taken ih =>
      obtain ⟨number, first, bound, found⟩ := ih
      have smaller := SortedSet.size_erase_lt taken
      exact ⟨number, first.of_erase taken, by omega, found⟩
  | case2 reserved start free =>
      exact ⟨start, ⟨Nat.le_refl start, free, fun _ after before => by omega⟩, by omega, rfl⟩

/-- An allocated name was not reserved before. -/
theorem freeName_not_mem (cls : BootstrapClass) (base : String) :
    cls.freeName base ∉ cls.reserved := by
  obtain ⟨number, first, -, found⟩ := exists_isFirstFree cls.reserved base 0
  rw [freeName, found]
  exact first.free

end BootstrapClass
end Wiring
