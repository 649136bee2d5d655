/-!
# Lists in increasing key order

A list whose keys strictly increase is determined by its members.  Sorted sets and sorted maps take
their extensionality from this one fact.
-/

namespace Wiring
namespace KeyOrder

variable {κ β : Type} [Ord κ]

theorem not_compare_self_lt [Std.ReflOrd κ] (key : κ) : compare key key ≠ .lt := fun before => by
  rw [Std.compare_self] at before
  cases before

/-- An increasing list repeats nothing. -/
theorem nodup_of_pairwise [Std.ReflOrd κ] {items : List κ}
    (sorted : items.Pairwise fun first second => compare first second = .lt) : items.Nodup := by
  refine sorted.imp fun before => ?_
  rintro rfl
  exact not_compare_self_lt _ before

/-- Two lists with increasing keys and the same members are equal. -/
theorem eq_of_mem_iff [Std.TransOrd κ] (key : β → κ) {left right : List β}
    (left_sorted : left.Pairwise fun first second => compare (key first) (key second) = .lt)
    (right_sorted : right.Pairwise fun first second => compare (key first) (key second) = .lt)
    (same : ∀ item, item ∈ left ↔ item ∈ right) : left = right := by
  induction left generalizing right with
  | nil =>
      cases right with
      | nil => rfl
      | cons head rest => exact absurd ((same head).mpr (by simp)) (by simp)
  | cons head rest ih =>
      cases right with
      | nil => exact absurd ((same head).mp (by simp)) (by simp)
      | cons head' rest' =>
          obtain ⟨above, sorted_rest⟩ := List.pairwise_cons.mp left_sorted
          obtain ⟨above', sorted_rest'⟩ := List.pairwise_cons.mp right_sorted
          have heads : head = head' := by
            rcases List.mem_cons.mp ((same head).mp (by simp)) with eq | mem
            · exact eq
            rcases List.mem_cons.mp ((same head').mpr (by simp)) with eq | mem'
            · exact eq.symm
            exact absurd (Std.TransCmp.lt_trans (above head' mem') (above' head mem))
              (not_compare_self_lt _)
          subst heads
          congr 1
          refine ih sorted_rest sorted_rest' fun item => ⟨fun mem => ?_, fun mem => ?_⟩
          · rcases List.mem_cons.mp ((same item).mp (by simp [mem])) with rfl | found
            · exact absurd (above item mem) (not_compare_self_lt _)
            · exact found
          · rcases List.mem_cons.mp ((same item).mpr (by simp [mem])) with rfl | found
            · exact absurd (above' item mem) (not_compare_self_lt _)
            · exact found

end KeyOrder
end Wiring
