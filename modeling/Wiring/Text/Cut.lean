/-!
# Cutting texts at a mark

Texts are cut at the first or the last occurrence of a character, and one character is replaced
throughout.  `cutLast?_eq_some_iff` says which pair of parts a cut at the last mark gives.
-/

namespace Wiring
namespace Text

/-- Text up to the first mark; all of it when the mark is absent. -/
def beforeFirst (mark : Char) (chars : List Char) : List Char :=
  chars.takeWhile (· != mark)

/-- The parts before and after the last mark, if the mark occurs. -/
def cutLast? (mark : Char) : List Char → Option (List Char × List Char)
  | [] => none
  | char :: rest =>
      match cutLast? mark rest with
      | some (before, after) => some (char :: before, after)
      | none => if char = mark then some ([], rest) else none

/-- Text up to the last mark; empty when the mark is absent. -/
def beforeLast (mark : Char) (chars : List Char) : List Char :=
  match cutLast? mark chars with
  | some (before, _) => before
  | none => []

/-- Text after the last mark; all of it when the mark is absent. -/
def afterLast (mark : Char) (chars : List Char) : List Char :=
  match cutLast? mark chars with
  | some (_, after) => after
  | none => chars

/-- Text that follows a given beginning, if the text begins so. -/
def afterStart? : List Char → List Char → Option (List Char)
  | [], chars => some chars
  | _ :: _, [] => none
  | expected :: start, char :: chars => if expected = char then afterStart? start chars else none

/-- Replace every occurrence of one character by another. -/
def substitute (mark replacement : Char) (chars : List Char) : List Char :=
  chars.map fun char => if char = mark then replacement else char

theorem cutLast?_eq_none_iff {mark : Char} {chars : List Char} :
    cutLast? mark chars = none ↔ mark ∉ chars := by
  induction chars with
  | nil => simp [cutLast?]
  | cons char rest ih =>
      simp only [cutLast?, List.mem_cons, not_or]
      split
      next found =>
        simp only [reduceCtorEq, false_iff, not_and]
        intro _ absent
        rw [ih.mpr absent] at found
        cases found
      next absent =>
        have rest_absent := ih.mp absent
        by_cases same : char = mark
        · simp [same]
        · simp [same, rest_absent, Ne.symm same]

/-- A cut at the last mark leaves no mark in the second part and loses nothing. -/
theorem cutLast?_eq_some_iff {mark : Char} {chars before after : List Char} :
    cutLast? mark chars = some (before, after) ↔
      chars = before ++ mark :: after ∧ mark ∉ after := by
  induction chars generalizing before with
  | nil => simp [cutLast?]
  | cons char rest ih =>
      simp only [cutLast?]
      cases found : cutLast? mark rest with
      | some parts =>
          obtain ⟨before', after'⟩ := parts
          simp only [Option.some.injEq, Prod.mk.injEq]
          constructor
          · rintro ⟨rfl, rfl⟩
            obtain ⟨rest_eq, absent⟩ := ih.mp found
            exact ⟨by rw [rest_eq]; rfl, absent⟩
          · rintro ⟨shape, absent⟩
            cases before with
            | nil =>
                obtain ⟨rfl, rfl⟩ := List.cons.inj shape
                rw [cutLast?_eq_none_iff.mpr absent] at found
                cases found
            | cons head before =>
                obtain ⟨rfl, rest_eq⟩ := List.cons.inj shape
                rw [ih.mpr ⟨rest_eq, absent⟩] at found
                cases found
                exact ⟨rfl, rfl⟩
      | none =>
          have rest_absent := cutLast?_eq_none_iff.mp found
          constructor
          · intro cut
            by_cases same : char = mark
            · simp only [same, if_true, Option.some.injEq, Prod.mk.injEq] at cut
              obtain ⟨rfl, rfl⟩ := cut
              exact ⟨by simp [same], rest_absent⟩
            · simp [same] at cut
          · rintro ⟨shape, absent⟩
            cases before with
            | nil =>
                obtain ⟨rfl, rfl⟩ := List.cons.inj shape
                simp
            | cons head before =>
                obtain ⟨rfl, rest_eq⟩ := List.cons.inj shape
                exact absurd (by simp [rest_eq]) rest_absent

end Text
end Wiring
