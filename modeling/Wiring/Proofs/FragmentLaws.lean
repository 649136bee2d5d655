import Wiring.Source.Fragment

/-!
# Laws of concatenated fragments

Putting a text in front of pieces in two parts is putting it in front at once.  Concatenation is
therefore associative, and the texts of two fragments that meet are joined.
-/

namespace Wiring

namespace Part

theorem consText_text {content : String} (nonempty : content ≠ "") (next : String)
    (rest : List Part) : consText content (.text next :: rest) = .text (content ++ next) :: rest :=
  if_neg nonempty

theorem consText_apart {content : String} (nonempty : content ≠ "") {parts : List Part}
    (apart : beginsWithText parts = false) : consText content parts = .text content :: parts := by
  match parts with
  | [] => exact if_neg nonempty
  | .type name :: rest => exact if_neg nonempty

theorem consText_append (first second : String) (parts : List Part) :
    consText (first ++ second) parts = consText first (consText second parts) := by
  by_cases second_empty : second = ""
  · simp [consText, second_empty]
  by_cases first_empty : first = ""
  · simp [consText, first_empty]
  have joined : first ++ second ≠ "" := by simp [first_empty]
  match parts with
  | [] =>
      rw [consText_apart joined rfl, consText_apart second_empty rfl, consText_text first_empty]
  | .type name :: rest =>
      rw [consText_apart joined rfl, consText_apart second_empty rfl, consText_text first_empty]
  | .text next :: rest =>
      rw [consText_text joined, consText_text second_empty, consText_text first_empty,
        String.append_assoc]

/-- Pieces put in front of joined pieces are joined in the same way. -/
theorem foldr_cons_cons (part : Part) (front parts : List Part) :
    (part.cons front).foldr cons parts = part.cons (front.foldr cons parts) := by
  cases part with
  | type name => rfl
  | text content =>
      by_cases empty : content = ""
      · simp [cons, consText, empty]
      · match front with
        | [] => rw [cons, consText_apart empty rfl, List.foldr_cons, cons]
        | .type name :: rest => rw [cons, consText_apart empty rfl, List.foldr_cons, cons]
        | .text next :: rest =>
            rw [cons, consText_text empty, List.foldr_cons, cons, consText_append]
            rfl

theorem foldr_cons_foldr_cons (first second parts : List Part) :
    (first.foldr cons second).foldr cons parts = first.foldr cons (second.foldr cons parts) := by
  induction first with
  | nil => rfl
  | cons part first ih => rw [List.foldr_cons, foldr_cons_cons, ih, List.foldr_cons]

end Part

namespace Fragment

theorem ext_parts {left right : Fragment} (same : left.parts = right.parts) : left = right := by
  cases left
  cases right
  cases same
  rfl

theorem append_assoc (first second third : Fragment) :
    first ++ second ++ third = first ++ (second ++ third) :=
  ext_parts (Part.foldr_cons_foldr_cons first.parts second.parts third.parts)

theorem text_append (first second : String) : text first ++ text second = text (first ++ second) :=
  ext_parts ((Part.foldr_cons_cons (.text first) [] _).trans
    (Part.consText_append first second []).symm)

theorem concat_cons (first : Fragment) (others : List Fragment) :
    concat (first :: others) = first ++ concat others := rfl

theorem concat_append (front rest : List Fragment) :
    concat (front ++ rest) = concat front ++ concat rest := by
  induction front with
  | nil => rfl
  | cons first others ih => rw [List.cons_append, concat_cons, ih, ← append_assoc, concat_cons]

end Fragment
end Wiring
