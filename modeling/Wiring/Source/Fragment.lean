import Wiring.TypeName

/-!
# Code fragments

A fragment is a piece of source text in which type references stay symbolic until it is rendered.
Fragments are kept in a canonical form, without empty texts and without adjacent texts, so that
fragments with the same characters and references are equal.
-/

namespace Wiring

/-- Piece of a fragment. -/
inductive Part where
  /-- Verbatim text. -/
  | text (content : String)
  /-- Reference to a type. -/
  | type (name : TypeName)
  deriving DecidableEq, Repr

namespace Part

/-- Type that a piece refers to. -/
def type? : Part → Option TypeName
  | .text _ => none
  | .type name => some name

/-- Text of a piece under a choice of type texts. -/
def render (typeText : TypeName → String) : Part → String
  | .text content => content
  | .type name => typeText name

/-- Whether a list of pieces begins with a text. -/
def beginsWithText : List Part → Bool
  | .text _ :: _ => true
  | _ => false

/-- No text is empty and no two texts are adjacent. -/
def Canonical : List Part → Prop
  | [] => True
  | .type _ :: rest => Canonical rest
  | .text content :: rest => content ≠ "" ∧ beginsWithText rest = false ∧ Canonical rest

/-- Put a text in front, joining it with a text that follows. -/
def consText (content : String) (parts : List Part) : List Part :=
  if content = "" then parts
  else
    match parts with
    | .text next :: rest => .text (content ++ next) :: rest
    | _ => .text content :: parts

/-- Put a piece in front, keeping the canonical form. -/
def cons : Part → List Part → List Part
  | .text content, parts => consText content parts
  | .type name, parts => .type name :: parts

theorem canonical_consText {content : String} {parts : List Part} (canonical : Canonical parts) :
    Canonical (consText content parts) := by
  unfold consText
  split
  · exact canonical
  next nonempty =>
    split
    next next rest =>
      obtain ⟨next_nonempty, rest_start, rest_canonical⟩ := canonical
      refine ⟨fun joined => nonempty ?_, rest_start, rest_canonical⟩
      have lengths := congrArg String.length joined
      simp only [String.length_append, String.length_empty] at lengths
      have content_length : content.length = 0 := by omega
      exact String.length_eq_zero_iff.mp content_length
    next no_text =>
      refine ⟨nonempty, ?_, canonical⟩
      cases parts with
      | nil => rfl
      | cons head rest =>
          cases head with
          | text next => exact absurd rfl (no_text next rest)
          | type name => rfl

theorem canonical_cons {part : Part} {parts : List Part} (canonical : Canonical parts) :
    Canonical (part.cons parts) := by
  cases part with
  | text content => exact canonical_consText canonical
  | type name => exact canonical

theorem canonical_foldr_cons {front parts : List Part} (canonical : Canonical parts) :
    Canonical (front.foldr cons parts) := by
  induction front with
  | nil => exact canonical
  | cons part front ih => exact canonical_cons ih

end Part

/-- Source text with symbolic type references. -/
structure Fragment where
  /-- Pieces in order. -/
  parts : List Part
  /-- The pieces are in canonical form. -/
  canonical : Part.Canonical parts

namespace Fragment

instance : DecidableEq Fragment := fun left right =>
  if same : left.parts = right.parts then
    isTrue (by cases left; cases right; cases same; rfl)
  else
    isFalse (by rintro rfl; exact same rfl)

/-- Fragment without pieces. -/
def empty : Fragment := ⟨[], trivial⟩

instance : EmptyCollection Fragment := ⟨empty⟩
instance : Inhabited Fragment := ⟨empty⟩

/-- Verbatim text. -/
def text (content : String) : Fragment :=
  ⟨Part.consText content [], Part.canonical_consText trivial⟩

/-- Reference to a type. -/
def type (name : TypeName) : Fragment := ⟨[.type name], trivial⟩

/-- One fragment after another. -/
def append (left right : Fragment) : Fragment :=
  ⟨left.parts.foldr Part.cons right.parts, Part.canonical_foldr_cons right.canonical⟩

instance : Append Fragment := ⟨append⟩

/-- Fragments in order with a text between neighbours. -/
def join (separator : String) : List Fragment → Fragment
  | [] => empty
  | [last] => last
  | first :: others => first ++ text separator ++ join separator others

/-- Fragments in order. -/
def concat (fragments : List Fragment) : Fragment := fragments.foldr append empty

/-- Whether a fragment has no piece. -/
def isEmpty (fragment : Fragment) : Bool := fragment.parts.isEmpty

/-- Referenced types in order, with repetitions. -/
def types (fragment : Fragment) : List TypeName := fragment.parts.filterMap Part.type?

/-- Text of a fragment under a choice of type texts. -/
def render (typeText : TypeName → String) (fragment : Fragment) : String :=
  String.join (fragment.parts.map (Part.render typeText))

end Fragment
end Wiring
