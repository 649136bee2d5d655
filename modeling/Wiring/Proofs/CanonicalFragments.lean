import Mathlib.Data.List.Chain
import Mathlib.Data.List.Induction
import Wiring.Proofs.FragmentLaws
import Wiring.Proofs.Rendering

/-!
# Canonical form of fragments

However code is put together by pushing pieces behind each other, no text is empty and no two texts
are adjacent.  Pieces in this form are determined by the characters and type references that they
stand for, so the laws of concatenation hold as equations between fragments.
-/

namespace Wiring

/-- Smallest thing that a fragment stands for. -/
inductive Symbol where
  /-- A character. -/
  | char (char : Char)
  /-- A reference to a type. -/
  | type (name : TypeName)
  deriving DecidableEq, Repr

namespace Part

/-! ### Canonical pieces -/

theorem canonical_nil : Canonical [] := trivial

/-- Pieces are in canonical form when no text is empty and no two texts are adjacent. -/
theorem canonical_iff {parts : List Part} :
    Canonical parts ↔ (∀ part ∈ parts, part ≠ .text "") ∧
      parts.IsChain fun first second => first.type?.isSome ∨ second.type?.isSome := by
  induction parts with
  | nil => simp [Canonical]
  | cons part parts ih =>
      cases part with
      | type name =>
          simp only [Canonical, ih, List.forall_mem_cons, List.isChain_cons, type?,
            Option.isSome_some, true_or, implies_true, true_and, ne_eq, reduceCtorEq,
            not_false_eq_true]
      | text content =>
          have apart : beginsWithText parts = false ↔
              ∀ next ∈ parts.head?, next.type?.isSome = true := by
            match parts with
            | [] => simp [beginsWithText]
            | .text next :: rest => simp [beginsWithText, type?]
            | .type name :: rest => simp [beginsWithText, type?]
          simp only [Canonical, ih, apart, List.forall_mem_cons, List.isChain_cons, type?,
            Option.isSome_none, Bool.false_eq_true, false_or, ne_eq, text.injEq]
          tauto

/-- Canonical pieces are what they become when they are put in front one by one. -/
theorem foldr_cons_of_canonical {parts : List Part} (canonical : Canonical parts) :
    parts.foldr cons [] = parts := by
  induction parts with
  | nil => rfl
  | cons part parts ih =>
      cases part with
      | type name => rw [List.foldr_cons, ih canonical, cons]
      | text content =>
          obtain ⟨nonempty, apart, rest⟩ := canonical
          rw [List.foldr_cons, ih rest, cons, consText_apart nonempty apart]

/-- Symbols that a piece stands for. -/
def symbols : Part → List Symbol
  | .text content => content.toList.map .char
  | .type name => [.type name]

/-- Piece that stands for one symbol. -/
def ofSymbol : Symbol → Part
  | .char char => .text (String.singleton char)
  | .type name => .type name

/-- The characters of a text, put in front one by one, are the text put in front. -/
theorem foldr_ofSymbol_chars (chars : List Char) (parts : List Part) :
    (chars.map Symbol.char).foldr (fun symbol => (ofSymbol symbol).cons) parts =
      consText (String.ofList chars) parts := by
  induction chars with
  | nil => exact (if_pos rfl).symm
  | cons char chars ih =>
      have whole : String.ofList (char :: chars) = String.singleton char ++ String.ofList chars :=
        String.ofList_cons
      rw [List.map_cons, List.foldr_cons, ih, whole, consText_append]
      rfl

/-- Canonical pieces are found again from their symbols. -/
theorem foldr_ofSymbol_symbols {parts : List Part} (canonical : Canonical parts) :
    (parts.flatMap symbols).foldr (fun symbol => (ofSymbol symbol).cons) [] = parts := by
  induction parts with
  | nil => rfl
  | cons part parts ih =>
      rw [List.flatMap_cons, List.foldr_append]
      cases part with
      | type name => rw [ih canonical]; rfl
      | text content =>
          obtain ⟨nonempty, apart, rest⟩ := canonical
          rw [ih rest, symbols, foldr_ofSymbol_chars, String.ofList_toList,
            consText_apart nonempty apart]

/-! ### Pieces that are pushed -/

/-- Put a piece at the end, joining a text with a text that stands there. -/
def push (parts : List Part) : Part → List Part
  | .type name => parts ++ [.type name]
  | .text content =>
      if content = "" then parts
      else
        match parts.getLast? with
        | some (.text last) => parts.dropLast ++ [.text (last ++ content)]
        | _ => parts ++ [.text content]

/-- Put pieces at the end one by one. -/
def pushAll (parts pieces : List Part) : List Part := pieces.foldl push parts

theorem push_cons_cons (first second : Part) (rest : List Part) (part : Part) :
    push (first :: second :: rest) part = first :: push (second :: rest) part := by
  cases part with
  | type name => rfl
  | text content =>
      simp only [push, List.getLast?_cons_cons, List.dropLast_cons_of_ne_nil, ne_eq,
        reduceCtorEq, not_false_eq_true]
      split
      · rfl
      · split <;> rfl

/-- Behind canonical pieces, a piece at the end is one that the others are put in front of. -/
theorem push_eq_foldr_cons {parts : List Part} (canonical : Canonical parts) (part : Part) :
    push parts part = parts.foldr cons (part.cons []) := by
  induction parts with
  | nil => cases part <;> rfl
  | cons first rest ih =>
      rw [List.foldr_cons]
      match first, rest, canonical with
      | .type name, [], _ =>
          cases part with
          | type other => rfl
          | text content =>
              by_cases empty : content = ""
              · simp [push, cons, consText, empty]
              · simp [push, cons, consText, empty]
      | .type name, second :: others, canonical =>
          rw [push_cons_cons, ih canonical, cons]
      | .text content, [], ⟨nonempty, _, _⟩ =>
          cases part with
          | type other => exact (consText_apart nonempty rfl).symm
          | text more =>
              by_cases empty : more = ""
              · simp [push, cons, consText, empty, nonempty]
              · simp [push, cons, consText, empty, nonempty]
      | .text content, .type name :: others, ⟨nonempty, _, rest_canonical⟩ =>
          rw [push_cons_cons, ih rest_canonical, cons]
          exact (consText_apart nonempty rfl).symm

theorem canonical_push {parts : List Part} (canonical : Canonical parts) (part : Part) :
    Canonical (push parts part) := by
  rw [push_eq_foldr_cons canonical]
  exact canonical_foldr_cons (canonical_cons canonical_nil)

/-- Any pieces can be pushed behind canonical ones. -/
theorem canonical_pushAll {parts : List Part} (canonical : Canonical parts) (pieces : List Part) :
    Canonical (pushAll parts pieces) := by
  induction pieces generalizing parts with
  | nil => exact canonical
  | cons piece pieces ih => exact ih (canonical_push canonical piece)

theorem pushAll_eq_foldr_cons {parts : List Part} (canonical : Canonical parts)
    (pieces : List Part) : pushAll parts pieces = parts.foldr cons (pieces.foldr cons []) := by
  induction pieces generalizing parts with
  | nil => exact (foldr_cons_of_canonical canonical).symm
  | cons piece pieces ih =>
      have step : pushAll parts (piece :: pieces) = pushAll (push parts piece) pieces := rfl
      rw [step, ih (canonical_push canonical piece), push_eq_foldr_cons canonical,
        foldr_cons_foldr_cons, foldr_cons_cons]
      rfl

/-- Canonical pieces are what they become when they are pushed one by one. -/
theorem pushAll_nil {parts : List Part} (canonical : Canonical parts) : pushAll [] parts = parts :=
  (pushAll_eq_foldr_cons canonical_nil parts).trans (foldr_cons_of_canonical canonical)

/-- Expansion of a format string behind pieces, character by character. -/
def expandOnto (parts : List Part) : List Char → List Argument → List Part
  | [], _ => parts
  | '$' :: '$' :: rest, arguments => expandOnto (push parts (.text "$")) rest arguments
  | '$' :: letter :: rest, arguments =>
      match Placeholder.ofChar? letter, arguments with
      | none, _ => expandOnto (push parts (.text "$")) (letter :: rest) arguments
      | some _, [] =>
          expandOnto (push (push parts (.text "$")) (.text (String.singleton letter))) rest []
      | some placeholder, argument :: others =>
          expandOnto (pushAll parts (placeholder.fill argument).parts) rest others
  | other :: rest, arguments =>
      expandOnto (push parts (.text (String.singleton other))) rest arguments

/-- Pieces of several codes, with a separator in front of each code but the first. -/
def joined (separator : String) : List (List Part) → List Part
  | [] => []
  | first :: others =>
      others.foldl (fun parts code => pushAll (push parts (.text separator)) code)
        (pushAll [] first)

/-- Whether pieces are those of a code that some nesting of the operations puts together. -/
inductive Collected : List Part → Prop where
  | empty : Collected []
  | text (content : String) : Collected (push [] (.text content))
  | format (format : String) {arguments : List Argument}
      (nested : ∀ fragment, .code fragment ∈ arguments → Collected fragment.parts) :
      Collected (expandOnto [] format.toList arguments)
  | join (separator : String) {codes : List (List Part)}
      (each : ∀ code ∈ codes, Collected code) : Collected (joined separator codes)
  | append {parts others : List Part} (first : Collected parts) (second : Collected others) :
      Collected (pushAll parts others)
  | appendText {parts : List Part} (first : Collected parts) (content : String) :
      Collected (push parts (.text content))

theorem canonical_expandOnto {parts : List Part} (canonical : Canonical parts)
    (chars : List Char) (arguments : List Argument) :
    Canonical (expandOnto parts chars arguments) := by
  fun_induction expandOnto parts chars arguments with
  | case1 => exact canonical
  | case2 parts rest arguments ih => exact ih (canonical_push canonical _)
  | case3 parts letter rest arguments _ unknown ih => exact ih (canonical_push canonical _)
  | case4 parts letter rest _ placeholder known ih =>
      exact ih (canonical_push (canonical_push canonical _) _)
  | case5 parts letter rest _ placeholder argument others known ih =>
      exact ih (canonical_pushAll canonical _)
  | case6 parts other rest arguments _ _ ih => exact ih (canonical_push canonical _)

theorem canonical_joined (separator : String) (codes : List (List Part)) :
    Canonical (joined separator codes) := by
  cases codes with
  | nil => trivial
  | cons first others =>
      exact List.foldlRecOn others _ (canonical_pushAll canonical_nil first)
        fun parts canonical code _ => canonical_pushAll (canonical_push canonical _) code

/-- Every operation keeps pieces canonical. -/
theorem Collected.canonical {parts : List Part} (collected : Collected parts) :
    Canonical parts := by
  induction collected with
  | empty => trivial
  | text content => exact canonical_push canonical_nil _
  | format format nested _ => exact canonical_expandOnto canonical_nil _ _
  | join separator each _ => exact canonical_joined separator _
  | append first second canonical _ => exact canonical_pushAll canonical _
  | appendText first content canonical => exact canonical_push canonical _

/-- Any pieces can be pushed by the operations. -/
theorem collected_pushAll (pieces : List Part) : Collected (pushAll [] pieces) := by
  induction pieces using List.reverseRecOn with
  | nil => exact .empty
  | append_singleton pieces piece ih =>
      have step : pushAll [] (pieces ++ [piece]) = push (pushAll [] pieces) piece := by
        rw [pushAll, List.foldl_append]
        rfl
      rw [step]
      cases piece with
      | text content => exact ih.appendText content
      | type name =>
          have no_code (fragment : Fragment) (mem : .code fragment ∈ [Argument.type name]) :
              Collected fragment.parts := by
            simp at mem
          have reference : Collected [.type name] := .format "$T" no_code
          exact ih.append reference

end Part

namespace Fragment

open Wiring.Part

/-- Symbols that a fragment stands for. -/
def symbols (fragment : Fragment) : List Symbol := fragment.parts.flatMap Part.symbols

/-- Fragments are equal when they stand for the same characters and type references. -/
theorem eq_iff_symbols_eq {left right : Fragment} : left = right ↔ left.symbols = right.symbols := by
  refine ⟨congrArg symbols, fun same => ext_parts ?_⟩
  rw [← foldr_ofSymbol_symbols left.canonical, ← foldr_ofSymbol_symbols right.canonical]
  exact congrArg (List.foldr _ []) same

theorem empty_append (fragment : Fragment) : empty ++ fragment = fragment := rfl

theorem append_empty (fragment : Fragment) : fragment ++ empty = fragment :=
  ext_parts (foldr_cons_of_canonical fragment.canonical)

theorem parts_append (left right : Fragment) :
    (left ++ right).parts = pushAll left.parts right.parts := by
  rw [pushAll_eq_foldr_cons left.canonical, foldr_cons_of_canonical right.canonical]
  rfl

theorem parts_text (content : String) : (text content).parts = push [] (.text content) :=
  (push_eq_foldr_cons canonical_nil (.text content)).symm

theorem parts_append_text (fragment : Fragment) (content : String) :
    (fragment ++ text content).parts = push fragment.parts (.text content) := by
  rw [push_eq_foldr_cons fragment.canonical]
  rfl

/-- Expanding a format string behind a fragment appends its code. -/
theorem parts_append_expand (fragment : Fragment) (chars : List Char)
    (arguments : List Argument) :
    (fragment ++ expand chars arguments).parts = expandOnto fragment.parts chars arguments := by
  fun_induction expand chars arguments generalizing fragment with
  | case1 => rw [append_empty, expandOnto]
  | case2 rest arguments ih =>
      rw [← append_assoc, ih, expandOnto, ← parts_append_text]
      rfl
  | case3 letter rest arguments no_pair unknown ih =>
      rw [← append_assoc, ih, expandOnto.eq_3 _ _ _ _ no_pair unknown, ← parts_append_text]
      rfl
  | case4 letter rest no_pair placeholder known ih =>
      rw [← append_assoc, ← append_assoc, ih, expandOnto.eq_4 _ _ _ no_pair _ known,
        ← parts_append_text, ← parts_append_text]
      rfl
  | case5 letter rest no_pair placeholder argument others known ih =>
      rw [← append_assoc, ih, expandOnto.eq_5 _ _ _ _ _ _ no_pair known, parts_append]
  | case6 char rest arguments no_pair no_placeholder ih =>
      rw [← append_assoc, ih, expandOnto.eq_6 _ _ _ _ no_pair no_placeholder, ← parts_append_text]
      rfl

theorem parts_format (format : String) (arguments : List Argument) :
    (Fragment.format format arguments).parts = expandOnto [] format.toList arguments :=
  parts_append_expand empty format.toList arguments

/-- Joined fragments are appended with the separator between neighbours. -/
theorem foldl_append_intersperse (separator : String) (fragments : List Fragment)
    (front : Fragment) :
    (fragments.intersperse (text separator)).foldl (· ++ ·) front =
      front ++ join separator fragments := by
  fun_induction join separator fragments generalizing front with
  | case1 => exact (append_empty front).symm
  | case2 last => rfl
  | case3 first others nonempty ih =>
      obtain ⟨second, others, rfl⟩ := List.exists_cons_of_ne_nil nonempty
      rw [List.intersperse_cons_cons, List.foldl_cons, List.foldl_cons, ih]
      simp only [append_assoc]

theorem parts_append_join (separator : String) (front first : Fragment)
    (others : List Fragment) :
    (front ++ join separator (first :: others)).parts =
      (others.map parts).foldl (fun parts code => pushAll (push parts (.text separator)) code)
        (pushAll front.parts first.parts) := by
  induction others generalizing front first with
  | nil => exact parts_append front first
  | cons second others ih =>
      have step : join separator (first :: second :: others) =
          first ++ text separator ++ join separator (second :: others) := rfl
      rw [step, ← append_assoc, ih, ← append_assoc, parts_append_text, parts_append]
      rfl

theorem parts_join (separator : String) (fragments : List Fragment) :
    (join separator fragments).parts = joined separator (fragments.map parts) := by
  cases fragments with
  | nil => rfl
  | cons first others => exact parts_append_join separator empty first others

section Rendering

variable (typeText : TypeName → String)

theorem render_append (left right : Fragment) :
    (left ++ right).render typeText = left.render typeText ++ right.render typeText := by
  apply String.toList_inj.mp
  rw [String.toList_append, toList_render, toList_render, toList_render, chars_append]

theorem render_join (separator : String) (fragments : List Fragment) :
    (join separator fragments).render typeText =
      separator.intercalate (fragments.map (render typeText)) := by
  apply String.toList_inj.mp
  rw [toList_render, chars_join, String.toList_intercalate, List.map_map]
  congr 2
  funext fragment
  exact (toList_render typeText fragment).symm

end Rendering

/-- The operations on fragments push pieces behind each other. -/
structure PushPieces : Prop where
  /-- Nothing has no pieces. -/
  empty : empty.parts = []
  /-- A text is pushed onto nothing. -/
  text : ∀ content, (text content).parts = push [] (.text content)
  /-- A format string pushes its texts and the pieces of its arguments. -/
  format : ∀ format arguments,
    (Fragment.format format arguments).parts = expandOnto [] format.toList arguments
  /-- Joined fragments are pushed with a separator in front of each but the first. -/
  join : ∀ separator fragments,
    (join separator fragments).parts = joined separator (fragments.map parts)
  /-- The pieces of the second fragment are pushed onto those of the first. -/
  append : ∀ left right : Fragment, (left ++ right).parts = pushAll left.parts right.parts
  /-- A text behind a fragment is pushed onto its pieces. -/
  append_text : ∀ (fragment : Fragment) content,
    (fragment ++ Fragment.text content).parts = push fragment.parts (.text content)

/-- However operations are nested, the pieces that they push have no empty text and no adjacent
texts.  Fragments are these pieces, and their operations push in the same way.  Therefore
concatenation is associative with the empty fragment on both sides, fragments are equal when their
symbols are, joining appends with a separator between neighbours, and texts are concatenated. -/
theorem keeps_canonical_form :
    (∀ parts, Collected parts → (∀ part ∈ parts, part ≠ .text "") ∧
        parts.IsChain fun first second => first.type?.isSome ∨ second.type?.isSome) ∧
      (∀ parts, Collected parts ↔ ∃ fragment : Fragment, fragment.parts = parts) ∧
      PushPieces ∧
      (∀ first second third : Fragment, first ++ second ++ third = first ++ (second ++ third)) ∧
      (∀ fragment : Fragment, empty ++ fragment = fragment ∧ fragment ++ empty = fragment) ∧
      (∀ left right : Fragment, left = right ↔ left.symbols = right.symbols) ∧
      (∀ separator fragments, join separator fragments =
        (fragments.intersperse (text separator)).foldl (· ++ ·) empty) ∧
      ∀ typeText,
        (∀ left right : Fragment,
          (left ++ right).render typeText = left.render typeText ++ right.render typeText) ∧
        ∀ separator fragments, (join separator fragments).render typeText =
          separator.intercalate (fragments.map (render typeText)) := by
  refine ⟨fun parts collected => canonical_iff.mp collected.canonical, fun parts => ⟨?_, ?_⟩,
    ⟨rfl, parts_text, parts_format, parts_join, parts_append, parts_append_text⟩, append_assoc,
    fun fragment => ⟨empty_append fragment, append_empty fragment⟩,
    fun _ _ => eq_iff_symbols_eq, fun separator fragments => ?_,
    fun typeText => ⟨render_append typeText, render_join typeText⟩⟩
  · exact fun collected => ⟨⟨parts, collected.canonical⟩, rfl⟩
  · rintro ⟨fragment, rfl⟩
    exact pushAll_nil fragment.canonical ▸ collected_pushAll fragment.parts
  · exact (foldl_append_intersperse separator fragments empty).symm

/-- A joined list of arguments is nested into a call, and the texts that meet become one. -/
theorem keeps_canonical_form_nested :
    Collected [.text "call(\"a\", ", .type ⟨"a.B"⟩, .text ".class)"] ∧
      (∀ part ∈ [Part.text "call(\"a\", ", .type ⟨"a.B"⟩, .text ".class)"], part ≠ .text "") ∧
      [Part.text "call(\"a\", ", .type ⟨"a.B"⟩, .text ".class)"].IsChain
        fun first second => first.type?.isSome ∨ second.type?.isSome := by
  let quoted : Fragment := .format "$S" [.text "a"]
  let literal : Fragment := .format "$T.class" [.type ⟨"a.B"⟩]
  have joined : Collected (join ", " [quoted, literal]).parts := by
    rw [parts_join]
    refine .join ", " fun code mem => ?_
    rcases List.mem_pair.mp mem with rfl | rfl
    · exact parts_format "$S" [.text "a"] ▸ .format "$S" (by simp)
    · exact parts_format "$T.class" [.type ⟨"a.B"⟩] ▸ .format "$T.class" (by simp)
  have nested : Collected
      (expandOnto [] "call($L)".toList [.code (join ", " [quoted, literal])]) := by
    refine .format "call($L)" fun fragment mem => ?_
    cases List.mem_singleton.mp mem
    exact joined
  have value : expandOnto [] "call($L)".toList [.code (join ", " [quoted, literal])] =
      [.text "call(\"a\", ", .type ⟨"a.B"⟩, .text ".class)"] := by
    decide
  rw [value] at nested
  exact ⟨nested, keeps_canonical_form.1 _ nested⟩

end Fragment
end Wiring
