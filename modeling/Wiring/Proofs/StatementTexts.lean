import Wiring.Proofs.CanonicalFragments
import Wiring.Registration.Writer

/-!
# Texts of statements

Type names are written in different ways, so the text of code depends on how they are written.  The
texts under all ways of writing them determine the code, and a statement is described by its text
without reference to the format string that it was made from.
-/

namespace Wiring

/-- Text of code, depending on how type names are written. -/
abbrev Wording := (TypeName → String) → String

namespace Symbol

/-- Characters of a symbol. -/
def chars (typeText : TypeName → String) : Symbol → List Char
  | char letter => [letter]
  | type name => (typeText name).toList

theorem exists_char_ne (letter : Char) : ∃ other : Char, other ≠ letter :=
  have : Nontrivial Char := ⟨'x', 'y', by decide⟩
  exists_ne letter

/-- Whatever follows them, symbols with the same characters under all ways of writing type names are
equal: a name can be made to begin like no given character and like no other name. -/
theorem eq_of_chars_append_eq {left right : Symbol} {rest rest' : (TypeName → String) → List Char}
    (same : ∀ typeText,
      left.chars typeText ++ rest typeText = right.chars typeText ++ rest' typeText) :
    left = right := by
  cases left with
  | char letter =>
      cases right with
      | char letter' =>
          have written := same fun _ => ""
          simp only [chars, List.singleton_append, List.cons.injEq] at written
          rw [written.1]
      | type name' =>
          obtain ⟨other, differs⟩ := exists_char_ne letter
          have written := same fun _ => String.singleton other
          simp [chars, differs.symm] at written
  | type name =>
      cases right with
      | char letter' =>
          obtain ⟨other, differs⟩ := exists_char_ne letter'
          have written := same fun _ => String.singleton other
          simp [chars, differs] at written
      | type name' =>
          by_contra differs
          have names : name' ≠ name := fun equal => differs (by rw [equal])
          have written := same fun other => if other = name then "x" else "y"
          simp [chars, names] at written

/-- Symbols are determined by their characters under all ways of writing type names. -/
theorem eq_of_flatMap_chars_eq {left right : List Symbol}
    (same : ∀ typeText, left.flatMap (chars typeText) = right.flatMap (chars typeText)) :
    left = right := by
  have written_ne (symbol : Symbol) (symbols : List Symbol) :
      (symbol :: symbols).flatMap (chars fun _ => "x") ≠ [] := by
    cases symbol <;> simp [chars]
  induction left generalizing right with
  | nil =>
      cases right with
      | nil => rfl
      | cons symbol right => exact absurd (same _).symm (written_ne symbol right)
  | cons symbol left ih =>
      cases right with
      | nil => exact absurd (same _) (written_ne symbol left)
      | cons symbol' right =>
          simp only [List.flatMap_cons] at same
          obtain rfl := eq_of_chars_append_eq same
          exact congrArg (symbol :: ·) (ih fun typeText => List.append_cancel_left (same typeText))

end Symbol

namespace Part

theorem flatMap_symbols (typeText : TypeName → String) (part : Part) :
    part.symbols.flatMap (Symbol.chars typeText) = part.chars typeText := by
  cases part with
  | text content => simp [symbols, Symbol.chars, Part.chars, render, List.flatMap_map]
  | type name => simp [symbols, Symbol.chars, Part.chars, render]

end Part

namespace Fragment

variable {fragment fragment' : Fragment} {wording : Wording}

theorem flatMap_symbols (typeText : TypeName → String) (fragment : Fragment) :
    fragment.symbols.flatMap (Symbol.chars typeText) = fragment.chars typeText := by
  rw [symbols, List.flatMap_assoc, chars]
  exact List.flatMap_congr fun part _ => Part.flatMap_symbols typeText part

/-- Whether code has a text, however type names are written. -/
def Reads (fragment : Fragment) (wording : Wording) : Prop :=
  ∀ typeText, fragment.render typeText = wording typeText

theorem reads_iff :
    fragment.Reads wording ↔ ∀ typeText, fragment.chars typeText = (wording typeText).toList :=
  forall_congr' fun typeText => by rw [← String.toList_inj, toList_render]

/-- Code is determined by its text. -/
theorem Reads.eq (reads : fragment.Reads wording) (reads' : fragment'.Reads wording) :
    fragment = fragment' := by
  refine eq_iff_symbols_eq.mpr (Symbol.eq_of_flatMap_chars_eq fun typeText => ?_)
  rw [flatMap_symbols, flatMap_symbols, reads_iff.mp reads, reads_iff.mp reads']

end Fragment

namespace Line

variable {line line' : Line} {wording wording' : Wording}

/-- Whether a line is a statement with a text. -/
def States (line : Line) (wording : Wording) : Prop :=
  ∃ fragment, line = .statement fragment ∧ fragment.Reads wording

@[simp]
theorem states_statement {fragment : Fragment} :
    (statement fragment).States wording ↔ fragment.Reads wording := by
  simp [States]

theorem states_statement_iff {fragment : Fragment} :
    (statement fragment).States wording ↔
      ∀ typeText, fragment.chars typeText = (wording typeText).toList :=
  states_statement.trans Fragment.reads_iff

theorem States.eq (states : line.States wording) (states' : line'.States wording) :
    line = line' := by
  obtain ⟨fragment, rfl, reads⟩ := states
  obtain ⟨fragment', rfl, reads'⟩ := states'
  rw [reads.eq reads']

end Line

theorem Draft.chars_helperStatement (typeText : TypeName → String) (cls : TypeName)
    (helper : String) :
    (Fragment.format "$T.$N(context)" [.type cls, .text helper]).chars typeText =
      (typeText cls).toList ++ '.' :: (helper.toList ++ "(context)".toList) := by
  simp [Fragment.format, Placeholder.fill]

namespace Line

variable {line : Line}

/-- Whether a line is a statement that calls a method of a class with the context. -/
def CallsMethod (line : Line) (cls : TypeName) (method : String) : Prop :=
  line.States fun typeText => typeText cls ++ "." ++ method ++ "(context)"

theorem callsMethod_helperStatement (cls : TypeName) (helper : String) :
    (Draft.helperStatement cls helper).CallsMethod cls helper := by
  refine states_statement_iff.mpr fun typeText => ?_
  rw [Draft.chars_helperStatement]
  simp

theorem callsMethod_iff {cls : TypeName} {helper : String} :
    line.CallsMethod cls helper ↔ line = Draft.helperStatement cls helper :=
  ⟨fun calls => calls.eq (callsMethod_helperStatement cls helper),
    fun same => same ▸ callsMethod_helperStatement cls helper⟩

end Line

/-- Whether exactly one line of a block calls a method of a class. -/
def Block.CallsOnce (block : Block) (cls : TypeName) (method : String) : Prop :=
  ∃ before line after, block = before ++ line :: after ∧ line.CallsMethod cls method ∧
    ∀ other ∈ before ++ after, ¬ other.CallsMethod cls method

theorem Block.callsOnce_of_count {block : Block} {cls : TypeName} {helper : String}
    (once : block.count (Draft.helperStatement cls helper) = 1) : block.CallsOnce cls helper := by
  have mem : Draft.helperStatement cls helper ∈ block :=
    List.count_pos_iff.mp (once ▸ Nat.one_pos)
  obtain ⟨before, after, rfl⟩ := List.append_of_mem mem
  have nowhere : (before ++ after).count (Draft.helperStatement cls helper) = 0 := by
    rw [List.count_append, List.count_cons_self] at once
    rw [List.count_append]
    omega
  refine ⟨before, _, after, rfl, Line.callsMethod_helperStatement cls helper, ?_⟩
  rintro other listed calls
  exact List.count_eq_zero.mp nowhere (Line.callsMethod_iff.mp calls ▸ listed)

end Wiring
