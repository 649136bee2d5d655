import Wiring.Proofs.BalancedCode
import Wiring.Registration.Literal

/-!
# Brackets of literals

Whatever text is converted to a literal, the literal is balanced.  Numbers, truth values and
constants have plain characters, and texts and characters are quoted.
-/

namespace Wiring

open Scanner

theorem isPlain_of_isDigit {char : Char} (digit : char.isDigit = true) : isPlain char = true :=
  isPlain_of_isNameChar (by simp [isNameChar, Char.isAlphanum, digit])

theorem isPlain_of_mem_toDigits {number : Nat} {char : Char}
    (mem : char ∈ Nat.toDigits 10 number) : isPlain char = true :=
  isPlain_of_isDigit (Nat.isDigit_of_mem_toDigits (by decide) (by decide) mem)

theorem isPlain_of_mem_toString {number : Int} {char : Char}
    (mem : char ∈ (toString number).toList) : isPlain char = true := by
  cases number with
  | ofNat magnitude => exact isPlain_of_mem_toDigits (by simpa [toString, Int.repr] using mem)
  | negSucc magnitude =>
      have written : toString (Int.negSucc magnitude) = "-" ++ Nat.repr (magnitude + 1) := rfl
      rw [written, String.toList_append, List.mem_append] at mem
      rcases mem with mem | mem
      · obtain rfl := List.mem_singleton.mp mem
        rfl
      · exact isPlain_of_mem_toDigits (by simpa using mem)

namespace Decimal

theorem isPlain_of_mem_positional {digits : List Char} {power : Int}
    (plain : ∀ char ∈ digits, isPlain char = true) {char : Char}
    (mem : char ∈ Layout.positional digits power) : isPlain char = true := by
  have zeros : ∀ count, char ∈ List.replicate count '0' → isPlain char = true := by
    intro count mem
    rw [(List.mem_replicate.mp mem).2]
    rfl
  unfold Layout.positional at mem
  split at mem
  · simp only [List.mem_append] at mem
    rcases mem with (mem | mem) | mem
    · exact plain char mem
    · exact zeros _ mem
    · have point : ['.', '0'].all isPlain = true := rfl
      exact List.all_eq_true.mp point char mem
  · have padded : ∀ count, char ∈ List.replicate count '0' ++ digits → isPlain char = true := by
      intro count mem
      exact (List.mem_append.mp mem).elim (zeros count) (plain char)
    rcases List.mem_append.mp mem with mem | mem
    · exact padded _ (List.mem_of_mem_take mem)
    · rcases List.mem_cons.mp mem with rfl | mem
      · rfl
      · exact padded _ (List.mem_of_mem_drop mem)

theorem isPlain_of_mem_scientific {digits : List Char} {exponent : Int}
    (plain : ∀ char ∈ digits, isPlain char = true) {char : Char}
    (mem : char ∈ Layout.scientific digits exponent) : isPlain char = true := by
  rcases List.mem_append.mp mem with mem | mem
  · split at mem
    next first second rest =>
      simp only [List.mem_cons] at mem
      rcases mem with rfl | rfl | rfl | mem
      · exact plain char (by simp)
      · rfl
      · exact plain char (by simp)
      · exact plain char (by simp [mem])
    next => exact plain char mem
  · rcases List.mem_cons.mp mem with rfl | mem
    · rfl
    · exact isPlain_of_mem_toString mem

theorem isPlain_of_mem_canonicalText? {format : BinaryFormat} {layout : Layout}
    {numeral : Numeral} {chars : List Char}
    (written : canonicalText? format layout numeral = some chars) {char : Char}
    (mem : char ∈ chars) : isPlain char = true := by
  have signed : ∀ rest : List Char, (∀ char ∈ rest, isPlain char = true) →
      ∀ char ∈ (if numeral.negative then ['-'] else []) ++ rest, isPlain char = true := by
    intro rest plain char mem
    rcases List.mem_append.mp mem with mem | mem
    · split at mem
      · obtain rfl := List.mem_singleton.mp mem
        rfl
      · cases mem
    · exact plain char mem
  have rendered : ∀ coefficient power, ∀ char ∈ layout.render coefficient power,
      isPlain char = true := by
    intro coefficient power char mem
    unfold Layout.render at mem
    dsimp only at mem
    split at mem
    · exact isPlain_of_mem_positional (fun digit => isPlain_of_mem_toDigits) mem
    · exact isPlain_of_mem_scientific (fun digit => isPlain_of_mem_toDigits) mem
  unfold canonicalText? at written
  dsimp only at written
  split at written
  · obtain rfl := Option.some.inj written
    have zero : ['0', '.', '0'].all isPlain = true := rfl
    exact signed _ (List.all_eq_true.mp zero) char mem
  · obtain rfl := Option.some.inj written
    exact signed _ (rendered _ _) char mem
  · cases written

end Decimal

theorem mem_of_lookup {κ ν : Type} [BEq κ] [LawfulBEq κ] {key : κ} {value : ν}
    {entries : List (κ × ν)} (found : entries.lookup key = some value) :
    (key, value) ∈ entries := by
  obtain ⟨before, after, rfl, -⟩ := List.lookup_eq_some_iff.mp found
  simp

namespace Literal

/-- Whether the fixed texts of a form are balanced. -/
def Form.IsBalanced : Form → Prop
  | integer _ before after => Balanced before.toList ∧ Balanced after.toList
  | floating _ suffix => Balanced suffix.toList
  | _ => True

instance : (form : Form) → Decidable form.IsBalanced
  | .integer .. => inferInstanceAs (Decidable (_ ∧ _))
  | .floating .. => inferInstanceAs (Decidable (Balanced _))
  | .boolean | .character | .text => isTrue trivial

theorem isBalanced_forms : ∀ entry ∈ forms, entry.2.IsBalanced := by
  decide

theorem balanced_ofForm? {form : Form} (fixed : form.IsBalanced) {value literal : String}
    (written : ofForm? value form = some literal) : Balanced literal.toList := by
  cases form with
  | integer bits before after =>
      obtain ⟨number, -, rfl⟩ := Option.map_eq_some_iff.mp written
      rw [String.toList_append, String.toList_append]
      exact (fixed.1.append (balanced_of_plain fun char => isPlain_of_mem_toString)).append fixed.2
  | floating format suffix =>
      obtain ⟨numeral, -, converted⟩ := Option.bind_eq_some_iff.mp written
      obtain ⟨chars, rendered, rfl⟩ := Option.map_eq_some_iff.mp converted
      rw [String.toList_append, String.toList_ofList]
      exact (balanced_of_plain fun char =>
        Decimal.isPlain_of_mem_canonicalText? rendered).append fixed
  | boolean =>
      simp only [ofForm?, boolean?] at written
      split at written
      next word =>
        obtain rfl := Option.some.inj written
        rw [String.toList_ofList]
        rcases word with word | word
        · rw [word]
          rfl
        · rw [word]
          rfl
      next => cases written
  | character =>
      obtain ⟨chars, denoted, rfl⟩ := Option.map_eq_some_iff.mp written
      rw [String.toList_ofList]
      exact balanced_charLiteral denoted
  | text =>
      obtain rfl := Option.some.inj written
      exact balanced_quote value

/-- Every literal of a clean type is balanced, whatever its text. -/
theorem balanced_ofText {system : TypeSystem} {value : String} {target : TypeName}
    (clean : target.IsClean) {literal : Fragment}
    (converted : ofText system value target = .ok literal) : literal.Balanced := by
  unfold ofText at converted
  dsimp only at converted
  split at converted
  next found written =>
    cases converted
    split at written
    next form known =>
      obtain ⟨text, formed, rfl⟩ := Option.map_eq_some_iff.mp written
      have fixed := isBalanced_forms _ (mem_of_lookup known)
      exact Fragment.moves_text (balanced_ofForm? fixed formed)
    next =>
      unfold constant? at written
      dsimp only at written
      split at written
      next constant =>
        obtain rfl := Option.some.inj written
        have point : Balanced ".".toList := rfl
        have named : ∀ char ∈ Text.trim value.toList, isNameChar char = true :=
          fun char mem => Text.isNameChar_of_mem_identifier constant.2 mem
        refine (Fragment.balanced_type clean).append (Fragment.moves_text ?_)
        rw [String.toList_append]
        refine point.append ?_
        rw [String.toList_ofList]
        exact balanced_of_isNameChar named
      next => cases written
  next => cases converted

end Literal
end Wiring
