import Wiring.Decimal.Numeral

/-!
# Integer numerals

An integer is spelled by an optional sign and one or more digits; leading zeros and a superfluous
sign are allowed, so many numerals spell one number.  The numeral that is written for a number is
the only shortest one of them.
-/

namespace Wiring
namespace Decimal

variable {chars digits : List Char} {number : Int} {magnitude : Nat}

/-- Whether characters are one or more decimal digits. -/
structure AreDigits (chars : List Char) : Prop where
  /-- There is a digit. -/
  nonempty : chars ≠ []
  /-- There is nothing but digits. -/
  digits : ∀ char ∈ chars, char.isDigit = true

/-- Whether characters are an optional sign and digits that stand for a number. -/
inductive Spells : List Char → Int → Prop
  | unsigned {digits : List Char} (all : AreDigits digits) :
      Spells digits (Nat.ofDigitChars 10 digits 0)
  | plus {digits : List Char} (all : AreDigits digits) :
      Spells ('+' :: digits) (Nat.ofDigitChars 10 digits 0)
  | minus {digits : List Char} (all : AreDigits digits) :
      Spells ('-' :: digits) (-(Nat.ofDigitChars 10 digits 0 : Int))

/-- Whether a numeral spells a number and no shorter one does. -/
structure IsCanonical (chars : List Char) (number : Int) : Prop where
  /-- The numeral spells the number. -/
  spells : Spells chars number
  /-- No numeral of the number is shorter. -/
  shortest : ∀ other, Spells other number → chars.length ≤ other.length

/-! ### Reading numerals -/

theorem digitsValue_eq (digits : List Char) :
    digitsValue digits = Nat.ofDigitChars 10 digits 0 :=
  Nat.ofDigitChars_eq_foldl.symm

theorem natural?_eq_some_iff :
    natural? digits = some magnitude ↔
      AreDigits digits ∧ magnitude = Nat.ofDigitChars 10 digits 0 := by
  rw [natural?, digitsValue_eq]
  constructor
  · intro read
    split at read
    · cases read
    next nonempty =>
      split at read
      next all =>
        obtain rfl := Option.some.inj read
        exact ⟨⟨fun empty => nonempty (List.isEmpty_iff.mpr empty), List.all_eq_true.mp all⟩, rfl⟩
      next => cases read
  · rintro ⟨⟨nonempty, all⟩, rfl⟩
    rw [if_neg ((not_congr List.isEmpty_iff).mpr nonempty), if_pos (List.all_eq_true.mpr all)]

theorem takeSign_cases (chars : List Char) :
    (∃ rest, chars = '-' :: rest ∧ takeSign chars = (true, rest)) ∨
      (∃ rest, chars = '+' :: rest ∧ takeSign chars = (false, rest)) ∨
        takeSign chars = (false, chars) := by
  unfold takeSign
  split
  next rest => exact .inl ⟨rest, rfl, rfl⟩
  next rest => exact .inr (.inl ⟨rest, rfl, rfl⟩)
  next => exact .inr (.inr rfl)

/-- Digits have no sign in front. -/
theorem takeSign_digits (all : AreDigits digits) : takeSign digits = (false, digits) := by
  rcases takeSign_cases digits with ⟨rest, rfl, -⟩ | ⟨rest, rfl, -⟩ | unsigned
  · exact absurd (all.digits '-' (by simp)) (by decide)
  · exact absurd (all.digits '+' (by simp)) (by decide)
  · exact unsigned

theorem integer?_eq (chars : List Char) :
    integer? chars = (natural? (takeSign chars).2).map fun magnitude : Nat =>
      if (takeSign chars).1 then -(magnitude : Int) else magnitude := by
  unfold integer?
  split
  next negative digits signed =>
    rw [signed]
    cases natural? digits <;> rfl

/-- Exactly the spelled integers are read, each as the number that is spelled. -/
theorem integer?_eq_some_iff : integer? chars = some number ↔ Spells chars number := by
  rw [integer?_eq]
  constructor
  · intro read
    obtain ⟨magnitude, natural, signed⟩ := Option.map_eq_some_iff.mp read
    obtain ⟨all, rfl⟩ := natural?_eq_some_iff.mp natural
    rcases takeSign_cases chars with ⟨rest, rfl, cut⟩ | ⟨rest, rfl, cut⟩ | cut <;>
      rw [cut] at all signed <;> subst signed
    · exact .minus all
    · exact .plus all
    · exact .unsigned all
  · rintro (all | all | all)
    · rw [takeSign_digits all, natural?_eq_some_iff.mpr ⟨all, rfl⟩]
      rfl
    · rw [takeSign, natural?_eq_some_iff.mpr ⟨all, rfl⟩]
      rfl
    · rw [takeSign, natural?_eq_some_iff.mpr ⟨all, rfl⟩]
      rfl

/-! ### Writing numerals -/

theorem areDigits_toDigits (magnitude : Nat) : AreDigits (Nat.toDigits 10 magnitude) :=
  ⟨Nat.toDigits_ne_nil, fun _ => Nat.isDigit_of_mem_toDigits (by decide) (by decide)⟩

theorem exists_digitChar {digit : Char} (isDigit : digit.isDigit = true) :
    ∃ value < 10, digit = Nat.digitChar value ∧ digit.toNat - '0'.toNat = value := by
  obtain ⟨lower, upper⟩ := Char.isDigit_iff_toNat.mp isDigit
  have bounded : digit.toNat - '0'.toNat < 10 := by
    have top : '9'.toNat = 57 := rfl
    have bottom : '0'.toNat = 48 := rfl
    omega
  refine ⟨digit.toNat - '0'.toNat, bounded, Char.toNat_inj.mp ?_, rfl⟩
  rw [Nat.toNat_digitChar_of_lt_ten bounded]
  exact (Nat.add_sub_cancel' lower).symm

/-- Digits behind the numeral of a positive number make the numeral of their joint value. -/
theorem toDigits_append {magnitude : Nat} (positive : 0 < magnitude) {digits : List Char}
    (all : ∀ char ∈ digits, char.isDigit = true) :
    Nat.toDigits 10 magnitude ++ digits =
      Nat.toDigits 10 (Nat.ofDigitChars 10 digits magnitude) := by
  induction digits generalizing magnitude with
  | nil => rw [List.append_nil, Nat.ofDigitChars_nil]
  | cons digit digits ih =>
      obtain ⟨isDigit, rest⟩ := List.forall_mem_cons.mp all
      obtain ⟨value, bounded, rfl, same⟩ := exists_digitChar isDigit
      rw [Nat.ofDigitChars_cons, same, ← ih (by omega) rest,
        ← Nat.toDigits_append_toDigits (by decide) positive bounded,
        Nat.toDigits_of_lt_base bounded, List.append_assoc, List.singleton_append]

/-- Digits are the numeral of their value behind some zeros. -/
theorem AreDigits.exists_zeros (all : AreDigits digits) :
    ∃ zeros, digits =
      List.replicate zeros '0' ++ Nat.toDigits 10 (Nat.ofDigitChars 10 digits 0) := by
  obtain ⟨nonempty, all⟩ := all
  induction digits with
  | nil => exact absurd rfl nonempty
  | cons digit digits ih =>
      obtain ⟨isDigit, rest⟩ := List.forall_mem_cons.mp all
      obtain ⟨value, bounded, rfl, same⟩ := exists_digitChar isDigit
      rw [Nat.ofDigitChars_cons, same, Nat.mul_zero, Nat.zero_add]
      rcases Nat.eq_zero_or_pos value with rfl | positive
      · by_cases alone : digits = []
        · subst alone
          exact ⟨0, by simp⟩
        · obtain ⟨zeros, padded⟩ := ih alone rest
          exact ⟨zeros + 1, congrArg ('0' :: ·) padded⟩
      · refine ⟨0, ?_⟩
        rw [← toDigits_append positive rest, Nat.toDigits_of_lt_base bounded]
        rfl

/-- Digits are at least as long as the numeral of their value, and equal to it if not longer. -/
theorem AreDigits.toDigits_shortest (all : AreDigits digits) :
    (Nat.toDigits 10 (Nat.ofDigitChars 10 digits 0)).length ≤ digits.length ∧
      (digits.length ≤ (Nat.toDigits 10 (Nat.ofDigitChars 10 digits 0)).length →
        digits = Nat.toDigits 10 (Nat.ofDigitChars 10 digits 0)) := by
  obtain ⟨zeros, padded⟩ := all.exists_zeros
  have lengths := congrArg List.length padded
  rw [List.length_append, List.length_replicate] at lengths
  refine ⟨by omega, fun short => ?_⟩
  obtain rfl : zeros = 0 := by omega
  exact padded

theorem toList_toString_natCast (magnitude : Nat) :
    (toString (magnitude : Int)).toList = Nat.toDigits 10 magnitude := by
  have written : toString (magnitude : Int) = toString magnitude := rfl
  rw [written, Nat.toString_eq_ofList_toDigits, String.toList_ofList]

theorem toList_toString_neg (magnitude : Nat) :
    (toString (-((magnitude + 1 : Nat) : Int))).toList =
      '-' :: Nat.toDigits 10 (magnitude + 1) := by
  have written : toString (-((magnitude + 1 : Nat) : Int)) = "-" ++ toString (magnitude + 1) := rfl
  have sign : "-".toList = ['-'] := rfl
  rw [written, String.toList_append, sign, Nat.toString_eq_ofList_toDigits, String.toList_ofList,
    List.singleton_append]

theorem spells_toString (number : Int) : Spells (toString number).toList number := by
  cases number with
  | ofNat magnitude =>
      have spelled := Spells.unsigned (areDigits_toDigits magnitude)
      rw [Nat.ofDigitChars_ten_toDigits, ← toList_toString_natCast] at spelled
      exact spelled
  | negSucc magnitude =>
      have spelled := Spells.minus (areDigits_toDigits (magnitude + 1))
      rw [Nat.ofDigitChars_ten_toDigits, ← toList_toString_neg] at spelled
      exact spelled

/-- A numeral is at least as long as the one written for its number, and equal to it if it is not
longer. -/
theorem Spells.toString_shortest (spelled : Spells chars number) :
    (toString number).toList.length ≤ chars.length ∧
      (chars.length ≤ (toString number).toList.length → chars = (toString number).toList) := by
  cases spelled with
  | unsigned all =>
      rw [toList_toString_natCast]
      exact all.toDigits_shortest
  | @plus digits all =>
      rw [toList_toString_natCast, List.length_cons]
      have shorter := all.toDigits_shortest.1
      exact ⟨by omega, fun short => by omega⟩
  | @minus digits all =>
      have shorter := all.toDigits_shortest
      cases value : Nat.ofDigitChars 10 digits 0 with
      | zero =>
          have unsigned : -((0 : Nat) : Int) = (0 : Nat) := rfl
          rw [value] at shorter
          rw [unsigned, toList_toString_natCast, List.length_cons]
          exact ⟨by omega, fun short => by omega⟩
      | succ magnitude =>
          rw [value] at shorter
          rw [toList_toString_neg, List.length_cons, List.length_cons]
          refine ⟨by omega, fun short => ?_⟩
          rw [← shorter.2 (by omega)]

/-- The numeral written for a number is its only canonical one. -/
theorem isCanonical_iff : IsCanonical chars number ↔ chars = (toString number).toList := by
  constructor
  · rintro ⟨spelled, shortest⟩
    exact spelled.toString_shortest.2 (shortest _ (spells_toString number))
  · rintro rfl
    exact ⟨spells_toString number, fun _ spelled => spelled.toString_shortest.1⟩

end Decimal
end Wiring
