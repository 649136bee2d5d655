import Mathlib.Data.List.Basic
import Mathlib.Data.List.TakeWhile
import Wiring.Proofs.IntegerNumerals
import Wiring.Registration.Literal

/-!
# Literals of integers, truth values and characters

A text is accepted as a literal of an integer type exactly if it spells a number of the type between
blanks, and the literal is the canonical numeral of that number with the cast or suffix of the type.
Truth values are the two words, and a character literal reads back as the one character given.
-/

namespace Wiring

/-! ### Blanks at the ends -/

namespace Text

/-- Whether characters are what is left when the blanks at both ends of others are taken away. -/
structure IsTrimmed (chars trimmed : List Char) : Prop where
  /-- Nothing but blanks is taken away. -/
  cut : ∃ before after, chars = before ++ trimmed ++ after ∧
    (∀ char ∈ before, isBlank char = true) ∧ ∀ char ∈ after, isBlank char = true
  /-- What is left does not begin with a blank. -/
  first : ∀ char ∈ trimmed.head?, isBlank char = false
  /-- What is left does not end with a blank. -/
  last : ∀ char ∈ trimmed.getLast?, isBlank char = false

variable {chars trimmed before rest : List Char}

theorem dropWhile_isBlank_append (blank : ∀ char ∈ before, isBlank char = true)
    (first : ∀ char ∈ rest.head?, isBlank char = false) :
    (before ++ rest).dropWhile isBlank = rest := by
  rw [List.dropWhile_append_of_pos blank]
  cases rest with
  | nil => rfl
  | cons char rest =>
      exact List.dropWhile_cons_of_neg (Bool.eq_false_iff.mp (first char rfl))

theorem IsTrimmed.eq_trim (isTrimmed : IsTrimmed chars trimmed) : trimmed = trim chars := by
  obtain ⟨⟨before, after, rfl, blank, blank'⟩, first, last⟩ := isTrimmed
  unfold trim
  by_cases empty : trimmed = []
  · subst empty
    have gone : (before ++ [] ++ after).dropWhile isBlank = [] := by
      simpa [List.dropWhile_eq_nil_iff, or_imp, forall_and] using ⟨blank, blank'⟩
    rw [gone]
    rfl
  · have front : (before ++ trimmed ++ after).dropWhile isBlank = trimmed ++ after := by
      rw [List.append_assoc]
      refine dropWhile_isBlank_append blank fun char mem => first char ?_
      rwa [List.head?_append_of_ne_nil _ empty] at mem
    have back : (after.reverse ++ trimmed.reverse).dropWhile isBlank = trimmed.reverse := by
      refine dropWhile_isBlank_append (fun char mem => blank' char (List.mem_reverse.mp mem))
        fun char mem => last char ?_
      rwa [List.head?_reverse] at mem
    rw [front, List.reverse_append, back, List.reverse_reverse]

theorem isTrimmed_trim (chars : List Char) : IsTrimmed chars (trim chars) := by
  have front : chars.takeWhile isBlank ++ chars.dropWhile isBlank = chars :=
    List.takeWhile_append_dropWhile
  have back : trim chars ++ ((chars.dropWhile isBlank).reverse.takeWhile isBlank).reverse =
      chars.dropWhile isBlank := by
    rw [trim, ← List.reverse_append, List.takeWhile_append_dropWhile, List.reverse_reverse]
  constructor
  · refine ⟨chars.takeWhile isBlank,
      ((chars.dropWhile isBlank).reverse.takeWhile isBlank).reverse, ?_, ?_, ?_⟩
    · rw [List.append_assoc, back, front]
    · exact fun char => List.mem_takeWhile_imp
    · exact fun char mem => List.mem_takeWhile_imp (List.mem_reverse.mp mem)
  · intro char mem
    have begins : char ∈ (chars.dropWhile isBlank).head? := by
      rw [← back, List.head?_append, Option.mem_def.mp mem]
      rfl
    have first := List.head?_dropWhile_not isBlank chars
    rwa [Option.mem_def.mp begins] at first
  · intro char mem
    rw [trim, List.getLast?_reverse] at mem
    have last := List.head?_dropWhile_not isBlank (chars.dropWhile isBlank).reverse
    rwa [Option.mem_def.mp mem] at last

/-- Trimming takes away the blanks at both ends and nothing else. -/
theorem isTrimmed_iff : IsTrimmed chars trimmed ↔ trimmed = trim chars :=
  ⟨IsTrimmed.eq_trim, fun same => same ▸ isTrimmed_trim chars⟩

/-! ### Character literals -/

/-- Letters that stand for characters behind a backslash. -/
def escapeLetters : List (Char × Char) :=
  [('b', '\x08'), ('s', ' '), ('t', '\t'), ('n', '\n'), ('f', '\x0c'), ('r', '\r'), ('"', '"'),
    ('\'', '\''), ('\\', '\\')]

/-- Character of a simple escape: one letter. -/
def simpleEscape? : List Char → Option Char
  | [letter] => escapeLetters.lookup letter
  | _ => none

/-- Whether a character is an octal digit. -/
def isOctalDigit (char : Char) : Bool := '0' ≤ char && char ≤ '7'

/-- Character of an octal escape: one to three octal digits of value at most `377`. -/
def octalEscape? (digits : List Char) : Option Char :=
  if (1 ≤ digits.length ∧ digits.length ≤ 3) ∧ digits.all isOctalDigit = true ∧
      Nat.ofDigitChars 8 digits 0 ≤ 0o377 then
    some (Char.ofNat (Nat.ofDigitChars 8 digits 0))
  else
    none

/-- Character that stands between the quotes of a character literal, as itself or escaped. -/
def denotedChar? : List Char → Option Char
  | '\\' :: escape => (octalEscape? escape).or (simpleEscape? escape)
  | [char] =>
      if char ∈ ['\'', '\n', '\r'] ∨ 0xffff < char.toNat then none else some char
  | _ => none

/-- Character that a character literal denotes. -/
def readCharLiteral? : List Char → Option Char
  | '\'' :: rest =>
      match rest.getLast? with
      | some '\'' => denotedChar? rest.dropLast
      | _ => none
  | _ => none

theorem readCharLiteral?_quoted (body : List Char) :
    readCharLiteral? ('\'' :: body ++ ['\'']) = denotedChar? body := by
  simp [readCharLiteral?]

theorem isOctalDigit_digitChar : ∀ value < 8, isOctalDigit (Nat.digitChar value) = true := by
  decide

theorem isOctalDigit_of_mem_toDigits {code : Nat} {digit : Char}
    (mem : digit ∈ Nat.toDigits 8 code) : isOctalDigit digit = true := by
  induction code using Nat.strongRecOn with
  | ind code ih =>
      rw [Nat.toDigits_eq_if (by decide)] at mem
      split at mem
      next small =>
        obtain rfl := List.mem_singleton.mp mem
        exact isOctalDigit_digitChar code small
      next large =>
        rcases List.mem_append.mp mem with front | last
        · exact ih (code / 8) (by omega) front
        · obtain rfl := List.mem_singleton.mp last
          exact isOctalDigit_digitChar (code % 8) (Nat.mod_lt code (by decide))

/-- The octal numeral of a code up to `377` is an octal escape of the character with this code. -/
theorem octalEscape?_toDigits {code : Nat} (small : code ≤ 0o377) :
    octalEscape? (Nat.toDigits 8 code) = some (Char.ofNat code) := by
  have value : Nat.ofDigitChars 8 (Nat.toDigits 8 code) 0 = code :=
    Nat.ofDigitChars_toDigits (by decide) (by decide)
  have short : (Nat.toDigits 8 code).length ≤ 3 :=
    (Nat.length_toDigits_le_iff (by decide) (by decide)).mpr (by omega)
  have digits : (Nat.toDigits 8 code).all isOctalDigit = true :=
    List.all_eq_true.mpr fun _ => isOctalDigit_of_mem_toDigits
  rw [octalEscape?, value, if_pos ⟨⟨Nat.length_toDigits_pos, short⟩, digits, small⟩]

theorem denotedChar?_charLiteralBody {char : Char} (plane : char.toNat < 0x10000) :
    denotedChar? (charLiteralBody char) = some char := by
  unfold charLiteralBody
  split
  · rfl
  · rfl
  · rfl
  · rfl
  · rfl
  next quote backslash newline carriage tab =>
    split
    next control =>
      have small : char.toNat ≤ 0o377 := by
        simp only [isControl, Bool.or_eq_true, Bool.and_eq_true, decide_eq_true_eq] at control
        omega
      rw [denotedChar?, octalEscape?_toDigits small, Option.some_or, Char.ofNat_toNat]
    next =>
      have plain : ¬ (char ∈ ['\'', '\n', '\r'] ∨ 0xffff < char.toNat) := by
        rintro (special | outside)
        · simp only [List.mem_cons, List.not_mem_nil, or_false] at special
          rcases special with same | same | same
          · exact quote same
          · exact newline same
          · exact carriage same
        · omega
      simp only [denotedChar?]
      rw [if_neg plain]

theorem charLiteral?_eq_some_iff {chars literal : List Char} :
    charLiteral? chars = some literal ↔ ∃ char, chars = [char] ∧ char.toNat < 0x10000 ∧
      literal = '\'' :: charLiteralBody char ++ ['\''] := by
  constructor
  · intro written
    unfold charLiteral? at written
    split at written
    next char =>
      split at written
      next plane => exact ⟨char, rfl, plane, (Option.some.inj written).symm⟩
      next => cases written
    next => cases written
  · rintro ⟨char, rfl, plane, rfl⟩
    exact if_pos plane

/-- A character literal is written for the characters of the basic multilingual plane alone, and
reads back as the character it was written for. -/
theorem readCharLiteral?_of_charLiteral? {char : Char} {literal : List Char}
    (written : charLiteral? [char] = some literal) : readCharLiteral? literal = some char := by
  obtain ⟨other, same, plane, rfl⟩ := charLiteral?_eq_some_iff.mp written
  obtain rfl := List.singleton_inj.mp same
  rw [readCharLiteral?_quoted, denotedChar?_charLiteralBody plane]

end Text

namespace Literal

/-! ### Target types -/

/-- Primitive types of signed integers. -/
inductive IntegerType where
  | byte
  | short
  | int
  | long
  deriving DecidableEq, Repr

namespace IntegerType

/-- Number of bits. -/
def width : IntegerType → Nat
  | byte => 8
  | short => 16
  | int => 32
  | long => 64

/-- Names of the primitive type and of the class that wraps it. -/
def names : IntegerType → List String
  | byte => ["byte", "java.lang.Byte"]
  | short => ["short", "java.lang.Short"]
  | int => ["int", "java.lang.Integer"]
  | long => ["long", "java.lang.Long"]

/-- Cast in front of a numeral. -/
def cast : IntegerType → String
  | byte => "(byte) "
  | short => "(short) "
  | int => ""
  | long => ""

/-- Suffix behind a numeral. -/
def suffix : IntegerType → String
  | long => "L"
  | _ => ""

/-- Two to the number of bits beside the sign. -/
def limit (type : IntegerType) : Int := Int.pow 2 (type.width - 1)

/-- Whether a number has a representation in two's complement. -/
def Holds (type : IntegerType) (number : Int) : Prop :=
  -type.limit ≤ number ∧ number ≤ type.limit - 1

instance (type : IntegerType) (number : Int) : Decidable (type.Holds number) :=
  inferInstanceAs (Decidable (_ ∧ _))

/-- Whether a text spells a number of the type, up to blanks at both ends. -/
def Accepts (type : IntegerType) (value : String) (number : Int) : Prop :=
  type.Holds number ∧
    ∃ numeral, Text.IsTrimmed value.toList numeral ∧ Decimal.Spells numeral number

/-- Whether a text is the canonical numeral of a number with the cast and suffix of the type. -/
def Writes (type : IntegerType) (number : Int) (text : String) : Prop :=
  ∃ canonical, Decimal.IsCanonical canonical number ∧
    text = type.cast ++ String.ofList canonical ++ type.suffix

variable {type : IntegerType} {number : Int} {text : String}

theorem lookup_forms (type : IntegerType) :
    ∀ name ∈ type.names,
      forms.lookup name = some (.integer type.width type.cast type.suffix) := by
  cases type <;> decide

theorem accepts_iff {value : String} :
    type.Accepts value number ↔
      type.Holds number ∧ Decimal.Spells (Text.trim value.toList) number := by
  simp only [Accepts, Text.isTrimmed_iff, exists_eq_left]

theorem fits_iff : fits type.width number = true ↔ type.Holds number := by
  have power : (bound type.width : Int) = type.limit := by
    cases type <;> rfl
  rw [fits, Holds, Bool.and_eq_true, decide_eq_true_eq, decide_eq_true_eq, power]
  omega

theorem writes_iff :
    type.Writes number text ↔ text = type.cast ++ toString number ++ type.suffix := by
  constructor
  · rintro ⟨canonical, isCanonical, rfl⟩
    rw [Decimal.isCanonical_iff.mp isCanonical, String.ofList_toList]
  · rintro rfl
    exact ⟨(toString number).toList, Decimal.isCanonical_iff.mpr rfl, by rw [String.ofList_toList]⟩

end IntegerType

/-- Words of the two truth values. -/
def truthWords : List String := ["true", "false"]

/-! ### Conversions -/

variable {system : TypeSystem} {value : String} {target : TypeName} {literal : Fragment}

/-- A text with a target of a known form is converted as this form says. -/
theorem ofText_eq_ok_iff {form : Form} (known : forms.lookup target.text = some form) :
    ofText system value target = .ok literal ↔
      ∃ text, ofForm? value form = some text ∧ literal = .text text := by
  simp only [ofText, known]
  cases ofForm? value form with
  | none => simp
  | some text => simp [eq_comm]

theorem ofForm?_integer_eq_some_iff {type : IntegerType} {text : String} :
    ofForm? value (.integer type.width type.cast type.suffix) = some text ↔
      ∃ number, type.Accepts value number ∧ type.Writes number text := by
  rw [ofForm?, integer?, Option.map_eq_some_iff]
  refine exists_congr fun number => ?_
  rw [Option.filter_eq_some_iff, Decimal.integer?_eq_some_iff, IntegerType.fits_iff,
    IntegerType.accepts_iff, IntegerType.writes_iff, eq_comm (b := text),
    and_comm (b := type.Holds _)]

theorem ofForm?_boolean_eq_some_iff {text : String} :
    ofForm? value .boolean = some text ↔
      text ∈ truthWords ∧ Text.IsTrimmed value.toList text.toList := by
  rw [ofForm?, boolean?, Text.isTrimmed_iff, truthWords, List.mem_pair]
  constructor
  · intro written
    split at written
    next word =>
      obtain rfl := Option.some.inj written
      rw [String.toList_ofList]
      refine ⟨?_, rfl⟩
      rcases word with word | word
      · exact .inl (by rw [word, String.ofList_toList])
      · exact .inr (by rw [word, String.ofList_toList])
    next => cases written
  · rintro ⟨rfl | rfl, same⟩
    · rw [← same, if_pos (.inl rfl), String.ofList_toList]
    · rw [← same, if_pos (.inr rfl), String.ofList_toList]

theorem ofText_integer_eq_ok_iff {type : IntegerType} (named : target.text ∈ type.names) :
    ofText system value target = .ok literal ↔
      ∃ number text, type.Accepts value number ∧ type.Writes number text ∧ literal = .text text := by
  rw [ofText_eq_ok_iff (type.lookup_forms _ named)]
  simp only [ofForm?_integer_eq_some_iff]
  constructor
  · rintro ⟨text, ⟨number, accepts, writes⟩, written⟩
    exact ⟨number, text, accepts, writes, written⟩
  · rintro ⟨number, text, accepts, writes, written⟩
    exact ⟨text, ⟨number, accepts, writes⟩, written⟩

theorem ofText_boolean_eq_ok_iff (known : forms.lookup target.text = some .boolean) :
    ofText system value target = .ok literal ↔
      ∃ text ∈ truthWords, Text.IsTrimmed value.toList text.toList ∧ literal = .text text := by
  rw [ofText_eq_ok_iff known]
  simp only [ofForm?_boolean_eq_some_iff, and_assoc]

theorem ofText_character_eq_ok_iff (known : forms.lookup target.text = some .character) :
    ofText system value target = .ok literal ↔
      ∃ quoted, Text.charLiteral? value.toList = some quoted ∧
        literal = .text (String.ofList quoted) := by
  rw [ofText_eq_ok_iff known, ofForm?]
  constructor
  · rintro ⟨text, mapped, rfl⟩
    obtain ⟨quoted, written, rfl⟩ := Option.map_eq_some_iff.mp mapped
    exact ⟨quoted, written, rfl⟩
  · rintro ⟨quoted, written, rfl⟩
    exact ⟨_, Option.map_eq_some_iff.mpr ⟨quoted, written, rfl⟩, rfl⟩

/-- Characters of the basic multilingual plane have literals, and no other texts have. -/
theorem exists_ofText_character_iff (known : forms.lookup target.text = some .character) :
    (∃ literal, ofText system value target = .ok literal) ↔
      ∃ char : Char, value.toList = [char] ∧ char.toNat < 0x10000 := by
  simp only [ofText_character_eq_ok_iff known]
  constructor
  · rintro ⟨_, quoted, written, -⟩
    obtain ⟨char, single, plane, -⟩ := Text.charLiteral?_eq_some_iff.mp written
    exact ⟨char, single, plane⟩
  · rintro ⟨char, single, plane⟩
    exact ⟨_, _, Text.charLiteral?_eq_some_iff.mpr ⟨char, single, plane, rfl⟩, rfl⟩

theorem readCharLiteral?_of_ofText (known : forms.lookup target.text = some .character)
    (accepted : ofText system value target = .ok literal) :
    ∃ char text, value.toList = [char] ∧ literal = .text text ∧
      Text.readCharLiteral? text.toList = some char := by
  obtain ⟨quoted, written, rfl⟩ := (ofText_character_eq_ok_iff known).mp accepted
  obtain ⟨char, single, -, -⟩ := Text.charLiteral?_eq_some_iff.mp written
  rw [single] at written
  refine ⟨char, _, single, rfl, ?_⟩
  rw [String.toList_ofList]
  exact Text.readCharLiteral?_of_charLiteral? written

/-- Texts are accepted as integers, truth values and characters exactly where they spell one, and
the literal denotes the value that was spelled. -/
theorem ofText_denotes (system : TypeSystem) (value : String) :
    (∀ type : IntegerType, ∀ name ∈ type.names, ∀ literal,
      ofText system value ⟨name⟩ = .ok literal ↔ ∃ number text,
        type.Accepts value number ∧ type.Writes number text ∧ literal = .text text) ∧
      (∀ name ∈ ["boolean", "java.lang.Boolean"], ∀ literal,
        ofText system value ⟨name⟩ = .ok literal ↔
          ∃ text ∈ truthWords, Text.IsTrimmed value.toList text.toList ∧ literal = .text text) ∧
      ∀ name ∈ ["char", "java.lang.Character"],
        ((∃ literal, ofText system value ⟨name⟩ = .ok literal) ↔
          ∃ char : Char, value.toList = [char] ∧ char.toNat < 0x10000) ∧
        ∀ literal, ofText system value ⟨name⟩ = .ok literal → ∃ char text,
          value.toList = [char] ∧ literal = .text text ∧
            Text.readCharLiteral? text.toList = some char := by
  have truths : ∀ name ∈ ["boolean", "java.lang.Boolean"], forms.lookup name = some .boolean := by
    decide
  have characters :
      ∀ name ∈ ["char", "java.lang.Character"], forms.lookup name = some .character := by
    decide
  refine ⟨fun type name named literal => ofText_integer_eq_ok_iff named,
    fun name named literal => ofText_boolean_eq_ok_iff (truths name named), fun name named => ?_⟩
  have known := characters name named
  exact ⟨exists_ofText_character_iff known, fun literal => readCharLiteral?_of_ofText known⟩

/-- The least byte is spelled with a leading zero between blanks, one less is no byte, and the bell
is read back from its octal escape. -/
theorem ofText_denotes_samples :
    ofText .empty " -0128\n" ⟨"java.lang.Byte"⟩ = .ok (.text "(byte) -128") ∧
      (¬ ∃ literal, ofText .empty "-129" ⟨"byte"⟩ = .ok literal) ∧
      ofText .empty "\ttrue " ⟨"boolean"⟩ = .ok (.text "true") ∧
      (∃ literal, ofText .empty "\x07" ⟨"char"⟩ = .ok literal) ∧
      ∀ literal, ofText .empty "\x07" ⟨"char"⟩ = .ok literal →
        ∃ text, literal = .text text ∧ Text.readCharLiteral? text.toList = some '\x07' := by
  obtain ⟨integers, -, -⟩ := ofText_denotes .empty " -0128\n"
  obtain ⟨outside, -, -⟩ := ofText_denotes .empty "-129"
  obtain ⟨-, truths, -⟩ := ofText_denotes .empty "\ttrue "
  obtain ⟨-, -, characters⟩ := ofText_denotes .empty "\x07"
  obtain ⟨bell, back⟩ := characters "char" (by decide)
  refine ⟨?_, ?_, ?_, bell.mpr ⟨'\x07', rfl, by decide⟩, fun literal accepted => ?_⟩
  · have holds : IntegerType.byte.Holds (-128) := by decide
    have spelled : Decimal.Spells (Text.trim " -0128\n".toList) (-128) :=
      Decimal.integer?_eq_some_iff.mp (by decide)
    have accepts : IntegerType.byte.Accepts " -0128\n" (-128) :=
      IntegerType.accepts_iff.mpr ⟨holds, spelled⟩
    exact (integers .byte _ (by decide) _).mpr
      ⟨-128, _, accepts, IntegerType.writes_iff.mpr (by decide), rfl⟩
  · rintro ⟨literal, accepted⟩
    obtain ⟨number, -, accepts, -⟩ := (outside .byte _ (by decide) literal).mp accepted
    obtain ⟨holds, spelled⟩ := IntegerType.accepts_iff.mp accepts
    have read : Decimal.integer? (Text.trim "-129".toList) = some (-129) := by decide
    obtain rfl : -129 = number :=
      Option.some.inj (read.symm.trans (Decimal.integer?_eq_some_iff.mpr spelled))
    exact absurd holds (by decide)
  · exact (truths _ (by decide) _).mpr ⟨"true", by decide, Text.isTrimmed_iff.mpr (by decide), rfl⟩
  · obtain ⟨char, text, single, written, read⟩ := back literal accepted
    obtain rfl : '\x07' = char := List.singleton_inj.mp single
    exact ⟨text, written, read⟩

end Literal
end Wiring
