import Mathlib.Logic.ExistsUnique
import Wiring.Proofs.FragmentLaws
import Wiring.Proofs.Rendering

/-!
# Reading format strings

From left to right, a format string reads in exactly one way as pairs of dollar signs, placeholders
and plain characters.  Its expansion is the code of these tokens, with each placeholder filled by
the argument of the same number, so format strings are expanded piece by piece.
-/

namespace Wiring

/-- Letter of a placeholder. -/
def Placeholder.letter : Placeholder → Char
  | type => 'T'
  | string => 'S'
  | literal => 'L'
  | name => 'N'

theorem Placeholder.ofChar?_eq_some_iff {char : Char} {placeholder : Placeholder} :
    ofChar? char = some placeholder ↔ char = placeholder.letter := by
  constructor
  · intro known
    unfold ofChar? at known
    split at known
    · cases known
      rfl
    · cases known
      rfl
    · cases known
      rfl
    · cases known
      rfl
    · cases known
  · rintro rfl
    cases placeholder <;> rfl

theorem Placeholder.letter_ne (placeholder : Placeholder) : placeholder.letter ≠ '$' := by
  cases placeholder <;> decide

theorem Placeholder.eq_of_letter_eq {first second : Placeholder}
    (same : first.letter = second.letter) : first = second :=
  Option.some.inj ((ofChar?_eq_some_iff.mpr rfl).symm.trans (ofChar?_eq_some_iff.mpr same))

/-- Smallest part of a format string that means something. -/
inductive FormatToken where
  /-- Two dollar signs, which stand for one. -/
  | pair
  /-- A dollar sign with the letter of a placeholder. -/
  | placeholder (kind : Placeholder)
  /-- A character that stands for itself. -/
  | plain (char : Char)
  deriving DecidableEq, Repr

namespace FormatToken

/-- Whether a character after a dollar sign gives it a meaning. -/
def Continues (next : Char) : Prop := next = '$' ∨ ∃ kind : Placeholder, next = kind.letter

/-- Tokens as which a format string reads from left to right. -/
inductive ReadsAs : List Char → List FormatToken → Prop where
  | nil : ReadsAs [] []
  | pair {rest : List Char} {tokens : List FormatToken} (others : ReadsAs rest tokens) :
      ReadsAs ('$' :: '$' :: rest) (.pair :: tokens)
  | placeholder {letter : Char} {rest : List Char} {kind : Placeholder}
      {tokens : List FormatToken} (known : letter = kind.letter) (others : ReadsAs rest tokens) :
      ReadsAs ('$' :: letter :: rest) (.placeholder kind :: tokens)
  /-- A dollar sign stands for itself where the next character gives it no meaning. -/
  | plain {char : Char} {rest : List Char} {tokens : List FormatToken}
      (alone : char = '$' → ∀ next ∈ rest.head?, ¬ Continues next) (others : ReadsAs rest tokens) :
      ReadsAs (char :: rest) (.plain char :: tokens)

/-- Whether a token takes an argument. -/
def isPlaceholder : FormatToken → Bool
  | placeholder _ => true
  | _ => false

/-- Code of a token; a placeholder is filled by its argument, and kept without one. -/
def code (argument? : Option Argument) : FormatToken → Fragment
  | pair => .text "$"
  | plain char => .char char
  | placeholder kind =>
      match argument? with
      | some argument => kind.fill argument
      | none => .text (String.ofList ['$', kind.letter])

/-- Codes of tokens, the first placeholder of which takes the argument at the given position. -/
def codes (arguments : List Argument) : Nat → List FormatToken → List Fragment
  | _, [] => []
  | position, token :: rest =>
      token.code arguments[position]? ::
        codes arguments (position + if token.isPlaceholder then 1 else 0) rest

/-! ### The reading of a format string -/

variable {chars rest : List Char} {tokens others : List FormatToken}

/-- Every format string reads as some tokens. -/
theorem exists_readsAs : ∀ chars : List Char, ∃ tokens, ReadsAs chars tokens
  | [] => ⟨[], .nil⟩
  | [char] => ⟨[.plain char], .plain (fun _ => nofun) .nil⟩
  | char :: next :: rest => by
      by_cases meant : char = '$' ∧ Continues next
      · obtain ⟨rfl, rfl | ⟨kind, rfl⟩⟩ := meant
        · obtain ⟨tokens, reads⟩ := exists_readsAs rest
          exact ⟨.pair :: tokens, .pair reads⟩
        · obtain ⟨tokens, reads⟩ := exists_readsAs rest
          exact ⟨.placeholder kind :: tokens, .placeholder rfl reads⟩
      · obtain ⟨tokens, reads⟩ := exists_readsAs (next :: rest)
        refine ⟨.plain char :: tokens, .plain (fun dollar other mem continues => ?_) reads⟩
        obtain rfl := Option.some.inj mem
        exact meant ⟨dollar, continues⟩

/-- A format string reads in one way only. -/
theorem ReadsAs.unique (reads : ReadsAs chars tokens) (reads' : ReadsAs chars others) :
    tokens = others := by
  induction reads generalizing others with
  | nil =>
      cases reads'
      rfl
  | pair _ ih =>
      cases reads' with
      | pair behind => rw [ih behind]
      | placeholder known _ => exact absurd known.symm (Placeholder.letter_ne _)
      | plain alone _ => exact absurd (.inl rfl) (alone rfl '$' rfl)
  | placeholder known _ ih =>
      cases reads' with
      | pair _ => exact absurd known.symm (Placeholder.letter_ne _)
      | placeholder known' behind =>
          rw [ih behind, Placeholder.eq_of_letter_eq (known.symm.trans known')]
      | plain alone _ => exact absurd (.inr ⟨_, known⟩) (alone rfl _ rfl)
  | plain alone _ ih =>
      cases reads' with
      | pair _ => exact absurd (.inl rfl) (alone rfl '$' rfl)
      | placeholder known _ => exact absurd (.inr ⟨_, known⟩) (alone rfl _ rfl)
      | plain _ behind => rw [ih behind]

/-- Whether the last token is a dollar sign that stands for itself. -/
def EndsUnpaired (tokens : List FormatToken) : Prop := tokens.getLast? = some (.plain '$')

instance (tokens : List FormatToken) : Decidable (EndsUnpaired tokens) :=
  inferInstanceAs (Decidable (_ = _))

theorem EndsUnpaired.cons (ends : EndsUnpaired tokens) (token : FormatToken) :
    EndsUnpaired (token :: tokens) := by
  rw [EndsUnpaired, List.getLast?_cons, ends]
  rfl

/-- Readings can be put together, unless the first ends in an unpaired dollar sign. -/
theorem ReadsAs.append (reads : ReadsAs chars tokens) (paired : ¬ EndsUnpaired tokens)
    (reads' : ReadsAs rest others) : ReadsAs (chars ++ rest) (tokens ++ others) := by
  induction reads with
  | nil => exact reads'
  | pair _ ih => exact .pair (ih fun ends => paired (ends.cons _))
  | placeholder known _ ih => exact .placeholder known (ih fun ends => paired (ends.cons _))
  | @plain char behind tokens alone reads ih =>
      refine .plain (fun dollar next mem => ?_) (ih fun ends => paired (ends.cons _))
      cases behind with
      | nil =>
          -- The dollar sign is the last character, which `paired` excludes.
          cases reads
          exact absurd (by rw [dollar]; rfl) paired
      | cons first behind => exact alone dollar next mem

/-! ### Expansion -/

/-- A dollar sign stands for itself where the next character gives it no meaning. -/
theorem expand_plain {char : Char} (alone : char = '$' → ∀ next ∈ rest.head?, ¬ Continues next)
    (arguments : List Argument) :
    Fragment.expand (char :: rest) arguments = .char char ++ Fragment.expand rest arguments := by
  by_cases dollar : char = '$'
  · subst dollar
    cases rest with
    | nil => rfl
    | cons next rest =>
        have meaningless := alone rfl next rfl
        have unknown : Placeholder.ofChar? next = none := by
          cases known : Placeholder.ofChar? next with
          | none => rfl
          | some kind =>
              exact absurd (.inr ⟨kind, Placeholder.ofChar?_eq_some_iff.mp known⟩) meaningless
        rw [Fragment.expand]
        · exact fun same => meaningless (.inl same)
        · exact unknown
  · exact Fragment.expand_other (fun _ _ same => absurd same dollar) arguments

theorem expand_pair (rest : List Char) (arguments : List Argument) :
    Fragment.expand ('$' :: '$' :: rest) arguments =
      .char '$' ++ Fragment.expand rest arguments := by
  rw [Fragment.expand]

theorem code_kept (kind : Placeholder) :
    code none (.placeholder kind) = .char '$' ++ .char kind.letter := by
  rw [Fragment.char, Fragment.char, Fragment.text_append]
  cases kind <;> rfl

theorem expand_placeholder (kind : Placeholder) (rest : List Char) (arguments : List Argument) :
    Fragment.expand ('$' :: kind.letter :: rest) arguments =
      code arguments.head? (.placeholder kind) ++ Fragment.expand rest arguments.tail := by
  cases arguments with
  | nil =>
      rw [List.head?_nil, code_kept]
      cases kind <;> rfl
  | cons argument others =>
      exact Fragment.expand_fill (Placeholder.ofChar?_eq_some_iff.mpr rfl) rest argument others

/-- The expansion is the code of the tokens, one after the other. -/
theorem expand_eq_concat_codes (reads : ReadsAs chars tokens) (arguments : List Argument)
    (position : Nat) :
    Fragment.expand chars (arguments.drop position) =
      .concat (codes arguments position tokens) := by
  induction reads generalizing position with
  | nil => rfl
  | pair _ ih =>
      rw [expand_pair, ih, codes, Fragment.concat_cons]
      rfl
  | placeholder known _ ih =>
      rw [known, expand_placeholder, List.head?_drop, List.tail_drop, ih, codes,
        Fragment.concat_cons, isPlaceholder, if_pos rfl]
  | plain alone _ ih =>
      rw [expand_plain alone, ih, codes, Fragment.concat_cons]
      rfl

variable {first second : List Argument} {position : Nat}

theorem codes_append (arguments : List Argument) (position : Nat)
    (tokens others : List FormatToken) :
    codes arguments position (tokens ++ others) =
      codes arguments position tokens ++
        codes arguments (position + tokens.countP isPlaceholder) others := by
  induction tokens generalizing position with
  | nil => rfl
  | cons token tokens ih =>
      rw [List.cons_append, codes, ih, codes, List.countP_cons, List.cons_append, Nat.add_assoc,
        Nat.add_comm (List.countP ..)]

/-- Arguments behind those for the placeholders are not looked at. -/
theorem codes_append_arguments
    (enough : position + tokens.countP isPlaceholder ≤ first.length) :
    codes (first ++ second) position tokens = codes first position tokens := by
  induction tokens generalizing position with
  | nil => rfl
  | cons token tokens ih =>
      rw [List.countP_cons] at enough
      have same : token.code (first ++ second)[position]? = token.code first[position]? := by
        cases token with
        | pair => rfl
        | plain char => rfl
        | placeholder kind =>
            rw [isPlaceholder, if_pos rfl] at enough
            rw [List.getElem?_append_left (by omega)]
      rw [codes, codes, same, ih (by omega)]

theorem codes_arguments_append (first second : List Argument) (position : Nat)
    (tokens : List FormatToken) :
    codes (first ++ second) (first.length + position) tokens = codes second position tokens := by
  induction tokens generalizing position with
  | nil => rfl
  | cons token tokens ih =>
      rw [codes, codes, Nat.add_assoc, ih, List.getElem?_append_right (Nat.le_add_right ..),
        Nat.add_sub_cancel_left]

/-- A format string whose placeholders take all of the first arguments is expanded on its own. -/
theorem expand_append (reads : ReadsAs chars tokens) (paired : ¬ EndsUnpaired tokens)
    (enough : tokens.countP isPlaceholder = first.length) :
    Fragment.expand (chars ++ rest) (first ++ second) =
      Fragment.expand chars first ++ Fragment.expand rest second := by
  obtain ⟨others, reads'⟩ := exists_readsAs rest
  have whole := expand_eq_concat_codes (reads.append paired reads') (first ++ second) 0
  have front := expand_eq_concat_codes reads first 0
  have back := expand_eq_concat_codes reads' second 0
  have own : codes (first ++ second) 0 tokens = codes first 0 tokens :=
    codes_append_arguments (by omega)
  have others_own : codes (first ++ second) first.length others = codes second 0 others :=
    codes_arguments_append first second 0 others
  rw [List.drop_zero] at whole front back
  rw [whole, front, back, codes_append, Fragment.concat_append, Nat.zero_add, enough, own,
    others_own]

end FormatToken

namespace Fragment

open FormatToken

/-- A format string reads in one way.  Its expansion is the code of its tokens, where each
placeholder has the argument of its own number, and parts of a format string are expanded on their
own unless a dollar sign is left over between them. -/
theorem format_eq_concat_codes (format : String) :
    (∃! tokens, ReadsAs format.toList tokens) ∧ ∀ tokens, ReadsAs format.toList tokens →
      (∀ arguments, Fragment.format format arguments = concat (codes arguments 0 tokens)) ∧
      (¬ EndsUnpaired tokens → ∀ rest first second,
        tokens.countP isPlaceholder = first.length →
          Fragment.format (format ++ rest) (first ++ second) =
            Fragment.format format first ++ Fragment.format rest second) := by
  obtain ⟨tokens, reads⟩ := exists_readsAs format.toList
  refine ⟨⟨tokens, reads, fun others reads' => reads'.unique reads⟩,
    fun tokens reads => ⟨fun arguments => ?_, fun paired rest first second enough => ?_⟩⟩
  · exact expand_eq_concat_codes reads arguments 0
  · rw [Fragment.format, String.toList_append]
    exact expand_append reads paired enough

/-- Neither the pair in front of a placeholder nor the dollar signs of an argument are taken for a
placeholder, and the last placeholder is kept. -/
theorem format_eq_concat_codes_sample :
    ReadsAs "$$T $T(".toList [.pair, .plain 'T', .plain ' ', .placeholder .type, .plain '('] ∧
      Fragment.format ("$$T $T(" ++ "$L)$S") ([.type ⟨"a.B"⟩] ++ [.text "$T$$"]) =
        Fragment.format "$$T $T(" [.type ⟨"a.B"⟩] ++ Fragment.format "$L)$S" [.text "$T$$"] ∧
      Fragment.format "$L)$S" [.text "$T$$"] = .text "$T$$)$S" := by
  have reads : ReadsAs "$$T $T(".toList
      [.pair, .plain 'T', .plain ' ', .placeholder .type, .plain '('] :=
    .pair (.plain nofun (.plain nofun (.placeholder rfl (.plain nofun .nil))))
  obtain ⟨-, parts⟩ := (format_eq_concat_codes "$$T $T(").2 _ reads
  have paired : ¬ EndsUnpaired [.pair, .plain 'T', .plain ' ', .placeholder .type, .plain '('] := by
    decide
  exact ⟨reads, parts paired "$L)$S" [.type ⟨"a.B"⟩] [.text "$T$$"] rfl, by decide⟩

end Fragment
end Wiring
