import Mathlib.Data.List.Forall2
import Mathlib.Tactic.SplitIfs
import Wiring.Json

/-!
# Texts of JSON documents

A text spells a document if it consists of the tokens of the document, with blanks anywhere between
them and each character of a string written as itself or as an escape.  The printed form is one of
the texts that spell a document.
-/

namespace Wiring
namespace Json

/-- Induction over documents, with every item of an array and every value of an object. -/
theorem induction_on {motive : Json → Prop} (bool : ∀ value, motive (.bool value))
    (string : ∀ text, motive (.string text))
    (array : ∀ items, (∀ item ∈ items, motive item) → motive (.array items))
    (object : ∀ fields, (∀ field ∈ fields, motive field.2) → motive (.object fields))
    (document : Json) : motive document :=
  match document with
  | .bool value => bool value
  | .string text => string text
  | .array items => array items fun item mem =>
      have := List.sizeOf_lt_of_mem mem
      induction_on bool string array object item
  | .object fields => object fields fun field mem =>
      have := List.sizeOf_lt_of_mem mem
      have : sizeOf field.2 < sizeOf field := by
        cases field
        simp only [Prod.mk.sizeOf_spec]
        omega
      induction_on bool string array object field.2
termination_by sizeOf document

/-! ### Characters of strings -/

/-- Value of a hexadecimal digit. -/
def hexDigit? (char : Char) : Option Nat :=
  if '0' ≤ char ∧ char ≤ '9' then some (char.toNat - '0'.toNat)
  else if 'a' ≤ char ∧ char ≤ 'f' then some (char.toNat - 'a'.toNat + 10)
  else if 'A' ≤ char ∧ char ≤ 'F' then some (char.toNat - 'A'.toNat + 10)
  else none

/-- Number that hexadecimal digits stand for. -/
def hexNumber? (digits : List Char) : Option Nat :=
  digits.foldlM (fun value digit => (hexDigit? digit).map (16 * value + ·)) 0

/-- Character for which a letter after a backslash stands. -/
def escape? : Char → Option Char
  | '"' => some '"'
  | '\\' => some '\\'
  | '/' => some '/'
  | 'b' => some '\x08'
  | 'f' => some '\x0c'
  | 'n' => some '\n'
  | 'r' => some '\r'
  | 't' => some '\t'
  | _ => none

/-- Character code for which a pair of surrogates stands. -/
def surrogateCode (high low : Nat) : Nat := 0x10000 + (high - 0xD800) * 0x400 + (low - 0xDC00)

/-- Spellings of one character inside a string. -/
inductive SpellsChar : List Char → Char → Prop where
  /-- A character other than quotes, backslashes and control characters stands for itself. -/
  | plain {char : Char} (printable : 0x20 ≤ char.toNat) (not_quote : char ≠ '"')
      (not_backslash : char ≠ '\\') : SpellsChar [char] char
  /-- A letter after a backslash may have a meaning. -/
  | escape {letter char : Char} (meaning : escape? letter = some char) :
      SpellsChar ['\\', letter] char
  /-- Four hexadecimal digits give the code of a character. -/
  | code {digits : List Char} {char : Char} (four : digits.length = 4)
      (value : hexNumber? digits = some char.toNat) : SpellsChar ('\\' :: 'u' :: digits) char
  /-- Two such codes give a character beyond the first sixteen bits. -/
  | surrogates {highDigits lowDigits : List Char} {high low : Nat} {char : Char}
      (high_four : highDigits.length = 4) (high_value : hexNumber? highDigits = some high)
      (high_range : 0xD800 ≤ high ∧ high < 0xDC00)
      (low_four : lowDigits.length = 4) (low_value : hexNumber? lowDigits = some low)
      (low_range : 0xDC00 ≤ low ∧ low < 0xE000) (value : char.toNat = surrogateCode high low) :
      SpellsChar ('\\' :: 'u' :: highDigits ++ '\\' :: 'u' :: lowDigits) char

/-- Spellings of the characters of a string. -/
inductive SpellsText : List Char → List Char → Prop where
  | nil : SpellsText [] []
  | cons {spelling spellings text : List Char} {char : Char} (first : SpellsChar spelling char)
      (rest : SpellsText spellings text) : SpellsText (spelling ++ spellings) (char :: text)

/-! ### Tokens -/

/-- Smallest part of a text that means something. -/
inductive Token where
  | openArray
  | closeArray
  | openObject
  | closeObject
  | colon
  | comma
  | bool (value : Bool)
  | string (text : String)
  deriving DecidableEq, Repr

/-- Spellings of a token. -/
inductive SpellsToken : List Char → Token → Prop where
  | openArray : SpellsToken ['['] .openArray
  | closeArray : SpellsToken [']'] .closeArray
  | openObject : SpellsToken ['\x7b'] .openObject
  | closeObject : SpellsToken ['\x7d'] .closeObject
  | colon : SpellsToken [':'] .colon
  | comma : SpellsToken [','] .comma
  | bool (value : Bool) : SpellsToken (if value then "true" else "false").toList (.bool value)
  | string {spelling : List Char} {text : String} (body : SpellsText spelling text.toList) :
      SpellsToken ('"' :: spelling ++ ['"']) (.string text)

/-- Whether a character may stand between tokens. -/
def isBlank (char : Char) : Bool := char == ' ' || char == '\t' || char == '\n' || char == '\r'

/-- Texts that consist of given tokens, with any blanks between them. -/
inductive SpellsTokens : List Char → List Token → Prop where
  | nil : SpellsTokens [] []
  | blank {char : Char} {rest : List Char} {tokens : List Token} (blank : isBlank char)
      (spells : SpellsTokens rest tokens) : SpellsTokens (char :: rest) tokens
  | token {spelling rest : List Char} {token : Token} {tokens : List Token}
      (first : SpellsToken spelling token) (spells : SpellsTokens rest tokens) :
      SpellsTokens (spelling ++ rest) (token :: tokens)

/-- Tokens of a container with the given brackets and items. -/
def enclosedTokens (opening closing : Token) : List (List Token) → List Token
  | [] => [opening, closing]
  | first :: others => opening :: first ++ others.flatMap (.comma :: ·) ++ [closing]

mutual

/-- Tokens of a document. -/
def tokens : Json → List Token
  | .bool value => [.bool value]
  | .string text => [.string text]
  | .array items => enclosedTokens .openArray .closeArray (itemTokens items)
  | .object fields => enclosedTokens .openObject .closeObject (fieldTokens fields)

/-- Tokens of each array item. -/
def itemTokens : List Json → List (List Token)
  | [] => []
  | item :: rest => tokens item :: itemTokens rest

/-- Tokens of each object field. -/
def fieldTokens : List (String × Json) → List (List Token)
  | [] => []
  | (key, value) :: rest => (.string key :: .colon :: tokens value) :: fieldTokens rest

end

/-- Whether a text spells a document. -/
def Spells (text : String) (document : Json) : Prop := SpellsTokens text.toList document.tokens

/-! ### The printed form -/

theorem SpellsTokens.append {left right : List Char} {first second : List Token}
    (spells : SpellsTokens left first) (spells' : SpellsTokens right second) :
    SpellsTokens (left ++ right) (first ++ second) := by
  induction spells with
  | nil => exact spells'
  | blank blank _ ih => exact .blank blank ih
  | token here _ ih =>
      rw [List.append_assoc]
      exact .token here ih

theorem SpellsToken.spellsTokens {spelling : List Char} {token : Token}
    (spells : SpellsToken spelling token) : SpellsTokens spelling [token] := by
  simpa using SpellsTokens.token spells .nil

theorem spellsTokens_blanks {chars : List Char} (blanks : ∀ char ∈ chars, isBlank char) :
    SpellsTokens chars [] := by
  induction chars with
  | nil => exact .nil
  | cons char chars ih =>
      exact .blank (blanks char (by simp)) (ih fun other mem => blanks other (by simp [mem]))

/-- Escaped characters spell the characters. -/
theorem spellsChar_escapedChar (char : Char) : SpellsChar (escapedChar char) char := by
  unfold escapedChar
  split_ifs with quote backslash newline carriageReturn tab backspace formFeed control
  · cases quote
    exact .escape rfl
  · cases backslash
    exact .escape rfl
  · cases newline
    exact .escape rfl
  · cases carriageReturn
    exact .escape rfl
  · cases tab
    exact .escape rfl
  · cases backspace
    exact .escape rfl
  · cases formFeed
    exact .escape rfl
  · have digits : ∀ code < 0x20, hexNumber? ['0', '0', Nat.digitChar (code / 16),
        Nat.digitChar (code % 16)] = some code := by decide
    exact .code rfl (digits char.toNat control)
  · exact .plain (by omega) quote backslash

theorem spellsText_flatMap_escapedChar (text : List Char) :
    SpellsText (text.flatMap escapedChar) text := by
  induction text with
  | nil => exact .nil
  | cons char text ih => exact .cons (spellsChar_escapedChar char) ih

theorem spellsTokens_quotedString (text : String) :
    SpellsTokens (quotedString text) [.string text] :=
  SpellsToken.spellsTokens (.string (spellsText_flatMap_escapedChar text.toList))

theorem spellsTokens_newline (depth : Nat) : SpellsTokens ('\n' :: margin depth) [] := by
  refine .blank rfl (spellsTokens_blanks fun char mem => ?_)
  rw [(List.mem_replicate.mp mem).2]
  rfl

/-- A container spells its brackets and what its lines spell, if these are in step. -/
theorem spellsTokens_enclosed {opening closing : Char} {openToken closeToken : Token}
    (opens : SpellsToken [opening] openToken) (closes : SpellsToken [closing] closeToken)
    (depth : Nat) {lines : List (List Char)} {items : List (List Token)}
    (spells : List.Forall₂ SpellsTokens lines items) :
    SpellsTokens (enclosed opening closing depth lines)
      (enclosedTokens openToken closeToken items) := by
  cases spells with
  | nil => exact .token opens closes.spellsTokens
  | cons first others =>
      have rest : ∀ {lines : List (List Char)} {items : List (List Token)},
          List.Forall₂ SpellsTokens lines items →
            SpellsTokens (lines.flatMap fun line => ',' :: '\n' :: margin (depth + 1) ++ line)
              (items.flatMap (.comma :: ·)) := by
        intro lines items spells
        induction spells with
        | nil => exact .nil
        | cons line _ ih =>
            exact (SpellsTokens.token .comma ((spellsTokens_newline _).append line)).append ih
      -- line breaks and margins are blanks, so only the brackets, lines and commas count
      have closed := (rest others).append
        ((spellsTokens_newline depth).append closes.spellsTokens)
      have whole := SpellsTokens.token opens
        (((spellsTokens_newline (depth + 1)).append first).append closed)
      simpa [enclosed, enclosedTokens] using whole

/-- The printed form of a document spells it, at whatever depth. -/
theorem spellsTokens_prettyChars (document : Json) (depth : Nat) :
    SpellsTokens (document.prettyChars depth) document.tokens := by
  induction document using induction_on generalizing depth with
  | bool value => exact SpellsToken.spellsTokens (.bool value)
  | string text => exact spellsTokens_quotedString text
  | array items ih =>
      rw [prettyChars, tokens]
      refine spellsTokens_enclosed .openArray .closeArray depth ?_
      induction items with
      | nil => exact .nil
      | cons item items ih' =>
          refine .cons (ih item List.mem_cons_self (depth + 1)) (ih' fun other mem => ?_)
          exact ih other (List.mem_cons_of_mem _ mem)
  | object fields ih =>
      rw [prettyChars, tokens]
      refine spellsTokens_enclosed .openObject .closeObject depth ?_
      induction fields with
      | nil => exact .nil
      | cons field fields ih' =>
          obtain ⟨key, value⟩ := field
          refine .cons ?_ (ih' fun other mem => ih other (List.mem_cons_of_mem _ mem))
          have spelled := ih (key, value) List.mem_cons_self (depth + 1)
          exact (spellsTokens_quotedString key).append (.token .colon (.blank rfl spelled))

/-- The printed form of a document spells it. -/
theorem spells_pretty (document : Json) : Spells document.pretty document := by
  rw [Spells, pretty, String.toList_ofList]
  exact spellsTokens_prettyChars document 0

end Json
end Wiring
