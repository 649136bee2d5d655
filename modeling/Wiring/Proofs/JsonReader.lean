import Wiring.Proofs.JsonGrammar

/-!
# Reading JSON texts

The reader goes through a text once, collecting the tokens of which it consists, and through these
once more with a stack of the containers that are still open.  It reads every text that spells a
document, whatever its blanks and escapes, so a text spells at most one document.
-/

namespace Wiring
namespace Json

/-! ### From characters to tokens -/

/-- What the reader of tokens is in the middle of. -/
inductive Scan where
  /-- Between two tokens. -/
  | between
  /-- Inside a string, after the given characters. -/
  | text (read : List Char)
  /-- After a backslash. -/
  | escape (read : List Char)
  /-- In the digits of a code, perhaps of the second half of a pair of surrogates. -/
  | code (read : List Char) (high : Option Nat) (digits : List Char)
  /-- After the first half of a pair of surrogates. -/
  | low (read : List Char) (high : Nat)
  /-- After the backslash of the second half. -/
  | lowEscape (read : List Char) (high : Nat)
  /-- In the name of a truth value, with its remaining letters. -/
  | letters (rest : List Char) (value : Bool)

/-- What the digits of a code make of the string so far. -/
def scanCode (read : List Char) (high : Option Nat) (code : Nat) : Option Scan :=
  match high with
  | none =>
      if 0xD800 ≤ code ∧ code < 0xDC00 then some (.low read code)
      else if code.isValidChar then some (.text (read ++ [Char.ofNat code]))
      else none
  | some high =>
      if 0xDC00 ≤ code ∧ code < 0xE000 then
        some (.text (read ++ [Char.ofNat (surrogateCode high code)]))
      else none

/-- Effect of one character on the reader and on the tokens collected so far. -/
def scanStep : Scan × List Token → Char → Option (Scan × List Token)
  | (.between, tokens), char =>
      match char with
      | '[' => some (.between, tokens ++ [.openArray])
      | ']' => some (.between, tokens ++ [.closeArray])
      | '\x7b' => some (.between, tokens ++ [.openObject])
      | '\x7d' => some (.between, tokens ++ [.closeObject])
      | ':' => some (.between, tokens ++ [.colon])
      | ',' => some (.between, tokens ++ [.comma])
      | '"' => some (.text [], tokens)
      | 't' => some (.letters ['r', 'u', 'e'] true, tokens)
      | 'f' => some (.letters ['a', 'l', 's', 'e'] false, tokens)
      | char => if isBlank char then some (.between, tokens) else none
  | (.text read, tokens), char =>
      if char = '"' then some (.between, tokens ++ [.string (.ofList read)])
      else if char = '\\' then some (.escape read, tokens)
      else if char.toNat < 0x20 then none
      else some (.text (read ++ [char]), tokens)
  | (.escape read, tokens), char =>
      if char = 'u' then some (.code read none [], tokens)
      else (escape? char).map fun meaning => (.text (read ++ [meaning]), tokens)
  | (.code read high digits, tokens), char =>
      if digits.length < 3 then some (.code read high (digits ++ [char]), tokens)
      else ((hexNumber? (digits ++ [char])).bind (scanCode read high)).map (·, tokens)
  | (.low read high, tokens), char =>
      if char = '\\' then some (.lowEscape read high, tokens) else none
  | (.lowEscape read high, tokens), char =>
      if char = 'u' then some (.code read (some high) [], tokens) else none
  | (.letters rest value, tokens), char =>
      match rest with
      | [] => none
      | [last] => if char = last then some (.between, tokens ++ [.bool value]) else none
      | next :: rest => if char = next then some (.letters rest value, tokens) else none

/-- Tokens of a text. -/
def tokens? (chars : List Char) : Option (List Token) :=
  match chars.foldlM scanStep (.between, []) with
  | some (.between, tokens) => some tokens
  | _ => none

variable {before : List Token} {read : List Char}

theorem foldlM_scanStep_code {digits : List Char} {high : Option Nat} {code : Nat}
    (four : digits.length = 4) (value : hexNumber? digits = some code) :
    digits.foldlM scanStep (.code read high [], before) =
      (scanCode read high code).map (·, before) := by
  match digits, four with
  | [first, second, third, fourth], _ => simp [scanStep, value]

theorem scanCode_toNat (char : Char) :
    scanCode read none char.toNat = some (.text (read ++ [char])) := by
  have valid : char.toNat.isValidChar := char.valid
  have no_surrogate : ¬ (0xD800 ≤ char.toNat ∧ char.toNat < 0xDC00) := by
    rcases valid with below | ⟨above, -⟩ <;> omega
  rw [scanCode, if_neg no_surrogate, if_pos valid, Char.ofNat_toNat]

/-- The reader goes through a character of a string, however it is written. -/
theorem foldlM_scanStep_of_spellsChar {spelling : List Char} {char : Char}
    (spells : SpellsChar spelling char) :
    spelling.foldlM scanStep (.text read, before) = some (.text (read ++ [char]), before) := by
  -- a code begins with a backslash and a letter
  have begins (digits : List Char) :
      ('\\' :: 'u' :: digits).foldlM scanStep (.text read, before) =
        digits.foldlM scanStep (.code read none [], before) := rfl
  cases spells with
  | plain printable not_quote not_backslash =>
      simp [scanStep, not_quote, not_backslash, printable]
  | @escape letter _ meaning =>
      have not_code : letter ≠ 'u' := by
        rintro rfl
        cases meaning
      simp [scanStep, not_code, meaning]
  | code four value =>
      rw [begins, foldlM_scanStep_code four value, scanCode_toNat]
      rfl
  | @surrogates _ lowDigits high low _ high_four high_value high_range low_four low_value low_range
      value =>
      rw [List.cons_append, List.cons_append, begins, List.foldlM_append,
        foldlM_scanStep_code high_four high_value, scanCode, if_pos high_range]
      change lowDigits.foldlM scanStep (.code read (some high) [], before) = _
      rw [foldlM_scanStep_code low_four low_value, scanCode, if_pos low_range, ← value,
        Char.ofNat_toNat]
      rfl

theorem foldlM_scanStep_of_spellsText {spelling text : List Char}
    (spells : SpellsText spelling text) :
    spelling.foldlM scanStep (.text read, before) = some (.text (read ++ text), before) := by
  induction spells generalizing read with
  | nil => simp
  | cons first rest ih =>
      rw [List.foldlM_append, foldlM_scanStep_of_spellsChar first]
      simp [ih]

/-- The reader collects a token, however it is written. -/
theorem foldlM_scanStep_of_spellsToken {spelling : List Char} {token : Token}
    (spells : SpellsToken spelling token) :
    spelling.foldlM scanStep (.between, before) = some (.between, before ++ [token]) := by
  cases spells with
  | openArray => rfl
  | closeArray => rfl
  | openObject => rfl
  | closeObject => rfl
  | colon => rfl
  | comma => rfl
  | bool value => cases value <;> rfl
  | string body =>
      rw [List.cons_append, List.foldlM_cons]
      simp [scanStep, List.foldlM_append, foldlM_scanStep_of_spellsText body]

/-- The reader collects the tokens that a text spells. -/
theorem foldlM_scanStep_of_spellsTokens {chars : List Char} {tokens : List Token}
    (spells : SpellsTokens chars tokens) :
    chars.foldlM scanStep (.between, before) = some (.between, before ++ tokens) := by
  induction spells generalizing before with
  | nil => simp
  | @blank char rest tokens blank _ ih =>
      have stays : scanStep (.between, before) char = some (.between, before) := by
        simp only [isBlank, Bool.or_eq_true, beq_iff_eq] at blank
        rcases blank with ((rfl | rfl) | rfl) | rfl <;> rfl
      rw [List.foldlM_cons, stays]
      exact ih
  | token first _ ih =>
      rw [List.foldlM_append, foldlM_scanStep_of_spellsToken first]
      simp [ih]

theorem tokens?_of_spellsTokens {chars : List Char} {tokens : List Token}
    (spells : SpellsTokens chars tokens) : tokens? chars = some tokens := by
  rw [tokens?, foldlM_scanStep_of_spellsTokens spells]
  rfl

/-! ### From tokens to documents -/

/-- A container that is still open around the value being read. -/
inductive Frame where
  /-- An array with its items so far. -/
  | array (items : List Json)
  /-- An object with its fields so far and the key of the value. -/
  | object (fields : List (String × Json)) (key : String)

/-- What the reader of documents has read so far, innermost container first. -/
inductive Progress where
  /-- A value must follow. -/
  | value (outer : List Frame)
  /-- An array has been opened. -/
  | openArray (outer : List Frame)
  /-- Some items of an array have been read. -/
  | items (items : List Json) (outer : List Frame)
  /-- An object has been opened. -/
  | openObject (outer : List Frame)
  /-- Some fields of an object and a comma have been read. -/
  | comma (fields : List (String × Json)) (outer : List Frame)
  /-- A key has been read. -/
  | key (fields : List (String × Json)) (key : String) (outer : List Frame)
  /-- Some fields of an object have been read. -/
  | fields (fields : List (String × Json)) (outer : List Frame)
  /-- Everything has been read. -/
  | done (document : Json)

/-- Put a value that has been read into the container around it. -/
def Progress.put (value : Json) : List Frame → Progress
  | [] => done value
  | .array read :: outer => .items (read ++ [value]) outer
  | .object read name :: outer => .fields (read ++ [(name, value)]) outer

/-- Effect of a token where a value must follow. -/
def beginValue (outer : List Frame) : Token → Option Progress
  | .bool value => some (.put (.bool value) outer)
  | .string text => some (.put (.string text) outer)
  | .openArray => some (.openArray outer)
  | .openObject => some (.openObject outer)
  | _ => none

/-- Effect of one token. -/
def readStep : Progress → Token → Option Progress
  | .value outer, token => beginValue outer token
  | .openArray outer, .closeArray => some (.put (.array []) outer)
  | .openArray outer, token => beginValue (.array [] :: outer) token
  | .items read outer, .comma => some (.value (.array read :: outer))
  | .items read outer, .closeArray => some (.put (.array read) outer)
  | .openObject outer, .closeObject => some (.put (.object []) outer)
  | .openObject outer, .string name => some (.key [] name outer)
  | .comma read outer, .string name => some (.key read name outer)
  | .key read name outer, .colon => some (.value (.object read name :: outer))
  | .fields read outer, .comma => some (.comma read outer)
  | .fields read outer, .closeObject => some (.put (.object read) outer)
  | _, _ => none

/-- Document of which tokens consist. -/
def ofTokens? (tokens : List Token) : Option Json :=
  match tokens.foldlM readStep (.value []) with
  | some (.done document) => some document
  | _ => none

/-- Document that a text spells. -/
def read? (text : String) : Option Json := (tokens? text.toList).bind ofTokens?

/-- A document begins with a token at which an open array does not end. -/
theorem exists_tokens_eq_cons (document : Json) :
    ∃ token rest, document.tokens = token :: rest ∧ token ≠ .closeArray := by
  cases document with
  | bool value => exact ⟨_, _, rfl, by simp⟩
  | string text => exact ⟨_, _, rfl, by simp⟩
  | array items => cases items <;> exact ⟨_, _, rfl, by simp⟩
  | object fields => cases fields <;> exact ⟨_, _, rfl, by simp⟩

/-- An open array reads its first item as any other value. -/
theorem foldlM_readStep_openArray (document : Json) (outer : List Frame) (rest : List Token) :
    (document.tokens ++ rest).foldlM readStep (.openArray outer) =
      (document.tokens ++ rest).foldlM readStep (.value (.array [] :: outer)) := by
  obtain ⟨token, others, same, differs⟩ := exists_tokens_eq_cons document
  rw [same, List.cons_append, List.foldlM_cons, List.foldlM_cons]
  have first : readStep (.openArray outer) token =
      readStep (.value (.array [] :: outer)) token := by
    cases token <;> first | rfl | exact absurd rfl differs
  rw [first]

/-- Whether the reader puts a document that has been read into the container around it. -/
def IsRead (document : Json) : Prop :=
  ∀ outer, document.tokens.foldlM readStep (.value outer) = some (.put document outer)

theorem foldlM_readStep_items {items : List Json} (reads : ∀ item ∈ items, item.IsRead)
    (read : List Json) (outer : List Frame) :
    ((itemTokens items).flatMap (.comma :: ·)).foldlM readStep (.items read outer) =
      some (.items (read ++ items) outer) := by
  induction items generalizing read with
  | nil => simp [itemTokens]
  | cons item items ih =>
      have first : (Token.comma :: item.tokens).foldlM readStep (.items read outer) =
          some (.items (read ++ [item]) outer) := reads item List.mem_cons_self _
      rw [itemTokens, List.flatMap_cons, List.foldlM_append, first, Option.bind_eq_bind,
        Option.bind_some, ih fun other mem => reads other (List.mem_cons_of_mem _ mem),
        List.append_assoc, List.singleton_append]

theorem isRead_array {items : List Json} (reads : ∀ item ∈ items, item.IsRead) :
    IsRead (.array items) := by
  intro outer
  cases items with
  | nil => rfl
  | cons first others =>
      have rest : ∀ other ∈ others, other.IsRead := fun other mem =>
        reads other (List.mem_cons_of_mem _ mem)
      -- the first item follows the bracket, and every other one a comma
      rw [tokens, itemTokens, enclosedTokens, List.append_assoc]
      change (first.tokens ++ _).foldlM readStep (.openArray outer) = _
      rw [foldlM_readStep_openArray, List.foldlM_append, reads first List.mem_cons_self]
      change (_ ++ [Token.closeArray]).foldlM readStep (.items [first] outer) = _
      rw [List.foldlM_append, foldlM_readStep_items rest]
      rfl

theorem foldlM_readStep_fields {fields : List (String × Json)}
    (reads : ∀ field ∈ fields, field.2.IsRead) (read : List (String × Json)) (outer : List Frame) :
    ((fieldTokens fields).flatMap (.comma :: ·)).foldlM readStep (.fields read outer) =
      some (.fields (read ++ fields) outer) := by
  induction fields generalizing read with
  | nil => simp [fieldTokens]
  | cons field fields ih =>
      obtain ⟨key, value⟩ := field
      have first : (Token.comma :: .string key :: .colon :: value.tokens).foldlM readStep
          (.fields read outer) = some (.fields (read ++ [(key, value)]) outer) :=
        reads (key, value) List.mem_cons_self _
      rw [fieldTokens, List.flatMap_cons, List.foldlM_append, first, Option.bind_eq_bind,
        Option.bind_some, ih fun other mem => reads other (List.mem_cons_of_mem _ mem),
        List.append_assoc, List.singleton_append]

theorem isRead_object {fields : List (String × Json)} (reads : ∀ field ∈ fields, field.2.IsRead) :
    IsRead (.object fields) := by
  intro outer
  cases fields with
  | nil => rfl
  | cons first others =>
      obtain ⟨key, value⟩ := first
      have rest : ∀ other ∈ others, other.2.IsRead := fun other mem =>
        reads other (List.mem_cons_of_mem _ mem)
      rw [tokens, fieldTokens, enclosedTokens, List.append_assoc]
      change (value.tokens ++ _).foldlM readStep (.value (.object [] key :: outer)) = _
      rw [List.foldlM_append, reads (key, value) List.mem_cons_self]
      change (_ ++ [Token.closeObject]).foldlM readStep (.fields [(key, value)] outer) = _
      rw [List.foldlM_append, foldlM_readStep_fields rest]
      rfl

/-- The reader reads every document off its tokens. -/
theorem isRead (document : Json) : document.IsRead := by
  induction document using induction_on with
  | bool value => exact fun outer => rfl
  | string text => exact fun outer => rfl
  | array items ih => exact isRead_array ih
  | object fields ih => exact isRead_object ih

/-- The reader reads every text that spells a document. -/
theorem read?_of_spells {text : String} {document : Json} (spells : Spells text document) :
    read? text = some document := by
  rw [read?, tokens?_of_spellsTokens spells, Option.bind_some, ofTokens?, document.isRead]
  rfl

/-- A text spells at most one document. -/
theorem Spells.eq {text : String} {document other : Json} (spells : Spells text document)
    (spells' : Spells text other) : document = other :=
  Option.some.inj ((read?_of_spells spells).symm.trans (read?_of_spells spells'))

end Json
end Wiring
