/-!
# JSON documents

Documents made of truth values, strings, arrays and objects, with object fields in a given order.
The printed form puts every item and field on a line of its own, two spaces deeper than its
container, and writes empty containers as `[]` and `\x7b\x7d`.
-/

namespace Wiring

/-- JSON document with ordered object fields. -/
inductive Json where
  | bool (value : Bool)
  | string (text : String)
  | array (items : List Json)
  | object (fields : List (String × Json))

namespace Json

/-- One character inside a JSON string. -/
def escapedChar (char : Char) : List Char :=
  if char = '"' then ['\\', '"']
  else if char = '\\' then ['\\', '\\']
  else if char = '\n' then ['\\', 'n']
  else if char = '\r' then ['\\', 'r']
  else if char = '\t' then ['\\', 't']
  else if char = '\x08' then ['\\', 'b']
  else if char = '\x0c' then ['\\', 'f']
  else if char.toNat < 0x20 then
    ['\\', 'u', '0', '0', Nat.digitChar (char.toNat / 16), Nat.digitChar (char.toNat % 16)]
  else [char]

/-- JSON string of a text. -/
def quotedString (text : String) : List Char := '"' :: text.toList.flatMap escapedChar ++ ['"']

/-- Blanks in front of a line at the given depth. -/
def margin (depth : Nat) : List Char := List.replicate (2 * depth) ' '

/-- Container written over several lines, or on one when it is empty. -/
def enclosed (opening closing : Char) (depth : Nat) : List (List Char) → List Char
  | [] => [opening, closing]
  | first :: others =>
      opening :: '\n' :: margin (depth + 1) ++ first ++
        others.flatMap (fun line => ',' :: '\n' :: margin (depth + 1) ++ line) ++
          '\n' :: margin depth ++ [closing]

mutual

/-- Printed form of a document that starts at the given depth. -/
def prettyChars (depth : Nat) : Json → List Char
  | .bool value => (if value then "true" else "false").toList
  | .string text => quotedString text
  | .array items => enclosed '[' ']' depth (prettyItems (depth + 1) items)
  | .object fields => enclosed '\x7b' '\x7d' depth (prettyFields (depth + 1) fields)

/-- Printed forms of array items. -/
def prettyItems (depth : Nat) : List Json → List (List Char)
  | [] => []
  | item :: rest => prettyChars depth item :: prettyItems depth rest

/-- Printed forms of object fields. -/
def prettyFields (depth : Nat) : List (String × Json) → List (List Char)
  | [] => []
  | (key, value) :: rest =>
      (quotedString key ++ ':' :: ' ' :: prettyChars depth value) :: prettyFields depth rest

end

/-- Printed form of a document. -/
def pretty (document : Json) : String := String.ofList (document.prettyChars 0)

end Json
end Wiring
