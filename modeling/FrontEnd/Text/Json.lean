import FrontEnd.Text.Quoted

/-!
# JSON documents

## Main Definitions

* `Text.Json` — JSON values without fractional numbers
* `Text.Json.pretty` — a value over several lines, indented by two blanks a level

## Design Notes

A record keeps its fields in the order in which they are given.  Strings escape the double quote,
the backslash and the characters below the space, and nothing else; an empty list or record stays on
one line.
-/

namespace FrontEnd.Text

/-- JSON values whose numbers are integers. -/
inductive Json where
  | null
  | number (value : Int)
  | text (value : String)
  | list (items : List Json)
  | record (fields : List (String × Json))

namespace Json

/-- A value under a single name: how one of several alternatives is written. -/
def tagged (tag : String) (value : Json) : Json := record [(tag, value)]

/-- How a character is written inside a JSON string. -/
def escaped (c : Char) : List Char :=
  if c = '\"' then ['\\', '\"']
  else if c = '\\' then ['\\', '\\']
  else if c = '\x08' then ['\\', 'b']
  else if c = '\t' then ['\\', 't']
  else if c = '\n' then ['\\', 'n']
  else if c = '\x0c' then ['\\', 'f']
  else if c = '\r' then ['\\', 'r']
  else if c.toNat < 0x20 then
    ['\\', 'u', '0', '0'] ++ (if c.toNat < 0x10 then ['0'] else []) ++ hexDigits c.toNat
  else [c]

/-- A JSON string, quotes included. -/
def quoted (text : String) : String :=
  String.ofList ('\"' :: text.toList.flatMap escaped ++ ['\"'])

/-- The start of a line at a given depth. -/
def indent (depth : Nat) : String := String.ofList (List.replicate (2 * depth) ' ')

mutual
/-- A value that starts on a line of the given depth. -/
def prettyAt (depth : Nat) : Json → String
  | null => "null"
  | number value => toString value
  | text value => quoted value
  | list [] => "[]"
  | list (first :: rest) =>
      "[\n" ++ prettyItems (depth + 1) (first :: rest) ++ indent depth ++ "]"
  | record [] => "\x7b\x7d"
  | record (first :: rest) =>
      "\x7b\n" ++ prettyFields (depth + 1) (first :: rest) ++ indent depth ++ "\x7d"

/-- The items of a list, each on lines of its own. -/
def prettyItems (depth : Nat) : List Json → String
  | [] => ""
  | item :: rest =>
      indent depth ++ item.prettyAt depth ++ (if rest.isEmpty then "\n" else ",\n") ++
        prettyItems depth rest

/-- The fields of a record, each on lines of its own. -/
def prettyFields (depth : Nat) : List (String × Json) → String
  | [] => ""
  | (name, value) :: rest =>
      indent depth ++ quoted name ++ ": " ++ value.prettyAt depth ++
        (if rest.isEmpty then "\n" else ",\n") ++ prettyFields depth rest
end

/-- A whole document, without a line end behind it. -/
def pretty (value : Json) : String := value.prettyAt 0

end Json

end FrontEnd.Text
