import FrontEnd.Text.Printable

/-!
# Quoted text

Messages and token listings show a piece of text between double quotes, with every character that
would not be seen as itself replaced by an escape.

## Main Definitions

* `Text.escaped` — how one character is written between the quotes
* `Text.quoted` — a whole text, quotes included
* `Text.quotedList` — several quoted texts between brackets

## Design Notes

The single quote is never escaped: only the double quote delimits.  A character without a short
escape is written by its code point, `\u` and the hexadecimal digits between braces, in lower case
and without padding.
-/

namespace FrontEnd.Text

/-- The hexadecimal digits of a number, lower case, without leading zeros. -/
def hexDigits (n : Nat) : List Char := Nat.toDigits 16 n

/-- The escape of a character by its code point. -/
def codeEscape (c : Char) : List Char :=
  ['\\', 'u', '\x7b'] ++ hexDigits c.toNat ++ ['\x7d']

/-- How a character is written between double quotes. -/
def escaped (c : Char) : List Char :=
  if c = '\x00' then ['\\', '0']
  else if c = '\t' then ['\\', 't']
  else if c = '\r' then ['\\', 'r']
  else if c = '\n' then ['\\', 'n']
  else if c = '\\' then ['\\', '\\']
  else if c = '\"' then ['\\', '\"']
  else if isPrintable c && !isExtending c then [c]
  else codeEscape c

/-- A text between double quotes, each character escaped where it has to be. -/
def quoted (text : String) : String :=
  String.ofList ('\"' :: text.toList.flatMap escaped ++ ['\"'])

/-- Several quoted texts, separated by commas, between brackets. -/
def quotedList (texts : List String) : String :=
  "[" ++ ", ".intercalate (texts.map quoted) ++ "]"

end FrontEnd.Text
