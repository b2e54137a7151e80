/-!
# Numbers in text

## Main Definitions

* `Text.readDigits` — the value of decimal digits
* `Text.readInteger` — the value of an integer of 64 bits

## Design Notes

An integer is written with decimal digits, at least one, behind an optional sign.  A value that does
not fit into 64 bits with a sign is not a number at all: there is no wrapping.
-/

namespace FrontEnd.Text

/-- The value of a decimal digit. -/
def digitValue (c : Char) : Option Nat :=
  if '0' ≤ c ∧ c ≤ '9' then some (c.toNat - '0'.toNat) else none

/-- Read digits on from a value. -/
def readDigitsFrom (value : Nat) : List Char → Option Nat
  | [] => some value
  | c :: rest =>
      match digitValue c with
      | some digit => readDigitsFrom (10 * value + digit) rest
      | none => none

/-- The value of one or more decimal digits. -/
def readDigits : List Char → Option Nat
  | [] => none
  | c :: rest => readDigitsFrom 0 (c :: rest)

/-- The value of an integer, provided that it fits into 64 bits with a sign. -/
def readInteger : List Char → Option Int
  | '-' :: digits => (readDigits digits).bind fun n => if n ≤ Nat.pow 2 63 then some (-n) else none
  | '+' :: digits => (readDigits digits).bind fun n => if n < Nat.pow 2 63 then some n else none
  | digits => (readDigits digits).bind fun n => if n < Nat.pow 2 63 then some n else none

end FrontEnd.Text
