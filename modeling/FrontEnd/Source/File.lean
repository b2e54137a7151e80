/-!
# Files

Programs read their sources from files.  Which files there are is a parameter: reading is a function
from paths to contents.

## Main Definitions

* `FileError` — why a file cannot be read
* `Files` — what each path yields
* `decodeFile` — the text of a file's bytes
-/

namespace FrontEnd

/-- Why a file cannot be read. -/
inductive FileError where
  /-- There is no such file. -/
  | missing
  /-- The bytes of the file are no text. -/
  | notText
  /-- Anything else, in the words of the system. -/
  | other (text : String)
  deriving DecidableEq

/-- The wording of a file error. -/
def FileError.message : FileError → String
  | missing => "No such file or directory (os error 2)"
  | notText => "stream did not contain valid UTF-8"
  | other text => text

/-- What reading each path yields. -/
abbrev Files := String → Except FileError String

/-- The text of a file's bytes, which have to be valid UTF-8. -/
def decodeFile (bytes : ByteArray) : Except FileError String :=
  match String.fromUTF8? bytes with
  | some text => .ok text
  | none => .error .notText

end FrontEnd
