import FrontEnd.Yaml.Place

/-!
# Properties and directives of YAML documents

A node may have a name, under which aliases refer to it, and a tag.  Directives in front of a
document say which version of the format it has and which handles its tags may use.

## Main Definitions

* `Yaml.readName` — the name of an anchor or an alias
* `Yaml.readTag` — the handle of a tag
* `Yaml.Directive`, `Yaml.readDirective` — the directive of a line

## Design Notes

**Of a tag only the handle is kept.**  A tag must be well-formed and its handle declared.  What it
says about its node is up to the reader of the document.

**Tags are ASCII.**  Other characters of a tag are written as escaped bytes, which have to be the
encoding of characters as far as their first bits tell.
-/

namespace FrontEnd.Yaml

/-- Whether a character may stand in a name. -/
def isNameChar (c : Char) : Bool := c.isAlphanum || c = '_' || c = '-'

/-- The longest name at the front of a text, and the text behind. -/
def splitName (text : List Char) : List Char × List Char := text.span isNameChar

/-- Characters that may follow the name of an anchor or alias, besides blanks and line ends. -/
def isNameEnd (c : Char) : Bool := ['?', ':', ',', ']', '\x7d', '%', '@', '\x60'].contains c

/-- Read the name of an anchor or alias, which stands behind its indicator. -/
def readName (text : List Char) : Except Fault (List Char × List Char) :=
  let (name, rest) := splitName text
  if name ≠ [] && (endsWord rest || rest.head?.any isNameEnd) then .ok (name, rest)
  else .error .badName

/-! ### Tags -/

/-- Characters of a tag, besides those of names. -/
def isTagChar (c : Char) : Bool :=
  isNameChar c || [';', '/', '?', ':', '@', '&', '=', '+', '$', '.', '!', '~', '*', '\'', '(',
    ')'].contains c

/-- Characters of a tag that is written out in full. -/
def isFullTagChar (c : Char) : Bool := isTagChar c || c = ',' || c = '[' || c = ']'

/-- The number of bytes that follow the first byte of a character. -/
def furtherBytes (byte : Nat) : Option Nat :=
  if byte < 0x80 then some 0
  else if byte < 0xc0 then none
  else if byte < 0xe0 then some 1
  else if byte < 0xf0 then some 2
  else if byte < 0xf8 then some 3
  else none

/-- The bytes that are due behind an escaped byte, if that many were due before it. -/
def dueAfter (due byte : Nat) : Option Nat :=
  if due = 0 then furtherBytes byte
  else if 0x80 ≤ byte && byte < 0xc0 then some (due - 1)
  else none

/-- The byte with two hexadecimal digits. -/
def escapedByte (high low : Char) : Option Nat :=
  (hexValue high).bind fun h => (hexValue low).map fun l => 16 * h + l

/-- Pass the longest run of allowed characters and escapes.  So many bytes of the current character
are still due. -/
def passTag (allowed : Char → Bool) (due : Nat) : List Char → Except Fault (List Char)
  | '%' :: high :: low :: rest =>
      match (escapedByte high low).bind (dueAfter due) with
      | some due => passTag allowed due rest
      | none => .error .badTag
  | c :: rest =>
      if due ≠ 0 || c = '%' then .error .badTag
      else if allowed c then passTag allowed 0 rest
      else .ok (c :: rest)
  | [] => if due = 0 then .ok [] else .error .badTag

/-- Pass a run of allowed characters and escapes that is not empty. -/
def passSomeTag (allowed : Char → Bool) (text : List Char) : Except Fault (List Char) :=
  match passTag allowed 0 text with
  | .ok rest => if rest.length < text.length then .ok rest else .error .badTag
  | .error e => .error e

/-- Read the handle of a tag behind its first exclamation mark, and pass the tag.  A tag that is
written out in full has the empty handle. -/
def readHandle (text : List Char) : Except Fault (List Char × List Char) :=
  match text with
  | '<' :: rest =>
      match passSomeTag isFullTagChar rest with
      | .ok ('>' :: rest) => .ok ([], rest)
      | .ok _ => .error .badTag
      | .error e => .error e
  | _ =>
      match splitName text with
      | (name, '!' :: rest) =>
          (passSomeTag isTagChar rest).map fun rest => ('!' :: name ++ ['!'], rest)
      | _ => (passTag isTagChar 0 text).map fun rest => (['!'], rest)

/-- Read the handle of a tag, which must be followed by a blank or a line end or, inside brackets,
by a comma. -/
def readTag (inFlow : Bool) (text : List Char) : Except Fault (List Char × List Char) :=
  match readHandle text with
  | .error e => .error e
  | .ok (handle, rest) =>
      if endsWord rest || (inFlow && rest.head? = some ',') then .ok (handle, rest)
      else .error .badTag

/-! ### Directives -/

/-- What the line of a directive says. -/
inductive Directive where
  /-- The version of the format. -/
  | version (major minor : List Char)
  /-- A handle for tags. -/
  | handle (name : List Char)
  deriving DecidableEq

/-- The text behind the blanks at its front. -/
def dropBlanks (text : List Char) : List Char := text.dropWhile isBlank

/-- A number of one to nine digits, and the text behind. -/
def readVersionPart (text : List Char) : Except Fault (List Char × List Char) :=
  let (digits, rest) := text.span Char.isDigit
  if digits ≠ [] && digits.length ≤ 9 then .ok (digits, rest) else .error .badDirective

/-- Read the version of the format. -/
def readVersion (text : List Char) : Except Fault (Directive × List Char) := do
  match ← readVersionPart text with
  | (major, '.' :: rest) =>
      let (minor, rest) ← readVersionPart rest
      return (.version major minor, rest)
  | _ => .error .badDirective

/-- Read a handle for tags and the text that it stands for. -/
def readHandleRule (text : List Char) : Except Fault (Directive × List Char) := do
  let (handle, rest) ←
    match text with
    | '!' :: rest =>
        match splitName rest with
        | (name, '!' :: rest) => .ok ('!' :: name ++ ['!'], rest)
        | ([], rest) => .ok (['!'], rest)
        | _ => .error .badDirective
    | _ => .error .badDirective
  if !rest.head?.any isBlank then .error .badDirective
  else
    let rest ← passSomeTag isFullTagChar (dropBlanks rest)
    if endsWord rest then return (.handle handle, rest) else .error .badDirective

/-- Read a directive behind its percent sign, and pass the rest of its line. -/
def readDirective (p : Place) (text : List Char) :
    Except Fault (Directive × Place × List Char) := do
  let (name, rest) := splitName text
  let (directive, rest) ←
    if !endsWord rest then .error .badDirective
    else if name = ['Y', 'A', 'M', 'L'] then readVersion (dropBlanks rest)
    else if name = ['T', 'A', 'G'] then readHandleRule (dropBlanks rest)
    else .error .badDirective
  let (p, rest) ← finishLine false (p.right (text.length - rest.length)) rest
  return (directive, p, rest)

end FrontEnd.Yaml
