import FrontEnd.Yaml.Block
import FrontEnd.Yaml.Property
import FrontEnd.Yaml.Scalar

/-!
# Tokens of YAML documents

Block collections are marked by indentation alone.  Reading a text into tokens makes their starts
and ends explicit.

## Main Definitions

* `Yaml.Token` — the marks of a document's structure, and its scalars
* `Yaml.Layout` — what is remembered while reading
* `Yaml.tokens` — the tokens of a text

## Design Notes

**Indentation is a stack.**  `indents` holds the columns of the open block collections, the
innermost first.  Text that starts further left closes collections; an entry or a key further right
opens one.

**A key is recognised by the colon behind it.**  Everything that could turn out to be a key is noted
down in `keys` together with the number of its token.  When the colon comes on the same line and not
too far behind, the mark of the key is put in front of that token, and the mark of a new mapping too
if one starts there.  There is one possible key for each level of brackets.
-/

namespace FrontEnd.Yaml

/-- The marks of a document's structure, and its scalars. -/
inductive Token where
  | documentStart
  | documentEnd
  | blockSequence
  | blockMapping
  | blockEnd
  | sequenceStart
  | sequenceEnd
  | mappingStart
  | mappingEnd
  | blockEntry
  | flowEntry
  | key
  | value
  /-- The name of the node that follows. -/
  | anchor (name : List Char)
  /-- The node with a name. -/
  | reference (name : List Char)
  /-- A tag of the node that follows, of which the handle is kept. -/
  | tag (handle : List Char)
  | directive (directive : Directive)
  | scalar (text : List Char) (plain : Bool)
  deriving DecidableEq

/-- Something that could turn out to be a key. -/
structure Key where
  /-- Whether it must be one, because it starts a line of a block mapping. -/
  required : Bool
  /-- The number of its token. -/
  token : Nat
  /-- Where it starts. -/
  place : Place

/-- What is remembered while reading a text into tokens. -/
structure Layout where
  place : Place
  /-- The depth of open brackets. -/
  flow : Nat
  /-- The columns of the open block collections, innermost first. -/
  indents : List Nat
  /-- Whether a key may start here. -/
  keyAllowed : Bool
  /-- The possible key of each level of brackets, innermost first. -/
  keys : List (Option Key)
  tokens : Array Token

namespace Layout

/-- The layout at the start of a text. -/
def start : Layout := ⟨.start, 0, [], true, [none], #[]⟩

/-- Append a token. -/
def emit (l : Layout) (t : Token) : Layout := { l with tokens := l.tokens.push t }

/-- Close the block collections that start to the right of a column. -/
def unroll (l : Layout) (column : Nat) : Layout :=
  if l.flow ≠ 0 then l
  else
    let closed := (l.indents.takeWhile (column < ·)).length
    { l with
      indents := l.indents.drop closed
      tokens := l.tokens ++ Array.replicate closed .blockEnd }

/-- Close all block collections. -/
def unrollAll (l : Layout) : Layout :=
  { l with indents := [], tokens := l.tokens ++ Array.replicate l.indents.length .blockEnd }

/-- Open a block collection at a column, unless one is open there or further right.  Its mark is put
in front of the token with the given number. -/
def roll (l : Layout) (column number : Nat) (mark : Token) : Layout :=
  if l.flow = 0 && l.indents.head?.all (· < column) then
    { l with
      indents := column :: l.indents
      tokens := l.tokens.insertIdxIfInBounds number mark }
  else l

/-- Give up the possible key of the current level. -/
def removeKey (l : Layout) : Except Fault Layout :=
  match l.keys with
  | some key :: rest =>
      if key.required then .error .lostKey else .ok { l with keys := none :: rest }
  | _ => .ok l

/-- Note down that the next token could be a key. -/
def saveKey (l : Layout) : Except Fault Layout :=
  if !l.keyAllowed then .ok l
  else
    match l.removeKey with
    | .error e => .error e
    | .ok l =>
        let required := l.flow = 0 && l.indents.head? = some l.place.column
        .ok { l with keys := some ⟨required, l.tokens.size, l.place⟩ :: l.keys.drop 1 }

/-- Whether a possible key lies too far back: on another line, or by more than 1024 bytes. -/
def isStale (l : Layout) (key : Key) : Bool :=
  key.place.line < l.place.line || key.place.index + 1024 < l.place.index

/-- Give up possible keys that lie too far back. -/
def dropStale (l : Layout) : Except Fault Layout :=
  if l.keys.any fun key => key.any fun k => l.isStale k && k.required then .error .lostKey
  else .ok { l with keys := l.keys.map fun key => key.filter fun k => !l.isStale k }

/-- Whether a character in front of a token is passed.  Tabs are no indentation, and a byte order
mark may stand at the start of a line. -/
def isSkipped (l : Layout) (c : Char) : Bool :=
  c = ' ' || (c = '\t' && (l.flow ≠ 0 || !l.keyAllowed)) ||
    (c = '\ufeff' && l.place.column = 0)

/-- Skip blanks, comments and line ends in front of a token. -/
def skipBlanks (l : Layout) (inComment : Bool) : List Char → Layout × List Char
  | [] => (l, [])
  | c :: rest =>
      if isHalfBreak c rest then skipBlanks { l with place := l.place.inBreak } inComment rest
      else if isBreak c then
        skipBlanks
          { l with place := l.place.down c, keyAllowed := l.keyAllowed || l.flow = 0 } false rest
      else if inComment || l.isSkipped c then
        skipBlanks { l with place := l.place.past c } inComment rest
      else if c = '#' then skipBlanks { l with place := l.place.past c } true rest
      else (l, c :: rest)

/-- An opening bracket. -/
def openFlow (l : Layout) (mark : Token) : Except Fault Layout :=
  match l.saveKey with
  | .error e => .error e
  | .ok l =>
      .ok { l.emit mark with
        place := l.place.right 1
        flow := l.flow + 1
        keyAllowed := true
        keys := none :: l.keys }

/-- A closing bracket. -/
def closeFlow (l : Layout) (mark : Token) : Except Fault Layout :=
  match l.removeKey with
  | .error e => .error e
  | .ok l =>
      .ok { l.emit mark with
        place := l.place.right 1
        flow := l.flow - 1
        keyAllowed := false
        keys := if l.flow = 0 then l.keys else l.keys.drop 1 }

/-- A comma. -/
def comma (l : Layout) : Except Fault Layout :=
  match l.removeKey with
  | .error e => .error e
  | .ok l => .ok { l.emit .flowEntry with place := l.place.right 1, keyAllowed := true }

/-- The dash of a sequence entry. -/
def entry (l : Layout) : Except Fault Layout :=
  if l.flow = 0 && !l.keyAllowed then .error .entryPlace
  else
    match (l.roll l.place.column l.tokens.size .blockSequence).removeKey with
    | .error e => .error e
    | .ok l => .ok { l.emit .blockEntry with place := l.place.right 1, keyAllowed := true }

/-- The question mark of an explicit key. -/
def explicitKey (l : Layout) : Except Fault Layout :=
  if l.flow = 0 && !l.keyAllowed then .error .keyPlace
  else
    match (l.roll l.place.column l.tokens.size .blockMapping).removeKey with
    | .error e => .error e
    | .ok l => .ok { l.emit .key with place := l.place.right 1, keyAllowed := l.flow = 0 }

/-- The colon between a key and its value. -/
def colon (l : Layout) : Except Fault Layout :=
  match l.keys with
  | some key :: rest =>
      let l := { l with
        tokens := l.tokens.insertIdxIfInBounds key.token .key
        keys := none :: rest }
      let l := l.roll key.place.column key.token .blockMapping
      .ok { l.emit .value with place := l.place.right 1, keyAllowed := false }
  | _ =>
      if l.flow = 0 && !l.keyAllowed then .error .valuePlace
      else
        let l := l.roll l.place.column l.tokens.size .blockMapping
        .ok { l.emit .value with place := l.place.right 1, keyAllowed := l.flow = 0 }

/-- A scalar, read by the given function from the current place. -/
def scalar (l : Layout) (plain : Bool) (read : Place → Except Fault Scanned) :
    Except Fault (Layout × List Char) :=
  match l.saveKey with
  | .error e => .error e
  | .ok l =>
      match read l.place with
      | .error e => .error e
      | .ok s =>
          .ok ({ l.emit (.scalar s.text plain) with place := s.place, keyAllowed := s.multiline },
            s.rest)

/-- A block scalar, whose indicator stands before the text.  A key may follow it. -/
def block (l : Layout) (folded : Bool) (text : List Char) : Except Fault (Layout × List Char) :=
  match l.removeKey with
  | .error e => .error e
  | .ok l =>
      match readBlock folded l.indents.head? (l.place.right 1) text with
      | .error e => .error e
      | .ok (text, place, rest) =>
          .ok ({ l.emit (.scalar text false) with place := place, keyAllowed := true }, rest)

/-- A property of a node or an alias, which is `taken` characters long with its indicator.  It could
start a key, but no key starts behind it. -/
def property (l : Layout) (mark : Token) (taken : Nat) : Except Fault Layout :=
  match l.saveKey with
  | .error e => .error e
  | .ok l => .ok { l.emit mark with place := l.place.right taken, keyAllowed := false }

/-- An anchor or alias, whose indicator stands before the text. -/
def name (l : Layout) (mark : List Char → Token) (text : List Char) :
    Except Fault (Layout × List Char) := do
  let (name, rest) ← readName text
  let l ← l.property (mark name) (1 + name.length)
  return (l, rest)

/-- A tag, whose exclamation mark stands before the text. -/
def tag (l : Layout) (text : List Char) : Except Fault (Layout × List Char) := do
  let (handle, rest) ← readTag (l.flow ≠ 0) text
  let l ← l.property (.tag handle) (1 + (text.length - rest.length))
  return (l, rest)

/-- A directive, whose percent sign stands before the text. -/
def directive (l : Layout) (text : List Char) : Except Fault (Layout × List Char) := do
  let l ← l.unrollAll.removeKey
  let (directive, place, rest) ← readDirective (l.place.right 1) text
  return ({ l.emit (.directive directive) with place := place, keyAllowed := false }, rest)

/-- A document marker. -/
def marker (l : Layout) (mark : Token) : Except Fault Layout :=
  match l.unrollAll.removeKey with
  | .error e => .error e
  | .ok l => .ok { l.emit mark with place := l.place.right 3, keyAllowed := false }

/-- The indentation that the lines of a plain scalar must have. -/
def scalarIndent (l : Layout) : Nat := (l.indents.head?.map (· + 1)).getD 0

/-- Characters that cannot start a plain scalar. -/
def isIndicator (c : Char) : Bool :=
  ['-', '?', ':', ',', '[', ']', '\x7b', '\x7d', '#', '&', '*', '!', '|', '>', '\'', '\"', '%',
   '@', '\x60'].contains c

/-- Whether a plain scalar starts with `c` and goes on with `rest`. -/
def startsPlain (l : Layout) (c : Char) (rest : List Char) : Bool :=
  !isIndicator c && !isBlank c && !isBreak c ||
    (c = '-' && !(rest.head?.any isBlank)) ||
    (l.flow = 0 && (c = '?' || c = ':') && !endsWord rest)

/-- Read one token, which starts with `c`, and give back the text behind it. -/
def token (l : Layout) (c : Char) (rest : List Char) : Except Fault (Layout × List Char) :=
  let behind (l : Except Fault Layout) : Except Fault (Layout × List Char) :=
    match l with
    | .ok l => .ok (l, rest)
    | .error e => .error e
  if c = '%' && l.place.column = 0 then l.directive rest
  else if isMarker l.place (c :: rest) then
    match l.marker (if c = '-' then .documentStart else .documentEnd) with
    | .ok l => .ok (l, rest.drop 2)
    | .error e => .error e
  else if c = '[' then behind (l.openFlow .sequenceStart)
  else if c = '\x7b' then behind (l.openFlow .mappingStart)
  else if c = ']' then behind (l.closeFlow .sequenceEnd)
  else if c = '\x7d' then behind (l.closeFlow .mappingEnd)
  else if c = ',' then behind l.comma
  else if c = '-' && endsWord rest then behind l.entry
  else if c = '?' && (l.flow ≠ 0 || endsWord rest) then behind l.explicitKey
  else if c = ':' && (l.flow ≠ 0 || endsWord rest) then behind l.colon
  else if c = '*' then l.name .reference rest
  else if c = '&' then l.name .anchor rest
  else if c = '!' then l.tag rest
  else if (c = '|' || c = '>') && l.flow = 0 then l.block (c = '>') rest
  else if c = '\"' then l.scalar false fun p => readQuoted true (p.right 1) rest
  else if c = '\'' then l.scalar false fun p => readQuoted false (p.right 1) rest
  else if l.startsPlain c rest then
    l.scalar true fun p => readPlain (l.flow ≠ 0) l.scalarIndent p (c :: rest)
  else .error .badStart

/-- Read all tokens of a text, at most the given number. -/
def run (l : Layout) : Nat → List Char → Except Fault Layout
  | 0, _ => .ok l
  | rounds + 1, text =>
      let (l, text) := l.skipBlanks false text
      match l.dropStale with
      | .error e => .error e
      | .ok l =>
          match text with
          | [] => l.unrollAll.removeKey
          | c :: rest =>
              match (l.unroll l.place.column).token c rest with
              | .error e => .error e
              | .ok (l, text) => l.run rounds text

end Layout

/-- The tokens of a text.  Every token takes at least one character, so there are at most as many
tokens to read as there are characters. -/
def tokens (text : String) : Except Fault (List Token) :=
  let text := text.toList
  if text.all isAllowed then
    match Layout.start.run (text.length + 1) text with
    | .ok l => .ok l.tokens.toList
    | .error e => .error e
  else .error .control

end FrontEnd.Yaml
