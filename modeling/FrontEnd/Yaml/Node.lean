import FrontEnd.Yaml.Token

/-!
# Nodes of YAML documents

The tree of scalars, sequences and mappings that a document denotes.

## Main Definitions

* `Yaml.Node` — scalars, sequences, mappings, named nodes and aliases
* `Yaml.Document` — a node and the nodes that aliases in it stand for
* `Yaml.Setting` — what kinds of nodes may stand at a place
* `Yaml.Feed` — tokens to read, and what was declared before them
* `Yaml.readNode` — the node at the front of a feed
* `Yaml.document` — the only document of a text

## Design Notes

**Missing nodes are empty.**  A key without a value, a value without a key and an entry without
anything behind its dash stand for the empty plain scalar.  So does a node of which there is only a
name or a tag.

**A sequence may be as far left as its key.**  Such a sequence has no mark for its start and none
for its end.  It ends at the first token that is not a dash.

**Aliases go by number.**  A name is given the number of names that there are before it.  An alias
stands for the last node with the number of its name, even if that node comes later or was given
another name.  Aliases are not replaced by their nodes: a node may contain an alias of itself.

**Depth is bounded by the tokens.**  Of the calls inside each other at least every fourth one takes
a token, so four times as many calls as there are tokens are enough.
-/

namespace FrontEnd.Yaml

/-- The tree that a document denotes. -/
inductive Node where
  | scalar (text : String) (plain : Bool)
  | sequence (items : List Node)
  | mapping (entries : List (Node × Node))
  /-- A node with the number of its name. -/
  | anchored (number : Nat) (node : Node)
  /-- Stands for the node with a number. -/
  | reference (number : Nat)

namespace Node

/-- What stands for a missing node. -/
def empty : Node := .scalar "" true

mutual

/-- The named nodes of a tree with their numbers, in the order in which they begin. -/
def named : Node → List (Nat × Node)
  | .scalar _ _ => []
  | .sequence items => namedItems items
  | .mapping entries => namedEntries entries
  | .anchored number node => (number, node) :: node.named
  | .reference _ => []

/-- The named nodes among the items of a sequence. -/
def namedItems : List Node → List (Nat × Node)
  | [] => []
  | item :: rest => item.named ++ namedItems rest

/-- The named nodes among the entries of a mapping. -/
def namedEntries : List (Node × Node) → List (Nat × Node)
  | [] => []
  | (key, value) :: rest => key.named ++ value.named ++ namedEntries rest

end

mutual

/-- The number of marks that a tree is written with: one for a scalar or an alias, and two around
what a collection holds. -/
def size : Node → Nat
  | .scalar _ _ => 1
  | .sequence items => 2 + itemsSize items
  | .mapping entries => 2 + entriesSize entries
  | .anchored _ node => node.size
  | .reference _ => 1

/-- The number of marks of the items of a sequence. -/
def itemsSize : List Node → Nat
  | [] => 0
  | item :: rest => item.size + itemsSize rest

/-- The number of marks of the entries of a mapping. -/
def entriesSize : List (Node × Node) → Nat
  | [] => 0
  | (key, value) :: rest => key.size + value.size + entriesSize rest

end

/-- Whether a tree is an alias. -/
def isReference : Node → Bool
  | .reference _ => true
  | _ => false

/-- The tree without its own name, or the one that it stands for.  Named nodes are found by their
numbers. -/
def resolve (table : List (Nat × Node)) : Node → Node
  | .anchored _ node => node
  | .reference number => (table.lookup number).getD .empty
  | node => node

end Node

/-- A document. -/
structure Document where
  root : Node
  /-- The named nodes.  Of several with one number the first counts. -/
  table : List (Nat × Node)

namespace Document

/-- The document with a root. -/
def ofRoot (root : Node) : Document := ⟨root, root.named.reverse⟩

/-- How often a reader of a document may follow an alias: a hundred times for each mark of its tree.
A document in which aliases stand for nodes with further aliases could otherwise be far larger than
its text. -/
def maxSteps (document : Document) : Nat := 100 * document.root.size

end Document

/-- What kinds of nodes may stand at a place. -/
inductive Setting where
  /-- Inside brackets: no block collections. -/
  | flow
  /-- In a block: block collections with marks. -/
  | block
  /-- Key or value of a block mapping: also sequences that are no further right than the key. -/
  | keyed
  deriving DecidableEq

/-! ### Feeds -/

/-- Tokens to read, and what was declared before them. -/
structure Feed where
  tokens : List Token
  /-- The names so far with their numbers. -/
  names : List (List Char × Nat)
  /-- The handles that tags may have. -/
  handles : List (List Char)

namespace Feed

/-- The tokens from which a document is read whose directives declare some handles. -/
def start (handles : List (List Char)) (tokens : List Token) : Feed :=
  ⟨tokens, [], [[], ['!'], ['!', '!']] ++ handles⟩

/-- The same feed with other tokens to come. -/
def resume (feed : Feed) (tokens : List Token) : Feed := { feed with tokens }

/-- Give the next number to a name. -/
def declare (feed : Feed) (name : List Char) : Feed :=
  { feed with names := (name, feed.names.length) :: feed.names.filter (·.1 ≠ name) }

end Feed

/-- The properties of a node: the name and the handle of the tag. -/
structure Properties where
  name : Option (List Char)
  handle : Option (List Char)
  deriving DecidableEq

namespace Properties

/-- Take the properties at the front of a list of tokens: a name, a tag or both in any order. -/
def take : List Token → Properties × List Token
  | .anchor name :: .tag handle :: rest => (⟨some name, some handle⟩, rest)
  | .tag handle :: .anchor name :: rest => (⟨some name, some handle⟩, rest)
  | .anchor name :: rest => (⟨some name, none⟩, rest)
  | .tag handle :: rest => (⟨none, some handle⟩, rest)
  | rest => (⟨none, none⟩, rest)

/-- Whether there are none. -/
def isEmpty (p : Properties) : Bool := p = ⟨none, none⟩

end Properties

/-- A node, or several of them, and what is to be read behind. -/
abbrev Reading (α : Type) := Except Fault (α × Feed)

/-- What was read, wrapped up. -/
def Reading.wrap {α β : Type} (f : α → β) : Reading α → Reading β
  | .ok (a, rest) => .ok (f a, rest)
  | .error e => .error e

/-- Go on behind what was read. -/
def Reading.andThen {α β : Type} (r : Reading α) (next : α → Feed → Reading β) : Reading β :=
  match r with
  | .ok (a, rest) => next a rest
  | .error e => .error e

/-- Tokens in front of which an entry of a block sequence is empty. -/
def endsEntry : List Token := [.blockEntry, .blockEnd]

/-- Tokens in front of which an entry of a sequence without marks is empty. -/
def endsLooseEntry : List Token := [.blockEntry, .key, .value, .blockEnd]

/-- Tokens in front of which a key or value of a block mapping is empty. -/
def endsBlockPart : List Token := [.key, .value, .blockEnd]

/-! ### Reading nodes -/

mutual

/-- Read the node at the front of a feed, with at most so many calls inside each other. -/
def readNode : Nat → Setting → Feed → Reading Node
  | 0, _, _ => .error .content
  | depth + 1, setting, feed =>
      match feed.tokens with
      | .reference name :: rest =>
          match feed.names.lookup name with
          | some number => .ok (.reference number, feed.resume rest)
          | none => .error .unknownAlias
      | tokens =>
          let (properties, rest) := Properties.take tokens
          if properties.handle.all feed.handles.contains then
            match properties.name with
            | none => readBare depth setting properties.isEmpty (feed.resume rest)
            | some name =>
                (readBare depth setting false ((feed.resume rest).declare name)).wrap
                  (.anchored feed.names.length)
          else .error .unknownTag

/-- Read a node behind its properties.  Without properties it must not be empty. -/
def readBare : Nat → Setting → Bool → Feed → Reading Node
  | 0, _, _, _ => .error .content
  | depth + 1, setting, isRequired, feed =>
      let missing : Reading Node := if isRequired then .error .content else .ok (.empty, feed)
      match feed.tokens with
      | .scalar text plain :: rest => .ok (.scalar (String.ofList text) plain, feed.resume rest)
      | .sequenceStart :: rest => (readFlowItems depth (feed.resume rest)).wrap .sequence
      | .mappingStart :: rest => (readFlowPairs depth (feed.resume rest)).wrap .mapping
      | .blockSequence :: rest =>
          if setting = .flow then missing else (readEntries depth (feed.resume rest)).wrap .sequence
      | .blockMapping :: rest =>
          if setting = .flow then missing else (readPairs depth (feed.resume rest)).wrap .mapping
      | .blockEntry :: _ =>
          if setting = .keyed then (readLooseEntries depth feed).wrap .sequence else missing
      | _ => missing

/-- Read a node that is empty in front of certain tokens. -/
def readOptional : Nat → Setting → List Token → Feed → Reading Node
  | 0, _, _, _ => .error .content
  | depth + 1, setting, ends, feed =>
      if feed.tokens.head?.any ends.contains then .ok (.empty, feed)
      else readNode depth setting feed

/-- Read the entries of a block sequence up to its end. -/
def readEntries : Nat → Feed → Reading (List Node)
  | 0, _ => .error .content
  | depth + 1, feed =>
      match feed.tokens with
      | .blockEntry :: rest =>
          (readOptional depth .block endsEntry (feed.resume rest)).andThen fun item feed =>
            (readEntries depth feed).wrap (item :: ·)
      | .blockEnd :: rest => .ok ([], feed.resume rest)
      | _ => .error .content

/-- Read the entries of a sequence without marks. -/
def readLooseEntries : Nat → Feed → Reading (List Node)
  | 0, _ => .error .content
  | depth + 1, feed =>
      match feed.tokens with
      | .blockEntry :: rest =>
          (readOptional depth .block endsLooseEntry (feed.resume rest)).andThen fun item feed =>
            (readLooseEntries depth feed).wrap (item :: ·)
      | _ => .ok ([], feed)

/-- Read the pairs of a block mapping up to its end. -/
def readPairs : Nat → Feed → Reading (List (Node × Node))
  | 0, _ => .error .content
  | depth + 1, feed =>
      match feed.tokens with
      | .key :: rest =>
          (readOptional depth .keyed endsBlockPart (feed.resume rest)).andThen fun key feed =>
            (readValue depth .keyed endsBlockPart feed).andThen fun value feed =>
              (readPairs depth feed).wrap ((key, value) :: ·)
      | .blockEnd :: rest => .ok ([], feed.resume rest)
      | _ => .error .content

/-- Read the value behind a key.  Without the mark of a value it is empty. -/
def readValue : Nat → Setting → List Token → Feed → Reading Node
  | 0, _, _, _ => .error .content
  | depth + 1, setting, ends, feed =>
      match feed.tokens with
      | .value :: rest => readOptional depth setting ends (feed.resume rest)
      | _ => .ok (.empty, feed)

/-- Read the items of a sequence in brackets up to the closing one.  A key among them makes a
mapping with a single pair. -/
def readFlowItems : Nat → Feed → Reading (List Node)
  | 0, _ => .error .content
  | depth + 1, feed =>
      match feed.tokens with
      | .sequenceEnd :: rest => .ok ([], feed.resume rest)
      | .key :: rest =>
          (readLoneKey depth (feed.resume rest)).andThen fun key feed =>
            (readValue depth .flow [.flowEntry, .sequenceEnd] feed).andThen fun value feed =>
              (readMoreItems depth feed).wrap (.mapping [(key, value)] :: ·)
      | _ =>
          (readNode depth .flow feed).andThen fun item feed =>
            (readMoreItems depth feed).wrap (item :: ·)

/-- Read the key of a single pair.  The token in front of which it is empty is dropped. -/
def readLoneKey : Nat → Feed → Reading Node
  | 0, _ => .error .content
  | depth + 1, feed =>
      match feed.tokens with
      | .value :: rest => .ok (.empty, feed.resume rest)
      | .flowEntry :: rest => .ok (.empty, feed.resume rest)
      | .sequenceEnd :: rest => .ok (.empty, feed.resume rest)
      | _ => readNode depth .flow feed

/-- Read on behind an item in brackets: the closing bracket, or a comma and further items. -/
def readMoreItems : Nat → Feed → Reading (List Node)
  | 0, _ => .error .content
  | depth + 1, feed =>
      match feed.tokens with
      | .sequenceEnd :: rest => .ok ([], feed.resume rest)
      | .flowEntry :: rest => readFlowItems depth (feed.resume rest)
      | _ => .error .content

/-- Read the pairs of a mapping in braces up to the closing one.  A node without the mark of a key
is a key with an empty value. -/
def readFlowPairs : Nat → Feed → Reading (List (Node × Node))
  | 0, _ => .error .content
  | depth + 1, feed =>
      match feed.tokens with
      | .mappingEnd :: rest => .ok ([], feed.resume rest)
      | .key :: rest =>
          (readOptional depth .flow [.value, .flowEntry, .mappingEnd] (feed.resume rest)).andThen
            fun key feed =>
              (readValue depth .flow [.flowEntry, .mappingEnd] feed).andThen fun value feed =>
                (readMorePairs depth feed).wrap ((key, value) :: ·)
      | _ =>
          (readNode depth .flow feed).andThen fun key feed =>
            (readMorePairs depth feed).wrap ((key, .empty) :: ·)

/-- Read on behind a pair in braces: the closing brace, or a comma and further pairs. -/
def readMorePairs : Nat → Feed → Reading (List (Node × Node))
  | 0, _ => .error .content
  | depth + 1, feed =>
      match feed.tokens with
      | .mappingEnd :: rest => .ok ([], feed.resume rest)
      | .flowEntry :: rest => readFlowPairs depth (feed.resume rest)
      | _ => .error .content

end

/-! ### Documents -/

/-- Read a tree with as many calls inside each other as it may need. -/
def readTree (feed : Feed) : Reading Node := readNode (4 * feed.tokens.length + 4) .block feed

/-- The root of a document whose start is marked.  Nothing at all behind the mark is empty. -/
def readContent (feed : Feed) : Reading Node :=
  match feed.tokens with
  | [] => .ok (.empty, feed)
  | .documentStart :: _ => .ok (.empty, feed)
  | .documentEnd :: _ => .ok (.empty, feed)
  | _ => readTree feed

/-- Whether the format has a version. -/
def isKnownVersion (major minor : List Char) : Bool :=
  let number (digits : List Char) : Nat := Nat.ofDigitChars 10 digits 0
  number major = 1 && (number minor = 1 || number minor = 2)

/-- Take the directives in front of a document.  The version may be named once, and a handle may be
declared once. -/
def takeDirectives (isVersioned : Bool) (handles : List (List Char)) :
    List Token → Except Fault (List (List Char) × List Token)
  | .directive (.version major minor) :: rest =>
      if isVersioned || !isKnownVersion major minor then .error .badDirective
      else takeDirectives true handles rest
  | .directive (.handle name) :: rest =>
      if handles.contains name then .error .badDirective
      else takeDirectives isVersioned (name :: handles) rest
  | rest => .ok (handles, rest)

/-- The root of the first document.  Behind directives its start must be marked. -/
def readRoot (tokens : List Token) : Reading Node :=
  match takeDirectives false [] tokens with
  | .error e => .error e
  | .ok (handles, .documentStart :: rest) => readContent (.start handles rest)
  | .ok (_, rest) =>
      if rest.length < tokens.length then .error .badDirective else readTree (.start [] tokens)

/-- The only document of a text.  A text without a document has none. -/
def document (text : String) : Except Fault (Option Document) :=
  match tokens text with
  | .error e => .error e
  | .ok [] => .ok none
  | .ok tokens =>
      match readRoot tokens with
      | .error e => .error e
      | .ok (root, rest) =>
          match rest.tokens.dropWhile (· = .documentEnd) with
          | [] => .ok (some (.ofRoot root))
          | _ => .error .moreDocuments

end FrontEnd.Yaml
