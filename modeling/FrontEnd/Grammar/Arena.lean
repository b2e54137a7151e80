import FrontEnd.Parser.Run
import FrontEnd.Text.Quoted

/-!
# Grammars with forward-declared rules

A recursive grammar is drafted in an arena: its rules are declared first, handed out as handles that
parser expressions may mention, and defined afterwards.

## Main Definitions

* `Handle` — a reference to a declared rule
* `Arena` — all declared rules with the drafts they belong to
* `Arena.declare`, `Arena.define`, `Arena.build` — the life of a draft
* `Arena.drop`, `Arena.dropBuilt` — the end of a draft, or of the grammar built from it
* `Arena.rules` — what handles mean at the moment
* `GrammarError` — why a rule or a grammar cannot be completed

## Design Notes

**A handle owns nothing.**  It is the number of a slot.  The slot belongs to the draft that declared
it, and stays in place as long as that draft, or the grammar built from it, stands.  A handle that
outlives both is detached.

**One type of values.**  All rules of an arena yield a `ν`, although the rules of a grammar may well
yield trees of different types.  Nothing depends on that.  A definition is stored as it is given and
handed out as it was stored; declaring, defining, building and dropping go by names, numbers and
standings only, and have the same effect whatever the rules yield (`Arena.History.map`).  For a
grammar whose rules yield several types, `ν` is their sum: a rule wraps its tree, and whoever refers
to the rule unwraps it.  The parses are those of the rules with types of their own
(`Language.parseAll_drafted`).

**Rules are defined once.**  Any draft may define any rule that still stands, but a rule never
changes its definition.

**Building uses up the draft.**  From then on its rules stand as long as the grammar does, whatever
becomes of the draft.  If a rule lacks its definition the whole draft falls, and with it all its
rules.
-/

namespace FrontEnd

/-- A reference to a declared rule that yields a `ν`: the number of its slot. -/
inductive Handle (ν : Type) : Type → Type where
  | mk (slot : Nat) : Handle ν ν

/-- Why a rule or a grammar cannot be completed. -/
inductive GrammarError where
  /-- A rule was never defined. -/
  | undefined (name : String)
  /-- A rule was defined a second time. -/
  | alreadyDefined (name : String)
  /-- The draft or grammar of a rule is gone. -/
  | detached
  deriving DecidableEq

/-- The sentence about a grammar error. -/
def GrammarError.message : GrammarError → String
  | undefined name => "rule `" ++ name ++ "` is never defined"
  | alreadyDefined name => "rule `" ++ name ++ "` is defined more than once"
  | detached => "rule handle outlived its grammar builder"

/-- How far a draft has come. -/
inductive Standing where
  /-- Rules are being declared and defined. -/
  | drafting
  /-- A grammar has been built from the draft. -/
  | built
  /-- The draft, or the grammar built from it, is gone. -/
  | dropped
  deriving DecidableEq

/-- A declared rule. -/
structure Slot (κ ν : Type) where
  name : String
  /-- The draft that declared the rule. -/
  draft : Nat
  definition : Option (Definition κ (Handle ν) ν)

/-- All declared rules, and the standing of all drafts. -/
structure Arena (κ ν : Type) where
  slots : Array (Slot κ ν)
  drafts : Array Standing

namespace Arena

variable {κ ν : Type}

/-- An arena without drafts. -/
def empty : Arena κ ν := ⟨#[], #[]⟩

/-- Begin a draft; its number is the number of drafts before. -/
def begin (a : Arena κ ν) : Arena κ ν := { a with drafts := a.drafts.push .drafting }

/-- Whether a draft, or the grammar built from it, still stands. -/
def stands (a : Arena κ ν) (draft : Nat) : Bool :=
  match a.drafts[draft]? with
  | some .drafting => true
  | some .built => true
  | some .dropped => false
  | none => false

/-- Declare a rule in a draft; its handle is the number of slots before. -/
def declare (a : Arena κ ν) (draft : Nat) (name : String) : Arena κ ν :=
  { a with slots := a.slots.push ⟨name, draft, none⟩ }

/-- The slot behind a number, as long as its draft stands. -/
def slot? (a : Arena κ ν) (number : Nat) : Option (Slot κ ν) :=
  a.slots[number]?.filter fun slot => a.stands slot.draft

/-- The name of a rule, as long as it stands. -/
def nameOf (a : Arena κ ν) (number : Nat) : Option String := (a.slot? number).map Slot.name

/-- Whether a rule stands and has its definition. -/
def isDefined (a : Arena κ ν) (number : Nat) : Bool :=
  ((a.slot? number).bind Slot.definition).isSome

/-- Define a rule. -/
def define (a : Arena κ ν) (number : Nat) (definition : Definition κ (Handle ν) ν) :
    Except GrammarError (Arena κ ν) :=
  match a.slot? number with
  | none => .error .detached
  | some slot =>
      match slot.definition with
      | some _ => .error (.alreadyDefined slot.name)
      | none =>
          .ok { a with
            slots := a.slots.modify number fun s => { s with definition := some definition } }

/-- The rules of a draft in the order of declaration. -/
def slotsOf (a : Arena κ ν) (draft : Nat) : List (Slot κ ν) :=
  a.slots.toList.filter fun slot => slot.draft = draft

/-- The number of rules that a draft has declared. -/
def ruleCount (a : Arena κ ν) (draft : Nat) : Nat := (a.slotsOf draft).length

/-- The names of the rules of a draft in the order of declaration. -/
def ruleNames (a : Arena κ ν) (draft : Nat) : List String := (a.slotsOf draft).map Slot.name

/-- Change the standing of a draft. -/
def mark (a : Arena κ ν) (draft : Nat) (standing : Standing) : Arena κ ν :=
  { a with drafts := a.drafts.modify draft fun _ => standing }

/-- Drop a draft: all its handles are detached.  A draft that building has used up has no rules
left to drop. -/
def drop (a : Arena κ ν) (draft : Nat) : Arena κ ν :=
  if a.drafts[draft]? = some .drafting then a.mark draft .dropped else a

/-- Drop the grammar built from a draft: all its handles are detached. -/
def dropBuilt (a : Arena κ ν) (draft : Nat) : Arena κ ν :=
  if a.drafts[draft]? = some .built then a.mark draft .dropped else a

/-- Turn a draft into a grammar.  Fails at the first rule without a definition, and then drops the
draft. -/
def build (a : Arena κ ν) (draft : Nat) : Arena κ ν × Except GrammarError Unit :=
  match (a.slotsOf draft).find? fun slot => slot.definition.isNone with
  | some slot => (a.mark draft .dropped, .error (.undefined slot.name))
  | none => (a.mark draft .built, .ok ())

/-- The definition behind a handle, or the reason why it cannot be entered. -/
def lookup (a : Arena κ ν) : {α : Type} → Handle ν α →
    Except Fault (Definition κ (Handle ν) α)
  | _, .mk number =>
      match a.slot? number with
      | none => .error .detached
      | some slot =>
          match slot.definition with
          | none => .error (.undefined slot.name)
          | some definition => .ok definition

/-- What the handles mean at the moment. -/
def rules (a : Arena κ ν) : Rules κ (Handle ν) := ⟨a.slots.size, a.lookup⟩

end Arena

/-- A built grammar: the draft it was built from and its entry rule. -/
structure Grammar (κ ν : Type) where
  draft : Nat
  top : Definition κ (Handle ν) ν

/-- A grammar described by the names of its rules. -/
def describeGrammar (names : List String) : String :=
  "Grammar \x7b rules: " ++ Text.quotedList names ++ " \x7d"

end FrontEnd
