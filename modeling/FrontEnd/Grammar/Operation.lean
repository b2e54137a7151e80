import FrontEnd.Grammar.Arena

/-!
# The life of an arena

## Main Definitions

* `Arena.Operation`, `Arena.Reply` — what can be done with drafts, handles and grammars, and what
  comes of it
* `Arena.Allowed` — what can be done at the moment
* `Arena.perform` — do it

## Design Notes

**Only what is there can be used.**  Declaring, building and dropping need a draft that has not been
used up, and dropping a grammar needs the grammar.  Defining a rule needs some draft to go through,
which may belong to an entirely different grammar.  A handle can be used at any time.
-/

namespace FrontEnd.Arena

/-- What can be done with drafts, handles and grammars. -/
inductive Operation (κ ν : Type) where
  /-- Begin a draft. -/
  | begin
  /-- Declare a rule in a draft. -/
  | declare (draft : Nat) (name : String)
  /-- Define the rule behind a handle, going through a draft. -/
  | define (through number : Nat) (definition : Definition κ (Handle ν) ν)
  /-- Turn a draft into a grammar. -/
  | build (draft : Nat) (top : Definition κ (Handle ν) ν)
  /-- Drop a draft. -/
  | drop (draft : Nat)
  /-- Drop the grammar built from a draft. -/
  | dropBuilt (draft : Nat)

/-- What comes of an operation. -/
inductive Reply (κ ν : Type) where
  | begun (draft : Nat)
  | declared (number : Nat)
  | defined (result : Except GrammarError Unit)
  | built (result : Except GrammarError (Grammar κ ν))
  | dropped

variable {κ ν : Type}

/-- Whether the drafts and grammars that an operation uses are there. -/
def Allowed (a : Arena κ ν) : Operation κ ν → Prop
  | .begin => True
  | .declare draft _ => a.drafts[draft]? = some .drafting
  | .define through _ _ => a.drafts[through]? = some .drafting
  | .build draft _ => a.drafts[draft]? = some .drafting
  | .drop draft => a.drafts[draft]? = some .drafting
  | .dropBuilt draft => a.drafts[draft]? = some .built

/-- Perform an operation.  A definition that fails leaves the arena as it was. -/
def perform (a : Arena κ ν) : Operation κ ν → Arena κ ν × Reply κ ν
  | .begin => (a.begin, .begun a.drafts.size)
  | .declare draft name => (a.declare draft name, .declared a.slots.size)
  | .define _ number definition =>
      match a.define number definition with
      | .ok a' => (a', .defined (.ok ()))
      | .error e => (a, .defined (.error e))
  | .build draft top =>
      match a.build draft with
      | (a', .ok ()) => (a', .built (.ok ⟨draft, top⟩))
      | (a', .error e) => (a', .built (.error e))
  | .drop draft => (a.drop draft, .dropped)
  | .dropBuilt draft => (a.dropBuilt draft, .dropped)

end FrontEnd.Arena
