import FrontEnd.Scanner.Error
import FrontEnd.Scanner.Munch
import FrontEnd.Source.TokenStream

/-!
# Scanners

A scanner is an ordered list of rules.  Each rule has a pattern and says what to do with the text it
matches: emit a token of some kind, or ignore it.

## Main Definitions

* `Action` — what a rule does with its matches
* `Scanner` — the registered rules, and the automaton once it has been built
* `Scanner.addRule`, `Scanner.ignoreRule`, `Scanner.addRules` — registration
* `Scanner.analyse`, `Scanner.tokenize` — the tokens of a source
* `Scanner.Operation`, `Scanner.perform` — the life of a scanner as a sequence of operations

## Design Notes

**The automaton is built once.**  It is kept after its first use and forgotten when a further rule
is registered.  A registration that fails changes nothing.

**A name belongs to a kind.**  The last successful registration of a kind names it.  Ignoring rules
have no kind; messages call all of them by the same placeholder.
-/

namespace FrontEnd

/-- What a rule does with the text it matches. -/
inductive Action (κ : Type) where
  /-- Emit a token of the given kind. -/
  | emit (kind : κ)
  /-- Drop the text. -/
  | ignore
  deriving DecidableEq

/-- A scanner: the automaton of its rules, their order, the names of the kinds, and the
deterministic automaton if it has been built. -/
structure Scanner (κ : Type) where
  nfa : Nfa (Action κ)
  /-- The actions of the rules in the order of registration. -/
  order : List (Action κ)
  /-- Names of kinds, the latest first. -/
  names : List (κ × String)
  /-- The automaton of the rules, once it has been built. -/
  built : Option (Dfa (Action κ))

namespace Scanner

variable {κ : Type} [DecidableEq κ] [TokenKind κ]

/-- A scanner without rules; the end kind has its name from the start. -/
def empty : Scanner κ := ⟨.empty, [], [(endKind, "END")], none⟩

/-- The name under which messages refer to ignoring rules. -/
def ignoredName : String := "<ignored>"

/-- Register a rule under a name for messages. -/
def register (s : Scanner κ) (action : Action κ) (name pattern : String) :
    Except RuleError (Scanner κ) :=
  match s.nfa.register pattern action with
  | .ok nfa => .ok { s with nfa, order := s.order ++ [action], built := none }
  | .error e => .error (.invalidPattern name e)

/-- Register a rule whose matches are dropped. -/
def ignoreRule (s : Scanner κ) (pattern : String) : Except RuleError (Scanner κ) :=
  s.register .ignore ignoredName pattern

/-- Register a rule whose matches become tokens of a kind. -/
def addRule (s : Scanner κ) (kind : κ) (name pattern : String) : Except RuleError (Scanner κ) :=
  if kind = endKind then .error (.reservedKind name)
  else
    match s.register (.emit kind) name pattern with
    | .ok s' => .ok { s' with names := (kind, name) :: s'.names }
    | .error e => .error e

/-- Register rules one after the other, up to the first that fails.  The rules before it stay
registered. -/
def addRules (s : Scanner κ) : List (κ × String × String) → Scanner κ × Except RuleError Unit
  | [] => (s, .ok ())
  | (kind, name, pattern) :: rest =>
      match s.addRule kind name pattern with
      | .ok s' => s'.addRules rest
      | .error e => (s, .error e)

/-- The name of a kind. -/
def nameOf (s : Scanner κ) (kind : κ) : Option String := s.names.lookup kind

/-- The number of registered rules. -/
def ruleCount (s : Scanner κ) : Nat := s.order.length

/-- The deterministic automaton of the rules. -/
def automaton (s : Scanner κ) : Dfa (Action κ) :=
  s.built.getD (.determinize s.nfa s.order)

/-- The scanner with its automaton built. -/
def compile (s : Scanner κ) : Scanner κ := { s with built := some s.automaton }

/-- Whether the automaton has been built. -/
def isCompiled (s : Scanner κ) : Bool := s.built.isSome

/-- The token of a span, unless the span is ignored. -/
def tokenOf (span : Span (Action κ)) : Option (Token κ) :=
  match span.accept with
  | .emit kind => some ⟨kind, String.ofList span.text, span.place⟩
  | .ignore => none

/-- The tokens of a source and the place of its end. -/
def scan (s : Scanner κ) (source file : String) :
    Except ScanError (List (Token κ) × Location) :=
  match s.automaton.spans 0 .start source.toList with
  | .ok (spans, last) => .ok (spans.filterMap tokenOf, last)
  | .error e => .error ⟨file, e.place, String.ofList e.text⟩

/-- The tokens of a source. -/
def analyse (s : Scanner κ) (source file : String) : Except ScanError (List (Token κ)) :=
  match s.scan source file with
  | .ok (tokens, _) => .ok tokens
  | .error e => .error e

/-- The tokens of a source as a stream. -/
def tokenize (s : Scanner κ) (source file : String) : Except ScanError (TokenStream κ) :=
  match s.scan source file with
  | .ok (tokens, last) => .ok (.ofTokens tokens last)
  | .error e => .error e

/-- What can be asked of a scanner during its life. -/
inductive Operation (κ : Type) where
  | addRule (kind : κ) (name pattern : String)
  | ignoreRule (pattern : String)
  | addRules (rules : List (κ × String × String))
  | compile
  | analyse (source file : String)
  | tokenize (source file : String)

/-- The answer to an operation. -/
inductive Reply (κ : Type) [TokenKind κ] where
  | registered (result : Except RuleError Unit)
  | compiled (automaton : Dfa (Action κ))
  | analysed (result : Except ScanError (List (Token κ)))
  | tokenized (result : Except ScanError (TokenStream κ))

/-- Take over the result of a registration; a failure leaves the scanner as it was. -/
def settle (s : Scanner κ) : Except RuleError (Scanner κ) → Scanner κ × Reply κ
  | .ok s' => (s', .registered (.ok ()))
  | .error e => (s, .registered (.error e))

/-- Perform one operation. -/
def perform (s : Scanner κ) : Operation κ → Scanner κ × Reply κ
  | .addRule kind name pattern => s.settle (s.addRule kind name pattern)
  | .ignoreRule pattern => s.settle (s.ignoreRule pattern)
  | .addRules rules => let (s', result) := s.addRules rules; (s', .registered result)
  | .compile => (s.compile, .compiled s.automaton)
  | .analyse source file => (s.compile, .analysed (s.analyse source file))
  | .tokenize source file => (s.compile, .tokenized (s.tokenize source file))

omit [TokenKind κ] in
@[simp] theorem automaton_compile (s : Scanner κ) : s.compile.automaton = s.automaton := rfl

end Scanner

end FrontEnd
