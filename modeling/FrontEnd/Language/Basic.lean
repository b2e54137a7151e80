import FrontEnd.Language.Error
import FrontEnd.Language.Outline
import FrontEnd.Language.Rule

/-!
# A small imperative language

A program is a list of functions over integers:

```text
defun fib(n) {
    if (n < 2) { return n; }
    return fib(n - 1) + fib(n - 2);
}
```

## Main Definitions

* `Language.scanner` — the scanner, built once
* `Language.analyse`, `Language.tokenize` — the tokens of a source
* `Language.parseProgram` — the program that a source denotes
-/

namespace FrontEnd.Language

/-- The scanner of the language. -/
def scanner : Except RuleError (Scanner Kind) := buildScanner

/-- The tokens of a source, closed by the end token. -/
def tokenize (source file : String) : Except Error (TokenStream Kind) :=
  match scanner with
  | .error e => .error (.rules e)
  | .ok s =>
      match s.tokenize source file with
      | .ok stream => .ok stream
      | .error e => .error (.scan e)

/-- The tokens of a source, without the end token. -/
def analyse (source file : String) : Except Error (List (Token Kind)) :=
  match scanner with
  | .error e => .error (.rules e)
  | .ok s =>
      match s.analyse source file with
      | .ok tokens => .ok tokens
      | .error e => .error (.scan e)

/-- The program that a source denotes. -/
def parseProgram (source file : String) : Except Error Program :=
  match tokenize source file with
  | .error e => .error e
  | .ok stream =>
      match parseStream stream with
      | .error fault => .error (.stuck fault)
      | .ok (.error e) => .error (.parse e)
      | .ok (.ok program) => .ok program

end FrontEnd.Language
