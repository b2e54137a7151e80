import FrontEnd.Proofs.Language.Denotation

/-!
# Programs behind one another

The text of a program with the text of another program right behind it is the text of a program: it
has the functions of the first one, and then those of the second one.

## Main Definitions

* `Language.Sealed` — a text that ends with a closing brace or with white space, if at all

## Main Results

* `Scanner.Longest.append` — when a longest match stays one in front of more text
* `Language.exists_cuts_append` — what two texts emit when they are cut as one
* `Language.parseProgram_append` — parsing takes the concatenation of sources to that of programs

## Design Notes

**The seam.**  A text may be cut differently once another text stands behind it, as some word may go
on across the seam.  The text of a program ends with a closing brace or with white space, and this
decides what can happen: no word goes on behind a closing brace; and where white space goes on
behind white space, two pieces become one, but neither of them would have emitted a token.
-/

namespace FrontEnd

namespace Scanner

variable {κ : Type} [DecidableEq κ] {rules : List (Rule κ)} {text word back : List Char}
  {action : Action κ}

/-- What counts for a word is its longest match if there is no more text. -/
theorem Wins.longest (h : Wins rules word action) : Longest rules word word action where
  nonempty := by
    obtain ⟨⟨r, -, -, matched⟩, -⟩ := h
    exact matched.ne_nil
  front := List.prefix_rfl
  wins := h
  longest _ front less := absurd front.length_le (Nat.not_le.2 less)

/-- A longest match stays one in front of more text, if no match goes on into it. -/
theorem Longest.append (h : Longest rules text word action)
    (apart : ∀ more, more ≠ [] → more <+: back → ¬ Matched rules (text ++ more)) :
    Longest rules (text ++ back) word action where
  nonempty := h.nonempty
  front := h.front.trans (List.prefix_append text back)
  wins := h.wins
  longest longer front less := by
    rcases List.prefix_or_prefix_of_prefix front (List.prefix_append text back) with inside | past
    · exact h.longest longer inside less
    · obtain ⟨more, rfl⟩ := past
      by_cases empty : more = []
      · rw [empty, List.append_nil] at less ⊢
        exact h.longest text List.prefix_rfl less
      · exact apart more empty ((List.prefix_append_right_inj text).1 front)

end Scanner

namespace Language

open Scanner

/-! ### The seam -/

variable {text word rest back : List Char} {action : Action Kind}
  {pieces behind : List (List Char × Action Kind)}

/-- A text that ends with a closing brace or with white space, unless it is empty. -/
def Sealed (text : List Char) : Prop := ∀ c ∈ text.getLast?, c = closing ∨ c ∈ blanks

theorem Sealed.of_append {front : List Char} (closed : Sealed (front ++ text)) : Sealed text := by
  intro c last
  refine closed c ?_
  rw [List.getLast?_append, Option.mem_def.1 last]
  rfl

/-- What goes on behind a sealed text is white space, and so is the text. -/
theorem blank_of_matched_append (closed : Sealed text) (nonempty : text ≠ []) {more : List Char}
    (goesOn : more ≠ []) (matched : Matched lexicon (text ++ more)) : Blank (text ++ more) := by
  have mem : text.getLast nonempty ∈ text ++ more :=
    List.mem_append_left more (List.getLast_mem nonempty)
  rcases closed _ (List.getLast?_eq_getLast_of_ne_nil nonempty) with last | last
  · rw [last] at mem
    have alone := congrArg List.length (eq_of_matched matched mem)
    have first := List.length_pos_of_ne_nil nonempty
    have second := List.length_pos_of_ne_nil goesOn
    rw [List.length_append, List.length_singleton] at alone
    omega
  · exact blank_of_matched matched mem last

/-- A piece in front of the last one stays. -/
theorem longest_append_of_rest (back : List Char) (closed : Sealed (word ++ rest))
    (left : rest ≠ []) (taken : Longest lexicon (word ++ rest) word action) :
    Longest lexicon (word ++ rest ++ back) word action := by
  refine taken.append fun more goesOn _ matched => ?_
  have nonempty : word ++ rest ≠ [] := List.append_ne_nil_of_right_ne_nil word left
  -- The whole text would be white space, and a longer match.
  have blank := blank_of_matched_append closed nonempty goesOn matched
  have whole := matched_blank nonempty fun c mem => blank c (List.mem_append_left more mem)
  refine taken.longest _ List.prefix_rfl ?_ whole
  rw [List.length_append]
  exact Nat.lt_add_of_pos_right (List.length_pos_of_ne_nil left)

/-- White space in front of white space becomes one piece with it. -/
theorem longest_append_of_blank {front : List Char} (nonempty : front ≠ []) (blank : Blank front)
    (taken : Longest lexicon (word ++ rest) word action) (more : Blank word) :
    Longest lexicon (front ++ word ++ rest) (front ++ word) .ignore where
  nonempty := List.append_ne_nil_of_left_ne_nil nonempty word
  front := List.prefix_append (front ++ word) rest
  wins := wins_blank (List.append_ne_nil_of_left_ne_nil nonempty word)
    (List.forall_mem_append.2 ⟨blank, more⟩)
  longest longer within less matched := by
    -- What is longer would be white space as well, and without the front a longer match.
    obtain ⟨first, mem⟩ := List.exists_mem_of_ne_nil front nonempty
    have covers : front <+: longer :=
      List.prefix_of_prefix_length_le
        ((List.prefix_append front word).trans (List.prefix_append (front ++ word) rest)) within
        (by rw [List.length_append] at less; omega)
    obtain ⟨tail, rfl⟩ := covers
    have whole := blank_of_matched matched (List.mem_append_left tail mem) (blank first mem)
    rw [List.append_assoc, List.prefix_append_right_inj] at within
    rw [List.length_append, List.length_append, Nat.add_lt_add_iff_left] at less
    refine taken.longest tail within less (matched_blank ?_ (List.forall_mem_append.1 whole).2)
    exact List.ne_nil_of_length_pos (Nat.zero_lt_of_lt less)

/-- The last piece of a text stays, or it becomes one piece with the white space that follows. -/
theorem exists_cuts_piece (closed : Sealed word) (taken : Longest lexicon word word action)
    (cuts : Cuts (Longest lexicon) back behind []) :
    ∃ merged, Cuts (Longest lexicon) (word ++ back) merged [] ∧
      merged.filterMap emitted = ((word, action) :: behind).filterMap emitted := by
  by_cases goesOn : ∃ more, more ≠ [] ∧ more <+: back ∧ Matched lexicon (word ++ more)
  · obtain ⟨more, some, front, matched⟩ := goesOn
    have blank := blank_of_matched_append closed taken.nonempty some matched
    obtain ⟨mine, others⟩ := List.forall_mem_append.1 blank
    cases cuts with
    | stop => exact absurd (List.prefix_nil.1 front) some
    | @piece next rest _ act behind taken' cuts' =>
      -- The next piece begins with the white space that goes on, so it is white space.
      obtain ⟨c, word, rfl⟩ := List.exists_cons_of_ne_nil taken.nonempty
      obtain ⟨d, next, rfl⟩ := List.exists_cons_of_ne_nil taken'.nonempty
      obtain ⟨e, more, rfl⟩ := List.exists_cons_of_ne_nil some
      obtain ⟨rfl, -⟩ := List.cons_prefix_cons.1 front
      have mineIgnored :=
        eq_ignore_of_wins taken.wins List.mem_cons_self (mine c List.mem_cons_self)
      have nextIgnored :=
        eq_ignore_of_wins taken'.wins List.mem_cons_self (others e List.mem_cons_self)
      subst mineIgnored nextIgnored
      have joined := longest_append_of_blank taken.nonempty mine taken'
        (blank_of_wins_ignore taken'.wins)
      rw [← List.append_assoc]
      exact ⟨_, .piece joined cuts', rfl⟩
  · have stays := taken.append fun more some front matched => goesOn ⟨more, some, front, matched⟩
    exact ⟨(word, action) :: behind, .piece stays cuts, rfl⟩

theorem filterMap_emitted_cons (piece : List Char × Action Kind)
    (pieces : List (List Char × Action Kind)) :
    (piece :: pieces).filterMap emitted = [piece].filterMap emitted ++ pieces.filterMap emitted :=
  List.filterMap_append (l := [piece])

/-- **Two texts cut as one.**  If the first one is sealed, then together they emit what the first
one emits and then what the second one emits. -/
theorem exists_cuts_append (closed : Sealed text)
    (cuts : Cuts (Longest lexicon) text pieces []) (cuts' : Cuts (Longest lexicon) back behind []) :
    ∃ merged, Cuts (Longest lexicon) (text ++ back) merged [] ∧
      merged.filterMap emitted = pieces.filterMap emitted ++ behind.filterMap emitted := by
  generalize finish : ([] : List Char) = last at cuts
  induction cuts with
  | stop => exact ⟨behind, by rwa [← finish], rfl⟩
  | @piece word rest last action pieces taken later ih =>
    obtain ⟨merged, whole, emits⟩ := ih closed.of_append finish
    subst finish
    by_cases left : rest = []
    · subst left
      rw [List.append_nil] at taken closed ⊢
      obtain ⟨merged', whole', emits'⟩ := exists_cuts_piece closed taken whole
      refine ⟨merged', whole', ?_⟩
      rw [emits', filterMap_emitted_cons _ merged, filterMap_emitted_cons _ pieces, emits,
        List.append_assoc]
    · have stays := longest_append_of_rest back closed left taken
      rw [List.append_assoc] at stays ⊢
      refine ⟨(word, action) :: merged, .piece stays whole, ?_⟩
      rw [filterMap_emitted_cons _ merged, filterMap_emitted_cons _ pieces, emits,
        List.append_assoc]

/-! ### Programs end with a closing brace -/

theorem Program.unparse_append (p q : Program) :
    Program.unparse ⟨p.functions ++ q.functions⟩ = p.unparse ++ q.unparse :=
  List.flatMap_append

/-- A program with functions is written with a closing brace at its end. -/
theorem Program.getLast?_unparse (p : Program) :
    ∀ x ∈ p.unparse.getLast?, x = .mark .rightBrace := by
  obtain ⟨functions⟩ := p
  intro x last
  rcases List.eq_nil_or_concat' functions with rfl | ⟨front, f, rfl⟩
  · cases last
  · have ending : Program.unparse ⟨front ++ [f]⟩ =
        (front.flatMap Function.unparse ++ (.mark .defunWord :: .name f.name ::
          inParens (separated [.mark .comma] (fun name => [.name name]) f.parameters) ++
          .mark .leftBrace :: f.body.flatMap Statement.unparse)) ++ [.mark .rightBrace] := by
      simp only [Program.unparse, Function.unparse, unparseBody, inBraces, List.flatMap_append,
        List.flatMap_singleton, List.append_assoc, List.cons_append]
    rw [ending, List.getLast?_append] at last
    exact (Option.some.inj last).symm

/-- The text of a program is sealed. -/
theorem sealed_of_spelled {p : Program} (cuts : Cuts (Longest lexicon) text pieces [])
    (spelled : Spell (pieces.filterMap emitted) p.unparse) : Sealed text := by
  intro c last
  obtain rfl := cuts.flatten_eq
  rcases List.eq_nil_or_concat' pieces with rfl | ⟨front, ⟨word, action⟩, rfl⟩
  · cases last
  · obtain ⟨_, taken⟩ := cuts.exists_next_of_mem (List.mem_append_right front List.mem_cons_self)
    rw [List.map_append, List.flatten_append, List.map_singleton, List.flatten_singleton,
      List.getLast?_append_of_ne_nil _ taken.nonempty] at last
    cases action with
    | ignore => exact .inr (blank_of_wins_ignore taken.wins c (List.mem_of_getLast? last))
    | emit kind =>
      -- What the last piece emits is the last symbol of the program.
      rw [Spell, List.filterMap_append, ← List.forall₂_reverse_iff, List.reverse_append] at spelled
      obtain ⟨x, symbols, first, -, reversed⟩ := List.forall₂_cons_left_iff.1 spelled
      have closes : x = .mark .rightBrace := by
        refine p.getLast?_unparse x ?_
        rw [List.getLast?_eq_head?_reverse, reversed]
        rfl
      subst closes
      obtain rfl : kind = .rightBrace := first
      rw [eq_of_wins_rightBrace taken.wins] at last
      exact .inl (Option.some.inj last).symm

/-- **Parsing takes the concatenation of sources to that of programs.**  If two sources parse, then
the second one right behind the first one parses as well, and yields the functions of the first
program followed by those of the second one. -/
theorem parseProgram_append {front back : String} {p q : Program} {file file' : String}
    (parsed : parseProgram front file = .ok p) (parsed' : parseProgram back file' = .ok q)
    (anyFile : String) :
    parseProgram (front ++ back) anyFile = .ok ⟨p.functions ++ q.functions⟩ := by
  obtain ⟨pieces, cuts, spelled⟩ := parseProgram_eq_ok_iff.1 parsed
  obtain ⟨behind, cuts', spelled'⟩ := parseProgram_eq_ok_iff.1 parsed'
  obtain ⟨merged, whole, emits⟩ := exists_cuts_append (sealed_of_spelled cuts spelled) cuts cuts'
  rw [← String.toList_append] at whole
  refine parseProgram_eq_ok_iff.2 ⟨merged, whole, ?_⟩
  rw [emits, Program.unparse_append]
  exact List.rel_append spelled spelled'

/-- The tokens of a function without parameters and statements. -/
def emptyFunction (name : String) : List (Kind × String) :=
  [(.defunWord, "defun"), (.identifier, name), (.leftParen, "("), (.rightParen, ")"),
    (.leftBrace, "\x7b"), (.rightBrace, "\x7d")]

/-- White space meets white space at the seam of two functions. -/
theorem parseProgram_append_defun :
    parseProgram "defun f() \x7b\x7d\n" "f.prog" = .ok ⟨[⟨"f", [], []⟩]⟩ ∧
      parseProgram "\n defun g() \x7b\x7d" "g.prog" = .ok ⟨[⟨"g", [], []⟩]⟩ ∧
      parseProgram ("defun f() \x7b\x7d\n" ++ "\n defun g() \x7b\x7d") "fg.prog" =
        .ok ⟨[⟨"f", [], []⟩, ⟨"g", [], []⟩]⟩ := by
  have shown : shownIn "defun f() \x7b\x7d\n" "f.prog" = some (emptyFunction "f") ∧
      shownIn "\n defun g() \x7b\x7d" "g.prog" = some (emptyFunction "g") := by decide +kernel
  have parsed : parseProgram "defun f() \x7b\x7d\n" "f.prog" = .ok ⟨[⟨"f", [], []⟩]⟩ :=
    parseProgram_eq_ok.2 ⟨_, shown.1, by decide +kernel⟩
  have parsed' : parseProgram "\n defun g() \x7b\x7d" "g.prog" = .ok ⟨[⟨"g", [], []⟩]⟩ :=
    parseProgram_eq_ok.2 ⟨_, shown.2, by decide +kernel⟩
  exact ⟨parsed, parsed', parseProgram_append parsed parsed' "fg.prog"⟩

end Language

end FrontEnd
