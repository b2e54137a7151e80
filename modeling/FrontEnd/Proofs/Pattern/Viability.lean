import FrontEnd.Proofs.Pattern.Notation

/-!
# Where a text stops being a pattern

A text that is no pattern is rejected at a position.  What stands in front of that position is the
front of a pattern, and what stands up to the offending character is not; or else the whole text is
such a front, and only ends too early.

## Main Definitions

* `Pattern.Viable` — characters that some pattern begins with

## Main Results

* `Reader.exists_takes_pattern` — whatever has been read, some text makes a pattern of it
* `Reader.exists_step_of_run` — a text is rejected at one of its characters
* `Reader.position_of_step` — the position that a rejected character is reported at
* `Pattern.read_blames_viable_front` — the position of a rejected text

## Design Notes

**The reader knows no dead ends.**  Any state of it can be led to the end of a pattern: the class is
given a member and closed, the groups are closed, and one more character keeps the pattern from
being made up of groups only.  So reading fails at the earliest character possible.

**An inverted range is reported where it begins.**  It is recognised at its last member, two
characters behind the reported one.  Up to the dash it could have been something else.
-/

namespace FrontEnd

/-- A sequence is made up of groups only if both of its parts are. -/
theorem Pattern.onlyLoops_append (p q : Pattern) :
    (p ++ q).onlyLoops = (p.onlyLoops && q.onlyLoops) := by
  induction p with
  | done => rfl
  | char c rest => rfl
  | oneOf items rest => rfl
  | loop body rest _ ih => exact ih

/-- A class only rejects the last member of an inverted range, two characters behind the first. -/
theorem Bracket.step_eq_error {b : Bracket} {position k : Nat} {c : Char}
    {fault : Pattern.Fault} (failed : b.step position c = .error (k, fault)) :
    k = position - 2 ∧ fault = .invertedRange ∧ ∃ a, b.tail = .dash a := by
  obtain ⟨settled, tail⟩ := b
  cases tail with
  | fresh => cases failed
  | range => cases failed
  | member a =>
    simp only [Bracket.step] at failed
    split at failed <;> cases failed
  | dash a =>
    simp only [Bracket.step] at failed
    split at failed
    · cases failed
    · cases failed
      exact ⟨rfl, rfl, a, rfl⟩

namespace Reader

/-! ### From any state to a pattern -/

/-- A class can be closed, once it has a member. -/
theorem exists_takes_closed (r : Reader) :
    ∃ more current, r.Takes more ⟨r.outer, current, none⟩ := by
  obtain ⟨outer, current, bracket⟩ := r
  cases bracket with
  | none => exact ⟨[], current, .nil _⟩
  | some b =>
    have close {b : Bracket} (nonempty : b.tail ≠ .fresh) :
        (⟨outer, current, some b⟩ : Reader).Takes [']']
          ⟨outer, current ++ .oneOf b.items .done, none⟩ :=
      .single fun position => by simp [step, stepBracket, nonempty]
    by_cases fresh : b.tail = .fresh
    · have member (position : Nat) : b.step position 'a' = .ok ⟨b.settled, .member 'a'⟩ := by
        simp [Bracket.step, fresh]
      exact ⟨['a', ']'], _,
        .cons (fun position => step_bracket (by decide) (member position)) (close (by simp))⟩
    · exact ⟨[']'], _, close fresh⟩

/-- Open groups can be closed. -/
theorem exists_takes_outermost (outer : List Pattern) (current : Pattern) :
    ∃ more whole, (⟨outer, current, none⟩ : Reader).Takes more ⟨[], whole, none⟩ := by
  induction outer generalizing current with
  | nil => exact ⟨[], current, .nil _⟩
  | cons before outer ih =>
    obtain ⟨more, whole, taken⟩ := ih (before ++ .loop current .done)
    exact ⟨')' :: more, whole, .cons (fun position => rfl) taken⟩

/-- **Whatever has been read, some text makes a pattern of it.** -/
theorem exists_takes_pattern (r : Reader) :
    ∃ more p, p.onlyLoops = false ∧ r.Takes more ⟨[], p, none⟩ := by
  obtain ⟨inClass, current, closed⟩ := r.exists_takes_closed
  obtain ⟨inGroups, whole, outermost⟩ := exists_takes_outermost r.outer current
  have last : (⟨[], whole, none⟩ : Reader).Takes ['a'] ⟨[], whole ++ .char 'a' .done, none⟩ :=
    .single fun position => rfl
  refine ⟨inClass ++ (inGroups ++ ['a']), whole ++ .char 'a' .done, ?_,
    closed.append (outermost.append last)⟩
  rw [Pattern.onlyLoops_append]
  exact Bool.and_false _

/-! ### Where reading fails -/

/-- A text that is rejected is rejected at one of its characters. -/
theorem exists_step_of_run {r : Reader} {position : Nat} {text : List Char}
    {fault : Nat × Pattern.Fault} (failed : r.run position text = .error fault) :
    ∃ front c back r', text = front ++ c :: back ∧ r.run position front = .ok r' ∧
      r'.step (position + front.length) c = .error fault := by
  induction text generalizing r position with
  | nil => cases failed
  | cons c text ih =>
    rw [run] at failed
    cases first : r.step position c with
    | error fault' =>
      rw [first] at failed
      cases failed
      exact ⟨[], c, text, r, rfl, rfl, first⟩
    | ok r₁ =>
      rw [first] at failed
      obtain ⟨front, d, back, r', rfl, ran, rejected⟩ := ih failed
      refine ⟨c :: front, d, back, r', rfl, ?_, ?_⟩
      · rw [run, first]
        exact ran
      · rwa [List.length_cons, Nat.add_comm front.length, ← Nat.add_assoc]

/-- A rejected character is reported at its own position, unless it makes an inverted range of what
is pending.  That there is nothing but groups is never said of a character. -/
theorem position_of_step {r : Reader} {position k : Nat} {c : Char} {fault : Pattern.Fault}
    (failed : r.step position c = .error (k, fault)) :
    fault ≠ .onlyEmpty ∧
      (k = position ∨ k = position - 2 ∧ ∃ b a, r.bracket = some b ∧ b.tail = .dash a) := by
  obtain ⟨outer, current, bracket⟩ := r
  cases bracket with
  | none =>
    suffices at_it : fault ≠ .onlyEmpty ∧ k = position from ⟨at_it.1, .inl at_it.2⟩
    simp only [step, stepUnit] at failed
    split at failed
    · cases failed
    split at failed
    · cases failed
    split at failed
    · cases failed
      exact ⟨Pattern.Fault.noConfusion, rfl⟩
    split at failed
    · cases outer with
      | nil =>
        cases failed
        exact ⟨Pattern.Fault.noConfusion, rfl⟩
      | cons before outer => cases failed
    · cases failed
  | some b =>
    simp only [step, stepBracket] at failed
    split at failed
    · split at failed
      · cases failed
        exact ⟨Pattern.Fault.noConfusion, .inl rfl⟩
      · cases failed
    · cases inner : b.step position c with
      | ok b' => simp [inner] at failed
      | error found =>
        simp only [inner, Except.error.injEq] at failed
        subst failed
        obtain ⟨behind, rfl, pending⟩ := Bracket.step_eq_error inner
        exact ⟨Pattern.Fault.noConfusion, .inr ⟨behind, b, pending.imp fun a tail => ⟨rfl, tail⟩⟩⟩

/-- A text that ends too early is reported at its end. -/
theorem finish_eq_error {r : Reader} {length k : Nat} {fault : Pattern.Fault}
    (failed : r.finish length = .error (k, fault)) : fault ≠ .onlyEmpty ∧ k = length := by
  obtain ⟨outer, current, bracket⟩ := r
  cases bracket with
  | some b =>
    cases failed
    refine ⟨?_, rfl⟩
    unfold Bracket.openFault
    split <;> exact Pattern.Fault.noConfusion
  | none =>
    simp only [finish] at failed
    split at failed
    · cases failed
    · cases failed
      exact ⟨Pattern.Fault.noConfusion, rfl⟩

/-- Where a dash is pending, it has been read, and a member in front of it. -/
theorem exists_written_of_dash {front : List Char} {r : Reader} {b : Bracket} {a : Char}
    (ran : Reader.start.run 0 front = .ok r) (bracket : r.bracket = some b)
    (pending : b.tail = .dash a) : ∃ before, front = before ++ [a, '-'] := by
  have written : r.written = front := (settled_start.run ran).2
  refine ⟨writtenBefore r.outer ++ r.current.write ++
    '[' :: b.settled.flatMap ClassItem.write, ?_⟩
  rw [← written, Reader.written, bracket, Option.elim_some, Bracket.written, pending,
    List.append_assoc _ _ [a, '-']]
  rfl

/-- A front of what has been read has been read. -/
theorem exists_run_of_prefix {r r' : Reader} {position : Nat} {front text : List Char}
    (inside : front <+: text) (ran : r.run position text = .ok r') :
    ∃ r₁, r.run position front = .ok r₁ := by
  obtain ⟨back, rfl⟩ := inside
  cases first : r.run position front with
  | ok r₁ => exact ⟨r₁, rfl⟩
  | error fault =>
    obtain ⟨before, c, after, r₁, rfl, ran', rejected⟩ := exists_step_of_run first
    rw [List.append_assoc, run_append ran', List.cons_append, run, rejected] at ran
    cases ran

end Reader

namespace Pattern

/-! ### Viable fronts -/

/-- Some text that is read as a pattern begins with these characters. -/
def Viable (front : List Char) : Prop := ∃ text p, read text = .ok p ∧ front <+: text.toList

/-- What has been read without a fault is the front of a pattern. -/
theorem viable_of_run {front : List Char} {r : Reader}
    (ran : Reader.start.run 0 front = .ok r) : Viable front := by
  obtain ⟨more, p, consumes, taken⟩ := r.exists_takes_pattern
  refine ⟨String.ofList (front ++ more), p, ?_, by simp⟩
  rw [read_eq_ok_iff_readChars, String.toList_ofList, readChars_eq_ok_iff, readUnits,
    Reader.run_append ran, taken]
  exact ⟨rfl, consumes⟩

/-- Every front of a pattern can be read without a fault. -/
theorem Viable.exists_run {front : List Char} (h : Viable front) :
    ∃ r, Reader.start.run 0 front = .ok r := by
  obtain ⟨text, p, accepted, inside⟩ := h
  have units := (readChars_eq_ok_iff.1 (read_eq_ok_iff_readChars.1 accepted)).1
  rw [readUnits] at units
  cases whole : Reader.start.run 0 text.toList with
  | error fault => simp [whole] at units
  | ok r => exact Reader.exists_run_of_prefix inside whole

/-- **A rejected character** ends what can be the front of a pattern.  What stands in front of the
reported position still is one, and the character is found within the next three. -/
theorem viable_of_run_eq_error {text : List Char} {k : Nat} {fault : Fault}
    (failed : Reader.start.run 0 text = .error (k, fault)) :
    fault ≠ .onlyEmpty ∧ k ≤ text.length ∧ Viable (text.take k) ∧
      ¬ Viable (text.take (min (k + 3) text.length)) := by
  obtain ⟨front, c, back, r, rfl, ran, rejected⟩ := Reader.exists_step_of_run failed
  rw [Nat.zero_add] at rejected
  obtain ⟨proper, at_or_behind⟩ := Reader.position_of_step rejected
  have length : (front ++ c :: back).length = front.length + (back.length + 1) := by simp
  -- Wherever the report points, it is a front of what has been read, and close to the character.
  have near : k ≤ front.length ∧ front.length < k + 3 := by
    rcases at_or_behind with rfl | ⟨rfl, b, a, bracket, pending⟩
    · exact ⟨Nat.le_refl _, by omega⟩
    · obtain ⟨before, rfl⟩ := Reader.exists_written_of_dash ran bracket pending
      simp
  obtain ⟨le, close⟩ := near
  refine ⟨proper, by omega, ?_, fun viable => ?_⟩
  · rw [List.take_append_of_le_length le]
    obtain ⟨r₁, ran₁⟩ := Reader.exists_run_of_prefix (List.take_prefix k front) ran
    exact viable_of_run ran₁
  · have reaches : front ++ [c] <+: (front ++ c :: back).take (min (k + 3)
        (front ++ c :: back).length) := by
      rw [List.prefix_take_iff, List.length_append, List.length_singleton, length]
      exact ⟨⟨back, by simp⟩, by omega⟩
    obtain ⟨r₁, ran₁⟩ := viable.exists_run
    obtain ⟨r₂, ran₂⟩ := Reader.exists_run_of_prefix reaches ran₁
    rw [Reader.run_append ran, Nat.zero_add, Reader.run, rejected] at ran₂
    cases ran₂

/-- **A text is rejected where it stops being the front of a pattern.**  What stands in front of the
reported position can be extended to a pattern.  If the text is not just made up of groups, which is
reported at its start, then either it has come to its end too early, or no pattern begins with the
text up to three characters behind the position. -/
theorem read_blames_viable_front {text : String} {e : Error} (rejected : read text = .error e) :
    e.position ≤ text.length ∧ Viable (text.toList.take e.position) ∧
      (e.fault = .onlyEmpty ∧ e.position = 0 ∨
        e.fault ≠ .onlyEmpty ∧
          (e.position = text.length ∨
            ¬ Viable (text.toList.take (min (e.position + 3) text.length)))) := by
  rw [← String.length_toList]
  rw [read] at rejected
  cases whole : readChars text.toList with
  | ok p => simp [whole] at rejected
  | error found =>
    obtain ⟨k, fault⟩ := found
    simp only [whole, Except.error.injEq] at rejected
    subst rejected
    simp only [readChars, readUnits] at whole
    cases ran : Reader.start.run 0 text.toList with
    | error fault' =>
      rw [ran] at whole
      cases whole
      obtain ⟨proper, le, viable, ends⟩ := viable_of_run_eq_error ran
      exact ⟨le, viable, .inr ⟨proper, .inr ends⟩⟩
    | ok r =>
      have viable := viable_of_run ran
      simp only [ran] at whole
      cases ended : r.finish text.toList.length with
      | error fault' =>
        rw [ended] at whole
        cases whole
        obtain ⟨proper, rfl⟩ := Reader.finish_eq_error ended
        rw [List.take_length]
        exact ⟨Nat.le_refl _, viable, .inr ⟨proper, .inl rfl⟩⟩
      | ok p =>
        simp only [ended] at whole
        split at whole
        · cases whole
          exact ⟨Nat.zero_le _, viable_of_run (r := .start) rfl, .inl ⟨rfl, rfl⟩⟩
        · cases whole

/-- An inverted range in a group: the class may go on in other ways up to its first member, but not
with the range. -/
theorem read_blames_viable_front_range :
    read "(x[b-a])" = .error ⟨"(x[b-a])", 3, .invertedRange⟩ ∧
      Viable "(x[".toList ∧ ¬ Viable "(x[b-a".toList := by
  have rejected : read "(x[b-a])" = .error ⟨"(x[b-a])", 3, .invertedRange⟩ := rfl
  obtain ⟨-, viable, ⟨empty, -⟩ | ⟨-, short | final⟩⟩ := read_blames_viable_front rejected
  · cases empty
  · exact absurd short (by decide)
  · exact ⟨rejected, viable, final⟩

end Pattern

end FrontEnd
