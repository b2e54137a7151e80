import FrontEnd.Proofs.Parser.Reach

/-!
# Recursion that ends

Rules may call one another, and themselves, as long as something is read in between.  A ranking of
the rules guarantees that: before it has read a token, a rule may only enter rules of a lower rank.

## Main Definitions

* `Rules.guardedCall` — run a rule, and refuse to enter a rule again before a token has been read
* `Rules.Ranked` — rules that lead with rules of a lower rank only

## Main Results

* `Rules.Ranked.tracks_guardedCall` — ranked rules come to an end, and are never refused
* `Rules.Ranked.exists_guardedCall` — so they do at the depth of a run

## Design Notes

**Rules that are open.**  A guarded run keeps a list of the rules that it is in the middle of, each
with the position at which it was entered.  To enter a rule that is open at a position which is not
behind it would be to go round in a circle.

**The measure.**  What is left of the stream counts more than the rank of a rule: every token that
is read makes room for all ranks again.
-/

namespace FrontEnd

/-- A rule that is being run, by its number, and the position at which it was entered. -/
structure OpenRule where
  number : Nat
  position : Nat

namespace Rules

variable {κ : Type} [DecidableEq κ] [TokenKind κ] {ρ : Type → Type}

/-- Run a rule, entering rules at most to the given depth.  A rule must not be entered while it is
open at the same position or further on: no token has been read since then. -/
def guardedCall (rules : Rules κ ρ) (number : {α : Type} → ρ α → Nat) (s : TokenStream κ) :
    Nat → List OpenRule → {α : Type} → ρ α → Runner α
  | 0, _, _, _, _ => .error .unbounded
  | depth + 1, opened, _, reference, c =>
      if opened.any fun o => o.number = number reference ∧ c.position ≤ o.position then
        .error .unbounded
      else
        match rules.lookup reference with
        | .error e => .error e
        | .ok definition =>
            (definition.parser.meaning s
              (rules.guardedCall number s depth (⟨number reference, c.position⟩ :: opened))).value c

/-- Rules of some sort stand for definitions that refer to rules of this sort, and lead with rules
of a lower rank. -/
structure Ranked (rules : Rules κ ρ) (own : {α : Type} → ρ α → Prop)
    (number : {α : Type} → ρ α → Nat) (rank : Nat → Nat) (height : Nat) : Prop where
  low : ∀ {α : Type} (reference : ρ α), own reference → rank (number reference) < height
  enters : ∀ {α : Type} (reference : ρ α), own reference →
    ∃ definition, rules.lookup reference = .ok definition ∧ definition.parser.RefersTo own ∧
      definition.parser.Leads fun next => rank (number next) < rank (number reference)

namespace Ranked

variable {rules : Rules κ ρ} {own : {α : Type} → ρ α → Prop}
  {number : {α : Type} → ρ α → Nat} {rank : Nat → Nat} {height : Nat}

/-- **Ranked rules end.**  Given enough depth for what is left of the stream, a rule comes to an end
from every position, and no rule is entered again before a token has been read. -/
theorem tracks_guardedCall (h : rules.Ranked own number rank height) {s : TokenStream κ}
    {depth : Nat} {opened : List OpenRule} {α : Type} {reference : ρ α} (mem : own reference)
    {i : Nat} (inside : i < s.size)
    (enough : (s.size - 1 - i) * height + rank (number reference) < depth)
    (apart : ∀ o ∈ opened, o.position < i ∨
      o.position = i ∧ rank (number reference) < rank o.number) :
    (rules.guardedCall number s depth opened reference).Tracks (fun _ => False) i
      (rules.call s depth reference) := by
  induction depth generalizing α opened i with
  | zero => cases enough
  | succ depth ih =>
    obtain ⟨definition, found, refers, leads⟩ := h.enters reference mem
    -- Rules that are open elsewhere were entered before, those that are open here rank higher.
    have free (mark : Nat) : ¬(opened.any fun o =>
        o.number = number reference ∧ (⟨i, mark⟩ : Cursor).position ≤ o.position) = true := by
      intro closed
      obtain ⟨o, member, same⟩ := List.any_eq_true.1 closed
      obtain ⟨number, le⟩ := of_decide_eq_true same
      rcases apart o member with before | ⟨-, lower⟩
      · exact Nat.not_le_of_lt before le
      · rw [number] at lower
        exact Nat.lt_irrefl _ lower
    have same (mark : Nat) : rules.guardedCall number s (depth + 1) opened reference ⟨i, mark⟩ =
        (definition.parser.meaning s
          (rules.guardedCall number s depth (⟨number reference, i⟩ :: opened))).value
            ⟨i, mark⟩ := by
      rw [guardedCall, if_neg (free mark), found]
    have here : definition.parser.Leads fun next =>
        (rules.guardedCall number s depth (⟨number reference, i⟩ :: opened) next).Tracks
          (fun _ => False) i (rules.call s depth next) := by
      refine (refers.leads.both leads).mono fun next ⟨mem, lower⟩ => ih mem inside (by omega) ?_
      intro o member
      rcases List.mem_cons.1 member with rfl | member
      · exact .inr ⟨rfl, lower⟩
      · exact (apart o member).imp_right fun ⟨position, above⟩ =>
          ⟨position, Nat.lt_trans lower above⟩
    have later : definition.parser.RefersTo fun next => ∀ j, i < j → j < s.size →
        (rules.guardedCall number s depth (⟨number reference, i⟩ :: opened) next).Tracks
          (fun _ => False) j (rules.call s depth next) := by
      refine refers.mono fun next mem j after inside' => ih mem inside' ?_ ?_
      · have low := h.low next mem
        have room : (s.size - 1 - j + 1) * height ≤ (s.size - 1 - i) * height :=
          Nat.mul_le_mul_right _ (by omega)
        rw [Nat.succ_mul] at room
        omega
      · intro o member
        rcases List.mem_cons.1 member with rfl | member
        · exact .inl after
        · rcases apart o member with before | ⟨position, -⟩ <;> exact .inl (by omega)
    have tracks := (Parser.tracks_meaning inside here later).value
    intro mark
    rw [same, call_succ found]
    exact tracks mark

/-- At the depth of a run, ranked rules come to an end from every position, guarded or not. -/
theorem exists_guardedCall (h : rules.Ranked own number rank height) (few : height ≤ rules.count)
    (s : TokenStream κ) {α : Type} {reference : ρ α} (mem : own reference) {c : Cursor}
    (inside : c.position < s.size) :
    ∃ result, rules.guardedCall number s (rules.depth s) [] reference c = .ok result ∧
      rules.call s (rules.depth s) reference c = .ok result := by
  have enough : (s.size - 1 - c.position) * height + rank (number reference) < rules.depth s := by
    have low := h.low reference mem
    have room : (s.size - 1 - c.position + 1) * height ≤ (s.size + 1) * (rules.count + 1) :=
      Nat.mul_le_mul (by omega) (by omega)
    rw [Nat.succ_mul, Nat.mul_comm (s.size + 1)] at room
    rw [Rules.depth]
    omega
  obtain ⟨same, faults⟩ := h.tracks_guardedCall mem inside enough (List.forall_mem_nil _)
    c.furthest
  cases run : rules.call s (rules.depth s) reference c with
  | error e => exact (faults e run).elim
  | ok result => exact ⟨result, same.trans run, rfl⟩

end Ranked

end Rules

end FrontEnd
