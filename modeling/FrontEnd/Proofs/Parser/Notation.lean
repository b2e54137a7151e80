import FrontEnd.Proofs.Parser.Reading

/-!
# Readings and notations

A notation says how values are written.  A reading reads this notation if tokens are only read as
values whose notation they spell.

## Main Definitions

* `Reading.Reads` — tokens spell the notation of whatever they may be read as
* `Readings.Reads` — the same for the value and the items of an expression
* `Tuple.front`, `Tuple.back` — the two parts of the items of a sequence

## Design Notes

**Tuples are spelled item by item.**  The items of a sequence are spelled one behind the other, with
what is dropped in between; `Tuple.front` and `Tuple.back` take the spelling of a sequence apart as
`Tuple.append` has put its items together.
-/

namespace FrontEnd

namespace Tuple

/-- The items of the first part of a sequence. -/
def front : {first second : List Type} → Tuple (first ++ second) → Tuple first
  | [], _, _ => ()
  | _ :: _, _, (a, rest) => (a, front rest)

/-- The items of the second part of a sequence. -/
def back : {first second : List Type} → Tuple (first ++ second) → Tuple second
  | [], _, rest => rest
  | _ :: first, second, (_, rest) => @back first second rest

theorem front_append {first second : List Type} (t : Tuple first) (u : Tuple second) :
    (t.append u).front = t := by
  induction first with
  | nil => rfl
  | cons _ first ih => exact congrArg (Prod.mk t.1) (ih t.2)

theorem back_append {first second : List Type} (t : Tuple first) (u : Tuple second) :
    (t.append u).back = u := by
  induction first with
  | nil => rfl
  | cons _ first ih => exact ih t.2

end Tuple

variable {κ σ α β : Type}

namespace Reading

/-- Tokens spell the notation of whatever they may be read as. -/
def Reads (spells : Token κ → σ → Prop) (R : Reading κ α) (spell : α → List σ) : Prop :=
  ∀ w a, R w a → List.Forall₂ spells w (spell a)

variable {spells : Token κ → σ → Prop} {R : Reading κ α} {Q : Reading κ β} {spell : α → List σ}
  {spell' : β → List σ} {between : List σ}

theorem Reads.map (h : R.Reads spells spell) {f : α → β}
    (same : ∀ a, spell' (f a) = spell a) : (R.map f).Reads spells spell' := by
  rintro w _ ⟨a, read, rfl⟩
  rw [same]
  exact h w a read

theorem Reads.pair (h : R.Reads spells spell) (h' : Q.Reads spells spell') :
    (R.pair Q).Reads spells fun both => spell both.1 ++ spell' both.2 := by
  rintro _ both ⟨u, v, rfl, read, read'⟩
  exact List.rel_append (h u both.1 read) (h' v both.2 read')

theorem Reads.orElse {Q : Reading κ α} (h : R.Reads spells spell)
    (h' : Q.Reads spells spell) : (R.orElse Q).Reads spells spell := by
  rintro w a (read | read)
  · exact h w a read
  · exact h' w a read

theorem Reads.optional (h : R.Reads spells spell) :
    R.optional.Reads spells fun value => (value.map spell).getD [] := by
  intro w value read
  cases value with
  | none =>
    cases read
    exact .nil
  | some a => exact h w a read

theorem Reads.many (h : R.Reads spells spell) :
    R.many.Reads spells (List.flatMap spell) := by
  intro w as read
  induction as generalizing w with
  | nil =>
    cases read
    exact .nil
  | cons a as ih =>
    obtain ⟨u, v, rfl, first, later⟩ := read
    rw [List.flatMap_cons]
    exact List.rel_append (h u a first) (ih v later)

theorem Reads.separatedBy (h : R.Reads spells spell)
    (h' : Q.Reads spells fun _ => between) :
    (R.separatedBy Q).Reads spells (separated between spell) := by
  intro w as read
  cases as with
  | nil =>
    cases read
    exact .nil
  | cons a as =>
    obtain ⟨u, v, rfl, first, later⟩ := read
    have item : ((Q.pair R).map Prod.snd).Reads spells fun b => between ++ spell b :=
      (h'.pair h).map fun _ => rfl
    exact List.rel_append (h u a first) (item.many v as later)

theorem reads_token {kind : κ} {x : Token κ → σ} (same : ∀ t, t.kind = kind → spells t (x t)) :
    (token kind).Reads spells fun t => [x t] := by
  rintro _ t ⟨rfl, kind⟩
  exact .cons (same t kind) .nil

end Reading

/-! ### Expressions -/

/-- An expression reads one notation for the value, and another one for the items as part of a
sequence. -/
structure Readings.Reads {items : List Type} (spells : Token κ → σ → Prop)
    (R : Readings κ items α) (spell : α → List σ) (spellParts : Tuple items → List σ) : Prop where
  value : R.value.Reads spells spell
  parts : R.parts.Reads spells spellParts

/-- A single item is spelled like the value. -/
theorem Readings.Reads.single {spells : Token κ → σ → Prop} {R : Reading κ α}
    {spell : α → List σ} (h : R.Reads spells spell) :
    (Readings.single R).Reads spells spell fun t => spell t.1 := ⟨h, h.map fun _ => rfl⟩

namespace Parser

variable {spells : Token κ → σ → Prop} {ρ : Type → Type}
  {language : {α : Type} → ρ α → Reading κ α} {items first second : List Type}

theorem reads_token {kind : κ} {x : Token κ → σ} (same : ∀ t, t.kind = kind → spells t (x t)) :
    ((token kind : Parser κ ρ _ _).readings language).Reads spells (fun t => [x t])
      fun t => [x t.1] := .single (Reading.reads_token same)

theorem reads_ignore {kind : κ} {x : σ} (same : ∀ t, t.kind = kind → spells t x) :
    ((ignore kind : Parser κ ρ _ _).readings language).Reads spells (fun _ => [x])
      fun _ => [x] := by
  have read := Reading.reads_token (x := fun _ => x) same
  exact ⟨read.map fun _ => rfl, read.map fun _ => rfl⟩

theorem reads_finish :
    ((finish : Parser κ ρ _ _).readings language).Reads spells (fun _ => [])
      fun _ => [] := by
  have still : (Reading.finish : Reading κ Unit).Reads spells fun _ => [] := by
    rintro _ _ rfl
    exact .nil
  exact ⟨still, still⟩

variable {p : Parser κ ρ first α} {q : Parser κ ρ second β} {spell : α → List σ}
  {spellParts : Tuple first → List σ} {spell' : β → List σ} {spellParts' : Tuple second → List σ}

theorem reads_seq (h : (p.readings language).Reads spells spell spellParts) :
    (p.seq.readings language).Reads spells spellParts spellParts := ⟨h.parts, h.parts⟩

theorem reads_map (h : (p.readings language).Reads spells spell spellParts) {f : α → β}
    (same : ∀ a, spell' (f a) = spell a) :
    ((p.map f).readings language).Reads spells spell' fun t => spell' t.1 :=
  .single (h.value.map same)

theorem reads_and (h : (p.readings language).Reads spells spell spellParts)
    (h' : (q.readings language).Reads spells spell' spellParts') :
    ((p.and q).readings language).Reads spells
      (fun t => spellParts t.front ++ spellParts' t.back)
      fun t => spellParts t.front ++ spellParts' t.back := by
  have joined : (((p.readings language).parts.pair (q.readings language).parts).map
      fun both => both.1.append both.2).Reads spells
        fun t => spellParts t.front ++ spellParts' t.back := by
    refine (h.parts.pair h'.parts).map fun both => ?_
    rw [Tuple.front_append, Tuple.back_append]
  exact ⟨joined, joined⟩

/-- What is skipped is spelled by the same symbols always. -/
theorem reads_skip {between : List σ}
    (h : (p.readings language).Reads spells spell spellParts)
    (h' : (q.readings language).Reads spells (fun _ => between) spellParts') :
    ((p.skip q).readings language).Reads spells (fun a => spell a ++ between)
      fun t => spellParts t ++ between :=
  ⟨(h.value.pair h'.value).map fun _ => rfl, (h.parts.pair h'.value).map fun _ => rfl⟩

theorem reads_or {q : Parser κ ρ second α}
    (h : (p.readings language).Reads spells spell spellParts)
    (h' : (q.readings language).Reads spells spell spellParts') :
    ((p.or q).readings language).Reads spells spell fun t => spell t.1 :=
  .single (h.value.orElse h'.value)

theorem reads_many (h : (p.readings language).Reads spells spell spellParts) :
    (p.many.readings language).Reads spells (List.flatMap spell) fun t => t.1.flatMap spell :=
  .single h.value.many

theorem reads_optional (h : (p.readings language).Reads spells spell spellParts) :
    (p.optional.readings language).Reads spells (fun value => (value.map spell).getD [])
      fun t => (t.1.map spell).getD [] := .single h.value.optional

theorem reads_separatedBy {between : List σ}
    (h : (p.readings language).Reads spells spell spellParts)
    (h' : (q.readings language).Reads spells (fun _ => between) spellParts') :
    ((p.separatedBy q).readings language).Reads spells (separated between spell)
      fun t => separated between spell t.1 := .single (h.value.separatedBy h'.value)

theorem reads_rule {reference : ρ α} (h : (language reference).Reads spells spell) :
    ((rule reference : Parser κ ρ _ _).readings language).Reads spells spell
      fun t => spell t.1 := .single h

end Parser

end FrontEnd
