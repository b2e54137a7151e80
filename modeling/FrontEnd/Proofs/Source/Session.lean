import FrontEnd.Source.TokenStream

/-!
# Cursors in use

Whoever reads a stream moves a cursor about, clones it, and goes back to one of the clones.  In
whatever order this is done, the cursor stays inside the stream and its furthest mark tells how far
it has been advanced.

## Main Definitions

* `Session` — something in use, and the clones of it that were taken
* `Session.Operation`, `Session.run` — move it, clone it, or go back to a clone
* `Cursor.Request`, `Cursor.follow` — what a cursor can be told to do
* `Cursor.reached` — the positions that advancing came to

## Main Results

* `TokenStream.toList_ofTokens_eq` — the tokens of a stream, from any list of tokens
* `Session.map_run` — what is done to a thing is done to every view of it
* `Cursor.furthest_foldl` — the furthest mark is the largest position that advancing came to
* `Session.cursor_in_bounds` — a cursor in use

## Design Notes

**A history is a session as well.**  A clone has a history of its own: what was done to the cursor
up to the moment of cloning.  A session of lists of requests, where every request is noted at the
end, therefore tells the history of each cursor in a session of cursors.  The cursors are the
replays of these histories, and clones play no part in anything said about a single history.

**Requests may fail to move.**  Going on at the end of the stream changes nothing, and a position to
go back to may lie anywhere, also further on or behind the end.  Advancing counts if the cursor
moved.
-/

namespace FrontEnd

/-! ### Sessions -/

/-- Something in use, and the clones that were taken of it, the earliest first. -/
structure Session (σ : Type) where
  current : σ
  clones : List σ

/-- What can be done in a session: move on, take a clone, or go back to a clone. -/
inductive Session.Operation (μ : Type) where
  | move (request : μ)
  | clone
  | goBack (number : Nat)

namespace Session

variable {σ τ μ : Type}

/-- A session without clones. -/
def start (first : σ) : Session σ := ⟨first, []⟩

/-- Perform one operation.  There is nothing to go back to if a clone has not been taken. -/
def perform (move : σ → μ → σ) (x : Session σ) : Operation μ → Session σ
  | .move request => { x with current := move x.current request }
  | .clone => { x with clones := x.clones ++ [x.current] }
  | .goBack number => { x with current := x.clones[number]?.getD x.current }

/-- Perform some operations. -/
def run (move : σ → μ → σ) (x : Session σ) (operations : List (Operation μ)) : Session σ :=
  operations.foldl (perform move) x

/-- A view of everything in a session. -/
def map (f : σ → τ) (x : Session σ) : Session τ := ⟨f x.current, x.clones.map f⟩

theorem map_perform {f : σ → τ} {move : σ → μ → σ} {move' : τ → μ → τ}
    (view : ∀ a request, f (move a request) = move' (f a) request) (x : Session σ)
    (op : Operation μ) : (x.perform move op).map f = (x.map f).perform move' op := by
  cases op with
  | move request => simp only [perform, map, view]
  | clone => simp only [perform, map, List.map_append, List.map_cons, List.map_nil]
  | goBack number =>
    simp only [perform, map, List.getElem?_map]
    cases x.clones[number]? <;> rfl

/-- **A view is kept.**  If moving a thing moves a view of it, the view of a session is the session
of the view. -/
theorem map_run {f : σ → τ} {move : σ → μ → σ} {move' : τ → μ → τ}
    (view : ∀ a request, f (move a request) = move' (f a) request) (x : Session σ)
    (operations : List (Operation μ)) :
    (x.run move operations).map f = (x.map f).run move' operations := by
  induction operations generalizing x with
  | nil => rfl
  | cons op rest ih =>
    rw [run, List.foldl_cons, ← run, ih, map_perform view]
    rfl

/-- The histories of a session: what led to the thing in use, and to each clone. -/
def histories (operations : List (Operation μ)) : Session (List μ) :=
  (start []).run (fun history request => history ++ [request]) operations

/-- **Everything in a session is the result of its own history.** -/
theorem run_eq_map_histories (move : σ → μ → σ) (first : σ) (operations : List (Operation μ)) :
    (start first).run move operations =
      (histories operations).map fun history => history.foldl move first := by
  have noted (history : List μ) (request : μ) :
      (history ++ [request]).foldl move first = move (history.foldl move first) request := by
    rw [List.foldl_append, List.foldl_cons, List.foldl_nil]
  rw [histories, map_run noted]
  rfl

end Session

/-! ### Streams -/

namespace TokenStream

variable {κ : Type} [TokenKind κ] [DecidableEq κ]

/-- A stream has the tokens of a list that are not of the end kind, in their order, and then the end
token. -/
theorem toList_ofTokens_eq (tokens : List (Token κ)) (finish : Location) :
    (ofTokens tokens finish).toList =
      tokens.filter (fun t => t.kind ≠ endKind) ++ [⟨endKind, "", finish.withLength 0⟩] := by
  rw [toList, endToken, ofTokens, List.toList_toArray]

/-- The end token is the only token of the end kind. -/
theorem filter_toList (s : TokenStream κ) :
    s.toList.filter (fun t => t.kind = endKind) = [s.endToken] := by
  have none : s.tokens.toList.filter (fun t => t.kind = endKind) = [] := by
    refine List.filter_eq_nil_iff.2 fun t mem => ?_
    simpa using s.proper t (Array.mem_toList_iff.1 mem)
  rw [toList, List.filter_append, none, List.nil_append]
  simp [endToken]

omit [DecidableEq κ] in
/-- Inside a stream, a token is found at its position. -/
theorem getElem?_toList {s : TokenStream κ} {position : Nat} (inside : position < s.size) :
    s.toList[position]? = some (s.get position) := by
  rw [toList, get]
  by_cases proper : position < s.tokens.size
  · rw [List.getElem?_append_left (by simpa using proper), Array.getElem?_toList,
      Array.getElem?_eq_getElem proper, Option.getD_some]
  · have last : position = s.tokens.toList.length := by
      rw [size] at inside
      rw [Array.length_toList]
      omega
    rw [last, List.getElem?_concat_length, Array.length_toList,
      Array.getElem?_eq_none (Nat.le_refl _), Option.getD_none]

end TokenStream

/-! ### Cursors -/

namespace Cursor

/-- What a cursor can be told to do. -/
inductive Request where
  | advance
  | restore (position : Nat)
  deriving DecidableEq

variable {κ : Type} [TokenKind κ] [DecidableEq κ] {s : TokenStream κ} {c : Cursor}

/-- Do what is requested. -/
def follow (s : TokenStream κ) (c : Cursor) : Request → Cursor
  | .advance => c.advance s
  | .restore position => c.restore s position

/-- The positions that a cursor comes to by advancing, while it follows some requests. -/
def reached (s : TokenStream κ) (c : Cursor) : List Request → List Nat
  | [] => []
  | request :: rest =>
      let moved := c.follow s request
      if request = .advance ∧ moved.position ≠ c.position then
        moved.position :: moved.reached s rest
      else moved.reached s rest

/-- Position and furthest mark lie inside the stream. -/
structure Inside (s : TokenStream κ) (c : Cursor) : Prop where
  position : c.position < s.size
  furthest : c.furthest < s.size

omit [DecidableEq κ] in
theorem inside_start (s : TokenStream κ) : start.Inside s := ⟨s.size_pos, s.size_pos⟩

/-- No request leads out of the stream. -/
theorem Inside.follow (h : c.Inside s) (request : Request) : (c.follow s request).Inside s := by
  obtain ⟨position, furthest⟩ := h
  cases request with
  | advance =>
    rw [Cursor.follow, Cursor.advance]
    split
    · exact ⟨position, furthest⟩
    · next notEnd =>
      rw [atEnd_iff, Nat.not_le] at notEnd
      exact ⟨notEnd, Nat.max_lt.2 ⟨furthest, notEnd⟩⟩
  | restore target =>
    have clamped : min target (s.size - 1) < s.size :=
      Nat.lt_of_le_of_lt (Nat.min_le_right _ _) (Nat.sub_one_lt_of_lt s.size_pos)
    exact ⟨clamped, furthest⟩

theorem Inside.foldl (h : c.Inside s) (requests : List Request) :
    (requests.foldl (Cursor.follow s) c).Inside s := by
  induction requests generalizing c with
  | nil => exact h
  | cons request rest ih => exact ih (h.follow request)

/-- Inside a stream the cursor stands on the end token exactly at the last position. -/
theorem Inside.atEnd_iff (h : c.Inside s) : c.atEnd s = true ↔ c.position = s.size - 1 := by
  have position := h.position
  rw [Cursor.atEnd_iff]
  omega

/-- An advance that does not move leaves everything as it is; any other one marks where it comes to,
and going back marks nothing. -/
theorem furthest_follow (s : TokenStream κ) (c : Cursor) (request : Request) :
    (c.follow s request).furthest =
      if request = .advance ∧ (c.follow s request).position ≠ c.position then
        max c.furthest (c.follow s request).position
      else c.furthest := by
  cases request with
  | advance =>
    rw [follow, advance]
    by_cases last : c.atEnd s = true
    · simp [last]
    · simp [last]
  | restore position => simp [follow]

/-- **The furthest mark is the largest position that advancing came to.** -/
theorem furthest_foldl (s : TokenStream κ) (c : Cursor) (requests : List Request) :
    (requests.foldl (follow s) c).furthest = (c.reached s requests).foldl max c.furthest := by
  induction requests generalizing c with
  | nil => rfl
  | cons request rest ih =>
    rw [List.foldl_cons, ih, furthest_follow, reached]
    split
    · rw [List.foldl_cons]
    · rfl

end Cursor

/-! ### Cursors in a session -/

namespace Session

/-- **A cursor in use.**  A stream from any list of tokens has those that are not of the end kind,
in their order, and then a single end token.  Whatever is done with a fresh cursor on it, the
position and the furthest mark of the cursor are those of tokens in the stream; the cursor stands on
the end token exactly at the last position; and the furthest mark is the largest position that an
advance in the history of the cursor came to, and zero if there was none. -/
theorem cursor_in_bounds {κ : Type} [TokenKind κ] [DecidableEq κ] (tokens : List (Token κ))
    (finish : Location) (operations : List (Operation Cursor.Request)) :
    let s := TokenStream.ofTokens tokens finish
    let c := ((start Cursor.start).run (Cursor.follow s) operations).current
    (s.toList = tokens.filter (fun t => t.kind ≠ endKind) ++ [⟨endKind, "", finish.withLength 0⟩] ∧
      (s.toList.filter fun t => t.kind = endKind).length = 1) ∧
    (c.position < s.toList.length ∧ s.toList[c.position]? = some (c.peek s)) ∧
    (c.furthest < s.toList.length ∧ s.toList[c.furthest]? = some (c.furthestToken s)) ∧
    (c.atEnd s = true ↔ c.position = s.toList.length - 1) ∧
    c.furthest = (Cursor.start.reached s (histories operations).current).max?.getD 0 := by
  intro s c
  have replayed : c = (histories operations).current.foldl (Cursor.follow s) .start := by
    have all := run_eq_map_histories (Cursor.follow s) .start operations
    exact congrArg current all
  have inside : c.Inside s := replayed ▸ (Cursor.inside_start s).foldl _
  have largest (positions : List Nat) : positions.foldl max 0 = positions.max?.getD 0 := by
    cases positions with
    | nil => rfl
    | cons first rest => rw [List.max?_cons', Option.getD_some, List.foldl_cons, Nat.zero_max]
  rw [TokenStream.length_toList]
  refine ⟨⟨TokenStream.toList_ofTokens_eq tokens finish, ?_⟩,
    ⟨inside.position, TokenStream.getElem?_toList inside.position⟩,
    ⟨inside.furthest, TokenStream.getElem?_toList inside.furthest⟩, inside.atEnd_iff, ?_⟩
  · rw [TokenStream.filter_toList, List.length_singleton]
  · rw [replayed, Cursor.furthest_foldl, ← largest]
    rfl

end Session

end FrontEnd
