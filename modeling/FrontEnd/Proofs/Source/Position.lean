import FrontEnd.Source.Location
import Mathlib.Data.List.DropRight

/-!
# Locations from positions

A location is found by passing over a source from its start and counting on the way.  The same
counts can be taken at once from everything that stands in front of a position.

## Main Definitions

* `textBefore`, `lastLine` — what stands in front of a position, and on its line
* `Location.ofPos` — the location of a text that stands at a position
* `StandsAt` — a text is found at a position
* `Located` — a location is that of a text in a source

## Main Results

* `Location.after_start` — what passing over a text from the start of a source amounts to
* `located_of_split` — a text is located by passing over what stands in front of it

## Design Notes

**Positions are character boundaries.**  A `source.Pos` is a byte offset that comes with the proof
that no character of the source is cut in two there.  Texts are compared byte by byte.
-/

namespace FrontEnd

variable {source : String}

/-- What stands in front of a position of a source. -/
def textBefore (p : source.Pos) : List Char := (source.sliceTo p).copy.toList

/-- What stands behind the last line feed of a text. -/
def lastLine (text : List Char) : List Char := text.rtakeWhile fun c => c ≠ '\n'

/-- The location of a text that stands at a position of a source: the offset counts bytes, the line
the line feeds before, the column the characters on the line before, and the length the characters
of the text. -/
def Location.ofPos (p : source.Pos) (text : String) : Location where
  offset := p.offset.byteIdx
  line := 1 + (textBefore p).count '\n'
  column := 1 + (lastLine (textBefore p)).length
  length := text.length

/-- The bytes of a text are found at a position of a source. -/
def StandsAt (p : source.Pos) (text : String) : Prop :=
  source.toByteArray.extract p.offset.byteIdx (p.offset.byteIdx + text.utf8ByteSize) =
    text.toByteArray

/-- A text is found in a source, at some position, and this is its location. -/
def Located (source text : String) (place : Location) : Prop :=
  ∃ p : source.Pos, StandsAt p text ∧ place = .ofPos p text

/-! ### Counting -/

theorem utf8ByteSize_ofList_concat (text : List Char) (c : Char) :
    (String.ofList (text ++ [c])).utf8ByteSize =
      (String.ofList text).utf8ByteSize + c.utf8Size := by
  rw [String.ofList_append, String.utf8ByteSize_append, ← String.singleton_eq_ofList,
    String.utf8ByteSize_singleton]

theorem lastLine_concat_feed (text : List Char) : lastLine (text ++ ['\n']) = [] :=
  List.rtakeWhile_concat_neg _ _ _ (by simp)

theorem lastLine_concat {c : Char} (text : List Char) (h : c ≠ '\n') :
    lastLine (text ++ [c]) = lastLine text ++ [c] :=
  List.rtakeWhile_concat_pos _ _ _ (by simpa using h)

namespace Location

/-- Passing over a text moves the offset by its bytes. -/
theorem offset_after (place : Location) (text : List Char) :
    (place.after text).offset = place.offset + (String.ofList text).utf8ByteSize := by
  induction text generalizing place with
  | nil => simp [withLength]
  | cons c text ih =>
    have step : (place.next c).offset = place.offset + c.utf8Size := by
      unfold next
      split <;> rfl
    rw [after_cons, ih, step, String.ofList_cons, String.utf8ByteSize_append,
      String.utf8ByteSize_singleton, Nat.add_assoc]

/-- **Passing over a text from the start of a source** counts its bytes, its line feeds and the
characters behind the last of them. -/
theorem after_start (text : List Char) :
    start.after text =
      ⟨(String.ofList text).utf8ByteSize, 1 + text.count '\n', 1 + (lastLine text).length, 0⟩ := by
  induction text using List.reverseRecOn with
  | nil => rfl
  | append_singleton text c ih =>
    rw [after_append, ih, after_cons, after_nil, utf8ByteSize_ofList_concat, List.count_append,
      next]
    by_cases feed : c = '\n'
    · subst feed
      rw [lastLine_concat_feed]
      rfl
    · have none : List.count '\n' [c] = 0 := by simp [feed]
      rw [if_neg feed, lastLine_concat text feed, List.length_append, none]
      rfl

end Location

/-- A text is located by passing over what stands in front of it. -/
theorem located_of_split {front text back : List Char}
    (split : source.toList = front ++ text ++ back) :
    Located source (String.ofList text)
      ((Location.start.after front).withLength text.length) := by
  have parts : source = String.ofList front ++ (String.ofList text ++ String.ofList back) := by
    rw [← String.ofList_append, ← String.ofList_append, ← List.append_assoc, ← split,
      String.ofList_toList]
  have boundary : (String.ofList front).rawEndPos.IsValid source :=
    String.Pos.Raw.isValid_iff_exists_append.2 ⟨_, _, parts, rfl⟩
  let p : source.Pos := source.pos _ boundary
  have splits : p.Splits (String.ofList front) (String.ofList text ++ String.ofList back) :=
    ⟨parts, rfl⟩
  have before : textBefore p = front := by
    rw [textBefore, p.splits.eq_left splits, String.toList_ofList]
  refine ⟨p, ?_, ?_⟩
  · have bytes : source.toByteArray = (String.ofList front).toByteArray ++
        ((String.ofList text).toByteArray ++ (String.ofList back).toByteArray) := by
      rw [← String.toByteArray_append, ← String.toByteArray_append, ← parts]
    have offset : p.offset.byteIdx = (String.ofList front).toByteArray.size :=
      String.size_toByteArray.symm
    rw [StandsAt, bytes, ← Nat.add_zero p.offset.byteIdx, Nat.add_assoc, Nat.zero_add,
      ByteArray.extract_append_size_add' offset]
    exact ByteArray.extract_append_eq_left String.size_toByteArray.symm
  · rw [Location.after_start, Location.ofPos, before, String.length_ofList]
    rfl

/-- Passing over a whole source comes to its end. -/
theorem after_toList (source : String) :
    Location.start.after source.toList = .ofPos source.endPos "" := by
  have before : textBefore source.endPos = source.toList := by
    rw [textBefore, source.endPos.splits.eq_left source.splits_endPos]
  rw [Location.after_start, Location.ofPos, before, String.ofList_toList]
  rfl

end FrontEnd
