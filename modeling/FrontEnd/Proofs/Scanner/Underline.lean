import FrontEnd.Proofs.Scanner.Places
import FrontEnd.Proofs.Source.Segment
import FrontEnd.Source.Excerpt
import Mathlib.Order.Interval.Finset.Nat

/-!
# Excerpts for what a scan shows

An excerpt is made from a location and a source that need not have anything to do with each other.
The locations that come out of a scan are those of the source, and for them the excerpt shows the
segment where the text stands and underlines the text.

## Main Definitions

* `excerptText` — the text of an excerpt
* `Underlined` — the excerpt of a place shows the segment of its offset and underlines the span

## Main Results

* `SegmentAt.display_eq` — the excerpt for an offset whose line and column are right
* `Underlined.ofPos` — the location of a text at any position of a source is underlined
* `Scanner.excerpts_underline` — so are all locations that a scan shows

## Design Notes

**The marker may stand behind the line.**  A span may begin with a line feed, or with a carriage
return in front of one; neither of them is shown.  None of the characters of the span are on the
line then, and the caret stands alone where the first one would be.
-/

namespace FrontEnd

/-- The text that shows a place: the place itself, the line behind its number, and below it a marker
of some width behind some blanks. -/
def excerptText (file : String) (place : Location) (line : List Char) (blanks marks : Nat) :
    String :=
  "In " ++ sourceName file ++ ":" ++ place.display ++ ":\n" ++
    String.ofList (Excerpt.gutter place.line) ++ " |" ++ String.ofList line ++ "\n" ++
    String.ofList (List.replicate Excerpt.gutterWidth ' ') ++ " |" ++
    String.ofList (List.replicate blanks ' ' ++ '^' :: List.replicate (marks - 1) '~') ++ "\n"

/-- The excerpt for a place shows the segment that the offset lies in, without its line end.  Below
it stand as many blanks as the segment has characters in front of the offset, and then the marker:
as many characters as the span has on the shown line, and at least one. -/
structure Underlined (source file : String) (place : Location) : Prop where
  /-- The offset lies in a segment. -/
  segment : ∃ before passed ahead behind, SegmentAt source place.offset before passed ahead behind
  /-- The excerpt shows that segment. -/
  display : ∀ before passed ahead behind,
    SegmentAt source place.offset before passed ahead behind →
      let line := Text.shown (passed ++ ahead) behind
      let start := (before ++ passed).length
      let onLine := Finset.Ico start (start + place.length) ∩
        Finset.Ico before.length (before.length + line.length)
      Excerpt.display source file place =
        excerptText file place line passed.length (max 1 onLine.card)

/-- The characters that a span and a line have in common, if the line begins first. -/
theorem card_inter_Ico (first passed length width : Nat) :
    (Finset.Ico (first + passed) (first + passed + length) ∩
        Finset.Ico first (first + width)).card = min length (width - passed) := by
  rw [Finset.Ico_inter_Ico, Nat.card_Ico]
  omega

variable {source file : String}

/-- The line and the column of an offset make its excerpt. -/
theorem SegmentAt.display_eq {place : Location} {before passed ahead behind : List Char}
    (h : SegmentAt source place.offset before passed ahead behind)
    (row : place.line = 1 + before.count '\n') (column : place.column = 1 + passed.length) :
    let line := Text.shown (passed ++ ahead) behind
    Excerpt.display source file place =
      excerptText file place line passed.length
        (max 1 (min place.length (line.length - passed.length))) := by
  intro line
  have excerpt : Excerpt.ofLocation source file place =
      ⟨sourceName file, place, line, passed.length,
        max 1 (min place.length (line.length - passed.length))⟩ := by
    rw [Excerpt.ofLocation, row, column, Nat.add_sub_cancel_left, Nat.add_sub_cancel_left,
      h.line_eq]
  unfold Excerpt.display
  rw [excerpt]
  unfold Excerpt.render excerptText
  simp only [Excerpt.markerLine, Location.display, String.append_assoc]

/-- What stands in front of a position has as many bytes as the position says. -/
theorem utf8ByteSize_textBefore (p : source.Pos) :
    (String.ofList (textBefore p)).utf8ByteSize = p.offset.byteIdx := by
  rw [textBefore, String.ofList_toList]
  exact congrArg String.Pos.Raw.byteIdx p.splits.offset_eq_rawEndPos.symm

/-- A location is found by passing over what stands in front of it. -/
theorem Location.ofPos_eq_after (p : source.Pos) (text : String) :
    ofPos p text = (start.after (textBefore p)).withLength text.length := by
  rw [after_start, utf8ByteSize_textBefore]
  rfl

/-- **A text at a position is underlined.** -/
theorem Underlined.ofPos (p : source.Pos) (text : String) :
    Underlined source file (.ofPos p text) := by
  have split : source.toList = textBefore p ++ (source.sliceFrom p).copy.toList := by
    rw [textBefore, ← String.toList_append]
    exact congrArg String.toList p.splits.eq_append
  have bytes : (String.ofList (textBefore p)).utf8ByteSize = (Location.ofPos p text).offset :=
    utf8ByteSize_textBefore p
  have place := Location.ofPos_eq_after p text
  refine ⟨bytes ▸ exists_segmentAt split, fun before passed ahead behind h => ?_⟩
  have counted := h.after_start
  rw [h.front_eq split bytes] at counted
  rw [counted] at place
  intro line start onLine
  have common : onLine.card = min (Location.ofPos p text).length (line.length - passed.length) := by
    rw [← card_inter_Ico before.length, ← List.length_append]
  rw [common]
  exact h.display_eq (congrArg Location.line place) (congrArg Location.column place)

namespace Scanner

variable {κ : Type} [DecidableEq κ] [TokenKind κ]

/-- **Excerpts underline what a scan shows.**  Whichever scanner it is that scans a source, the
excerpt for the location of any token of the stream, the end token included, and the one for the
location of the error show the segment of the source that the offset lies in, and underline what of
the text is on that line. -/
theorem excerpts_underline (s : Scanner κ) (source name file : String) :
    (∀ stream, s.tokenize source name = .ok stream →
      ∀ t ∈ stream.toList, Underlined source file t.location) ∧
    (∀ tokens, s.analyse source name = .ok tokens →
      ∀ t ∈ tokens, Underlined source file t.location) ∧
    ∀ e, s.tokenize source name = .error e ∨ s.analyse source name = .error e →
      Underlined source file e.location := by
  have shown {tokens : List (Token κ)} {last : Location}
      (scanned : s.scan source name = .ok (tokens, last)) {t : Token κ} (mem : t ∈ tokens) :
      Underlined source file t.location := by
    obtain ⟨⟨p, -, place⟩, -⟩ := located_of_scan scanned mem
    rw [place]
    exact .ofPos p t.text
  refine ⟨fun stream tokenized t mem => ?_, fun tokens analysed t mem => ?_, fun e failed => ?_⟩
  · obtain ⟨tokens, last, scanned, rfl⟩ := exists_scan_of_tokenize tokenized
    rcases List.mem_append.1 mem with proper | atEnd
    · exact shown scanned (List.mem_of_mem_filter proper)
    · obtain ⟨-, -, -, -, rfl⟩ := scan_eq_ok scanned
      rw [List.mem_singleton.1 atEnd, after_toList]
      exact .ofPos source.endPos ""
  · obtain ⟨last, scanned⟩ := exists_scan_of_analyse analysed
    exact shown scanned mem
  · have scanned : s.scan source name = .error e :=
      failed.elim scan_of_tokenize_eq_error scan_of_analyse_eq_error
    obtain ⟨front, text, back, split, -, place⟩ := scan_eq_error scanned
    obtain ⟨p, -, located⟩ := located_of_split split
    rw [place, located]
    exact .ofPos p _

/-- A letter beyond ASCII, and a text that goes on behind a line end. -/
def acrossLines : Scanner RuleId :=
  (Scanner.empty.addRules [(⟨0⟩, "letter", "[ä-ü]"), (⟨1⟩, "across", "b\r\nc")]).1

/-- Of a text that goes on behind its line, only what stands on the line is underlined, be it a
token or a dead end. -/
theorem excerpts_underline_across :
    (∃ stream, acrossLines.tokenize "äb\r\nc" "f" = .ok stream ∧
      ⟨⟨1⟩, "b\r\nc", ⟨2, 1, 2, 4⟩⟩ ∈ stream.toList ∧
      Underlined "äb\r\nc" "f" ⟨2, 1, 2, 4⟩ ∧ Underlined "äb\r\nc" "f" ⟨6, 2, 2, 0⟩) ∧
    acrossLines.analyse "äb\r\n?" "f" = .error ⟨"f", ⟨2, 1, 2, 4⟩, "b\r\n?"⟩ ∧
      SegmentAt "äb\r\n?" 2 [] ['ä'] ['b', '\r'] ['\n', '?'] ∧
      Excerpt.display "äb\r\n?" "f" ⟨2, 1, 2, 4⟩ = excerptText "f" ⟨2, 1, 2, 4⟩ ['ä', 'b'] 1 1 := by
  let tokens : List (Token RuleId) := [⟨⟨0⟩, "ä", ⟨0, 1, 1, 1⟩⟩, ⟨⟨1⟩, "b\r\nc", ⟨2, 1, 2, 4⟩⟩]
  have scanned : acrossLines.scan "äb\r\nc" "f" = .ok (tokens, ⟨6, 2, 2, 0⟩) := by decide +kernel
  have tokenized : acrossLines.tokenize "äb\r\nc" "f" = .ok (.ofTokens tokens ⟨6, 2, 2, 0⟩) := by
    rw [tokenize, scanned]
  have failed : acrossLines.analyse "äb\r\n?" "f" = .error ⟨"f", ⟨2, 1, 2, 4⟩, "b\r\n?"⟩ := by
    decide +kernel
  have segment : SegmentAt "äb\r\n?" 2 [] ['ä'] ['b', '\r'] ['\n', '?'] :=
    ⟨by decide +kernel, by decide +kernel, by decide, by simp, by simp⟩
  have shown := (excerpts_underline acrossLines "äb\r\nc" "f" "f").1 _ tokenized
  have underlined := (excerpts_underline acrossLines "äb\r\n?" "f" "f").2.2 _ (.inr failed)
  have across :
      ⟨⟨1⟩, "b\r\nc", ⟨2, 1, 2, 4⟩⟩ ∈ (TokenStream.ofTokens tokens ⟨6, 2, 2, 0⟩).toList := by
    decide +kernel
  refine ⟨⟨_, tokenized, across, shown _ across, ?_⟩, failed, segment, ?_⟩
  · exact shown ⟨endKind, "", ⟨6, 2, 2, 0⟩⟩ (by decide +kernel)
  · have line : Text.shown ['ä', 'b', '\r'] ['\n', '?'] = ['ä', 'b'] := by decide
    have onLine : (Finset.Ico 1 5 ∩ Finset.range 2).card = 1 := by decide
    simpa [line, onLine] using underlined.display _ _ _ _ segment

end Scanner

end FrontEnd
