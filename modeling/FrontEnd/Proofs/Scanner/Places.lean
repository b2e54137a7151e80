import FrontEnd.Proofs.Scanner.LongestMatch
import FrontEnd.Proofs.Source.Position
import FrontEnd.Scanner.Basic

/-!
# Places of tokens

A scan carries one location along and moves it over each piece of the source, whether the piece
becomes a token or is ignored.  Every location that comes out of it is the one that the source
itself gives to that text.

## Main Results

* `exists_split_of_mem_layout` — where a span stands in the pieces of a text
* `pairwise_layout` — spans follow one another
* `Scanner.scan_eq_ok`, `Scanner.scan_eq_error` — a scan in terms of the pieces of its source
* `Scanner.analyse_located` — the locations of all tokens, of the error and of the end

## Design Notes

**Any automaton.**  Nothing is asked of the rules: wherever an automaton cuts, the pieces make up
the source.
-/

namespace FrontEnd

/-! ### Spans -/

section Layout

variable {α : Type}

/-- The place behind some pieces is found by passing over their text. -/
theorem placeBehind_after (front : List Char) (pieces : List (List Char × α)) :
    placeBehind (Location.start.after front) pieces =
      Location.start.after (front ++ (pieces.map Prod.fst).flatten) := by
  induction pieces generalizing front with
  | nil => rw [placeBehind, List.map_nil, List.flatten_nil, List.append_nil]
  | cons piece pieces ih =>
    rw [placeBehind, ← Location.after_append, ih, List.map_cons, List.flatten_cons,
      List.append_assoc]

/-- A span stands behind some of the pieces and in front of the others, and its place is found by
passing over what stands in front of it. -/
theorem exists_split_of_mem_layout {front : List Char} {pieces : List (List Char × α)}
    {x : Span α} (mem : x ∈ layout (Location.start.after front) pieces) :
    x.text ∈ pieces.map Prod.fst ∧ ∃ before behind,
      (pieces.map Prod.fst).flatten = before ++ x.text ++ behind ∧
        x.place = (Location.start.after (front ++ before)).withLength x.text.length := by
  induction pieces generalizing front with
  | nil => cases mem
  | cons piece pieces ih =>
    obtain ⟨word, a⟩ := piece
    rcases List.mem_cons.1 mem with rfl | later
    · refine ⟨List.mem_cons_self, [], (pieces.map Prod.fst).flatten, rfl, ?_⟩
      rw [List.append_nil]
    · rw [← Location.after_append] at later
      obtain ⟨member, before, behind, split, place⟩ := ih later
      refine ⟨List.mem_cons_of_mem _ member, word ++ before, behind, ?_, ?_⟩
      · rw [List.map_cons, List.flatten_cons, split]
        simp only [List.append_assoc]
      · rw [place, List.append_assoc]

/-- No span stands in front of the place where the pieces begin. -/
theorem offset_le_of_mem_layout {place : Location} {pieces : List (List Char × α)} {x : Span α}
    (mem : x ∈ layout place pieces) : place.offset ≤ x.place.offset := by
  induction pieces generalizing place with
  | nil => cases mem
  | cons piece pieces ih =>
    rcases List.mem_cons.1 mem with rfl | later
    · exact Nat.le_refl _
    · have behind := ih later
      rw [Location.offset_after] at behind
      exact Nat.le_trans (Nat.le_add_right _ _) behind

/-- **Spans follow one another**: each one ends before the next ones begin. -/
theorem pairwise_layout (place : Location) (pieces : List (List Char × α)) :
    (layout place pieces).Pairwise fun x y =>
      x.place.offset + (String.ofList x.text).utf8ByteSize ≤ y.place.offset := by
  induction pieces generalizing place with
  | nil => exact .nil
  | cons piece pieces ih =>
    refine .cons (fun y mem => ?_) (ih _)
    have behind := offset_le_of_mem_layout mem
    rwa [Location.offset_after] at behind

end Layout

namespace Scanner

variable {κ : Type} {s : Scanner κ} {source file : String}

/-! ### Scans -/

/-- No piece that has been cut off is empty. -/
theorem ne_nil_of_cuts {d : Dfa (Action κ)} {text rest : List Char}
    {pieces : List (List Char × Action κ)} (cuts : Cuts d.TakesLongest text pieces rest) :
    [] ∉ pieces.map Prod.fst := by
  induction cuts with
  | stop text => exact List.not_mem_nil
  | piece taken _ ih =>
    exact mt List.mem_cons.1 (not_or.2 ⟨fun empty => taken.nonempty empty.symm, ih⟩)

variable [DecidableEq κ]

/-- A scan that succeeds cuts the source into nonempty pieces, and comes to its end. -/
theorem scan_eq_ok {tokens : List (Token κ)} {last : Location}
    (h : s.scan source file = .ok (tokens, last)) :
    ∃ pieces : List (List Char × Action κ), [] ∉ pieces.map Prod.fst ∧
      (pieces.map Prod.fst).flatten = source.toList ∧
      tokens = (layout (Location.start.after []) pieces).filterMap tokenOf ∧
      last = Location.start.after source.toList := by
  rw [scan] at h
  cases scanned : s.automaton.spans 0 .start source.toList with
  | error e => simp [scanned] at h
  | ok result =>
    obtain ⟨spans, behind⟩ := result
    simp only [scanned, Except.ok.injEq, Prod.mk.injEq] at h
    obtain ⟨rfl, rfl⟩ := h
    obtain ⟨pieces, cuts, rfl, rfl⟩ := Dfa.spans_eq_ok_iff.1 scanned
    have whole := cuts.flatten_eq
    refine ⟨pieces, ne_nil_of_cuts cuts, whole, rfl, ?_⟩
    rw [← whole]
    exact placeBehind_after [] pieces

/-- A scan that fails does so behind some front of the source, at a text that follows it. -/
theorem scan_eq_error {e : ScanError} (h : s.scan source file = .error e) :
    ∃ front text back, source.toList = front ++ text ++ back ∧ e.text = String.ofList text ∧
      e.location = (Location.start.after front).withLength text.length := by
  rw [scan] at h
  cases scanned : s.automaton.spans 0 .start source.toList with
  | ok result => simp [scanned] at h
  | error deadEnd =>
    simp only [scanned, Except.error.injEq] at h
    obtain ⟨pieces, rest, cuts, stuck, failed⟩ := Dfa.spans_eq_error_iff.1 scanned
    rw [Dfa.spans_of_stuck stuck] at failed
    simp only [Except.error.injEq] at failed
    refine ⟨(pieces.map Prod.fst).flatten, deadEnd.text,
      rest.drop ((s.automaton.munch rest).reached + 1), ?_, ?_, ?_⟩
    · rw [← failed, List.append_assoc, List.take_append_drop]
      exact cuts.flatten_append.symm
    · rw [← h]
    · rw [← h, ← failed, ← List.nil_append (pieces.map Prod.fst).flatten, ← placeBehind_after]
      rfl

omit [DecidableEq κ] in
/-- A token shows the text and the place of its span. -/
theorem text_place_of_tokenOf {x : Span (Action κ)} {t : Token κ} (h : tokenOf x = some t) :
    t.text = String.ofList x.text ∧ t.location = x.place := by
  rw [tokenOf] at h
  cases action : x.accept with
  | ignore => simp [action] at h
  | emit kind =>
    simp only [action, Option.some.injEq] at h
    rw [← h]
    exact ⟨rfl, rfl⟩

/-- Every token of a scan is located, and not empty. -/
theorem located_of_scan {tokens : List (Token κ)} {last : Location}
    (h : s.scan source file = .ok (tokens, last)) {t : Token κ} (mem : t ∈ tokens) :
    Located source t.text t.location ∧ t.text ≠ "" := by
  obtain ⟨pieces, nonempty, whole, rfl, -⟩ := scan_eq_ok h
  obtain ⟨x, member, shown⟩ := List.mem_filterMap.1 mem
  obtain ⟨text, place⟩ := text_place_of_tokenOf shown
  obtain ⟨piece, before, behind, split, passed⟩ := exists_split_of_mem_layout member
  rw [text, place, passed]
  refine ⟨located_of_split (whole.symm.trans split), fun empty => nonempty ?_⟩
  rwa [String.ofList_eq_empty_iff.1 empty] at piece

/-- The tokens of a scan follow one another. -/
theorem pairwise_of_scan {tokens : List (Token κ)} {last : Location}
    (h : s.scan source file = .ok (tokens, last)) :
    tokens.Pairwise fun t t' =>
      t.location.offset + t.text.utf8ByteSize ≤ t'.location.offset := by
  obtain ⟨pieces, -, -, rfl, -⟩ := scan_eq_ok h
  refine (pairwise_layout (Location.start.after []) pieces).filterMap tokenOf ?_
  intro x y le t shown t' shown'
  obtain ⟨text, place⟩ := text_place_of_tokenOf shown
  rw [text, place, (text_place_of_tokenOf shown').2]
  exact le

/-- An analysis that succeeds shows the tokens of the scan. -/
theorem exists_scan_of_analyse {tokens : List (Token κ)}
    (h : s.analyse source file = .ok tokens) : ∃ last, s.scan source file = .ok (tokens, last) := by
  rw [analyse] at h
  cases scanned : s.scan source file with
  | error e => simp [scanned] at h
  | ok result =>
    simp only [scanned, Except.ok.injEq] at h
    exact ⟨result.2, by rw [← h]⟩

/-- An analysis that fails shows the error of the scan. -/
theorem scan_of_analyse_eq_error {e : ScanError} (h : s.analyse source file = .error e) :
    s.scan source file = .error e := by
  rw [analyse] at h
  cases scanned : s.scan source file with
  | error e' =>
    simp only [scanned, Except.error.injEq] at h
    rw [h]
  | ok result => simp [scanned] at h

variable [TokenKind κ]

/-- A stream is closed where the scan has come to. -/
theorem exists_scan_of_tokenize {stream : TokenStream κ}
    (h : s.tokenize source file = .ok stream) :
    ∃ tokens last, s.scan source file = .ok (tokens, last) ∧ stream = .ofTokens tokens last := by
  rw [tokenize] at h
  cases scanned : s.scan source file with
  | error e => simp [scanned] at h
  | ok result =>
    simp only [scanned, Except.ok.injEq] at h
    exact ⟨result.1, result.2, rfl, h.symm⟩

/-- A stream cannot be made if the scan fails. -/
theorem scan_of_tokenize_eq_error {e : ScanError} (h : s.tokenize source file = .error e) :
    s.scan source file = .error e := by
  rw [tokenize] at h
  cases scanned : s.scan source file with
  | error e' =>
    simp only [scanned, Except.error.injEq] at h
    rw [h]
  | ok result => simp [scanned] at h

/-- **Locations are those of the source.**  Let a source be scanned.  If that succeeds, then every
token is a nonempty text of the source at its location, and ends before the next one begins.  If it
fails, then the text of the error stands at its location.  The end token of a stream is the empty
text at the end of the source. -/
theorem analyse_located (s : Scanner κ) (source file : String) :
    (∀ tokens, s.analyse source file = .ok tokens →
      (∀ t ∈ tokens, Located source t.text t.location ∧ t.text ≠ "") ∧
      tokens.Pairwise fun t t' =>
        t.location.offset < t'.location.offset ∧
          t.location.offset + t.text.utf8ByteSize ≤ t'.location.offset) ∧
    (∀ e, s.analyse source file = .error e → Located source e.text e.location) ∧
    ∀ stream, s.tokenize source file = .ok stream →
      stream.endToken = ⟨endKind, "", .ofPos source.endPos ""⟩ ∧
        stream.endLocation.offset = source.utf8ByteSize := by
  refine ⟨fun tokens analysed => ?_, fun e analysed => ?_, fun stream tokenized => ?_⟩
  · obtain ⟨last, scanned⟩ := exists_scan_of_analyse analysed
    refine ⟨fun t mem => located_of_scan scanned mem, ?_⟩
    refine (pairwise_of_scan scanned).imp_of_mem fun {t t'} mem _ behind => ⟨?_, behind⟩
    -- A token that is not empty ends behind its offset.
    have nonempty : t.text.utf8ByteSize ≠ 0 := fun none =>
      (located_of_scan scanned mem).2 (String.utf8ByteSize_eq_zero_iff.1 none)
    omega
  · obtain ⟨front, text, back, split, shown, place⟩ :=
      scan_eq_error (scan_of_analyse_eq_error analysed)
    rw [shown, place]
    exact located_of_split split
  · obtain ⟨tokens, last, scanned, rfl⟩ := exists_scan_of_tokenize tokenized
    obtain ⟨-, -, -, -, rfl⟩ := scan_eq_ok scanned
    rw [after_toList]
    exact ⟨rfl, rfl⟩

/-- Letters, some of two bytes, with line feeds in between that are ignored. -/
def letters : Scanner RuleId :=
  ((Scanner.empty.perform (.ignoreRule "\n")).1.addRules [(⟨0⟩, "letter", "[a-zä-ü]")]).1

/-- Behind a letter of two bytes and a line feed, a letter, a stranger or the end stands at the
fourth byte, in the first column of the second line. -/
theorem analyse_located_umlaut :
    letters.analyse "ä\nb" "f" = .ok [⟨⟨0⟩, "ä", ⟨0, 1, 1, 1⟩⟩, ⟨⟨0⟩, "b", ⟨3, 2, 1, 1⟩⟩] ∧
      Located "ä\nb" "b" ⟨3, 2, 1, 1⟩ ∧
      letters.analyse "ä\n?" "f" = .error ⟨"f", ⟨3, 2, 1, 1⟩, "?"⟩ ∧
      Located "ä\n?" "?" ⟨3, 2, 1, 1⟩ ∧
      ∃ stream, letters.tokenize "ä\n" "f" = .ok stream ∧ stream.endLocation.offset = 3 := by
  have analysed : letters.analyse "ä\nb" "f" =
      .ok [⟨⟨0⟩, "ä", ⟨0, 1, 1, 1⟩⟩, ⟨⟨0⟩, "b", ⟨3, 2, 1, 1⟩⟩] := by decide +kernel
  have failed : letters.analyse "ä\n?" "f" = .error ⟨"f", ⟨3, 2, 1, 1⟩, "?"⟩ := by decide +kernel
  have scanned : letters.scan "ä\n" "f" = .ok ([⟨⟨0⟩, "ä", ⟨0, 1, 1, 1⟩⟩], ⟨3, 2, 1, 0⟩) := by
    decide +kernel
  have tokenized : letters.tokenize "ä\n" "f" =
      .ok (.ofTokens [⟨⟨0⟩, "ä", ⟨0, 1, 1, 1⟩⟩] ⟨3, 2, 1, 0⟩) := by rw [tokenize, scanned]
  have second := ((letters.analyse_located "ä\nb" "f").1 _ analysed).1 ⟨⟨0⟩, "b", ⟨3, 2, 1, 1⟩⟩
    (List.mem_cons_of_mem _ List.mem_cons_self)
  have last := ((letters.analyse_located "ä\n" "f").2.2 _ tokenized).2
  have size : "ä\n".utf8ByteSize = 3 := by decide +kernel
  have stranger := (letters.analyse_located "ä\n?" "f").2.1 _ failed
  exact ⟨analysed, second.1, failed, stranger, _, tokenized, last.trans size⟩

end Scanner

end FrontEnd
