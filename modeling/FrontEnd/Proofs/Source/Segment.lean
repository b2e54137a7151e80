import FrontEnd.Proofs.Source.Position
import FrontEnd.Text.Lines

/-!
# Segments of a source

Line feeds cut a source into segments, and every offset lies in one of them.  A location counts line
feeds and characters from the start of the source; an excerpt takes the lines of the source one by
one.  Both lead to the segment of the offset.

## Main Definitions

* `Text.withoutReturn`, `Text.shown` — a segment without its line end
* `SegmentAt` — the segment of a source that an offset lies in

## Main Results

* `Text.getElem?_lines` — the lines of a text are its segments
* `exists_segmentAt` — every offset between two characters lies in a segment
* `SegmentAt.after_start` — the location of an offset tells its segment, and the place in it

## Design Notes

**A line feed belongs to the segment that it ends.**  So the segment of an offset is the one whose
characters, or whose line feed, stand right behind it; and the end of a source lies in its last
segment, which is empty if the source ends with a line feed.
-/

namespace FrontEnd

namespace Text

/-- A segment without the carriage return at its end, if there is one. -/
def withoutReturn (segment : List Char) : List Char :=
  if segment.getLast? = some '\r' then segment.dropLast else segment

/-- What is shown of a segment: a carriage return belongs to the line end only if a line feed
follows it, that is, if the segment is not the last one. -/
def shown (segment behind : List Char) : List Char :=
  if behind = [] then segment else withoutReturn segment

/-! ### Lines of a text -/

theorem withoutReturn_cons_cons (c d : Char) (segment : List Char) :
    withoutReturn (c :: d :: segment) = c :: withoutReturn (d :: segment) := by
  unfold withoutReturn
  rw [List.getLast?_cons_cons, List.dropLast_cons_cons]
  split <;> rfl

/-- A character that is not part of a line end belongs to the first line. -/
theorem lines_cons {c : Char} {text : List Char} (feed : c ≠ '\n')
    (apart : c = '\r' → text.head? ≠ some '\n') :
    lines (c :: text) = consLine c (lines text) := by
  rw [lines]
  · exact feed
  · rintro back rfl rfl
    exact apart rfl rfl

/-- A text without line feeds has one line. -/
theorem lines_of_notMem {segment : List Char} (nonempty : segment ≠ []) (one : '\n' ∉ segment) :
    lines segment = [segment] := by
  induction segment with
  | nil => exact absurd rfl nonempty
  | cons c segment ih =>
    obtain ⟨first, later⟩ := List.ne_and_not_mem_of_not_mem_cons one
    rw [lines_cons first.symm fun _ feed => later (List.mem_of_head? feed)]
    by_cases last : segment = []
    · rw [last, lines_nil, consLine]
    · rw [ih last later, consLine]

/-- The first segment of a text is its first line, and the lines of what follows come next. -/
theorem lines_append_feed {segment : List Char} (one : '\n' ∉ segment) (rest : List Char) :
    lines (segment ++ '\n' :: rest) = withoutReturn segment :: lines rest := by
  induction segment with
  | nil => exact lines_feed rest
  | cons c segment ih =>
    obtain ⟨first, later⟩ := List.ne_and_not_mem_of_not_mem_cons one
    rcases segment with _ | ⟨d, segment⟩
    · by_cases returns : c = '\r'
      · rw [returns]
        exact lines_return_feed rest
      · have keeps : withoutReturn [c] = [c] := by simp [withoutReturn, returns]
        rw [keeps, List.singleton_append, lines_cons first.symm fun same => absurd same returns,
          lines_feed, consLine]
    · have next : d ≠ '\n' := fun feed => later (feed ▸ List.mem_cons_self)
      rw [List.cons_append, lines_cons first.symm (by simpa using fun _ => next), ih later,
        consLine, withoutReturn_cons_cons]

/-- **The lines of a text are its segments.**  Behind a number of line feeds stands the line of that
number; the empty segment at the end of a text is no line at all. -/
theorem getElem?_lines {before segment behind : List Char} (one : '\n' ∉ segment)
    (opens : ∀ c ∈ before.getLast?, c = '\n') (closes : ∀ c ∈ behind.head?, c = '\n') :
    (lines (before ++ segment ++ behind))[before.count '\n']?.getD [] = shown segment behind := by
  generalize feeds : before.count '\n' = n
  induction n generalizing before with
  | zero =>
    -- Without a line feed at its end, nothing stands in front of the segment.
    have first : before = [] := by
      refine List.getLast?_eq_none_iff.1 (Option.eq_none_iff_forall_not_mem.2 fun c last => ?_)
      exact List.count_eq_zero.1 feeds (opens c last ▸ List.mem_of_getLast? last)
    rw [first, List.nil_append]
    rcases behind with _ | ⟨c, behind⟩
    · rw [shown, if_pos rfl, List.append_nil]
      by_cases empty : segment = []
      · rw [empty, lines_nil]
        rfl
      · rw [lines_of_notMem empty one]
        rfl
    · rw [shown, if_neg (List.cons_ne_nil c behind), closes c rfl, lines_append_feed one]
      rfl
  | succ n ih =>
    have mem : '\n' ∈ before := List.count_pos_iff.1 (by omega)
    obtain ⟨line, later, rfl, lineOne⟩ := List.eq_append_cons_of_mem mem
    have count : later.count '\n' = n := by
      rw [List.count_append, List.count_cons_self, List.count_eq_zero.2 lineOne] at feeds
      omega
    have opens' : ∀ c ∈ later.getLast?, c = '\n' := by
      intro c last
      refine opens c ?_
      rw [List.getLast?_append, List.getLast?_cons, Option.mem_def.1 last]
      rfl
    rw [List.append_assoc, List.append_assoc, List.cons_append, lines_append_feed lineOne,
      List.getElem?_cons_succ, ← List.append_assoc]
    exact ih opens' count

end Text

/-! ### Segments -/

/-- The segment of a source that an offset in bytes lies in: it has the characters `passed` in front
of the offset and the characters `ahead` behind it.  Around it stand `before`, with the line feed
that opens the segment, and `behind`, with the one that ends it; each of them is missing at an end
of the source only. -/
structure SegmentAt (source : String) (offset : Nat) (before passed ahead behind : List Char) :
    Prop where
  split : source.toList = before ++ passed ++ (ahead ++ behind)
  offset : (String.ofList (before ++ passed)).utf8ByteSize = offset
  one : '\n' ∉ passed ++ ahead
  opens : ∀ c ∈ before.getLast?, c = '\n'
  closes : ∀ c ∈ behind.head?, c = '\n'

/-- Fronts of one text that have the same number of bytes are the same. -/
theorem eq_of_utf8ByteSize_eq {front front' text : List Char} (h : front <+: text)
    (h' : front' <+: text)
    (same : (String.ofList front).utf8ByteSize = (String.ofList front').utf8ByteSize) :
    front = front' := by
  wlog inside : front <+: front' generalizing front front'
  · exact (this h' h same.symm
      ((List.prefix_or_prefix_of_prefix h h').resolve_left inside)).symm
  obtain ⟨more, rfl⟩ := inside
  rw [String.ofList_append, String.utf8ByteSize_append] at same
  have none : String.ofList more = "" := String.utf8ByteSize_eq_zero_iff.1 (by omega)
  rw [String.ofList_eq_empty_iff.1 none, List.append_nil]

/-- Behind a line feed, or at the start of a text, characters other than line feeds make up the last
line. -/
theorem lastLine_append {before passed : List Char} (opens : ∀ c ∈ before.getLast?, c = '\n')
    (noFeed : '\n' ∉ passed) : lastLine (before ++ passed) = passed := by
  induction passed using List.reverseRecOn with
  | nil =>
    rcases List.eq_nil_or_concat' before with rfl | ⟨front, c, rfl⟩
    · rfl
    · rw [opens c List.getLast?_concat, List.append_nil, lastLine_concat_feed]
  | append_singleton passed c ih =>
    rw [List.mem_append, not_or, List.mem_singleton] at noFeed
    rw [← List.append_assoc, lastLine_concat _ (Ne.symm noFeed.2), ih noFeed.1]

variable {source : String} {front back : List Char}

/-- **Every offset between two characters of a source lies in a segment.** -/
theorem exists_segmentAt (split : source.toList = front ++ back) :
    ∃ before passed ahead behind,
      SegmentAt source (String.ofList front).utf8ByteSize before passed ahead behind := by
  have whole : front.rdropWhile (fun c => c ≠ '\n') ++ lastLine front = front :=
    List.rdropWhile_append_rtakeWhile
  refine ⟨front.rdropWhile fun c => c ≠ '\n', lastLine front, back.takeWhile fun c => c ≠ '\n',
    back.dropWhile fun c => c ≠ '\n', ?_, by rw [whole], ?_, fun c last => ?_, fun c first => ?_⟩
  · rw [whole, List.takeWhile_append_dropWhile, split]
  · rw [List.mem_append, not_or]
    exact ⟨fun mem => by simpa using List.mem_rtakeWhile_imp mem,
      fun mem => by simpa using List.mem_takeWhile_imp mem⟩
  · obtain ⟨nonempty, rfl⟩ := List.mem_getLast?_eq_getLast last
    simpa using List.rdropWhile_last_not _ front nonempty
  · have ends := List.head?_dropWhile_not (fun c => decide (c ≠ '\n')) back
    rw [Option.mem_def.1 first] at ends
    simpa using ends

namespace SegmentAt

variable {offset : Nat} {before passed ahead behind : List Char}

/-- What stands in front of the offset is told by the bytes. -/
theorem front_eq (h : SegmentAt source offset before passed ahead behind)
    (split : source.toList = front ++ back)
    (bytes : (String.ofList front).utf8ByteSize = offset) : before ++ passed = front :=
  eq_of_utf8ByteSize_eq ⟨_, h.split.symm⟩ ⟨_, split.symm⟩ (h.offset.trans bytes.symm)

/-- **The location of an offset tells its segment**, by the line feeds in front of it, and the place
in it. -/
theorem after_start (h : SegmentAt source offset before passed ahead behind) :
    Location.start.after (before ++ passed) =
      ⟨offset, 1 + before.count '\n', 1 + passed.length, 0⟩ := by
  have noFeed : '\n' ∉ passed := fun mem => h.one (List.mem_append_left ahead mem)
  rw [Location.after_start, h.offset, lastLine_append h.opens noFeed, List.count_append,
    List.count_eq_zero.2 noFeed, Nat.add_zero]

/-- The line of the source at the number of its segment is what is shown of the segment. -/
theorem line_eq (h : SegmentAt source offset before passed ahead behind) :
    (Text.lines source.toList)[before.count '\n']?.getD [] =
      Text.shown (passed ++ ahead) behind := by
  rw [h.split, ← List.append_assoc, List.append_assoc before]
  exact Text.getElem?_lines h.one h.opens h.closes

end SegmentAt

end FrontEnd
