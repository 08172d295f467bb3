import BlockDoc.Proofs.LineIndex

/-!
Points of a text that begins with other text. Where the first text ends with a
line break, the second one begins a line, so its points are those of a text of
its own, moved down by the lines and on by the bytes in front.
-/

namespace BlockDoc

/-- A point moved down by lines and on by bytes. -/
def Point.moved (lines bytes : Nat) (p : Point) : Point :=
  ⟨p.line + lines, p.column, p.offset + bytes⟩

/-- A stretch moved down by lines and on by bytes. -/
def Range.moved (lines bytes : Nat) (r : Range) : Range :=
  ⟨r.start.moved lines bytes, r.stop.moved lines bytes⟩

/-- A place behind whole lines that are put in front. -/
def LineIndex.Place.behindLines {text : List Char} {offset : Nat} (place : Place text offset)
    (pre : List Char) :
    Place (pre ++ ['\n'] ++ text) (offset + Text.byteLength (pre ++ ['\n'])) where
  lines := pre ++ ['\n'] ++ place.lines
  line := place.line
  behind := place.behind
  past := place.past
  text_eq := by
    conv_lhs => rw [place.text_eq]
    simp only [List.append_assoc]
  offset_eq := by
    have hoffset := place.offset_eq
    simp only [Text.byteLength_append] at hoffset ⊢
    omega
  lines_whole := by
    rcases place.lines_whole with hnil | ⟨front, hfront⟩
    · exact Or.inr ⟨pre, by rw [hnil, List.append_nil]⟩
    · exact Or.inr ⟨pre ++ ['\n'] ++ front, by simp only [hfront, List.append_assoc]⟩
  line_unbroken := place.line_unbroken
  past_lt := place.past_lt

/-- The points of a text that stands behind whole lines. -/
theorem Point.ofOffset_lines_append (pre cs : List Char) (offset : Nat) :
    ofOffset (pre ++ ['\n'] ++ cs) (offset + Text.byteLength (pre ++ ['\n'])) =
      (ofOffset cs offset).moved ((pre ++ ['\n']).count '\n')
        (Text.byteLength (pre ++ ['\n'])) := by
  obtain ⟨place⟩ := LineIndex.exists_place cs offset
  rw [ofOffset, ofOffset, place.point_eq, (place.behindLines pre).point_eq, Point.moved]
  simp only [LineIndex.Place.behindLines, Point.mk.injEq]
  refine ⟨?_, rfl, ?_⟩
  · rw [List.count_append]
    omega
  · simp only [Text.byteLength_append]
    omega

/-- The stretches of a text that stands behind whole lines. -/
theorem Range.ofSpan_lines_append (pre cs : List Char) (s : Span) :
    Range.ofSpan (pre ++ ['\n'] ++ cs) (s.shift (Text.byteLength (pre ++ ['\n']))) =
      (Range.ofSpan cs s).moved ((pre ++ ['\n']).count '\n')
        (Text.byteLength (pre ++ ['\n'])) := by
  simp only [Range.ofSpan, Range.ofOffsets, Span.shift, Range.moved,
    Nat.add_comm (Text.byteLength (pre ++ ['\n'])), Point.ofOffset_lines_append]

end BlockDoc
