import BlockDoc.Position
import BlockDoc.Proofs.Text
import Mathlib.Data.List.DropRight
import Mathlib.Data.Prod.Lex
import Mathlib.Order.Monotone.Basic

/-!
The point of an offset by lines and characters. An offset stands behind whole
lines and a part of a line, up to a place between two characters or a bit
further, inside a character. The starts up to the offset are those of the whole
lines and of its own, so the search ends there. The points of the places between
characters come in the order of these places.
-/

namespace BlockDoc.LineIndex

/-! ### Starts of lines -/

theorem text_ofText (text : List Char) : (ofText text).text = text := rfl

theorem starts_ofText (text : List Char) :
    (ofText text).starts = (0 :: startsBehind 0 text).toArray := rfl

theorem startsBehind_append (offset : Nat) (a b : List Char) :
    startsBehind offset (a ++ b) =
      startsBehind offset a ++ startsBehind (offset + Text.byteLength a) b := by
  induction a generalizing offset with
  | nil => simp [startsBehind, Text.byteLength]
  | cons c a ih =>
      rw [List.cons_append, startsBehind, startsBehind, ih, Text.byteLength, Nat.add_assoc]
      split_ifs <;> rfl

theorem length_startsBehind (offset : Nat) (cs : List Char) :
    (startsBehind offset cs).length = cs.count '\n' := by
  induction cs generalizing offset with
  | nil => rfl
  | cons c cs ih =>
      rw [startsBehind]
      by_cases hc : c = '\n' <;> simp [hc, ih]

theorem startsBehind_of_notMem {line : List Char} (h : '\n' ∉ line) (offset : Nat) :
    startsBehind offset line = [] := by
  rw [← List.length_eq_zero_iff, length_startsBehind]
  exact List.count_eq_zero_of_not_mem h

theorem le_of_mem_startsBehind {offset start : Nat} {cs : List Char}
    (h : start ∈ startsBehind offset cs) : start ≤ offset + Text.byteLength cs := by
  induction cs generalizing offset with
  | nil => exact absurd h List.not_mem_nil
  | cons c cs ih =>
      have hpos := c.utf8Size_pos
      have hrest : start ∈ startsBehind (offset + c.utf8Size) cs →
          start ≤ offset + Text.byteLength (c :: cs) := by
        intro hmem
        rw [Text.byteLength, ← Nat.add_assoc]
        exact ih hmem
      rw [startsBehind] at h
      split_ifs at h with hc
      · rcases List.mem_cons.mp h with rfl | hmem
        · rw [Text.byteLength]
          omega
        · exact hrest hmem
      · exact hrest h

theorem lt_of_mem_startsBehind {offset start : Nat} {cs : List Char}
    (h : start ∈ startsBehind offset cs) (past : Nat)
    (hpast : past = 0 ∨ ∃ c ∈ cs.head?, past < c.utf8Size) : offset + past < start := by
  induction cs generalizing offset past with
  | nil => exact absurd h List.not_mem_nil
  | cons c cs ih =>
      have hpos := c.utf8Size_pos
      have hsize : past < c.utf8Size := by
        rcases hpast with rfl | ⟨d, hd, hlt⟩
        · exact hpos
        · rwa [Option.some.inj hd]
      have hrest : start ∈ startsBehind (offset + c.utf8Size) cs → offset + past < start := by
        intro hmem
        have hlt := ih hmem 0 (Or.inl rfl)
        omega
      rw [startsBehind] at h
      split_ifs at h with hc
      · rcases List.mem_cons.mp h with rfl | hmem
        · have hone : c.utf8Size = 1 := by rw [hc]; rfl
          omega
        · exact hrest hmem
      · exact hrest h

/-- A line starts where the whole lines in front of it end. -/
theorem getLast_starts {lines : List Char} (h : lines = [] ∨ ∃ front, lines = front ++ ['\n']) :
    (0 :: startsBehind 0 lines).getLast (List.cons_ne_nil _ _) = Text.byteLength lines := by
  rcases h with rfl | ⟨front, rfl⟩
  · rfl
  · have hlast : 0 :: startsBehind 0 (front ++ ['\n']) =
        (0 :: startsBehind 0 front) ++ [Text.byteLength (front ++ ['\n'])] := by
      rw [startsBehind_append, Text.byteLength_append, Nat.zero_add]
      rfl
    simp only [hlast, List.getLast_append_singleton]

/-- A search ends where the starts pass the offset, if they do so only once. -/
theorem search_eq {starts : Array Nat} {offset k : Nat}
    (hfront : ∀ i, (h : i < starts.size) → i < k → starts[i] ≤ offset)
    (hback : ∀ i, (h : i < starts.size) → k ≤ i → offset < starts[i]) {lo hi : Nat}
    (hhi : hi ≤ starts.size) (hlo : lo ≤ k) (hk : k ≤ hi) : search starts offset lo hi hhi = k := by
  fun_induction search starts offset lo hi hhi with
  | case1 lo hi hhi hlt mid hle ih =>
      apply ih _ hk
      by_contra hnot
      have hpast := hback mid (by omega) (by omega)
      omega
  | case2 lo hi hhi hlt mid hle ih =>
      apply ih hlo
      by_contra hnot
      exact hle (hfront mid (by omega) (by omega))
  | case3 lo hi hhi hnot => omega

/-- A point by the line that is found and its start. -/
theorem point_of_start {index : LineIndex} {offset line start : Nat}
    (hline : index.lineOf (min offset (Text.byteLength index.text)) = line)
    (hstart : index.starts[line - 1]? = some start) :
    index.point offset =
      ⟨line, ((Text.slice? index.text start (min offset (Text.byteLength index.text))).map
          List.length).getD (min offset (Text.byteLength index.text) - start) + 1,
        min offset (Text.byteLength index.text)⟩ := by
  subst hline
  obtain ⟨hlt, hget⟩ := Array.getElem?_eq_some_iff.mp hstart
  rw [point, hget]
  cases Text.slice? index.text start (min offset (Text.byteLength index.text)) <;> rfl

/-! ### Places in a text -/

/-- Where an offset stands: behind whole lines and a part of a line, and possibly some bytes
further, which are less than the next character has. -/
structure Place (text : List Char) (offset : Nat) where
  lines : List Char
  line : List Char
  behind : List Char
  past : Nat
  text_eq : text = lines ++ line ++ behind
  offset_eq : min offset (Text.byteLength text) = Text.byteLength (lines ++ line) + past
  lines_whole : lines = [] ∨ ∃ front, lines = front ++ ['\n']
  line_unbroken : '\n' ∉ line
  past_lt : past = 0 ∨ ∃ c ∈ behind.head?, past < c.utf8Size

/-- Every offset in a text is behind a front of it, or inside the next character. -/
theorem exists_front {cs : List Char} {n : Nat} (h : n ≤ Text.byteLength cs) :
    ∃ front behind past, cs = front ++ behind ∧ n = Text.byteLength front + past ∧
      (past = 0 ∨ ∃ c ∈ behind.head?, past < c.utf8Size) := by
  induction cs generalizing n with
  | nil => exact ⟨[], [], n, rfl, by simp [Text.byteLength], Or.inl (Nat.le_zero.mp h)⟩
  | cons c cs ih =>
      rcases Nat.lt_or_ge n c.utf8Size with hlt | hge
      · exact ⟨[], c :: cs, n, rfl, by simp [Text.byteLength], Or.inr ⟨c, rfl, hlt⟩⟩
      · have hrest : n - c.utf8Size ≤ Text.byteLength cs := by
          rw [Text.byteLength] at h
          omega
        obtain ⟨front, behind, past, rfl, hn, hpast⟩ := ih hrest
        refine ⟨c :: front, behind, past, rfl, ?_, hpast⟩
        rw [Text.byteLength, Nat.add_assoc, ← hn, Nat.add_sub_cancel' hge]

/-- A text is whole lines and a line without its break. -/
theorem exists_lines (cs : List Char) :
    ∃ lines line, cs = lines ++ line ∧ (lines = [] ∨ ∃ front, lines = front ++ ['\n']) ∧
      '\n' ∉ line := by
  induction cs using List.reverseRecOn with
  | nil => exact ⟨[], [], rfl, Or.inl rfl, List.not_mem_nil⟩
  | append_singleton cs c ih =>
      by_cases hc : c = '\n'
      · exact ⟨cs ++ [c], [], by simp, Or.inr ⟨cs, by rw [hc]⟩, List.not_mem_nil⟩
      · obtain ⟨lines, line, rfl, hlines, hline⟩ := ih
        refine ⟨lines, line ++ [c], List.append_assoc _ _ _, hlines, ?_⟩
        simp [hline, Ne.symm hc]

theorem exists_place (text : List Char) (offset : Nat) : Nonempty (Place text offset) := by
  obtain ⟨front, behind, past, htext, hoffset, hpast⟩ :=
    exists_front (Nat.min_le_right offset (Text.byteLength text))
  obtain ⟨lines, line, rfl, hlines, hline⟩ := exists_lines front
  exact ⟨⟨lines, line, behind, past, htext, hoffset, hlines, hline, hpast⟩⟩

namespace Place

variable {text : List Char} {offset : Nat}

/-- The starts up to a place, and those behind it. -/
theorem starts_eq (place : Place text offset) :
    (ofText text).starts = ((0 :: startsBehind 0 place.lines) ++
      startsBehind (Text.byteLength (place.lines ++ place.line)) place.behind).toArray := by
  rcases place with ⟨lines, line, behind, past, rfl, -, -, hline, -⟩
  have hstarts : startsBehind 0 (lines ++ line ++ behind) =
      startsBehind 0 lines ++ startsBehind (Text.byteLength (lines ++ line)) behind := by
    rw [startsBehind_append, startsBehind_append, startsBehind_of_notMem hline, List.append_nil,
      Nat.zero_add]
  rw [starts_ofText, hstarts]
  rfl

theorem lineOf_eq (place : Place text offset) :
    (ofText text).lineOf (min offset (Text.byteLength text)) = 1 + place.lines.count '\n' := by
  have hlength : (0 :: startsBehind 0 place.lines).length = 1 + place.lines.count '\n' := by
    rw [List.length_cons, length_startsBehind, Nat.add_comm]
  rw [lineOf, ← hlength]
  apply search_eq
  · intro i h hi
    have hmem : (ofText text).starts[i] ∈ 0 :: startsBehind 0 place.lines := by
      simp only [place.starts_eq, List.getElem_toArray, List.getElem_append_left hi]
      exact List.getElem_mem hi
    rw [place.offset_eq, Text.byteLength_append]
    rcases List.mem_cons.mp hmem with hzero | hmem
    · omega
    · have hle := le_of_mem_startsBehind hmem
      omega
  · intro i h hi
    have hmem : (ofText text).starts[i] ∈
        startsBehind (Text.byteLength (place.lines ++ place.line)) place.behind := by
      simp only [place.starts_eq, List.getElem_toArray, List.getElem_append_right hi]
      exact List.getElem_mem _
    rw [place.offset_eq]
    exact lt_of_mem_startsBehind hmem place.past place.past_lt
  · exact Nat.zero_le _
  · rw [place.starts_eq]
    simp

/-- The line starts behind the whole lines. -/
theorem getElem?_starts (place : Place text offset) :
    (ofText text).starts[place.lines.count '\n']? = some (Text.byteLength place.lines) := by
  have hlast := getLast_starts place.lines_whole
  rw [List.getLast_eq_getElem] at hlast
  have hindex : (0 :: startsBehind 0 place.lines).length - 1 = place.lines.count '\n' := by
    rw [List.length_cons, length_startsBehind, Nat.add_sub_cancel]
  rw [place.starts_eq, List.getElem?_toArray, ← hindex, List.getElem?_append_left (by simp)]
  exact List.getElem?_eq_some_iff.mpr ⟨_, hlast⟩

/-- The point of a place. -/
theorem point_eq (place : Place text offset) :
    (ofText text).point offset =
      ⟨1 + place.lines.count '\n',
        (if place.past = 0 then place.line.length
          else Text.byteLength place.line + place.past) + 1,
        Text.byteLength (place.lines ++ place.line) + place.past⟩ := by
  have hstart : (ofText text).starts[1 + place.lines.count '\n' - 1]? =
      some (Text.byteLength place.lines) := by
    rw [Nat.add_sub_cancel_left, place.getElem?_starts]
  rw [point_of_start place.lineOf_eq hstart, text_ofText, place.offset_eq]
  congr 2
  split_ifs with hpast
  · have hslice := Text.slice?_append place.lines place.line place.behind
    rw [← place.text_eq] at hslice
    rw [hpast, Nat.add_zero, hslice]
    rfl
  · obtain ⟨c, hc, hlt⟩ := place.past_lt.resolve_left hpast
    obtain ⟨rest, hrest⟩ := List.head?_eq_some_iff.mp hc
    have hslice := Text.slice?_inside place.lines place.line rest (Nat.pos_of_ne_zero hpast) hlt
    rw [← hrest, ← place.text_eq] at hslice
    rw [hslice, Text.byteLength_append, Nat.add_assoc]
    exact Nat.add_sub_cancel_left _ _

end Place

/-! ### Places between characters -/

theorem rtakeWhile_line {lines line : List Char}
    (hlines : lines = [] ∨ ∃ front, lines = front ++ ['\n'])
    (hline : '\n' ∉ line) : (lines ++ line).rtakeWhile (· ≠ '\n') = line := by
  have hblank : ∀ c ∈ line.reverse, decide (c ≠ '\n') = true := by
    intro c hc
    exact decide_eq_true (ne_of_mem_of_not_mem (List.mem_reverse.mp hc) hline)
  have hbreak : ∀ c ∈ lines.reverse.head?, decide (c ≠ '\n') = false := by
    rcases hlines with rfl | ⟨front, rfl⟩ <;> simp
  rw [List.rtakeWhile, List.reverse_append, Text.takeWhile_append_boundary hblank hbreak,
    List.reverse_reverse]

theorem rtakeWhile_append_of_notMem {cs more : List Char} (h : '\n' ∉ more) :
    (cs ++ more).rtakeWhile (· ≠ '\n') = cs.rtakeWhile (· ≠ '\n') ++ more := by
  have hmore : ∀ c ∈ more.reverse, decide (c ≠ '\n') = true := by
    intro c hc
    exact decide_eq_true (ne_of_mem_of_not_mem (List.mem_reverse.mp hc) h)
  rw [List.rtakeWhile, List.reverse_append, List.takeWhile_append_of_pos hmore,
    List.reverse_append, List.reverse_reverse, List.rtakeWhile]

/-- Behind a front of a text lines and characters are counted. -/
theorem point_front (before behind : List Char) :
    (ofText (before ++ behind)).point (Text.byteLength before) =
      ⟨1 + before.count '\n', 1 + (before.rtakeWhile (· ≠ '\n')).length,
        Text.byteLength before⟩ := by
  obtain ⟨lines, line, rfl, hlines, hline⟩ := exists_lines before
  have hle : Text.byteLength (lines ++ line) ≤ Text.byteLength (lines ++ line ++ behind) :=
    Text.byteLength_le_of_prefix (List.prefix_append _ _)
  let place : Place (lines ++ line ++ behind) (Text.byteLength (lines ++ line)) :=
    ⟨lines, line, behind, 0, rfl, Nat.min_eq_left hle, hlines, hline, Or.inl rfl⟩
  rw [place.point_eq, rtakeWhile_line hlines hline, List.count_append,
    List.count_eq_zero_of_not_mem hline, Nat.add_zero, Nat.add_comm 1 line.length]
  rfl

/-- A longer front ends in a later line, or in the same line behind more characters. -/
theorem point_front_lt {a b more rest rest' : List Char} (hb : b = a ++ more) (hmore : more ≠ [])
    (htext : a ++ rest = b ++ rest') :
    toLex (((ofText (a ++ rest)).point (Text.byteLength a)).line,
        ((ofText (a ++ rest)).point (Text.byteLength a)).column) <
      toLex (((ofText (a ++ rest)).point (Text.byteLength b)).line,
        ((ofText (a ++ rest)).point (Text.byteLength b)).column) := by
  rw [point_front, htext, point_front, hb, Prod.Lex.toLex_lt_toLex]
  dsimp only
  by_cases hbreak : '\n' ∈ more
  · have hpos : 0 < more.count '\n' := List.count_pos_iff.mpr hbreak
    rw [List.count_append]
    omega
  · have hpos : 0 < more.length := List.length_pos_iff.mpr hmore
    rw [List.count_append, List.count_eq_zero_of_not_mem hbreak, rtakeWhile_append_of_notMem hbreak,
      List.length_append]
    omega

/-- The offsets between the characters of a text. -/
abbrev Boundary (text : String) : Type :=
  {offset : Nat // String.Pos.Raw.IsValid text ⟨offset⟩}

theorem Boundary.exists_front {text : String} (o : Boundary text) :
    ∃ before behind, text = before ++ behind ∧ before.utf8ByteSize = o.val := by
  obtain ⟨before, behind, htext, hend⟩ := String.Pos.Raw.isValid_iff_exists_append.mp o.property
  exact ⟨before, behind, htext, congrArg String.Pos.Raw.byteIdx hend.symm⟩

/-- Line and column of a place between characters. -/
def placeOf (text : String) (o : Boundary text) : Nat ×ₗ Nat :=
  toLex (((ofText text.toList).point o.val).line, ((ofText text.toList).point o.val).column)

theorem strictMono_placeOf (text : String) : StrictMono (placeOf text) := by
  intro o o' hlt
  obtain ⟨a, rest, htext, ha⟩ := o.exists_front
  obtain ⟨b, rest', htext', hb⟩ := o'.exists_front
  have hsplit : text.toList = a.toList ++ rest.toList := by rw [htext, String.toList_append]
  have hsplit' : text.toList = b.toList ++ rest'.toList := by rw [htext', String.toList_append]
  have hlengths : Text.byteLength a.toList < Text.byteLength b.toList := by
    rw [Text.byteLength_toList, Text.byteLength_toList, ha, hb]
    exact hlt
  have hprefix : a.toList <+: b.toList :=
    Text.prefix_of_byteLength_le ⟨_, hsplit.symm⟩ ⟨_, hsplit'.symm⟩ hlengths.le
  obtain ⟨more, hmore⟩ := hprefix
  have hne : more ≠ [] := by
    rintro rfl
    rw [← hmore, List.append_nil] at hlengths
    exact lt_irrefl _ hlengths
  have hplaces := point_front_lt hmore.symm hne (hsplit.symm.trans hsplit')
  rw [← hsplit, Text.byteLength_toList, Text.byteLength_toList, ha, hb] at hplaces
  exact hplaces

theorem exists_start (text : List Char) (offset : Nat) :
    ∃ start ≤ min offset (Text.byteLength text),
      (ofText text).starts[(ofText text).lineOf (min offset (Text.byteLength text)) - 1]? =
        some start := by
  obtain ⟨place⟩ := exists_place text offset
  refine ⟨Text.byteLength place.lines, ?_, ?_⟩
  · rw [place.offset_eq, Text.byteLength_append]
    omega
  · rw [place.lineOf_eq, Nat.add_sub_cancel_left, place.getElem?_starts]

/-- Every offset has a point: the line that is found has a start, which is not behind the offset,
and the end of the text stands for all offsets beyond it. The point of a place between characters
counts the line breaks in front of it, and the characters behind the last of these. These points are
in the order of the places, so line and column determine the offset. -/
theorem points_count_lines_and_characters (text : String) :
    (∀ offset,
      (∃ start ≤ min offset text.utf8ByteSize,
        (ofText text.toList).starts[
          (ofText text.toList).lineOf (min offset text.utf8ByteSize) - 1]? = some start) ∧
      (ofText text.toList).point offset =
        (ofText text.toList).point (min offset text.utf8ByteSize) ∧
      ((ofText text.toList).point offset).offset = min offset text.utf8ByteSize) ∧
    (∀ o : Boundary text, ∃ before behind, text = before ++ behind ∧
      before.utf8ByteSize = o.val ∧
      (ofText text.toList).point o.val =
        ⟨1 + before.toList.count '\n', 1 + (before.toList.rtakeWhile (· ≠ '\n')).length, o.val⟩) ∧
    StrictMono (placeOf text) ∧ Function.Injective (placeOf text) := by
  refine ⟨fun offset => ⟨?_, ?_, ?_⟩, fun o => ?_, strictMono_placeOf text,
    (strictMono_placeOf text).injective⟩
  · rw [← Text.byteLength_toList]
    exact exists_start text.toList offset
  · rw [← Text.byteLength_toList]
    simp only [point, text_ofText, Nat.min_assoc, Nat.min_self]
  · rw [← Text.byteLength_toList]
    rfl
  · obtain ⟨before, behind, htext, hsize⟩ := o.exists_front
    have hpoint := point_front before.toList behind.toList
    rw [← String.toList_append, ← htext, Text.byteLength_toList, hsize] at hpoint
    exact ⟨before, behind, htext, hsize, hpoint⟩

/-- Two bytes are one column, a line starts behind its break, and inside a character bytes count. -/
example : [5, 9, 99, 4].map (ofText "# hé\nlo\n".toList).point =
    [⟨1, 5, 5⟩, ⟨3, 1, 9⟩, ⟨3, 1, 9⟩, ⟨1, 5, 4⟩] := by
  decide +kernel

end BlockDoc.LineIndex
