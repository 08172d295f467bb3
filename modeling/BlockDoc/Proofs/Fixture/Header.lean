import BlockDoc.Fixture
import BlockDoc.Proofs.Text

/-!
The header and the source of a fixture by the lines of its text. Behind byte
order marks the first line begins with the delimiter, and the header ends in
front of the next line that does. So a header without such a line is read as it
was written, but for carriage returns at its end, and the source is the text
behind the closing line, whatever it holds. Without one of the two lines a text
is no fixture.
-/

namespace BlockDoc.Fixture

/-! ### Fixtures as they are written -/

/-- A line feed, possibly behind a carriage return. -/
inductive LineBreak where
  | lf
  | crlf
  deriving DecidableEq, Repr

namespace LineBreak

/-- What stands in front of the line feed. -/
def lead : LineBreak → List Char
  | lf => []
  | crlf => ['\r']

/-- The characters of a line break. -/
def text (b : LineBreak) : List Char := b.lead ++ ['\n']

end LineBreak

/-- A fixture as it is written. No line of its header begins with the delimiter. -/
structure Written where
  /-- The number of byte order marks in front. -/
  marks : Nat
  /-- The line break behind the first delimiter. -/
  opening : LineBreak
  header : List Char
  /-- The line break behind the header. -/
  ending : LineBreak
  /-- The line break behind the second delimiter. -/
  closing : LineBreak
  source : List Char
  header_lines : ¬ Text.BeginsLine delimiter header

/-- The text of a fixture. -/
def Written.text (w : Written) : List Char :=
  List.replicate w.marks FrontMatter.byteOrderMark ++ delimiter ++ w.opening.text ++ w.header
    ++ w.ending.text ++ delimiter ++ w.closing.text ++ w.source

/-- The fixture that a header describes, with an empty source. -/
def ofHeader (header : List Char) : Except Error Fixture :=
  ((Toml.parse (String.ofList header)).bind fun t => ofTable t "").mapError .toml

/-! ### Lines -/

/-- A text without the byte order marks in front of it. -/
def unmarked (text : List Char) : List Char := text.dropWhile (· == FrontMatter.byteOrderMark)

/-- The lines of a text behind its byte order marks. -/
def linesOf (text : List Char) : List (List Char) := (unmarked text).splitOn '\n'

/-- Whether the first of some lines begins with the delimiter, and neither what stands behind it in
this line nor a later line does. -/
def Unclosed (lines : List (List Char)) : Prop :=
  ∃ opening later, lines = (delimiter ++ opening) :: later ∧
    ∀ line ∈ opening :: later, ¬ delimiter <+: line

variable {text behind header source : List Char}

theorem notMem_delimiter : '\n' ∉ delimiter := by decide

@[simp] theorem dropBreak_text (b : LineBreak) (cs : List Char) : dropBreak (b.text ++ cs) = cs := by
  cases b <;> rfl

theorem beginsLine_text (b : LineBreak) (cs : List Char) :
    Text.BeginsLine delimiter (b.text ++ cs) ↔ Text.BeginsLine delimiter cs := by
  have hbreak : '\n' ∉ b.lead := by cases b <;> decide
  have hdelimiter : ¬ delimiter <+: b.lead := by cases b <;> decide
  rw [LineBreak.text, List.append_assoc, List.singleton_append, Text.beginsLine_append,
    Text.beginsLine_of_notMem hbreak, or_iff_right hdelimiter]

theorem beginsLine_dropBreak (cs : List Char) :
    Text.BeginsLine delimiter (dropBreak cs) ↔ Text.BeginsLine delimiter cs := by
  fun_cases dropBreak cs with
  | case1 cs => exact (beginsLine_text .lf cs).symm
  | case2 cs => exact (beginsLine_text .crlf cs).symm
  | case3 => rfl

theorem beginsLine_lead (b : LineBreak) (cs : List Char) :
    Text.BeginsLine delimiter (cs ++ b.lead) ↔ Text.BeginsLine delimiter cs := by
  cases b with
  | lf => rw [LineBreak.lead, List.append_nil]
  | crlf => exact Text.beginsLine_concat_iff notMem_delimiter (by decide) (by decide)

/-- The delimiter in front of a text stands in its first line. -/
theorem exists_linesOf (h : unmarked text = delimiter ++ behind) :
    ∃ opening later, behind.splitOn '\n' = opening :: later ∧
      linesOf text = (delimiter ++ opening) :: later := by
  obtain ⟨opening, later, hlines⟩ := List.exists_cons_of_ne_nil (List.splitOn_ne_nil '\n' behind)
  refine ⟨opening, later, hlines, ?_⟩
  rw [linesOf, h, Text.splitOn_append_of_notMem notMem_delimiter, hlines]
  rfl

theorem prefix_unmarked_iff :
    delimiter <+: unmarked text ↔ ∃ line ∈ (linesOf text).head?, delimiter <+: line := by
  constructor
  · rintro ⟨behind, hbehind⟩
    obtain ⟨opening, later, -, hlines⟩ := exists_linesOf hbehind.symm
    exact ⟨delimiter ++ opening, by rw [hlines]; rfl, List.prefix_append _ _⟩
  · rintro ⟨line, hline, hprefix⟩
    obtain ⟨later, hlines⟩ := List.head?_eq_some_iff.mp hline
    exact hprefix.trans (Text.prefix_of_splitOn_eq_cons hlines)

theorem unclosed_iff (h : unmarked text = delimiter ++ behind) :
    Unclosed (linesOf text) ↔ ¬ Text.BeginsLine delimiter behind := by
  obtain ⟨opening, later, hbehind, htext⟩ := exists_linesOf h
  rw [Text.BeginsLine, hbehind, Unclosed, htext]
  constructor
  · rintro ⟨opening', later', heq, hnone⟩ ⟨line, hline, hprefix⟩
    obtain ⟨hopening, rfl⟩ := List.cons.inj heq
    obtain rfl := List.append_cancel_left hopening
    exact hnone line hline hprefix
  · intro hnone
    exact ⟨opening, later, rfl, fun line hline hprefix => hnone ⟨line, hline, hprefix⟩⟩

/-! ### Splitting -/

theorem split_unopened (h : ¬ delimiter <+: unmarked text) :
    split text = .error .missingOpening := by
  rw [split, ← unmarked]
  simp only [Text.dropLead?_eq_none_iff.mpr h]
  rfl

/-- Behind the opening delimiter a text is split at the first line that begins with it. -/
theorem split_opened (h : unmarked text = delimiter ++ behind) : split text =
    match Text.dropLead? delimiter (dropBreak behind) with
    | some source => .ok ([], dropBreak source)
    | none =>
      match Text.splitFirst? ('\n' :: delimiter) (dropBreak behind) with
      | some (header, source) =>
        .ok (Text.dropEndWhile (· == '\r') header, dropBreak source)
      | none => .error .missingClosing := by
  rw [split, ← unmarked]
  simp only [Text.dropLead?_eq_some_iff.mpr h]
  cases Text.dropLead? delimiter (dropBreak behind) with
  | some source => rfl
  | none =>
      dsimp only
      cases Text.splitFirst? ('\n' :: delimiter) (dropBreak behind) with
      | some parts => rfl
      | none => rfl

theorem split_unclosed (h : unmarked text = delimiter ++ behind)
    (hnone : ¬ Text.BeginsLine delimiter behind) : split text = .error .missingClosing := by
  rw [← beginsLine_dropBreak, Text.beginsLine_iff notMem_delimiter, not_or] at hnone
  rw [split_opened h, Text.dropLead?_eq_none_iff.mpr hnone.1,
    Text.splitFirst?_eq_none_iff.mpr hnone.2]

theorem exists_split_closed (h : unmarked text = delimiter ++ behind)
    (hline : Text.BeginsLine delimiter behind) : ∃ parts, split text = .ok parts := by
  rw [← beginsLine_dropBreak, Text.beginsLine_iff notMem_delimiter] at hline
  rw [split_opened h]
  cases hlead : Text.dropLead? delimiter (dropBreak behind) with
  | some source => exact ⟨_, rfl⟩
  | none =>
      have hinfix := hline.resolve_left (Text.dropLead?_eq_none_iff.mp hlead)
      cases hfirst : Text.splitFirst? ('\n' :: delimiter) (dropBreak behind) with
      | some parts => exact ⟨_, rfl⟩
      | none => exact absurd hinfix (Text.splitFirst?_eq_none_iff.mp hfirst)

/-- A header in which no line begins with the delimiter ends in front of the line that does. -/
theorem split_header {rest : List Char} (h : unmarked text = delimiter ++ behind)
    (hbehind : dropBreak behind = header ++ '\n' :: delimiter ++ rest)
    (hnone : ¬ Text.BeginsLine delimiter header) :
    split text = .ok (Text.dropEndWhile (· == '\r') header, dropBreak rest) := by
  rw [Text.beginsLine_iff notMem_delimiter, not_or] at hnone
  have hlead : ¬ delimiter <+: dropBreak behind := by
    rw [hbehind, List.append_assoc, List.cons_append,
      Text.prefix_append_cons_iff notMem_delimiter]
    exact hnone.1
  rw [split_opened h, Text.dropLead?_eq_none_iff.mpr hlead, hbehind,
    Text.splitFirst?_between notMem_delimiter (Text.splitFirst?_eq_none_iff.mpr hnone.2)]

theorem Written.unmarked_text (w : Written) : unmarked w.text = delimiter ++ (w.opening.text ++
    (w.header ++ w.ending.lead ++ '\n' :: delimiter ++ (w.closing.text ++ w.source))) := by
  have htext : w.text = List.replicate w.marks FrontMatter.byteOrderMark ++ (delimiter ++
      (w.opening.text ++
        (w.header ++ w.ending.lead ++ '\n' :: delimiter ++ (w.closing.text ++ w.source)))) := by
    simp [text, LineBreak.text]
  rw [htext, unmarked]
  apply Text.dropWhile_append_boundary
  · intro c hc
    rw [List.eq_of_mem_replicate hc]
    exact beq_self_eq_true _
  · rintro c ⟨⟩
    decide

theorem Written.split_text (w : Written) :
    split w.text = .ok (Text.dropEndWhile (· == '\r') w.header, w.source) := by
  have hreturns : ∀ c ∈ w.ending.lead, (c == '\r') = true := by
    cases w.ending <;> simp [LineBreak.lead]
  rw [split_header w.unmarked_text (dropBreak_text _ _)
      ((beginsLine_lead w.ending w.header).not.mpr w.header_lines),
    Text.dropEndWhile_append_of_pos hreturns, dropBreak_text]

theorem not_beginsLine_of_split {e : Error} (h : unmarked text = delimiter ++ behind)
    (hsplit : split text = .error e) : ¬ Text.BeginsLine delimiter behind := by
  intro hline
  obtain ⟨parts, hparts⟩ := exists_split_closed h hline
  rw [hparts] at hsplit
  exact nomatch hsplit

theorem split_eq_missingOpening_iff :
    split text = .error .missingOpening ↔ ¬ delimiter <+: unmarked text := by
  refine ⟨?_, split_unopened⟩
  rintro hsplit ⟨behind, hbehind⟩
  rw [split_unclosed hbehind.symm (not_beginsLine_of_split hbehind.symm hsplit)] at hsplit
  exact nomatch hsplit

theorem split_eq_missingClosing_iff :
    split text = .error .missingClosing ↔ Unclosed (linesOf text) := by
  by_cases hopen : delimiter <+: unmarked text
  · obtain ⟨behind, hbehind⟩ := hopen
    rw [unclosed_iff hbehind.symm]
    exact ⟨not_beginsLine_of_split hbehind.symm, split_unclosed hbehind.symm⟩
  · rw [split_unopened hopen]
    refine iff_of_false (nomatch ·) ?_
    rintro ⟨opening, later, hlines, -⟩
    exact hopen (prefix_unmarked_iff.mpr
      ⟨delimiter ++ opening, by rw [hlines]; rfl, List.prefix_append _ _⟩)

/-! ### Reading -/

/-- The source of a fixture is the one that stands behind its header, whatever the header says. -/
theorem ofTable_eq (t : Toml.Table) (source : String) :
    ofTable t source = (ofTable t "").map fun f => { f with source := source } := by
  have h : ofTable t source = (fun f => { f with source := source }) <$> ofTable t "" := by
    simp only [ofTable, map_bind, map_pure]
  exact h

theorem parse_of_split {text : String} (h : split text.toList = .ok (header, source)) :
    parse text = (ofHeader header).map fun f => { f with source := String.ofList source } := by
  rw [parse, h, ofHeader]
  simp only [bind, Except.bind]
  cases Toml.parse (String.ofList header) with
  | error e => rfl
  | ok t =>
      simp only [Except.mapError]
      rw [ofTable_eq t (String.ofList source)]
      cases ofTable t "" <;> rfl

/-- The error of a header that is found is one of its own. -/
theorem exists_toml_of_ofHeader {e : Error} (h : ofHeader header = .error e) :
    ∃ te, e = .toml te := by
  rw [ofHeader] at h
  cases hheader : (Toml.parse (String.ofList header)).bind fun t => ofTable t "" with
  | error te =>
      rw [hheader] at h
      exact ⟨te, (Except.error.inj h).symm⟩
  | ok f =>
      rw [hheader] at h
      exact nomatch h

theorem parse_eq_error_iff {text : String} {e : Error} (he : ∀ te, e ≠ .toml te) :
    parse text = .error e ↔ split text.toList = .error e := by
  cases hsplit : split text.toList with
  | error e' =>
      have hparse : parse text = .error e' := by
        rw [parse, hsplit]
        rfl
      rw [hparse, Except.error.injEq, Except.error.injEq]
  | ok parts =>
      rw [parse_of_split hsplit]
      refine iff_of_false ?_ (nomatch ·)
      intro hparse
      cases hheader : ofHeader parts.1 with
      | error e' =>
          rw [hheader] at hparse
          obtain ⟨te, hte⟩ := exists_toml_of_ofHeader hheader
          exact he te ((Except.error.inj hparse).symm.trans hte)
      | ok f =>
          rw [hheader] at hparse
          exact nomatch hparse

/-- The header of a fixture is read as it was written, but for carriage returns at its end, and its
source as it was written. A text is no fixture if its first line does not begin with the delimiter,
or if nothing behind it closes the header. -/
theorem header_and_source_read_back :
    (∀ w : Written,
      split w.text = .ok (Text.dropEndWhile (· == '\r') w.header, w.source) ∧
        parse (String.ofList w.text) =
          (ofHeader (Text.dropEndWhile (· == '\r') w.header)).map fun f =>
            { f with source := String.ofList w.source }) ∧
      ∀ text : String,
        (parse text = .error .missingOpening ↔
          ∀ line ∈ (linesOf text.toList).head?, ¬ delimiter <+: line) ∧
        (parse text = .error .missingClosing ↔ Unclosed (linesOf text.toList)) := by
  refine ⟨fun w => ⟨w.split_text, parse_of_split ?_⟩, fun text => ⟨?_, ?_⟩⟩
  · rw [String.toList_ofList, w.split_text]
  · rw [parse_eq_error_iff (by simp), split_eq_missingOpening_iff, prefix_unmarked_iff]
    simp only [not_exists, not_and]
  · rw [parse_eq_error_iff (by simp), split_eq_missingClosing_iff]

/-- A fixture with carriage returns, with a delimiter inside a line of its header, and with a blank
line and delimiters in its source. -/
def crowdedFixture : Written where
  marks := 2
  opening := .crlf
  header := "# +++\nexpect_id = \"x\"\r".toList
  ending := .crlf
  closing := .lf
  source := "\n+++\r\n---\n".toList
  header_lines := by decide

theorem header_and_source_of_crowdedFixture :
    parse "\ufeff\ufeff+++\r\n# +++\nexpect_id = \"x\"\r\r\n+++\n\n+++\r\n---\n" =
        .ok ⟨none, ⟨none, none⟩, none, none, none, none, some "x", "\n+++\r\n---\n"⟩ ∧
      parse "+++\r\n +++\n" = .error .missingClosing := by
  obtain ⟨hwritten, herrors⟩ := header_and_source_read_back
  refine ⟨?_, (herrors _).2.mpr ⟨['\r'], [" +++".toList, []], by decide, by decide⟩⟩
  have hheader : ofHeader "# +++\nexpect_id = \"x\"".toList =
      .ok ⟨none, ⟨none, none⟩, none, none, none, none, some "x", ""⟩ := by decide +kernel
  have htrim : Text.dropEndWhile (· == '\r') crowdedFixture.header =
      "# +++\nexpect_id = \"x\"".toList := by decide
  have hparse := (hwritten crowdedFixture).2
  rw [htrim, hheader] at hparse
  exact hparse

end BlockDoc.Fixture
