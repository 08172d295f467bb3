import BlockDoc.Proofs.TextLink.Pattern

/-!
Links that are written into a text. A link is written with blanks inside its
parentheses or without, with angle brackets around its URL or without, and with
a title behind blanks or without. Where no other text of the text opens a
bracket, the links that are found are those that are written, one by one.
-/

namespace BlockDoc.TextLink

/-- A link as it is written. -/
structure WrittenLink where
  label : List Char
  url : List Char
  /-- Whether the URL stands in angle brackets. -/
  angled : Bool
  /-- What stands in front of the URL. -/
  lead : List Char
  /-- Blanks, and a title behind them. -/
  title : Option (List Char × List Char)
  /-- What stands behind the URL and the title. -/
  trail : List Char
  label_open : ']' ∉ label
  url_ne_nil : url ≠ []
  url_chars : ∀ c ∈ url, c ≠ ')' ∧ c ≠ '>' ∧ Text.isBlank c = false
  url_head : url.head? ≠ some '<'
  lead_blank : ∀ c ∈ lead, Text.isBlank c = true
  gap_ne_nil : ∀ t ∈ title, t.1 ≠ []
  gap_blank : ∀ t ∈ title, ∀ c ∈ t.1, Text.isBlank c = true
  title_unquoted : ∀ t ∈ title, '"' ∉ t.2
  trail_blank : ∀ c ∈ trail, Text.isBlank c = true

namespace WrittenLink

/-- The title with its quotation marks, behind its blanks. -/
def titleText (w : WrittenLink) : List Char :=
  match w.title with
  | some (gap, title) => gap ++ '"' :: title ++ ['"']
  | none => []

/-- The URL, possibly in angle brackets. -/
def urlText (w : WrittenLink) : List Char :=
  if w.angled then '<' :: w.url ++ ['>'] else w.url

/-- The text of a link. -/
def text (w : WrittenLink) : List Char :=
  '[' :: w.label ++ ']' :: '(' :: w.lead ++ w.urlText ++ w.titleText ++ w.trail ++ [')']

/-- The link that is found. -/
def found (w : WrittenLink) : Found := ⟨String.ofList w.url, String.ofList w.label⟩

variable (w : WrittenLink) (rest : List Char)

theorem text_append : w.text ++ rest = '[' :: (w.label ++ ']' :: '(' ::
    (w.lead ++ (w.urlText ++ (w.titleText ++ (w.trail ++ ')' :: rest))))) := by
  simp [text]

/-! ### Reading a written link -/

theorem skipBlanks_append {blanks cs : List Char} (h : ∀ c ∈ blanks, Text.isBlank c = true)
    (hcs : ∀ c ∈ cs.head?, Text.isBlank c = false) : skipBlanks (blanks ++ cs) = cs :=
  Text.dropWhile_append_boundary h hcs

theorem skipBlanks_trail : skipBlanks (w.trail ++ ')' :: rest) = ')' :: rest := by
  apply skipBlanks_append w.trail_blank
  rintro c ⟨⟩
  decide

theorem behindTitle?_written : behindTitle? (w.titleText ++ (w.trail ++ ')' :: rest)) =
    w.title.map fun _ => w.trail ++ ')' :: rest := by
  rw [behindTitle?, titleText]
  cases htitle : w.title with
  | none =>
      rw [List.nil_append, skipBlanks_trail]
      split_ifs <;> rfl
  | some t =>
      obtain ⟨gap, title⟩ := t
      have hgap : skipBlanks (gap ++ '"' :: (title ++ '"' :: (w.trail ++ ')' :: rest))) =
          '"' :: (title ++ '"' :: (w.trail ++ ')' :: rest)) := by
        apply skipBlanks_append (w.gap_blank _ htitle)
        rintro c ⟨⟩
        decide
      have hlength : 0 < gap.length := List.length_pos_iff.mpr (w.gap_ne_nil _ htitle)
      have hclose : (title ++ '"' :: (w.trail ++ ')' :: rest)).dropWhile (· != '"') =
          '"' :: (w.trail ++ ')' :: rest) := by
        apply Text.dropWhile_append_boundary
        · intro c hc
          exact bne_iff_ne.mpr (ne_of_mem_of_not_mem hc (w.title_unquoted _ htitle))
        · rintro c ⟨⟩
          rfl
      have hquoted : gap ++ '"' :: title ++ ['"'] ++ (w.trail ++ ')' :: rest) =
          gap ++ '"' :: (title ++ '"' :: (w.trail ++ ')' :: rest)) := by simp
      dsimp only
      rw [hquoted, hgap, if_neg (by simp only [List.length_append, List.length_cons]; omega)]
      simp [dropChar?, hclose]

theorem skipTitle_written :
    skipTitle (w.titleText ++ (w.trail ++ ')' :: rest)) = w.trail ++ ')' :: rest := by
  rw [skipTitle_eq, behindTitle?_written]
  cases htitle : w.title with
  | none => simp [titleText, htitle]
  | some t => rfl

/-- What stands behind a URL begins with a parenthesis or a blank. -/
theorem head?_behindUrl :
    ∀ c ∈ (w.titleText ++ (w.trail ++ ')' :: rest)).head?, c = ')' ∨ Text.isBlank c = true := by
  have hblank : ∀ {blanks cs : List Char} {c : Char}, (∀ c ∈ blanks, Text.isBlank c = true) →
      blanks ≠ [] → c ∈ (blanks ++ cs).head? → Text.isBlank c = true := by
    intro blanks cs c h hne hc
    rw [List.head?_append_of_ne_nil _ hne] at hc
    exact h c (List.mem_of_mem_head? hc)
  intro c hc
  rw [titleText] at hc
  cases htitle : w.title with
  | none =>
      rw [htitle, List.nil_append] at hc
      by_cases htrail : w.trail = []
      · rw [htrail, List.nil_append] at hc
        exact Or.inl (Option.some.inj hc).symm
      · exact Or.inr (hblank w.trail_blank htrail hc)
  | some t =>
      rw [htitle] at hc
      simp only [List.append_assoc] at hc
      exact Or.inr (hblank (w.gap_blank t htitle) (w.gap_ne_nil t htitle) hc)

theorem isUrlChar_of_mem {c : Char} (h : c ∈ w.url) : isUrlChar c = true := by
  obtain ⟨hparenthesis, hangle, hblank⟩ := w.url_chars c h
  simp [isUrlChar, hparenthesis, hangle, hblank]

/-- A URL is read up to the first character behind it. -/
theorem readUrl?_append {cs : List Char} (hcs : ∀ c ∈ cs.head?, isUrlChar c = false) :
    readUrl? (w.url ++ cs) = (close? cs).map fun rest => (w.url, rest) := by
  have hurl : ∀ c ∈ w.url, isUrlChar c = true := fun c hc => w.isUrlChar_of_mem hc
  rw [readUrl?, Text.takeWhile_append_boundary hurl hcs, Text.dropWhile_append_boundary hurl hcs,
    if_neg (by simpa using w.url_ne_nil)]

theorem readUrl?_written : readUrl? (w.url ++ (w.titleText ++ (w.trail ++ ')' :: rest))) =
    some (w.url, rest) := by
  have hhead := w.head?_behindUrl rest
  have hangle : dropChar? '>' (w.titleText ++ (w.trail ++ ')' :: rest)) = none := by
    rw [Option.eq_none_iff_forall_ne_some]
    intro behind hbehind
    have hc := hhead '>' (by rw [dropChar?_eq_some_iff.mp hbehind]; rfl)
    exact absurd hc (by decide)
  rw [readUrl?_append, close?, hangle, Option.getD_none, skipTitle_written, skipBlanks_trail]
  · rfl
  · intro c hc
    rcases hhead c hc with rfl | hblank
    · rfl
    · simp [isUrlChar, hblank]

theorem readUrl?_angled : readUrl? (w.url ++ '>' :: (w.titleText ++ (w.trail ++ ')' :: rest))) =
    some (w.url, rest) := by
  rw [readUrl?_append, close?, dropChar?_cons, Option.getD_some, skipTitle_written,
    skipBlanks_trail]
  · rfl
  · rintro c ⟨⟩
    rfl

/-- The URL is read, whether or not it stands in angle brackets. -/
theorem readUrlText? (w : WrittenLink) (rest : List Char) :
    ((dropChar? '<' (w.urlText ++ (w.titleText ++ (w.trail ++ ')' :: rest)))).bind readUrl?).or
        (readUrl? (w.urlText ++ (w.titleText ++ (w.trail ++ ')' :: rest)))) =
      some (w.url, rest) := by
  rw [urlText]
  split_ifs
  · simp [dropChar?_cons, w.readUrl?_angled rest]
  · have hangle : dropChar? '<' (w.url ++ (w.titleText ++ (w.trail ++ ')' :: rest))) = none := by
      rw [Option.eq_none_iff_forall_ne_some]
      intro behind hbehind
      have hhead := congrArg List.head? (dropChar?_eq_some_iff.mp hbehind)
      rw [List.head?_append_of_ne_nil _ w.url_ne_nil] at hhead
      exact w.url_head hhead
    rw [hangle, readUrl?_written]
    rfl

theorem skipBlanks_lead : skipBlanks (w.lead ++ (w.urlText ++ rest)) = w.urlText ++ rest := by
  apply skipBlanks_append w.lead_blank
  intro c hc
  rw [urlText] at hc
  split_ifs at hc
  · obtain rfl := Option.some.inj hc
    decide
  · rw [List.head?_append_of_ne_nil _ w.url_ne_nil] at hc
    exact (w.url_chars c (List.mem_of_mem_head? hc)).2.2

theorem read?_written : read? (w.label ++ ']' :: '(' ::
    (w.lead ++ (w.urlText ++ (w.titleText ++ (w.trail ++ ')' :: rest))))) =
      some (w.found, rest) := by
  have hlabel : ∀ c ∈ w.label, (c != ']') = true :=
    fun c hc => bne_iff_ne.mpr (ne_of_mem_of_not_mem hc w.label_open)
  have hclose : ∀ cs, ∀ c ∈ (']' :: cs).head?, (c != ']') = false := by
    rintro cs c ⟨⟩
    rfl
  rw [read?, Text.takeWhile_append_boundary hlabel (hclose _),
    Text.dropWhile_append_boundary hlabel (hclose _)]
  simp only [dropChar?_cons, Option.bind_eq_bind, Option.bind_some, skipBlanks_lead]
  rw [w.readUrlText? rest]
  rfl

end WrittenLink

theorem ofList_of_no_bracket {sep : List Char} (h : '[' ∉ sep) (cs : List Char) :
    ofList (sep ++ cs) = ofList cs := by
  induction sep with
  | nil => rfl
  | cons c sep ih =>
      rw [List.mem_cons, not_or] at h
      rw [List.cons_append, ofList, if_neg (Ne.symm h.1), ih h.2]

theorem ofList_written (w : WrittenLink) (cs : List Char) :
    ofList (w.text ++ cs) = w.found :: ofList cs := by
  have hsuffix : cs <:+ w.label ++ ']' :: '(' ::
      (w.lead ++ (w.urlText ++ (w.titleText ++ (w.trail ++ ')' :: cs)))) :=
    ⟨w.label ++ ']' :: '(' :: (w.lead ++ (w.urlText ++ (w.titleText ++ (w.trail ++ [')'])))),
      by simp⟩
  rw [w.text_append, ofList, if_pos rfl, w.read?_written]
  exact congrArg (fun rest => w.found :: ofList rest) (List.suffix_iff_eq_drop.mp hsuffix).symm

/-- A text in which no bracket opens. -/
abbrev Separator : Type := {cs : List Char // '[' ∉ cs}

/-- A text with links, each with the text behind it. -/
def textOf (first : Separator) (links : List (WrittenLink × Separator)) : List Char :=
  first.val ++ links.flatMap fun link => link.1.text ++ link.2.val

/-- The links in a text are those that are written in it, in their order; so are the matches of the
pattern. -/
theorem written_links_found (first : Separator) (links : List (WrittenLink × Separator)) :
    ofText (String.ofList (textOf first links)) = links.map (fun link => link.1.found) ∧
      (linkPattern.scan (textOf first links)).map Found.ofGroups =
        links.map (fun link => link.1.found) := by
  have hlinks : ofList (textOf first links) = links.map fun link => link.1.found := by
    rw [textOf, ofList_of_no_bracket first.property]
    induction links with
    | nil => rw [List.flatMap_nil, ofList, List.map_nil]
    | cons link links ih =>
        rw [List.flatMap_cons, List.append_assoc, ofList_written,
          ofList_of_no_bracket link.2.property, ih, List.map_cons]
  refine ⟨?_, ?_⟩
  · rw [ofText, String.toList_ofList, hlinks]
  · rw [← ofList_eq_scan, hlinks]

/-- A link with blanks in its parentheses, with angle brackets, and with a title. There is a bracket
in its label and a parenthesis in its title. -/
def paddedLink : WrittenLink where
  label := "a[b".toList
  url := "#glyph:u".toList
  angled := true
  lead := [' ']
  title := some (['\t'], "(t)".toList)
  trail := [' ']
  label_open := by decide
  url_ne_nil := by decide
  url_chars := by simp [Text.isBlank]
  url_head := by decide
  lead_blank := by simp [Text.isBlank]
  gap_ne_nil := by simp
  gap_blank := by simp [Text.isBlank]
  title_unquoted := by simp
  trail_blank := by simp [Text.isBlank]

/-- A link with nothing but a label and a URL. -/
def bareLink : WrittenLink where
  label := ['c']
  url := ['v']
  angled := false
  lead := []
  title := none
  trail := []
  label_open := by decide
  url_ne_nil := by decide
  url_chars := by simp [Text.isBlank]
  url_head := by decide
  lead_blank := by simp
  gap_ne_nil := by simp
  gap_blank := by simp
  title_unquoted := by simp
  trail_blank := by simp

theorem written_links_found_of_paddedLink :
    ofText "x] [a[b]( <#glyph:u>\t\"(t)\" ) y [c](v)" =
        [⟨"#glyph:u", "a[b"⟩, ⟨"v", "c"⟩] ∧
      (linkPattern.scan "x] [a[b]( <#glyph:u>\t\"(t)\" ) y [c](v)".toList).map Found.ofGroups =
        [⟨"#glyph:u", "a[b"⟩, ⟨"v", "c"⟩] :=
  written_links_found ⟨"x] ".toList, by decide⟩
    [(paddedLink, ⟨" y ".toList, by decide⟩), (bareLink, ⟨[], by decide⟩)]

end BlockDoc.TextLink
