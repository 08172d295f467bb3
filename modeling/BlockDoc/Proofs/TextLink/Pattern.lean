import BlockDoc.TextLink
import BlockDoc.Proofs.Text

/-!
Links in texts by a pattern. A pattern of characters may match in several ways.
They are tried in an order: a repetition takes as many characters as it can
first, and an optional part is taken first. Here a way other than the first one
fails in the next part of the pattern, so the links are read without going back,
and the links in a text are the first ways of the pattern from left to right.
-/

namespace BlockDoc

namespace Text

/-- Patterns of characters. -/
inductive Pattern where
  /-- One character. -/
  | one (p : Char → Bool)
  /-- Any number of characters. -/
  | many (p : Char → Bool)
  /-- A part that may be missing. -/
  | optional (a : Pattern)
  /-- One part behind the other. -/
  | seq (a b : Pattern)
  /-- A part whose characters are kept. -/
  | group (a : Pattern)

namespace Pattern

/-- What may be left behind any number of characters, behind the most of them first. -/
def behindMany (p : Char → Bool) : List Char → List (List Char)
  | [] => [[]]
  | c :: cs => if p c then behindMany p cs ++ [c :: cs] else [c :: cs]

/-- The ways in which a pattern matches the front of a text, in the order in which they are tried:
the characters of the groups, and what is left behind. -/
def ways : Pattern → List Char → List (List (List Char) × List Char)
  | one _, [] => []
  | one p, c :: cs => if p c then [([], cs)] else []
  | many p, cs => (behindMany p cs).map fun rest => ([], rest)
  | optional a, cs => ways a cs ++ [([], cs)]
  | seq a b, cs =>
    (ways a cs).flatMap fun way => (ways b way.2).map fun next => (way.1 ++ next.1, next.2)
  | group a, cs =>
    (ways a cs).map fun way => (cs.take (cs.length - way.2.length) :: way.1, way.2)

/-- The groups of the first way at each place where the pattern matches, from left to right; the
search goes on behind the match. A match takes at least one character. -/
def scan (pat : Pattern) : List Char → List (List (List Char))
  | [] => []
  | c :: cs =>
    match (pat.ways (c :: cs)).head? with
    | some (groups, rest) => groups :: scan pat (cs.drop (cs.length - rest.length))
    | none => scan pat cs
  termination_by cs => cs.length
  decreasing_by
    all_goals simp only [List.length_drop, List.length_cons]; omega

/-! ### Parts that match in one way -/

variable {p : Char → Bool} {a b : Pattern} {cs rest : List Char}

/-- The pattern matches no text that begins with such a character. -/
def Excludes (pat : Pattern) (p : Char → Bool) : Prop :=
  ∀ c cs, p c = true → pat.ways (c :: cs) = []

theorem ways_seq_of_first {groups : List (List Char)} {others : List (List (List Char) × List Char)}
    (h : a.ways cs = (groups, rest) :: others) (hothers : ∀ way ∈ others, b.ways way.2 = []) :
    (seq a b).ways cs = (b.ways rest).map fun next => (groups ++ next.1, next.2) := by
  have hnone : (others.flatMap fun way =>
      (b.ways way.2).map fun next => (way.1 ++ next.1, next.2)) = [] := by
    rw [List.flatMap_eq_nil_iff]
    intro way hway
    rw [hothers way hway, List.map_nil]
  rw [ways, h, List.flatMap_cons, hnone, List.append_nil]

theorem ways_group_seq_of_first {front : List Char}
    {others : List (List (List Char) × List Char)} (h : a.ways cs = ([], rest) :: others)
    (hcs : cs = front ++ rest) (hothers : ∀ way ∈ others, b.ways way.2 = []) :
    (seq (group a) b).ways cs = (b.ways rest).map fun next => (front :: next.1, next.2) := by
  have hfront : cs.take (cs.length - rest.length) = front := by
    rw [hcs, List.length_append, Nat.add_sub_cancel, List.take_left]
  have hgroup : (group a).ways cs = ([front], rest) ::
      others.map fun way => (cs.take (cs.length - way.2.length) :: way.1, way.2) := by
    rw [ways, h, List.map_cons, hfront]
  refine ways_seq_of_first hgroup ?_
  intro way hway
  obtain ⟨way', hway', rfl⟩ := List.mem_map.mp hway
  exact hothers way' hway'

theorem exists_behindMany (p : Char → Bool) (cs : List Char) :
    ∃ others, behindMany p cs = cs.dropWhile p :: others ∧
      ∀ rest ∈ others, ∃ c behind, rest = c :: behind ∧ p c = true := by
  induction cs with
  | nil => exact ⟨[], rfl, by simp⟩
  | cons c cs ih =>
      rw [behindMany]
      split_ifs with hc
      · obtain ⟨others, hbehind, hothers⟩ := ih
        refine ⟨others ++ [c :: cs], by simp [hbehind, hc], ?_⟩
        rw [List.forall_mem_append, List.forall_mem_singleton]
        exact ⟨hothers, c, cs, rfl, hc⟩
      · exact ⟨[], by simp [hc], by simp⟩

/-- In front of a part that begins with none of its characters a repetition takes all it can. -/
theorem exists_ways_many (hb : b.Excludes p) (cs : List Char) :
    ∃ others, (many p).ways cs = ([], cs.dropWhile p) :: others ∧
      ∀ way ∈ others, b.ways way.2 = [] := by
  obtain ⟨others, hbehind, hothers⟩ := exists_behindMany p cs
  refine ⟨others.map fun rest => ([], rest), by rw [ways, hbehind, List.map_cons], ?_⟩
  intro way hway
  obtain ⟨rest, hrest, rfl⟩ := List.mem_map.mp hway
  obtain ⟨c, behind, rfl, hc⟩ := hothers rest hrest
  exact hb c behind hc

theorem ways_many_seq (hb : b.Excludes p) (cs : List Char) :
    (seq (many p) b).ways cs = b.ways (cs.dropWhile p) := by
  obtain ⟨others, hways, hothers⟩ := exists_ways_many hb cs
  simp [ways_seq_of_first hways hothers]

theorem ways_group_many_seq (hb : b.Excludes p) (cs : List Char) :
    (seq (group (many p)) b).ways cs =
      (b.ways (cs.dropWhile p)).map fun next => (cs.takeWhile p :: next.1, next.2) := by
  obtain ⟨others, hways, hothers⟩ := exists_ways_many hb cs
  exact ways_group_seq_of_first hways List.takeWhile_append_dropWhile.symm hothers

theorem ways_one_seq (p : Char → Bool) (b : Pattern) (c : Char) (cs : List Char) :
    (seq (one p) b).ways (c :: cs) = if p c then b.ways cs else [] := by
  rw [ways, ways]
  split_ifs <;> simp

/-- At least one character. -/
theorem ways_group_some_seq (hb : b.Excludes p) (cs : List Char) :
    (seq (group (seq (one p) (many p))) b).ways cs =
      if (cs.takeWhile p).isEmpty then []
      else (b.ways (cs.dropWhile p)).map fun next => (cs.takeWhile p :: next.1, next.2) := by
  cases cs with
  | nil => rfl
  | cons c cs =>
      cases hc : p c with
      | false => simp [ways, hc]
      | true =>
          obtain ⟨others, hways, hothers⟩ := exists_ways_many hb cs
          have hsome : (seq (one p) (many p)).ways (c :: cs) =
              ([], cs.dropWhile p) :: others := by
            rw [ways_one_seq, if_pos hc, hways]
          have hcs : c :: cs = (c :: cs.takeWhile p) ++ cs.dropWhile p := by simp
          rw [ways_group_seq_of_first hsome hcs hothers]
          simp [hc]

theorem ways_optional_seq (a b : Pattern) (cs : List Char) :
    (seq (optional a) b).ways cs = (seq a b).ways cs ++ b.ways cs := by
  simp [ways]

end Pattern

end Text

namespace TextLink

open Text (Pattern)
open Text.Pattern

/-! ### The pattern of links -/

/-- Blanks, and a title between quotation marks. -/
def titlePattern : Pattern :=
  seq (one Text.isBlank) (seq (many Text.isBlank)
    (seq (one (· == '"')) (seq (many (· != '"')) (one (· == '"')))))

/-- What closes a link: `(?:\s+"[^"]*")?\s*\)`. -/
def closePattern : Pattern :=
  seq (optional titlePattern) (seq (many Text.isBlank) (one (· == ')')))

/-- A URL and what follows it: `([^)\s>]+)>?` in front of what closes the link. -/
def urlPattern : Pattern :=
  seq (group (seq (one isUrlChar) (many isUrlChar))) (seq (optional (one (· == '>'))) closePattern)

/-- A link: `\[([^\]]*)\]\(\s*<?` in front of its URL. -/
def linkPattern : Pattern :=
  seq (one (· == '[')) (seq (group (many (· != ']'))) (seq (one (· == ']')) (seq (one (· == '('))
    (seq (many Text.isBlank) (seq (optional (one (· == '<'))) urlPattern)))))

/-- The link of a match. The groups hold its text and its URL. -/
def Found.ofGroups (groups : List (List Char)) : Found :=
  ⟨String.ofList (groups.getD 1 []), String.ofList (groups.getD 0 [])⟩

/-! ### Reading without going back -/

theorem dropChar?_eq_some_iff {c : Char} {cs rest : List Char} :
    dropChar? c cs = some rest ↔ cs = c :: rest := by
  cases cs with
  | nil => simp [dropChar?]
  | cons d cs =>
      rw [dropChar?]
      split_ifs with hd
      · simp [hd]
      · simp [hd]

theorem dropChar?_cons (c : Char) (cs : List Char) : dropChar? c (c :: cs) = some cs :=
  dropChar?_eq_some_iff.mpr rfl

theorem ways_char (d : Char) (cs : List Char) :
    (one (· == d)).ways cs = (dropChar? d cs).toList.map fun rest => ([], rest) := by
  cases cs with
  | nil => rfl
  | cons c cs => by_cases hc : c = d <;> simp [ways, dropChar?, hc]

theorem ways_char_seq (d : Char) (b : Pattern) (cs : List Char) :
    (seq (one (· == d)) b).ways cs = (dropChar? d cs).toList.flatMap b.ways := by
  cases cs with
  | nil => rfl
  | cons c cs => by_cases hc : c = d <;> simp [ways_one_seq, dropChar?, hc]

theorem dropChar?_of_class {c d : Char} {p : Char → Bool} (hd : p d = false) (hc : p c = true)
    (cs : List Char) : dropChar? d (c :: cs) = none := by
  have hne : c ≠ d := by
    rintro rfl
    rw [hd] at hc
    exact Bool.false_ne_true hc
  rw [dropChar?, if_neg hne]

theorem excludes_char_seq {d : Char} {p : Char → Bool} (hd : p d = false) (b : Pattern) :
    (seq (one (· == d)) b).Excludes p := by
  intro c cs hc
  rw [ways_char_seq, dropChar?_of_class hd hc]
  rfl

theorem excludes_char {d : Char} {p : Char → Bool} (hd : p d = false) :
    (one (· == d)).Excludes p := by
  intro c cs hc
  rw [ways_char, dropChar?_of_class hd hc]
  rfl

theorem skipBlanks_of_not_blank {c : Char} (hc : Text.isBlank c = false) (cs : List Char) :
    skipBlanks (c :: cs) = c :: cs := by
  rw [skipBlanks, List.dropWhile_cons_of_neg (by simp [hc])]

/-- What is left behind blanks and a closing parenthesis. -/
theorem ways_parenthesis (cs : List Char) :
    (seq (many Text.isBlank) (one (· == ')'))).ways cs =
      (dropChar? ')' (skipBlanks cs)).toList.map fun rest => ([], rest) := by
  rw [ways_many_seq (excludes_char (by decide)), ways_char]
  rfl

/-- What is left behind a title, if there is one. -/
def behindTitle? (cs : List Char) : Option (List Char) :=
  if (skipBlanks cs).length = cs.length then none
  else (dropChar? '"' (skipBlanks cs)).bind fun inner =>
    dropChar? '"' (inner.dropWhile (· != '"'))

theorem skipTitle_eq (cs : List Char) : skipTitle cs = (behindTitle? cs).getD cs := by
  simp only [skipTitle, behindTitle?]
  split_ifs
  · rfl
  · cases dropChar? '"' (skipBlanks cs) <;> rfl

theorem ways_title (cs : List Char) :
    titlePattern.ways cs = (behindTitle? cs).toList.map fun rest => ([], rest) := by
  cases cs with
  | nil => rfl
  | cons c cs =>
      rw [titlePattern, ways_one_seq, behindTitle?]
      split_ifs with hc hlength hlength
      · have hle := (List.dropWhile_suffix (l := cs) Text.isBlank).length_le
        rw [skipBlanks, List.dropWhile_cons_of_pos hc, List.length_cons] at hlength
        omega
      · rw [ways_many_seq (excludes_char_seq (by decide) _), ways_char_seq, skipBlanks,
          List.dropWhile_cons_of_pos hc]
        cases dropChar? '"' (cs.dropWhile Text.isBlank) with
        | none => rfl
        | some inner =>
            rw [Option.toList_some, List.flatMap_singleton,
              ways_many_seq (excludes_char (by decide)), ways_char]
            rfl
      · rfl
      · exact absurd (congrArg List.length (skipBlanks_of_not_blank (by simpa using hc) cs)) hlength

theorem ways_close (cs : List Char) :
    closePattern.ways cs =
      (dropChar? ')' (skipBlanks (skipTitle cs))).toList.map fun rest => ([], rest) := by
  rw [closePattern, ways_optional_seq, ways_parenthesis, skipTitle_eq]
  cases htitle : behindTitle? cs with
  | none => simp [ways, ways_title, htitle]
  | some rest =>
      -- the first quotation mark is no parenthesis
      have hnone : dropChar? ')' (skipBlanks cs) = none := by
        rw [behindTitle?] at htitle
        split_ifs at htitle
        obtain ⟨inner, hquote, -⟩ := Option.bind_eq_some_iff.mp htitle
        rw [dropChar?_eq_some_iff.mp hquote]
        rfl
      rw [hnone, Option.getD_some, ways, ways_title, htitle, ← ways_parenthesis]
      simp

theorem skipTitle_of_not_blank {c : Char} (hc : Text.isBlank c = false) (cs : List Char) :
    skipTitle (c :: cs) = c :: cs := by
  rw [skipTitle_eq, behindTitle?, skipBlanks_of_not_blank hc, if_pos rfl]
  rfl

theorem ways_end (cs : List Char) :
    (seq (optional (one (· == '>'))) closePattern).ways cs =
      (close? cs).toList.map fun rest => ([], rest) := by
  rw [ways_optional_seq, ways_char_seq, close?]
  cases hangle : dropChar? '>' cs with
  | none => simp [ways_close]
  | some rest =>
      -- an angle bracket does not close a link
      rw [dropChar?_eq_some_iff.mp hangle, ways_close ('>' :: rest),
        skipTitle_of_not_blank (by decide), skipBlanks_of_not_blank (by decide)]
      simp [ways_close, dropChar?]

theorem isBlank_of_isUrlChar {c : Char} (h : isUrlChar c = true) : Text.isBlank c = false := by
  simp only [isUrlChar, Bool.and_eq_true, Bool.not_eq_true'] at h
  exact h.2

theorem excludes_end : (seq (optional (one (· == '>'))) closePattern).Excludes isUrlChar := by
  intro c cs hc
  have hblank := isBlank_of_isUrlChar hc
  rw [ways_end, close?, dropChar?_of_class (by decide) hc, Option.getD_none,
    skipTitle_of_not_blank hblank, skipBlanks_of_not_blank hblank,
    dropChar?_of_class (by decide) hc]
  rfl

theorem ways_url (cs : List Char) :
    urlPattern.ways cs = (readUrl? cs).toList.map fun way => ([way.1], way.2) := by
  rw [urlPattern, ways_group_some_seq excludes_end, ways_end, readUrl?]
  split_ifs
  · rfl
  · cases close? (cs.dropWhile isUrlChar) <;> rfl

theorem excludes_url : urlPattern.Excludes Text.isBlank := by
  intro c cs hc
  have hnot : isUrlChar c = false := by simp [isUrlChar, hc]
  rw [ways_url, readUrl?, List.takeWhile_cons_of_neg (by simp [hnot])]
  rfl

/-- The ways behind the opening parenthesis: an angle bracket is left out first. -/
theorem ways_angle (cs : List Char) :
    (seq (optional (one (· == '<'))) urlPattern).ways cs =
      ((dropChar? '<' cs).bind readUrl?).toList.map (fun way => ([way.1], way.2)) ++
        (readUrl? cs).toList.map fun way => ([way.1], way.2) := by
  rw [ways_optional_seq, ways_char_seq, ways_url]
  cases dropChar? '<' cs <;> simp [ways_url]

theorem excludes_angle : (seq (optional (one (· == '<'))) urlPattern).Excludes Text.isBlank := by
  intro c cs hc
  rw [ways_optional_seq, excludes_char_seq (by decide) _ c cs hc, excludes_url c cs hc]
  rfl

theorem head?_toList_map_append {α β : Type} (o o' : Option α) (f : α → β) :
    (o.toList.map f ++ o'.toList.map f).head? = (o.or o').map f := by
  cases o <;> cases o' <;> rfl

/-- The first way of the pattern is what is read. -/
theorem head?_ways_link (c : Char) (cs : List Char) :
    ((linkPattern.ways (c :: cs)).head?.map fun way => (Found.ofGroups way.1, way.2)) =
      if c = '[' then read? cs else none := by
  rw [linkPattern, ways_one_seq]
  by_cases hc : c = '['
  · rw [if_pos hc, if_pos (by simp [hc]), ways_group_many_seq (excludes_char_seq (by decide) _),
      ways_char_seq, read?]
    cases dropChar? ']' (cs.dropWhile (· != ']')) with
    | none => rfl
    | some rest =>
        rw [Option.toList_some, List.flatMap_singleton, ways_char_seq]
        cases hopen : dropChar? '(' rest with
        | none => simp [hopen]
        | some rest =>
            rw [Option.toList_some, List.flatMap_singleton, ways_many_seq excludes_angle,
              ways_angle, List.head?_map, head?_toList_map_append, ← skipBlanks]
            simp only [hopen, Option.bind_eq_bind, Option.bind_some, Option.map_map]
            generalize ((dropChar? '<' (skipBlanks rest)).bind readUrl?).or
              (readUrl? (skipBlanks rest)) = way
            cases way <;> rfl
  · rw [if_neg hc, if_neg (by simp [hc])]
    rfl

/-- The links in a text are the matches of the pattern. -/
theorem ofList_eq_scan (cs : List Char) :
    ofList cs = (linkPattern.scan cs).map Found.ofGroups := by
  fun_induction ofList cs with
  | case1 => rw [scan, List.map_nil]
  | case2 cs link rest hread ih =>
      have hfirst := head?_ways_link '[' cs
      rw [if_pos rfl, hread] at hfirst
      obtain ⟨⟨groups, behind⟩, hhead, hway⟩ := Option.map_eq_some_iff.mp hfirst
      obtain ⟨rfl, rfl⟩ := Prod.mk.inj hway
      rw [scan, hhead, List.map_cons, ← ih]
  | case3 cs hread ih =>
      have hfirst := head?_ways_link '[' cs
      rw [if_pos rfl, hread, Option.map_eq_none_iff] at hfirst
      rw [scan, hfirst, ← ih]
  | case4 c cs hc ih =>
      have hfirst := head?_ways_link c cs
      rw [if_neg hc, Option.map_eq_none_iff] at hfirst
      rw [scan, hfirst, ← ih]

end TextLink

end BlockDoc
