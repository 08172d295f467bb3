import BlockDoc.Proofs.Target

/-!
Targets and their written form. However a target was declared, its document and
its id are trimmed, and its document has no marker. So the written form, with
the marker between both, is split there again, and nothing is left to trim:
links and declarations read the same target from it. A declaration with a marker
is read as a link, since trimming takes no part of a marker.
-/

namespace BlockDoc.Target

/-- The written form of a target. -/
def written (t : Target) : String := t.document.getD "" ++ marker ++ t.id

/-- A target as it is read: an id and possibly a document, neither of them empty or with blanks
around it, and the document without a marker. -/
structure Normal (t : Target) : Prop where
  id_ne_empty : t.id ≠ ""
  trim_id : Text.trim t.id = t.id
  document_ne_empty : ∀ d ∈ t.document, d ≠ ""
  trim_document : ∀ d ∈ t.document, Text.trim d = d
  not_marker : ∀ d ∈ t.document, ¬ marker.toList <:+: d.toList

theorem marker_ends : (∀ c ∈ marker.toList.head?, Text.isBlank c = false) ∧
    ∀ c ∈ marker.toList.getLast?, Text.isBlank c = false := by
  have hhead : marker.toList.head? = some '#' := rfl
  have hlast : marker.toList.getLast? = some ':' := rfl
  rw [hhead, hlast]
  simp only [Option.mem_some_iff, forall_eq']
  exact ⟨by decide, by decide⟩

/-! ### What is read -/

theorem ofParts?_eq_none_iff {document id : String} :
    ofParts? document id = none ↔ Text.isBlankText id = true := by
  simp [ofParts?, Text.isEmpty_trim]

theorem normal_ofParts? {document id : String} {t : Target} (h : ofParts? document id = some t)
    (hdocument : ¬ marker.toList <:+: document.toList) : t.Normal := by
  have hid : Text.isBlankText id = false := by
    rw [Bool.eq_false_iff]
    intro hblank
    rw [ofParts?_eq_none_iff.mpr hblank] at h
    exact nomatch h
  rw [ofParts?_of_not_blank hid] at h
  obtain rfl := Option.some.inj h
  have hne : ∀ {s : String}, Text.isBlankText s = false → Text.trim s ≠ "" := by
    intro s hs hempty
    rw [← Text.isEmpty_trim, hempty] at hs
    exact absurd hs (by decide)
  cases hblank : Text.isBlankText document with
  | true => exact ⟨hne hid, Text.trim_trim id, by simp, by simp, by simp⟩
  | false =>
      have htrimmed : (Text.trim document).toList <:+: document.toList := by
        rw [Text.trim, String.toList_ofList]
        exact Text.dropAroundWhile_isInfix _ _
      refine ⟨hne hid, Text.trim_trim id, ?_, ?_, ?_⟩ <;>
        simp only [Bool.false_eq_true, if_false, Option.mem_some_iff, forall_eq']
      · exact hne hblank
      · exact Text.trim_trim document
      · exact fun hmarker => hdocument (hmarker.trans htrimmed)

theorem ofLink?_of_first {before : String} (h : ¬ marker.toList <:+: before.toList)
    (after : String) : ofLink? (before ++ marker ++ after) = ofParts? before after := by
  rw [← Text.occursIn_iff_isInfix, Bool.not_eq_true] at h
  exact ofLink?_between h after

/-- A text with a marker is cut at its first one. -/
theorem exists_first_marker {raw : String} (h : marker.toList <:+: raw.toList) :
    ∃ before after, raw = before ++ marker ++ after ∧ ¬ marker.toList <:+: before.toList ∧
      ∀ front back, raw = front ++ marker ++ back → before.length ≤ front.length := by
  have hsome : Text.splitFirst? marker.toList raw.toList ≠ none := by
    rw [ne_eq, Text.splitFirst?_eq_none_iff, not_not]
    exact h
  obtain ⟨⟨before, after⟩, hsplit⟩ := Option.ne_none_iff_exists'.mp hsome
  refine ⟨String.ofList before, String.ofList after, ?_, ?_, ?_⟩
  · rw [← String.toList_inj, Text.splitFirst?_spec hsplit]
    simp
  · rw [String.toList_ofList]
    exact Text.not_infix_of_splitFirst? (by decide) hsplit
  · intro front back hraw
    have hcs : raw.toList = front.toList ++ marker.toList ++ back.toList := by
      rw [hraw, String.toList_append, String.toList_append]
    rw [String.length_ofList, ← String.length_toList]
    exact Text.splitFirst?_length_le hsplit hcs

/-- A declaration is read as a document without a marker and an id. -/
theorem exists_ofParts?_of_ofDeclared? {raw : String} {t : Target} (h : ofDeclared? raw = some t) :
    ∃ document id, ofParts? document id = some t ∧ ¬ marker.toList <:+: document.toList := by
  rw [ofDeclared?] at h
  split_ifs at h with hmarker
  · obtain ⟨before, after, hraw, hfirst, -⟩ :=
      exists_first_marker ((Text.occursIn_iff_isInfix _ _).mp hmarker)
    rw [hraw, ofLink?_of_first hfirst] at h
    exact ⟨before, after, h, hfirst⟩
  · rw [Text.occursIn_iff_isInfix] at hmarker
    cases hsplit : Text.splitOnce? "#" (Text.trim raw) with
    | none =>
        rw [hsplit] at h
        exact ⟨"", Text.trim raw, h, by decide⟩
    | some parts =>
        rw [hsplit] at h
        obtain ⟨⟨before, after⟩, hfirst, rfl⟩ := Option.map_eq_some_iff.mp hsplit
        refine ⟨_, _, h, fun hbefore => hmarker (hbefore.trans ?_)⟩
        rw [String.toList_ofList]
        exact ⟨[], "#".toList ++ after, by simp [Text.splitFirst?_spec hfirst]⟩

/-! ### Reading back -/

theorem Normal.ofLink?_written {t : Target} (h : t.Normal) : ofLink? t.written = some t := by
  have hnot : ¬ marker.toList <:+: (t.document.getD "").toList := by
    cases hdocument : t.document with
    | none => decide
    | some d => exact h.not_marker d hdocument
  have hblank : ∀ {s : String}, Text.trim s = s → s ≠ "" → Text.isBlankText s = false := by
    intro s htrim hne
    rw [← Text.isEmpty_trim, htrim]
    simpa using hne
  rw [written, ofLink?_of_first hnot, ofParts?_of_not_blank (hblank h.trim_id h.id_ne_empty),
    h.trim_id]
  obtain ⟨document, id⟩ := t
  cases document with
  | none => rfl
  | some d =>
      have hd := hblank (h.trim_document d rfl) (h.document_ne_empty d rfl)
      rw [Option.getD_some, hd, h.trim_document d rfl]
      rfl

/-- Trimming takes no part of a marker. -/
theorem trim_around_marker (before after : String) : Text.trim (before ++ marker ++ after) =
    String.ofList (before.toList.dropWhile Text.isBlank) ++ marker ++
      String.ofList (Text.dropEndWhile Text.isBlank after.toList) := by
  rw [← String.toList_inj, Text.trim, String.toList_ofList, String.toList_append,
    String.toList_append, Text.dropAroundWhile_around (by decide) marker_ends.1 marker_ends.2]
  simp

/-- A declaration with a marker is read as a link. -/
theorem ofDeclared?_of_marker {raw : String} (h : marker.toList <:+: raw.toList) :
    ofDeclared? raw = ofLink? raw := by
  obtain ⟨before, after, rfl, hfirst, -⟩ := exists_first_marker h
  have htrim := trim_around_marker before after
  have hoccurs : Text.occursIn marker (Text.trim (before ++ marker ++ after)) = true := by
    rw [Text.occursIn_iff_isInfix, htrim]
    exact ⟨before.toList.dropWhile Text.isBlank,
      Text.dropEndWhile Text.isBlank after.toList, by simp⟩
  have hfirst' : ¬ marker.toList <:+:
      (String.ofList (before.toList.dropWhile Text.isBlank)).toList := by
    intro hmarker
    rw [String.toList_ofList] at hmarker
    exact hfirst (hmarker.trans (List.dropWhile_suffix _).isInfix)
  calc ofDeclared? (before ++ marker ++ after)
      = ofLink? (Text.trim (before ++ marker ++ after)) := by
        rw [ofDeclared?, if_pos hoccurs]
    _ = ofParts? (String.ofList (before.toList.dropWhile Text.isBlank))
          (String.ofList (Text.dropEndWhile Text.isBlank after.toList)) := by
        rw [htrim, ofLink?_of_first hfirst']
    _ = ofParts? before after := by
        simp only [ofParts?, Text.trim_dropWhile, Text.trim_dropEndWhile]
    _ = ofLink? (before ++ marker ++ after) := (ofLink?_of_first hfirst after).symm

/-- A declared target is trimmed, and it is read back from its written form, as a link and as a
declaration. A text with a marker is the same target as a link and as a declaration; it is none
exactly if nothing but blanks follow its first marker. -/
theorem declared_target_reads_back (raw : String) :
    (∀ t ∈ ofDeclared? raw,
      t.Normal ∧ ofLink? t.written = some t ∧ ofDeclared? t.written = some t) ∧
    (marker.toList <:+: raw.toList →
      ofDeclared? raw = ofLink? raw ∧
      ∃ before after, raw = before ++ marker ++ after ∧
        (∀ front back, raw = front ++ marker ++ back → before.length ≤ front.length) ∧
        (ofLink? raw = none ↔ Text.isBlankText after = true)) := by
  constructor
  · intro t ht
    obtain ⟨document, id, hparts, hnot⟩ := exists_ofParts?_of_ofDeclared? ht
    have hnormal := normal_ofParts? hparts hnot
    have hmarker : marker.toList <:+: t.written.toList :=
      ⟨(t.document.getD "").toList, t.id.toList, by simp [written]⟩
    refine ⟨hnormal, hnormal.ofLink?_written, ?_⟩
    rw [ofDeclared?_of_marker hmarker, hnormal.ofLink?_written]
  · intro hmarker
    obtain ⟨before, after, hraw, hfirst, hleast⟩ := exists_first_marker hmarker
    refine ⟨ofDeclared?_of_marker hmarker, before, after, hraw, hleast, ?_⟩
    rw [hraw, ofLink?_of_first hfirst, ofParts?_eq_none_iff]

/-- The document ends in a number sign, and the id has a marker of its own. -/
theorem nestedMarkers_read_back :
    ofDeclared? " a##glyph: b #glyph:c\n" = some ⟨some "a#", "b #glyph:c"⟩ ∧
      marker.toList <:+: " a##glyph: b #glyph:c\n".toList ∧
      ofLink? (written ⟨some "a#", "b #glyph:c"⟩) = some ⟨some "a#", "b #glyph:c"⟩ ∧
      ofLink? " a##glyph: b #glyph:c\n" = some ⟨some "a#", "b #glyph:c"⟩ := by
  have hread : ofDeclared? " a##glyph: b #glyph:c\n" = some ⟨some "a#", "b #glyph:c"⟩ := by
    decide +kernel
  have hmarker : marker.toList <:+: " a##glyph: b #glyph:c\n".toList := by decide
  obtain ⟨hback, hlink⟩ := declared_target_reads_back " a##glyph: b #glyph:c\n"
  exact ⟨hread, hmarker, (hback _ hread).2.1, (hlink hmarker).1.symm.trans hread⟩

end BlockDoc.Target
