import BlockDoc.FrontMatter
import BlockDoc.Proofs.Markdown.Event
import BlockDoc.Proofs.Node.Build
import BlockDoc.Proofs.Text
import Mathlib.Tactic.SplitIfs

/-!
Where the body of a text begins. Front matter is cut off a text as a whole
number of lines, so the text is what stands in front of the body and the body,
and the offset of the body is the number of bytes in front of it. The events of
the body are moved by this offset, so their stretches lie within the text.
-/

namespace BlockDoc

namespace Text

theorem splitList_eq_splitOnP (p : Char → Bool) (cs : List Char) :
    splitList p cs = cs.splitOnP p := by
  induction cs with
  | nil => rfl
  | cons c cs ih =>
      rw [splitList, List.splitOnP_cons_eq_if_modifyHead, ih]
      split_ifs
      · rfl
      · cases hsplit : List.splitOnP p cs with
        | nil => exact absurd hsplit (List.splitOnP_ne_nil p cs)
        | cons line lines => rfl

end Text

namespace FrontMatter

/-! ### Lines -/

/-- A text is its lines with line breaks between them. -/
theorem joinLines_splitList (cs : List Char) :
    joinLines (Text.splitList (· == '\n') cs) = cs := by
  rw [Text.splitList_eq_splitOnP]
  exact List.intercalate_splitOn '\n'

/-- Lines in front of others end with line breaks of their own. -/
theorem joinLines_append (lines : List (List Char)) {rest : List (List Char)} (h : rest ≠ []) :
    joinLines (lines ++ rest) = lines.flatMap (· ++ ['\n']) ++ joinLines rest := by
  induction lines with
  | nil => rfl
  | cons line lines ih =>
      have hne : lines ++ rest ≠ [] := by simp [h]
      rw [List.cons_append, joinLines, List.intercalate_cons_of_ne_nil hne, ← joinLines, ih]
      simp

@[simp] theorem byteLength_lineBreak : Text.byteLength ['\n'] = 1 := by decide

theorem byteLength_lines (lines : List (List Char)) :
    Text.byteLength (lines.flatMap (· ++ ['\n'])) = linesLength lines := by
  induction lines with
  | nil => rfl
  | cons line lines ih =>
      rw [List.flatMap_cons, Text.byteLength_append, Text.byteLength_append, byteLength_lineBreak,
        ih, linesLength]

/-- A text cut behind one of its lines, which may be the last one. -/
theorem joinLines_cut (lines : List (List Char)) (line : List Char) (behind : List (List Char)) :
    ∃ before, joinLines (lines ++ line :: behind) = before ++ joinLines behind ∧
      Text.byteLength before =
        linesLength lines + Text.byteLength line + (if behind.isEmpty then 0 else 1) ∧
      (joinLines behind = [] ∨ ∃ rest, before = rest ++ ['\n']) := by
  cases behind with
  | nil =>
      refine ⟨lines.flatMap (· ++ ['\n']) ++ line, ?_, ?_, Or.inl rfl⟩
      · rw [joinLines_append lines (List.cons_ne_nil line [])]
        simp [joinLines]
      · simp [byteLength_lines]
  | cons next behind =>
      refine ⟨(lines ++ [line]).flatMap (· ++ ['\n']), ?_, ?_,
        Or.inr ⟨lines.flatMap (· ++ ['\n']) ++ line, by simp⟩⟩
      · rw [← joinLines_append _ (List.cons_ne_nil next behind), List.append_assoc,
          List.singleton_append]
      · simp [byteLength_lines, Nat.add_assoc]

theorem splitLines_eq_some_iff {p : List Char → Bool} {lines before behind : List (List Char)}
    {found : List Char} : splitLines p lines = some (before, found, behind) ↔
      lines = before ++ found :: behind ∧ p found = true ∧ ∀ line ∈ before, ¬ p line = true := by
  induction lines generalizing before with
  | nil => simp [splitLines]
  | cons line lines ih =>
      rw [splitLines]
      split_ifs with hline
      · constructor
        · rintro ⟨⟩
          exact ⟨rfl, hline, fun l hl => absurd hl List.not_mem_nil⟩
        · rintro ⟨hlines, hfound, hbefore⟩
          cases before with
          | nil =>
              obtain ⟨rfl, rfl⟩ := List.cons.inj hlines
              rfl
          | cons l before =>
              obtain ⟨rfl, -⟩ := List.cons.inj hlines
              exact absurd hline (hbefore _ List.mem_cons_self)
      · constructor
        · intro h
          obtain ⟨⟨before', found', behind'⟩, hrest, heq⟩ := Option.map_eq_some_iff.mp h
          obtain ⟨rfl, rfl, rfl⟩ : line :: before' = before ∧ found' = found ∧
            behind' = behind := by simpa using heq
          obtain ⟨rfl, hfound, hbefore⟩ := ih.mp hrest
          exact ⟨rfl, hfound, List.forall_mem_cons.mpr ⟨hline, hbefore⟩⟩
        · rintro ⟨hlines, hfound, hbefore⟩
          cases before with
          | nil =>
              obtain ⟨rfl, -⟩ := List.cons.inj hlines
              exact absurd hfound hline
          | cons l before =>
              obtain ⟨rfl, hrest⟩ := List.cons.inj hlines
              rw [ih.mpr ⟨hrest, hfound, (List.forall_mem_cons.mp hbefore).2⟩]
              rfl

/-! ### Front matter and body -/

/-- A byte order mark is counted with the text behind it. -/
theorem dropMark_spec {text cs : List Char} {mark : Nat} (h : dropMark text = (cs, mark)) :
    ∃ marks, text = marks ++ cs ∧ Text.byteLength marks = mark := by
  cases text with
  | nil =>
      obtain ⟨rfl, rfl⟩ := Prod.mk.inj h
      exact ⟨[], rfl, rfl⟩
  | cons c text =>
      rw [dropMark] at h
      split_ifs at h <;> obtain ⟨rfl, rfl⟩ := Prod.mk.inj h
      · exact ⟨[c], rfl, by simp [Text.byteLength]⟩
      · exact ⟨[], rfl, rfl⟩

/-- The text in front of the body is as long as the offset of the body says, and the front matter
ends in it. It is a number of whole lines, unless there is no body. -/
theorem split?_spec {text : List Char} {front : FrontMatter} (h : split? text = some front) :
    ∃ before, text = before ++ front.body ∧ Text.byteLength before = front.bodyStart ∧
      front.stop ≤ front.bodyStart ∧ (front.body = [] ∨ ∃ lines, before = lines ++ ['\n']) := by
  rw [split?] at h
  cases hmark : dropMark text with
  | mk cs mark =>
      obtain ⟨marks, rfl, hmarks⟩ := dropMark_spec hmark
      simp only [hmark] at h
      split at h
      · rename_i opening first rest hlines
        split_ifs at h
        obtain ⟨⟨inner, closing, behind⟩, hrest, rfl⟩ := Option.map_eq_some_iff.mp h
        obtain ⟨before, hcut, hlength, hwhole⟩ :=
          joinLines_cut (opening :: first :: inner) closing behind
        refine ⟨marks ++ before, ?_, ?_, ?_, ?_⟩
        · rw [List.append_assoc, ← hcut, List.cons_append, List.cons_append,
            ← (splitLines_eq_some_iff.mp hrest).1, ← hlines, joinLines_splitList]
        · rw [Text.byteLength_append, hmarks, hlength]
          dsimp only
          split_ifs <;> omega
        · dsimp only
          split_ifs <;> omega
        · refine hwhole.imp_right ?_
          rintro ⟨rest, rfl⟩
          exact ⟨marks ++ rest, (List.append_assoc ..).symm⟩
      · exact nomatch h

end FrontMatter

/-! ### The tree of a text -/

end BlockDoc
