import BlockDoc.Proofs.Text
import BlockDoc.Reference

/-!
The targets of links. A link is a document, a marker and an id. It is split at
the first marker, so the document is read back unless it has a marker of its
own, and both parts are trimmed.
-/

namespace BlockDoc.Target

theorem toList_marker : marker.toList = '#' :: "glyph:".toList := by decide

theorem ofParts?_of_not_blank {id : String} (h : Text.isBlankText id = false) (document : String) :
    ofParts? document id =
      some ⟨if Text.isBlankText document then none else some (Text.trim document),
        Text.trim id⟩ := by
  simp [ofParts?, Text.isEmpty_trim, h]

theorem ofLink?_between {document : String} (h : Text.occursIn marker document = false)
    (id : String) : ofLink? (document ++ marker ++ id) = ofParts? document id := by
  have hnone : Text.splitFirst? ('#' :: "glyph:".toList) document.toList = none := by
    simpa [Text.occursIn, toList_marker] using h
  have hsplit := Text.splitFirst?_between (by decide) hnone id.toList
  have hlink : (document ++ marker ++ id).toList =
      document.toList ++ ('#' :: "glyph:".toList) ++ id.toList := by
    rw [String.toList_append, String.toList_append, toList_marker]
  rw [ofLink?, Text.splitOnce?, hlink, toList_marker, hsplit]
  simp

/-- A document with a marker of its own is cut there, and its rest belongs to the id. -/
theorem exists_ofLink?_of_occursIn {document : String} (h : Text.occursIn marker document) :
    ∃ before after, document = before ++ marker ++ after ∧
      ∀ rest, ofLink? (document ++ rest) = ofParts? before (after ++ rest) := by
  obtain ⟨⟨before, after⟩, hsplit⟩ := Option.isSome_iff_exists.mp h
  refine ⟨String.ofList before, String.ofList after, ?_, fun rest => ?_⟩
  · have hspec := Text.splitFirst?_spec hsplit
    rw [← String.toList_inj, hspec]
    simp
  · have happend := Text.splitFirst?_append hsplit rest.toList
    simp [ofLink?, Text.splitOnce?, String.toList_append, happend]

/-- A link to an id in a document has a target. If the document has a marker, the target has more
number signs than the id. -/
theorem exists_ofLink?_append {id : String} (h : Text.isBlankText id = false) (document : String) :
    ∃ t, ofLink? (document ++ marker ++ id) = some t ∧
      (Text.occursIn marker document = false →
        t = ⟨if Text.isBlankText document then none else some (Text.trim document),
          Text.trim id⟩) ∧
      (Text.occursIn marker document → id.toList.count '#' < t.id.toList.count '#') := by
  cases hoccurs : Text.occursIn marker document with
  | false =>
      refine ⟨_, ?_, fun _ => rfl, fun h => absurd h Bool.false_ne_true⟩
      rw [ofLink?_between hoccurs, ofParts?_of_not_blank h]
  | true =>
      obtain ⟨before, after, -, hlink⟩ := exists_ofLink?_of_occursIn hoccurs
      have hmark : '#' ∈ (after ++ (marker ++ id)).toList := by
        simp [String.toList_append, toList_marker]
      have hblank : Text.isBlankText (after ++ (marker ++ id)) = false := by
        rw [Text.isBlankText, List.all_eq_false]
        exact ⟨'#', hmark, by decide⟩
      have htarget := hlink (marker ++ id)
      rw [ofParts?_of_not_blank hblank, ← String.append_assoc] at htarget
      refine ⟨_, htarget, fun h => absurd h.symm Bool.false_ne_true, fun _ => ?_⟩
      rw [Text.count_trim (by decide)]
      simp only [String.toList_append, toList_marker, List.count_append, List.count_cons_self]
      omega

theorem isElsewhere_ofParts {document id : String} (documentId : String) :
    isElsewhere documentId
        ⟨if Text.isBlankText document then none else some (Text.trim document), id⟩ = false ↔
      Text.isBlankText document ∨ Text.trim document = documentId := by
  cases hblank : Text.isBlankText document <;> simp [isElsewhere]

end BlockDoc.Target
