import BlockDoc.Proofs.Resolution

/-!
Resolving lists of references. What becomes of a reference is decided by its
target, the document and the index, and not by the references around it: a
target comes to a block or to the cause why there is none. So resolving goes
through a list reference by reference, explains those that stay without a block
in their order, and does nothing new when it is done once more.
-/

namespace BlockDoc

/-- What a target comes to in a document: the one block that claims its name, or the block that has
it as its id when no block claims it; otherwise the cause why there is no block. -/
inductive ComesTo (documentId : String) (index : BlockIndex) (t : Target) :
    Except Cause String → Prop where
  | elsewhere {name : String} (document : t.document = some name) (other : name ≠ documentId) :
    ComesTo documentId index t (.error (.crossDocument t.id name))
  | claimed {only : String} (here : ∀ name ∈ t.document, name = documentId)
    (claimants : index.claimants t.id = [only]) : ComesTo documentId index t (.ok only)
  | contested {claimants : List String} (here : ∀ name ∈ t.document, name = documentId)
    (claims : index.claimants t.id = claimants) (several : 2 ≤ claimants.length) :
    ComesTo documentId index t (.error (.ambiguous t.id claimants))
  | block (here : ∀ name ∈ t.document, name = documentId) (unclaimed : index.claimants t.id = [])
    (known : index.contains t.id = true) : ComesTo documentId index t (.ok t.id)
  | missing (here : ∀ name ∈ t.document, name = documentId) (unclaimed : index.claimants t.id = [])
    (unknown : index.contains t.id = false) :
    ComesTo documentId index t (.error (.unresolved t.id))

section Outcome

variable {documentId : String} {index : BlockIndex}

theorem isElsewhere_eq_false {t : Target} (here : ∀ name ∈ t.document, name = documentId) :
    t.isElsewhere documentId = false := by
  cases hdocument : t.document with
  | none => simp [Target.isElsewhere, hdocument]
  | some name => simp [Target.isElsewhere, hdocument, here name hdocument]

theorem resolveTarget_of_comesTo {t : Target} {outcome : Except Cause String}
    (h : ComesTo documentId index t outcome) : resolveTarget documentId index t = outcome := by
  rw [resolveTarget]
  cases h with
  | elsewhere document other => simp [Target.isElsewhere, document, other]
  | claimed here claimants => simp [isElsewhere_eq_false here, claimants]
  | block here unclaimed known => simp [isElsewhere_eq_false here, unclaimed, known]
  | missing here unclaimed unknown => simp [isElsewhere_eq_false here, unclaimed, unknown]
  | @contested claimants here claims several =>
      obtain _ | ⟨first, _ | ⟨second, rest⟩⟩ := claimants
      · exact absurd several (by decide)
      · exact absurd several (by simp)
      · simp [isElsewhere_eq_false here, claims]

/-- Every target comes to something. -/
theorem comesTo_resolveTarget (t : Target) :
    ComesTo documentId index t (resolveTarget documentId index t) := by
  by_cases helsewhere : t.isElsewhere documentId
  · obtain ⟨name, document, other⟩ := (Target.isElsewhere_iff documentId t).mp helsewhere
    have h : ComesTo documentId index t _ := .elsewhere document other
    rw [resolveTarget_of_comesTo h]
    exact h
  · have here : ∀ name ∈ t.document, name = documentId := by
      intro name document
      by_contra other
      exact helsewhere ((Target.isElsewhere_iff documentId t).mpr ⟨name, document, other⟩)
    match hclaimants : index.claimants t.id with
    | [] =>
        cases hknown : index.contains t.id with
        | true =>
            have h : ComesTo documentId index t _ := .block here hclaimants hknown
            rw [resolveTarget_of_comesTo h]
            exact h
        | false =>
            have h : ComesTo documentId index t _ := .missing here hclaimants hknown
            rw [resolveTarget_of_comesTo h]
            exact h
    | [only] =>
        have h : ComesTo documentId index t _ := .claimed here hclaimants
        rw [resolveTarget_of_comesTo h]
        exact h
    | first :: second :: rest =>
        have h : ComesTo documentId index t _ := .contested here hclaimants (by simp)
        rw [resolveTarget_of_comesTo h]
        exact h

theorem comesTo_iff (t : Target) (outcome : Except Cause String) :
    ComesTo documentId index t outcome ↔ resolveTarget documentId index t = outcome :=
  ⟨resolveTarget_of_comesTo, fun h => h ▸ comesTo_resolveTarget t⟩

/-! ### One reference -/

/-- A reference that is resolved stays as it is, and nothing is reported. -/
theorem Reference.resolve_of_resolved {r : Reference} (h : r.isResolved = true) :
    r.resolve documentId index = (r, []) := by
  rw [Reference.resolve, if_pos h]

/-- A reference without a block gets what its target comes to. -/
theorem Reference.resolve_of_unresolved {r : Reference} (h : r.isResolved = false) :
    (r.resolve documentId index).1 =
      { r with resolvedBlockId := (resolveTarget documentId index r.target).toOption } := by
  have hnone : r.resolvedBlockId = none := by simpa [Reference.isResolved] using h
  cases htarget : resolveTarget documentId index r.target with
  | ok id =>
      rw [Reference.resolve_of_ok hnone htarget]
      rfl
  | error cause =>
      rw [Reference.resolve_of_error hnone htarget, Except.toOption, ← hnone]

/-- Resolving a reference once more gives the same, and the same report. -/
theorem Reference.resolve_resolve (r : Reference) :
    (r.resolve documentId index).1.resolve documentId index = r.resolve documentId index := by
  cases hresolved : r.isResolved with
  | true => rw [Reference.resolve_of_resolved hresolved, Reference.resolve_of_resolved hresolved]
  | false =>
      have hnone : r.resolvedBlockId = none := by simpa [Reference.isResolved] using hresolved
      cases htarget : resolveTarget documentId index r.target with
      | ok id =>
          rw [Reference.resolve_of_ok hnone htarget]
          exact Reference.resolve_of_resolved rfl
      | error cause =>
          rw [Reference.resolve_of_error hnone htarget, Reference.resolve_of_error hnone htarget]

/-! ### Lists of references -/

/-- A diagnostic explains why a reference has no block, and stands where its source does. -/
structure Explains (documentId : String) (index : BlockIndex) (r : Reference) (d : Diagnostic) :
    Prop where
  cause : ComesTo documentId index r.target (.error d.cause)
  position : d.position = index.position? r.sourceBlockId

/-- The references that stay without a block are explained one by one, in their order. -/
theorem forall₂_explains (rs : List Reference) :
    List.Forall₂ (Explains documentId index)
      ((resolveReferences documentId index rs).1.filter fun r => r.resolvedBlockId = none)
      (resolveReferences documentId index rs).2 := by
  simp only [resolveReferences]
  induction rs with
  | nil => exact .nil
  | cons r rs ih =>
      rw [List.map_cons, List.flatMap_cons]
      cases hresolved : r.resolvedBlockId with
      | some id =>
          rw [Reference.resolve_of_resolved (by simp [Reference.isResolved, hresolved]),
            List.filter_cons_of_neg (by simp [hresolved])]
          exact ih
      | none =>
          cases htarget : resolveTarget documentId index r.target with
          | ok id =>
              rw [Reference.resolve_of_ok hresolved htarget, List.filter_cons_of_neg (by simp)]
              exact ih
          | error cause =>
              rw [Reference.resolve_of_error hresolved htarget,
                List.filter_cons_of_pos (by simp [hresolved])]
              exact .cons ⟨(comesTo_iff _ _).mpr htarget, rfl⟩ ih

theorem resolveReferences_twice (rs : List Reference) :
    resolveReferences documentId index (resolveReferences documentId index rs).1 =
      resolveReferences documentId index rs := by
  simp only [resolveReferences, List.map_map, List.flatMap_map, Function.comp_def,
    Reference.resolve_resolve]

end Outcome

/-- Resolves references and adds the diagnostics of those that stay without a block to others. -/
def resolveOnto (documentId : String) (index : BlockIndex) (rs : List Reference)
    (reported : List Diagnostic) : List Reference × List Diagnostic :=
  ((resolveReferences documentId index rs).1,
    reported ++ (resolveReferences documentId index rs).2)

/-- What a target comes to in a document is settled before any reference is looked at. A reference
that has a block stays as it is, any other changes at most in getting the block that its target
comes to. Earlier diagnostics stay, and one is added for each reference without a block, in their
order. A second run changes no reference and adds the same diagnostics once more. -/
theorem references_resolved_one_by_one (documentId : String) (index : BlockIndex) :
    ∃ outcome : Target → Except Cause String,
      (∀ t o, ComesTo documentId index t o ↔ outcome t = o) ∧
      ∀ (rs : List Reference) (reported : List Diagnostic),
        let after := resolveOnto documentId index rs reported
        after.1 = (rs.map fun r =>
          if r.isResolved then r
          else { r with resolvedBlockId := (outcome r.target).toOption }) ∧
        ∃ added, after.2 = reported ++ added ∧
          List.Forall₂ (Explains documentId index)
            (after.1.filter fun r => r.resolvedBlockId = none) added ∧
          resolveOnto documentId index after.1 after.2 = (after.1, after.2 ++ added) := by
  refine ⟨resolveTarget documentId index, comesTo_iff, fun rs reported => ⟨?_, ?_⟩⟩
  · refine List.map_congr_left fun r _ => ?_
    cases hresolved : r.isResolved with
    | true => rw [Reference.resolve_of_resolved hresolved, if_pos rfl]
    | false => rw [Reference.resolve_of_unresolved hresolved, if_neg Bool.false_ne_true]
  · refine ⟨(resolveReferences documentId index rs).2, rfl, forall₂_explains rs, ?_⟩
    simp only [resolveOnto, resolveReferences_twice]

end BlockDoc
