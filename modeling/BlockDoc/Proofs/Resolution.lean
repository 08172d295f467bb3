import BlockDoc.Proofs.BlockIndex
import BlockDoc.Resolution
import Mathlib.Data.List.Forall2

/-!
Resolving references. A reference is either resolved or explained by one
diagnostic, and which of the two depends on the blocks that have the name it
gives. Resolving changes nothing about where a reference comes from.
-/

namespace BlockDoc

/-- Whether a code says that a reference is not resolved. -/
def Code.isReference : Code → Bool
  | .unresolvedReference | .ambiguousReference | .crossDocumentReference => true
  | _ => false

/-- A reference comes from a block: it has the final id of the block, and the
anchor of the block or else that id. -/
structure Reference.ComesFrom (b : Block) (r : Reference) : Prop where
  block : r.sourceBlockId = b.id
  anchor : r.sourceAnchor = some (b.anchor?.getD b.id)

theorem inlineReferences_spec {b : Block} {r : Reference} (h : r ∈ inlineReferences b) :
    r.ComesFrom b ∧ r.kind = .inline ∧ r.resolvedBlockId = none := by
  obtain ⟨link, -, hlink⟩ := List.mem_filterMap.mp h
  obtain ⟨target, -, rfl⟩ := Option.map_eq_some_iff.mp hlink
  exact ⟨⟨rfl, rfl⟩, rfl, rfl⟩

/-! ### One reference -/

theorem Target.isElsewhere_iff (documentId : String) (t : Target) :
    t.isElsewhere documentId = true ↔ ∃ d, t.document = some d ∧ d ≠ documentId := by
  rw [Target.isElsewhere]
  cases t.document <;> simp

section Resolve

variable {documentId : String} {index : BlockIndex}

/-- A target points at the block that claims its name, or at the block that has it as its id when
no block claims it. -/
theorem resolveTarget_eq_ok_iff {t : Target} {id : String} :
    resolveTarget documentId index t = .ok id ↔
      t.isElsewhere documentId = false ∧ (index.claimants t.id = [id] ∨
        index.claimants t.id = [] ∧ t.id = id ∧ index.contains t.id = true) := by
  rw [resolveTarget]
  by_cases helsewhere : t.isElsewhere documentId
  · simp [helsewhere]
  · match hclaimants : index.claimants t.id with
    | [] => by_cases hcontains : index.contains t.id <;> simp [helsewhere, hcontains]
    | [only] => simp [helsewhere]
    | first :: second :: rest => simp [helsewhere]

theorem resolveTarget_eq_ok {t : Target} {id : String}
    (h : resolveTarget documentId index t = .ok id) :
    id ∈ index.claimants t.id ∨ id = t.id ∧ index.contains t.id = true := by
  obtain ⟨-, hclaimants | ⟨-, hid, hcontains⟩⟩ := resolveTarget_eq_ok_iff.mp h
  · exact Or.inl (by simp [hclaimants])
  · exact Or.inr ⟨hid.symm, hcontains⟩

/-- There are three reasons why a target points at no block. -/
theorem resolveTarget_error_iff (t : Target) :
    (∃ cause, resolveTarget documentId index t = .error cause) ↔
      t.isElsewhere documentId ∨ 2 ≤ (index.claimants t.id).length ∨
        index.claimants t.id = [] ∧ index.contains t.id = false := by
  rw [resolveTarget]
  by_cases helsewhere : t.isElsewhere documentId
  · simp [helsewhere]
  · match hclaimants : index.claimants t.id with
    | [] => by_cases hcontains : index.contains t.id <;> simp [helsewhere, hcontains]
    | [only] => simp [helsewhere]
    | first :: second :: rest => simp [helsewhere]

/-- Why a target points at no block. -/
theorem resolveTarget_cause {t : Target} {cause : Cause}
    (h : resolveTarget documentId index t = .error cause) :
    cause = .crossDocument t.id (t.document.getD "") ∨ cause = .unresolved t.id ∨
      cause = .ambiguous t.id (index.claimants t.id) := by
  rw [resolveTarget] at h
  by_cases helsewhere : t.isElsewhere documentId
  · exact Or.inl (by simpa [helsewhere, eq_comm] using h)
  · match hclaimants : index.claimants t.id with
    | [] =>
        by_cases hcontains : index.contains t.id <;> simp [helsewhere, hclaimants, hcontains] at h
        exact Or.inr (Or.inl h.symm)
    | [only] => simp [helsewhere, hclaimants] at h
    | first :: second :: rest =>
        exact Or.inr (Or.inr (by simpa [helsewhere, hclaimants, eq_comm] using h))

/-- A target is ambiguous if several blocks claim its name. -/
theorem resolveTarget_ambiguous {t : Target} {cause : Cause}
    (h : resolveTarget documentId index t = .error cause)
    (hcode : cause.code = .ambiguousReference) :
    cause = .ambiguous t.id (index.claimants t.id) ∧
      ∃ first second rest, index.claimants t.id = first :: second :: rest := by
  rcases resolveTarget_cause h with rfl | rfl | rfl
  · exact absurd hcode nofun
  · exact absurd hcode nofun
  · refine ⟨rfl, ?_⟩
    rw [resolveTarget] at h
    by_cases helsewhere : t.isElsewhere documentId
    · simp [helsewhere] at h
    · match hclaimants : index.claimants t.id with
      | [] => by_cases hcontains : index.contains t.id <;>
          simp [helsewhere, hclaimants, hcontains] at h
      | [only] => simp [helsewhere, hclaimants] at h
      | first :: second :: rest => exact ⟨first, second, rest, rfl⟩

/-- Resolving changes the resolved block of a reference and nothing else. -/
theorem Reference.resolve_eq (r : Reference) :
    (r.resolve documentId index).1 =
      { r with resolvedBlockId := (r.resolve documentId index).1.resolvedBlockId } := by
  rw [Reference.resolve]
  split_ifs with hresolved
  · rfl
  · split <;> rfl

theorem Reference.resolve_of_ok {r : Reference} (h : r.resolvedBlockId = none) {id : String}
    (htarget : resolveTarget documentId index r.target = .ok id) :
    r.resolve documentId index = ({ r with resolvedBlockId := some id }, []) := by
  simp [Reference.resolve, Reference.isResolved, h, htarget]

theorem Reference.resolve_of_error {r : Reference} (h : r.resolvedBlockId = none) {cause : Cause}
    (htarget : resolveTarget documentId index r.target = .error cause) :
    r.resolve documentId index = (r, [⟨cause, index.position? r.sourceBlockId⟩]) := by
  simp [Reference.resolve, Reference.isResolved, h, htarget]

/-- What a resolved reference points at is what its target stands for. -/
theorem Reference.resolvedBlockId_resolve {r : Reference} (h : r.resolvedBlockId = none) :
    (r.resolve documentId index).1.resolvedBlockId =
      (resolveTarget documentId index (r.resolve documentId index).1.target).toOption := by
  cases htarget : resolveTarget documentId index r.target with
  | ok id =>
      rw [Reference.resolve_of_ok h htarget, htarget]
      rfl
  | error cause =>
      rw [Reference.resolve_of_error h htarget, htarget]
      exact h

theorem Reference.mem_resolve {r : Reference} {d : Diagnostic}
    (hd : d ∈ (r.resolve documentId index).2) :
    ∃ cause, resolveTarget documentId index r.target = .error cause ∧
      d = ⟨cause, index.position? r.sourceBlockId⟩ := by
  rw [Reference.resolve] at hd
  split_ifs at hd
  · exact absurd hd List.not_mem_nil
  · split at hd
    · exact absurd hd List.not_mem_nil
    · next cause htarget => exact ⟨cause, htarget, List.mem_singleton.mp hd⟩

/-- Resolving explains the references that stay unresolved one by one: what
holds between such a reference and its diagnostic holds all along both lists. -/
theorem forall₂_resolve {R : Reference → Diagnostic → Prop} {rs : List Reference}
    (hnone : ∀ r ∈ rs, r.resolvedBlockId = none)
    (h : ∀ r ∈ rs, ∀ cause, resolveTarget documentId index r.target = .error cause →
      R r ⟨cause, index.position? r.sourceBlockId⟩) :
    List.Forall₂ R
      ((rs.map fun r => (r.resolve documentId index).1).filter fun r => r.resolvedBlockId = none)
      (rs.flatMap fun r => (r.resolve documentId index).2) := by
  induction rs with
  | nil => exact List.Forall₂.nil
  | cons r rs ih =>
      have hrest := ih (fun r' hr' => hnone r' (List.mem_cons_of_mem r hr'))
        (fun r' hr' => h r' (List.mem_cons_of_mem r hr'))
      have hr := hnone r List.mem_cons_self
      rw [List.map_cons, List.flatMap_cons]
      cases htarget : resolveTarget documentId index r.target with
      | ok id =>
          rw [Reference.resolve_of_ok hr htarget, List.filter_cons_of_neg (by simp)]
          exact hrest
      | error cause =>
          rw [Reference.resolve_of_error hr htarget, List.filter_cons_of_pos (by simp [hr])]
          exact List.Forall₂.cons (h r List.mem_cons_self cause htarget) hrest

end Resolve

end BlockDoc
