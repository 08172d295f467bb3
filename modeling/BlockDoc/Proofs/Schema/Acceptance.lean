import BlockDoc.Proofs.Compilation.Record
import BlockDoc.Proofs.Schema.Constraints

/-!
Which containers are accepted. A container breaks no constraint exactly when
it has items, all of them are mappings with content, and its fields are as
they must be. Whether the content of an item is text or compiled makes no
difference, so a container may be checked before it is compiled or after.
-/

namespace BlockDoc

open Validator (itemPath)

/-- The fields of an item are as they must be if each constraint of the arrangement on it is met. -/
theorem Arrangement.hasFields_iff {a : Arrangement} {props : Fields} :
    a.HasFields props ↔
      (∀ field, ItemConstraint.text field ∈ a.itemConstraints → props.HasText field) ∧
        (ItemConstraint.status ∈ a.itemConstraints → props.HasStepStatus) := by
  cases a <;> simp [HasFields, itemConstraints]

section Acceptance

variable {β : Type} {a : Arrangement} {c : Container β}

/-- An accepted container breaks no constraint. -/
theorem Arrangement.Accepts.not_breaks (h : a.Accepts c) {k : Constraint}
    (hk : k ∈ a.constraints c.sectionList.length) (v : Violation) : ¬ c.Breaks k v := by
  intro hbreaks
  obtain ⟨s, rest, hsections⟩ := h.items
  cases hbreaks with
  | missing hnone _ => simp [hsections] at hnone
  | noArray hnone _ => simp [hsections] at hnone
  | noItem hnil => simp [hsections] at hnil
  | noRatio hratio =>
      have hcolumns : a = columns := by simpa using Arrangement.mem_constraints.mp hk
      exact hratio (h.ratio hcolumns)
  | @item i s k v hitem hs =>
      have hmem : s ∈ c.sectionList := List.mem_of_getElem? hitem
      have hown : k ∈ [ItemConstraint.mapping, .content] ∨ k ∈ a.itemConstraints := by
        obtain heq | ⟨i, own, -, hown, heq⟩ | ⟨-, heq⟩ := Arrangement.mem_constraints.mp hk
        · exact absurd heq nofun
        · exact (Constraint.item.inj heq).2 ▸ hown
        · exact absurd heq nofun
      obtain ⟨fields, hheld⟩ := h.contents s hmem
      cases hs with
      | noMapping => simp at hheld
      | noContent => simp at hheld
      | noMarkdown => simp at hheld
      | noText hnot =>
          have hfields := Arrangement.hasFields_iff.mp (h.fields _ _ hmem)
          exact hnot (hfields.1 _ (hown.resolve_left (by simp)))
      | noStatus hnot =>
          have hfields := Arrangement.hasFields_iff.mp (h.fields _ _ hmem)
          exact hnot (hfields.2 (hown.resolve_left (by simp)))

/-- A container that breaks no constraint is accepted. -/
theorem Arrangement.accepts_of_not_breaks
    (h : ∀ k ∈ a.constraints c.sectionList.length, ∀ v, ¬ c.Breaks k v) : a.Accepts c := by
  have hitem : ∀ {i : Nat} {s : Section β} {own : ItemConstraint}, c.sectionList[i]? = some s →
      (own ∈ [ItemConstraint.mapping, .content] ∨ own ∈ a.itemConstraints) →
        ∀ v, ¬ s.Breaks c.contentField (itemPath c.itemsField i) own v := by
    intro i s own hs hown v hbreaks
    have hlt : i < c.sectionList.length := (List.getElem?_eq_some_iff.mp hs).1
    exact h (.item i own) (mem_constraints.mpr (Or.inr (Or.inl ⟨i, own, hlt, hown, rfl⟩))) v
      (.item hs hbreaks)
  constructor
  · have hitems := h .items (mem_constraints.mpr (Or.inl rfl))
    match hsections : c.sections with
    | some (s :: rest) => exact ⟨s, rest, rfl⟩
    | some [] => exact absurd (.noItem hsections) (hitems _)
    | none =>
        cases hfield : c.props.get? c.itemsField with
        | none => exact absurd (.missing hsections hfield) (hitems _)
        | some v => exact absurd (.noArray hsections hfield) (hitems _)
  · intro s hs
    obtain ⟨i, hi⟩ := List.mem_iff_getElem?.mp hs
    match s with
    | .malformed v => exact absurd .noMapping (hitem hi (Or.inl (by simp)) _)
    | .entry props none => exact absurd .noContent (hitem hi (Or.inl (by simp)) _)
    | .entry props (some (.other v)) => exact absurd .noMarkdown (hitem hi (Or.inl (by simp)) _)
    | .entry props (some (.markdown text)) => exact ⟨props, Or.inl ⟨text, rfl⟩⟩
    | .entry props (some (.blocks bs)) => exact ⟨props, Or.inr ⟨bs, rfl⟩⟩
  · intro props held hs
    obtain ⟨i, hi⟩ := List.mem_iff_getElem?.mp hs
    refine hasFields_iff.mpr ⟨fun field hown => ?_, fun hown => ?_⟩
    · by_contra hnot
      exact hitem hi (Or.inr hown) _ (.noText hnot)
    · by_contra hnot
      exact hitem hi (Or.inr hown) _ (.noStatus hnot)
  · intro hcolumns
    by_contra hnot
    exact h .ratio (mem_constraints.mpr (Or.inr (Or.inr ⟨hcolumns, rfl⟩))) _ (.noRatio hnot)

end Acceptance

theorem Arrangement.check_eq_nil_iff {a : Arrangement} {c : Container Block} :
    a.validator.check (.container c) = [] ↔ a.Accepts c := by
  rw [check_eq, List.flatMap_eq_nil_iff]
  constructor
  · intro h
    refine accepts_of_not_breaks fun k hk v hbreaks => ?_
    rcases k.settled c with ⟨-, hnone⟩ | ⟨v, hreport, -⟩
    · exact hnone v hbreaks
    · exact absurd (hreport.symm.trans (h k hk)) (List.cons_ne_nil _ _)
  · intro h k hk
    rcases k.settled c with ⟨hreport, -⟩ | ⟨v, -, hbreaks⟩
    · exact hreport
    · exact absurd hbreaks (h.not_breaks hk v)

/-! ### Compiled sections -/

section Compiled

variable {β : Type}

/-- A container without the contents of its sections. -/
def Container.shell (c : Container β) : Container Empty :=
  ⟨c.itemsField, c.contentField, c.props, c.sections.map (List.map Section.shell)⟩

theorem Container.sectionList_shell (c : Container β) :
    c.shell.sectionList = c.sectionList.map Section.shell := by
  rw [sectionList, sectionList, shell]
  cases c.sections <;> rfl

@[simp] theorem ItemConstraint.report_shell (contentField path : String) (k : ItemConstraint)
    (s : Section β) : k.report contentField path s.shell = k.report contentField path s := by
  cases s with
  | malformed v => cases k <;> rfl
  | entry props held => obtain _ | _ | _ | _ := held <;> cases k <;> rfl

@[simp] theorem Constraint.report_shell (c : Container β) (k : Constraint) :
    k.report c.shell = k.report c := by
  cases k with
  | items => obtain ⟨_, _, _, _ | _ | ⟨s, rest⟩⟩ := c <;> rfl
  | item i k =>
      rw [report, report, Container.sectionList_shell, List.getElem?_map]
      cases c.sectionList[i]? with
      | none => rfl
      | some s => exact k.report_shell _ _ s
  | ratio =>
      simp only [report, Validator.checkRatio, Container.sectionList_shell, List.length_map]
      rfl

/-- What an arrangement finds in the data of a block. -/
def Arrangement.violations (a : Arrangement) : BlockData β → List Violation
  | .container c => (a.constraints c.sectionList.length).flatMap (Constraint.report c)
  | _ => [⟨"", "expected container data"⟩]

theorem Arrangement.check_eq_violations (a : Arrangement) (data : BlockData Block) :
    a.validator.check data = a.violations data := by
  cases data with
  | container c => exact a.check_eq c
  | _ => cases a <;> rfl

@[simp] theorem Arrangement.violations_shell (a : Arrangement) (data : BlockData β) :
    a.violations data.shell = a.violations data := by
  cases data with
  | container c =>
      have hshell : (BlockData.container c).shell = .container c.shell := rfl
      rw [hshell, violations, violations, Container.sectionList_shell, List.length_map]
      exact List.flatMap_congr fun k _ => k.report_shell c
  | _ => rfl

theorem Arrangement.check_of_shell (a : Arrangement) {data data' : BlockData Block}
    (h : data.shell = data'.shell) : a.validator.check data = a.validator.check data' := by
  rw [check_eq_violations, ← violations_shell, h, violations_shell, ← check_eq_violations]

/-- A section with blocks in place of its text. -/
def Section.fill (bs : List β) : Section β → Section β
  | .entry props (some (.markdown _)) => .entry props (some (.blocks bs))
  | s => s

/-- A container with blocks in place of the texts of some of its sections. -/
def Container.fill (blocksAt : Nat → Option (List β)) (c : Container β) : Container β :=
  { c with sections := c.sections.map (List.mapIdx fun i s => (blocksAt i).elim s s.fill) }

theorem Section.shell_fill (bs : List β) (s : Section β) : (s.fill bs).shell = s.shell := by
  cases s with
  | malformed v => rfl
  | entry props held => obtain _ | _ | _ | _ := held <;> rfl

theorem Container.shell_fill (blocksAt : Nat → Option (List β)) (c : Container β) :
    (BlockData.container (c.fill blocksAt)).shell = (BlockData.container c).shell := by
  obtain ⟨itemsField, contentField, props, _ | sections⟩ := c
  · rfl
  · have hsections : (sections.mapIdx fun i s => (blocksAt i).elim s s.fill).map Section.shell =
        sections.map Section.shell := by
      refine List.ext_getElem? fun i => ?_
      rw [List.getElem?_map, List.getElem?_map, List.getElem?_mapIdx, Option.map_map]
      refine Option.map_congr fun s _ => ?_
      cases blocksAt i with
      | none => rfl
      | some bs => exact s.shell_fill bs
    simp [fill, BlockData.shell, hsections]

end Compiled

theorem compileBlock_shell (inner : Option TextCompiler) (scope : Scope) (index : Nat) (b : Block) :
    (compileBlock inner scope index b).1.data.shell = b.data.shell := by
  cases inner with
  | none => rw [(compileBlock_none scope index b).1]
  | some compileText =>
      rw [compileBlock_some]
      exact b.data.shell_withSections
        (compileSections_shell compileText scope index b.position 0 b.sections)

/-- A container is reported if and only if it is not accepted. What is reported is one violation
for each constraint that is broken, whatever else is broken, and the reports come in the order of
the constraints. They stay the same when blocks stand in place of the texts of sections, and so
they do when the container is compiled. -/
theorem container_constraints_reported_once (a : Arrangement) (c : Container Block) :
    let reported := a.validator.check (.container c)
    let constraints := a.constraints c.sectionList.length
    (reported = [] ↔ a.Accepts c) ∧
    (constraints.Nodup ∧ ∃ broken, broken.Sublist constraints ∧
      (∀ k, k ∈ broken ↔ k ∈ constraints ∧ ∃ v, c.Breaks k v) ∧
      List.Forall₂ c.Breaks broken reported) ∧
    (∀ blocksAt, a.validator.check (.container (c.fill blocksAt)) = reported) ∧
    ∀ inner scope index id kind position,
      a.validator.check (compileBlock inner scope index ⟨id, kind, .container c, position⟩).1.data =
        reported := by
  refine ⟨a.check_eq_nil_iff, ⟨a.nodup_constraints _, ?_⟩,
    fun blocksAt => a.check_of_shell (c.shell_fill blocksAt),
    fun inner scope index id kind position => a.check_of_shell (compileBlock_shell ..)⟩
  refine ⟨_, List.filter_sublist, fun k => ?_, a.check_eq c ▸ forall₂_breaks c _⟩
  rw [List.mem_filter, decide_eq_true_iff]
  refine and_congr_right fun _ => ?_
  rcases k.settled c with ⟨hreport, hnone⟩ | ⟨v, hreport, hv⟩
  · simp [hreport, hnone]
  · simpa [hreport] using ⟨v, hv⟩

end BlockDoc
