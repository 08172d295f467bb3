import BlockDoc.Fixture.Suite

/-!
When a fixture passes. Every expectation that a fixture states is checked on its own, and a fixture
without problems is one whose compilation is as stated in each respect. Codes are compared after
sorting, so they are compared as multisets.
-/

namespace BlockDoc.Fixture

variable {f : Fixture} {c : Compilation}

/-- Whether a compilation is as a fixture states. What a fixture does not state may be anything. -/
structure Meets (f : Fixture) (c : Compilation) : Prop where
  hasErrors : ∀ expected ∈ f.hasErrors, c.hasErrors = expected
  codes : ∀ expected ∈ f.codes, (c.diagnostics.map fun d => d.code.name).Perm expected
  blockTypes : ∀ expected ∈ f.blockTypes, c.document.blocks.map (·.kind) = expected
  title : ∀ expected ∈ f.title, c.document.metadata.title = some expected
  id : ∀ expected ∈ f.id, c.document.id = expected

/-- Whether what was read from a file is a fixture whose compilation is as it states. -/
def Passes (content : Except FileError String) : Prop :=
  ∃ text f, content = .ok text ∧ parse text = .ok f ∧ f.Meets f.compile

/-! ### Sorted words -/

theorem sorted_perm (words : List String) : (sorted words).Perm words :=
  List.mergeSort_perm words _

theorem sorted_pairwise (words : List String) : (sorted words).Pairwise (· ≤ ·) := by
  have htrans (a b c : String) (hab : decide (a ≤ b) = true) (hbc : decide (b ≤ c) = true) :
      decide (a ≤ c) = true :=
    decide_eq_true (String.le_trans (of_decide_eq_true hab) (of_decide_eq_true hbc))
  have htotal (a b : String) : (decide (a ≤ b) || decide (b ≤ a)) = true := by
    simpa using String.le_total a b
  exact (List.pairwise_mergeSort htrans htotal words).imp of_decide_eq_true

/-- Sorting forgets the order of words, and nothing else. -/
theorem sorted_eq_sorted_iff {a b : List String} : sorted a = sorted b ↔ a.Perm b := by
  constructor
  · intro h
    exact (sorted_perm a).symm.trans (h ▸ sorted_perm b)
  · intro h
    have hperm : (sorted a).Perm (sorted b) :=
      (sorted_perm a).trans (h.trans (sorted_perm b).symm)
    exact hperm.eq_of_pairwise (fun _ _ _ _ hab hba => String.le_antisymm hab hba)
      (sorted_pairwise a) (sorted_pairwise b)

/-! ### Problems -/

theorem expect_eq_nil_iff {α : Type} [DecidableEq α] {expected : Option α} {actual : α}
    {problem : α → α → Problem} :
    expect expected actual problem = [] ↔ ∀ e ∈ expected, actual = e := by
  cases expected with
  | none => simp [expect]
  | some e =>
      by_cases h : e = actual
      · simp [expect, h]
      · simp [expect, h, Ne.symm h]

theorem problems_eq_nil_iff : f.problems c = [] ↔ f.Meets c := by
  have hcodes : (∀ e ∈ f.codes.map sorted, sorted (c.diagnostics.map fun d => d.code.name) = e) ↔
      ∀ e ∈ f.codes, (c.diagnostics.map fun d => d.code.name).Perm e := by
    simp [sorted_eq_sorted_iff]
  simp only [problems, List.append_eq_nil_iff, expect_eq_nil_iff, hcodes]
  constructor
  · rintro ⟨⟨⟨⟨herrors, hcodes⟩, htypes⟩, htitle⟩, hid⟩
    refine ⟨herrors, hcodes, htypes, ?_, hid⟩
    intro title hstated
    rw [hstated] at htitle
    simpa using htitle
  · intro h
    refine ⟨⟨⟨⟨h.hasErrors, h.codes⟩, h.blockTypes⟩, ?_⟩, h.id⟩
    cases hstated : f.title with
    | none => rfl
    | some title => exact if_pos (h.title title hstated)

theorem failure?_eq_none_iff : f.failure? c = none ↔ f.Meets c := by
  rw [← problems_eq_nil_iff, failure?]
  cases f.problems c <;> simp

/-- A fixture passes exactly when its file can be read, its header can be read, and the
compilation is as stated. -/
theorem resultOf_passes_iff {path : String} {content : Except FileError String} :
    (resultOf path content).passes = true ↔ Passes content := by
  cases content with
  | error e => simp [resultOf, Result.passes, Passes]
  | ok text =>
      cases hparse : parse text with
      | error e => simp [resultOf, Result.passes, Passes, hparse]
      | ok f => simp [resultOf, Result.passes, Passes, hparse, failure?_eq_none_iff]

end BlockDoc.Fixture
