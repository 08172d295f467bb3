import BlockDoc.CommandLine
import BlockDoc.Proofs.Fixture.Expectations
import BlockDoc.Proofs.Fixture.Selection

/-!
What a run over a directory reports. The report lists the results of the selected fixtures, and the
exit code says whether there are some and all of them pass. Requests only ask whether a category is
taken, so their order changes nothing but the order of warnings.
-/

namespace BlockDoc

open FileTree

namespace Fixture

variable {tree : FileTree} {root : String} {requested : List String}

/-- What a run says besides the report on its fixtures. -/
def remarks (tree : FileTree) (root : String) (requested : List String) : List String :=
  let names := (discover tree root).map (·.1)
  if names = [] then [noFixtures root]
  else (unmet requested names).map (unmetLine names)
    ++ if select requested names = [] then ["no matching categories found"] else []

/-! ### What a run says -/

theorem report_snd_iff {p : Palette} {groups : List (String × List Result)} :
    (report p true groups).2 = true ↔ ∀ r ∈ groups.flatMap (·.2), r.passes = true := by
  simp [report]

theorem select_subset (requested all : List String) : select requested all ⊆ all := by
  rw [select]
  split
  · exact List.Subset.refl all
  · exact List.filter_subset_self _

theorem select_eq_nil_iff :
    select requested ((discover tree root).map (·.1)) = [] ↔ results tree root requested = [] := by
  rw [results, List.map_eq_nil_iff, List.filter_eq_nil_iff]
  constructor
  · intro hnil c _
    simp [hnil]
  · intro h
    refine List.eq_nil_iff_forall_not_mem.mpr fun category hcategory => ?_
    obtain ⟨c, hc, rfl⟩ := List.mem_map.mp (select_subset _ _ hcategory)
    exact h c hc (List.contains_iff_mem.mpr hcategory)

/-- A run over a directory makes its remarks and reports on the results, if there are any. -/
theorem runAll_eq (hroot : tree.isFile root = false) (p : Palette) (requested : List String) :
    runAll tree p root requested =
      (remarks tree root requested ++
        (if results tree root requested = [] then []
          else (report p true (results tree root requested)).1),
        !(results tree root requested).isEmpty &&
          (report p true (results tree root requested)).2) := by
  by_cases hall : discover tree root = []
  · have hnil : results tree root requested = [] := by simp [results, hall]
    simp [runAll, hroot, hall, remarks, hnil]
  by_cases hselect : select requested ((discover tree root).map (·.1)) = []
  · have hnil := select_eq_nil_iff.mp hselect
    simp [runAll, hroot, hall, remarks, hselect, hnil]
  · have hne : results tree root requested ≠ [] := fun hnil => hselect (select_eq_nil_iff.mpr hnil)
    have hrun : runAll tree p root requested =
        ((unmet requested ((discover tree root).map (·.1))).map
            (unmetLine ((discover tree root).map (·.1))) ++
          (report p true (results tree root requested)).1,
          (report p true (results tree root requested)).2) := by
      rw [runAll, if_neg (by simp [hroot])]
      simp only [List.isEmpty_iff, hall, hselect, if_false]
      rfl
    rw [hrun]
    simp [remarks, hall, hselect, hne]

/-! ### The order of requests -/

theorem select_perm {requested' : List String} (h : requested.Perm requested') (all : List String) :
    select requested' all = select requested all := by
  have hany (category : String) : requested'.any (requests · category) =
      requested.any (requests · category) := by
    rw [Bool.eq_iff_iff, List.any_eq_true, List.any_eq_true]
    simp only [h.mem_iff]
  have hempty : requested'.isEmpty = requested.isEmpty := by
    rw [Bool.eq_iff_iff, List.isEmpty_iff_length_eq_zero, List.isEmpty_iff_length_eq_zero,
      h.length_eq]
  simp only [select, hempty, hany]

theorem remarks_perm {requested' : List String} (h : requested.Perm requested') :
    (remarks tree root requested').Perm (remarks tree root requested) := by
  simp only [remarks, select_perm h]
  split
  · rfl
  · exact ((h.symm.filter _).map _).append_right _

/-! ### The outcome -/

theorem runAll_snd_iff (h : tree.HasRoot root) (p : Palette) (requested : List String) :
    (runAll tree p root requested).2 = true ↔
      (∃ f ∈ tree, Selected root requested f) ∧
        ∀ f ∈ tree, Selected root requested f → Passes f.text := by
  have hsome : (!(results tree root requested).isEmpty) = true ↔
      ∃ f ∈ tree, Selected root requested f := by
    rw [Bool.not_eq_true', ← Bool.not_eq_true, List.isEmpty_iff, results_eq_nil_iff h]
    simp
  have hall : (∀ r ∈ (results tree root requested).flatMap (·.2), r.passes = true) ↔
      ∀ f ∈ tree, Selected root requested f → Passes f.text := by
    simp only [(flatMap_results_perm h requested).mem_iff, List.mem_map, List.mem_filter,
      decide_eq_true_iff]
    constructor
    · intro hresults f hf hsel
      exact resultOf_passes_iff.mp (hresults _ ⟨f, ⟨hf, hsel⟩, rfl⟩)
    · rintro hpasses _ ⟨f, ⟨hf, hsel⟩, rfl⟩
      exact resultOf_passes_iff.mpr (hpasses f hf hsel)
  rw [runAll_eq h.not_file, Bool.and_eq_true, hsome, report_snd_iff, hall]

theorem run_test (tree : FileTree) (colored : Bool) (root : String) (requested : List String) :
    Command.run tree colored (.test root requested false) =
      ⟨if (runAll tree ⟨colored⟩ root requested).2 then 0 else 1, "",
        (runAll tree ⟨colored⟩ root requested).1⟩ := rfl

theorem test_code_eq_zero_iff (h : tree.HasRoot root) (colored : Bool) (requested : List String) :
    (Command.run tree colored (.test root requested false)).code = 0 ↔
      (∃ f ∈ tree, Selected root requested f) ∧
        ∀ f ∈ tree, Selected root requested f → Passes f.text := by
  rw [← runAll_snd_iff h ⟨colored⟩, run_test]
  simp

/-- A run over a directory gives every selected fixture one result, gives no other file any, and
reports these results. Its exit code is zero if some fixture is selected and all selected ones pass.
The order of the requests decides on the order of warnings alone. -/
theorem test_runs_selected_fixtures (h : tree.HasRoot root) (colored : Bool)
    (requested : List String) :
    ((results tree root requested).flatMap (·.2)).Perm
        ((tree.filter fun f => decide (Selected root requested f)).map fun f =>
          resultOf (f.pathFrom root) f.text) ∧
      (((results tree root requested).flatMap (·.2)).map (·.path)).Nodup ∧
      (∀ path content, (resultOf path content).passes = true ↔ Passes content) ∧
      (Command.run tree colored (.test root requested false)).stderr =
        remarks tree root requested ++
          (if results tree root requested = [] then []
            else (report ⟨colored⟩ true (results tree root requested)).1) ∧
      ((Command.run tree colored (.test root requested false)).code = 0 ↔
        (∃ f ∈ tree, Selected root requested f) ∧
          ∀ f ∈ tree, Selected root requested f → Passes f.text) ∧
      ∀ requested', requested.Perm requested' →
        results tree root requested' = results tree root requested ∧
          (remarks tree root requested').Perm (remarks tree root requested) ∧
          (Command.run tree colored (.test root requested' false)).code =
            (Command.run tree colored (.test root requested false)).code := by
  refine ⟨flatMap_results_perm h requested, paths_of_results_nodup h requested,
    fun _ _ => resultOf_passes_iff, ?_, test_code_eq_zero_iff h colored requested, ?_⟩
  · rw [run_test, runAll_eq h.not_file]
  · intro requested' hperm
    refine ⟨results_perm hperm, remarks_perm hperm, ?_⟩
    rw [run_test, run_test, runAll_eq h.not_file, runAll_eq h.not_file, results_perm hperm]

/-- A fixture that states nothing. -/
def plainText : String := "+++\n+++\nText\n"

theorem passes_plainText : Passes (.ok plainText) := by
  let f : Fixture := ⟨none, ⟨none, none⟩, none, none, none, none, none, "Text\n"⟩
  have hparse : parse plainText = .ok f := by decide +kernel
  exact ⟨plainText, f, rfl, hparse, nofun, nofun, nofun, nofun, nofun⟩

/-- A fixture in a folder, a note beside it, and a fixture that cannot be read. -/
def smallSuite : FileTree :=
  [⟨["suite", "tabs", "two.test.md"], .ok plainText⟩,
    ⟨["suite", "tabs", "notes.md"], .ok plainText⟩,
    ⟨["suite", "locked.test.md"], .error (.unreadable "Permission denied (os error 13)")⟩]

theorem test_runs_tabs_of_smallSuite :
    smallSuite.HasRoot "suite/" ∧
      ((results smallSuite "suite/" ["/tabs/", "tabs"]).flatMap (·.2)).Perm
        [resultOf "suite/tabs/two.test.md" (.ok plainText)] ∧
      (Command.run smallSuite false (.test "suite/" ["/tabs/", "tabs"] false)).code = 0 := by
  have hroot : smallSuite.HasRoot "suite/" := ⟨by decide, by decide, by decide, by decide⟩
  obtain ⟨hresults, -, -, -, hcode, -⟩ :=
    test_runs_selected_fixtures hroot false ["/tabs/", "tabs"]
  refine ⟨hroot, hresults, hcode.mpr ⟨by decide, ?_⟩⟩
  intro f hf hsel
  have htext : ∀ f ∈ smallSuite, Selected "suite/" ["/tabs/", "tabs"] f →
      f.text = .ok plainText := by decide
  rw [htext f hf hsel]
  exact passes_plainText

/-- A fixture in a folder whose name has a backslash. -/
def backslashFolder : FileTree := [⟨["t", "a\\b", "x.test.md"], .ok plainText⟩]

/-- A request for the folder by its name does not take it, since its category has a slash. -/
theorem backslashFolder_not_taken :
    backslashFolder.HasRoot "t" ∧
      (∀ f ∈ backslashFolder, resolve "t" <+: f.folder ∧ fileEnding.toList <:+ f.name.toList ∧
        String.intercalate "/" (f.folderFrom "t") = requestedName "a\\b" ∧ Passes f.text) ∧
      results backslashFolder "t" ["a\\b"] = [] ∧
      (Command.run backslashFolder false (.test "t" ["a\\b"] false)).code = 1 := by
  have hroot : backslashFolder.HasRoot "t" := ⟨by decide, by decide, by decide, by decide⟩
  have hnot : ∀ f ∈ backslashFolder, ¬ Selected "t" ["a\\b"] f := by decide
  have hresults : results backslashFolder "t" ["a\\b"] = [] := (results_eq_nil_iff hroot).mpr hnot
  refine ⟨hroot, ?_, hresults, ?_⟩
  · intro f hf
    obtain rfl := List.mem_singleton.mp hf
    exact ⟨by decide, by decide, by decide, passes_plainText⟩
  · rw [run_test, runAll_eq hroot.not_file, hresults]
    rfl

end Fixture

end BlockDoc
