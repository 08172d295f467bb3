import BlockDoc.Fixture.Suite
import BlockDoc.Proofs.Data.Association
import BlockDoc.Proofs.FilePath

/-!
Which fixtures below a directory a run takes. Discovery finds the files whose names end as those of
fixtures do, by the category of their folder, and a request takes categories. So every file that is
selected by its place in the tree is taken once, however many requests mean its category.
-/

namespace BlockDoc

open FilePath FileTree

namespace FileEntry

/-- The names of the folder that a file lies in. -/
def folder (f : FileEntry) : List String := f.names.dropLast

/-- The name of a file. -/
def name (f : FileEntry) : String := f.names.getLastD ""

/-- The names that lead from a directory to the folder of a file below it. -/
def folderFrom (root : String) (f : FileEntry) : List String :=
  f.folder.drop (resolve root).length

/-- The path of a file below a directory. -/
def pathFrom (root : String) (f : FileEntry) : String :=
  (f.names.drop (resolve root).length).foldl join root

end FileEntry

/-- Whether a path leads to a directory of a tree: files are apart, and what lies below the
directory is named as files and folders are. -/
structure FileTree.HasRoot (tree : FileTree) (root : String) : Prop where
  ne_empty : root ≠ ""
  not_file : tree.isFile root = false
  distinct : (tree.map (·.names)).Nodup
  named : ∀ f ∈ tree, resolve root <+: f.names →
    ∀ name ∈ f.names.drop (resolve root).length, IsFileName name

namespace Fixture

variable {tree : FileTree} {root : String} {requested : List String}

/-- The category of a folder: its names with slashes between them. A backslash in a name is read as
a slash. -/
def folderCategory (folder : List String) : String :=
  String.ofList ((String.intercalate "/" folder).toList.map fun c => if c = '\\' then '/' else c)

/-- Whether a category is taken by one of some requests; all are when there is no request. -/
def Requested (requested : List String) (category : String) : Prop :=
  requested = [] ∨ ∃ r ∈ requested, category = requestedName r ∨
    (requestedName r ++ "/").toList <+: category.toList

/-- Whether a file is a fixture below a root whose category is requested. -/
structure Selected (root : String) (requested : List String) (f : FileEntry) : Prop where
  below : resolve root <+: f.folder
  fixture : fileEnding.toList <:+ f.name.toList
  requested : Requested requested (folderCategory (f.folderFrom root))

instance (requested : List String) (category : String) : Decidable (Requested requested category) :=
  inferInstanceAs (Decidable (_ ∨ _))

instance (root : String) (requested : List String) (f : FileEntry) :
    Decidable (Selected root requested f) :=
  decidable_of_iff (resolve root <+: f.folder ∧ fileEnding.toList <:+ f.name.toList ∧
      Requested requested (folderCategory (f.folderFrom root)))
    ⟨fun ⟨hbelow, hfixture, hrequested⟩ => ⟨hbelow, hfixture, hrequested⟩,
      fun h => ⟨h.below, h.fixture, h.requested⟩⟩

/-- The results of the fixtures that a run takes, by category. -/
def results (tree : FileTree) (root : String) (requested : List String) :
    List (String × List Result) :=
  let all := discover tree root
  (all.filter fun c => (select requested (all.map (·.1))).contains c.1).map fun (category, files) =>
    (category, files.map fun file => resultOf file (tree.read file))

/-! ### A file below a root -/

/-- The names of folders that lead from a root to a file, and the name of the file. -/
structure LiesBelow (root : String) (folder : List String) (name : String) (f : FileEntry) :
    Prop where
  names : f.names = resolve root ++ folder ++ [name]
  folders : ∀ n ∈ folder, IsFileName n
  file : IsFileName name

namespace LiesBelow

variable {f : FileEntry} {folder : List String} {name : String}

theorem folder_eq (h : LiesBelow root folder name f) : f.folder = resolve root ++ folder := by
  rw [FileEntry.folder, h.names, List.dropLast_concat]

theorem folderFrom_eq (h : LiesBelow root folder name f) : f.folderFrom root = folder := by
  rw [FileEntry.folderFrom, h.folder_eq, List.drop_left]

theorem name_eq (h : LiesBelow root folder name f) : f.name = name := by
  rw [FileEntry.name, h.names, List.getLastD_concat]

theorem pathFrom_eq (h : LiesBelow root folder name f) :
    f.pathFrom root = (folder ++ [name]).foldl join root := by
  rw [FileEntry.pathFrom, h.names, List.append_assoc, List.drop_left]

theorem all (h : LiesBelow root folder name f) : ∀ n ∈ folder ++ [name], IsFileName n := by
  simpa [or_imp, forall_and] using And.intro h.folders h.file

theorem resolve_pathFrom (h : LiesBelow root folder name f) (hroot : root ≠ "") :
    resolve (f.pathFrom root) = f.names := by
  rw [h.pathFrom_eq, resolve_foldl_join hroot h.all, h.names, List.append_assoc]

theorem isFixture_pathFrom (h : LiesBelow root folder name f) (hroot : root ≠ "") :
    isFixture (f.pathFrom root) = true ↔ fileEnding.toList <:+ f.name.toList := by
  rw [isFixture, h.pathFrom_eq, fileName?_foldl_join hroot h.folders h.file, h.name_eq]
  simp

theorem categoryOf_pathFrom (h : LiesBelow root folder name f) (hroot : root ≠ "") :
    categoryOf root (f.pathFrom root) = folderCategory (f.folderFrom root) := by
  rw [categoryOf, h.pathFrom_eq, directoryBelow?_foldl_join hroot h.folders h.file,
    h.folderFrom_eq, folderCategory, Option.getD_some]

/-- At the path of a file its text is read. -/
theorem read_pathFrom (h : LiesBelow root folder name f) (htree : tree.HasRoot root)
    (hf : f ∈ tree) : tree.read (f.pathFrom root) = f.text := by
  have hpath : f.pathFrom root ≠ "" := by
    rw [h.pathFrom_eq]
    exact foldl_join_ne_empty htree.ne_empty _
  have hasks : asksDirectory (f.pathFrom root) = false := by
    rw [h.pathFrom_eq]
    exact asksDirectory_foldl_join htree.ne_empty h.folders h.file
  have hfile : tree.file? f.names = some f := by
    refine List.find?_eq_some_iff_append.mpr ⟨by simp, ?_⟩
    obtain ⟨before, behind, rfl⟩ := List.append_of_mem hf
    refine ⟨before, behind, rfl, fun g hg => ?_⟩
    have hdistinct := htree.distinct
    rw [List.map_append, List.map_cons, List.nodup_append] at hdistinct
    have hne : g.names ≠ f.names :=
      hdistinct.2.2 _ (List.mem_map_of_mem hg) _ List.mem_cons_self
    simp [hne]
  rw [FileTree.read, h.resolve_pathFrom htree.ne_empty, hfile]
  simp [hpath, hasks]

end LiesBelow

/-- Every file that lies strictly below a root lies in folders below it. -/
theorem exists_liesBelow {f : FileEntry} (htree : tree.HasRoot root) (hf : f ∈ tree)
    (hbelow : resolve root <+: f.names) (hstrict : (resolve root).length < f.names.length) :
    ∃ folder name, LiesBelow root folder name f := by
  obtain ⟨rest, hrest⟩ := hbelow
  have hnamed : ∀ n ∈ rest, IsFileName n := by
    have h := htree.named f hf ⟨rest, hrest⟩
    rwa [← hrest, List.drop_left] at h
  have hne : rest ≠ [] := by
    rintro rfl
    simp [← hrest] at hstrict
  obtain ⟨folder, name, rfl⟩ := (List.eq_nil_or_concat' rest).resolve_left hne
  refine ⟨folder, name, by rw [← hrest, List.append_assoc], ?_, ?_⟩
  · exact fun n hn => hnamed n (List.mem_append_left _ hn)
  · exact hnamed name (List.mem_append_right _ List.mem_cons_self)

/-- A selected file lies strictly below the root, since it has a name. -/
theorem Selected.strictly_below {f : FileEntry} (h : Selected root requested f) :
    resolve root <+: f.names ∧ (resolve root).length < f.names.length := by
  have hne : f.names ≠ [] := by
    intro hnil
    have hfixture := h.fixture
    rw [FileEntry.name, hnil] at hfixture
    exact absurd hfixture (by decide)
  have hlength := h.below.length_le
  have hpos : 0 < f.names.length := List.length_pos_of_ne_nil hne
  rw [FileEntry.folder, List.length_dropLast] at hlength
  exact ⟨h.below.trans (List.dropLast_prefix f.names), by omega⟩

theorem Selected.exists_liesBelow {f : FileEntry} (h : Selected root requested f)
    (htree : tree.HasRoot root) (hf : f ∈ tree) : ∃ folder name, LiesBelow root folder name f :=
  Fixture.exists_liesBelow htree hf h.strictly_below.1 h.strictly_below.2

/-! ### Discovery -/

theorem filesBelow_eq (hroot : root ≠ "") :
    tree.filesBelow root = (tree.filter fun f => (resolve root).isPrefixOf f.names &&
      decide ((resolve root).length < f.names.length)).map (FileEntry.pathFrom root) := by
  rw [FileTree.filesBelow, if_neg (by simp [hroot])]
  induction tree with
  | nil => rfl
  | cons f tree ih =>
      rw [List.filterMap_cons, ih, List.filter_cons]
      split_ifs <;> simp_all [FileEntry.pathFrom]

theorem discover_perm (tree : FileTree) (root : String) :
    (ungroup (discover tree root)).Perm
      (((tree.filesBelow root).filter isFixture).map fun file => (categoryOf root file, file)) :=
  (ungroup_groupByKey_perm _).trans ((List.mergeSort_perm _ _).map _)

/-! ### Requests -/

theorem mem_select_iff {all : List String} {category : String} (h : category ∈ all) :
    category ∈ select requested all ↔ Requested requested category := by
  cases requested with
  | nil => simp [select, Requested, h]
  | cons r requested => simp [select, Requested, requests, h]

theorem requested_perm {requested' : List String} (h : requested.Perm requested')
    (category : String) : Requested requested category ↔ Requested requested' category := by
  have hnil : requested = [] ↔ requested' = [] := by
    rw [← List.length_eq_zero_iff, ← List.length_eq_zero_iff, h.length_eq]
  simp only [Requested, hnil, h.mem_iff]

/-- The results of a run are those of the categories that are requested. -/
theorem results_eq (tree : FileTree) (root : String) (requested : List String) :
    results tree root requested =
      ((discover tree root).filter fun c => decide (Requested requested c.1)).map
        fun (category, files) =>
          (category, files.map fun file => resultOf file (tree.read file)) := by
  rw [results]
  congr 1
  refine List.filter_congr fun c hc => ?_
  rw [Bool.eq_iff_iff, List.contains_iff_mem, decide_eq_true_iff]
  exact mem_select_iff (List.mem_map_of_mem hc)

theorem results_perm {requested' : List String} (h : requested.Perm requested') :
    results tree root requested' = results tree root requested := by
  simp only [results_eq, requested_perm h]

theorem resultOf_path (path : String) (content : Except FileError String) :
    (resultOf path content).path = path := by
  cases content with
  | error e => rfl
  | ok text => cases hparse : parse text <;> simp [resultOf, hparse]

theorem flatMap_results (tree : FileTree) (root : String) (requested : List String) :
    (results tree root requested).flatMap (·.2) =
      ((ungroup (discover tree root)).filter fun entry => decide (Requested requested entry.1)).map
        fun entry => resultOf entry.2 (tree.read entry.2) := by
  rw [results_eq, ← ungroup_filter fun category => decide (Requested requested category)]
  simp [ungroup, List.flatMap_map, List.map_flatMap, Function.comp_def]

/-- Discovery and the requests take the selected files. -/
theorem selected_iff {f : FileEntry} (h : tree.HasRoot root) (hf : f ∈ tree) :
    Selected root requested f ↔
      (resolve root <+: f.names ∧ (resolve root).length < f.names.length) ∧
        isFixture (f.pathFrom root) = true ∧
        Requested requested (categoryOf root (f.pathFrom root)) := by
  constructor
  · intro hsel
    obtain ⟨folder, name, hlies⟩ := hsel.exists_liesBelow h hf
    rw [hlies.isFixture_pathFrom h.ne_empty, hlies.categoryOf_pathFrom h.ne_empty]
    exact ⟨hsel.strictly_below, hsel.fixture, hsel.requested⟩
  · rintro ⟨⟨hbelow, hstrict⟩, hfixture, hrequested⟩
    obtain ⟨folder, name, hlies⟩ := exists_liesBelow h hf hbelow hstrict
    rw [hlies.isFixture_pathFrom h.ne_empty] at hfixture
    rw [hlies.categoryOf_pathFrom h.ne_empty] at hrequested
    refine ⟨?_, hfixture, hrequested⟩
    rw [hlies.folder_eq]
    exact List.prefix_append _ _

/-- Every selected fixture has one result, and no other file has any. -/
theorem flatMap_results_perm (h : tree.HasRoot root) (requested : List String) :
    ((results tree root requested).flatMap (·.2)).Perm
      ((tree.filter fun f => decide (Selected root requested f)).map fun f =>
        resultOf (f.pathFrom root) f.text) := by
  have hfilter : ((tree.filter fun f => (resolve root).isPrefixOf f.names &&
        decide ((resolve root).length < f.names.length)).filter fun f =>
          isFixture (f.pathFrom root)).filter (fun f =>
            decide (Requested requested (categoryOf root (f.pathFrom root)))) =
      tree.filter fun f => decide (Selected root requested f) := by
    rw [List.filter_filter, List.filter_filter]
    refine List.filter_congr fun f hf => ?_
    rw [Bool.eq_iff_iff, decide_eq_true_iff, selected_iff h hf]
    simp [and_assoc, and_comm]
  have hread : (tree.filter fun f => decide (Selected root requested f)).map (fun f =>
        resultOf (f.pathFrom root) (tree.read (f.pathFrom root))) =
      (tree.filter fun f => decide (Selected root requested f)).map fun f =>
        resultOf (f.pathFrom root) f.text := by
    refine List.map_congr_left fun f hf => ?_
    obtain ⟨hmem, hsel⟩ := List.mem_filter.mp hf
    obtain ⟨folder, name, hlies⟩ := (of_decide_eq_true hsel).exists_liesBelow h hmem
    rw [hlies.read_pathFrom h hmem]
  rw [flatMap_results, ← hread, ← hfilter]
  refine (((discover_perm tree root).filter _).map _).trans (List.Perm.of_eq ?_)
  rw [filesBelow_eq h.ne_empty]
  simp only [List.filter_map, List.map_map, Function.comp_def]

/-- No two of the results are those of one file. -/
theorem paths_of_results_nodup (h : tree.HasRoot root) (requested : List String) :
    (((results tree root requested).flatMap (·.2)).map (·.path)).Nodup := by
  rw [((flatMap_results_perm h requested).map _).nodup_iff, List.map_map]
  refine List.Nodup.of_map resolve ?_
  have hnames : ((tree.filter fun f => decide (Selected root requested f)).map
        ((·.path) ∘ fun f => resultOf (f.pathFrom root) f.text)).map resolve =
      (tree.filter fun f => decide (Selected root requested f)).map (·.names) := by
    rw [List.map_map]
    refine List.map_congr_left fun f hf => ?_
    obtain ⟨hmem, hsel⟩ := List.mem_filter.mp hf
    obtain ⟨folder, name, hlies⟩ := (of_decide_eq_true hsel).exists_liesBelow h hmem
    rw [Function.comp_apply, Function.comp_apply, resultOf_path, hlies.resolve_pathFrom h.ne_empty]
  rw [hnames]
  exact h.distinct.sublist (List.filter_sublist.map _)

theorem results_eq_nil_iff (h : tree.HasRoot root) :
    results tree root requested = [] ↔ ∀ f ∈ tree, ¬ Selected root requested f := by
  have hgroups : results tree root requested = [] ↔
      (results tree root requested).flatMap (·.2) = [] := by
    refine ⟨fun hnil => by rw [hnil]; rfl, fun hflat => ?_⟩
    rw [results_eq] at hflat ⊢
    refine List.map_eq_nil_iff.mpr (List.eq_nil_iff_forall_not_mem.mpr fun c hc => ?_)
    -- a category has fixtures, so it would have results
    have hne : c.2 ≠ [] :=
      (wellGrouped_groupByKey _).nonempty c (List.mem_of_mem_filter hc)
    have hempty := List.flatMap_eq_nil_iff.mp hflat _ (List.mem_map_of_mem hc)
    exact hne (List.map_eq_nil_iff.mp hempty)
  rw [hgroups, ← List.length_eq_zero_iff, (flatMap_results_perm h requested).length_eq,
    List.length_eq_zero_iff, List.map_eq_nil_iff, List.filter_eq_nil_iff]
  simp

end Fixture

end BlockDoc
