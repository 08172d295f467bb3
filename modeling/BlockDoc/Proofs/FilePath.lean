import BlockDoc.FileTree
import BlockDoc.Proofs.Text

/-!
Paths of files below a directory: the path of the directory with the names of folders and of a file
joined to it. Such a path has the names of the directory and the joined ones, it leads to the place
that the joined names lead to from the directory, and seen from the directory the file lies in
the joined folders.
-/

namespace BlockDoc.FilePath

variable {directory name : String} {ns folder : List String}

/-- Whether a text names a file or a folder in a directory. -/
structure IsFileName (name : String) : Prop where
  isName : isName name = true
  not_upwards : name ≠ ".."
  no_slash : '/' ∉ name.toList

instance (name : String) : Decidable (IsFileName name) :=
  decidable_of_iff (isName name = true ∧ name ≠ ".." ∧ '/' ∉ name.toList)
    ⟨fun ⟨hname, hup, hslash⟩ => ⟨hname, hup, hslash⟩,
      fun h => ⟨h.isName, h.not_upwards, h.no_slash⟩⟩

theorem IsFileName.ne_empty (h : IsFileName name) : name ≠ "" := by
  rintro rfl
  exact absurd h.isName (by decide)

/-! ### Pieces -/

theorem pieces_append (directory rest : String) :
    pieces (directory ++ "/" ++ rest) = pieces directory ++ pieces rest := by
  have hsplit := Text.splitList_append_cons (p := (· == '/')) (c := '/') rfl directory.toList
    rest.toList
  simp [pieces, Text.splitAt, hsplit]

theorem pieces_of_no_slash (h : '/' ∉ name.toList) : pieces name = [name] := by
  have hsplit : Text.splitList (· == '/') name.toList = [name.toList] :=
    Text.splitList_of_forall fun c hc => beq_eq_false_iff_ne.mpr fun heq => h (heq ▸ hc)
  simp [pieces, Text.splitAt, hsplit]

theorem pieces_slash_end (directory : String) :
    pieces (directory ++ "/") = pieces directory ++ [""] := by
  have h := pieces_append directory ""
  rw [String.append_empty] at h
  exact h

/-- Whether a slash stands at the end of a path. -/
def EndsInSlash (path : String) : Prop := path.toList.getLast? = some '/'

instance (path : String) : Decidable (EndsInSlash path) :=
  inferInstanceAs (Decidable (_ = _))

theorem EndsInSlash.exists_eq (h : EndsInSlash directory) : ∃ d, directory = d ++ "/" := by
  obtain ⟨cs, hcs⟩ := List.getLast?_eq_some_iff.mp h
  exact ⟨String.ofList cs, String.toList_inj.mp (by simp [hcs])⟩

/-- The pieces of a directory in front of a name that is joined to it: a slash at the end begins no
piece. -/
def way (directory : String) : List String :=
  if EndsInSlash directory then (pieces directory).dropLast else pieces directory

theorem filter_way (directory : String) : (way directory).filter isName = names directory := by
  rw [way]
  split
  · next h =>
      obtain ⟨d, rfl⟩ := h.exists_eq
      have hempty : isName "" = false := by decide
      rw [names, pieces_slash_end, List.dropLast_concat, List.filter_append]
      simp [hempty]
  · rfl

/-! ### Joining a name -/

theorem join_of_slash (h : EndsInSlash directory) : join directory name = directory ++ name := by
  have hlast : directory.toList.getLast? = some '/' := h
  simp [join, hlast]

theorem join_of_no_slash (hd : directory ≠ "") (h : ¬ EndsInSlash directory) :
    join directory name = directory ++ "/" ++ name := by
  have hlast : directory.toList.getLast? ≠ some '/' := h
  simp [join, hd, hlast]

theorem exists_join_eq (directory name : String) :
    ∃ rest, join directory name = directory ++ rest := by
  rw [join]
  split
  · exact ⟨name, rfl⟩
  · exact ⟨"/" ++ name, String.append_assoc⟩

theorem join_ne_empty (hd : directory ≠ "") : join directory name ≠ "" := by
  obtain ⟨rest, hrest⟩ := exists_join_eq directory name
  rw [hrest]
  simp [hd]

theorem pieces_join (hd : directory ≠ "") (hn : IsFileName name) :
    pieces (join directory name) = way directory ++ [name] := by
  by_cases h : EndsInSlash directory
  · rw [join_of_slash h, way, if_pos h]
    obtain ⟨d, rfl⟩ := h.exists_eq
    rw [pieces_append, pieces_slash_end, List.dropLast_concat, pieces_of_no_slash hn.no_slash]
  · rw [join_of_no_slash hd h, way, if_neg h, pieces_append, pieces_of_no_slash hn.no_slash]

theorem not_endsInSlash_join (hn : IsFileName name) : ¬ EndsInSlash (join directory name) := by
  obtain ⟨before, hbefore⟩ : ∃ before, join directory name = before ++ name := by
    rw [join]
    split
    · exact ⟨directory, rfl⟩
    · exact ⟨directory ++ "/", rfl⟩
  intro h
  have hne : name.toList ≠ [] := fun hnil => hn.ne_empty (String.toList_eq_nil_iff.mp hnil)
  rw [EndsInSlash, hbefore, String.toList_append, List.getLast?_append_of_ne_nil _ hne] at h
  exact hn.no_slash (List.mem_of_getLast? h)

theorem way_join (hd : directory ≠ "") (hn : IsFileName name) :
    way (join directory name) = way directory ++ [name] := by
  rw [way, if_neg (not_endsInSlash_join hn), pieces_join hd hn]

theorem front?_join (hd : directory ≠ "") : front? (join directory name) = front? directory := by
  cases hlist : directory.toList with
  | nil => exact absurd (String.toList_eq_nil_iff.mp hlist) hd
  | cons c cs =>
      cases cs with
      | nil =>
          by_cases hc : c = '/'
          · subst hc
            have hslash : EndsInSlash directory := by simp [EndsInSlash, hlist]
            simp [join_of_slash hslash, front?, hlist]
          · -- a slash comes behind the only character, which may be the dot in front
            have hslash : ¬ EndsInSlash directory := by simp [EndsInSlash, hlist, hc]
            by_cases hdot : c = '.'
            · subst hdot
              simp [join_of_no_slash hd hslash, front?, hlist]
            · simp [join_of_no_slash hd hslash, front?, hlist, hc, hdot]
      | cons d cs =>
          obtain ⟨rest, hrest⟩ := exists_join_eq directory name
          rw [hrest, front?, front?, String.toList_append, hlist, List.cons_append,
            List.cons_append]
          split <;> simp_all

/-! ### Joining names of folders -/

theorem foldl_join_ne_empty (hd : directory ≠ "") (ns : List String) :
    ns.foldl join directory ≠ "" := by
  induction ns generalizing directory with
  | nil => exact hd
  | cons n ns ih => exact ih (join_ne_empty hd)

theorem way_foldl_join (hd : directory ≠ "") (hns : ∀ n ∈ ns, IsFileName n) :
    way (ns.foldl join directory) = way directory ++ ns := by
  induction ns generalizing directory with
  | nil => simp
  | cons n ns ih =>
      rw [List.forall_mem_cons] at hns
      rw [List.foldl_cons, ih (join_ne_empty hd) hns.2, way_join hd hns.1, List.append_assoc]
      rfl

theorem pieces_foldl_join (hd : directory ≠ "") (hns : ∀ n ∈ ns, IsFileName n)
    (hname : IsFileName name) :
    pieces ((ns ++ [name]).foldl join directory) = way directory ++ ns ++ [name] := by
  rw [List.foldl_concat, pieces_join (foldl_join_ne_empty hd ns) hname, way_foldl_join hd hns]

theorem names_foldl_join (hd : directory ≠ "") (hns : ∀ n ∈ ns, IsFileName n) :
    names (ns.foldl join directory) = names directory ++ ns := by
  have hall : ns.filter isName = ns := List.filter_eq_self.mpr fun n hn => (hns n hn).isName
  rw [← filter_way, way_foldl_join hd hns, List.filter_append, filter_way, hall]

theorem front?_foldl_join (hd : directory ≠ "") (ns : List String) :
    front? (ns.foldl join directory) = front? directory := by
  induction ns generalizing directory with
  | nil => rfl
  | cons n ns ih => rw [List.foldl_cons, ih (join_ne_empty hd), front?_join hd]

theorem fileName?_foldl_join (hd : directory ≠ "") (hns : ∀ n ∈ ns, IsFileName n)
    (hname : IsFileName name) : fileName? ((ns ++ [name]).foldl join directory) = some name := by
  have hall : ∀ n ∈ ns ++ [name], IsFileName n := by
    simpa [or_imp, forall_and] using And.intro hns hname
  rw [fileName?, names_foldl_join hd hall, ← List.append_assoc, List.getLast?_concat]
  simp [hname.not_upwards]

/-! ### Seen from a directory -/

theorem dropEmpty_of_forall (hns : ∀ n ∈ ns, isName n = true) : dropEmpty ns = ns := by
  cases ns with
  | nil => rfl
  | cons n ns =>
      rw [List.forall_mem_cons] at hns
      simp [dropEmpty, hns.1]

theorem dropEmptyEnd_of_forall (hns : ∀ n ∈ ns, isName n = true) : dropEmptyEnd ns = ns := by
  have hreverse : ∀ n ∈ ns.reverse, isName n = true := fun n hn => hns n (List.mem_reverse.mp hn)
  rw [dropEmptyEnd, dropEmpty_of_forall hreverse, List.reverse_reverse]

theorem dropEmptyEnd_concat (hn : isName name = true) (ps : List String) :
    dropEmptyEnd (ps ++ [name]) = ps ++ [name] := by
  simp [dropEmptyEnd, dropEmpty, hn]

/-- Behind the names of some pieces stand, pieces that are no names apart, those that follow
the pieces. -/
theorem behind?_filter (ps qs : List String) :
    ∃ rest, behind? (ps.filter isName) (ps ++ qs) = some rest ∧ dropEmpty rest = dropEmpty qs := by
  induction ps with
  | nil => exact ⟨qs, rfl, rfl⟩
  | cons p ps ih =>
      obtain ⟨rest, hbehind, hrest⟩ := ih
      cases hp : isName p with
      | true =>
          refine ⟨rest, ?_, hrest⟩
          rw [List.filter_cons_of_pos hp, List.cons_append, behind?]
          simp [dropEmpty, hp, hbehind]
      | false =>
          rw [List.filter_cons_of_neg (by simp [hp]), List.cons_append]
          have hdrop : dropEmpty (p :: (ps ++ qs)) = dropEmpty (ps ++ qs) := by
            simp [dropEmpty, hp]
          cases hnames : ps.filter isName with
          | nil =>
              rw [hnames] at hbehind
              obtain rfl : ps ++ qs = rest := Option.some.inj hbehind
              exact ⟨p :: (ps ++ qs), rfl, hdrop.trans hrest⟩
          | cons n ns =>
              refine ⟨rest, ?_, hrest⟩
              rw [hnames, behind?] at hbehind
              rw [behind?, hdrop, hbehind]

/-- Seen from a directory, a file lies in the folders whose names were joined to it. -/
theorem directoryBelow?_foldl_join (hd : directory ≠ "") (hfolder : ∀ n ∈ folder, IsFileName n)
    (hname : IsFileName name) :
    directoryBelow? directory ((folder ++ [name]).foldl join directory) =
      some (String.intercalate "/" folder) := by
  have hall : ∀ n ∈ folder, isName n = true := fun n hn => (hfolder n hn).isName
  obtain ⟨rest, hbehind, hrest⟩ := behind?_filter (way directory) folder
  rw [filter_way] at hbehind
  rw [directoryBelow?, pieces_foldl_join hd hfolder hname, dropEmptyEnd_concat hname.isName,
    List.dropLast_concat, front?_foldl_join hd]
  simp [hd, hbehind, hrest, dropEmpty_of_forall hall, dropEmptyEnd_of_forall hall]

end BlockDoc.FilePath

namespace BlockDoc.FileTree

open FilePath

variable {path name : String} {ns : List String}

/-- The names of files lead on from the place of a directory. -/
theorem resolve_foldl_join (hpath : path ≠ "") (hns : ∀ n ∈ ns, IsFileName n) :
    resolve (ns.foldl join path) = resolve path ++ ns := by
  rw [resolve, resolve, names_foldl_join hpath hns, front?_foldl_join hpath, List.foldl_append]
  generalize (names path).foldl _ _ = place
  induction ns generalizing place with
  | nil => simp
  | cons n ns ih =>
      rw [List.forall_mem_cons] at hns
      rw [List.foldl_cons, ih hns.2]
      simp [hns.1.not_upwards]

theorem asksDirectory_foldl_join (hpath : path ≠ "") (hns : ∀ n ∈ ns, IsFileName n)
    (hname : IsFileName name) : asksDirectory ((ns ++ [name]).foldl join path) = false := by
  rw [asksDirectory, pieces_foldl_join hpath hns hname, List.getLast?_concat]
  simp [hname.isName]

end BlockDoc.FileTree
