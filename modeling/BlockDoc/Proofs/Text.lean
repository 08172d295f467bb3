import BlockDoc.Text.Blank
import Mathlib.Data.List.DropRight
import Mathlib.Data.List.Infix
import Mathlib.Data.List.TakeWhile

/-!
Splitting a text at the first occurrence of a pattern, its lines, trimming, and
cutting behind a number of bytes. A pattern whose first character does not come
again in it cannot overlap itself, so a pattern that is put between two texts is
the first one unless the text before it has another. A line begins with a
pattern where the text does, or where the pattern stands behind a line break.
Trimming takes blanks only: the other characters stay. A text can be cut exactly
behind its fronts.
-/

namespace BlockDoc.Text

variable {pat a b cs : List Char}

/-! ### Splitting -/

theorem dropLead?_eq_some_iff {rest : List Char} :
    dropLead? pat cs = some rest ↔ cs = pat ++ rest := by
  induction pat generalizing cs with
  | nil => simp [dropLead?]
  | cons p ps ih =>
      cases cs with
      | nil => simp [dropLead?]
      | cons c cs =>
          by_cases hc : p = c
          · simp [dropLead?, hc, ih]
          · simp [dropLead?, hc, Ne.symm hc]

theorem dropLead?_eq_none_iff : dropLead? pat cs = none ↔ ¬ pat <+: cs := by
  rw [Option.eq_none_iff_forall_ne_some]
  constructor
  · rintro h ⟨rest, heq⟩
    exact h rest (dropLead?_eq_some_iff.mpr heq.symm)
  · intro h rest hrest
    exact h ⟨rest, (dropLead?_eq_some_iff.mp hrest).symm⟩

theorem splitFirst?_spec {before after : List Char}
    (h : splitFirst? pat cs = some (before, after)) : cs = before ++ pat ++ after := by
  induction cs generalizing before with
  | nil =>
      obtain ⟨rest, hrest, heq⟩ := Option.map_eq_some_iff.mp h
      obtain ⟨rfl, rfl⟩ := Prod.mk.inj heq
      exact dropLead?_eq_some_iff.mp hrest
  | cons c cs ih =>
      rw [splitFirst?] at h
      cases hlead : dropLead? pat (c :: cs) with
      | some rest =>
          simp only [hlead] at h
          obtain ⟨rfl, rfl⟩ := Prod.mk.inj (Option.some.inj h)
          exact dropLead?_eq_some_iff.mp hlead
      | none =>
          simp only [hlead] at h
          obtain ⟨⟨before', after'⟩, hsplit, heq⟩ := Option.map_eq_some_iff.mp h
          obtain ⟨rfl, rfl⟩ := Prod.mk.inj heq
          simp [ih hsplit]

/-- What stands behind a text with the pattern does not change where it is split. -/
theorem splitFirst?_append {before after : List Char} (h : splitFirst? pat a = some (before, after))
    (b : List Char) : splitFirst? pat (a ++ b) = some (before, after ++ b) := by
  induction a generalizing before with
  | nil =>
      have hspec := splitFirst?_spec h
      have hpat : before = [] ∧ pat = [] ∧ after = [] := by simpa [and_assoc] using hspec.symm
      obtain ⟨rfl, rfl, rfl⟩ := hpat
      cases b <;> simp [splitFirst?, dropLead?]
  | cons c cs ih =>
      rw [splitFirst?] at h
      rw [List.cons_append, splitFirst?]
      cases hlead : dropLead? pat (c :: cs) with
      | some rest =>
          simp only [hlead] at h
          obtain ⟨rfl, rfl⟩ := Prod.mk.inj (Option.some.inj h)
          have hspec := dropLead?_eq_some_iff.mp hlead
          have hlead' : dropLead? pat (c :: (cs ++ b)) = some (rest ++ b) := by
            rw [dropLead?_eq_some_iff, ← List.cons_append, hspec, List.append_assoc]
          rw [hlead']
      | none =>
          simp only [hlead] at h
          obtain ⟨⟨before', after'⟩, hsplit, heq⟩ := Option.map_eq_some_iff.mp h
          obtain ⟨rfl, rfl⟩ := Prod.mk.inj heq
          -- the pattern fits into the text, so it does not begin here
          have hlength := congrArg List.length (splitFirst?_spec hsplit)
          have hlead' : dropLead? pat (c :: (cs ++ b)) = none := by
            rw [dropLead?_eq_none_iff] at hlead ⊢
            intro hprefix
            refine hlead (List.prefix_of_prefix_length_le hprefix
              (List.prefix_append (c :: cs) b) ?_)
            simp only [List.length_append, List.length_cons] at hlength ⊢
            omega
          rw [hlead', ih hsplit]
          rfl

theorem splitFirst?_eq_none_iff : splitFirst? pat cs = none ↔ ¬ pat <:+: cs := by
  induction cs with
  | nil =>
      rw [splitFirst?, Option.map_eq_none_iff, dropLead?_eq_none_iff, List.prefix_nil,
        List.infix_nil]
  | cons c cs ih =>
      rw [splitFirst?, List.infix_cons_iff, not_or, ← ih, ← dropLead?_eq_none_iff]
      cases dropLead? pat (c :: cs) <;> simp

/-- A text is split at the first occurrence. -/
theorem splitFirst?_length_le {before after front back : List Char}
    (h : splitFirst? pat cs = some (before, after)) (hcs : cs = front ++ pat ++ back) :
    before.length ≤ front.length := by
  have hfound : splitFirst? pat (front ++ pat) ≠ none := by
    rw [ne_eq, splitFirst?_eq_none_iff, not_not]
    exact (List.suffix_append front pat).isInfix
  obtain ⟨⟨before', after'⟩, hsplit⟩ := Option.ne_none_iff_exists'.mp hfound
  have happend := splitFirst?_append hsplit back
  rw [← hcs, h] at happend
  obtain ⟨rfl, -⟩ := Prod.mk.inj (Option.some.inj happend)
  have hlength := congrArg List.length (splitFirst?_spec hsplit)
  simp only [List.length_append] at hlength
  omega

theorem not_infix_of_splitFirst? {before after : List Char} (hpat : pat ≠ [])
    (h : splitFirst? pat cs = some (before, after)) : ¬ pat <:+: before := by
  rintro ⟨front, rest, rfl⟩
  have hcs : cs = front ++ pat ++ (rest ++ pat ++ after) := by
    rw [splitFirst?_spec h]
    simp only [List.append_assoc]
  have hle := splitFirst?_length_le h hcs
  have hpos := List.length_pos_iff.mpr hpat
  simp only [List.length_append] at hle
  omega

/-- A pattern that cannot overlap itself is found where it was put, if not before. -/
theorem splitFirst?_between {c : Char} (hpat : c ∉ pat) (ha : splitFirst? (c :: pat) a = none)
    (b : List Char) : splitFirst? (c :: pat) (a ++ (c :: pat) ++ b) = some (a, b) := by
  induction a with
  | nil =>
      have hlead : dropLead? (c :: pat) (c :: (pat ++ b)) = some b :=
        dropLead?_eq_some_iff.mpr rfl
      simp only [List.nil_append, List.cons_append, splitFirst?, hlead]
  | cons d a ih =>
      rw [splitFirst?] at ha
      cases hlead : dropLead? (c :: pat) (d :: a) with
      | some rest =>
          simp only [hlead] at ha
          exact nomatch ha
      | none =>
          simp only [hlead, Option.map_eq_none_iff] at ha
          have hlead' : dropLead? (c :: pat) (d :: (a ++ (c :: pat) ++ b)) = none := by
            rw [dropLead?_eq_none_iff] at hlead ⊢
            intro hprefix
            obtain ⟨rfl, htail⟩ := List.cons_prefix_cons.mp hprefix
            rcases Nat.lt_or_ge a.length pat.length with hlong | hshort
            · -- the pattern reaches over the text, up to its own first character
              refine hpat ?_
              have hmem : c ∈ a ++ [c] := by simp
              have hreach : a ++ [c] <+: a ++ (c :: pat) ++ b := ⟨pat ++ b, by simp⟩
              have hlength : (a ++ [c]).length ≤ pat.length := by
                simpa using Nat.succ_le_of_lt hlong
              exact (List.prefix_of_prefix_length_le hreach htail hlength).subset hmem
            · refine hlead (List.cons_prefix_cons.mpr ⟨rfl, ?_⟩)
              refine List.prefix_of_prefix_length_le htail ?_ hshort
              rw [List.append_assoc]
              exact List.prefix_append a _
          have hsplit := ih ha
          simp only [List.cons_append, splitFirst?] at hsplit ⊢
          rw [hlead', hsplit]
          rfl

theorem occursIn_iff_isInfix (pat s : String) :
    occursIn pat s = true ↔ pat.toList <:+: s.toList := by
  rw [occursIn, Option.isSome_iff_ne_none, ne_eq, splitFirst?_eq_none_iff, not_not]

theorem splitList_ne_nil (p : Char → Bool) (cs : List Char) : splitList p cs ≠ [] := by
  cases cs with
  | nil => simp [splitList]
  | cons c cs =>
      rw [splitList]
      split
      · simp
      · split <;> simp

/-- A text is split where two texts with a separator between them are. -/
theorem splitList_append_cons {p : Char → Bool} {c : Char} (hc : p c = true) (a b : List Char) :
    splitList p (a ++ c :: b) = splitList p a ++ splitList p b := by
  induction a with
  | nil => simp [splitList, hc]
  | cons d a ih =>
      rw [List.cons_append, splitList, splitList, ih]
      split
      · rfl
      · cases hsplit : splitList p a with
        | nil => exact absurd hsplit (splitList_ne_nil p a)
        | cons piece pieces => rfl

theorem splitList_of_forall {p : Char → Bool} (h : ∀ c ∈ a, p c = false) : splitList p a = [a] := by
  induction a with
  | nil => rfl
  | cons c a ih =>
      rw [List.forall_mem_cons] at h
      simp [splitList, h.1, ih h.2]

/-! ### Lines -/

/-- Whether a line of a text begins with a pattern. -/
def BeginsLine (pat cs : List Char) : Prop := ∃ line ∈ cs.splitOn '\n', pat <+: line

instance (pat cs : List Char) : Decidable (BeginsLine pat cs) :=
  inferInstanceAs (Decidable (∃ line ∈ cs.splitOn '\n', pat <+: line))

/-- A pattern does not reach over a character that it has not. -/
theorem prefix_append_cons_iff {c : Char} (hc : c ∉ pat) : pat <+: a ++ c :: b ↔ pat <+: a := by
  constructor
  · intro h
    rcases List.prefix_or_prefix_of_prefix h (List.prefix_append a (c :: b)) with hpat | ⟨rest, rfl⟩
    · exact hpat
    · cases rest with
      | nil => simp
      | cons d rest =>
          obtain ⟨rfl, -⟩ := List.cons_prefix_cons.mp ((List.prefix_append_right_inj a).mp h)
          simp at hc
  · exact fun h => h.trans (List.prefix_append a (c :: b))

/-- A pattern does not begin in a text without its first character. -/
theorem infix_append_iff_of_notMem {c : Char} (hc : c ∉ a) :
    c :: pat <:+: a ++ b ↔ c :: pat <:+: b := by
  induction a with
  | nil => rfl
  | cons d a ih =>
      rw [List.mem_cons, not_or] at hc
      rw [List.cons_append, List.infix_cons_iff, List.cons_prefix_cons, ih hc.2]
      exact or_iff_right fun h => hc.1 h.1

theorem splitOn_append_of_notMem {c : Char} (hc : c ∉ a) (b : List Char) :
    (a ++ b).splitOn c = (b.splitOn c).modifyHead (a ++ ·) := by
  induction a with
  | nil => exact (congrFun List.modifyHead_id (b.splitOn c)).symm
  | cons d a ih =>
      rw [List.mem_cons, not_or] at hc
      rw [List.cons_append, List.splitOn_cons_eq_if_modifyHead, if_neg (by simp [Ne.symm hc.1]),
        ih hc.2, List.modifyHead_modifyHead]
      rfl

/-- A text begins with its first line. -/
theorem prefix_of_splitOn_eq_cons {c : Char} {line : List Char} {lines : List (List Char)}
    (h : cs.splitOn c = line :: lines) : line <+: cs := by
  have hjoin : [c].intercalate (cs.splitOn c) = cs := List.intercalate_splitOn c
  rw [h] at hjoin
  cases lines with
  | nil => exact ⟨[], by rw [← hjoin, List.intercalate_singleton, List.append_nil]⟩
  | cons next lines =>
      rw [List.intercalate_cons_cons, List.append_assoc] at hjoin
      exact ⟨_, hjoin⟩

theorem beginsLine_append (a b : List Char) :
    BeginsLine pat (a ++ '\n' :: b) ↔ BeginsLine pat a ∨ BeginsLine pat b := by
  simp only [BeginsLine, List.splitOn_append_cons_self, List.mem_append, or_and_right, exists_or]

theorem beginsLine_of_notMem (h : '\n' ∉ cs) : BeginsLine pat cs ↔ pat <+: cs := by
  simp [BeginsLine, List.splitOn_eq_singleton h]

/-- The first line begins where the text does, and the others behind line breaks. -/
theorem beginsLine_iff (hpat : '\n' ∉ pat) :
    BeginsLine pat cs ↔ pat <+: cs ∨ '\n' :: pat <:+: cs := by
  induction hlength : cs.length using Nat.strong_induction_on generalizing cs with
  | _ n ih =>
      by_cases hcs : '\n' ∈ cs
      · obtain ⟨line, rest, rfl, hline⟩ := List.eq_append_cons_of_mem hcs
        have hlt : rest.length < n := by
          rw [← hlength, List.length_append, List.length_cons]
          omega
        rw [beginsLine_append, beginsLine_of_notMem hline, ih _ hlt rfl,
          prefix_append_cons_iff hpat, infix_append_iff_of_notMem hline, List.infix_cons_iff,
          List.cons_prefix_cons, and_iff_right rfl]
      · rw [beginsLine_of_notMem hcs]
        exact (or_iff_left fun h => hcs (h.subset List.mem_cons_self)).symm

/-- A last character that a pattern has not begins no line with it. -/
theorem beginsLine_concat_iff {c : Char} (hpat : '\n' ∉ pat) (hc : c ∉ pat) (hbreak : c ≠ '\n') :
    BeginsLine pat (a ++ [c]) ↔ BeginsLine pat a := by
  have hsuffix : ¬ '\n' :: pat <:+ a ++ [c] := by
    intro h
    obtain hnil | ⟨front, heq, -⟩ := List.suffix_concat_iff.mp h
    · exact List.cons_ne_nil _ _ hnil
    · have hmem : c ∈ '\n' :: pat := by simp [heq]
      exact (List.mem_cons.mp hmem).elim hbreak hc
  rw [beginsLine_iff hpat, beginsLine_iff hpat, prefix_append_cons_iff hc, List.infix_concat_iff,
    or_iff_right hsuffix]

/-! ### Trimming -/

/-- What is dropped ends where a character does not satisfy the condition. -/
theorem dropWhile_append_boundary {p : Char → Bool} (ha : ∀ c ∈ a, p c = true)
    (hb : ∀ c ∈ b.head?, p c = false) : (a ++ b).dropWhile p = b := by
  rw [List.dropWhile_append_of_pos ha]
  cases b with
  | nil => rfl
  | cons c b => exact List.dropWhile_cons_of_neg (by simp [hb c rfl])

theorem takeWhile_append_boundary {p : Char → Bool} (ha : ∀ c ∈ a, p c = true)
    (hb : ∀ c ∈ b.head?, p c = false) : (a ++ b).takeWhile p = a := by
  rw [List.takeWhile_append_of_pos ha]
  cases b with
  | nil => simp
  | cons c b => rw [List.takeWhile_cons_of_neg (by simp [hb c rfl]), List.append_nil]

theorem dropEndWhile_append_boundary {p : Char → Bool} (hb : ∀ c ∈ b, p c = true)
    (ha : ∀ c ∈ a.getLast?, p c = false) : dropEndWhile p (a ++ b) = a := by
  rw [dropEndWhile, List.reverse_append, dropWhile_append_boundary, List.reverse_reverse]
  · exact fun c hc => hb c (List.mem_reverse.mp hc)
  · rwa [List.head?_reverse]

/-- Around a text that neither begins nor ends with such characters all of them are dropped. -/
theorem dropAroundWhile_between {p : Char → Bool} (ha : ∀ c ∈ a, p c = true)
    (hb : ∀ c ∈ b, p c = true) (hhead : ∀ c ∈ cs.head?, p c = false)
    (hlast : ∀ c ∈ cs.getLast?, p c = false) : dropAroundWhile p (a ++ cs ++ b) = cs := by
  cases cs with
  | nil =>
      have hall : ∀ c ∈ a ++ [] ++ b, p c = true := by
        intro c hc
        rw [List.append_nil] at hc
        exact (List.mem_append.mp hc).elim (ha c) (hb c)
      rw [dropAroundWhile, List.dropWhile_eq_nil_iff.mpr hall, dropEndWhile_nil]
  | cons c cs =>
      rw [dropAroundWhile, List.append_assoc, dropWhile_append_boundary ha (by simpa using hhead),
        dropEndWhile_append_boundary hb hlast]

theorem dropWhile_append_of_head {p : Char → Bool} (hb : ∀ c ∈ b.head?, p c = false)
    (a : List Char) :
    (a ++ b).dropWhile p = a.dropWhile p ++ b := by
  rw [List.dropWhile_append]
  split_ifs with hempty
  · rw [List.isEmpty_iff.mp hempty, ← List.nil_append (b.dropWhile p)]
    exact congrArg _ (dropWhile_append_boundary (a := []) (by simp) hb)
  · rfl

theorem dropEndWhile_append_of_last {p : Char → Bool} (ha : ∀ c ∈ a.getLast?, p c = false)
    (b : List Char) :
    dropEndWhile p (a ++ b) = a ++ dropEndWhile p b := by
  rw [dropEndWhile, List.reverse_append, dropWhile_append_of_head, List.reverse_append,
    List.reverse_reverse, dropEndWhile]
  rwa [List.head?_reverse]

/-- Around a text that neither begins nor ends with such characters both sides are trimmed. -/
theorem dropAroundWhile_around {p : Char → Bool} (hne : cs ≠ [])
    (hhead : ∀ c ∈ cs.head?, p c = false) (hlast : ∀ c ∈ cs.getLast?, p c = false)
    (a b : List Char) :
    dropAroundWhile p (a ++ cs ++ b) = a.dropWhile p ++ cs ++ dropEndWhile p b := by
  have hhead' : ∀ c ∈ (cs ++ b).head?, p c = false := by
    rwa [List.head?_append_of_ne_nil _ hne]
  have hlast' : ∀ c ∈ (a.dropWhile p ++ cs).getLast?, p c = false := by
    rwa [List.getLast?_append_of_ne_nil _ hne]
  rw [dropAroundWhile, List.append_assoc,
    dropWhile_append_of_head hhead', ← List.append_assoc, dropEndWhile_append_of_last hlast']

theorem dropEndWhile_append_of_pos {p : Char → Bool} (hb : ∀ c ∈ b, p c = true) (a : List Char) :
    dropEndWhile p (a ++ b) = dropEndWhile p a := by
  rw [dropEndWhile, List.reverse_append, List.dropWhile_append_of_pos, dropEndWhile]
  exact fun c hc => hb c (List.mem_reverse.mp hc)

theorem exists_dropEndWhile_append (p : Char → Bool) (cs : List Char) :
    ∃ b, cs = dropEndWhile p cs ++ b ∧ ∀ c ∈ b, p c = true := by
  refine ⟨(cs.reverse.takeWhile p).reverse, ?_, ?_⟩
  · rw [dropEndWhile, ← List.reverse_append, List.takeWhile_append_dropWhile, List.reverse_reverse]
  · exact fun c hc => List.mem_takeWhile_imp (List.mem_reverse.mp hc)

theorem dropAroundWhile_dropWhile (p : Char → Bool) (cs : List Char) :
    dropAroundWhile p (cs.dropWhile p) = dropAroundWhile p cs := by
  rw [dropAroundWhile, List.dropWhile_idempotent, dropAroundWhile]

theorem dropAroundWhile_dropEndWhile (p : Char → Bool) (cs : List Char) :
    dropAroundWhile p (dropEndWhile p cs) = dropAroundWhile p cs := by
  obtain ⟨b, hcs, hb⟩ := exists_dropEndWhile_append p cs
  conv_rhs => rw [hcs, dropAroundWhile, List.dropWhile_append]
  rw [dropAroundWhile]
  split_ifs with hempty
  · rw [List.isEmpty_iff.mp hempty, List.dropWhile_eq_nil_iff.mpr hb]
  · rw [dropEndWhile_append_of_pos hb]

theorem dropAroundWhile_isInfix (p : Char → Bool) (cs : List Char) :
    dropAroundWhile p cs <:+: cs := by
  obtain ⟨b, hb, -⟩ := exists_dropEndWhile_append p (cs.dropWhile p)
  have hprefix : dropAroundWhile p cs <+: cs.dropWhile p := ⟨b, hb.symm⟩
  exact hprefix.isInfix.trans (List.dropWhile_suffix p).isInfix

theorem trim_dropWhile (s : String) :
    trim (String.ofList (s.toList.dropWhile isBlank)) = trim s := by
  rw [trim, String.toList_ofList, dropAroundWhile_dropWhile, trim]

theorem trim_dropEndWhile (s : String) :
    trim (String.ofList (dropEndWhile isBlank s.toList)) = trim s := by
  rw [trim, String.toList_ofList, dropAroundWhile_dropEndWhile, trim]

theorem trim_trim (s : String) : trim (trim s) = trim s := by
  have htwice := dropAroundWhile_dropEndWhile isBlank (s.toList.dropWhile isBlank)
  rw [dropAroundWhile_dropWhile, ← dropAroundWhile] at htwice
  rw [trim, trim, String.toList_ofList, htwice]

theorem count_dropWhile {p : Char → Bool} {c : Char} (hc : p c = false) (l : List Char) :
    (l.dropWhile p).count c = l.count c := by
  have hnot : c ∉ l.takeWhile p := by
    intro hmem
    have hp : p c = true := List.mem_takeWhile_imp hmem
    exact absurd hp (by simp [hc])
  have hsplit := congrArg (List.count c) (List.takeWhile_append_dropWhile (p := p) (l := l))
  rw [List.count_append, List.count_eq_zero_of_not_mem hnot] at hsplit
  omega

/-- Trimming keeps the characters that are not blank. -/
theorem count_trim {c : Char} (hc : isBlank c = false) (s : String) :
    (trim s).toList.count c = s.toList.count c := by
  rw [trim, String.toList_ofList, dropAroundWhile, dropEndWhile, List.count_reverse,
    count_dropWhile hc, List.count_reverse, count_dropWhile hc]

theorem isEmpty_trim (s : String) : (trim s).isEmpty = isBlankText s := by
  cases hblank : isBlankText s with
  | true =>
      have hdrop : s.toList.dropWhile isBlank = [] :=
        List.dropWhile_eq_nil_iff.mpr (by simpa [isBlankText] using hblank)
      simp [trim, dropAroundWhile, hdrop]
  | false =>
      obtain ⟨c, hc, hnot⟩ : ∃ c ∈ s.toList, isBlank c = false := by
        simpa [isBlankText] using hblank
      have hcount : 0 < (trim s).toList.count c := by
        rw [count_trim hnot]
        exact List.count_pos_iff.mpr hc
      rw [Bool.eq_false_iff]
      intro hempty
      have hnil : trim s = "" := by simpa using hempty
      simp [hnil] at hcount

/-! ### Bytes -/

@[simp] theorem byteLength_append (cs ds : List Char) :
    byteLength (cs ++ ds) = byteLength cs + byteLength ds := by
  induction cs with
  | nil => simp [byteLength]
  | cons c cs ih => simp [byteLength, ih, Nat.add_assoc]

theorem utf8ByteSize_ofList (cs : List Char) : (String.ofList cs).utf8ByteSize = byteLength cs := by
  induction cs with
  | nil => rfl
  | cons c cs ih =>
      rw [String.ofList_cons, String.utf8ByteSize_append, String.utf8ByteSize_singleton, ih,
        byteLength]

theorem byteLength_toList (s : String) : byteLength s.toList = s.utf8ByteSize := by
  rw [← utf8ByteSize_ofList, String.ofList_toList]

theorem byteLength_eq_zero_iff : byteLength cs = 0 ↔ cs = [] := by
  cases cs with
  | nil => simp [byteLength]
  | cons c cs =>
      have hpos := c.utf8Size_pos
      simp only [byteLength, reduceCtorEq, iff_false]
      omega

theorem byteLength_le_of_prefix {front text : List Char} (h : front <+: text) :
    byteLength front ≤ byteLength text := by
  obtain ⟨rest, rfl⟩ := h
  rw [byteLength_append]
  exact Nat.le_add_right _ _

theorem cutBytes?_eq_some_iff {n : Nat} :
    cutBytes? n cs = some (a, b) ↔ cs = a ++ b ∧ byteLength a = n := by
  fun_induction cutBytes? n cs generalizing a with
  | case1 cs =>
      rw [byteLength_eq_zero_iff]
      constructor
      · intro h
        obtain ⟨rfl, rfl⟩ := Prod.mk.inj (Option.some.inj h)
        exact ⟨rfl, rfl⟩
      · rintro ⟨rfl, rfl⟩
        rfl
  | case2 n =>
      simp only [reduceCtorEq, false_iff, List.nil_eq_append_iff]
      rintro ⟨⟨rfl, -⟩, hlength⟩
      exact absurd hlength (Nat.zero_ne_add_one n)
  | case3 n c cs hle ih =>
      constructor
      · intro h
        obtain ⟨⟨front, rest⟩, hcut, heq⟩ := Option.map_eq_some_iff.mp h
        obtain ⟨rfl, rfl⟩ := Prod.mk.inj heq
        obtain ⟨rfl, hlength⟩ := ih.mp hcut
        refine ⟨rfl, ?_⟩
        rw [byteLength]
        omega
      · rintro ⟨heq, hlength⟩
        rcases List.cons_eq_append_iff.mp heq with ⟨rfl, -⟩ | ⟨front, rfl, rfl⟩
        · exact absurd hlength (Nat.zero_ne_add_one n)
        · rw [byteLength] at hlength
          exact Option.map_eq_some_iff.mpr ⟨(front, b), ih.mpr ⟨rfl, by omega⟩, rfl⟩
  | case4 n c cs hle =>
      simp only [reduceCtorEq, false_iff]
      rintro ⟨heq, hlength⟩
      rcases List.cons_eq_append_iff.mp heq with ⟨rfl, -⟩ | ⟨front, rfl, rfl⟩
      · exact Nat.zero_ne_add_one n hlength
      · rw [byteLength] at hlength
        omega

theorem slice?_append (a b c : List Char) :
    slice? (a ++ b ++ c) (byteLength a) (byteLength (a ++ b)) = some b := by
  have hfirst : cutBytes? (byteLength a) (a ++ b ++ c) = some (a, b ++ c) :=
    cutBytes?_eq_some_iff.mpr ⟨List.append_assoc a b c, rfl⟩
  have hsecond : cutBytes? (byteLength b) (b ++ c) = some (b, c) :=
    cutBytes?_eq_some_iff.mpr ⟨rfl, rfl⟩
  have hnot : ¬ byteLength (a ++ b) < byteLength a := by
    rw [byteLength_append]
    omega
  simp only [slice?, if_neg hnot, hfirst, Option.bind_eq_bind, Option.bind_some]
  rw [byteLength_append, Nat.add_sub_cancel_left, hsecond]
  rfl

theorem prefix_of_byteLength_le {text : List Char} (ha : a <+: text) (hb : b <+: text)
    (hle : byteLength a ≤ byteLength b) : a <+: b := by
  rcases List.prefix_or_prefix_of_prefix ha hb with hprefix | ⟨rest, rfl⟩
  · exact hprefix
  · have hrest : rest = [] := by
      rw [byteLength_append] at hle
      rw [← byteLength_eq_zero_iff]
      omega
    simp [hrest]

/-- There is no cut inside a character. -/
theorem slice?_inside (a b rest : List Char) {c : Char} {past : Nat} (hpos : 0 < past)
    (hlt : past < c.utf8Size) :
    slice? (a ++ b ++ c :: rest) (byteLength a) (byteLength (a ++ b) + past) = none := by
  have hfirst : cutBytes? (byteLength a) (a ++ b ++ c :: rest) = some (a, b ++ c :: rest) :=
    cutBytes?_eq_some_iff.mpr ⟨List.append_assoc a b _, rfl⟩
  have hsecond : cutBytes? (byteLength b + past) (b ++ c :: rest) = none := by
    rw [Option.eq_none_iff_forall_ne_some]
    rintro ⟨front, behind⟩ hcut
    obtain ⟨heq, hlength⟩ := cutBytes?_eq_some_iff.mp hcut
    -- the front would end behind `b` and before the end of `c`
    have hprefix : b <+: front :=
      prefix_of_byteLength_le (List.prefix_append b _) ⟨behind, heq.symm⟩ (by omega)
    obtain ⟨more, rfl⟩ := hprefix
    rw [List.append_assoc, List.append_cancel_left_eq] at heq
    rw [byteLength_append] at hlength
    cases more with
    | nil =>
        rw [byteLength] at hlength
        omega
    | cons d more =>
        obtain ⟨rfl, -⟩ := List.cons.inj heq
        rw [byteLength] at hlength
        omega
  have hnot : ¬ byteLength (a ++ b) + past < byteLength a := by
    rw [byteLength_append]
    omega
  simp only [slice?, if_neg hnot, hfirst, Option.bind_eq_bind, Option.bind_some]
  rw [byteLength_append, Nat.add_assoc, Nat.add_sub_cancel_left, hsecond]
  rfl

end BlockDoc.Text
