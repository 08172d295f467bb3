import BlockDoc.Proofs.Node.Lead
import BlockDoc.Proofs.Text

/-!
The builder turns the events of passages back into their nodes. Cells, rows,
items and nested passages each lead from the part around them to this part with
their own content added, and leave the parts further out as they are. So no
event is left over, and no part stays open at the end.
-/

namespace BlockDoc.Node

open Markdown (CellAlignment Event Located Tag TagEnd inlinesEvents)

/-! ### The text behind a fence -/

theorem splitInfo_of_reads {info language details : Option String}
    (h : InfoReads info language details) :
    (info.map Builder.splitInfo).getD (none, none) = (language, details) := by
  cases h with
  | indented => rfl
  | @blank blanks hblank =>
      have htrim : Text.dropAroundWhile Text.isBlank ([] ++ [] ++ blanks) = [] :=
        Text.dropAroundWhile_between (fun _ hc => absurd hc List.not_mem_nil) hblank nofun nofun
      rw [List.append_nil, List.nil_append] at htrim
      simp [Builder.splitInfo, htrim]
  | @word before language behind hbefore hlanguage hword hbehind =>
      have htrim := Text.dropAroundWhile_between hbefore hbehind
        (fun c hc => hword c (List.mem_of_mem_head? hc))
        (fun c hc => hword c (List.mem_of_mem_getLast? hc))
      have hword' : ∀ c ∈ language, (!Text.isBlank c) = true := by simpa using hword
      have htake : language.takeWhile (!Text.isBlank ·) = language :=
        List.takeWhile_eq_self_iff.mpr hword'
      have hdrop : language.dropWhile (!Text.isBlank ·) = [] :=
        List.dropWhile_eq_nil_iff.mpr hword'
      simp only [Option.map_some, Option.getD_some, Builder.splitInfo, String.toList_ofList, htrim,
        htake, hdrop, List.isEmpty_iff, if_neg hlanguage]
      rfl
  | @words before language gap details behind hbefore hlanguage hword hgap hblank hdetails hhead
      hlast hbehind =>
      have htrim : Text.dropAroundWhile Text.isBlank
          (before ++ (language ++ (gap ++ details)) ++ behind) = language ++ (gap ++ details) := by
        refine Text.dropAroundWhile_between hbefore hbehind ?_ ?_
        · intro c hc
          rw [List.head?_append_of_ne_nil _ hlanguage] at hc
          exact hword c (List.mem_of_mem_head? hc)
        · rwa [List.getLast?_append_of_ne_nil _ (by simp [hdetails]),
            List.getLast?_append_of_ne_nil _ hdetails]
      have hword' : ∀ c ∈ language, (!Text.isBlank c) = true := by simpa using hword
      have hboundary : ∀ c ∈ (gap ++ details).head?, (!Text.isBlank c) = false := by
        intro c hc
        rw [List.head?_append_of_ne_nil _ hgap] at hc
        simp [hblank c (List.mem_of_mem_head? hc)]
      have htake := Text.takeWhile_append_boundary hword' hboundary
      have hdrop := Text.dropWhile_append_boundary hword' hboundary
      have hrest : Text.dropAroundWhile Text.isBlank (gap ++ details ++ []) = details :=
        Text.dropAroundWhile_between hblank (fun _ hc => absurd hc List.not_mem_nil) hhead hlast
      rw [List.append_nil] at hrest
      have hne : language ++ (gap ++ details) ≠ [] := by simp [hlanguage]
      simp only [Option.map_some, Option.getD_some, Builder.splitInfo, String.toList_ofList, htrim,
        htake, hdrop, hrest, List.isEmpty_iff, if_neg hne, if_neg hdetails]

section

variable {text : List Char} {done : List Node} {rest : List Unfinished}

/-! ### Code and HTML -/

theorem leads_codeTexts (p : Range) (language details : Option String) (texts acc : List String) :
    Leads text (anywhere (texts.map .text)) ⟨done, .code p language details acc :: rest⟩
      ⟨done, .code p language details (texts.reverse ++ acc) :: rest⟩ := by
  induction texts generalizing acc with
  | nil => exact .nil
  | cons s texts ih =>
      rw [List.reverse_cons, List.append_assoc, List.singleton_append]
      exact .free (fun _ => rfl) (ih (s :: acc))

theorem leads_htmlTexts (p : Range) (texts acc : List String) :
    Leads text (anywhere (texts.map .html)) ⟨done, .html p acc :: rest⟩
      ⟨done, .html p (texts.reverse ++ acc) :: rest⟩ := by
  induction texts generalizing acc with
  | nil => exact .nil
  | cons s texts ih =>
      rw [List.reverse_cons, List.append_assoc, List.singleton_append]
      exact .free (fun _ => rfl) (ih (s :: acc))

/-! ### Tables -/

theorem leads_cells (p : Range) (align : List CellAlignment) (header : List (List Inline))
    (rows : List (List (List Inline))) (inHead : Bool) (cells row : List (List Inline))
    (hroom : nestingOf rest + inlinesNesting cells.flatten ≤ maxNesting) :
    Leads text (cellsEvents cells) ⟨done, .table p align header rows row inHead :: rest⟩
      ⟨done, .table p align header rows (cells.reverse ++ row) inHead :: rest⟩ := by
  induction cells generalizing row with
  | nil => exact .nil
  | cons xs cells ih =>
      rw [List.flatten_cons, inlinesNesting_append] at hroom
      rw [List.reverse_cons, List.append_assoc, List.singleton_append]
      refine Leads.append (.free (fun _ => rfl) ?_) (ih (xs :: row) (by omega))
      refine leads_text rfl rfl ?_ ?_
      · rw [nestingOf_cons_of_not_nests rfl, nestingOf_cons_of_not_nests rfl]
        omega
      · simp [Unfinished.addInlines, Builder.addPart]

theorem leads_rows (p : Range) (align : List CellAlignment) (header : List (List Inline))
    (rows acc : List (List (List Inline)))
    (hroom : nestingOf rest + inlinesNesting rows.flatten.flatten ≤ maxNesting) :
    Leads text (rowsEvents rows) ⟨done, .table p align header acc [] false :: rest⟩
      ⟨done, .table p align header (rows.reverse ++ acc) [] false :: rest⟩ := by
  induction rows generalizing acc with
  | nil => exact .nil
  | cons cells rows ih =>
      rw [List.flatten_cons, List.flatten_append, inlinesNesting_append] at hroom
      rw [List.reverse_cons, List.append_assoc, List.singleton_append]
      refine Leads.append (.free (fun _ => rfl) ?_) (ih (cells :: acc) (by omega))
      refine (leads_cells p align header acc false cells [] (by omega)).append (.single fun _ => ?_)
      rw [List.append_nil]
      simp [Builder.step_eq, Builder.ends, Unfinished.awaits, Builder.onEvent, Builder.onTable]

/-! ### Items -/

theorem intercalate_cons_eq_flatMap {α : Type} (x : α) (ys : List α) (yss : List (List α)) :
    [x].intercalate (ys :: yss) = ys ++ yss.flatMap (x :: ·) := by
  induction yss generalizing ys with
  | nil => simp
  | cons zs yss ih => rw [List.intercalate_cons_cons, ih, List.flatMap_cons]; simp

/-- A paragraph of an item is added behind the text that the item has in front of it. -/
theorem leads_paragraph (checked : Option Bool) (acc : List Inline) (sublist : Option ItemList)
    (xs : List Inline) (hroom : nestingOf rest + inlinesNesting xs ≤ maxNesting) :
    Leads text (anywhere (.start .paragraph :: inlinesEvents xs [.stop .paragraph]))
      ⟨done, .item checked acc sublist :: rest⟩
      ⟨done, .item checked
        (xs.reverse ++ if acc.isEmpty then acc else .softBreak :: acc) sublist :: rest⟩ := by
  have hstart : ∀ span, Builder.step text ⟨done, .item checked acc sublist :: rest⟩
      (.start .paragraph, span) =
        ⟨done, .itemText [] ::
          .item checked (if acc.isEmpty then acc else .softBreak :: acc) sublist :: rest⟩ := by
    intro span
    cases acc <;> rfl
  refine .free hstart (leads_text rfl rfl ?_ ?_)
  · rw [nestingOf_cons_of_not_nests rfl, nestingOf_cons_of_not_nests rfl]
    exact hroom
  · simp [Unfinished.addInlines, Builder.addPart]

/-- Paragraphs behind the first one, which is not empty. -/
theorem leads_furtherParagraphs (checked : Option Bool) (sublist : Option ItemList)
    (ps : List (List Inline)) {acc : List Inline} (hacc : acc ≠ [])
    (hroom : nestingOf rest + inlinesNesting (ps.flatMap (.softBreak :: ·)) ≤ maxNesting) :
    Leads text (paragraphsEvents ps) ⟨done, .item checked acc sublist :: rest⟩
      ⟨done, .item checked ((ps.flatMap (.softBreak :: ·)).reverse ++ acc) sublist :: rest⟩ := by
  induction ps generalizing acc with
  | nil => exact .nil
  | cons xs ps ih =>
      rw [List.flatMap_cons, inlinesNesting_append, inlinesNesting] at hroom
      have hfirst : Leads text _ ⟨done, .item checked acc sublist :: rest⟩ _ :=
        leads_paragraph checked acc sublist xs (by omega)
      rw [if_neg (by simpa using hacc)] at hfirst
      have hne : xs.reverse ++ .softBreak :: acc ≠ [] := by simp
      simpa [paragraphsEvents] using hfirst.append (ih hne (by omega))

theorem leads_itemText (t : ItemText)
    (hroom : nestingOf rest + inlinesNesting t.children ≤ maxNesting) :
    Leads text t.events ⟨done, .item none [] none :: rest⟩
      ⟨done, .item t.task t.children.reverse none :: rest⟩ := by
  have hroom' : ∀ checked, nestingOf (.item checked [] none :: rest) +
      inlinesNesting t.children ≤ maxNesting := by
    intro checked
    rwa [nestingOf_cons_of_not_nests rfl]
  cases t with
  | bare task children =>
      have hchildren : Leads text _ ⟨done, .item task [] none :: rest⟩ _ :=
        leads_inlines children rfl (hroom' task)
      rw [Unfinished.addInlines, List.append_nil] at hchildren
      cases task with
      | none => exact hchildren
      | some checked => exact .free (fun _ => rfl) hchildren
  | paragraphs ps nonempty filled =>
      cases ps with
      | nil => exact absurd rfl nonempty
      | cons xs ps =>
          have hxs : xs.reverse ≠ [] := by simpa using filled xs List.mem_cons_self
          rw [ItemText.children, intercalate_cons_eq_flatMap, inlinesNesting_append] at hroom
          have hfirst : Leads text _ ⟨done, .item none [] none :: rest⟩ _ :=
            leads_paragraph none [] none xs (by omega)
          have hrest : Leads text _ ⟨done, .item none xs.reverse none :: rest⟩ _ :=
            leads_furtherParagraphs none none ps hxs (by omega)
          rw [List.isEmpty_nil, if_pos rfl, List.append_nil] at hfirst
          rw [ItemText.children, intercalate_cons_eq_flatMap, List.reverse_append]
          exact hfirst.append hrest

/-- A list is a part of its own up to its end. -/
theorem leads_listBody {span : Span} {first : Option Nat} {items : List ItemPassage}
    {parts : List Unfinished}
    (hstart : Builder.step text ⟨done, parts⟩ (.start (.list first), span) =
      ⟨done, .list (Range.ofSpan text span) first [] :: parts⟩)
    (hitems : Leads text (itemsEvents items)
      ⟨done, .list (Range.ofSpan text span) first [] :: parts⟩
      ⟨done, .list (Range.ofSpan text span) first ((itemsOf items).reverse ++ []) :: parts⟩) :
    Leads text (ListPassage.mk span first items).events ⟨done, parts⟩
      (Builder.addPart (.list (Range.ofSpan text span) first (itemsOf items).reverse)
        ⟨done, parts⟩) := by
  rw [List.append_nil] at hitems
  exact .placed hstart (hitems.append (.single (Builder.step_stop rfl)))

mutual

theorem leads_item (x : ItemPassage) (p : Range) (first : Option Nat) (acc : List Item)
    {rest : List Unfinished}
    (hroom : nestingOf (.list p first acc :: rest) + x.nesting ≤ maxNesting) :
    Leads text x.events ⟨done, .list p first acc :: rest⟩
      ⟨done, .list p first (x.item :: acc) :: rest⟩ := by
  match x with
  | .mk t none =>
      rw [ItemPassage.nesting] at hroom
      refine .free (fun _ => rfl) ((leads_itemText t hroom).append (.single fun span => ?_))
      rw [Builder.step_stop rfl]
      simp [Builder.addPart, ItemPassage.item]
  | .mk t (some (.mk span first' items)) =>
      rw [ItemPassage.nesting, ListPassage.nesting] at hroom
      have hsub : nestingOf (.item t.task t.children.reverse none :: .list p first acc :: rest) <
          maxNesting := by
        rw [nestingOf_cons_of_not_nests rfl]
        omega
      have htext : Leads text t.events ⟨done, .item none [] none :: .list p first acc :: rest⟩ _ :=
        leads_itemText t (by omega)
      refine .free (fun _ => rfl) (htext.append ?_)
      have hstart : Builder.step text
          ⟨done, .item t.task t.children.reverse none :: .list p first acc :: rest⟩
          (.start (.list first'), span) =
            ⟨done, .list (Range.ofSpan text span) first' [] ::
              .item t.task t.children.reverse none :: .list p first acc :: rest⟩ :=
        if_neg (Nat.not_le.mpr hsub)
      have hsublist := leads_listBody hstart (leads_items items _ first' [] (by
        rw [nestingOf_cons_of_nests rfl, nestingOf_cons_of_not_nests rfl]
        omega))
      refine hsublist.append (.single fun span' => ?_)
      rw [Builder.addPart, List.reverse_reverse, Builder.step_stop rfl]
      simp [Builder.addPart, ItemPassage.item, ListPassage.list]

theorem leads_items (items : List ItemPassage) (p : Range) (first : Option Nat) (acc : List Item)
    {rest : List Unfinished}
    (hroom : nestingOf (.list p first acc :: rest) + itemsNesting items ≤ maxNesting) :
    Leads text (itemsEvents items) ⟨done, .list p first acc :: rest⟩
      ⟨done, .list p first ((itemsOf items).reverse ++ acc) :: rest⟩ := by
  match items with
  | [] => exact .nil
  | x :: xs =>
      rw [itemsNesting] at hroom
      rw [itemsOf, List.reverse_cons, List.append_assoc, List.singleton_append]
      exact (leads_item x p first acc (by omega)).append
        (leads_items xs p first (x.item :: acc) (by
          rw [nestingOf_cons_of_nests rfl] at hroom ⊢
          omega))

end

/-! ### Blocks -/

/-- Whether the innermost part takes blocks; without open parts the outermost level does. -/
def takesBlocks : List Unfinished → Bool
  | [] | .quote .. :: _ => true
  | _ => false

theorem takesBlocks_cases {parts : List Unfinished} (h : takesBlocks parts = true) :
    parts = [] ∨ ∃ p children rest, parts = .quote p children :: rest := by
  cases parts with
  | nil => exact Or.inl rfl
  | cons u rest =>
      cases u with
      | quote p children => exact Or.inr ⟨p, children, rest, rfl⟩
      | _ => exact absurd h Bool.false_ne_true

/-- Adds nodes, in order, where blocks are taken. -/
def addNodes (nodes : List Node) (b : Builder) : Builder := nodes.foldl (fun b n => b.addNode n) b

theorem addNodes_outermost (nodes done : List Node) :
    addNodes nodes ⟨done, []⟩ = ⟨nodes.reverse ++ done, []⟩ := by
  induction nodes generalizing done with
  | nil => rfl
  | cons n nodes ih =>
      rw [List.reverse_cons, List.append_assoc, List.singleton_append]
      exact ih (n :: done)

theorem addNodes_quote (nodes children : List Node) (p : Range) :
    addNodes nodes ⟨done, .quote p children :: rest⟩ =
      ⟨done, .quote p (nodes.reverse ++ children) :: rest⟩ := by
  induction nodes generalizing children with
  | nil => rfl
  | cons n nodes ih =>
      rw [List.reverse_cons, List.append_assoc, List.singleton_append]
      exact ih (n :: children)

theorem takesBlocks_addNode {parts : List Unfinished} (h : takesBlocks parts = true) (n : Node) :
    takesBlocks (Builder.addNode n ⟨done, parts⟩).parts = true ∧
      nestingOf (Builder.addNode n ⟨done, parts⟩).parts = nestingOf parts := by
  obtain rfl | ⟨p, children, rest, rfl⟩ := takesBlocks_cases h
  · exact ⟨rfl, rfl⟩
  · exact ⟨rfl, rfl⟩

theorem step_block {parts : List Unfinished} (h : takesBlocks parts = true) {e : Event}
    (hends : Builder.ends ⟨done, parts⟩ e = false) (span : Span) :
    Builder.step text ⟨done, parts⟩ (e, span) = Builder.onBlocks text e span ⟨done, parts⟩ := by
  rw [Builder.step_eq, hends, if_neg Bool.false_ne_true]
  obtain rfl | ⟨p, children, rest, rfl⟩ := takesBlocks_cases h
  · rfl
  · rfl

theorem step_start_block {parts : List Unfinished} (h : takesBlocks parts = true) (tag : Tag)
    (span : Span) :
    Builder.step text ⟨done, parts⟩ (.start tag, span) =
      Builder.onBlocks text (.start tag) span ⟨done, parts⟩ :=
  step_block h (by simp [Builder.ends]) span

theorem step_rule {parts : List Unfinished} (h : takesBlocks parts = true) (span : Span) :
    Builder.step text ⟨done, parts⟩ (.rule, span) =
      Builder.addNode (.mk (Range.ofSpan text span) .thematicBreak) ⟨done, parts⟩ :=
  step_block h (by simp [Builder.ends]) span

/-- A quote or a list may begin where the nesting leaves room for it. -/
theorem not_full {parts : List Unfinished} {n : Nat} (h : nestingOf parts + (n + 1) ≤ maxNesting) :
    ¬ maxNesting ≤ Builder.nesting ⟨done, parts⟩ := by
  change ¬ maxNesting ≤ nestingOf parts
  omega

theorem leads_table (span : Span) (t : Table) {parts : List Unfinished}
    (h : takesBlocks parts = true)
    (hroom : nestingOf parts +
      inlinesNesting (t.header.flatten ++ t.rows.flatten.flatten) ≤ maxNesting) :
    Leads text (Passage.table span t).events ⟨done, parts⟩
      (Builder.addNode ((Passage.table span t).node text) ⟨done, parts⟩) := by
  rw [inlinesNesting_append] at hroom
  have hheader : Leads text (cellsEvents t.header)
      ⟨done, .table (Range.ofSpan text span) t.align [] [] [] true :: parts⟩ _ :=
    leads_cells _ t.align [] [] true t.header [] (by omega)
  have hrows : Leads text (rowsEvents t.rows)
      ⟨done, .table (Range.ofSpan text span) t.align t.header [] [] false :: parts⟩ _ :=
    leads_rows _ t.align t.header t.rows [] (by omega)
  rw [List.append_nil] at hheader hrows
  refine .placed (step_start_block h _ span) (.free (fun _ => rfl) (hheader.append
    (.free (fun _ => ?_) (hrows.append (.single fun _ => ?_)))))
  · simp [Builder.step_eq, Builder.ends, Unfinished.awaits, Builder.onEvent, Builder.onTable]
  · rw [Builder.step_stop rfl]
    simp [Builder.addPart, Passage.node]

mutual

theorem leads_passage (p : Passage) {done : List Node} {parts : List Unfinished}
    (h : takesBlocks parts = true) (hroom : nestingOf parts + p.nesting ≤ maxNesting) :
    Leads text p.events ⟨done, parts⟩ (Builder.addNode (p.node text) ⟨done, parts⟩) := by
  match p with
  | .heading span depth anchor children =>
      refine .placed (step_start_block h _ span) (leads_text rfl rfl ?_ ?_)
      · rwa [nestingOf_cons_of_not_nests rfl]
      · simp [Unfinished.addInlines, Builder.addPart, Passage.node]
  | .paragraph span children =>
      refine .placed (step_start_block h _ span) (leads_text rfl rfl ?_ ?_)
      · rwa [nestingOf_cons_of_not_nests rfl]
      · simp [Unfinished.addInlines, Builder.addPart, Passage.node]
  | .code span info language details reads texts =>
      have hstart : Builder.step text ⟨done, parts⟩ (.start (.code info), span) =
          ⟨done, .code (Range.ofSpan text span) language details [] :: parts⟩ := by
        rw [step_start_block h, Builder.onBlocks, splitInfo_of_reads reads]
        rfl
      refine .placed hstart ((leads_codeTexts _ language details texts []).append
        (.single fun _ => ?_))
      rw [Builder.step_stop rfl]
      simp [Builder.addPart, Unfinished.joined, Passage.node]
  | .html span texts =>
      refine .placed (step_start_block h _ span) ((leads_htmlTexts _ texts []).append
        (.single fun _ => ?_))
      rw [Builder.step_stop rfl]
      simp [Builder.addPart, Unfinished.joined, Passage.node]
  | .rule span => exact .placed (step_rule h span) .nil
  | .table span t => exact leads_table span t h hroom
  | .quote span children =>
      rw [Passage.nesting] at hroom
      have hstart : Builder.step text ⟨done, parts⟩ (.start .quote, span) =
          ⟨done, .quote (Range.ofSpan text span) [] :: parts⟩ := by
        rw [step_start_block h, Builder.onBlocks, if_neg (not_full hroom)]
        rfl
      have hchildren : Leads text (passagesEvents children)
          ⟨done, .quote (Range.ofSpan text span) [] :: parts⟩ _ :=
        leads_passages children rfl (by
          rw [nestingOf_cons_of_nests rfl]
          omega)
      rw [addNodes_quote, List.append_nil] at hchildren
      refine .placed hstart (hchildren.append (.single fun _ => ?_))
      rw [Builder.step_stop rfl]
      simp [Builder.addPart, Passage.node]
  | .list (.mk span first items) =>
      rw [Passage.nesting, ListPassage.nesting] at hroom
      have hstart : Builder.step text ⟨done, parts⟩ (.start (.list first), span) =
          ⟨done, .list (Range.ofSpan text span) first [] :: parts⟩ := by
        rw [step_start_block h, Builder.onBlocks, if_neg (not_full hroom)]
        rfl
      have hlist := leads_listBody hstart (leads_items items _ first [] (by
        rw [nestingOf_cons_of_nests rfl]
        omega))
      have hadd : Builder.addPart (.list (Range.ofSpan text span) first (itemsOf items).reverse)
          ⟨done, parts⟩ = Builder.addNode ((Passage.list (.mk span first items)).node text)
            ⟨done, parts⟩ := by
        rw [Builder.addPart, List.reverse_reverse]
        obtain rfl | ⟨p, children, rest, rfl⟩ := takesBlocks_cases h
        · rfl
        · rfl
      exact hadd ▸ hlist

theorem leads_passages (ps : List Passage) {done : List Node} {parts : List Unfinished}
    (h : takesBlocks parts = true) (hroom : nestingOf parts + passagesNesting ps ≤ maxNesting) :
    Leads text (passagesEvents ps) ⟨done, parts⟩ (addNodes (nodesOf text ps) ⟨done, parts⟩) := by
  match ps with
  | [] => exact .nil
  | p :: ps =>
      rw [passagesNesting] at hroom
      obtain ⟨htakes, hnesting⟩ := takesBlocks_addNode h (p.node text)
      have hrest : nestingOf (Builder.addNode (p.node text) ⟨done, parts⟩).parts +
          passagesNesting ps ≤ maxNesting := by
        rw [hnesting]
        omega
      exact (leads_passage p h (by omega)).append (leads_passages ps htakes hrest)

end

end

/-- The events of passages that do not nest too deep are all taken and no part stays open: what is
built are the nodes of the passages. -/
theorem ofEvents_of_passages (text : List Char) {passages : List Passage}
    (hnesting : passagesNesting passages ≤ maxNesting) {events : List Located}
    (hevents : Shows (passagesEvents passages) events) :
    events.foldl (Builder.step text) .start = ⟨(nodesOf text passages).reverse, []⟩ ∧
      ofEvents text events = nodesOf text passages := by
  have hfold : events.foldl (Builder.step text) .start =
      addNodes (nodesOf text passages) ⟨[], []⟩ :=
    leads_passages passages rfl (by simpa [nestingOf] using hnesting) events hevents
  rw [addNodes_outermost, List.append_nil] at hfold
  refine ⟨hfold, ?_⟩
  rw [ofEvents, hfold]
  simp [Builder.finish, Builder.leaveAll]

/-- A heading in a quote, and a task with a list of two paragraphs below it. -/
def quoteAndTask : List Passage :=
  [.quote ⟨0, 10, by decide⟩ [.heading ⟨2, 10, by decide⟩ 1 none [.strong [.text "a"]]],
    .list (.mk ⟨11, 34, by decide⟩ none
      [.mk (.bare (some true) [.text "b"]) (some (.mk ⟨21, 34, by decide⟩ (some 1)
        [.mk (.paragraphs [[.text "c"], [.text "d"]] (by decide) (by decide)) none]))])]

/-- The text of these passages. -/
def quoteAndTaskText : List Char := "> # **a**\n\n- [x] b\n  1. c\n\n     d\n".toList

theorem ofEvents_of_quoteAndTask :
    passagesNesting quoteAndTask ≤ maxNesting ∧
      Shows (passagesEvents quoteAndTask) (Event.ofText quoteAndTaskText) ∧
      (Event.ofText quoteAndTaskText).foldl (Builder.step quoteAndTaskText) .start =
        ⟨(nodesOf quoteAndTaskText quoteAndTask).reverse, []⟩ ∧
      ofEvents quoteAndTaskText (Event.ofText quoteAndTaskText) =
        nodesOf quoteAndTaskText quoteAndTask := by
  have hnesting : passagesNesting quoteAndTask ≤ maxNesting := by decide
  have hshows : Shows (passagesEvents quoteAndTask) (Event.ofText quoteAndTaskText) := by
    decide +kernel
  exact ⟨hnesting, hshows, ofEvents_of_passages quoteAndTaskText hnesting hshows⟩

end BlockDoc.Node
