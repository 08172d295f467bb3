import BlockDoc.Proofs.Node.Lead
import BlockDoc.Proofs.Node.Reading

/-!
Runs of the builder over trees within one part: within a block that is left out,
an element of text that lies too deep, lines, and text. The events of trees that
fit lead from such a part to this part with what is read of the trees added, and
leave the parts further out as they are.
-/

namespace BlockDoc.Node

open Markdown (Event Tag TagEnd)

/-! ### Runs over trees -/

namespace Builder

/-- The builder after the events of trees. -/
def run (text : List Char) (b : Builder) (ts : List EventTree) : Builder :=
  (treesEvents ts).foldl (step text) b

variable {text : List Char} {b : Builder} {ts : List EventTree}

@[simp] theorem run_nil : run text b [] = b := rfl

theorem run_single {e : Event} {alone : standsAlone e = true} {span : Span} :
    run text b (.single e alone span :: ts) = run text (step text b (e, span)) ts := rfl

theorem ends_alone {e : Event} (h : standsAlone e = true) : b.ends e = false := by
  cases e with
  | start tag | stop tag => exact absurd h Bool.false_ne_true
  | _ => rfl

/-- The end of another part than the innermost one. -/
theorem ends_other {done : List Node} {u : Unfinished} {rest : List Unfinished}
    {tag tagEnd : TagEnd} (hend : u.awaits = some tagEnd) (htag : tag ≠ tagEnd) :
    ends ⟨done, u :: rest⟩ (.stop tag) = false := by
  simpa [ends, hend] using htag.symm

theorem run_element {tag : Tag} {span stop : Span} {children : List EventTree} :
    run text b (.element tag span children stop :: ts) =
      run text (step text (run text (step text b (.start tag, span)) children)
        (.stop tag.toEnd, stop)) ts := by
  simp [run, treesEvents, EventTree.events]

end Builder

section

variable {text : List Char} {done : List Node} {rest : List Unfinished}

/-! ### What is left out, and what lies too deep -/

/-- An event that stands alone leaves the number of open starts as it is. -/
theorem waitingAfter_alone {e : Event} (h : standsAlone e = true) (waiting : Nat) :
    Builder.waitingAfter waiting e = waiting := by
  cases e with
  | start tag | stop tag => exact absurd h Bool.false_ne_true
  | _ => rfl

theorem step_skipped (e : Event) (span : Span) {waiting : Nat} (result : Option Node)
    (h : 0 < Builder.waitingAfter waiting e) :
    Builder.step text ⟨done, .skipped waiting result :: rest⟩ (e, span) =
      ⟨done, .skipped (Builder.waitingAfter waiting e) result :: rest⟩ := by
  rw [Builder.step_eq, if_neg (by cases e <;> simp [Builder.ends, Unfinished.awaits])]
  exact if_neg (Nat.ne_of_gt h)

/-- Nothing within a block that is left out has an effect. -/
theorem run_skipped (ts : List EventTree) {waiting : Nat} (result : Option Node)
    (h : 0 < waiting) :
    Builder.run text ⟨done, .skipped waiting result :: rest⟩ ts =
      ⟨done, .skipped waiting result :: rest⟩ := by
  induction ts using trees_induction generalizing waiting with
  | nil => rfl
  | single e alone span ts ih =>
      have hwaiting := waitingAfter_alone alone waiting
      rw [Builder.run_single, step_skipped e span result (by omega), hwaiting, ih h]
  | element tag span children stop ts hchildren hts =>
      have hstart : Builder.step text ⟨done, .skipped waiting result :: rest⟩ (.start tag, span) =
          ⟨done, .skipped (waiting + 1) result :: rest⟩ :=
        step_skipped (.start tag) span result (Nat.succ_pos waiting)
      have hstop : Builder.step text ⟨done, .skipped (waiting + 1) result :: rest⟩
          (.stop tag.toEnd, stop) = ⟨done, .skipped waiting result :: rest⟩ :=
        step_skipped (.stop tag.toEnd) stop result h
      rw [Builder.run_element, hstart, hchildren (Nat.succ_pos waiting), hstop, hts h]

/-- A block that is left out ends with its own end, and its node is added. -/
theorem step_skipped_stop (tag : TagEnd) (stop : Span) (result : Option Node) :
    Builder.step text ⟨done, .skipped 1 result :: rest⟩ (.stop tag, stop) =
      Builder.addPart (.skipped 0 result) ⟨done, rest⟩ := by
  rw [Builder.step_eq, if_neg (by simp [Builder.ends, Unfinished.awaits])]
  rfl

theorem step_flat (e : Event) (span : Span) {waiting : Nat} (texts : List String)
    (h : 0 < Builder.waitingAfter waiting e) :
    Builder.step text ⟨done, .flat waiting texts :: rest⟩ (e, span) =
      ⟨done, .flat (Builder.waitingAfter waiting e) ((Builder.flatText e).reverse ++ texts) :: rest⟩
        := by
  rw [Builder.step_eq, if_neg (by cases e <;> simp [Builder.ends, Unfinished.awaits])]
  have hreverse : (Builder.flatText e).reverse = Builder.flatText e := by cases e <;> rfl
  rw [hreverse]
  exact if_neg (Nat.ne_of_gt h)

theorem readFlat_single {e : Event} {alone : standsAlone e = true} {span : Span}
    {ts : List EventTree} :
    readFlat (.single e alone span :: ts) = Builder.flatText e ++ readFlat ts := rfl

theorem readFlat_element {tag : Tag} {span stop : Span} {children ts : List EventTree} :
    readFlat (.element tag span children stop :: ts) = readFlat children ++ readFlat ts := by
  simp [readFlat, treesEvents, EventTree.events, Builder.flatText]

theorem run_flat (ts : List EventTree) {waiting : Nat} (texts : List String) (h : 0 < waiting) :
    Builder.run text ⟨done, .flat waiting texts :: rest⟩ ts =
      ⟨done, .flat waiting ((readFlat ts).reverse ++ texts) :: rest⟩ := by
  induction ts using trees_induction generalizing waiting texts with
  | nil => rfl
  | single e alone span ts ih =>
      have hwaiting := waitingAfter_alone alone waiting
      rw [Builder.run_single, step_flat e span texts (by omega), hwaiting, ih _ h,
        readFlat_single, List.reverse_append, List.append_assoc]
  | element tag span children stop ts hchildren hts =>
      have hstart : Builder.step text ⟨done, .flat waiting texts :: rest⟩ (.start tag, span) =
          ⟨done, .flat (waiting + 1) texts :: rest⟩ :=
        step_flat (.start tag) span texts (Nat.succ_pos waiting)
      have hstop : ∀ texts, Builder.step text ⟨done, .flat (waiting + 1) texts :: rest⟩
          (.stop tag.toEnd, stop) = ⟨done, .flat waiting texts :: rest⟩ :=
        fun texts => step_flat (.stop tag.toEnd) stop texts h
      rw [Builder.run_element, hstart, hchildren _ (Nat.succ_pos waiting), hstop, hts _ h,
        readFlat_element, List.reverse_append, List.append_assoc]

theorem step_flat_stop (tag : TagEnd) (stop : Span) (texts : List String) :
    Builder.step text ⟨done, .flat 1 texts :: rest⟩ (.stop tag, stop) =
      Builder.addInline (.text (Unfinished.joined texts)) ⟨done, rest⟩ := by
  rw [Builder.step_eq, if_neg (by simp [Builder.ends, Unfinished.awaits])]
  rfl

end

/-! ### Code and HTML -/

namespace Unfinished

/-- Whether a part takes lines. -/
def takesLines : Unfinished → Bool
  | code .. | html .. => true
  | _ => false

/-- Adds texts, in order, to a part that takes lines. -/
def addLines (texts : List String) : Unfinished → Unfinished
  | code p language details acc => code p language details (texts.reverse ++ acc)
  | html p acc => html p (texts.reverse ++ acc)
  | part => part

@[simp] theorem takesLines_addLines (texts : List String) (u : Unfinished) :
    (u.addLines texts).takesLines = u.takesLines := by
  cases u <;> rfl

@[simp] theorem awaits_addLines (texts : List String) (u : Unfinished) :
    (u.addLines texts).awaits = u.awaits := by
  cases u <;> rfl

theorem addLines_append (texts texts' : List String) (u : Unfinished) :
    u.addLines (texts ++ texts') = (u.addLines texts).addLines texts' := by
  cases u <;> simp [addLines]

theorem addLines_nil (u : Unfinished) : u.addLines [] = u := by
  cases u <;> rfl

end Unfinished

theorem readLines_single {e : Event} {alone : standsAlone e = true} {span : Span}
    {ts : List EventTree} :
    readLines (.single e alone span :: ts) = lineText e ++ readLines ts := rfl

theorem readLines_element {tag : Tag} {span stop : Span} {children ts : List EventTree} :
    readLines (.element tag span children stop :: ts) = readLines children ++ readLines ts := by
  simp [readLines, treesEvents, EventTree.events, lineText]

section

variable {text : List Char} {done : List Node} {rest : List Unfinished}

theorem step_lines {u : Unfinished} (hu : u.takesLines = true) {e : Event}
    (hends : Builder.ends ⟨done, u :: rest⟩ e = false) (span : Span) :
    Builder.step text ⟨done, u :: rest⟩ (e, span) = ⟨done, u.addLines (lineText e) :: rest⟩ := by
  rw [Builder.step_eq, hends, if_neg Bool.false_ne_true]
  cases u with
  | code | html => cases e <;> rfl
  | _ => exact absurd hu Bool.false_ne_true

theorem step_noLine {u : Unfinished} (hu : u.takesLines = true) {e : Event}
    (he : lineText e = []) (hends : Builder.ends ⟨done, u :: rest⟩ e = false) (span : Span) :
    Builder.step text ⟨done, u :: rest⟩ (e, span) = ⟨done, u :: rest⟩ := by
  rw [step_lines hu hends, he, u.addLines_nil]

theorem run_lines (ts : List EventTree) {u : Unfinished} {tagEnd : TagEnd}
    (hu : u.takesLines = true) (hend : u.awaits = some tagEnd)
    (hfits : treesFit (.lines tagEnd) ts = true) :
    Builder.run text ⟨done, u :: rest⟩ ts = ⟨done, u.addLines (readLines ts) :: rest⟩ := by
  induction ts using trees_induction generalizing u with
  | nil => rw [Builder.run_nil, readLines, treesEvents, List.flatMap_nil, u.addLines_nil]
  | single e alone span ts ih =>
      rw [Builder.run_single, step_lines hu (Builder.ends_alone alone),
        ih (by simpa using hu) (by simpa using hend) hfits, readLines_single, u.addLines_append]
  | element tag span children stop ts ihchildren ihts =>
      obtain ⟨⟨inner, hinner, hchildren⟩, hts⟩ := fits_element_iff.mp hfits
      obtain ⟨htag, rfl⟩ : tag.toEnd ≠ tagEnd ∧ .lines tagEnd = inner := by
        simpa [Place.within?] using hinner
      have hu' : (u.addLines (readLines children)).takesLines = true := by simpa using hu
      have hend' : (u.addLines (readLines children)).awaits = some tagEnd := by simpa using hend
      rw [Builder.run_element, step_noLine hu rfl rfl, ihchildren hu hend hchildren,
        step_noLine hu' rfl (Builder.ends_other hend' htag), ihts hu' hend' hts,
        readLines_element, u.addLines_append]

/-! ### Text -/

namespace Unfinished

/-- Whether a part takes text and nothing else; an item takes lists too. -/
def takesTextOnly : Unfinished → Bool
  | item .. => false
  | u => u.takesText

theorem takesText_of_takesTextOnly {u : Unfinished} (h : u.takesTextOnly = true) :
    u.takesText = true := by
  cases u <;> first | exact h | rfl

@[simp] theorem takesTextOnly_addInlines (xs : List Inline) (u : Unfinished) :
    (u.addInlines xs).takesTextOnly = u.takesTextOnly := by
  cases u <;> rfl

theorem addInlines_append (xs ys : List Inline) (u : Unfinished) :
    u.addInlines (xs ++ ys) = (u.addInlines xs).addInlines ys := by
  cases u <;> simp [addInlines]

theorem addInlines_singleton (x : Inline) (u : Unfinished) : u.addInlines [x] = u.addInline x := by
  rw [addInlines_cons, addInlines_nil]

end Unfinished

@[simp] theorem nestingOf_addInlines (xs : List Inline) (u : Unfinished) (rest : List Unfinished) :
    nestingOf (u.addInlines xs :: rest) = nestingOf (u :: rest) := by
  cases u <;> rfl

/-- The start of an element of text, in a part that takes text. -/
theorem step_inlineStart {u : Unfinished} (hu : u.takesText = true) {tag : Tag}
    (htag : tag.isInline = true) (span : Span) :
    Builder.step text ⟨done, u :: rest⟩ (.start tag, span) =
      Builder.onText (.start tag) ⟨done, u :: rest⟩ := by
  rw [Builder.step_eq, if_neg (by simp [Builder.ends])]
  cases u with
  | item checked children sublist =>
      cases tag <;> first | rfl | exact absurd htag Bool.false_ne_true
  | _ => first | rfl | exact absurd hu Bool.false_ne_true

/-- An event that does not end the part, in a part that takes nothing but text. -/
theorem step_text {u : Unfinished} (hu : u.takesTextOnly = true) {e : Event}
    (hends : Builder.ends ⟨done, u :: rest⟩ e = false) (span : Span) :
    Builder.step text ⟨done, u :: rest⟩ (e, span) = Builder.onText e ⟨done, u :: rest⟩ := by
  rw [Builder.step_eq, hends, if_neg Bool.false_ne_true]
  cases u <;> first | rfl | exact absurd hu Bool.false_ne_true

theorem onText_alone {e : Event} (h : standsAlone e = true) (u : Unfinished) :
    Builder.onText e ⟨done, u :: rest⟩ =
      ⟨done, u.addInlines (Builder.inlineLeaf? e).toList :: rest⟩ := by
  cases e with
  | start tag | stop tag => exact absurd h Bool.false_ne_true
  | text value | code value | inlineHtml value | softBreak | hardBreak =>
      exact congrArg (fun v => Builder.mk done (v :: rest)) (u.addInlines_singleton _).symm
  | _ =>
      -- The other events are no elements of text, so nothing is added.
      exact congrArg (fun v => Builder.mk done (v :: rest)) u.addInlines_nil.symm

/-- What the part of an element of text is, and what becomes of it. -/
structure IsPartOf (tag : Tag) (part : Unfinished) : Prop where
  begins : Builder.inlinePart? tag = some part
  takesTextOnly : part.takesTextOnly = true
  nests : part.nests = true
  awaits : part.awaits = some tag.toEnd
  added : ∀ (xs : List Inline) (done : List Node) (u : Unfinished) (rest : List Unfinished),
    Builder.addPart (part.addInlines xs) ⟨done, u :: rest⟩ =
      ⟨done, u.addInlines (wrapped tag xs) :: rest⟩

theorem exists_isPartOf {tag : Tag} (h : tag.isInline = true) : ∃ part, IsPartOf tag part := by
  have hadded : ∀ (x : Inline) (done : List Node) (u : Unfinished) (rest : List Unfinished),
      Builder.addInline x ⟨done, u :: rest⟩ = ⟨done, u.addInlines [x] :: rest⟩ := by
    intro x done u rest
    rw [u.addInlines_singleton]
    rfl
  cases tag with
  | strong | emphasis | delete | link url title | image url title =>
      refine ⟨_, rfl, rfl, rfl, rfl, fun xs done u rest => ?_⟩
      simp [Unfinished.addInlines, Builder.addPart, wrapped, hadded]
  | _ => exact absurd h Bool.false_ne_true

/-- An element of text in a part that takes text, when the children lead from the part that it
begins to this part with what is read of them added. -/
theorem run_inlineElement {u : Unfinished} {tag : Tag} {children : List EventTree} {room : Nat}
    (hu : u.takesText = true) (htag : tag.isInline = true)
    (hroom : nestingOf (u :: rest) + room = maxNesting)
    (hchildren : ∀ room part, IsPartOf tag part →
      nestingOf (part :: u :: rest) + room = maxNesting →
        Builder.run text ⟨done, part :: u :: rest⟩ children =
          ⟨done, part.addInlines (readInlines room children) :: u :: rest⟩)
    (span stop : Span) (ts : List EventTree) :
    Builder.run text ⟨done, u :: rest⟩ (.element tag span children stop :: ts) =
      Builder.run text ⟨done, u.addInlines
        ((EventTree.element tag span children stop).readInlines room) :: rest⟩ ts := by
  obtain ⟨part, hpart⟩ := exists_isPartOf htag
  rw [Builder.run_element, step_inlineStart hu htag, Builder.onText, hpart.begins]
  cases room with
  | zero =>
      rw [EventTree.readInlines, if_pos htag]
      have hfull : maxNesting ≤ Builder.nesting ⟨done, u :: rest⟩ := Nat.le_of_eq hroom.symm
      have hjoined : Unfinished.joined ((readFlat children).reverse ++ []) =
          String.join (readFlat children) := by
        rw [Unfinished.joined, List.append_nil, List.reverse_reverse]
      simp only [if_pos hfull, Builder.enter]
      rw [run_flat children [] Nat.one_pos, step_flat_stop, hjoined, u.addInlines_singleton]
      rfl
  | succ room =>
      rw [EventTree.readInlines, if_pos htag]
      have hnot : ¬ maxNesting ≤ Builder.nesting ⟨done, u :: rest⟩ := by
        change ¬ maxNesting ≤ nestingOf (u :: rest)
        omega
      have hroom' : nestingOf (part :: u :: rest) + room = maxNesting := by
        rw [nestingOf_cons_of_nests hpart.nests]
        omega
      simp only [if_neg hnot, Builder.enter]
      rw [hchildren room part hpart hroom',
        Builder.step_stop ((part.awaits_addInlines _).trans hpart.awaits), hpart.added]

/-- Trees lead from a part that takes nothing but text to this part with what is read of them
added. -/
theorem run_text (ts : List EventTree) {u : Unfinished} {rest : List Unfinished} {tagEnd : TagEnd}
    {room : Nat} (hu : u.takesTextOnly = true) (hend : u.awaits = some tagEnd)
    (hroom : nestingOf (u :: rest) + room = maxNesting)
    (hfits : treesFit (.text tagEnd) ts = true) :
    Builder.run text ⟨done, u :: rest⟩ ts = ⟨done, u.addInlines (readInlines room ts) :: rest⟩ := by
  induction ts using trees_induction generalizing u rest tagEnd room with
  | nil => rw [Builder.run_nil, readInlines, u.addInlines_nil]
  | single e alone span ts ih =>
      rw [Builder.run_single, step_text hu (Builder.ends_alone alone), onText_alone alone,
        ih (by simpa using hu) (by simpa using hend) (by simpa using hroom) hfits,
        ← u.addInlines_append]
      rfl
  | element tag span children stop ts ihchildren ihts =>
      obtain ⟨⟨inner, hinner, hchildren⟩, hts⟩ := fits_element_iff.mp hfits
      have hbehind : ∀ xs, Builder.run text ⟨done, u.addInlines xs :: rest⟩ ts =
          ⟨done, u.addInlines (xs ++ readInlines room ts) :: rest⟩ := by
        intro xs
        rw [ihts (by simpa using hu) (by simpa using hend) (by simpa using hroom) hts,
          ← u.addInlines_append]
      by_cases htag : tag.isInline = true
      · obtain rfl : .text tag.toEnd = inner := by simpa [Place.within?, htag] using hinner
        rw [run_inlineElement (Unfinished.takesText_of_takesTextOnly hu) htag hroom
          (fun room part hpart hroom =>
            ihchildren hpart.takesTextOnly hpart.awaits hroom hchildren), hbehind]
        rfl
      · obtain ⟨hother, rfl⟩ : tag.toEnd ≠ tagEnd ∧ .text tagEnd = inner := by
          simpa [Place.within?, htag] using hinner
        have hnone : Builder.inlinePart? tag = none := by
          cases tag <;> first | rfl | exact absurd rfl htag
        have hstart : Builder.step text ⟨done, u :: rest⟩ (.start tag, span) =
            ⟨done, u :: rest⟩ := by
          rw [step_text hu rfl, Builder.onText, hnone]
        have hstop : ∀ xs, Builder.step text ⟨done, u.addInlines xs :: rest⟩
            (.stop tag.toEnd, stop) = ⟨done, u.addInlines xs :: rest⟩ := by
          intro xs
          rw [step_text (by simpa using hu)
            (Builder.ends_other ((u.awaits_addInlines xs).trans hend) hother)]
          rfl
        rw [Builder.run_element, hstart, ihchildren hu hend hroom hchildren, hstop, hbehind,
          readInlines, readInlines_through htag]

end

end BlockDoc.Node
