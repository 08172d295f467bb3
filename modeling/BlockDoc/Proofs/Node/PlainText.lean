import BlockDoc.Proofs.Node.Descent

/-!
Plain text and the nesting limit. Of an element of text that lies too deep only
the text is kept, read off its events one after another; of the others a tree is
built, and the plain text is read off the tree. Both are the same text, so the
depth at which a text stands changes neither its plain text nor where it ends.
-/

namespace BlockDoc

open Markdown (Event Located Tag TagEnd)

/-! ### Plain text of elements -/

namespace Inline

theorem plainText_append (xs ys : List Inline) :
    plainText (xs ++ ys) = plainText xs ++ plainText ys := by
  induction xs with
  | nil => exact String.empty_append.symm
  | cons x xs ih => rw [List.cons_append, plainText, plainText, ih, String.append_assoc]

theorem plainText_singleton (x : Inline) : plainText [x] = plain x := by
  rw [plainText, plainText, String.append_empty]

end Inline

namespace Node

open Inline (plainText)

/-- An element of text has the plain text of its children. -/
theorem plainText_wrapped (tag : Tag) (xs : List Inline) :
    plainText (wrapped tag xs) = plainText xs := by
  cases tag with
  | strong | emphasis | delete | link url title | image url title =>
      rw [wrapped, Inline.plainText_singleton, Inline.plain]
  | _ => rfl

/-- An event that stands alone has the text that is kept of it. -/
theorem plainText_leaf {e : Event} (h : standsAlone e = true) :
    plainText (Builder.inlineLeaf? e).toList = String.join (Builder.flatText e) := by
  cases e with
  | start tag | stop tag => exact absurd h Bool.false_ne_true
  | text value | code value =>
      rw [Builder.flatText, String.join_cons, String.join_nil, String.append_empty]
      exact Inline.plainText_singleton _
  | _ => rfl

/-- The plain text of what is read of trees is the text that is kept of them, whatever the room. -/
theorem plainText_readInlines (ts : List EventTree) (room : Nat) :
    plainText (readInlines room ts) = String.join (readFlat ts) := by
  induction ts using trees_induction generalizing room with
  | nil => rfl
  | single e alone span ts ih =>
      rw [readInlines, EventTree.readInlines, Inline.plainText_append, plainText_leaf alone, ih,
        readFlat_single, String.join_append]
  | element tag span children stop ts hchildren hts =>
      have hfirst : plainText ((EventTree.element tag span children stop).readInlines room) =
          String.join (readFlat children) := by
        by_cases htag : tag.isInline = true
        · cases room with
          | zero =>
              rw [EventTree.readInlines, if_pos htag, Inline.plainText_singleton, Inline.plain]
          | succ room => rw [EventTree.readInlines, if_pos htag, plainText_wrapped, hchildren]
        · rw [readInlines_through htag, hchildren]
      rw [readInlines, Inline.plainText_append, hfirst, hts, readFlat_element, String.join_append]

theorem plainText_readInlines_element (room : Nat) (tag : Tag) (span stop : Span)
    (children : List EventTree) :
    plainText ((EventTree.element tag span children stop).readInlines room) =
      String.join (readFlat children) := by
  have hlist := plainText_readInlines [.element tag span children stop] room
  have hnil : readFlat [] = [] := rfl
  rwa [readInlines, readInlines, List.append_nil, readFlat_element, hnil, List.append_nil] at hlist

/-! ### Collectors over trees -/

/-- What is taken is something, and then what is taken of other events. -/
structure Taken.Continues {α : Type} {es es' : List Located} (t : Taken (List α) es)
    (front : List α) (t' : Taken (List α) es') : Prop where
  value : t.value = front ++ t'.value
  rest : t.rest = t'.rest

namespace Taken.Continues

variable {α : Type} {es es' es'' : List Located} {t : Taken (List α) es} {t' : Taken (List α) es'}
  {t'' : Taken (List α) es''}

theorem refl (t : Taken (List α) es) : t.Continues [] t := ⟨rfl, rfl⟩

theorem trans {xs ys : List α} (h : t.Continues xs t') (h' : t'.Continues ys t'') :
    t.Continues (xs ++ ys) t'' :=
  ⟨by rw [h.value, h'.value, List.append_assoc], h.rest.trans h'.rest⟩

end Taken.Continues

theorem treesEvents_element_append (tag : Tag) (span stop : Span) (children ts : List EventTree)
    (more : List Located) :
    treesEvents (.element tag span children stop :: ts) ++ more =
      (.start tag, span) :: (treesEvents children ++ (.stop tag.toEnd, stop) ::
        (treesEvents ts ++ more)) := by
  simp [treesEvents, EventTree.events]

theorem collectElement_cons {e : Event} (waiting : Nat)
    (h : 0 < Builder.waitingAfter waiting e) (span : Span) (es : List Located) :
    (collectElement waiting ((e, span) :: es)).Continues (Builder.flatText e)
      (collectElement (Builder.waitingAfter waiting e) es) := by
  rw [collectElement, if_neg (Nat.ne_of_gt h)]
  exact ⟨rfl, rfl⟩

/-- Trees do not end an element. -/
theorem collectElement_trees (ts : List EventTree) {waiting : Nat} (h : 0 < waiting)
    (more : List Located) :
    (collectElement waiting (treesEvents ts ++ more)).Continues (readFlat ts)
      (collectElement waiting more) := by
  induction ts using trees_induction generalizing waiting more with
  | nil => exact .refl _
  | single e alone span ts ih =>
      have hwaiting := waitingAfter_alone alone waiting
      have hfirst := collectElement_cons waiting (hwaiting.symm ▸ h) span (treesEvents ts ++ more)
      rw [hwaiting] at hfirst
      rw [readFlat_single]
      exact hfirst.trans (ih h more)
  | element tag span children stop ts hchildren hts =>
      have hstart := collectElement_cons (e := .start tag) waiting (Nat.succ_pos waiting) span
        (treesEvents children ++ (.stop tag.toEnd, stop) :: (treesEvents ts ++ more))
      have hstop := collectElement_cons (e := .stop tag.toEnd) (waiting + 1) h stop
        (treesEvents ts ++ more)
      rw [treesEvents_element_append, readFlat_element]
      exact hstart.trans ((hchildren (Nat.succ_pos waiting) _).trans (hstop.trans (hts h more)))

/-- The end of an element, which is taken with it. -/
theorem collectElement_stop (tagEnd : TagEnd) (stop : Span) (es : List Located) :
    (collectElement 1 ((.stop tagEnd, stop) :: es)).value = [] ∧
      (collectElement 1 ((.stop tagEnd, stop) :: es)).rest = es :=
  ⟨rfl, rfl⟩

section

variable (depth : Nat)

theorem collectInlines_cons (tagEnd : TagEnd) {e : Event} (h : e ≠ .stop tagEnd)
    {es es' : List Located} {xs : List Inline} (hvalue : (collectInline depth e es).value = xs)
    (hrest : (collectInline depth e es).rest = es') (span : Span) :
    (collectInlines depth tagEnd ((e, span) :: es)).Continues xs
      (collectInlines depth tagEnd es') := by
  subst hvalue hrest
  rw [collectInlines, if_neg h]
  exact ⟨rfl, rfl⟩

theorem collectInlines_stop (tagEnd : TagEnd) (stop : Span) (es : List Located) :
    (collectInlines depth tagEnd ((.stop tagEnd, stop) :: es)).value = [] ∧
      (collectInlines depth tagEnd ((.stop tagEnd, stop) :: es)).rest = es := by
  rw [collectInlines, if_pos rfl]
  exact ⟨rfl, rfl⟩

/-- An event that begins no element of text is taken by itself. -/
theorem collectInline_other {e : Event} (h : ∀ tag, e = .start tag → ¬ tag.isInline = true)
    (es : List Located) :
    (collectInline depth e es).value = (Builder.inlineLeaf? e).toList ∧
      (collectInline depth e es).rest = es := by
  cases e with
  | start tag =>
      rw [collectInline, if_neg (h tag rfl)]
      exact ⟨rfl, rfl⟩
  | _ =>
      rw [collectInline]
      · exact ⟨rfl, rfl⟩
      · rintro _ ⟨⟩

/-- An element of text, when its children are read before the end that belongs to it. -/
theorem collectInline_element {tag : Tag} (htag : tag.isInline = true)
    {children : List EventTree} {stop : Span} {more : List Located}
    (hchildren : (collectInlines (depth + 1) tag.toEnd
        (treesEvents children ++ (.stop tag.toEnd, stop) :: more)).Continues
          (readInlines (maxNesting - (depth + 1)) children)
          (collectInlines (depth + 1) tag.toEnd ((.stop tag.toEnd, stop) :: more)))
    (span : Span) :
    (collectInline depth (.start tag)
        (treesEvents children ++ (.stop tag.toEnd, stop) :: more)).value =
          (EventTree.element tag span children stop).readInlines (maxNesting - depth) ∧
      (collectInline depth (.start tag)
        (treesEvents children ++ (.stop tag.toEnd, stop) :: more)).rest = more := by
  rw [collectInline, if_pos htag]
  split_ifs with hfull
  · have hflat := collectElement_trees children Nat.one_pos ((.stop tag.toEnd, stop) :: more)
    have hvalue := hflat.value
    rw [(collectElement_stop tag.toEnd stop more).1, List.append_nil] at hvalue
    rw [Nat.sub_eq_zero_of_le hfull, EventTree.readInlines, if_pos htag]
    exact ⟨congrArg (fun texts => [Inline.text (String.join texts)]) hvalue, hflat.rest⟩
  · have hvalue := hchildren.value
    rw [(collectInlines_stop (depth + 1) tag.toEnd stop more).1, List.append_nil] at hvalue
    have hroom : maxNesting - depth = maxNesting - (depth + 1) + 1 := by omega
    rw [hroom, EventTree.readInlines, if_pos htag]
    exact ⟨congrArg (wrapped tag) hvalue,
      hchildren.rest.trans (collectInlines_stop (depth + 1) tag.toEnd stop more).2⟩

/-- Where text is expected, trees whose elements fit are read before what stands behind them. -/
theorem collectInlines_trees (ts : List EventTree) {tagEnd : TagEnd}
    (hfits : treesFit (.text tagEnd) ts = true) (more : List Located) :
    (collectInlines depth tagEnd (treesEvents ts ++ more)).Continues
      (readInlines (maxNesting - depth) ts) (collectInlines depth tagEnd more) := by
  induction ts using trees_induction generalizing depth tagEnd more with
  | nil => exact .refl _
  | single e alone span ts ih =>
      have hstop : e ≠ .stop tagEnd := by
        rintro rfl
        exact absurd alone Bool.false_ne_true
      obtain ⟨hvalue, hrest⟩ := collectInline_other depth (e := e)
        (by rintro tag rfl; exact absurd alone Bool.false_ne_true) (treesEvents ts ++ more)
      exact (collectInlines_cons depth tagEnd hstop hvalue hrest span).trans (ih depth hfits more)
  | element tag span children stop ts ihchildren ihts =>
      obtain ⟨⟨inner, hinner, hchildren⟩, hts⟩ := fits_element_iff.mp hfits
      have hstart : Event.start tag ≠ .stop tagEnd := by rintro ⟨⟩
      rw [treesEvents_element_append]
      by_cases htag : tag.isInline = true
      · obtain rfl : .text tag.toEnd = inner := by simpa [Place.within?, htag] using hinner
        obtain ⟨hvalue, hrest⟩ := collectInline_element depth htag
          (ihchildren (depth + 1) hchildren ((.stop tag.toEnd, stop) :: (treesEvents ts ++ more)))
          span
        exact (collectInlines_cons depth tagEnd hstart hvalue hrest span).trans (ihts depth hts more)
      · obtain ⟨hother, rfl⟩ : tag.toEnd ≠ tagEnd ∧ .text tagEnd = inner := by
          simpa [Place.within?, htag] using hinner
        obtain ⟨hvalue, hrest⟩ := collectInline_other depth (e := .start tag)
          (by rintro _ ⟨⟩; exact htag)
          (treesEvents children ++ (.stop tag.toEnd, stop) :: (treesEvents ts ++ more))
        obtain ⟨hvalue', hrest'⟩ := collectInline_other depth (e := .stop tag.toEnd)
          (by rintro _ ⟨⟩) (treesEvents ts ++ more)
        have hthrough := collectInlines_cons depth tagEnd hstart hvalue hrest span
        have hstop := collectInlines_cons depth tagEnd (fun heq => hother (Event.stop.inj heq))
          hvalue' hrest' stop
        rw [readInlines, readInlines_through htag]
        exact hthrough.trans
          ((ihchildren depth hchildren _).trans (hstop.trans (ihts depth hts more)))

end

/-! ### Text within the limit and beyond it -/

/-- Whether an event is an element of text, or begins or ends one. Marks of footnotes and formulas
stand in text as well. -/
def isTextEvent : Event → Bool
  | .start tag => tag.isInline
  | .stop .strong | .stop .emphasis | .stop .delete | .stop .link | .stop .image => true
  | .stop _ => false
  | .footnoteReference _ | .inlineMath _ | .displayMath _ => true
  | e => (Builder.inlineLeaf? e).isSome

/-- Where text is expected elements of text fit. -/
theorem treesFit_of_isTextEvent (ts : List EventTree) (tagEnd : TagEnd)
    (h : ∀ e ∈ treesEvents ts, isTextEvent e.1 = true) : treesFit (.text tagEnd) ts = true := by
  induction ts using trees_induction generalizing tagEnd with
  | nil => rfl
  | single e alone span ts ih => exact ih tagEnd (List.forall_mem_cons.mp h).2
  | element tag span children stop ts hchildren hts =>
      rw [← List.append_nil (treesEvents _), treesEvents_element_append, List.append_nil,
        List.forall_mem_cons, List.forall_mem_append, List.forall_mem_cons] at h
      obtain ⟨hstart, hwithin, -, hbehind⟩ := h
      have htag : tag.isInline = true := hstart
      refine fits_element_iff.mpr ⟨⟨.text tag.toEnd, ?_, hchildren tag.toEnd hwithin⟩, hts tagEnd
        hbehind⟩
      rw [Place.within?, if_pos htag]

/-- What is taken of events where text is expected, up to an end, does not depend on the depth but
for the form of the elements. -/
structure SameTextAtEveryDepth (tagEnd : TagEnd) (es behind : List Located) : Prop where
  rest : ∀ depth, (collectInlines depth tagEnd es).rest = behind
  text : ∀ depth depth', plainText (collectInlines depth tagEnd es).value =
    plainText (collectInlines depth' tagEnd es).value
  /-- The text that is kept of an element that lies too deep is that of the elements in it. -/
  flat_rest : (collectElement 1 es).rest = behind
  flat_text : ∀ depth, String.join (collectElement 1 es).value =
    plainText (collectInlines depth tagEnd es).value
  /-- So an element that ends here has the same text, whether it lies too deep or not. -/
  element : ∀ tag, tag.isInline = true → tag.toEnd = tagEnd → ∀ depth depth',
    plainText (collectInline depth (.start tag) es).value =
        plainText (collectInline depth' (.start tag) es).value ∧
      (collectInline depth (.start tag) es).rest = behind
  /-- The builder goes on behind the end with what is collected at its nesting. -/
  builder : ∀ (text : List Char) (done : List Node) (u : Unfinished) (parts : List Unfinished),
    u.takesTextOnly = true → u.awaits = some tagEnd →
      Builder.outcome text ⟨done, u :: parts⟩ es = Builder.outcome text
        (Builder.addPart (u.addInlines (collectInlines (nestingOf (u :: parts)) tagEnd es).value)
          ⟨done, parts⟩) behind
  builder_flat : ∀ (text : List Char) (done : List Node) (parts : List Unfinished) (depth : Nat),
    Builder.outcome text ⟨done, .flat 1 [] :: parts⟩ es = Builder.outcome text
      (Builder.addInline (.text (plainText (collectInlines depth tagEnd es).value)) ⟨done, parts⟩)
      behind

/-- The nesting limit changes neither the plain text of well-nested elements of text nor where they
end. -/
theorem nesting_limit_keeps_text {es : List Located} (hnested : closes [] es = true)
    (htext : ∀ e ∈ es, isTextEvent e.1 = true) (tagEnd : TagEnd) (stop : Span)
    (behind : List Located) :
    SameTextAtEveryDepth tagEnd (es ++ (.stop tagEnd, stop) :: behind) behind := by
  obtain ⟨ts, rfl⟩ := (closes_iff_exists_trees es).mp hnested
  have hflat := collectElement_trees ts Nat.one_pos ((.stop tagEnd, stop) :: behind)
  have hvalue := hflat.value
  rw [(collectElement_stop tagEnd stop behind).1, List.append_nil] at hvalue
  have hinlines := fun depth => collectInlines_trees depth ts
    (treesFit_of_isTextEvent ts tagEnd htext) ((.stop tagEnd, stop) :: behind)
  have hplain : ∀ depth, plainText (collectInlines depth tagEnd
      (treesEvents ts ++ (.stop tagEnd, stop) :: behind)).value = String.join (readFlat ts) := by
    intro depth
    rw [(hinlines depth).value, (collectInlines_stop depth tagEnd stop behind).1, List.append_nil,
      plainText_readInlines]
  have hrest : ∀ depth, (collectInlines depth tagEnd
      (treesEvents ts ++ (.stop tagEnd, stop) :: behind)).rest = behind := fun depth =>
    (hinlines depth).rest.trans (collectInlines_stop depth tagEnd stop behind).2
  refine ⟨hrest, ?_, hflat.rest, ?_, ?_, ?_, ?_⟩
  · intro depth depth'
    rw [hplain, hplain]
  · intro depth
    rw [hvalue, hplain]
  · rintro tag htag rfl depth depth'
    have hread := fun depth => collectInline_element depth htag
      (collectInlines_trees (depth + 1) ts (treesFit_of_isTextEvent ts tag.toEnd htext)
        ((.stop tag.toEnd, stop) :: behind)) stop
    rw [(hread depth).1, (hread depth').1, plainText_readInlines_element,
      plainText_readInlines_element]
    exact ⟨rfl, (hread depth).2⟩
  · intro text done u parts hu hend
    rw [outcome_collectInlines _ hu hend, hrest]
  · intro text done parts depth
    rw [outcome_flat, List.append_nil, Unfinished.joined, List.reverse_reverse, hvalue, hplain]
    exact congrArg _ hflat.rest

/-- Text with an image in emphasized text. -/
def emphasizedImage : List Located :=
  [.text "a", .softBreak, .start .emphasis, .code "b", .start (.image "c" ""), .text "d",
    .inlineHtml "<e>", .stop .image, .hardBreak, .stop .emphasis].map (·, default)

theorem nesting_limit_keeps_text_of_emphasizedImage :
    closes [] emphasizedImage = true ∧ (∀ e ∈ emphasizedImage, isTextEvent e.1 = true) ∧
      SameTextAtEveryDepth .paragraph
        (emphasizedImage ++ [(.stop .paragraph, default)]) [] := by
  have hnested : closes [] emphasizedImage = true := by decide
  have htext : ∀ e ∈ emphasizedImage, isTextEvent e.1 = true := by decide
  exact ⟨hnested, htext, nesting_limit_keeps_text hnested htext .paragraph _ []⟩

end Node

end BlockDoc
