import BlockDoc.Proofs.Node.Build
import BlockDoc.Proofs.Node.Passage

/-!
Runs of the builder over events of which only some have a stretch. `Leads text
es b b'` says that the events `es` lead the builder from `b` to `b'`, wherever
those without a stretch stand; runs are put together step by step. The elements
of a text lead from a part that takes text to this part with the elements added,
as long as they do not nest too deep.
-/

namespace BlockDoc.Node

open Markdown (CellAlignment Event Located Tag TagEnd inlineEvents inlinesEvents)

/-! ### Runs -/

/-- Whether events lead a builder from one state to another. -/
def Leads (text : List Char) (es : Sketch) (b b' : Builder) : Prop :=
  ∀ located, Shows es located → located.foldl (Builder.step text) b = b'

theorem Shows.append {es es' : Sketch} {located : List Located} (h : Shows (es ++ es') located) :
    ∃ l l', located = l ++ l' ∧ Shows es l ∧ Shows es' l' := by
  induction es generalizing located with
  | nil => exact ⟨[], located, rfl, .nil, h⟩
  | cons x es ih =>
      cases h with
      | @cons _ e _ _ hx hrest =>
          obtain ⟨l, l', rfl, hl, hl'⟩ := ih hrest
          exact ⟨e :: l, l', rfl, .cons hx hl, hl'⟩

namespace Leads

variable {text : List Char} {es es' : Sketch} {b b₁ b₂ : Builder} {e : Event} {span : Span}

theorem nil : Leads text [] b b := by
  intro located h
  cases h
  rfl

theorem placed (h : b.step text (e, span) = b₁) (hrest : Leads text es b₁ b₂) :
    Leads text ((e, some span) :: es) b b₂ := by
  intro located hshows
  cases hshows with
  | @cons _ x _ _ hx hl =>
      obtain ⟨e', span'⟩ := x
      obtain rfl : e' = e := hx.event
      obtain rfl : span' = span := hx.span span rfl
      rw [List.foldl_cons, h]
      exact hrest _ hl

theorem free (h : ∀ span, b.step text (e, span) = b₁) (hrest : Leads text es b₁ b₂) :
    Leads text ((e, none) :: es) b b₂ := by
  intro located hshows
  cases hshows with
  | @cons _ x _ _ hx hl =>
      obtain ⟨e', span'⟩ := x
      obtain rfl : e' = e := hx.event
      rw [List.foldl_cons, h]
      exact hrest _ hl

theorem append (h : Leads text es b b₁) (h' : Leads text es' b₁ b₂) :
    Leads text (es ++ es') b b₂ := by
  intro located hshows
  obtain ⟨l, l', rfl, hl, hl'⟩ := hshows.append
  rw [List.foldl_append, h l hl, h' l' hl']

/-- One event that may stand anywhere. -/
theorem single (h : ∀ span, b.step text (e, span) = b₁) : Leads text [(e, none)] b b₁ :=
  free h nil

end Leads

/-! ### Parts that take text -/

namespace Unfinished

/-- Whether elements of text may stand in a part. -/
def takesText : Unfinished → Bool
  | heading .. | paragraph .. | cell _ | item .. | itemText _ | strong _ | emphasis _ | delete _
  | link .. | image .. => true
  | _ => false

/-- Adds elements of text, in order, to a part that holds text. -/
def addInlines (xs : List Inline) : Unfinished → Unfinished
  | heading p depth anchor children => heading p depth anchor (xs.reverse ++ children)
  | paragraph p children => paragraph p (xs.reverse ++ children)
  | cell children => cell (xs.reverse ++ children)
  | item checked children sublist => item checked (xs.reverse ++ children) sublist
  | itemText children => itemText (xs.reverse ++ children)
  | strong children => strong (xs.reverse ++ children)
  | emphasis children => emphasis (xs.reverse ++ children)
  | delete children => delete (xs.reverse ++ children)
  | link url title children => link url title (xs.reverse ++ children)
  | image url title children => image url title (xs.reverse ++ children)
  | part => part

theorem addInlines_nil (u : Unfinished) : u.addInlines [] = u := by
  cases u <;> rfl

@[simp] theorem awaits_addInlines (xs : List Inline) (u : Unfinished) :
    (u.addInlines xs).awaits = u.awaits := by
  cases u <;> rfl

theorem addInlines_cons (x : Inline) (xs : List Inline) (u : Unfinished) :
    u.addInlines (x :: xs) = (u.addInline x).addInlines xs := by
  cases u <;> simp [addInlines, addInline]

@[simp] theorem takesText_addInline (x : Inline) (u : Unfinished) :
    (u.addInline x).takesText = u.takesText := by
  cases u <;> rfl

end Unfinished

/-- The number of quotes, lists and elements of text among open parts. -/
def nestingOf (parts : List Unfinished) : Nat := parts.countP Unfinished.nests

theorem nestingOf_cons_of_nests {u : Unfinished} (hu : u.nests = true) (rest : List Unfinished) :
    nestingOf (u :: rest) = nestingOf rest + 1 :=
  List.countP_cons_of_pos hu

theorem nestingOf_cons_of_not_nests {u : Unfinished} (hu : u.nests = false)
    (rest : List Unfinished) : nestingOf (u :: rest) = nestingOf rest :=
  List.countP_cons_of_neg (by simp [hu])

@[simp] theorem nestingOf_addInline (x : Inline) (u : Unfinished) (rest : List Unfinished) :
    nestingOf (u.addInline x :: rest) = nestingOf (u :: rest) := by
  cases u <;> rfl

namespace Builder

variable {text : List Char} {done : List Node} {u part : Unfinished} {rest : List Unfinished}

/-- An event that is an element of text by itself. -/
theorem step_leaf (hu : u.takesText = true) {e : Event} {x : Inline} (he : inlineLeaf? e = some x)
    (span : Span) : step text ⟨done, u :: rest⟩ (e, span) = ⟨done, u.addInline x :: rest⟩ := by
  cases e with
  | text value | code value | inlineHtml value | softBreak | hardBreak =>
      obtain rfl := Option.some.inj he
      cases u <;> first | rfl | exact absurd hu Bool.false_ne_true
  | _ => exact absurd he (Option.some_ne_none x).symm

/-- The start of an element of text with children that does not lie too deep. -/
theorem step_part (hu : u.takesText = true) {tag : Tag} (htag : inlinePart? tag = some part)
    (hroom : nestingOf (u :: rest) < maxNesting) (span : Span) :
    step text ⟨done, u :: rest⟩ (.start tag, span) = ⟨done, part :: u :: rest⟩ := by
  have hnot : ¬ maxNesting ≤ nesting ⟨done, u :: rest⟩ := Nat.not_le.mpr hroom
  have htext : onText (.start tag) ⟨done, u :: rest⟩ = ⟨done, part :: u :: rest⟩ := by
    simp only [onText, htag, if_neg hnot, enter]
  have hinline : tag.isInline = true := by
    cases tag <;> first | rfl | exact absurd htag (Option.some_ne_none part).symm
  rw [← htext, step_eq, if_neg (by simp [ends])]
  cases u with
  | item checked children sublist =>
      cases tag <;> first | rfl | exact absurd hinline Bool.false_ne_true
  | _ => first | rfl | exact absurd hu Bool.false_ne_true

/-- The end that the innermost part waits for. -/
theorem step_stop {tag : TagEnd} (hu : u.awaits = some tag) (span : Span) :
    step text ⟨done, u :: rest⟩ (.stop tag, span) = addPart u ⟨done, rest⟩ := by
  rw [step_eq, if_pos (by simp [ends, hu])]
  rfl

end Builder

/-! ### Elements of text -/

mutual

theorem inlineEvents_append (x : Inline) (es : List Event) :
    inlineEvents x es = inlineEvents x [] ++ es := by
  cases x with
  | text value | code value | html value | softBreak | hardBreak => rfl
  | strong children | emphasis children | delete children | link url title children
  | image url title children =>
      rw [inlineEvents, inlineEvents, inlinesEvents_append children (_ :: es),
        inlinesEvents_append children [_], List.cons_append, List.append_assoc,
        List.singleton_append]

theorem inlinesEvents_append (xs : List Inline) (es : List Event) :
    inlinesEvents xs es = inlinesEvents xs [] ++ es := by
  cases xs with
  | nil => rfl
  | cons x xs =>
      rw [inlinesEvents, inlinesEvents, inlineEvents_append x (inlinesEvents xs es),
        inlineEvents_append x (inlinesEvents xs []), inlinesEvents_append xs es,
        List.append_assoc]

end

theorem anywhere_append (es es' : List Event) :
    anywhere (es ++ es') = anywhere es ++ anywhere es' :=
  List.map_append

/-- The events of elements of text between a start and an end. -/
theorem anywhere_between (e e' : Event) (xs : List Inline) :
    anywhere (e :: inlinesEvents xs [e']) =
      (e, none) :: (anywhere (inlinesEvents xs []) ++ [(e', none)]) := by
  rw [inlinesEvents_append, anywhere, List.map_cons, List.map_append]
  rfl

variable {text : List Char} {done : List Node}

/-- An element of text with children, when the children lead from the part that it begins to this
part with the children added. -/
theorem leads_container {u part : Unfinished} {rest : List Unfinished} {tag : Tag} {tagEnd : TagEnd}
    {x : Inline} {children : List Inline} (hu : u.takesText = true)
    (htag : Builder.inlinePart? tag = some part) (hroom : nestingOf (u :: rest) < maxNesting)
    (hchildren : Leads text (anywhere (inlinesEvents children [])) ⟨done, part :: u :: rest⟩
      ⟨done, part.addInlines children :: u :: rest⟩)
    (hend : part.awaits = some tagEnd)
    (hadd : Builder.addPart (part.addInlines children) ⟨done, u :: rest⟩ =
      ⟨done, u.addInline x :: rest⟩) :
    Leads text (anywhere (.start tag :: inlinesEvents children [.stop tagEnd]))
      ⟨done, u :: rest⟩ ⟨done, u.addInline x :: rest⟩ := by
  rw [anywhere_between]
  refine .free (Builder.step_part hu htag hroom) (hchildren.append (.single fun span => ?_))
  rw [Builder.step_stop ((part.awaits_addInlines children).trans hend), hadd]

mutual

theorem leads_inline (x : Inline) {u : Unfinished} {rest : List Unfinished}
    (hu : u.takesText = true) (hroom : nestingOf (u :: rest) + inlineNesting x ≤ maxNesting) :
    Leads text (anywhere (inlineEvents x [])) ⟨done, u :: rest⟩ ⟨done, u.addInline x :: rest⟩ := by
  cases x with
  | text value | code value | html value | softBreak | hardBreak =>
      exact .single (Builder.step_leaf hu rfl)
  | strong children | emphasis children | delete children | link url title children
  | image url title children =>
      rw [inlineNesting] at hroom
      refine leads_container hu rfl (by omega) (leads_inlines children rfl ?_) rfl ?_
      · rw [nestingOf_cons_of_nests rfl]
        omega
      · simp [Unfinished.addInlines, Builder.addPart, Builder.addInline]

theorem leads_inlines (xs : List Inline) {u : Unfinished} {rest : List Unfinished}
    (hu : u.takesText = true) (hroom : nestingOf (u :: rest) + inlinesNesting xs ≤ maxNesting) :
    Leads text (anywhere (inlinesEvents xs [])) ⟨done, u :: rest⟩
      ⟨done, u.addInlines xs :: rest⟩ := by
  cases xs with
  | nil =>
      rw [u.addInlines_nil]
      exact .nil
  | cons x xs =>
      rw [inlinesNesting] at hroom
      rw [inlinesEvents, inlineEvents_append, anywhere_append, u.addInlines_cons]
      refine .append (leads_inline x hu (by omega)) (leads_inlines xs (by simpa using hu) ?_)
      rw [nestingOf_addInline]
      omega

end

/-- Text up to the end that its part waits for. -/
theorem leads_text {u : Unfinished} {rest : List Unfinished} {tag : TagEnd} {xs : List Inline}
    {b : Builder} (hu : u.takesText = true) (hend : u.awaits = some tag)
    (hroom : nestingOf (u :: rest) + inlinesNesting xs ≤ maxNesting)
    (hadd : Builder.addPart (u.addInlines xs) ⟨done, rest⟩ = b) :
    Leads text (anywhere (inlinesEvents xs [.stop tag])) ⟨done, u :: rest⟩ b := by
  rw [inlinesEvents_append, anywhere_append, ← hadd]
  exact (leads_inlines xs hu hroom).append
    (.single (Builder.step_stop ((u.awaits_addInlines xs).trans hend)))

end BlockDoc.Node
