import BlockDoc.Proofs.Node.Items
import BlockDoc.Proofs.Node.PlainText

/-!
The text of a list item. What stands directly in an item and the text of its
paragraphs become one text; a paragraph begins behind a soft break if the item
has text already. Nothing stands for the other blocks of an item. So between the
texts of two trees in an item there are as many soft breaks as paragraphs begin
behind the first, and bare text behind a block continues the text in front of
the block.
-/

namespace BlockDoc

/-- A soft or a hard break. -/
def Inline.isBreak : Inline → Bool
  | .softBreak | .hardBreak => true
  | _ => false

theorem Inline.plainText_softBreaks (n : Nat) :
    plainText (List.replicate n .softBreak) = String.ofList (List.replicate n ' ') := by
  induction n with
  | zero => rfl
  | succ n ih =>
      rw [List.replicate_succ, List.replicate_succ, plainText, plain, ih, String.ofList_cons]
      rfl

namespace Node

open Inline (plainText)
open Markdown (Event)

/-! ### What a tree adds to the text of an item -/

def EventTree.isParagraph : EventTree → Bool
  | .element .paragraph .. => true
  | _ => false

/-- Whether a tree is a block: a rule, or an element that is no element of text. -/
def EventTree.isBlock : EventTree → Bool
  | .single e _ _ => e = .rule
  | .element tag _ _ _ => !tag.isInline

/-- The text of a tree in an item. -/
def EventTree.ownText (room : Nat) : EventTree → List Inline
  | .single e _ _ => (Builder.inlineLeaf? e).toList
  | .element .paragraph _ children _ => Node.readInlines room children
  | .element tag span children stop =>
    if tag.isInline then (EventTree.element tag span children stop).readInlines room else []

/-- What stands in front of the text of a tree, behind other text of the item. -/
def EventTree.breakBefore (t : EventTree) : List Inline :=
  if t.isParagraph then [.softBreak] else []

/-- What a tree adds to an item that has text. -/
def EventTree.furtherText (room : Nat) (t : EventTree) : List Inline :=
  t.breakBefore ++ t.ownText room

/-- One tree adds its text to that of an item. -/
theorem text_readItem_tree (t : EventTree) (room : Nat) (x : Item) :
    (t.readItem room x).text =
      x.text ++ (if x.text.isEmpty then [] else t.breakBefore) ++ t.ownText room := by
  obtain ⟨checked, xs, l⟩ := x
  -- Nothing stands in front of what is no paragraph.
  have hbare : ∀ ys : List Inline, xs ++ (if xs.isEmpty then [] else []) ++ ys = xs ++ ys := by
    intro ys
    rw [ite_self, List.append_nil]
  cases t with
  | single e alone span =>
      refine Eq.trans ?_ (hbare _).symm
      cases e with
      | task state => exact (List.append_nil xs).symm
      | _ => rfl
  | element tag span children stop =>
      cases tag with
      | paragraph => rfl
      | list first =>
          refine Eq.trans ?_ (hbare []).symm
          cases room <;> exact (List.append_nil xs).symm
      | strong | emphasis | delete | link url title | image url title => exact (hbare _).symm
      | _ => exact (List.append_nil xs).symm.trans (hbare []).symm

/-- Trees add their texts to an item that has text, each paragraph behind a soft break. -/
theorem text_readItem (ts : List EventTree) (room : Nat) {x : Item} (h : x.text ≠ []) :
    (readItem room x ts).text = x.text ++ ts.flatMap (EventTree.furtherText room) := by
  induction ts generalizing x with
  | nil => exact (List.append_nil _).symm
  | cons t ts ih =>
      have htext : (t.readItem room x).text = x.text ++ t.furtherText room := by
        rw [text_readItem_tree, if_neg (by simpa using h), List.append_assoc]
        rfl
      have hne : (t.readItem room x).text ≠ [] := by
        rw [htext]
        exact List.append_ne_nil_of_left_ne_nil h _
      rw [readItem, ih hne, htext, List.flatMap_cons, List.append_assoc]

theorem readItem_append (ts ts' : List EventTree) (room : Nat) (x : Item) :
    readItem room x (ts ++ ts') = readItem room (readItem room x ts) ts' := by
  induction ts generalizing x with
  | nil => rfl
  | cons t ts ih => exact ih (t.readItem room x)

/-! ### Between the texts of two trees -/

/-- Whether the boundary of a block lies between the texts of two trees of an item. -/
def boundaryBetween (t : EventTree) (between : List EventTree) (t' : EventTree) : Bool :=
  t.isParagraph || between.any EventTree.isBlock || t'.isParagraph

/-- What stands in the text of an item between the texts of two trees. -/
def gap (room : Nat) (between : List EventTree) (t' : EventTree) : List Inline :=
  between.flatMap (EventTree.furtherText room) ++ t'.breakBefore

theorem any_isBreak_breakBefore (t : EventTree) :
    t.breakBefore.any Inline.isBreak = t.isParagraph := by
  rw [EventTree.breakBefore]
  cases t.isParagraph <;> rfl

/-- A break stands between two texts exactly when a paragraph begins behind the first, or other text
between them has one. -/
theorem any_isBreak_gap (room : Nat) (between : List EventTree) (t' : EventTree) :
    (gap room between t').any Inline.isBreak =
      ((between ++ [t']).any EventTree.isParagraph ||
        between.any fun t => (t.ownText room).any Inline.isBreak) := by
  have hfurther : ∀ t : EventTree, (t.furtherText room).any Inline.isBreak =
      (t.isParagraph || (t.ownText room).any Inline.isBreak) := by
    intro t
    rw [EventTree.furtherText, List.any_append, any_isBreak_breakBefore]
  rw [gap, List.any_append, any_isBreak_breakBefore, List.any_append, List.any_cons, List.any_nil,
    Bool.or_false]
  induction between with
  | nil => simp
  | cons t ts ih =>
      rw [List.flatMap_cons, List.any_append, hfurther, List.any_cons, List.any_cons,
        Bool.or_assoc, ih]
      ac_rfl

/-- Without other text between them, two texts have a break between them for each paragraph that
begins behind the first. -/
theorem gap_eq_softBreaks {room : Nat} {between : List EventTree}
    (h : ∀ t ∈ between, t.ownText room = []) (t' : EventTree) :
    gap room between t' =
      List.replicate ((between ++ [t']).countP EventTree.isParagraph) .softBreak := by
  have hbreak : ∀ t : EventTree,
      t.breakBefore = List.replicate ([t].countP EventTree.isParagraph) .softBreak := by
    intro t
    rw [EventTree.breakBefore, List.countP_singleton]
    cases t.isParagraph <;> rfl
  induction between with
  | nil => exact hbreak t'
  | cons t ts ih =>
      obtain ⟨ht, hts⟩ := List.forall_mem_cons.mp h
      have hrest := ih hts
      rw [gap] at hrest ⊢
      rw [List.flatMap_cons, EventTree.furtherText, ht, List.append_nil, List.append_assoc, hrest,
        hbreak, List.replicate_append_replicate, ← List.countP_append]
      rfl

/-! ### Texts that are kept apart -/

/-- Among the trees of an item there stands a break between any two texts that the boundary of a
block separates. -/
def TextsApart (room : Nat) (ts : List EventTree) : Prop :=
  ∀ front t between t' behind, ts = front ++ t :: (between ++ t' :: behind) →
    t.ownText room ≠ [] → t'.ownText room ≠ [] → boundaryBetween t between t' = true →
      (gap room between t').any Inline.isBreak = true

/-- Where the boundary of a block separates a text from the next one, a paragraph begins between
them. -/
def ParagraphsAtBoundaries (room : Nat) (ts : List EventTree) : Prop :=
  ∀ front t between t' behind, ts = front ++ t :: (between ++ t' :: behind) →
    t.ownText room ≠ [] → t'.ownText room ≠ [] → (∀ s ∈ between, s.ownText room = []) →
      boundaryBetween t between t' = true → (between ++ [t']).any EventTree.isParagraph = true

/-- Of the blocks of an item only paragraphs have text in it. -/
theorem isParagraph_of_isBlock {t : EventTree} {room : Nat} (hblock : t.isBlock = true)
    (htext : t.ownText room ≠ []) : t.isParagraph = true := by
  cases t with
  | single e alone span =>
      obtain rfl : e = .rule := of_decide_eq_true hblock
      exact absurd rfl htext
  | element tag span children stop =>
      cases tag with
      | paragraph => rfl
      | strong | emphasis | delete | link url title | image url title =>
          exact absurd hblock Bool.false_ne_true
      | _ => exact absurd rfl htext

/-- A boundary between two texts lies in front of a text between them, or behind it. -/
theorem boundaryBetween_split {t s t' : EventTree} {room : Nat} (hs : s.ownText room ≠ [])
    (before behind : List EventTree) (h : boundaryBetween t (before ++ s :: behind) t' = true) :
    boundaryBetween t before s = true ∨ boundaryBetween s behind t' = true := by
  have hparagraph : s.isBlock = true → s.isParagraph = true := fun hblock =>
    isParagraph_of_isBlock hblock hs
  simp only [boundaryBetween, List.any_append, List.any_cons, Bool.or_eq_true] at h ⊢
  tauto

/-- A text behind another one, with trees between them of which the first ones have no text. -/
theorem ParagraphsAtBoundaries.any_isBreak_gap {room : Nat} {ts : List EventTree}
    (h : ParagraphsAtBoundaries room ts) {t' : EventTree} {behind : List EventTree}
    (ht' : t'.ownText room ≠ []) (between : List EventTree) {front skipped : List EventTree}
    {t : EventTree} (hsplit : ts = front ++ t :: (skipped ++ between ++ t' :: behind))
    (ht : t.ownText room ≠ []) (hskipped : ∀ s ∈ skipped, s.ownText room = [])
    (hboundary : boundaryBetween t (skipped ++ between) t' = true) :
    (gap room (skipped ++ between) t').any Inline.isBreak = true := by
  induction between generalizing front skipped t with
  | nil =>
      rw [List.append_nil] at hsplit hboundary ⊢
      have hparagraph := h front t skipped t' behind hsplit ht ht' hskipped hboundary
      rw [Node.any_isBreak_gap, hparagraph, Bool.true_or]
  | cons s between ih =>
      by_cases hs : s.ownText room = []
      · have hmoved : skipped ++ s :: between = skipped ++ [s] ++ between := List.append_cons ..
        rw [hmoved] at hsplit hboundary ⊢
        refine ih hsplit ht ?_ hboundary
        rw [List.forall_mem_append]
        exact ⟨hskipped, by simpa using hs⟩
      · rw [Node.any_isBreak_gap]
        rcases boundaryBetween_split hs skipped between hboundary with hfirst | hsecond
        · have hnext : ts = front ++ t :: (skipped ++ s :: (between ++ t' :: behind)) := by
            rw [hsplit, List.append_assoc, List.cons_append]
          have hparagraph := h front t skipped s _ hnext ht hs hskipped hfirst
          simp only [List.any_append, List.any_cons, Bool.or_eq_true] at hparagraph ⊢
          tauto
        · have hnext : ts = (front ++ t :: skipped) ++ s :: ([] ++ between ++ t' :: behind) := by
            rw [hsplit]
            simp
          have hbreak := ih hnext hs (fun _ hmem => absurd hmem List.not_mem_nil) hsecond
          rw [Node.any_isBreak_gap] at hbreak
          simp only [List.nil_append, List.any_append, List.any_cons, Bool.or_eq_true] at hbreak ⊢
          tauto

/-- It is enough to look at texts that stand next to each other. -/
theorem textsApart_iff (room : Nat) (ts : List EventTree) :
    TextsApart room ts ↔ ParagraphsAtBoundaries room ts := by
  constructor
  · intro h front t between t' behind hsplit ht ht' hnone hboundary
    have hbreak := h front t between t' behind hsplit ht ht' hboundary
    have hno : between.any (fun s => (s.ownText room).any Inline.isBreak) = false := by
      rw [List.any_eq_false]
      intro s hs
      simp [hnone s hs]
    rwa [any_isBreak_gap, hno, Bool.or_false] at hbreak
  · intro h front t between t' behind hsplit ht ht' hboundary
    exact h.any_isBreak_gap ht' between hsplit ht (fun _ hmem => absurd hmem List.not_mem_nil)
      hboundary

/-! ### The text of an item -/

/-- The text that is read around the texts of two trees, the first of which has some. -/
theorem text_readItem_split (room : Nat) (x : Item) (front : List EventTree) {t : EventTree}
    (ht : t.ownText room ≠ []) (between : List EventTree) (t' : EventTree)
    (behind : List EventTree) :
    ∃ before, (readItem room x (front ++ t :: (between ++ t' :: behind))).text =
      before ++ (t.ownText room ++ (gap room between t' ++
        (t'.ownText room ++ behind.flatMap (EventTree.furtherText room)))) := by
  have hne : (t.readItem room (readItem room x front)).text ≠ [] := by
    rw [text_readItem_tree]
    exact List.append_ne_nil_of_right_ne_nil _ ht
  refine ⟨(readItem room x front).text ++
    (if (readItem room x front).text.isEmpty then [] else t.breakBefore), ?_⟩
  rw [readItem_append, readItem, text_readItem _ _ hne, text_readItem_tree, List.flatMap_append,
    List.flatMap_cons, EventTree.furtherText, gap]
  simp only [List.append_assoc]

/-- How the text of an item goes on behind the text of a tree in it, up to that of another tree. -/
structure TextGoesOn (x : Item) (room : Nat) (t : EventTree) (between : List EventTree)
    (t' : EventTree) (behind : List EventTree) : Prop where
  text : ∃ before,
    x.text = before ++ (t.ownText room ++ (gap room between t' ++ (t'.ownText room ++
        behind.flatMap (EventTree.furtherText room)))) ∧
      plainText x.text = plainText before ++ (plainText (t.ownText room) ++
        (plainText (gap room between t') ++ (plainText (t'.ownText room) ++
          plainText (behind.flatMap (EventTree.furtherText room)))))
  apart_iff : (gap room between t').any Inline.isBreak = true ↔
    (∃ p ∈ between ++ [t'], p.isParagraph = true) ∨
      ∃ s ∈ between, (s.ownText room).any Inline.isBreak = true
  next : (∀ s ∈ between, s.ownText room = []) → gap room between t' =
    List.replicate ((between ++ [t']).countP EventTree.isParagraph) .softBreak
  next_plain : (∀ s ∈ between, s.ownText room = []) → plainText (gap room between t') =
    String.ofList (List.replicate ((between ++ [t']).countP EventTree.isParagraph) ' ')

/-- In each item of the tree of well-nested events the texts of two trees have breaks between them
for the paragraphs that begin behind the first, and for nothing else. So texts of different blocks
are kept apart exactly when each text that is separated from the one in front of it has a paragraph
that begins between them. -/
theorem item_texts_apart_iff (text : List Char) {ts : List EventTree}
    (hfits : treesFit .blocks ts = true) :
    itemsOfLists (ofEvents text (treesEvents ts)) =
        (keptItems .blocks maxNesting ts).map WrittenItem.item ∧
      ∀ w ∈ keptItems .blocks maxNesting ts,
        (∀ front t between t' behind, w.children = front ++ t :: (between ++ t' :: behind) →
          t.ownText w.room ≠ [] → TextGoesOn w.item w.room t between t' behind) ∧
        (TextsApart w.room w.children ↔ ParagraphsAtBoundaries w.room w.children) := by
  refine ⟨itemsOfLists_ofEvents text hfits, fun w _ => ⟨?_, textsApart_iff w.room w.children⟩⟩
  intro front t between t' behind hsplit ht
  obtain ⟨before, htext⟩ :=
    text_readItem_split w.room (.mk none [] none) front ht between t' behind
  rw [← hsplit, ← WrittenItem.item] at htext
  refine ⟨⟨before, htext, ?_⟩, ?_, fun hnone => gap_eq_softBreaks hnone t', fun hnone => ?_⟩
  · rw [htext]
    simp only [Inline.plainText_append]
  · rw [any_isBreak_gap]
    simp only [Bool.or_eq_true, List.any_eq_true]
  · rw [gap_eq_softBreaks hnone, Inline.plainText_softBreaks]

/-- An item in which code stands between two texts. -/
def brokenItemText : List Char := "- a\n  ```\n  x\n  ```\n  b\n".toList

def brokenItem : List EventTree :=
  [.element (.list none) (.of 0 24) [.element .item (.of 0 24) [
    .text "a" (.of 2 4),
    .element (.code (some "")) (.of 6 19) [.text "x\n" (.of 6 19)] (.of 6 19),
    .text "b" (.of 22 24)] (.of 0 24)] (.of 0 24)]

theorem item_texts_apart_of_brokenItem :
    treesFit .blocks brokenItem = true ∧
      itemsOfLists (ofEvents brokenItemText (treesEvents brokenItem)) =
          (keptItems .blocks maxNesting brokenItem).map WrittenItem.item ∧
        ∀ w ∈ keptItems .blocks maxNesting brokenItem,
          (∀ front t between t' behind, w.children = front ++ t :: (between ++ t' :: behind) →
            t.ownText w.room ≠ [] → TextGoesOn w.item w.room t between t' behind) ∧
          (TextsApart w.room w.children ↔ ParagraphsAtBoundaries w.room w.children) := by
  have hfits : treesFit .blocks brokenItem = true := by decide
  exact ⟨hfits, item_texts_apart_iff brokenItemText hfits⟩

/-- The code stands between two texts of the item, and in the tree they are one word. -/
theorem brokenItem_runs_together :
    treesEvents brokenItem = Event.ofText brokenItemText ∧ treesFit .blocks brokenItem = true ∧
      (∃ w ∈ keptItems .blocks maxNesting brokenItem, ¬ TextsApart w.room w.children ∧
        w.item.text = [.text "a", .text "b"]) ∧
      (itemsOfLists (ofEvents brokenItemText (treesEvents brokenItem))).map
        (fun x => plainText x.text) = ["ab"] := by
  refine ⟨by decide +kernel, by decide, ?_, by decide +kernel⟩
  refine ⟨_, List.mem_cons_self, fun happart => ?_, rfl⟩
  have hbreak := happart [] _ [_] _ [] rfl (List.cons_ne_nil _ _) (List.cons_ne_nil _ _) rfl
  exact absurd hbreak Bool.false_ne_true

end Node

end BlockDoc
