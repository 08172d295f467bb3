import BlockDoc.Node.Build
import Mathlib.Tactic.SplitIfs

/-!
The positions of nodes. A part that is begun takes its position from the event
that begins it and keeps it while it is built, so the nodes of a sequence of
events have no other positions than those of the events. The invariant is
about the nodes that are complete and the parts that will become nodes; what
lies in the text of a part has no position.
-/

namespace BlockDoc.Node

open Markdown (CellAlignment Event Located Tag TagEnd)

/-- A node of a text stands at a position with a property. Metadata is no such node. -/
structure Stands (P : Range → Prop) (n : Node) : Prop where
  position : P n.position
  noMetadata : ∀ value, n.content ≠ .yaml value

/-- The node that a part becomes will stand at a position with a property. -/
def Unfinished.Stands (P : Range → Prop) : Unfinished → Prop
  | quote p _ | heading p _ _ _ | paragraph p _ | code p _ _ _ | html p _ | table p _ _ _ _ _
  | list p _ _ => P p
  | skipped _ (some n) => n.Stands P
  | skipped _ none | cell _ | item .. | itemText _ | strong _ | emphasis _ | delete _ | link ..
  | image .. | flat .. => True

theorem Unfinished.Stands.addInline {P : Range → Prop} {u : Unfinished} (h : u.Stands P)
    (x : Inline) : (u.addInline x).Stands P := by
  cases u <;> exact h

namespace Builder

/-- Whether an event ends the innermost part. -/
def ends (b : Builder) : Event → Bool
  | .stop tag => b.parts.head?.any fun u => u.awaits == some tag
  | _ => false

theorem step_eq (text : List Char) (b : Builder) (e : Event) (span : Span) :
    b.step text (e, span) = if b.ends e then b.leave else b.onEvent text e span := by
  obtain ⟨done, parts⟩ := b
  cases parts <;> cases e <;> rfl

/-- All nodes that a builder holds or will hold stand at positions with a property. -/
structure Stands (P : Range → Prop) (b : Builder) : Prop where
  done : ∀ n ∈ b.done, n.Stands P
  parts : ∀ u ∈ b.parts, u.Stands P

namespace Stands

variable {P : Range → Prop} {b : Builder} {u v : Unfinished} {rest : List Unfinished}

theorem start : Stands P start :=
  ⟨fun _ hn => absurd hn List.not_mem_nil, fun _ hu => absurd hu List.not_mem_nil⟩

theorem enter (h : Stands P b) (hu : u.Stands P) : Stands P (b.enter u) :=
  ⟨h.done, List.forall_mem_cons.mpr ⟨hu, h.parts⟩⟩

/-- The innermost part changes. -/
theorem change (h : Stands P b) (hparts : b.parts = u :: rest) (hu : u.Stands P → v.Stands P) :
    Stands P { b with parts := v :: rest } := by
  have hall := List.forall_mem_cons.mp (hparts ▸ h.parts)
  exact ⟨h.done, List.forall_mem_cons.mpr ⟨hu hall.1, hall.2⟩⟩

theorem addNode (h : Stands P b) {n : Node} (hn : n.Stands P) : Stands P (b.addNode n) := by
  unfold Builder.addNode
  split
  · rename_i hparts
    exact h.change hparts id
  · exact ⟨List.forall_mem_cons.mpr ⟨hn, h.done⟩, h.parts⟩

theorem addInline (h : Stands P b) (x : Inline) : Stands P (b.addInline x) := by
  unfold Builder.addInline
  split
  · rename_i hparts
    exact h.change hparts fun hu => hu.addInline x
  · exact h

theorem addPart (h : Stands P b) (hu : u.Stands P) : Stands P (b.addPart u) := by
  cases u with
  | quote p children => exact h.addNode ⟨hu, nofun⟩
  | heading p depth anchor children => exact h.addNode ⟨hu, nofun⟩
  | paragraph p children => exact h.addNode ⟨hu, nofun⟩
  | code p language details texts => exact h.addNode ⟨hu, nofun⟩
  | html p texts => exact h.addNode ⟨hu, nofun⟩
  | table p align header rows row inHead => exact h.addNode ⟨hu, nofun⟩
  | cell children | item checked children sublist | itemText xs =>
      simp only [Builder.addPart]
      split
      · rename_i hparts
        exact h.change hparts id
      · exact h
  | list p first items =>
      simp only [Builder.addPart]
      split
      · rename_i hparts
        exact h.change hparts id
      · exact h.addNode ⟨hu, nofun⟩
  | skipped waiting result =>
      cases result with
      | none => exact h
      | some n => exact h.addNode hu
  | strong xs | emphasis xs | delete xs | link url title xs | image url title xs
  | flat waiting texts => exact h.addInline _

theorem leave (h : Stands P b) : Stands P b.leave := by
  unfold Builder.leave
  split
  · exact h
  · rename_i u rest hparts
    have hall := List.forall_mem_cons.mp (hparts ▸ h.parts)
    exact addPart ⟨h.done, hall.2⟩ hall.1

theorem leaveAll (h : Stands P b) (n : Nat) : Stands P (leaveAll n b) := by
  induction n generalizing b with
  | zero => exact h
  | succ n ih => exact ih h.leave

/-! ### Events -/

theorem of_inlinePart {tag : Tag} (h : inlinePart? tag = some u) : u.Stands P := by
  cases tag <;> simp only [inlinePart?, Option.some.injEq, reduceCtorEq] at h
  all_goals exact h ▸ trivial

theorem onText (h : Stands P b) (e : Event) : Stands P (b.onText e) := by
  unfold Builder.onText
  split
  · split
    · rename_i hpart
      refine h.enter ?_
      split_ifs
      · trivial
      · exact of_inlinePart hpart
    · exact h
  · split
    · exact h.addInline _
    · exact h

theorem onTable (h : Stands P b) {position : Range} {align : List CellAlignment}
    {header : List (List Inline)} {rows : List (List (List Inline))} {row : List (List Inline)}
    {inHead : Bool} (hparts : b.parts = .table position align header rows row inHead :: rest)
    (e : Event) : Stands P (b.onTable e position align header rows row inHead rest) := by
  unfold Builder.onTable
  split
  · exact h.change hparts id
  · exact h.change hparts id
  · exact h.change hparts id
  · split_ifs
    · exact h
    · exact h.change hparts id
  · exact h.enter trivial
  · exact h

section Position

variable {text : List Char} {span : Span} (hspan : P (Range.ofSpan text span))

include hspan

theorem onBlocks (h : Stands P b) (e : Event) : Stands P (b.onBlocks text e span) := by
  have hnode : ∀ {content : Content}, (∀ value, content ≠ .yaml value) →
      (Node.mk (Range.ofSpan text span) content).Stands P := fun hcontent => ⟨hspan, hcontent⟩
  unfold Builder.onBlocks
  split
  · exact h.enter hspan
  · exact h.enter hspan
  · exact h.enter hspan
  · refine h.enter ?_
    split_ifs
    · exact hnode nofun
    · exact hspan
  · refine h.enter ?_
    split_ifs
    · exact hnode nofun
    · exact hspan
  · exact h.enter hspan
  · exact h.enter hspan
  · exact h.addNode (hnode nofun)
  · exact h.enter (hnode nofun)
  · exact h

theorem onItem (h : Stands P b) {checked : Option Bool} {children : List Inline}
    {sublist : Option ItemList} (hparts : b.parts = .item checked children sublist :: rest)
    (e : Event) : Stands P (b.onItem text e span checked children sublist rest) := by
  unfold Builder.onItem
  split
  · exact h.change hparts id
  · split_ifs
    · exact h.enter trivial
    · exact (h.addInline _).enter trivial
  · split_ifs
    · have hnext := h.change (v := .item checked children none) hparts id
      exact hnext.enter (u := .skipped 1 none) trivial
    · exact h.enter hspan
  · split_ifs
    · exact h.onText _
    · exact h.enter trivial
  · exact h.onText _

theorem onEvent (h : Stands P b) (e : Event) : Stands P (b.onEvent text e span) := by
  unfold Builder.onEvent
  split
  · exact h.onBlocks hspan e
  · exact h.onBlocks hspan e
  · rename_i hparts
    split
    · exact h.change hparts id
    · exact h.change hparts id
    · exact h
  · rename_i hparts
    split
    · exact h.change hparts id
    · exact h.change hparts id
    · exact h
  · rename_i hparts
    exact h.onTable hparts e
  · split_ifs
    · exact h.enter trivial
    · exact h
  · rename_i hparts
    exact h.onItem hspan hparts e
  · rename_i waiting texts rest hparts
    have hnext := h.change (v := .flat (waitingAfter waiting e) (flatText e ++ texts)) hparts id
    dsimp only
    split_ifs
    · exact hnext.leave
    · exact hnext
  · rename_i waiting result rest hparts
    have hnext := h.change (v := .skipped (waitingAfter waiting e) result) hparts fun hu => by
      cases result <;> exact hu
    dsimp only
    split_ifs
    · exact hnext.leave
    · exact hnext
  · exact h.onText e

theorem step (h : Stands P b) (e : Event) : Stands P (b.step text (e, span)) := by
  rw [step_eq]
  split_ifs
  · exact h.leave
  · exact h.onEvent hspan e

end Position

end Stands

end Builder

end BlockDoc.Node
