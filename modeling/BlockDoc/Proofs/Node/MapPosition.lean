import BlockDoc.Proofs.Node.Build

/-!
Nodes with other positions. The builder reads positions off the events and puts
them into nodes without looking at them. So when every event stands elsewhere,
the nodes do, and nothing else about them changes.
-/

namespace BlockDoc.Node

open Markdown (CellAlignment Event Located Tag TagEnd)

mutual

/-- A node with other positions, nested nodes included. -/
def mapPosition (f : Range → Range) : Node → Node
  | .mk p (.quote children) => .mk (f p) (.quote (mapPositions f children))
  | .mk p content => .mk (f p) content

/-- Nodes with other positions, nested nodes included. -/
def mapPositions (f : Range → Range) : List Node → List Node
  | [] => []
  | n :: rest => n.mapPosition f :: mapPositions f rest

end

section

variable (f : Range → Range)

theorem mapPositions_eq_map (nodes : List Node) :
    mapPositions f nodes = nodes.map (mapPosition f) := by
  induction nodes with
  | nil => rfl
  | cons n rest ih => rw [mapPositions, ih, List.map_cons]

@[simp] theorem mapPositions_reverse (nodes : List Node) :
    mapPositions f nodes.reverse = (mapPositions f nodes).reverse := by
  simp only [mapPositions_eq_map, List.map_reverse]

/-- A part of a tree with other positions. -/
def Unfinished.mapPosition : Unfinished → Unfinished
  | quote p children => quote (f p) (mapPositions f children)
  | heading p depth anchor children => heading (f p) depth anchor children
  | paragraph p children => paragraph (f p) children
  | code p language details texts => code (f p) language details texts
  | html p texts => html (f p) texts
  | table p align header rows row inHead => table (f p) align header rows row inHead
  | list p start items => list (f p) start items
  | skipped waiting result => skipped waiting (result.map (Node.mapPosition f))
  | part => part

@[simp] theorem Unfinished.nests_mapPosition (u : Unfinished) :
    (u.mapPosition f).nests = u.nests := by
  cases u <;> rfl

@[simp] theorem Unfinished.awaits_mapPosition (u : Unfinished) :
    (u.mapPosition f).awaits = u.awaits := by
  cases u <;> rfl

@[simp] theorem Unfinished.addInline_mapPosition (x : Inline) (u : Unfinished) :
    (u.mapPosition f).addInline x = (u.addInline x).mapPosition f := by
  cases u <;> rfl

namespace Builder

/-- A builder with other positions. -/
def mapPosition (b : Builder) : Builder :=
  ⟨mapPositions f b.done, b.parts.map (Unfinished.mapPosition f)⟩

variable (b : Builder)

@[simp] theorem nesting_mapPosition : (b.mapPosition f).nesting = b.nesting := by
  rw [nesting, mapPosition, List.countP_map]
  exact List.countP_congr fun u _ => by simp

theorem enter_mapPosition (u : Unfinished) :
    (b.mapPosition f).enter (u.mapPosition f) = (b.enter u).mapPosition f := rfl

theorem addNode_mapPosition (n : Node) :
    (b.mapPosition f).addNode (n.mapPosition f) = (b.addNode n).mapPosition f := by
  obtain ⟨done, parts⟩ := b
  cases parts with
  | nil => rfl
  | cons u rest => cases u <;> rfl

theorem addInline_mapPosition (x : Inline) :
    (b.mapPosition f).addInline x = (b.addInline x).mapPosition f := by
  obtain ⟨done, parts⟩ := b
  cases parts with
  | nil => rfl
  | cons u rest =>
      simp only [mapPosition, addInline, List.map_cons, Unfinished.addInline_mapPosition]

theorem addPart_mapPosition (u : Unfinished) :
    (b.mapPosition f).addPart (u.mapPosition f) = (b.addPart u).mapPosition f := by
  cases u with
  | quote p children =>
      rw [addPart, ← addNode_mapPosition, Node.mapPosition, mapPositions_reverse]
      rfl
  | heading p depth anchor children =>
      exact b.addNode_mapPosition f (.mk p (.heading depth anchor children.reverse))
  | paragraph p children => exact b.addNode_mapPosition f (.mk p (.paragraph children.reverse))
  | code p language details texts =>
      exact b.addNode_mapPosition f (.mk p (.code language details (Unfinished.joined texts)))
  | html p texts => exact b.addNode_mapPosition f (.mk p (.html (Unfinished.joined texts)))
  | table p align header rows row inHead =>
      exact b.addNode_mapPosition f (.mk p (.table ⟨align, header, rows.reverse⟩))
  | cell children | item checked children sublist | itemText children =>
      obtain ⟨done, parts⟩ := b
      cases parts with
      | nil => rfl
      | cons u rest => cases u <;> rfl
  | list p start items =>
      obtain ⟨done, parts⟩ := b
      cases parts with
      | nil => rfl
      | cons u rest => cases u <;> rfl
  | strong children | emphasis children | delete children | link url title children
  | image url title children | flat waiting texts =>
      exact b.addInline_mapPosition f _
  | skipped waiting result =>
      cases result with
      | none => rfl
      | some n => exact b.addNode_mapPosition f n

theorem leave_mapPosition : (b.mapPosition f).leave = b.leave.mapPosition f := by
  obtain ⟨done, parts⟩ := b
  cases parts with
  | nil => rfl
  | cons u rest => exact addPart_mapPosition f ⟨done, rest⟩ u

theorem leaveAll_mapPosition (n : Nat) :
    leaveAll n (b.mapPosition f) = (leaveAll n b).mapPosition f := by
  induction n generalizing b with
  | zero => rfl
  | succ n ih => rw [leaveAll, leave_mapPosition, ih, leaveAll]

theorem finish_mapPosition : (b.mapPosition f).finish = mapPositions f b.finish := by
  have hlength : (b.mapPosition f).parts.length = b.parts.length := List.length_map ..
  rw [finish, finish, hlength, leaveAll_mapPosition, mapPositions_reverse]
  rfl

/-! ### Events -/

theorem inlinePart?_mapPosition {tag : Tag} {u : Unfinished} (h : inlinePart? tag = some u) :
    u.mapPosition f = u := by
  cases tag <;> simp only [inlinePart?, Option.some.injEq, reduceCtorEq] at h
  all_goals exact h ▸ rfl

theorem onText_mapPosition (e : Event) :
    (b.mapPosition f).onText e = (b.onText e).mapPosition f := by
  unfold onText
  split
  · split
    · rename_i hpart
      rw [nesting_mapPosition, ← enter_mapPosition]
      congr 1
      split_ifs
      · rfl
      · exact (inlinePart?_mapPosition f hpart).symm
    · rfl
  · split
    · exact b.addInline_mapPosition f _
    · rfl

theorem onTable_mapPosition (e : Event) (position : Range) (align : List CellAlignment)
    (header : List (List Inline)) (rows : List (List (List Inline))) (row : List (List Inline))
    (inHead : Bool) (rest : List Unfinished) :
    (b.mapPosition f).onTable e (f position) align header rows row inHead
        (rest.map (Unfinished.mapPosition f)) =
      (b.onTable e position align header rows row inHead rest).mapPosition f := by
  unfold onTable
  split
  · rfl
  · rfl
  · rfl
  · split_ifs <;> rfl
  · rfl
  · rfl

theorem ends_mapPosition (e : Event) : (b.mapPosition f).ends e = b.ends e := by
  obtain ⟨done, parts⟩ := b
  cases e with
  | stop tag =>
      cases parts with
      | nil => rfl
      | cons u rest => exact congrArg (· == some tag) (u.awaits_mapPosition f)
  | _ => rfl

section Position

variable {text text' : List Char} {span span' : Span}
  (hspan : Range.ofSpan text' span' = f (Range.ofSpan text span))

include hspan

theorem onBlocks_mapPosition (e : Event) :
    (b.mapPosition f).onBlocks text' e span' = (b.onBlocks text e span).mapPosition f := by
  unfold onBlocks
  simp only [hspan, nesting_mapPosition]
  split
  · rfl
  · rfl
  · rfl
  · split_ifs <;> rfl
  · split_ifs <;> rfl
  · rfl
  · rfl
  · exact b.addNode_mapPosition f (.mk _ .thematicBreak)
  · rfl
  · rfl

theorem onItem_mapPosition (e : Event) (checked : Option Bool) (children : List Inline)
    (sublist : Option ItemList) (rest : List Unfinished) :
    (b.mapPosition f).onItem text' e span' checked children sublist
        (rest.map (Unfinished.mapPosition f)) =
      (b.onItem text e span checked children sublist rest).mapPosition f := by
  unfold onItem
  simp only [hspan, nesting_mapPosition]
  split
  · rfl
  · split_ifs
    · rfl
    · rw [addInline_mapPosition]
      rfl
  · split_ifs <;> rfl
  · split_ifs
    · exact b.onText_mapPosition f _
    · rfl
  · exact b.onText_mapPosition f _

theorem onEvent_mapPosition (e : Event) :
    (b.mapPosition f).onEvent text' e span' = (b.onEvent text e span).mapPosition f := by
  obtain ⟨done, parts⟩ := b
  cases parts with
  | nil => exact onBlocks_mapPosition f ⟨done, []⟩ hspan e
  | cons u rest =>
      cases u with
      | quote p children => exact onBlocks_mapPosition f ⟨done, .quote p children :: rest⟩ hspan e
      | code p language details texts | html p texts => cases e <;> rfl
      | table p align header rows row inHead =>
          exact onTable_mapPosition f ⟨done, .table p align header rows row inHead :: rest⟩ e p
            align header rows row inHead rest
      | list p start items =>
          simp only [onEvent, mapPosition, List.map_cons, Unfinished.mapPosition]
          split_ifs <;> rfl
      | item checked children sublist =>
          exact onItem_mapPosition f ⟨done, .item checked children sublist :: rest⟩ hspan e checked
            children sublist rest
      | flat waiting texts =>
          simp only [onEvent, mapPosition, List.map_cons, Unfinished.mapPosition]
          split_ifs
          · exact leave_mapPosition f
              ⟨done, .flat (waitingAfter waiting e) (flatText e ++ texts) :: rest⟩
          · rfl
      | skipped waiting result =>
          simp only [onEvent, mapPosition, List.map_cons, Unfinished.mapPosition]
          split_ifs
          · exact leave_mapPosition f ⟨done, .skipped (waitingAfter waiting e) result :: rest⟩
          · rfl
      | _ => exact onText_mapPosition f _ e

theorem step_mapPosition (e : Event) :
    (b.mapPosition f).step text' (e, span') = (b.step text (e, span)).mapPosition f := by
  rw [step_eq, step_eq, ends_mapPosition]
  split_ifs
  · exact b.leave_mapPosition f
  · exact b.onEvent_mapPosition f hspan e

end Position

theorem foldl_step_mapPosition {text text' : List Char} {g : Span → Span} {events : List Located}
    (h : ∀ e ∈ events, Range.ofSpan text' (g e.2) = f (Range.ofSpan text e.2)) :
    (events.map fun (e, span) => (e, g span)).foldl (step text') (b.mapPosition f) =
      (events.foldl (step text) b).mapPosition f := by
  induction events generalizing b with
  | nil => rfl
  | cons e events ih =>
      obtain ⟨hhead, htail⟩ := List.forall_mem_cons.mp h
      rw [List.map_cons, List.foldl_cons, List.foldl_cons, step_mapPosition f b hhead,
        ih _ htail]

end Builder

end

/-- Events that stand elsewhere give the same nodes elsewhere. -/
theorem ofEvents_map_span {text text' : List Char} {f : Range → Range} {g : Span → Span}
    {events : List Located}
    (h : ∀ e ∈ events, Range.ofSpan text' (g e.2) = f (Range.ofSpan text e.2)) :
    ofEvents text' (events.map fun (e, span) => (e, g span)) =
      mapPositions f (ofEvents text events) := by
  have hfold := Builder.foldl_step_mapPosition f .start h
  rw [ofEvents, ofEvents, ← Builder.finish_mapPosition, ← hfold]
  rfl

end BlockDoc.Node
