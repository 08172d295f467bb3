import BlockDoc.Proofs.Block.FinalIds

/-!
The shell of a block: its type and its data without the contents of sections.
A container has one shell while its sections are text and when they are
compiled, so a shell tells which authored block a block of the document is.
-/

namespace BlockDoc

/-- A section whose content is left out, whether it is text or blocks. -/
def Section.shell {β : Type} : Section β → Section Empty
  | .entry props (some (.markdown _)) => .entry props (some (.blocks []))
  | .entry props (some (.blocks _)) => .entry props (some (.blocks []))
  | .entry props (some (.other v)) => .entry props (some (.other v))
  | .entry props none => .entry props none
  | .malformed v => .malformed v

/-- The data of a block without the contents of its sections. -/
def BlockData.shell {β : Type} : BlockData β → BlockData Empty
  | .heading depth anchor children => .heading depth anchor children
  | .paragraph children => .paragraph children
  | .image src alt title => .image src alt title
  | .list l => .list l
  | .code language details value => .code language details value
  | .quote children => .quote children
  | .table t => .table t
  | .thematicBreak => .thematicBreak
  | .html value => .html value
  | .container ⟨itemsField, contentField, props, sections⟩ =>
    .container ⟨itemsField, contentField, props, sections.map (List.map Section.shell)⟩
  | .component props => .component props

/-- The type of a block and the shell of its data. -/
def Block.shell (b : Block) : String × BlockData Empty := (b.kind, b.data.shell)

theorem Section.shell_withBlocks {β : Type} (bs : List β) (s : Section β) :
    (s.withBlocks bs).shell = s.shell := by
  cases s with
  | malformed v => rfl
  | entry props content => obtain _ | _ | _ | _ := content <;> rfl

/-- Other sections with the same shells leave the shell of the data. -/
theorem BlockData.shell_withSections {β : Type} (data : BlockData β) {ss : List (Section β)}
    (h : ss.map Section.shell = data.sections.map Section.shell) :
    (data.withSections ss).shell = data.shell := by
  cases data with
  | container c =>
      obtain ⟨itemsField, contentField, props, _ | sections⟩ := c
      · rfl
      · have hsections : ss.map Section.shell = sections.map Section.shell := h
        simp [BlockData.withSections, BlockData.shell, hsections]
  | _ => rfl

theorem BlockData.sections_shell {β : Type} (data : BlockData β) :
    data.shell.sections = data.sections.map Section.shell := by
  cases data with
  | container c => obtain ⟨_, _, _, _ | sections⟩ := c <;> rfl
  | _ => rfl

@[simp] theorem BlockData.props_shell {β : Type} (data : BlockData β) :
    data.shell.props? = data.props? := by
  cases data <;> rfl

theorem BlockData.length_sections_of_shell {β γ : Type} {data : BlockData β}
    {data' : BlockData γ} (h : data.shell = data'.shell) :
    data.sections.length = data'.sections.length := by
  have hshells := congrArg (fun d : BlockData Empty => d.sections.length) h
  simpa [BlockData.sections_shell] using hshells

@[simp] theorem BlockData.anchor_shell {β : Type} (data : BlockData β) :
    data.shell.anchor? = data.anchor? := by
  cases data <;> rfl

theorem BlockData.anchor_of_shell {β γ : Type} {data : BlockData β} {data' : BlockData γ}
    (h : data.shell = data'.shell) : data.anchor? = data'.anchor? := by
  rw [← BlockData.anchor_shell, h, BlockData.anchor_shell]

/-- The shell of a block does not depend on ids. -/
@[simp] theorem Block.shell_withoutId (b : Block) : b.withoutId.shell = b.shell := by
  have hsections : (sectionsWithoutIds b.sections).map Section.shell =
      b.data.sections.map Section.shell := by
    rw [sectionsWithoutIds_eq, List.map_map]
    exact List.map_congr_left fun s _ => s.shell_withBlocks _
  rw [Block.withoutId_eq]
  exact congrArg (Prod.mk b.kind) (b.data.shell_withSections hsections)

/-- Final ids leave each block with its shell at its path. -/
theorem shells_finalizeIds (bs : List Block) :
    (locatedBlocks (finalizeIds bs).1).map (Prod.map id Block.shell) =
      (locatedBlocks bs).map (Prod.map id Block.shell) := by
  have hshell : Prod.map id Block.shell =
      (Prod.map id Block.shell ∘ Prod.map id Block.withoutId :
        BlockPath × Block → BlockPath × (String × BlockData Empty)) := by
    funext ⟨p, b⟩
    simp
  rw [hshell, ← List.map_map, locatedBlocks_finalizeIds, List.map_map]

end BlockDoc
