import BlockDoc.Fragment
import BlockDoc.Proofs.Block.Shell

/-!
The drafts of a text, with the texts of its containers. They come in two
orders: the one in which they are written, where a container is followed by
what stands inside it, and the one in which they are recorded, where all
drafts of a sequence come before what stands inside them.
-/

namespace BlockDoc

/-- What is read from the text of a section; any other section has none. -/
def Section.ofText {α β : Type} (read : String → List α) : Section β → List α
  | .entry _ (some (.markdown text)) => read text
  | _ => []

/-- The drafts of nodes, without the nodes that give no block. -/
def draftsOf (registry : Registry) (nodes : List Node) : List Draft :=
  nodes.filterMap fun n => Draft.ofContent? registry n.content

namespace Draft

/-- The kind of a draft and the shell of its data. -/
def shell (d : Draft) : String × BlockData Empty := (d.kind, d.data.shell)

/-- What is read from the sections of a draft, each below its index. -/
def inside (read : String → List (BlockPath × Draft)) (d : Draft) : List (BlockPath × Draft) :=
  BlockPath.indexed (Section.ofText read) 0 d.data.sections

end Draft

/-- The drafts of a text in the order in which they are written, with so many
levels of sequences inside each other. -/
def authored (registry : Registry) : Nat → String → List (BlockPath × Draft)
  | 0, _ => []
  | levels + 1, text =>
    BlockPath.indexed (fun d => ([], d) :: d.inside (authored registry levels)) 0
      (draftsOf registry (Node.parse text))

/-- The drafts of a text in the order in which they are recorded. -/
def recorded (registry : Registry) : Nat → String → List (BlockPath × Draft)
  | 0, _ => []
  | levels + 1, text =>
    let drafts := draftsOf registry (Node.parse text)
    BlockPath.indexed (fun d => [([], d)]) 0 drafts
      ++ BlockPath.indexed (Draft.inside (recorded registry levels)) 0 drafts

/-- What holds of nothing and of what is read from any text holds of a section. -/
theorem Section.ofText_induction {α β : Type} {P : List α → Prop} {read : String → List α}
    (nothing : P []) (text : ∀ text, P (read text)) (s : Section β) : P (s.ofText read) := by
  cases s with
  | malformed v => exact nothing
  | entry props content =>
      obtain _ | t | _ | _ := content
      case some.markdown => exact text t
      all_goals exact nothing

theorem Section.ofText_perm {α β : Type} {read read' : String → List α}
    (h : ∀ text, (read text).Perm (read' text)) (s : Section β) :
    (s.ofText read).Perm (s.ofText read') := by
  cases s with
  | malformed v => exact List.Perm.nil
  | entry props content =>
      obtain _ | text | _ | _ := content
      case some.markdown => exact h text
      all_goals exact List.Perm.nil

/-- Nothing is written that is not recorded, and nothing is recorded twice. -/
theorem recorded_perm (registry : Registry) (levels : Nat) (text : String) :
    (recorded registry levels text).Perm (authored registry levels text) := by
  induction levels generalizing text with
  | zero => exact List.Perm.nil
  | succ levels ih =>
      -- move what stands inside each draft behind it
      refine (BlockPath.indexed_append_perm _ _ _ _).trans ?_
      refine BlockPath.indexed_perm _ (fun d => ?_) _
      refine List.Perm.cons _ (BlockPath.indexed_perm _ ?_ _)
      exact fun s => s.ofText_perm ih

/-- The drafts are written in the order of their paths. -/
theorem increasing_authored (registry : Registry) (levels : Nat) (text : String) :
    BlockPath.Increasing (authored registry levels text) := by
  induction levels generalizing text with
  | zero => exact List.Pairwise.nil
  | succ levels ih =>
      refine BlockPath.increasing_indexed (fun d _ => ?_) 0
      refine BlockPath.increasing_cons_indexed d (fun s _ => ?_) 0
      exact s.ofText_induction List.Pairwise.nil ih

/-! ### Declarations -/

/-- What drafts declare: references, and claims of anchors. -/
def declarations (documentId : String) (l : List (BlockPath × Draft)) : Findings :=
  ⟨[],
    l.flatMap fun x =>
      x.2.refs.map (Draft.pending (provisionalId documentId x.2.kind x.2.data) x.2.data.anchor? x.1),
    l.flatMap fun x => x.2.data.anchor?.toList.map fun a => (a, x.1)⟩

/-- Findings without diagnostics. -/
def Findings.declared (f : Findings) : Findings := { f with diagnostics := [] }

theorem declarations_append (documentId : String) (l l' : List (BlockPath × Draft)) :
    declarations documentId (l ++ l') =
      declarations documentId l ++ declarations documentId l' := by
  simp [declarations, Findings.append_eq]

theorem Findings.declared_append (f f' : Findings) :
    (f ++ f').declared = f.declared ++ f'.declared := rfl

end BlockDoc
