import BlockDoc.Scope
import BlockDoc.Yaml.Decode

/-!
Components: code blocks whose language begins with `ui:` and whose body is a YAML mapping. What is
wrong with the body is reported, and the component keeps the fields that can be read.
-/

namespace BlockDoc

/-- The beginning of the language of a component. -/
def componentPrefix : String := "ui:"

/-- A reference that a component declares. -/
structure DeclaredRef where
  target : Target
  relation : Option String
  label : Option String
  deriving DecidableEq, Repr, Inhabited

/-- A component that was read. -/
structure Component where
  data : BlockData Block
  refs : List DeclaredRef
  causes : List Cause
  deriving Inhabited

namespace Component

/-- The fields of a component and what is wrong with its body. A blank body has no fields. -/
def readProps (kind body : String) : Fields × List Cause :=
  if Text.isBlankText body then ([], [])
  else match Yaml.decode body with
    | .ok (.obj fields) => (fields, [])
    | .ok .null => ([], [])
    | .ok _ => ([], [.noMapping kind])
    | .error e => ([], [.componentYaml kind e])

/-- An anchor is text that is not blank. -/
def checkAnchor (kind : String) (props : Fields) : List Cause :=
  let valid := match props.get? anchorField with
    | none => true
    | some (.str s) => !Text.isBlankText s
    | some _ => false
  if valid then [] else [.blankAnchor kind]

/-- The reference that an entry declares: a target, or a mapping with a target. -/
def readRef? : Value → Option DeclaredRef
  | .str target => (Target.ofDeclared? target).map fun t => ⟨t, none, none⟩
  | .obj fields =>
    let text (key : String) : Option String := (Fields.get? key fields).bind Value.str?
    ((text "target").bind Target.ofDeclared?).map fun t => ⟨t, text "relation", text "label"⟩
  | _ => none

/-- The declared references of a component, and the entries that declare none. -/
def readRefs (kind : String) (props : Fields) : List DeclaredRef × List Cause :=
  match props.get? "refs" with
  | none => ([], [])
  | some (.arr entries) =>
    (entries.filterMap readRef?,
      entries.zipIdx.filterMap fun (entry, i) =>
        if (readRef? entry).isSome then none else some (.refWithoutTarget kind i))
  | some _ => ([], [.refsNoArray kind])

/-- Reads a component. Its data are validated here unless its type is a container type, whose data
are validated when all sections are compiled. -/
def read (registry : Registry) (kind body : String) : Component :=
  let (props, bodyCauses) := readProps kind body
  let (refs, refCauses) := readRefs kind props
  let causes := bodyCauses ++ checkAnchor kind props ++ refCauses
  match registry.container? kind with
  | some schema =>
    ⟨.container (Container.ofProps schema.itemsField schema.contentField props), refs, causes⟩
  | none =>
    let data : BlockData Block := .component props
    ⟨data, refs, causes ++ (registry.validate kind data).map (.component kind)⟩

end Component

end BlockDoc
