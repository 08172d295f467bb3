import BlockDoc.Block
import BlockDoc.Violation

/-!
Schemas of component types: where a container type keeps its Markdown, and what the data of a type
must satisfy. A type without a validator accepts all data.
-/

namespace BlockDoc

/-- Where a container type keeps its Markdown: the field of its items, and the field of each item.
-/
structure ContainerSchema where
  itemsField : String
  contentField : String
  deriving DecidableEq, Repr, Inhabited

/-- The checks for the data of a component type. -/
inductive Validator where
  /-- What every container must satisfy. -/
  | sections
  | tabs
  | steps
  | columns
  | callout
  /-- Checks that are not built in. -/
  | custom (check : BlockData Block → List Violation)
  deriving Inhabited

namespace Validator

/-- The path of an item. -/
def itemPath (field : String) (index : Nat) : String := field ++ "[" ++ toString index ++ "]"

/-- The path of a field within an item. -/
def fieldPath (path field : String) : String := path ++ "." ++ field

/-- What is wrong with the content of a section. -/
def checkSection {β : Type} (contentField path : String) : Section β → List Violation
  | .malformed _ => [⟨path, "expected a mapping"⟩]
  | .entry _ (some (.other _)) => [⟨fieldPath path contentField, "expected a Markdown string"⟩]
  | .entry _ none => [⟨fieldPath path contentField, "missing required field"⟩]
  | .entry _ (some (.markdown _)) => []
  | .entry _ (some (.blocks _)) => []

/-- A container has at least one section, and all of them are mappings with Markdown. -/
def checkSections {β : Type} (c : Container β) : List Violation :=
  match c.sections with
  | none =>
    [⟨c.itemsField, if c.props.has c.itemsField then "expected an array"
      else "missing required field"⟩]
  | some [] => [⟨c.itemsField, "expected at least 1 entry"⟩]
  | some parts =>
    parts.zipIdx.flatMap fun (s, i) => checkSection c.contentField (itemPath c.itemsField i) s

/-- What a check finds in the mappings among the sections. -/
def checkEntries {β : Type} (check : String → Fields → List Violation) (c : Container β) :
    List Violation :=
  c.sectionList.zipIdx.flatMap fun
    | (.entry props _, i) => check (itemPath c.itemsField i) props
    | (.malformed _, _) => []

/-- A field holds text that is not blank. -/
def requireText (field path : String) (props : Fields) : List Violation :=
  match (props.get? field).bind Value.str? with
  | some s =>
    if Text.isBlankText s then [⟨fieldPath path field, "expected a non-empty string"⟩] else []
  | none => [⟨fieldPath path field, "expected a non-empty string"⟩]

/-- The message for a word that is none of the allowed ones. -/
def oneOf (words : List String) : String := "expected one of " ++ String.intercalate ", " words

/-- The states of a step. -/
def stepStatuses : List String := ["pending", "active", "completed"]

/-- A status, if there is one, is one of the states of a step. -/
def checkStatus (path : String) (props : Fields) : List Violation :=
  match props.get? "status" with
  | none => []
  | some v =>
    if v.str?.any stepStatuses.contains then [] else [⟨fieldPath path "status", oneOf stepStatuses⟩]

/-- Whether a value is a positive number. -/
def isPositive : Value → Bool
  | .num n => n.isPositive
  | _ => false

/-- A ratio, if there is one, has a positive number for every section. -/
def checkRatio {β : Type} (c : Container β) : List Violation :=
  match c.props.get? "ratio" with
  | none => []
  | some v =>
    let valid := v.arr?.any fun parts =>
      parts.length == c.sectionList.length && parts.all isPositive
    if valid then [] else [⟨"ratio", "expected one positive number per column"⟩]

/-- The types of a callout. -/
def calloutTypes : List String := ["info", "warning", "error", "tip"]

/-- Whether a value is text. -/
def isText (v : Value) : Bool := v.str?.isSome

/-- A callout has one of the types and text as content, and its title, if there is one, is text. -/
def checkCallout (props : Fields) : List Violation :=
  (if ((props.get? "type").bind Value.str?).any calloutTypes.contains then []
    else [⟨"type", oneOf calloutTypes⟩])
  ++ (if (props.get? "content").any isText then [] else [⟨"content", "expected a string"⟩])
  ++ (if (props.get? "title").all isText then [] else [⟨"title", "expected a string"⟩])

/-- What a check finds in the data of a container. Other data are refused. -/
def onContainer {β : Type} (check : Container β → List Violation) : BlockData β → List Violation
  | .container c => check c
  | _ => [⟨"", "expected container data"⟩]

/-- Everything that is wrong with the data of a block. -/
def check (v : Validator) (data : BlockData Block) : List Violation :=
  match v with
  | sections => onContainer checkSections data
  | tabs => onContainer (fun c => checkSections c ++ checkEntries (requireText "label") c) data
  | steps =>
    onContainer (fun c => checkSections c
      ++ checkEntries
        (fun path props => requireText "title" path props ++ checkStatus path props) c)
      data
  | columns => onContainer (fun c => checkSections c ++ checkRatio c) data
  | callout =>
    match data with
    | .component props => checkCallout props
    | _ => [⟨"", "expected component data"⟩]
  | custom check => check data

end Validator

/-- The schemas of component types; of several for a type the first one counts. -/
structure Registry where
  validators : List (String × Validator)
  containers : List (String × ContainerSchema)
  deriving Inhabited

namespace Registry

/-- No schemas. -/
def empty : Registry := ⟨[], []⟩

/-- The validator of a type. -/
def validator? (kind : String) (r : Registry) : Option Validator := r.validators.lookup kind

/-- The container schema of a type. -/
def container? (kind : String) (r : Registry) : Option ContainerSchema := r.containers.lookup kind

/-- Sets the validator of a type. -/
def addValidator (kind : String) (v : Validator) (r : Registry) : Registry :=
  { r with validators := (kind, v) :: r.validators }

/-- Makes a type a container type. Without a validator of its own it gets the checks that every
container must satisfy. -/
def addContainer (kind : String) (schema : ContainerSchema) (r : Registry) : Registry :=
  let r := if (r.validator? kind).isSome then r else r.addValidator kind .sections
  { r with containers := (kind, schema) :: r.containers }

/-- Everything that is wrong with the data of a block of a type. -/
def validate (kind : String) (data : BlockData Block) (r : Registry) : List Violation :=
  match r.validator? kind with
  | some v => v.check data
  | none => []

/-- The schemas of the built-in component types. -/
def builtin : Registry :=
  empty
  |>.addContainer "ui:tabs" ⟨"tabs", "content"⟩
  |>.addValidator "ui:tabs" .tabs
  |>.addContainer "ui:steps" ⟨"steps", "content"⟩
  |>.addValidator "ui:steps" .steps
  |>.addContainer "ui:columns" ⟨"columns", "content"⟩
  |>.addValidator "ui:columns" .columns
  |>.addValidator "ui:callout" .callout

end Registry

end BlockDoc
