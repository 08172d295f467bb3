import BlockDoc.Component
import BlockDoc.Toml.Field
import BlockDoc.Toml.Read

/-!
The settings of a compiler, which are read from TOML: how deep containers may nest, and further
container types.
-/

namespace BlockDoc

/-- The settings of a compiler; container types are sorted. -/
structure Config where
  maxContainerDepth : Nat
  containers : List (String × ContainerSchema)
  deriving DecidableEq, Repr, Inhabited

/-- Why settings are refused. -/
inductive ConfigError where
  | unreadable (path reason : String)
  | toml (e : Toml.Error)
  | zeroDepth
  | badKind (kind : String)
  | emptyField (kind : String)
  deriving DecidableEq, Repr, Inhabited

namespace ConfigError

/-- What is wrong with settings that could be read. -/
def detail : ConfigError → String
  | unreadable path reason => "cannot read '" ++ path ++ "': " ++ reason
  | toml e => "TOML parse error: " ++ e.message
  | zeroDepth => "max-container-depth must be at least 1"
  | badKind kind =>
    "container type '" ++ kind ++ "' must look like '" ++ componentPrefix ++ "<name>'"
  | emptyField kind =>
    "container type '" ++ kind ++ "' needs non-empty items-field and content-field"

/-- The wording of an error. -/
def message : ConfigError → String
  | unreadable path reason => (unreadable path reason).detail
  | e => "invalid config: " ++ e.detail

end ConfigError

namespace Config

/-- The settings of a compiler without a settings file. -/
def default : Config := ⟨8, []⟩

/-- The schema of a container type: a table of its two fields, or an array that begins with their
values. -/
def schema (kind : String) : Toml.Value → Except Toml.Error ContainerSchema
  | .table fields => do
    Toml.Table.onlyKeys ["items-field", "content-field"] fields
    let itemsField ← Toml.Table.required Toml.Value.text "items-field" fields
    let contentField ← Toml.Table.required Toml.Value.text "content-field" fields
    return ⟨itemsField, contentField⟩
  | .arr (itemsField :: contentField :: _) => do
    return ⟨← itemsField.text kind, ← contentField.text kind⟩
  | _ => .error (.wrongType kind)

/-- Adds a container type at its place in the order. -/
def insertSchema (kind : String) (s : ContainerSchema) :
    List (String × ContainerSchema) → List (String × ContainerSchema)
  | [] => [(kind, s)]
  | (k, t) :: rest =>
    if kind < k then (kind, s) :: (k, t) :: rest
    else if kind = k then (kind, s) :: rest
    else (k, t) :: insertSchema kind s rest

/-- The container types of a table. -/
def schemas (key : String) : Toml.Value → Except Toml.Error (List (String × ContainerSchema))
  | .table fields => fields.foldlM (fun acc (kind, v) => do
      return insertSchema kind (← schema kind v) acc) []
  | _ => .error (.wrongType key)

/-- The settings of a table. -/
def ofTable (t : Toml.Table) : Except Toml.Error Config := do
  t.onlyKeys ["max-container-depth", "containers"]
  let depth ← t.optional? Toml.Value.natural "max-container-depth"
  let containers ← t.optional? schemas "containers"
  return ⟨depth.getD default.maxContainerDepth, containers.getD []⟩

/-- Whether a container type has a name behind the beginning that all component types share. -/
def isComponentKind (kind : String) : Bool :=
  componentPrefix.toList.isPrefixOf kind.toList && componentPrefix.length < kind.length

/-- What is wrong with a container type. -/
def checkKind (kind : String) (s : ContainerSchema) : Except ConfigError Unit :=
  if !isComponentKind kind then .error (.badKind kind)
  else if s.itemsField.isEmpty || s.contentField.isEmpty then .error (.emptyField kind)
  else .ok ()

/-- Containers may nest at least once, every container type is a component type, and its fields have
names. The first type that is not like that is reported. -/
def validate (c : Config) : Except ConfigError Unit :=
  if c.maxContainerDepth = 0 then .error .zeroDepth
  else c.containers.forM fun (kind, s) => checkKind kind s

/-- Reads settings. -/
def ofToml (source : String) : Except ConfigError Config := do
  let table ← (Toml.parse source).mapError .toml
  let config ← (ofTable table).mapError .toml
  config.validate
  return config

/-- The schemas of the built-in types and of the container types that are set. -/
def registry (c : Config) : Registry :=
  c.containers.foldl (fun r (kind, s) => r.addContainer kind s) .builtin

end Config

end BlockDoc
