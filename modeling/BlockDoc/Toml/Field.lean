import BlockDoc.Toml.Value

/-!
Fields of a TOML table with values of a given type.
-/

namespace BlockDoc.Toml

/-- The fields of a table. -/
abbrev Table := List (String × Value)

namespace Value

/-- A text. -/
def text (key : String) : Value → Except Error String
  | str s => .ok s
  | _ => .error (.wrongType key)

/-- A truth value. -/
def truth (key : String) : Value → Except Error Bool
  | bool b => .ok b
  | _ => .error (.wrongType key)

/-- A number that is not negative. -/
def natural (key : String) : Value → Except Error Nat
  | int n => if 0 ≤ n then .ok n.toNat else .error (.wrongType key)
  | _ => .error (.wrongType key)

/-- An array of texts. -/
def texts (key : String) : Value → Except Error (List String)
  | arr items => items.mapM (text key)
  | _ => .error (.wrongType key)

end Value

namespace Table

/-- A field that may be missing. -/
def optional? {α : Type} (read : String → Value → Except Error α) (key : String) (t : Table) :
    Except Error (Option α) :=
  match t.lookup key with
  | some v => (read key v).map some
  | none => .ok none

/-- A field that has to be present. -/
def required {α : Type} (read : String → Value → Except Error α) (key : String) (t : Table) :
    Except Error α :=
  match t.lookup key with
  | some v => read key v
  | none => .error (.missingField key)

/-- Refuses keys that are not among the known ones. -/
def onlyKeys (known : List String) (t : Table) : Except Error Unit :=
  match t.find? fun f => !known.contains f.1 with
  | some (key, _) => .error (.unknownField key)
  | none => .ok ()

end Table

end BlockDoc.Toml
