import BlockDoc.Data.Binary64

/-!
The values of TOML and the tables under construction while a document is read. A table remembers how
it came about, because that decides what may still be added to it.
-/

namespace BlockDoc.Toml

/-- Why a document is refused. -/
inductive Error where
  | badKey
  | badValue
  | badString
  | badNumber
  | badLine
  | repeatedKey (key : String)
  | notATable (key : String)
  | tooDeep
  | missingField (key : String)
  | unknownField (key : String)
  | wrongType (key : String)
  deriving DecidableEq, Repr, Inhabited

/-- The wording of an error. -/
def Error.message : Error → String
  | badKey => "invalid key"
  | badValue => "invalid value"
  | badString => "invalid string"
  | badNumber => "invalid number"
  | badLine => "expected a newline or a comment"
  | repeatedKey key => "duplicate key " ++ key
  | notATable key => "key " ++ key ++ " is no table"
  | tooDeep => "recursion limit exceeded"
  | missingField key => "missing field " ++ key
  | unknownField key => "unknown field " ++ key
  | wrongType key => "invalid type for " ++ key

/-- A value. The moments of dates and times play no part here. -/
inductive Value where
  | str (s : String)
  | int (n : Int)
  | float
  | bool (b : Bool)
  | moment
  | arr (items : List Value)
  | table (fields : List (String × Value))
  deriving Repr, Inhabited

/-- How a table came about: by a header of its own, as a step on the way to another header, or by a
dotted key. -/
inductive Origin where
  | header
  | step
  | dotted
  deriving DecidableEq, Repr, Inhabited

/-- An entry of a table under construction; the tables of an array come last one first. -/
inductive Entry where
  | value (v : Value)
  | table (origin : Origin) (entries : List (String × Entry))
  | tables (tables : List (List (String × Entry)))
  deriving Repr, Inhabited

/-- The entries of a table under construction. -/
abbrev Entries := List (String × Entry)

namespace Entries

/-- The entry under a key. -/
def get? (key : String) (entries : Entries) : Option Entry := List.lookup key entries

/-- Sets an entry, in place when the key is present. -/
def set (key : String) (e : Entry) : Entries → Entries
  | [] => [(key, e)]
  | (k, old) :: rest => if k = key then (k, e) :: rest else (k, old) :: set key e rest

/-- Applies `f` to the entries of the table that a path leads to, given how that table came about.
Missing tables are made, with origin `made`. A dotted key may not enter a table that has a header.
-/
def update (made : Origin) (f : Origin → Entries → Except Error Entries) :
    List String → Origin → Entries → Except Error Entries
  | [], origin, entries => f origin entries
  | key :: path, _, entries =>
    match entries.get? key with
    | none => do
      let inner ← update made f path made []
      return entries.set key (.table made inner)
    | some (.value _) => .error (.notATable key)
    | some (.tables (last :: others)) => do
      let inner ← update made f path .header last
      return entries.set key (.tables (inner :: others))
    | some (.tables []) => .error (.notATable key)
    | some (.table origin inner) =>
      if made = .dotted && origin = .header then .error (.repeatedKey key)
      else do
        let inner ← update made f path origin inner
        return entries.set key (.table origin inner)

end Entries

mutual

/-- The value of an entry. -/
def Entry.toValue : Entry → Value
  | .value v => v
  | .table _ entries => .table (fieldValues entries)
  | .tables ts => .arr (tableValues ts).reverse

/-- The fields of a table. -/
def fieldValues : List (String × Entry) → List (String × Value)
  | [] => []
  | (k, e) :: rest => (k, e.toValue) :: fieldValues rest

/-- The tables of an array. -/
def tableValues : List (List (String × Entry)) → List Value
  | [] => []
  | t :: rest => .table (fieldValues t) :: tableValues rest

end

end BlockDoc.Toml
