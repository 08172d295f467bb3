import BlockDoc.Data.Binary64

/-!
Values as they are authored in metadata and written in answers: null, truth values, numbers, text,
arrays and mappings. A mapping is a list of fields. `Fields.insert` keeps authored mappings sorted
by key; a record written by the program lists its fields in the order of its declaration.
-/

namespace BlockDoc

/-- An integer or a finite binary64 number; `2` and `2.0` differ. -/
inductive Number where
  | int (n : Int)
  | float (x : Binary64)
  deriving DecidableEq, Repr, Inhabited

namespace Number

/-- Integers are kept between `-2 ^ 63` and `2 ^ 64 - 1`. -/
def fits (n : Int) : Bool := -Int.ofNat (Nat.pow 2 63) ≤ n && n < Int.ofNat (Nat.pow 2 64)

/-- Whether the number is greater than zero. -/
def isPositive : Number → Bool
  | int n => 0 < n
  | float x => x.isPositive

/-- The decimal text of an integer. -/
def intText (n : Int) : String :=
  let digits := Nat.toDigits 10 n.natAbs
  String.ofList (if n < 0 then '-' :: digits else digits)

/-- The text of a number in JSON. -/
def toText : Number → String
  | int n => intText n
  | float x => x.toText

end Number

/-- An authored or written value. -/
inductive Value where
  | null
  | bool (b : Bool)
  | num (n : Number)
  | str (s : String)
  | arr (items : List Value)
  | obj (fields : List (String × Value))
  deriving Repr, BEq, Inhabited

/-- The fields of a mapping. -/
abbrev Fields := List (String × Value)

namespace Fields

/-- Sets a field of a sorted mapping; an older value under the key is replaced. -/
def insert (key : String) (v : Value) : Fields → Fields
  | [] => [(key, v)]
  | (k, w) :: rest =>
    if key < k then (key, v) :: (k, w) :: rest
    else if key = k then (key, v) :: rest
    else (k, w) :: insert key v rest

/-- The value under a key. -/
def get? (key : String) : Fields → Option Value
  | [] => none
  | (k, v) :: rest => if k = key then some v else get? key rest

/-- The mapping without a key. -/
def erase (key : String) (fields : Fields) : Fields := fields.filter (fun f => f.1 ≠ key)

/-- The mapping with the given fields, the last one winning under a repeated key. -/
def ofList (fields : List (String × Value)) : Fields :=
  fields.foldl (fun acc f => insert f.1 f.2 acc) []

/-- Whether a key is present. -/
def has (key : String) (fields : Fields) : Bool := (get? key fields).isSome

end Fields

namespace Value

/-- A natural number as a value. -/
def nat (n : Nat) : Value := num (.int n)

/-- The text of a text value. -/
def str? : Value → Option String
  | str s => some s
  | _ => none

/-- The items of an array. -/
def arr? : Value → Option (List Value)
  | arr items => some items
  | _ => none

/-- The texts of an array that holds nothing else. -/
def strings? : Value → Option (List String)
  | arr items => items.mapM str?
  | _ => none

/-- The natural number of a value, when it is one. -/
def nat? : Value → Option Nat
  | num (.int (.ofNat n)) => some n
  | _ => none

/-- A field that is left out when there is nothing to write. -/
def optional (key : String) (v : Option Value) : List (String × Value) :=
  match v with
  | some v => [(key, v)]
  | none => []

end Value

end BlockDoc
