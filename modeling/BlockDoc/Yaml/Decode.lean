import BlockDoc.Data.Value
import BlockDoc.Text.Number
import BlockDoc.Yaml.Node

/-!
From YAML text to a value. A plain scalar is null, a truth value, a number or text by its form; a
standard tag asks for one of these. Keys keep the text of their scalar, and the last of several
equal keys wins. Aliases are followed, up to a hundred times the number of steps of the document,
and collections nest at most 128 deep.
-/

namespace BlockDoc.Yaml

/-- The forms of null. -/
def isNullText (s : String) : Bool := s == "null" || s == "Null" || s == "NULL" || s == "~"

/-- The forms of truth values. -/
def boolOf? (s : String) : Option Bool :=
  if s == "true" || s == "True" || s == "TRUE" then some true
  else if s == "false" || s == "False" || s == "FALSE" then some false
  else none

/-- Whether a scalar consists of digits with a needless zero in front, behind at most one sign. -/
def isPaddedDigits (cs : List Char) : Bool :=
  let body := (Text.splitSign cs).2
  1 < body.length && body.head? == some '0' && body.all Char.isDigit

/-- The base that a lead of two characters asks for, and the digits behind it. -/
def splitBase : List Char → Nat × List Char
  | '0' :: 'x' :: rest => (16, rest)
  | '0' :: 'o' :: rest => (8, rest)
  | '0' :: 'b' :: rest => (2, rest)
  | cs => (10, cs)

/-- The integer that a scalar writes. -/
def intOf? (cs : List Char) : Option Int := do
  let (negative, body) := Text.splitSign cs
  let (base, digits) := splitBase body
  if base = 10 && isPaddedDigits cs then none
  else
    let n ← Text.natOfDigits? base digits
    return if negative then -(n : Int) else n

/-- A number: text for one that is no number after all. -/
inductive Numeric where
  | value (v : Value)
  | outOfRange
  | none

/-- The number that a scalar writes as an integer. Beyond 64 bits it is refused, beyond 128 bits it
is no integer any more. -/
def integer (cs : List Char) : Numeric :=
  match intOf? cs with
  | some n =>
    if Number.fits n then .value (.num (.int n))
    else if -Int.ofNat (Nat.pow 2 127) ≤ n && n < Int.ofNat (Nat.pow 2 128) then .outOfRange
    else .none
  | none => .none

/-- The value of a scalar that writes a number with a fraction or an exponent. Infinities and the
undefined number have no value of their own and become null. -/
def floating? (s : String) : Option Value :=
  let cs := s.toList
  let unsigned := match cs with
    | '+' :: rest => rest
    | _ => cs
  let special := [".inf", ".Inf", ".INF"].contains (String.ofList unsigned)
    || ["-.inf", "-.Inf", "-.INF", ".nan", ".NaN", ".NAN"].contains s
  let twoSigns := match cs with
    | '+' :: '+' :: _ | '+' :: '-' :: _ => true
    | _ => false
  if twoSigns then none
  else if special then some .null
  else do
    let d ← Text.decimal? unsigned
    let x ← Binary64.ofDecimal? d.negative d.digits d.exponent
    return .num (.float x)

/-- The value of a plain scalar without a tag. -/
def plainValue (s : String) : Except Error Value :=
  if s.isEmpty || isNullText s then .ok .null
  else match boolOf? s with
    | some b => .ok (.bool b)
    | none =>
      match integer s.toList with
      | .value v => .ok v
      | .outOfRange => .error .numberOutOfRange
      | .none =>
        if isPaddedDigits s.toList then .ok (.str s)
        else .ok ((floating? s).getD (.str s))

/-- The prefix of standard tags. -/
def standardTag (name : String) : String := "tag:yaml.org,2002:" ++ name

/-- A value that a standard tag asks for. -/
def orWrong (v : Option Value) : Except Error Value :=
  match v with
  | some v => .ok v
  | none => .error .wrongScalar

/-- Whether a tag is local: it starts with an exclamation mark. -/
def isLocalTag (tag : Option String) : Bool :=
  match tag with
  | some t => t.startsWith "!"
  | none => false

/-- The value of a scalar. -/
def scalarValue (tag : Option String) (s : String) (plain : Bool) : Except Error Value :=
  match tag with
  | some t =>
    if isLocalTag tag then .error .taggedValue
    else if t == standardTag "bool" then orWrong ((boolOf? s).map Value.bool)
    else if t == standardTag "int" then
      match integer s.toList with
      | .value v => .ok v
      | .outOfRange => .error .numberOutOfRange
      | .none => .error .wrongScalar
    else if t == standardTag "float" then orWrong (floating? s)
    else if t == standardTag "null" then orWrong (if isNullText s then some .null else none)
    else .ok (.str s)
  | none => if plain then plainValue s else .ok (.str s)

/-- Follows aliases, counting them. -/
abbrev Follow := StateT Nat (Except Error)

/-- The node behind an alias; any other node is its own. -/
def Document.follow (d : Document) (n : Node) : Follow Node := do
  match n with
  | .alias anchor =>
    modify (· + 1)
    if 100 * d.steps < (← get) then throw .tooManyRepetitions
    match d.target? anchor with
    | some target => return target
    | none => throw .unknownAnchor
  | _ => return n

/-- The text of a key. -/
def Document.keyText (d : Document) (n : Node) : Follow String := do
  match ← d.follow n with
  | .scalar _ text _ => return text
  | _ => throw .keyNotScalar

/-- The value of a node; collections may nest `depth` deep. -/
def Document.valueOf (d : Document) : Nat → Node → Follow Value
  | depth, n => do
    match ← d.follow n with
    | .alias _ => throw .unknownAnchor
    | .scalar tag text plain => scalarValue tag text plain
    | .sequence tag items =>
      if isLocalTag tag then throw .taggedValue
      match depth with
      | 0 => throw .tooDeep
      | depth + 1 => return .arr (← items.mapM fun i => d.valueOf depth i)
    | .mapping tag entries =>
      if isLocalTag tag then throw .taggedValue
      match depth with
      | 0 => throw .tooDeep
      | depth + 1 =>
        let fields ← entries.mapM fun (k, v) => do
          let key ← d.keyText k
          return (key, ← d.valueOf depth v)
        return .obj (Fields.ofList fields)

/-- The value of a YAML text with a single document; an empty stream is null. -/
def decode (text : String) : Except Error Value := do
  let d ← Document.ofTokens (← Token.scan text)
  match d.node with
  | none => return .null
  | some n => return (← (d.valueOf 128 n).run 0).1

end BlockDoc.Yaml
