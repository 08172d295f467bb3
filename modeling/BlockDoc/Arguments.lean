/-!
Arguments of a command line: flags, options with a value, and operands. Flags and options may stand
anywhere up to an argument `--`; short ones may be joined behind one hyphen.
-/

namespace BlockDoc

/-- The flags and options that a command knows, by their long names. -/
structure ArgumentNames where
  flags : List String
  options : List String
  /-- Letters that stand for flags and options. -/
  letters : List (Char × String)
  deriving DecidableEq, Repr, Inhabited

/-- The arguments of a command line. -/
structure Arguments where
  operands : List String
  /-- The flags that are set, each as often as it is given. -/
  flags : List String
  /-- The options with their values, in order. -/
  values : List (String × String)
  deriving DecidableEq, Repr, Inhabited

/-- Why arguments are not taken. -/
inductive ArgumentError where
  | invalid
  /-- Help is asked for instead. -/
  | help
  /-- The version is asked for instead. -/
  | version
  deriving DecidableEq, Repr, Inhabited

namespace Arguments

/-- No arguments. -/
def none : Arguments := ⟨[], [], []⟩

/-- Adds an operand. -/
def addOperand (s : String) (a : Arguments) : Arguments := { a with operands := a.operands ++ [s] }

/-- Adds a flag. -/
def addFlag (name : String) (a : Arguments) : Arguments := { a with flags := a.flags ++ [name] }

/-- Adds an option. -/
def addValue (name value : String) (a : Arguments) : Arguments :=
  { a with values := a.values ++ [(name, value)] }

/-- How often a flag or an option is given. -/
def count (name : String) (a : Arguments) : Nat :=
  a.flags.count name + (a.values.map (·.1)).count name

/-- The value of an option. -/
def value? (name : String) (a : Arguments) : Option String := a.values.lookup name

/-- The values of an option. -/
def valuesOf (name : String) (a : Arguments) : List String :=
  (a.values.filter (·.1 == name)).map (·.2)

/-- What an argument looks like. -/
inductive Shape where
  | operand
  /-- Everything behind it is an operand. -/
  | divider
  | long (name : List Char) (value : Option String)
  | short (letters : List Char)
  deriving DecidableEq, Repr, Inhabited

/-- A name and the value behind an equals sign. -/
def splitValue (cs : List Char) : List Char × Option String :=
  match cs.dropWhile (· != '=') with
  | [] => (cs, .none)
  | _ :: value => (cs.takeWhile (· != '='), some (String.ofList value))

/-- What an argument looks like. -/
def shapeOf (argument : String) : Shape :=
  match argument.toList with
  | ['-'] => .operand
  | ['-', '-'] => .divider
  | '-' :: '-' :: cs => let (name, value) := splitValue cs; .long name value
  | '-' :: cs => .short cs
  | _ => .operand

/-- What letters behind one hyphen mean: the flags among them and, at the end, an option with the
value that is attached to it, if there is one. -/
def readLetters (names : ArgumentNames) :
    List Char → Except ArgumentError (List String × Option (String × Option String))
  | [] => .ok ([], .none)
  | c :: cs =>
    match names.letters.lookup c with
    | .none =>
      if c = 'h' then .error .help
      else if c = 'V' then .error .version
      else .error .invalid
    | some name =>
      if names.options.contains name then
        let value := match cs with
          | '=' :: value => value
          | value => value
        .ok ([], some (name, if cs.isEmpty then .none else some (String.ofList value)))
      else if cs.head? = some '=' then .error .invalid
      else do
        let (flags, option) ← readLetters names cs
        return (name :: flags, option)

/-- Reads arguments; `waiting` is the option whose value comes next. When `stopAtOperand` is set,
the first operand and what follows it are left over. -/
def read (names : ArgumentNames) (stopAtOperand : Bool) :
    List String → Option String → Arguments → Except ArgumentError (Arguments × List String)
  | [], waiting, a => if waiting.isSome then .error .invalid else .ok (a, [])
  | argument :: rest, some name, a =>
    if shapeOf argument = .operand then
      read names stopAtOperand rest .none (a.addValue name argument)
    else .error .invalid
  | argument :: rest, .none, a =>
    match shapeOf argument with
    | .operand =>
      if stopAtOperand then .ok (a, argument :: rest)
      else read names stopAtOperand rest .none (a.addOperand argument)
    | .divider =>
      if stopAtOperand then .error .invalid
      else .ok (rest.foldl (fun a s => a.addOperand s) a, [])
    | .long name value =>
      let name := String.ofList name
      if names.flags.contains name then
        if value.isSome then .error .invalid
        else read names stopAtOperand rest .none (a.addFlag name)
      else if names.options.contains name then
        match value with
        | some v => read names stopAtOperand rest .none (a.addValue name v)
        | .none => read names stopAtOperand rest (some name) a
      else if name = "help" then .error .help
      else if name = "version" then .error .version
      else .error .invalid
    | .short letters => do
      let (flags, option) ← readLetters names letters
      let a := flags.foldl (fun a name => a.addFlag name) a
      match option with
      | .none => read names stopAtOperand rest .none a
      | some (name, some v) => read names stopAtOperand rest .none (a.addValue name v)
      | some (name, .none) => read names stopAtOperand rest (some name) a

/-- Whether every flag and option is given at most once, apart from some that may be repeated. -/
def isSingle (repeatable : List String) (a : Arguments) : Bool :=
  (a.flags ++ a.values.map (·.1)).all fun name => repeatable.contains name || a.count name ≤ 1

end Arguments

end BlockDoc
