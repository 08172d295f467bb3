import BlockDoc.Arguments
import BlockDoc.Fixture.Suite

/-!
The command line: compiling or checking a file, and running fixtures. A run of the program depends
on its arguments and on the files it finds.
-/

namespace BlockDoc

/-- What the program is asked to do. -/
inductive Command where
  /-- Compile a file and print the document. -/
  | compile (file : String) (id config : Option String) (pretty : Bool)
  /-- Compile a file and report what is wrong. -/
  | check (file : String) (config : Option String)
  /-- Run fixtures. -/
  | test (path : String) (categories : List String) (list : Bool)
  deriving DecidableEq, Repr, Inhabited

/-- What a run of the program gives. -/
structure Outcome where
  code : Nat
  stdout : String
  /-- The lines written to the error stream. -/
  stderr : List String
  deriving DecidableEq, Repr, Inhabited

namespace Command

/-- Flags that may stand before and behind the name of a command. -/
def globalFlags : List String := ["no-color", "verbose"]

/-- The letters of global flags. -/
def globalLetters : List (Char × String) := [('v', "verbose")]

/-- Flags and options that may be given several times. -/
def repeatable : List String := ["verbose", "category"]

/-- The flags and options of a command. -/
def namesOf? : String → Option ArgumentNames
  | "compile" => some ⟨globalFlags ++ ["pretty"], ["id", "config"], globalLetters⟩
  | "check" => some ⟨globalFlags, ["config"], globalLetters⟩
  | "test" => some ⟨globalFlags ++ ["list-categories"], ["category"],
      globalLetters ++ [('c', "category")]⟩
  | _ => none

/-- The command that a name and its arguments mean. -/
def ofArguments? (name : String) (a : Arguments) : Option Command :=
  match name, a.operands with
  | "compile", [file] =>
    some (.compile file (a.value? "id") (a.value? "config") (a.flags.contains "pretty"))
  | "check", [file] => some (.check file (a.value? "config"))
  | "test", [path] => some (.test path (a.valuesOf "category") (a.flags.contains "list-categories"))
  | _, _ => none

/-- Reads a command line: the command, and whether output is coloured. -/
def parse (arguments : List String) : Except ArgumentError (Command × Bool) := do
  let (outer, rest) ← Arguments.read ⟨globalFlags, [], globalLetters⟩ true arguments none .none
  match rest with
  | [] => throw .invalid
  | name :: rest =>
    let some names := namesOf? name | throw (if name = "help" then .help else .invalid)
    let (inner, _) ← match Arguments.read names false rest none .none with
      | .error .version => throw .invalid
      | r => r
    let some command := ofArguments? name inner | throw .invalid
    unless outer.isSingle repeatable && inner.isSingle repeatable do throw .invalid
    return (command, !(outer.flags ++ inner.flags).contains "no-color")

/-- The line for a file that cannot be read. -/
def unreadable (path : String) (e : FileError) : String :=
  "error: cannot read '" ++ path ++ "': " ++ e.message

/-- The compiler with the settings in a file. -/
def loadCompiler (tree : FileTree) : Option String → Except String Compiler
  | none => .ok .default
  | some path =>
    match tree.read path with
    | .error e => .error ("error: " ++ (ConfigError.unreadable path e.message).message)
    | .ok source =>
      match Config.ofToml source with
      | .error e => .error ("error: " ++ e.message)
      | .ok config => .ok (.ofConfig config)

/-- Compiles a file with settings. -/
def compileFile (tree : FileTree) (config : Option String) (file : String) (id : Option String) :
    Except String Compilation := do
  let compiler ← loadCompiler tree config
  match tree.read file with
  | .error e => throw (unreadable file e)
  | .ok text => return compiler.compile ⟨some file, id⟩ text

/-- The lines about a compilation. -/
def headlines (c : Compilation) : List String := c.diagnostics.map Diagnostic.headline

/-- Runs a command. -/
def run (tree : FileTree) (colored : Bool) : Command → Outcome
  | .compile file id config pretty =>
    match compileFile tree config file id with
    | .error line => ⟨1, "", [line]⟩
    | .ok c =>
      let json := (if pretty then Json.spread else Json.compact) c.document.toValue
      ⟨if c.hasErrors then 1 else 0, json ++ "\n", headlines c⟩
  | .check file config =>
    match compileFile tree config file none with
    | .error line => ⟨1, "", [line]⟩
    | .ok c =>
      if c.hasErrors then
        ⟨1, "", headlines c ++
          ["error: " ++ file ++ " failed with " ++ toString c.errorCount ++ " error(s)"]⟩
      else
        ⟨0, "", headlines c ++
          ["ok: " ++ file ++ " compiled (" ++ toString (blockIds c.document.blocks).length
            ++ " blocks, " ++ toString c.document.references.length ++ " references)"]⟩
  | .test path categories list =>
    if list then ⟨0, "", Fixture.listCategories tree path⟩
    else
      let (lines, ok) := Fixture.runAll tree ⟨colored⟩ path categories
      ⟨if ok then 0 else 1, "", lines⟩

end Command

namespace Outcome

/-- How the program is called. -/
def usage : String :=
  "Usage: [--no-color] [-v] compile <file> [--id <id>] [--config <config>] [--pretty]\n" ++
  "       [--no-color] [-v] check <file> [--config <config>]\n" ++
  "       [--no-color] [-v] test <path> [-c <category>] [--list-categories]"

/-- What a run gives whose arguments are not taken. -/
def ofError : ArgumentError → Outcome
  | .invalid => ⟨2, "", [usage]⟩
  | .help => ⟨0, usage ++ "\n", []⟩
  | .version => ⟨0, "glyph 0.1.0\n", []⟩

/-- What is written to the error stream. -/
def errorText (o : Outcome) : String := String.join (o.stderr.map (· ++ "\n"))

end Outcome

/-- What the program gives for its arguments and the files it finds. -/
def runProgram (tree : FileTree) (arguments : List String) : Outcome :=
  match Command.parse arguments with
  | .error e => .ofError e
  | .ok (command, colored) => command.run tree colored

end BlockDoc
