/-!
# Command-line arguments

A command line is a command with its paths and options, and options may stand before or after the
command. Options have a long name, some also a letter; letters may be written together, and a value
follows its option after a blank, after an equals sign, or directly after the letter. Only `exclude`
and `alias` may be repeated.
-/

namespace SymbolTree.CommandLine

/-- What an option expects after it. -/
inductive Operand where
  /-- Nothing. -/
  | none
  /-- Any text. -/
  | text
  /-- A text that is not empty. -/
  | path
deriving DecidableEq, Repr

/-- An option. -/
structure OptionSpec where
  /-- The name after two hyphens. -/
  name : String
  /-- The letter after one hyphen. -/
  letter : Option Char := .none
  /-- What it expects. -/
  operand : Operand := .none
  /-- Whether it may be given more than once. -/
  repeatable : Bool := false

/-- Options that every command accepts. -/
def sharedOptions : List OptionSpec :=
  [{ name := "config", letter := some 'c', operand := .path },
    { name := "verbose", letter := some 'v' }, { name := "help", letter := some 'h' }]

/-- Options before the command. -/
def leadingOptions : List OptionSpec :=
  sharedOptions ++ [{ name := "version", letter := some 'V' }]

/-- Options about the input. -/
def inputOptions : List OptionSpec :=
  sharedOptions ++
    [{ name := "exclude", operand := .text, repeatable := true },
      { name := "alias", operand := .text, repeatable := true }, { name := "strict" }]

/-- Options about the output. -/
def outputOptions : List OptionSpec :=
  [{ name := "output", letter := some 'o', operand := .path },
    { name := "title", operand := .text }, { name := "renderer", operand := .text },
    { name := "split-by-class" }, { name := "split-from-ns" },
    { name := "prefix", operand := .text }, { name := "suffix", operand := .text },
    { name := "global-objects", operand := .text }, { name := "format-json" },
    { name := "keep-out-dir" }, { name := "report" }, { name := "report-only" }]

/-- What to do. -/
inductive Command where
  /-- Read, resolve and render. -/
  | build
  /-- Read and resolve only. -/
  | check
deriving DecidableEq, Repr

/-- The options of a command. -/
def Command.options : Command → List OptionSpec
  | .build => inputOptions ++ outputOptions
  | .check => inputOptions

/-- The options and operands on a command line. -/
structure Given where
  /-- Options by name, each with its value. -/
  options : List (String × String) := []
  /-- Everything that is no option. -/
  operands : List String := []

namespace Given

/-- Whether an option is given. -/
def has (given : Given) (name : String) : Bool := given.options.any (·.1 == name)

/-- The values of an option, in order. -/
def valuesOf (given : Given) (name : String) : List String :=
  given.options.filterMap fun option => if option.1 == name then some option.2 else .none

/-- The value of an option. -/
def value? (given : Given) (name : String) : Option String := (given.valuesOf name).getLast?

end Given

/-- A request on the command line. -/
inductive Request where
  /-- Print the version. -/
  | version
  /-- Print the usage. -/
  | help
  /-- Run a command. -/
  | run (command : Command) (given : Given)

/-- What the start of a command line amounts to. -/
inductive Scan where
  /-- A malformed command line. -/
  | refused
  /-- An option that ends the scan. -/
  | finished (request : Request)
  /-- The options and operands so far. -/
  | reached (given : Given) (rest : List String)

/-- Record an option, unless it is repeated without being repeatable or its value is unfit. -/
def note? (spec : OptionSpec) (value : String) (given : Given) : Option Given :=
  if (given.has spec.name && !spec.repeatable) || (spec.operand = .path ∧ value.isEmpty) then .none
  else some { given with options := given.options ++ [(spec.name, value)] }

/-- Whether an argument looks like an option. -/
def looksLikeOption (argument : String) : Bool :=
  argument.startsWith '-' && argument != "-"

/-- Record an option whose value is the next argument. -/
def noteNext (spec : OptionSpec) (given : Given) : List String → Option (Given × List String)
  | value :: rest =>
    if looksLikeOption value then .none else (note? spec value given).map fun noted => (noted, rest)
  | [] => .none

/-- Read the letters of an argument that starts with one hyphen. -/
def scanLetters (specs : List OptionSpec) (given : Given) (rest : List String) :
    List Char → Scan
  | [] => .reached given rest
  | letter :: letters =>
    match specs.find? (·.letter == some letter) with
    | .none => .refused
    | some spec =>
      if spec.name = "help" then .finished .help
      else if spec.name = "version" then .finished .version
      else if spec.operand = .none then
        match note? spec "" given with
        | some noted => scanLetters specs noted rest letters
        | .none => .refused
      else
        let attached : Option String :=
          match letters with
          | [] => .none
          | '=' :: value => some (String.ofList value)
          | value => some (String.ofList value)
        match attached with
        | some value =>
          match note? spec value given with
          | some noted => .reached noted rest
          | .none => .refused
        | .none =>
          match noteNext spec given rest with
          | some (noted, rest) => .reached noted rest
          | .none => .refused

/-- Read an argument that starts with two hyphens. -/
def scanLong (specs : List OptionSpec) (given : Given) (rest : List String) (argument : List Char) :
    Scan :=
  let name := String.ofList (argument.takeWhile (· ≠ '='))
  let attached := (argument.dropWhile (· ≠ '=')).tail?.map String.ofList
  match specs.find? (·.name == name) with
  | .none => .refused
  | some spec =>
    match spec.operand, attached with
    | .none, some _ => .refused
    | .none, .none =>
      if spec.name = "help" then .finished .help
      else if spec.name = "version" then .finished .version
      else
        match note? spec "" given with
        | some noted => .reached noted rest
        | .none => .refused
    | _, some value =>
      match note? spec value given with
      | some noted => .reached noted rest
      | .none => .refused
    | _, .none =>
      match noteNext spec given rest with
      | some (noted, rest) => .reached noted rest
      | .none => .refused

/-- Read the option that an argument is. -/
def scanOption (specs : List OptionSpec) (given : Given) (argument : String) (rest : List String) :
    Scan :=
  match argument.toList with
  | '-' :: '-' :: long => scanLong specs given rest long
  | _ :: letters => scanLetters specs given rest letters
  | [] => .refused

/-- Read the options and operands of a command. `fuel` bounds the number of arguments. -/
def scanCommand (command : Command) : (fuel : Nat) → Given → List String → Option Request
  | 0, _, _ => .none
  | _ + 1, given, [] =>
    let conflict := given.has "split-by-class" && given.has "split-from-ns"
    if given.operands.isEmpty || conflict then .none else some (.run command given)
  | fuel + 1, given, argument :: rest =>
    if argument = "--" then
      scanCommand command fuel { given with operands := given.operands ++ rest } []
    else if looksLikeOption argument then
      match scanOption command.options given argument rest with
      | .refused => .none
      | .finished request => some request
      | .reached noted rest => scanCommand command fuel noted rest
    else
      scanCommand command fuel { given with operands := given.operands ++ [argument] } rest

/-- Prefer what stands after the command to what stands before it. -/
def mergeLeading (leading : Given) : Request → Request
  | .run command given =>
    .run command { given with options := leading.options ++ given.options }
  | request => request

/-- Read the options before a command, and then the command. -/
def scanLeading : (fuel : Nat) → Given → List String → Option Request
  | 0, _, _ | _ + 1, _, [] => .none
  | fuel + 1, leading, argument :: rest =>
    if argument = "build" then (scanCommand .build (rest.length + 2) {} rest).map (mergeLeading leading)
    else if argument = "check" then
      (scanCommand .check (rest.length + 2) {} rest).map (mergeLeading leading)
    else if argument = "help" then
      match rest with
      | [] | ["build"] | ["check"] | ["help"] => some .help
      | _ => .none
    else if argument ≠ "--" ∧ looksLikeOption argument then
      match scanOption leadingOptions leading argument rest with
      | .refused => .none
      | .finished request => some request
      | .reached noted rest => scanLeading fuel noted rest
    else .none

/-- The request of a command line; `none` if it is malformed. -/
def parse? (arguments : List String) : Option Request :=
  scanLeading (arguments.length + 1) {} arguments

end SymbolTree.CommandLine
