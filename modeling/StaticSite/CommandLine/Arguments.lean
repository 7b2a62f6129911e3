/-!
The arguments of a command line. The first names a command; the others are options of that command, in
any order. An option with a letter may be written together with others, a value may follow its option
directly, behind an equals sign, or as the next argument.

A value that is the next argument is only looked at when another option follows or the arguments end.
This decides which of several mistakes is found.
-/

namespace StaticSite.CommandLine

inductive Command
  /-- Builds the site once. -/
  | build
  /-- Builds the site, and again after every change. -/
  | watch
deriving DecidableEq, Repr

def Command.name : Command → String
  | .build => "build"
  | .watch => "watch"

def Command.ofName? : String → Option Command
  | "build" => some .build
  | "watch" => some .watch
  | _ => none

/-- Options that have a value. -/
inductive ValueOption
  | directory
  | output
  | configFile
deriving DecidableEq, Repr

/-- Options that are given or not. -/
inductive Flag
  | dev
  | quiet
deriving DecidableEq, Repr

/-- What a command was given. -/
structure Arguments where
  command : Command
  /-- The directory to build. -/
  directory? : Option String := none
  /-- Where to build it, seen from the working directory. -/
  output? : Option String := none
  configFile? : Option String := none
  dev : Bool := false
  quiet : Bool := false
deriving DecidableEq, Repr

/-- Why arguments lead to no command. To ask for help or for the version is one of the reasons. -/
inductive UsageError
  | help
  | version
  | missingCommand
  | unknownCommand (name : String)
  | unknownArgument (argument : String)
  | missingValue (option : ValueOption)
  /-- An option that has no value was given one. -/
  | unexpectedValue (argument : String)
  | repeatedOption (option : ValueOption)
  | repeatedFlag (flag : Flag)
  /-- To log more and to log less exclude each other. -/
  | devAndQuiet
deriving DecidableEq, Repr

def ValueOption.text : ValueOption → String
  | .directory => "--directory <DIR>"
  | .output => "--output <DIR>"
  | .configFile => "--config <FILE>"

def Flag.text : Flag → String
  | .dev => "--dev"
  | .quiet => "--quiet"

def UsageError.message : UsageError → String
  | .help => "Usage: kiln build|watch [-C DIR] [-o DIR] [--config FILE] [-g|--quiet]"
  | .version => "kiln 0.1.0"
  | .missingCommand => "Usage: kiln <COMMAND>, where the command is build, watch or help"
  | .unknownCommand name => "unrecognized subcommand '" ++ name ++ "'"
  | .unknownArgument argument => "unexpected argument '" ++ argument ++ "' found"
  | .missingValue option => "a value is required for '" ++ option.text ++ "' but none was supplied"
  | .unexpectedValue argument =>
    "unexpected value for '" ++ argument ++ "' found; no more were expected"
  | .repeatedOption option => "the argument '" ++ option.text ++ "' cannot be used multiple times"
  | .repeatedFlag flag => "the argument '" ++ flag.text ++ "' cannot be used multiple times"
  | .devAndQuiet => "the argument '--quiet' cannot be used with '--dev'"

/-- Whether the message is an answer that was asked for. -/
def UsageError.isAnswer : UsageError → Bool
  | .help | .version => true
  | _ => false

/-- What an option stands for. -/
inductive Meaning
  | value (option : ValueOption)
  | flag (flag : Flag)
  | help
deriving DecidableEq, Repr

def longMeaning? : String → Option Meaning
  | "directory" => some (.value .directory)
  | "output" => some (.value .output)
  | "config" => some (.value .configFile)
  | "dev" => some (.flag .dev)
  | "quiet" => some (.flag .quiet)
  | "help" => some .help
  | _ => none

def shortMeaning? : Char → Option Meaning
  | 'C' => some (.value .directory)
  | 'o' => some (.value .output)
  | 'g' => some (.flag .dev)
  | 'h' => some .help
  | _ => none

/-- The value that an option was given. -/
def Arguments.value? (arguments : Arguments) : ValueOption → Option String
  | .directory => arguments.directory?
  | .output => arguments.output?
  | .configFile => arguments.configFile?

def Arguments.withValue (arguments : Arguments) (value : String) : ValueOption → Arguments
  | .directory => { arguments with directory? := some value }
  | .output => { arguments with output? := some value }
  | .configFile => { arguments with configFile? := some value }

/-- Whether a flag was given. -/
def Arguments.has (arguments : Arguments) : Flag → Bool
  | .dev => arguments.dev
  | .quiet => arguments.quiet

def Arguments.withFlag (arguments : Arguments) : Flag → Arguments
  | .dev => { arguments with dev := true }
  | .quiet => { arguments with quiet := true }

/-- How an argument is written. -/
inductive Shape
  /-- Two hyphens alone: no options follow. -/
  | divider
  | long (name : String) (value? : Option String)
  /-- Letters behind a hyphen. -/
  | letters (letters : List Char)
  | plain (text : String)
deriving DecidableEq, Repr

/-- The shape of an argument. A hyphen alone is plain. -/
def Shape.of (argument : String) : Shape :=
  match argument.toList with
  | ['-', '-'] => .divider
  | '-' :: '-' :: rest =>
    let name := String.ofList (rest.takeWhile (· != '='))
    match rest.dropWhile (· != '=') with
    | [] => .long name none
    | _ :: value => .long name (some (String.ofList value))
  | '-' :: c :: rest => .letters (c :: rest)
  | _ => .plain argument

/-- The options read so far, and the option that has been read last if its value is still to come or has
not been looked at. -/
structure OptionReading where
  arguments : Arguments
  pending? : Option (ValueOption × Option String) := none
  /-- Whether the divider has been read. -/
  divided : Bool := false
deriving DecidableEq, Repr

namespace OptionReading

/-- Takes the value of an option into the arguments. -/
def store (reading : OptionReading) (option : ValueOption) (value : String) :
    Except UsageError OptionReading :=
  if (reading.arguments.value? option).isSome then .error (.repeatedOption option)
  else .ok { reading with arguments := reading.arguments.withValue value option }

/-- Looks at the pending value. -/
def settle (reading : OptionReading) : Except UsageError OptionReading :=
  match reading.pending? with
  | none => .ok reading
  | some (option, none) => .error (.missingValue option)
  | some (option, some value) => { reading with pending? := none }.store option value

/-- Reads an option together with its value. -/
def give (reading : OptionReading) (option : ValueOption) (value : String) :
    Except UsageError OptionReading := do
  let reading ← reading.settle
  reading.store option value

/-- Reads an option whose value is to come. -/
def await (reading : OptionReading) (option : ValueOption) : Except UsageError OptionReading := do
  let reading ← reading.settle
  .ok { reading with pending? := some (option, none) }

def raise (reading : OptionReading) (flag : Flag) : Except UsageError OptionReading := do
  let reading ← reading.settle
  if reading.arguments.has flag then .error (.repeatedFlag flag)
  else .ok { reading with arguments := reading.arguments.withFlag flag }

/-- Asking for help ends the reading. -/
def askHelp (reading : OptionReading) : Except UsageError OptionReading := do
  let _ ← reading.settle
  .error .help

/-- Reads letters behind a hyphen. What follows the letter of an option with a value is its value. -/
def letters (reading : OptionReading) : List Char → Except UsageError OptionReading
  | [] => .ok reading
  | c :: rest =>
    match shortMeaning? c with
    | none => .error (.unknownArgument (String.ofList ['-', c]))
    | some .help => reading.askHelp
    | some (.flag flag) => do
      let reading ← reading.raise flag
      reading.letters rest
    | some (.value option) =>
      match rest with
      | [] => reading.await option
      | '=' :: value => reading.give option (String.ofList value)
      | value => reading.give option (String.ofList value)

def long (reading : OptionReading) (name : String) (value? : Option String) :
    Except UsageError OptionReading :=
  match longMeaning? name, value? with
  | none, _ => .error (.unknownArgument ("--" ++ name))
  | some (.value option), some value => reading.give option value
  | some (.value option), none => reading.await option
  | some _, some _ => .error (.unexpectedValue ("--" ++ name))
  | some (.flag flag), none => reading.raise flag
  | some .help, none => reading.askHelp

/-- Reads an argument that is no option: the value of the option in front of it. -/
def plain (reading : OptionReading) (text : String) : Except UsageError OptionReading :=
  match reading.pending? with
  | some (option, none) => .ok { reading with pending? := some (option, some text) }
  | _ => .error (.unknownArgument text)

/-- Reads one argument. -/
def step (reading : OptionReading) (argument : String) : Except UsageError OptionReading :=
  if reading.divided then .error (.unknownArgument argument)
  else
    match Shape.of argument with
    | .divider => .ok { reading with divided := true }
    | .long name value? => reading.long name value?
    | .letters letters => reading.letters letters
    | .plain text => reading.plain text

/-- The arguments when all have been read. -/
def finish (reading : OptionReading) : Except UsageError Arguments := do
  let reading ← reading.settle
  if reading.arguments.dev && reading.arguments.quiet then .error .devAndQuiet
  else .ok reading.arguments

end OptionReading

/-- Reads the options of a command. -/
def parseOptions (command : Command) (arguments : List String) : Except UsageError Arguments := do
  let reading ← arguments.foldlM OptionReading.step { arguments := { command } }
  reading.finish

/-- The answer to `help` with the names of commands behind it, of which only the first can be one. -/
def helpOn (names : List String) : UsageError :=
  match names with
  | [] => .help
  | name :: rest =>
    if (Command.ofName? name).isNone && name != "help" then .unknownCommand name
    else
      match rest with
      | [] => .help
      | name :: _ => .unknownCommand name

/-- Why an argument in front of a command is out of place. -/
def misplaced (argument : String) : UsageError :=
  match Shape.of argument with
  | .divider | .plain _ => .unknownCommand argument
  | .long name value? =>
    if name != "help" && name != "version" then .unknownArgument ("--" ++ name)
    else if value?.isSome then .unexpectedValue ("--" ++ name)
    else if name == "help" then .help
    else .version
  | .letters letters =>
    match letters.head? with
    | some 'h' => .help
    | some 'V' => .version
    | _ => .unknownArgument argument

/-- Reads all arguments of a command line. Behind a divider no command is looked for. -/
def parse (arguments : List String) : Except UsageError Arguments :=
  match arguments with
  | [] | ["--"] => .error .missingCommand
  | "--" :: name :: _ =>
    .error
      (if (Command.ofName? name).isSome || name == "help" then .unknownArgument name
      else .unknownCommand name)
  | "help" :: names => .error (helpOn names)
  | name :: rest =>
    match Command.ofName? name with
    | some command => parseOptions command rest
    | none => .error (misplaced name)

end StaticSite.CommandLine
