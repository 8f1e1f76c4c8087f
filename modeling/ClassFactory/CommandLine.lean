/-
Module: ClassFactory.CommandLine
Purpose: The arguments of the command. The only command is `check`, with files and options in any
  order; an option is given at most once, and `--` ends the options.
Main exports: OutputFormat, CheckRequest, Command, UsageError, Command.ofArguments
-/
import ClassFactory.Text.Search

namespace ClassFactory

/-- How findings are written. -/
inductive OutputFormat where
  | text
  | json
deriving Repr, Inhabited, DecidableEq

/-- What is to be checked, and how. -/
structure CheckRequest where
  files : List String
  format : OutputFormat
  emitTypes : Bool
  hostDiagnostics : Option String
  config : Option String
  quiet : Bool
deriving Repr, Inhabited, DecidableEq

/-- What is asked for. -/
inductive Command where
  | version
  | help
  | check (request : CheckRequest)
deriving Repr, Inhabited, DecidableEq

/-- What is wrong with the arguments. -/
inductive UsageError where
  | unexpected (argument : String)
  | repeated (option : String)
  | missingValue (option : String)
  | invalidValue (option value : String)
  | missingCommand
  | missingFiles
deriving Repr, Inhabited, DecidableEq

/-- The error in words. -/
def UsageError.message : UsageError → String
  | .unexpected argument => "unexpected argument " ++ argument
  | .repeated option => option ++ " cannot be used multiple times"
  | .missingValue option => option ++ " requires a value"
  | .invalidValue option value => "invalid value " ++ value ++ " for " ++ option
  | .missingCommand => "a command is required"
  | .missingFiles => "at least one file is required"

/-- Options that take a value. -/
inductive ValueOption where
  | format
  | hostDiagnostics
  | config
deriving Repr, Inhabited, DecidableEq

/-- The long name of an option with a value. -/
def ValueOption.name : ValueOption → String
  | .format => "--format"
  | .hostDiagnostics => "--host-diagnostics"
  | .config => "--config"

/-- Options without a value. -/
inductive FlagOption where
  | emitTypes
  | quiet
  | verbose
deriving Repr, Inhabited, DecidableEq

/-- The long name of an option without a value. -/
def FlagOption.name : FlagOption → String
  | .emitTypes => "--emit-types"
  | .quiet => "--quiet"
  | .verbose => "--verbose"

/-- What the next argument may be. -/
inductive Expectation where
  /-- A file or an option. -/
  | any
  /-- The value of an option. -/
  | value (option : ValueOption)
  /-- A file, whatever it looks like. -/
  | file
  /-- Help was asked for, and nothing else matters. -/
  | nothing
deriving Repr, Inhabited, DecidableEq

/-- The arguments of a check read so far. -/
structure CheckArguments where
  files : List String
  format : Option OutputFormat
  hostDiagnostics : Option String
  config : Option String
  flags : List FlagOption
  expects : Expectation
deriving Repr, Inhabited, DecidableEq

namespace CheckArguments

/-- No arguments. -/
def empty : CheckArguments :=
  { files := [], format := none, hostDiagnostics := none, config := none, flags := [],
    expects := .any }

/-- Sets an option without a value. -/
def setFlag (given : CheckArguments) (flag : FlagOption) : Except UsageError CheckArguments :=
  if given.flags.contains flag then .error (.repeated flag.name)
  else .ok { given with flags := flag :: given.flags }

/-- The format of that name. -/
def format? : String → Option OutputFormat
  | "text" => some .text
  | "json" => some .json
  | _ => none

/-- Sets an option to its value. -/
def setValue (given : CheckArguments) (option : ValueOption) (value : String) :
    Except UsageError CheckArguments :=
  let given := { given with expects := .any }
  match option with
  | .format =>
    match given.format, format? value with
    | some _, _ => .error (.repeated option.name)
    | none, some format => .ok { given with format := some format }
    | none, none => .error (.invalidValue option.name value)
  | .hostDiagnostics =>
    if given.hostDiagnostics.isSome then .error (.repeated option.name)
    else if value.isEmpty then .error (.invalidValue option.name value)
    else .ok { given with hostDiagnostics := some value }
  | .config =>
    if given.config.isSome then .error (.repeated option.name)
    else if value.isEmpty then .error (.invalidValue option.name value)
    else .ok { given with config := some value }

/-- Adds a file. -/
def addFile (given : CheckArguments) (file : String) : Except UsageError CheckArguments :=
  if file.isEmpty then .error (.invalidValue "file" file)
  else .ok { given with files := given.files ++ [file] }

/-- Reads an option with a long name, which may hold its value after a sign of equality. -/
def readLong (given : CheckArguments) (argument : String) : Except UsageError CheckArguments :=
  let cs := argument.toList
  let name := String.ofList (cs.takeWhile (· ≠ '='))
  let value : Option String := match cs.dropWhile (· ≠ '=') with
    | [] => none
    | _ :: rest => some (String.ofList rest)
  let valued (option : ValueOption) : Except UsageError CheckArguments := match value with
    | some value => given.setValue option value
    | none => .ok { given with expects := .value option }
  let flagged (flag : FlagOption) : Except UsageError CheckArguments := match value with
    | some _ => .error (.unexpected argument)
    | none => given.setFlag flag
  match name with
  | "--format" => valued .format
  | "--host-diagnostics" => valued .hostDiagnostics
  | "--config" => valued .config
  | "--emit-types" => flagged .emitTypes
  | "--quiet" => flagged .quiet
  | "--verbose" => flagged .verbose
  | "--help" =>
    if value.isSome then .error (.unexpected argument) else .ok { given with expects := .nothing }
  | _ => .error (.unexpected argument)

/-- Reads options of one letter each after their hyphen. The rest of the argument is the value of the
first that takes one. -/
def readShort (argument : String) : List Char → CheckArguments → Except UsageError CheckArguments
  | [], given => .ok given
  | 'q' :: rest, given => (given.setFlag .quiet).bind (readShort argument rest)
  | ['f'], given => .ok { given with expects := .value .format }
  | 'f' :: '=' :: rest, given => given.setValue .format (String.ofList rest)
  | 'f' :: rest, given => given.setValue .format (String.ofList rest)
  | 'h' :: _, given => .ok { given with expects := .nothing }
  | _, _ => .error (.unexpected argument)

/-- Whether an argument looks like an option. -/
def isOption (argument : String) : Bool :=
  match argument.toList with
  | '-' :: _ :: _ => true
  | _ => false

/-- Reads an argument that may be an option. -/
def readAny (given : CheckArguments) (argument : String) : Except UsageError CheckArguments :=
  match argument.toList with
  | ['-', '-'] => .ok { given with expects := .file }
  | '-' :: '-' :: _ => given.readLong argument
  | '-' :: c :: cs => readShort argument (c :: cs) given
  | _ => given.addFile argument

/-- Reads one argument. -/
def read (given : CheckArguments) (argument : String) : Except UsageError CheckArguments :=
  match given.expects with
  | .any => given.readAny argument
  | .value option =>
    if isOption argument then .error (.missingValue option.name)
    else given.setValue option argument
  | .file => given.addFile argument
  | .nothing => .ok given

/-- What the arguments ask for. -/
def command (given : CheckArguments) : Except UsageError Command :=
  match given.expects with
  | .nothing => .ok .help
  | .value option => .error (.missingValue option.name)
  | _ =>
    if given.files.isEmpty then .error .missingFiles
    else
      .ok (.check
        { files := given.files, format := given.format.getD .text,
          emitTypes := given.flags.contains .emitTypes,
          hostDiagnostics := given.hostDiagnostics, config := given.config,
          quiet := given.flags.contains .quiet })

end CheckArguments

namespace Command

/-- Reads the arguments of a check. -/
def ofCheckArguments (arguments : List String) : Except UsageError Command :=
  (arguments.foldlM CheckArguments.read CheckArguments.empty).bind CheckArguments.command

/-- Reads all arguments. In front of the command, `verbose` tells whether `--verbose` was given. -/
def ofArgumentsFrom (verbose : Bool) : List String → Except UsageError Command
  | [] => .error .missingCommand
  | "check" :: rest => ofCheckArguments rest
  | "help" :: _ => .ok .help
  | "--verbose" :: rest =>
    if verbose then .error (.repeated "--verbose") else ofArgumentsFrom true rest
  | "--version" :: _ => .ok .version
  | "--help" :: _ => .ok .help
  | argument :: _ =>
    match argument.toList with
    | '-' :: 'V' :: _ => .ok .version
    | '-' :: 'h' :: _ => .ok .help
    | _ => .error (.unexpected argument)

/-- Reads all arguments. -/
def ofArguments (arguments : List String) : Except UsageError Command :=
  ofArgumentsFrom false arguments

end Command

end ClassFactory
