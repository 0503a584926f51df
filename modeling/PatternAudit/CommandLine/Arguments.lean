/-!
# Command lines

A command line names a command, with options before and after its name. An option belongs to the
level at which it stands, before the name or after it; those that both levels know may be given at
both, and then the inner one counts.

An option that takes a value, and a run of file names, stay pending until the next argument shows
that they are complete. Only then are they checked, so that an argument nobody knows is reported
before a bad value in front of it.
-/

namespace PatternAudit.CommandLine

inductive Format
  | text
  | json
  | csv
  | tsv
  deriving DecidableEq

def Format.ofName? : String → Option Format
  | "text" => some text
  | "json" => some json
  | "csv" => some csv
  | "tsv" => some tsv
  | _ => none

/-- What to score: two files, or one file and where to find the other. -/
structure EvaluateOptions where
  files : List String
  executable : Option String
  matcher : Option String
  /-- Whether colliding detections are reduced to one. -/
  resolve : Bool
  deriving DecidableEq

inductive Command
  | evaluate (options : EvaluateOptions)
  | patterns (file : String)
  deriving DecidableEq

structure Invocation where
  verbose : Bool
  format : Format
  command : Command
  deriving DecidableEq

/-- Why a command line is not carried out. -/
inductive Refusal
  | helpAsked
  | versionAsked
  /-- There are no arguments at all. -/
  | nothingAsked
  | missingCommand
  | unknownCommand
  | unknownArgument
  | badValue
  | tooManyValues
  /-- An option or flag is given twice at one level. -/
  | repeated
  | missingArgument
  deriving DecidableEq

/-! ## Options -/

inductive Level
  | top
  | evaluate
  | patterns
  deriving DecidableEq

inductive Flag
  | verbose
  | noDedup
  deriving DecidableEq

inductive ValueOption
  | format
  | executable
  | matcher
  deriving DecidableEq

inductive Known
  | flag (f : Flag)
  | value (o : ValueOption)
  | help
  | version
  deriving DecidableEq

/-- The option that a long name stands for at a level. -/
def Level.long? (level : Level) (name : String) : Option Known :=
  match name, level with
  | "verbose", _ => some (.flag .verbose)
  | "format", _ => some (.value .format)
  | "help", _ => some .help
  | "version", .top => some .version
  | "executable", .evaluate => some (.value .executable)
  | "matcher", .evaluate => some (.value .matcher)
  | "no-dedup", .evaluate => some (.flag .noDedup)
  | _, _ => none

/-- The option that a letter stands for at a level. -/
def Level.short? (level : Level) (letter : Char) : Option Known :=
  match letter, level with
  | 'v', _ => some (.flag .verbose)
  | 'f', _ => some (.value .format)
  | 'h', _ => some .help
  | 'V', .top => some .version
  | _, _ => none

/-- What has been given at a level. -/
structure Given where
  verbose : Bool := false
  noDedup : Bool := false
  format : Option Format := none
  executable : Option String := none
  matcher : Option String := none
  files : List String := []
  deriving DecidableEq

namespace Given

def setFlag (g : Given) : Flag → Except Refusal Given
  | .verbose => if g.verbose then .error .repeated else .ok { g with verbose := true }
  | .noDedup => if g.noDedup then .error .repeated else .ok { g with noDedup := true }

/-- A path must not be empty. -/
def checkPath (path : String) : Except Refusal String :=
  if path.isEmpty then .error .badValue else .ok path

def setValue (g : Given) (option : ValueOption) (value : String) : Except Refusal Given :=
  match option with
  | .format =>
    if g.format.isSome then .error .repeated
    else
      match Format.ofName? value with
      | some format => .ok { g with format := some format }
      | none => .error .badValue
  | .executable =>
    if g.executable.isSome then .error .repeated
    else (checkPath value).map fun path => { g with executable := some path }
  | .matcher =>
    if g.matcher.isSome then .error .repeated else .ok { g with matcher := some value }

/-- The most files that may stand in a row. -/
def maxRun : Nat := 2

def addFiles (g : Given) (files : List String) : Except Refusal Given :=
  if maxRun < files.length then .error .tooManyValues
  else (files.mapM checkPath).map fun files => { g with files := g.files ++ files }

end Given

/-- An argument that waits to be complete. -/
inductive Pending
  | option (o : ValueOption) (value : Option String)
  | files (values : List String)
  deriving DecidableEq

/-- The arguments of a level, as far as they have been read. -/
structure Scan where
  given : Given := {}
  pending : Option Pending := none
  /-- Whether options are over, after a double dash. -/
  plain : Bool := false
  deriving DecidableEq

namespace Scan

/-- Checks and takes what is pending. -/
def settle (s : Scan) : Except Refusal Scan :=
  match s.pending with
  | none => .ok s
  | some (.option _ none) => .error .badValue
  | some (.option o (some value)) =>
    (s.given.setValue o value).map fun given => { s with given, pending := none }
  | some (.files values) =>
    (s.given.addFiles values).map fun given => { s with given, pending := none }

/-- Whether an option waits for its value. -/
def awaitsValue (s : Scan) : Bool :=
  match s.pending with
  | some (.option _ none) => !s.plain
  | _ => false

def takeFlag (s : Scan) (f : Flag) : Except Refusal Scan := do
  let s ← s.settle
  return { s with given := ← s.given.setFlag f }

/-- An option with the value that is attached to it, if there is one. -/
def takeOption (s : Scan) (o : ValueOption) : Option String → Except Refusal Scan
  | some value => do
    let s ← s.settle
    return { s with given := ← s.given.setValue o value }
  | none => do
    let s ← s.settle
    return { s with pending := some (.option o none) }

/-- Stops for a reason, once what is pending has been found right. -/
def stop (s : Scan) (reason : Refusal) : Except Refusal Scan := do
  let _ ← s.settle
  throw reason

/-- An argument that begins with two dashes. -/
def takeLong (level : Level) (s : Scan) (name : String) (value : Option String) :
    Except Refusal Scan :=
  match level.long? name, value with
  | none, _ => .error .unknownArgument
  | some (.value o), value => s.takeOption o value
  | some _, some _ => .error .tooManyValues
  | some (.flag f), none => s.takeFlag f
  | some .help, none => s.stop .helpAsked
  | some .version, none => s.stop .versionAsked

/-- The value attached to a letter: what follows it, without an equals sign. -/
def attached : List Char → Option String
  | [] => none
  | '=' :: rest => some (String.ofList rest)
  | rest => some (String.ofList rest)

/-- The letters after a single dash. -/
def takeShort (level : Level) (s : Scan) : List Char → Except Refusal Scan
  | [] => .ok s
  | letter :: rest =>
    match level.short? letter with
    | none => .error .unknownArgument
    | some (.value o) => s.takeOption o (attached rest)
    | some (.flag f) => do
      let s ← s.takeFlag f
      takeShort level s rest
    | some .help => s.stop .helpAsked
    | some .version => s.stop .versionAsked

/-- A file name. -/
def takeFile (level : Level) (s : Scan) (file : String) : Except Refusal Scan :=
  match level, s.pending with
  | .top, _ => .error .unknownCommand
  | .evaluate, some (.files values) => .ok { s with pending := some (.files (values ++ [file])) }
  | .patterns, some (.files _) => .error .unknownArgument
  | .patterns, _ =>
    if s.given.files.isEmpty then do
      let s ← s.settle
      return { s with pending := some (.files [file]) }
    else .error .unknownArgument
  | .evaluate, _ => do
    let s ← s.settle
    return { s with pending := some (.files [file]) }

/-- An argument that is no option. -/
def takePlain (level : Level) (s : Scan) (argument : String) : Except Refusal Scan :=
  match s.pending with
  | some (.option o none) =>
    if s.plain then s.takeFile level argument
    else .ok { s with pending := some (.option o (some argument)) }
  | _ => s.takeFile level argument

/-- A long option without its dashes: the name up to an equals sign, and what follows that. -/
def splitLong (rest : List Char) : String × Option String :=
  let name := rest.takeWhile (· != '=')
  match rest.drop name.length with
  | [] => (String.ofList name, none)
  | _ :: value => (String.ofList name, some (String.ofList value))

/-- The scan after one more argument. -/
def step (level : Level) (s : Scan) (argument : String) : Except Refusal Scan :=
  if s.plain then s.takePlain level argument
  else
    match argument.toList with
    | ['-', '-'] => .ok { s with plain := true }
    | '-' :: '-' :: rest => s.takeLong level (splitLong rest).1 (splitLong rest).2
    | '-' :: letter :: rest => s.takeShort level (letter :: rest)
    | _ => s.takePlain level argument

/-- All arguments of a level. -/
def all (level : Level) (arguments : List String) : Except Refusal Given := do
  let s ← arguments.foldlM (step level) {}
  return (← s.settle).given

end Scan

/-! ## Commands -/

/-- The arguments after the name of the command `evaluate`. A matcher is needed to make use of an
executable, and the other way round. -/
def parseEvaluate (arguments : List String) : Except Refusal (Given × Command) := do
  let g ← Scan.all .evaluate arguments
  if g.files.isEmpty || g.executable.isSome != g.matcher.isSome then throw .missingArgument
  return (g, .evaluate ⟨g.files, g.executable, g.matcher, !g.noDedup⟩)

/-- The arguments after the name of the command `patterns`. -/
def parsePatterns (arguments : List String) : Except Refusal (Given × Command) := do
  let g ← Scan.all .patterns arguments
  match g.files with
  | file :: _ => return (g, .patterns file)
  | [] => throw .missingArgument

inductive CommandName
  | evaluate
  | patterns
  | help
  deriving DecidableEq

def CommandName.of? : String → Option CommandName
  | "evaluate" => some evaluate
  | "patterns" => some patterns
  | "help" => some help
  | _ => none

/-- The arguments after the name of the command `help`: at most the name of a command. -/
def refuseHelp : List String → Refusal
  | [] => .helpAsked
  | [name] => if (CommandName.of? name).isSome then .helpAsked else .unknownCommand
  | _ => .unknownCommand

/-- The invocation for the options of both levels. -/
def combine (outer inner : Given) (command : Command) : Invocation where
  verbose := outer.verbose || inner.verbose
  format := (inner.format.orElse fun _ => outer.format).getD .text
  command := command

/-- The options before the command, the command and its arguments. What is pending before the
command is settled only after it. -/
def parseFrom (s : Scan) : List String → Except Refusal Invocation
  | [] => do
    let s ← s.settle
    throw (if s.given = {} then .nothingAsked else .missingCommand)
  | argument :: rest =>
    match CommandName.of? argument with
    | some name =>
      if s.plain then .error .unknownArgument
      else if s.awaitsValue then do
        let s ← s.step .top argument
        parseFrom s rest
      else
        match name with
        | .help => .error (refuseHelp rest)
        | .evaluate => do
          let (inner, command) ← parseEvaluate rest
          return combine (← s.settle).given inner command
        | .patterns => do
          let (inner, command) ← parsePatterns rest
          return combine (← s.settle).given inner command
    | none => do
      let s ← s.step .top argument
      parseFrom s rest

/-- The invocation that a command line asks for. -/
def parse (arguments : List String) : Except Refusal Invocation :=
  parseFrom {} arguments

end PatternAudit.CommandLine
