import GoTrace.FileTree.Path
import GoTrace.Wrapper.Backend

/-!
# Command lines

The arguments of the command are read from left to right. An option is a word behind two dashes or a
letter behind one; letters can share a dash, and the last one of them may bring its value. What is
not given can come from environment variables. The first argument that cannot be read decides what
is wrong, and the first request for help or the version ends the reading.
-/

namespace GoTrace

/-- The options of the command. -/
inductive CommandOption where
  | types
  | output
  | package
  | tracer
  | verbose
  | help
  | version
deriving DecidableEq, Repr

namespace CommandOption

def all : List CommandOption := [types, output, package, tracer, verbose, help, version]

def word : CommandOption → String
  | types => "types"
  | output => "output"
  | package => "package"
  | tracer => "tracer"
  | verbose => "verbose"
  | help => "help"
  | version => "version"

def letter? : CommandOption → Option Char
  | types => some 't'
  | output => some 'o'
  | package => some 'p'
  | tracer => none
  | verbose => some 'v'
  | help => some 'h'
  | version => some 'V'

def takesValue : CommandOption → Bool
  | types | output | package | tracer => true
  | verbose | help | version => false

def environmentName? : CommandOption → Option String
  | types => some "TRACEABLE_TYPES"
  | output => some "TRACEABLE_OUTPUT"
  | tracer => some "TRACEABLE_TRACER"
  | package | verbose | help | version => none

end CommandOption

/-- Why the arguments cannot be read. -/
inductive UsageError where
  | unknownOption (argument : String)
  | missingValue (option : CommandOption)
  | unexpectedValue (option : CommandOption)
  | repeated (option : CommandOption)
  | invalidValue (option : CommandOption) (value : String)
  | emptyDirectory
  | missingTypes
deriving DecidableEq, Repr

/-- What ends the reading of arguments early. -/
inductive ReadingEnd where
  | usage (cause : UsageError)
  | help
  | version
deriving DecidableEq, Repr

structure Options where
  types : List String
  output : Option Path
  package : Option String
  tracer : Backend
  verbose : Bool
  directories : List Path
deriving DecidableEq, Repr

/-- The options that have been read so far. -/
structure GivenOptions where
  types : List String
  output : Option Path
  package : Option String
  tracer : Option Backend
  verbose : Bool
  directories : List Path
deriving DecidableEq, Repr

namespace GivenOptions

def empty : GivenOptions := ⟨[], none, none, none, false, []⟩

/-- With an option and its value. A list of types is separated by commas and may be given in parts,
other options are given once. All but a path are texts. -/
def set (given : GivenOptions) (option : CommandOption) (value : List UInt8) :
    Except ReadingEnd GivenOptions :=
  let invalid := .error (.usage (.invalidValue option (Text.shown value)))
  match option, Text.ofOctets? value with
  | .types, some list =>
      let tokens := (Text.fieldsBy (· = ',') list.toList).map String.ofList
      .ok { given with types := given.types ++ tokens }
  | .output, _ =>
      if given.output.isSome then .error (.usage (.repeated option))
      else if value.isEmpty then invalid
      else .ok { given with output := some ⟨value⟩ }
  | .package, some name =>
      if given.package.isSome then .error (.usage (.repeated option))
      else .ok { given with package := some name }
  | .tracer, some name =>
      if given.tracer.isSome then .error (.usage (.repeated option))
      else
        match Backend.ofName? name with
        | some backend => .ok { given with tracer := some backend }
        | none => invalid
  | .verbose, _ | .help, _ | .version, _ => .error (.usage (.unexpectedValue option))
  | _, none => invalid

def setTo (given : GivenOptions) (option : CommandOption) (value : List Char) :
    Except ReadingEnd GivenOptions :=
  given.set option (Text.octets (String.ofList value))

def turnOn (given : GivenOptions) (option : CommandOption) : Except ReadingEnd GivenOptions :=
  match option with
  | .help => .error .help
  | .version => .error .version
  | .verbose =>
      if given.verbose then .error (.usage (.repeated option))
      else .ok { given with verbose := true }
  | .types | .output | .package | .tracer => .error (.usage (.missingValue option))

def addDirectory (given : GivenOptions) (text : String) : Except ReadingEnd GivenOptions :=
  if text = "" then .error (.usage .emptyDirectory)
  else .ok { given with directories := given.directories ++ [.ofText text] }

/-- Reads the letters behind one dash. The result also tells the option that waits for a value,
which is the next argument. -/
def readLetters (given : GivenOptions) :
    List Char → Except ReadingEnd (GivenOptions × Option CommandOption)
  | [] => .ok (given, none)
  | c :: rest =>
      match CommandOption.all.find? fun option => option.letter? = some c with
      | none => .error (.usage (.unknownOption (String.ofList ['-', c])))
      | some option =>
          if option.takesValue then
            match rest with
            | [] => .ok (given, some option)
            | '=' :: value => (given.setTo option value).map (·, none)
            | value => (given.setTo option value).map (·, none)
          else do readLetters (← given.turnOn option) rest

def readWord (given : GivenOptions) (text : List Char) :
    Except ReadingEnd (GivenOptions × Option CommandOption) :=
  let (word, value) := match Text.cutBy? (· = '=') text with
    | some (word, value) => (word, some value)
    | none => (text, none)
  match CommandOption.all.find? fun option => option.word.toList = word with
  | none => .error (.usage (.unknownOption (String.ofList ('-' :: '-' :: word))))
  | some option =>
      match option.takesValue, value with
      | true, some value => (given.setTo option value).map (·, none)
      | true, none => .ok (given, some option)
      | false, some _ => .error (.usage (.unexpectedValue option))
      | false, none => (given.turnOn option).map (·, none)

/-- Whether an argument can stand for a value: it does not look like an option. -/
def isValue (argument : String) : Bool :=
  argument = "-" || argument.toList.head? ≠ some '-'

def read (given : GivenOptions) : List String → Except ReadingEnd GivenOptions
  | [] => .ok given
  | argument :: rest =>
      if argument = "--" then rest.foldlM addDirectory given
      else if isValue argument then do read (← given.addDirectory argument) rest
      else do
        let (given, waiting) ← match argument.toList with
          | '-' :: '-' :: word => given.readWord word
          | letters => given.readLetters letters.tail
        match waiting, rest with
        | none, rest => read given rest
        | some option, [] => .error (.usage (.missingValue option))
        | some option, value :: rest =>
            if isValue value then do read (← given.setTo option value.toList) rest
            else .error (.usage (.missingValue option))

def setFrom (settings : List (String × List UInt8)) (option : CommandOption) (absent : Bool)
    (given : GivenOptions) : Except ReadingEnd GivenOptions :=
  match option.environmentName?.bind fun name => settings.lookup name with
  | some value => if absent then given.set option value else .ok given
  | none => .ok given

end GivenOptions

namespace Options

def read (arguments : List String) (settings : List (String × List UInt8)) :
    Except ReadingEnd Options := do
  let given ← GivenOptions.empty.read arguments
  let given ← given.setFrom settings .types given.types.isEmpty
  let given ← given.setFrom settings .output given.output.isNone
  let given ← given.setFrom settings .tracer given.tracer.isNone
  if given.types.isEmpty then .error (.usage .missingTypes)
  else
    return {
      types := given.types
      output := given.output
      package := given.package
      tracer := given.tracer.getD .openTracing
      verbose := given.verbose
      directories := if given.directories.isEmpty then [.dot] else given.directories }

end Options

end GoTrace
