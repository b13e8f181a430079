import EnumConverter.Command
import EnumConverter.Command.Help

namespace EnumConverter

open Text

/-- What is wrong with a command line. -/
inductive UsageError where
  | noCommand
  | unknownCommand (word : String)
  | unknownOption (name : String)
  /-- An option has no value, or an empty one where that makes no sense. -/
  | missingValue (option : OptionName)
  /-- An option has a value that takes none. -/
  | unexpectedValue (option : OptionName)
  | repeatedOption (option : OptionName)
  | unexpectedWord (word : String)
deriving DecidableEq, Repr

/-- The message for an error. -/
def UsageError.message : UsageError → String
  | .noCommand => "a command is required"
  | .unknownCommand word => "unrecognized command '" ++ word ++ "'"
  | .unknownOption name => "unexpected option '" ++ name ++ "'"
  | .missingValue option => "a value is required for '--" ++ option.long ++ "'"
  | .unexpectedValue option => "'--" ++ option.long ++ "' takes no value"
  | .repeatedOption option => "'--" ++ option.long ++ "' cannot be used multiple times"
  | .unexpectedWord word => "unexpected argument '" ++ word ++ "'"

/-- Why a command line gives no command. A request for help or for the version is met at once, whatever
follows it. -/
inductive Detour where
  | usage (error : UsageError)
  | help (topic : HelpTopic)
  | version
deriving DecidableEq, Repr

/-- The answer to a request for the version. -/
def versionText : String := "cpp-codegen 0.1.0"

/-- The same detour behind a command, so that help is on the command. -/
def Detour.behind (name : CommandName) : Detour → Detour
  | .help _ => .help (.command name)
  | detour => detour

/-- The options of a command line as far as it was read. -/
structure GivenOptions where
  /-- The options with their values. Those that take none have an empty one. -/
  values : List (OptionName × String) := []
  /-- An option whose value is the next word. -/
  pending : Option OptionName := none
  /-- Whether two hyphens have ended the options. -/
  ended : Bool := false
deriving DecidableEq, Repr

namespace GivenOptions

/-- Whether an option was given. -/
def has (given : GivenOptions) (option : OptionName) : Bool :=
  given.values.any (·.1 = option)

/-- The value of an option. -/
def value? (given : GivenOptions) (option : OptionName) : Option String :=
  given.values.lookup option

/-- The path that is the value of an option. -/
def path? (given : GivenOptions) (option : OptionName) : Option Path :=
  (given.value? option).map Path.mk

/-- The value of a setting that an option sets. -/
def setting? (given : GivenOptions) (option : OptionName) (value : Bool) : Option Bool :=
  if given.has option then some value else none

/-- Adds an option. Only more verbosity can be asked for several times. -/
def add (given : GivenOptions) (option : OptionName) (value : String) :
    Except Detour GivenOptions :=
  if option = .help then .error (.help .program)
  else if option = .version then .error .version
  else if option.takes = .path ∧ value = "" then .error (.usage (.missingValue option))
  else if option ≠ .verbose ∧ given.has option then .error (.usage (.repeatedOption option))
  else .ok { given with values := given.values ++ [(option, value)], pending := none }

/-- Reads a word behind two hyphens. -/
def readLong (allowed : List OptionName) (given : GivenOptions) (word : List Char) :
    Except Detour GivenOptions :=
  let name := String.ofList (word.takeWhile (· ≠ '='))
  match allowed.find? (·.long = name), word.dropWhile (· ≠ '=') with
  | none, _ => .error (.usage (.unknownOption ("--" ++ name)))
  | some option, [] =>
    if option.takes = .nothing then given.add option ""
    else .ok { given with pending := some option }
  | some option, _ :: value =>
    if option.takes = .nothing then .error (.usage (.unexpectedValue option))
    else given.add option (String.ofList value)

/-- Reads short names behind one hyphen. -/
def readShort (allowed : List OptionName) (given : GivenOptions) :
    List Char → Except Detour GivenOptions
  | [] => .ok given
  | c :: rest =>
    match allowed.find? (·.short? = some c) with
    | none => .error (.usage (.unknownOption ("-" ++ c.toString)))
    | some option =>
      if option.takes = .nothing then do readShort allowed (← given.add option "") rest
      else match rest with
        | [] => .ok { given with pending := some option }
        | '=' :: value => given.add option (String.ofList value)
        | value => given.add option (String.ofList value)

/-- Reads one word. The value of an option starts with no hyphen, unless it is nothing else. -/
def read (allowed : List OptionName) (given : GivenOptions) (word : String) :
    Except Detour GivenOptions :=
  if given.ended then .error (.usage (.unexpectedWord word))
  else match given.pending, word.toList with
    | some option, '-' :: _ :: _ => .error (.usage (.missingValue option))
    | some option, _ => given.add option word
    | none, ['-', '-'] => .ok { given with ended := true }
    | none, '-' :: '-' :: long => given.readLong allowed long
    | none, '-' :: c :: more => given.readShort allowed (c :: more)
    | none, _ => .error (.usage (.unexpectedWord word))

/-- Reads all words behind a command. -/
def readAll (allowed : List OptionName) (words : List String) : Except Detour GivenOptions := do
  let given ← words.foldlM (read allowed) {}
  match given.pending with
  | some option => .error (.usage (.missingValue option))
  | none => return given

/-- The settings for a single run. -/
def adjustment (given : GivenOptions) : Adjustment where
  output := given.path? .output
  marker := given.value? .marker
  strictDirectives := given.setting? .strictDirectives true
  respectGitignore := given.setting? .noGitignore false

/-- What a command is about. -/
def subject (given : GivenOptions) : Subject where
  input := (given.path? .input).getD ⟨"."⟩
  settingsFile := given.path? .config
  adjustment := given.adjustment

/-- How files are generated. -/
def generateOptions (given : GivenOptions) : GenerateOptions where
  filter := given.value? .filter
  dryRun := given.has .dryRun
  policy := ⟨given.has .strict, given.has .denyWarnings⟩

/-- The command of a name with the options that were given. -/
def command (given : GivenOptions) : CommandName → Command
  | .generate => .generate given.subject given.generateOptions (given.has .watch)
  | .init => .init ((given.path? .output).getD ⟨settingsFileName⟩) (given.has .force)
  | .validate => .validate given.subject
  | .inspect => .inspect given.subject (given.value? .filter)

end GivenOptions

/-- Why a command line gives no command that asks for help on something. -/
def helpOn : List String → Detour
  | [] => .help .program
  | [word] =>
    match CommandName.ofWord? word with
    | some name => .help (.command name)
    | none => if word = "help" then .help .help else .usage (.unknownCommand word)
  | word :: next :: _ =>
    .usage (.unknownCommand (if (CommandName.ofWord? word).isSome then next else word))

/-- The command that the words of a command line ask for. -/
def Command.ofArguments : List String → Except Detour Command
  | [] => .error (.usage .noCommand)
  | word :: rest =>
    match CommandName.ofWord? word with
    | some name => do
      let given ← (GivenOptions.readAll name.options rest).mapError (·.behind name)
      return given.command name
    | none =>
      if word = "help" then .error (helpOn rest)
      else match word.toList with
        | '-' :: _ :: _ => do
          let given ← GivenOptions.read generalOptions {} word
          if given.ended then .error (.usage .noCommand) else ofArguments rest
        | _ => .error (.usage (.unknownCommand word))

end EnumConverter
