import QueryTypes.Text.Basic

/-!
# Arguments of a command

A command line is a list of texts: options, with values where they need them, and operands.
A long option follows two dashes, with its value behind an equals sign or in the next text.
Options of one letter follow one dash, several together if all but the last have no value,
and the value stands at once behind the letter or in the next text. Behind two dashes alone
everything is an operand.
-/

namespace QueryTypes

namespace CommandLine

/-- What a path on a command line has to lead to. -/
inductive PathNeed where
  /-- A file. -/
  | file
  /-- A directory. -/
  | directory
  /-- A file or a directory. -/
  | either
  /-- Anything, or nothing at all. -/
  | anything
  deriving DecidableEq

/-- An option that a command knows. -/
structure OptionForm where
  /-- Its long name. -/
  word : String
  /-- Its letter, if it has one. -/
  letter : Option Char := none
  /-- Whether it needs a value. -/
  hasValue : Bool := true
  /-- What its value has to lead to, if that is a path. -/
  path : Option PathNeed := none

/-- Something given on a command line. -/
inductive Argument where
  /-- An option without a value. -/
  | flag (word : String)
  /-- An option with its value. -/
  | option (word value : String)
  /-- Anything else. -/
  | operand (text : String)
  deriving DecidableEq

/-- Why a command line makes no sense. -/
inductive UsageError where
  /-- There is no such option. -/
  | unknownOption (text : String)
  /-- An option needs a value. -/
  | missingValue (word : String)
  /-- An option has no value. -/
  | unexpectedValue (word : String)
  /-- A command needs an option. -/
  | missingOption (word : String)
  /-- A command needs an operand. -/
  | missingOperand (name : String)
  /-- A command has no such operand. -/
  | unexpectedOperand (text : String)
  /-- There is no command. -/
  | missingCommand
  /-- There is no such command. -/
  | unknownCommand (name : String)
  /-- A path does not exist. -/
  | missingPath (text : String)
  /-- A path leads to a file where a directory is needed, or the other way round. -/
  | wrongPath (text : String)
  /-- There is a null character in a path. -/
  | nullCharacter (text : String)
  deriving DecidableEq

/-- What is said about a command line that makes no sense. -/
def UsageError.message : UsageError → String
  | unknownOption text => "No such option: " ++ text
  | missingValue word => "Option --" ++ word ++ " requires an argument."
  | unexpectedValue word => "Option --" ++ word ++ " does not take a value."
  | missingOption word => "Missing option --" ++ word ++ "."
  | missingOperand name => "Missing argument " ++ name ++ "."
  | unexpectedOperand text => "Got unexpected extra argument (" ++ text ++ ")"
  | missingCommand => "Missing command."
  | unknownCommand name => "No such command " ++ name ++ "."
  | missingPath text => "Path " ++ text ++ " does not exist."
  | wrongPath text => "Path " ++ text ++ " is of the wrong kind."
  | nullCharacter text => "Path " ++ text ++ " holds a null character."

namespace Argument

/-- A long option without its dashes, up to an equals sign and from there on. -/
def splitValue (text : List Char) : String × Option String :=
  match text.span (· ≠ '=') with
  | (word, []) => (String.ofList word, none)
  | (word, _ :: value) => (String.ofList word, some (String.ofList value))

/-- Options of one letter: those without a value, and the last one if it needs a value,
with what follows it. -/
def letters (forms : List OptionForm) :
    List Char → Except UsageError (List Argument × Option (String × List Char))
  | [] => .ok ([], none)
  | c :: rest =>
    match forms.find? fun f => f.letter = some c with
    | none => .error (.unknownOption (String.ofList ['-', c]))
    | some f =>
      if f.hasValue then .ok ([], some (f.word, rest))
      else do
        let (flags, last) ← letters forms rest
        return (.flag f.word :: flags, last)

/-- What one text of a command line begins. -/
inductive Opening where
  /-- Some arguments, complete. -/
  | complete (arguments : List Argument)
  /-- Some arguments, and an option whose value is the next text. -/
  | needsValue (arguments : List Argument) (word : String)
  /-- From here on there are operands only. -/
  | operandsFollow

/-- What a long option begins. -/
def openLong (forms : List OptionForm) (long : List Char) : Except UsageError Opening :=
  let (word, value) := splitValue long
  match forms.find? fun f => f.word = word with
  | none => .error (.unknownOption ("--" ++ word))
  | some f => match f.hasValue, value with
    | true, some given => .ok (.complete [option word given])
    | true, none => .ok (.needsValue [] word)
    | false, some _ => .error (.unexpectedValue word)
    | false, none => .ok (.complete [flag word])

/-- What some options of one letter begin. -/
def openLetters (forms : List OptionForm) (text : List Char) : Except UsageError Opening := do
  let (flags, last) ← letters forms text
  match last with
  | none => return .complete flags
  | some (word, []) => return .needsValue flags word
  | some (word, given) => return .complete (flags ++ [option word (String.ofList given)])

/-- What a text begins. -/
def openText (forms : List OptionForm) (text : String) : Except UsageError Opening :=
  match text.toList with
  | ['-', '-'] => .ok .operandsFollow
  | '-' :: '-' :: long => openLong forms long
  | '-' :: c :: more => openLetters forms (c :: more)
  | _ => .ok (.complete [operand text])

/-- The arguments that some texts are, for a command that knows some options. -/
def read (forms : List OptionForm) : List String → Except UsageError (List Argument)
  | [] => .ok []
  | text :: rest => do
    match ← openText forms text with
    | .operandsFollow => return rest.map operand
    | .complete arguments => return arguments ++ (← read forms rest)
    | .needsValue arguments word => match rest with
      | [] => .error (.missingValue word)
      | given :: others => return arguments ++ option word given :: (← read forms others)

/-! ### Looking arguments up -/

/-- The values of an option, in order. -/
def valuesOf (word : String) (arguments : List Argument) : List String :=
  arguments.filterMap fun a => match a with
    | option other value => if other = word then some value else none
    | _ => none

/-- The value of an option that counts: the last one. -/
def valueOf? (word : String) (arguments : List Argument) : Option String :=
  (valuesOf word arguments).getLast?

/-- The options with a value, in the order in which they are first given. -/
def wordsWithValues (arguments : List Argument) : List String :=
  (arguments.filterMap fun a => match a with
    | option word _ => some word
    | _ => none).eraseDups

/-- Whether an option without a value is given. -/
def isGiven (word : String) (arguments : List Argument) : Bool :=
  arguments.contains (flag word)

/-- Of two options without a value that contradict each other, whether the first one was
given last. -/
def choice? (yes no : String) (arguments : List Argument) : Option Bool :=
  (arguments.filterMap fun a =>
    if a = flag yes then some true else if a = flag no then some false else none).getLast?

/-- The operands in order. -/
def operands (arguments : List Argument) : List String :=
  arguments.filterMap fun a => match a with
    | operand text => some text
    | _ => none

end Argument

end CommandLine

end QueryTypes
