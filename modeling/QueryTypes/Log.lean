import QueryTypes.Decimal.Reading

/-!
# Log records

What a run reports while it works. A record has a level, the name of the logger that made
it and a message; where records go and which of them are shown is decided outside. The
command line shows warnings and worse, or everything if it is asked to be verbose.
-/

namespace QueryTypes

namespace Log

/-- How much a record matters. -/
inductive Level where
  /-- Of interest when something goes wrong. -/
  | debug
  /-- Of interest to follow a run. -/
  | info
  /-- Something was left out. -/
  | warning
  /-- Something failed. -/
  | error
  /-- Nothing works any more. -/
  | critical
  deriving DecidableEq, Inhabited

namespace Level

/-- The word for a level. -/
def word : Level → String
  | debug => "DEBUG"
  | info => "INFO"
  | warning => "WARNING"
  | error => "ERROR"
  | critical => "CRITICAL"

/-- The level of a word; two levels have a second word. -/
def ofWord? (word : String) : Option Level :=
  if word = "WARN" then some warning
  else if word = "FATAL" then some critical
  else [debug, info, warning, error, critical].find? fun level => level.word = word

@[simp] theorem ofWord?_word (level : Level) : ofWord? level.word = some level := by
  cases level <;> rfl

/-- Levels in the order of how much they matter. -/
def rank : Level → Nat
  | debug => 10
  | info => 20
  | warning => 30
  | error => 40
  | critical => 50

end Level

/-- One report of a run. -/
structure Record where
  /-- How much it matters. -/
  level : Level
  /-- The logger that made it. -/
  logger : String
  /-- What it says. -/
  message : String
  deriving DecidableEq, Inhabited

/-! ### Loggers -/

/-- The logger that all others belong to. -/
def rootLogger : String := "gql_tsgen"

/-- The logger of a part of the program. -/
def loggerName (name : String) : String :=
  if name = "" then rootLogger else rootLogger ++ "." ++ name

/-- A record made by a part of the program. -/
def record (level : Level) (name message : String) : Record := ⟨level, loggerName name, message⟩

/-! ### Showing records -/

/-- Which records are shown: as set up, or none set up yet. -/
inductive Display where
  /-- Nothing is set up; warnings and worse show their bare message. -/
  | plain
  /-- Warnings and worse are shown, or everything. -/
  | configured (verbose : Bool)
  deriving DecidableEq, Inhabited

/-- The least level that is shown. -/
def Display.threshold : Display → Level
  | plain => .warning
  | configured true => .debug
  | configured false => .warning

/-- What a record shows, nothing if it does not matter enough. -/
def Display.show (display : Display) (level : Level) (message : String) : String :=
  if level.rank < display.threshold.rank then ""
  else match display with
    | plain => message ++ "\n"
    | configured _ => "[gql-tsgen] " ++ level.word ++ " " ++ message ++ "\n"

end Log

end QueryTypes
