import QueryTypes.Settings.Basic
import QueryTypes.Yaml.Meaning

/-!
# Reading settings

Settings come from a file, and from values that are given besides and count more than the
file. Directories in a file are seen from the directory that the file is in. All values are
checked before any is used, and everything that is wrong with them is reported at once: the
settings in their usual order, and then the names that are no settings.
-/

namespace QueryTypes

/-! ### Problems -/

/-- What is wrong with a value. -/
inductive Problem where
  /-- It should be a text. -/
  | notText
  /-- It should be a text, and its bytes are none. -/
  | notUnicode
  /-- It should be a list. -/
  | notList
  /-- It should be a dictionary. -/
  | notDictionary
  /-- It should be a path. -/
  | notPath
  /-- It should be a truth value, and could be if it were another number or word. -/
  | unclearTruth
  /-- It should be a truth value. -/
  | notTruth
  /-- There is no setting of this name. -/
  | unknown
  deriving DecidableEq

/-- What is said about a problem. -/
def Problem.text : Problem → String
  | notText => "Input should be a valid string"
  | notUnicode =>
    "Input should be a valid string, unable to parse raw data as a unicode string"
  | notList => "Input should be a valid list"
  | notDictionary => "Input should be a valid dictionary"
  | notPath => "Input is not a valid path for <class 'pathlib.Path'>"
  | unclearTruth => "Input should be a valid boolean, unable to interpret input"
  | notTruth => "Input should be a valid boolean"
  | unknown => "Extra inputs are not permitted"

/-- Problems and where they are. -/
abbrev Problems := List (String × Problem)

/-- Why there are no settings, as far as that is the fault of whoever wrote them. -/
inductive ConfigurationError where
  /-- The file is no YAML text. -/
  | notYaml (file : Path)
  /-- The file holds something other than names and values. -/
  | notMapping (file : Path)
  /-- Some values cannot be used. -/
  | invalid (file : Option Path) (problems : Problems)

/-- What is said about the settings, and about the file they come from. -/
def ConfigurationError.inFile (message : String) : Option Path → String
  | none => message
  | some file => message ++ " (file: " ++ file.print ++ ")"

/-- What is said about a failure, given what is said about a text that is no YAML. -/
def ConfigurationError.message (cause : String) : ConfigurationError → String
  | notYaml file => inFile ("Invalid YAML: " ++ cause) (some file)
  | notMapping file => inFile "Configuration must be a mapping" (some file)
  | invalid file problems =>
    problems.foldl (fun text (place, problem) => text ++ "\n  " ++ place ++ ": " ++ problem.text)
      (inFile "Invalid configuration" file)

/-- Why there are no settings. -/
inductive SettingsError where
  /-- The file of the settings is given a second time, among the values. -/
  | fileAmongValues
  /-- The settings are wrong, and this is said. -/
  | configuration (error : ConfigurationError)
  /-- A directory in the file is not a text. -/
  | directoryNotText (name : String)
  /-- A name in the file is not a text. -/
  | nameNotText
  /-- A scalar in the file does not write what its tag says. -/
  | scalar (fault : Yaml.Fault)
  /-- The file cannot be looked at. -/
  | unreachable (obstacle : FileTree.Obstacle)

namespace Settings

open Yaml (Value)

/-! ### Values -/

/-- A text; bytes count as the text they encode. -/
def text? : Value → Except Problem String
  | .text s => .ok s
  | .bytes bytes => match String.fromUTF8? ⟨bytes.toArray⟩ with
    | some s => .ok s
    | none => .error .notUnicode
  | _ => .error .notText

/-- A path. -/
def path? : Value → Except Problem Path
  | .text s => .ok (Path.ofString s)
  | _ => .error .notPath

/-- The words for true and for false. -/
def truthWords : List (String × Bool) :=
  [("1", true), ("on", true), ("t", true), ("true", true), ("y", true), ("yes", true),
   ("0", false), ("off", false), ("f", false), ("false", false), ("n", false), ("no", false)]

/-- The truth value of a word in any case. -/
def truthOfWord (word : String) : Except Problem Bool :=
  match Keyed.lookup word.toLower truthWords with
  | some b => .ok b
  | none => .error .unclearTruth

/-- The truth value of zero or one. -/
def truthOfInt (n : Int) : Except Problem Bool :=
  if n = 0 then .ok false
  else if n = 1 then .ok true
  else if -Int64.maxValue.toInt - 1 ≤ n ∧ n ≤ Int64.maxValue.toInt then .error .unclearTruth
  else .error .notTruth

/-- The truth value of zero or one. Any other number is no truth value at all if it is not
whole or takes more than 64 binary digits. -/
def truthOfFloat (x : Float) : Except Problem Bool :=
  match (Decimal.Binary.ofFloat x).toInt? with
  | some n => if n.natAbs ≤ Int64.maxValue.toNatClampNeg then truthOfInt n else .error .notTruth
  | none => .error .notTruth

/-- A truth value, also as a number or a word. -/
def truth? : Value → Except Problem Bool
  | .bool b => .ok b
  | .int n => truthOfInt n
  | .float x => truthOfFloat x
  | .text word => truthOfWord word
  | .bytes bytes => match String.fromUTF8? ⟨bytes.toArray⟩ with
    | some word => truthOfWord word
    | none => .error .unclearTruth
  | _ => .error .notTruth

/-- A value that may be null instead. -/
def optional {α : Type} (read : Value → Except Problem α) : Value → Except Problem (Option α)
  | .null => .ok none
  | value => (read value).map some

/-- A value that is one piece, at a place. -/
def single {α : Type} (read : Value → Except Problem α) (place : String) (value : Value) :
    Except Problems α :=
  match read value with
  | .ok a => .ok a
  | .error problem => .error [(place, problem)]

/-! ### Lists and dictionaries -/

/-- A place inside a list or a dictionary. -/
def inside (place part : String) : String := place ++ "." ++ part

/-- The texts among some results, or all the problems. -/
def gather {α : Type} : List (Except Problems α) → Except Problems (List α)
  | [] => .ok []
  | .ok a :: rest => match gather rest with
    | .ok as => .ok (a :: as)
    | .error problems => .error problems
  | .error problems :: rest => match gather rest with
    | .ok _ => .error problems
    | .error others => .error (problems ++ others)

/-- The items of a list or a set. -/
def items? : Value → Option (List Value)
  | .list items | .set items => some items
  | _ => none

/-- A list of texts. -/
def texts (place : String) (value : Value) : Except Problems (List String) :=
  match items? value with
  | none => .error [(place, .notList)]
  | some items =>
    gather (items.mapIdx fun i item => single text? (inside place (toString i)) item)

/-- A name with its text, from one entry of a dictionary. -/
def namedText (place : String) (key value : Value) : Except Problems (String × String) :=
  let here := inside place key.describeKey
  match single text? (inside here "[key]") key, single text? here value with
  | .ok k, .ok v => .ok (k, v)
  | .error problems, .ok _ => .error problems
  | .ok _, .error problems => .error problems
  | .error problems, .error others => .error (problems ++ others)

/-- A dictionary of texts. -/
def namedTexts (place : String) (value : Value) : Except Problems (List (String × String)) :=
  match value with
  | .mapping entries => match gather (entries.map fun (k, v) => namedText place k v) with
    | .ok found => .ok (Keyed.insertAll [] found)
    | .error problems => .error problems
  | _ => .error [(place, .notDictionary)]

/-! ### Fields -/

/-- A setting: its name, and how a value for it is stored. -/
structure Field where
  name : String
  store : String → Value → Settings → Except Problems Settings

/-- A setting that is read in some way and put in its place. -/
def field {α : Type} (name : String) (read : String → Value → Except Problems α)
    (put : Settings → α → Settings) : Field :=
  ⟨name, fun place value s => match read place value with
    | .ok a => .ok (put s a)
    | .error problems => .error problems⟩

/-- The settings in their usual order. -/
def fields : List Field :=
  [field "output_dir" (single path?) fun s v => { s with outputDirectory := v },
   field "artifact_dir_name" (single text?) fun s v => { s with artifactDirectoryName := v },
   field "internal_type_definition_file_name" (single text?)
     fun s v => { s with internalFileName := v },
   field "type_index_file_name" (single text?) fun s v => { s with indexFileName := v },
   field "internal_directives" texts fun s v => { s with internalDirectives := v },
   field "scalars" namedTexts fun s v => { s with scalars := v },
   field "fragment_masking" (single truth?) fun s v => { s with fragmentMasking := v },
   field "template_dir" (single (optional path?)) fun s v => { s with templateDirectory := v },
   field "header" (single (optional text?)) fun s v => { s with header := v }]

/-- Stores the value of a field, if there is one, beside what was found before. -/
def storeField (entries : List (String × Value)) (found : Settings × Problems) (f : Field) :
    Settings × Problems :=
  match Keyed.lookup f.name entries with
  | none => found
  | some value => match f.store f.name value found.1 with
    | .ok s => (s, found.2)
    | .error problems => (found.1, found.2 ++ problems)

/-- Whether a name is that of a setting. -/
def isField (name : String) : Bool := fields.any fun f => f.name = name

/-- The names that are no settings. -/
def unknownNames (entries : List (String × Value)) : Problems :=
  (entries.filter fun (name, _) => !isField name).map fun (name, _) => (name, .unknown)

/-- The settings that some named values are, the usual ones for those that are missing. -/
def ofEntries (entries : List (String × Value)) : Except Problems Settings :=
  let (settings, problems) := fields.foldl (storeField entries) (({} : Settings), [])
  let all := problems ++ unknownNames entries
  if all.isEmpty then .ok settings else .error all

/-! ### Files -/

/-- The settings that are directories. -/
def directoryNames : List String := ["output_dir", "template_dir"]

/-- A directory of a file, seen from another directory. -/
def seenFrom (base : Path) : List (Value × Value) → Except SettingsError (List (Value × Value))
  | [] => .ok []
  | (key, value) :: rest => do
    let placed : Value ← match key, value with
      | _, .null => pure value
      | .text name, .text written =>
        pure (if directoryNames.contains name then .text (base.append written).print else value)
      | .text name, _ =>
        if directoryNames.contains name then .error (.directoryNotText name) else pure value
      | _, _ => pure value
    return (key, placed) :: (← seenFrom base rest)

/-- The directory that a file is in. -/
def directoryOf (tree : FileTree) (file : Path) : Path :=
  match tree.locate file with
  | .ok place => ⟨.root, place.dropLast⟩
  | .error _ => file.parent

/-- How deep settings go: names with values, and lists and dictionaries among these. -/
def depthOfSettings : Nat := 2

/-- The names and values that a file of settings holds; nothing if there is no file. -/
def valuesOfFile (tree : FileTree) (file : Path) :
    Except SettingsError (List (Value × Value)) :=
  match tree.examine file with
  | .error obstacle => .error (.unreachable obstacle)
  | .ok _ => match tree.read? file with
    | none => .ok []
    | some text => match Yaml.valueOf depthOfSettings text with
      | .error .malformed => .error (.configuration (.notYaml file))
      | .error fault => .error (.scalar fault)
      | .ok .null => .ok []
      | .ok (.mapping entries) => seenFrom (directoryOf tree file) entries
      | .ok _ => .error (.configuration (.notMapping file))

/-- Values whose names are texts. -/
def named : List (Value × Value) → Except SettingsError (List (String × Value))
  | [] => .ok []
  | (.text name, value) :: rest => do return (name, value) :: (← named rest)
  | _ :: _ => .error .nameNotText

/-- Whether a value says something. -/
def isGiven : Value → Bool
  | .null => false
  | _ => true

/-- The name that the file of the settings goes by, so that no value may be given under it. -/
def nameOfFile : String := "config_path"

/-- The settings of a file, with other values that count more; nulls among those say
nothing. -/
def load (tree : FileTree) (file : Option Path) (given : List (String × Value)) :
    Except SettingsError Settings := do
  if Keyed.contains nameOfFile given then .error .fileAmongValues
  let found ← match file with
    | none => pure []
    | some path => valuesOfFile tree path
  let entries := Keyed.insertAll (← named found) (given.filter fun (_, value) => isGiven value)
  match ofEntries entries with
  | .ok settings => return settings
  | .error problems => .error (.configuration (.invalid file problems))

end Settings

end QueryTypes
