import QueryTypes.CommandLine.Outcome
import QueryTypes.Proofs.FileTree

/-!
# Loading settings

A file of settings holds a YAML value. With values that are given besides, it either makes settings
or it is wrong in a way that is put in words, exactly if it is usable
(`QueryTypes.Settings.exists_load_iff`): if it is a mapping, its names are texts, and so are the
directories among its values, unless they are null. A file that is not usable is stopped at before
any value is checked (`QueryTypes.Settings.load_of_not_isUsable`), and so nothing that is given
besides can make up for it.
-/

namespace QueryTypes

namespace Settings

open Yaml (Value)

/-! ### Usable files -/

/-- Whether a value is a text. -/
def isText : Value → Bool
  | .text _ => true
  | _ => false

/-- Whether an entry can be seen from another directory: if it is a directory, it has to be a text
or null. -/
def isPlaceable : Value × Value → Bool
  | (.text name, value) => !directoryNames.contains name || !isGiven value || isText value
  | _ => true

/-- **Whether a file of settings may hold a value.** Apart from mappings it may be any. -/
def isUsable : Value → Bool
  | .mapping entries => (entries.map Prod.fst).all isText && entries.all isPlaceable
  | _ => true

variable {tree : FileTree} {file : Path} {text : String} {value : Value}
  {entries : List (Value × Value)} {given : List (String × Value)}

/-! ### Names and directories -/

/-- An entry is seen from another directory under its name, unless it is a directory that is
none. -/
theorem seenFrom_cons (base : Path) (e : Value × Value) (rest : List (Value × Value)) :
    (isPlaceable e = true ∧ ∃ value, seenFrom base (e :: rest) =
      (seenFrom base rest).map fun others => (e.1, value) :: others) ∨
    (isPlaceable e = false ∧ ∃ name ∈ directoryNames,
      seenFrom base (e :: rest) = .error (.directoryNotText name)) := by
  obtain ⟨key, value⟩ := e
  cases key with
  | text name =>
    cases hname : directoryNames.contains name with
    | true =>
      have known : name ∈ directoryNames := List.contains_iff_mem.1 hname
      cases value with
      | null => exact Or.inl ⟨by simp [isPlaceable, isGiven], .null, rfl⟩
      | text written => exact Or.inl ⟨by simp [isPlaceable, isText], _, rfl⟩
      | _ =>
        refine Or.inr ⟨by simp [isPlaceable, isGiven, isText, known], name, known, ?_⟩
        simp only [seenFrom, hname]
        rfl
    | false =>
      refine Or.inl ⟨by simp only [isPlaceable, hname]; rfl, value, ?_⟩
      cases value <;> simp only [seenFrom, hname] <;> rfl
  | _ =>
    refine Or.inl ⟨rfl, value, ?_⟩
    cases value <;> rfl

/-- **Entries are seen from another directory under their names**, unless a directory among them is
none. -/
theorem seenFrom_cases (base : Path) (entries : List (Value × Value)) :
    (entries.all isPlaceable = true ∧ ∃ placed, seenFrom base entries = .ok placed ∧
      placed.map Prod.fst = entries.map Prod.fst) ∨
    (entries.all isPlaceable = false ∧ ∃ name ∈ directoryNames,
      seenFrom base entries = .error (.directoryNotText name)) := by
  induction entries with
  | nil => exact Or.inl ⟨rfl, [], rfl, rfl⟩
  | cons e rest ih =>
    rw [List.all_cons]
    obtain ⟨placeable, value, step⟩ | ⟨stuck, name, hname, step⟩ := seenFrom_cons base e rest
    · rw [placeable, Bool.true_and, step]
      obtain ⟨all, placed, result, names⟩ | ⟨stuck, name, hname, result⟩ := ih
      · refine Or.inl ⟨all, (e.1, value) :: placed, by rw [result]; rfl, ?_⟩
        rw [List.map_cons, List.map_cons, names]
      · exact Or.inr ⟨stuck, name, hname, by rw [result]; rfl⟩
    · rw [stuck, Bool.false_and]
      exact Or.inr ⟨rfl, name, hname, step⟩

/-- **Entries have names**, unless a key among them is no text. -/
theorem named_cases (entries : List (Value × Value)) :
    ((entries.map Prod.fst).all isText = true ∧ ∃ found, named entries = .ok found) ∨
    ((entries.map Prod.fst).all isText = false ∧ named entries = .error .nameNotText) := by
  induction entries with
  | nil => exact Or.inl ⟨rfl, [], rfl⟩
  | cons e rest ih =>
    obtain ⟨key, value⟩ := e
    rw [List.map_cons, List.all_cons]
    cases key with
    | text name =>
      rw [show named ((.text name, value) :: rest) =
        (named rest).map fun others => (name, value) :: others from rfl]
      obtain ⟨all, found, result⟩ | ⟨unnamed, result⟩ := ih
      · exact Or.inl ⟨all, _, by rw [result]; rfl⟩
      · exact Or.inr ⟨unnamed, by rw [result]; rfl⟩
    | _ => exact Or.inr ⟨rfl, rfl⟩

/-! ### Values of commands -/

open CommandLine (Generation givenValues)

/-- Values that are given have the names under which they may be given. -/
theorem name_mem_of_mem_givenValues {values : List (String × Option Value)} {e : String × Value}
    (he : e ∈ givenValues values) : e.1 ∈ values.map Prod.fst := by
  obtain ⟨⟨name, value⟩, hv, same⟩ := List.mem_filterMap.1 he
  obtain ⟨v, -, rfl⟩ := Option.map_eq_some_iff.1 same
  exact List.mem_map.2 ⟨_, hv, rfl⟩

/-- **A command that generates** does not give the file of the settings among its values. -/
theorem name_ne_of_generation (given : Generation) : ∀ e ∈ given.values, e.1 ≠ nameOfFile := by
  intro e he same
  have known : e.1 ∈ ["output_dir", "template_dir", "fragment_masking"] :=
    name_mem_of_mem_givenValues he
  rw [same] at known
  exact absurd known (by decide)

/-- **A command that scrubs** does not either. -/
theorem name_ne_of_directives (directives : Option Value) :
    ∀ e ∈ givenValues [("internal_directives", directives)], e.1 ≠ nameOfFile := by
  intro e he same
  have known : e.1 ∈ ["internal_directives"] := name_mem_of_mem_givenValues he
  rw [same] at known
  exact absurd known (by decide)

/-! ### Files -/

/-- A file that can be read can be looked at. -/
theorem exists_examine_of_read? (h : tree.read? file = some text) :
    ∃ found, tree.examine file = .ok found := by
  obtain ⟨place, hplace⟩ := FileTree.exists_locate_of_read? h
  unfold FileTree.examine
  rw [hplace]
  exact ⟨_, rfl⟩

/-- What a file holds that can be read and has a value. -/
theorem valuesOfFile_of_value (hread : tree.read? file = some text)
    (hvalue : Yaml.valueOf depthOfSettings text = .ok value) :
    valuesOfFile tree file = match value with
      | .null => .ok []
      | .mapping entries => seenFrom (directoryOf tree file) entries
      | _ => .error (.configuration (.notMapping file)) := by
  obtain ⟨found, hfound⟩ := exists_examine_of_read? hread
  unfold valuesOfFile
  simp only [hfound, hread, hvalue]
  cases value <;> rfl

section Load

variable (names : ∀ e ∈ given, e.1 ≠ nameOfFile)

include names

/-- The file of the settings is not given a second time. -/
theorem contains_nameOfFile : Keyed.contains nameOfFile given = false := by
  have absent : nameOfFile ∉ given.map Prod.fst := by
    intro hm
    obtain ⟨e, he, same⟩ := List.mem_map.1 hm
    exact names e he same
  rw [Keyed.contains, Keyed.lookup_eq_none absent]
  rfl

theorem load_of_valuesOfFile_error {e : SettingsError}
    (hfound : valuesOfFile tree file = .error e) : load tree (some file) given = .error e := by
  simp only [load, contains_nameOfFile names, hfound]
  rfl

theorem load_of_named_error {found : List (Value × Value)} {e : SettingsError}
    (hfound : valuesOfFile tree file = .ok found) (hnamed : named found = .error e) :
    load tree (some file) given = .error e := by
  simp only [load, contains_nameOfFile names, hfound, bind, Except.bind, hnamed]
  rfl

/-- **Named values make settings, or it is put in words what is wrong with them.** -/
theorem exists_load_of_named {found : List (Value × Value)} {values : List (String × Value)}
    (hfound : valuesOfFile tree file = .ok found) (hnamed : named found = .ok values) :
    (∃ settings, load tree (some file) given = .ok settings) ∨
      ∃ e, load tree (some file) given = .error (.configuration e) := by
  cases made : ofEntries (Keyed.insertAll values (given.filter fun e => isGiven e.2)) with
  | ok settings =>
    refine Or.inl ⟨settings, ?_⟩
    simp only [load, contains_nameOfFile names, hfound, bind, Except.bind, hnamed, made]
    rfl
  | error problems =>
    refine Or.inr ⟨.invalid (some file) problems, ?_⟩
    simp only [load, contains_nameOfFile names, hfound, bind, Except.bind, hnamed, made]
    rfl

/-- A usable file makes settings, or it is put in words what is wrong with it. -/
theorem exists_load_of_isUsable (hread : tree.read? file = some text)
    (hvalue : Yaml.valueOf depthOfSettings text = .ok value) (usable : isUsable value = true) :
    (∃ settings, load tree (some file) given = .ok settings) ∨
      ∃ e, load tree (some file) given = .error (.configuration e) := by
  have found := valuesOfFile_of_value hread hvalue
  cases value with
  | null => exact exists_load_of_named names found rfl
  | mapping entries =>
    have both := Bool.and_eq_true_iff.1 usable
    obtain ⟨-, placed, result, same⟩ | ⟨stuck, -⟩ :=
      seenFrom_cases (directoryOf tree file) entries
    · obtain ⟨-, values, hnamed⟩ | ⟨unnamed, -⟩ := named_cases placed
      · exact exists_load_of_named names (found.trans result) hnamed
      · rw [same, both.1] at unnamed
        cases unnamed
    · rw [both.2] at stuck
      cases stuck
  | _ => exact Or.inr ⟨_, load_of_valuesOfFile_error names found⟩

/-- A file that is not usable is stopped at, whatever is given besides. -/
theorem load_of_not_isUsable (hread : tree.read? file = some text)
    (hvalue : Yaml.valueOf depthOfSettings text = .ok value) (usable : isUsable value = false) :
    load tree (some file) given = .error .nameNotText ∨
      ∃ name ∈ directoryNames, load tree (some file) given = .error (.directoryNotText name) := by
  have found := valuesOfFile_of_value hread hvalue
  cases value with
  | mapping entries =>
    obtain ⟨placeable, placed, result, same⟩ | ⟨-, name, hname, result⟩ :=
      seenFrom_cases (directoryOf tree file) entries
    · obtain ⟨all, -⟩ | ⟨-, hnamed⟩ := named_cases placed
      · rw [isUsable, ← same, all, placeable] at usable
        cases usable
      · exact Or.inl (load_of_named_error names (found.trans result) hnamed)
    · exact Or.inr ⟨name, hname, load_of_valuesOfFile_error names (found.trans result)⟩
  | _ => cases usable

/-- **A file of settings makes settings, or it is put in words what is wrong with it, exactly if it
is usable.** -/
theorem exists_load_iff (hread : tree.read? file = some text)
    (hvalue : Yaml.valueOf depthOfSettings text = .ok value) :
    ((∃ settings, load tree (some file) given = .ok settings) ∨
      ∃ e, load tree (some file) given = .error (.configuration e)) ↔ isUsable value = true := by
  refine ⟨fun stated => ?_, exists_load_of_isUsable names hread hvalue⟩
  cases usable : isUsable value with
  | true => rfl
  | false =>
    obtain error | ⟨name, -, error⟩ := load_of_not_isUsable names hread hvalue usable
    all_goals
      obtain ⟨settings, result⟩ | ⟨e, result⟩ := stated
      all_goals
        rw [error] at result
        cases result

end Load

/-! ### Two files -/

/-- A tree with one file of settings. -/
def settingsTree (text : String) : FileTree := (FileTree.empty []).put ["c.yml"] (.file text)

/-- The path of that file. -/
def settingsPath : Path := Path.ofString "c.yml"

/-- A file with directories that are a text and null, and with a name that is no setting, is
usable, and what is wrong with it is put in words. -/
theorem exists_load_iff_of_directories : ∃ text value given,
    (settingsTree text).read? settingsPath = some text ∧
    Yaml.valueOf depthOfSettings text = .ok value ∧ isUsable value = true ∧
    (∀ e ∈ given, e.1 ≠ nameOfFile) ∧
    ((∃ settings, load (settingsTree text) (some settingsPath) given = .ok settings) ∨
      ∃ e, load (settingsTree text) (some settingsPath) given = .error (.configuration e)) := by
  let text := "output_dir: out\ntemplate_dir: ~\nbogus: [1]\n"
  have usable : (Yaml.valueOf depthOfSettings text).toOption.any isUsable = true := by
    decide +kernel
  have hread : (settingsTree text).read? settingsPath = some text := by decide +kernel
  have names : ∀ e ∈ [("output_dir", Value.text "elsewhere")], e.1 ≠ nameOfFile := by
    intro e he
    rw [List.mem_singleton.1 he]
    decide
  rcases hvalue : Yaml.valueOf depthOfSettings text with fault | value
  · rw [hvalue] at usable
    cases usable
  · rw [hvalue] at usable
    exact ⟨text, value, _, hread, hvalue, usable, names,
      (exists_load_iff names hread hvalue).2 usable⟩

/-- Whether settings are there, or it is put in words what is wrong with them. -/
def isStated : Except SettingsError Settings → Bool
  | .ok _ => true
  | .error (.configuration _) => true
  | .error _ => false

theorem isStated_of_exists {result : Except SettingsError Settings}
    (h : (∃ settings, result = .ok settings) ∨ ∃ e, result = .error (.configuration e)) :
    isStated result = true := by
  obtain ⟨settings, rfl⟩ | ⟨e, rfl⟩ := h <;> rfl

/-- **A number for a directory is not put in words.** There are no settings either, though another
directory is given. -/
theorem exists_unstated_settings : ∃ text value given,
    (settingsTree text).read? settingsPath = some text ∧
    Yaml.valueOf depthOfSettings text = .ok value ∧
    (∀ e ∈ given, e.1 ≠ nameOfFile) ∧
    ¬ ((∃ settings, load (settingsTree text) (some settingsPath) given = .ok settings) ∨
      ∃ e, load (settingsTree text) (some settingsPath) given = .error (.configuration e)) := by
  have read : (settingsTree "output_dir: 5\n").read? settingsPath = some "output_dir: 5\n" := by
    decide +kernel
  have valued : (Yaml.valueOf depthOfSettings "output_dir: 5\n").isOk = true := by decide +kernel
  have unstated : isStated (load (settingsTree "output_dir: 5\n") (some settingsPath)
      [("output_dir", .text "out")]) = false := by
    decide +kernel
  have names : ∀ e ∈ [("output_dir", Value.text "out")], e.1 ≠ nameOfFile := by
    intro e he
    rw [List.mem_singleton.1 he]
    decide
  rcases hvalue : Yaml.valueOf depthOfSettings "output_dir: 5\n" with fault | value
  · rw [hvalue] at valued
    cases valued
  · refine ⟨_, value, _, read, hvalue, names, fun stated => ?_⟩
    rw [isStated_of_exists stated] at unstated
    cases unstated

end Settings

end QueryTypes
