import QueryTypes.Proofs.GraphQL.Parsed
import QueryTypes.Proofs.Path.Specifier
import QueryTypes.Settings.Basic

/-!
# Where generated files are

A file that is named after an operation or fragment lies in the directory of type definitions,
since the names of GraphQL hold no slashes and no dots
(`QueryTypes.Settings.artifactFile_of_isName`). Different names have different files
(`QueryTypes.Settings.artifactFile_injective`). The other two files are where the settings say,
as long as their names are names of files. Under the usual names one document has the file of the
internal shapes, the one of that name
(`QueryTypes.Settings.HasUsualNames.absolute_artifactFile_eq_iff`).
-/

namespace QueryTypes

open GraphQL.Token (IsName)

namespace Settings

variable (s : Settings)

/-! ### Type definitions of documents -/

theorem toList_artifactName (name : String) :
    (name ++ ".d.ts").toList = name.toList ++ ['.', 'd', '.', 't', 's'] := by
  rw [String.toList_append]
  rfl

/-- A name of GraphQL is the name of a file. -/
theorem isPlain_of_isName {name : String} (h : IsName name) : Path.IsPlain name := by
  refine ⟨⟨h.not_mem (by decide), h.ne_empty, ?_⟩, ?_⟩
  · rintro rfl
    exact h.not_mem (c := '.') (by decide) (by decide)
  · rintro rfl
    exact h.not_mem (c := '.') (by decide) (by decide)

/-- A name of GraphQL is the stem of the file that is named after it. -/
theorem hasStem_artifactName {name : String} (h : IsName name) :
    Path.HasStem (name ++ ".d.ts") name :=
  ⟨isPlain_of_isName h, ['d'], ['t', 's'], ⟨by decide, by decide, by decide⟩,
    ⟨by decide, by decide, by decide⟩, toList_artifactName name⟩

/-- **The file of a document lies in the directory of type definitions**, under its name. -/
theorem artifactFile_of_isName {name : String} (h : IsName name) :
    s.artifactFile name = s.artifactDirectory.join ⟨.relative, [name ++ ".d.ts"]⟩ := by
  rw [artifactFile, Path.append, Path.ofString_of_isComponent
    (hasStem_artifactName h).isPlain.toIsComponent]

theorem parent_artifactFile {name : String} (h : IsName name) :
    (s.artifactFile name).parent = s.artifactDirectory := by
  rw [artifactFile_of_isName s h, Path.parent_join_singleton]

/-- The name of a file tells the name it is made of. -/
theorem artifactName_injective {m n : String} (h : m ++ ".d.ts" = n ++ ".d.ts") : m = n := by
  have chars := congrArg String.toList h
  rw [toList_artifactName, toList_artifactName] at chars
  exact String.toList_inj.1 (List.append_cancel_right chars)

/-- **Different documents have different files.** -/
theorem artifactFile_injective {m n : String} (hm : IsName m) (hn : IsName n)
    (h : s.artifactFile m = s.artifactFile n) : m = n := by
  rw [artifactFile_of_isName s hm, artifactFile_of_isName s hn, Path.join, Path.join,
    Path.mk.injEq] at h
  have last : [m ++ ".d.ts"] = [n ++ ".d.ts"] := List.append_cancel_left h.2
  exact artifactName_injective (List.singleton_inj.1 last)

/-! ### The other two files -/

variable {s}

theorem internalFile_of_isComponent (h : Path.IsComponent s.internalFileName) :
    s.internalFile = s.artifactDirectory.join ⟨.relative, [s.internalFileName]⟩ := by
  rw [internalFile, Path.append, Path.ofString_of_isComponent h]

theorem indexFile_of_isComponent (h : Path.IsComponent s.indexFileName) :
    s.indexFile = s.outputDirectory.join ⟨.relative, [s.indexFileName]⟩ := by
  rw [indexFile, Path.append, Path.ofString_of_isComponent h]

/-- Settings that put all files below the output directory, the internal shapes and the file
that gathers the others under names with a double suffix. -/
structure IsOrderly (s : Settings) (internal index : String) : Prop where
  /-- The directory of type definitions is given from the output directory. -/
  relative : (Path.ofString s.artifactDirectoryName).anchor = .relative
  /-- It is not above that. -/
  below : ∀ part ∈ (Path.ofString s.artifactDirectoryName).parts, part ≠ ".."
  /-- The name of the file of internal shapes has a stem. -/
  internal : Path.HasStem s.internalFileName internal
  /-- The name of the file that gathers the others has a stem. -/
  index : Path.HasStem s.indexFileName index

namespace IsOrderly

variable {internal index : String} (h : s.IsOrderly internal index)

include h

theorem artifactDirectory_eq : s.artifactDirectory = s.outputDirectory.join
    ⟨.relative, (Path.ofString s.artifactDirectoryName).parts⟩ := by
  rw [artifactDirectory, Path.append, ← h.relative]

/-- The components of the directory of type definitions, from the output directory. -/
theorem isPlain_part : ∀ part ∈ (Path.ofString s.artifactDirectoryName).parts,
    Path.IsPlain part := fun part hp =>
  ⟨Path.isComponent_of_mem_partsOf hp, h.below part hp⟩

theorem absolute_artifactDirectory (directory : List String) :
    s.artifactDirectory.absolute directory = s.outputDirectory.absolute directory ++
      (Path.ofString s.artifactDirectoryName).parts := by
  rw [h.artifactDirectory_eq, Path.absolute_join_of_ne_up _ _ h.below]

theorem absolute_internalFile (directory : List String) :
    s.internalFile.absolute directory =
      s.artifactDirectory.absolute directory ++ [s.internalFileName] := by
  rw [internalFile_of_isComponent h.internal.isPlain.toIsComponent,
    Path.absolute_join_of_ne_up _ _ fun part hp => ?_]
  rw [List.mem_singleton.1 hp]
  exact h.internal.isPlain.ne_up

theorem absolute_indexFile (directory : List String) :
    s.indexFile.absolute directory =
      s.outputDirectory.absolute directory ++ [s.indexFileName] := by
  rw [indexFile_of_isComponent h.index.isPlain.toIsComponent,
    Path.absolute_join_of_ne_up _ _ fun part hp => ?_]
  rw [List.mem_singleton.1 hp]
  exact h.index.isPlain.ne_up

theorem parent_indexFile : s.indexFile.parent = s.outputDirectory := by
  rw [indexFile_of_isComponent h.index.isPlain.toIsComponent, Path.parent_join_singleton]

omit h in
theorem absolute_artifactFile (directory : List String) {name : String} (hn : IsName name) :
    (s.artifactFile name).absolute directory =
      s.artifactDirectory.absolute directory ++ [name ++ ".d.ts"] := by
  rw [artifactFile_of_isName s hn, Path.absolute_join_of_ne_up _ _ fun part hp => ?_]
  rw [List.mem_singleton.1 hp]
  exact (hasStem_artifactName hn).isPlain.ne_up

omit h in
/-- Different documents have files in different places. -/
theorem absolute_artifactFile_injective (directory : List String) {m n : String} (hm : IsName m)
    (hn : IsName n)
    (same : (s.artifactFile m).absolute directory = (s.artifactFile n).absolute directory) :
    m = n := by
  rw [absolute_artifactFile directory hm, absolute_artifactFile directory hn] at same
  exact artifactName_injective (List.singleton_inj.1 (List.append_cancel_left same))

/-- **What type definitions import leads to the internal shapes**, less their double suffix. -/
theorem absolute_import (directory : List String) :
    Path.absolute directory (s.artifactDirectory.append
      (Path.specifier directory s.artifactDirectory s.internalFile)) =
      s.artifactDirectory.absolute directory ++ [internal] := by
  have way : Path.dropCommon (s.artifactDirectory.absolute directory)
      (s.internalFile.absolute directory) = ([], [] ++ [s.internalFileName]) := by
    rw [h.absolute_internalFile, Path.dropCommon_append, List.nil_append]
  rw [Path.specifier, Path.absolute_append_specifierBetween way (fun part hp => by cases hp)
    h.internal.plain h.internal.stripDoubleSuffix_eq, h.absolute_internalFile,
    List.dropLast_concat]

/-- **What is gathered leads to the type definitions**, less their double suffix. -/
theorem absolute_export (directory : List String) {name : String} (hn : IsName name) :
    Path.absolute directory (s.indexFile.parent.append (Path.specifierBetween
      (s.indexFile.absolute directory).dropLast ((s.artifactFile name).absolute directory))) =
      s.artifactDirectory.absolute directory ++ [name] := by
  have stem := hasStem_artifactName hn
  have way : Path.dropCommon (s.outputDirectory.absolute directory)
      ((s.artifactFile name).absolute directory) =
        ([], (Path.ofString s.artifactDirectoryName).parts ++ [name ++ ".d.ts"]) := by
    rw [absolute_artifactFile directory hn, h.absolute_artifactDirectory, List.append_assoc,
      Path.dropCommon_append]
  rw [h.absolute_indexFile, List.dropLast_concat, h.parent_indexFile,
    Path.absolute_append_specifierBetween way h.isPlain_part stem.plain stem.stripDoubleSuffix_eq,
    absolute_artifactFile directory hn, List.dropLast_concat]

end IsOrderly

/-! ### The usual names -/

/-- Files and directories have their usual names. The output directory may be any. -/
structure HasUsualNames (s : Settings) : Prop where
  /-- The directory of type definitions. -/
  artifacts : s.artifactDirectoryName = "artifacts"
  /-- The file of internal shapes. -/
  internal : s.internalFileName = "_internal.d.ts"
  /-- The file that gathers the others. -/
  index : s.indexFileName = "index.d.ts"

/-- Names that are not set are the usual ones. -/
theorem hasUsualNames_of_default (s : Settings) (outputDirectory : Path) :
    { s with
      outputDirectory := outputDirectory
      artifactDirectoryName := ({} : Settings).artifactDirectoryName
      internalFileName := ({} : Settings).internalFileName
      indexFileName := ({} : Settings).indexFileName }.HasUsualNames :=
  ⟨rfl, rfl, rfl⟩

theorem isName_internal : IsName "_internal" := by
  rw [IsName]
  decide

theorem isName_index : IsName "index" := by
  rw [IsName]
  decide

namespace HasUsualNames

variable (h : s.HasUsualNames)

include h

theorem isOrderly : s.IsOrderly "_internal" "index" where
  relative := by
    rw [h.artifacts]
    decide
  below := by
    rw [h.artifacts]
    decide
  internal := by
    rw [h.internal]
    exact hasStem_artifactName isName_internal
  index := by
    rw [h.index]
    exact hasStem_artifactName isName_index

/-- The file of the internal shapes is the one that a document of its name has. -/
theorem internalFile_eq : s.internalFile = s.artifactFile "_internal" := by
  rw [internalFile, artifactFile, h.internal]
  rfl

/-- **The file of a document is where that of the internal shapes is** under one name only. -/
theorem absolute_artifactFile_eq_iff (directory : List String) {name : String} (hn : IsName name) :
    (s.artifactFile name).absolute directory = s.internalFile.absolute directory ↔
      name = "_internal" := by
  rw [h.internalFile_eq]
  refine ⟨fun same => ?_, fun same => by rw [same]⟩
  exact IsOrderly.absolute_artifactFile_injective directory hn isName_internal same

/-- The file that gathers the others is in a directory above theirs. -/
theorem absolute_ne_indexFile (directory : List String) {path : Path} {name : String}
    (hpath : path.absolute directory = s.artifactDirectory.absolute directory ++ [name]) :
    path.absolute directory ≠ s.indexFile.absolute directory := by
  intro same
  have lengths := congrArg List.length same
  rw [hpath, h.isOrderly.absolute_indexFile, h.isOrderly.absolute_artifactDirectory, h.artifacts]
    at lengths
  have one : (Path.ofString "artifacts").parts.length = 1 := by decide
  simp only [List.length_append, List.length_singleton, one] at lengths
  omega

end HasUsualNames

end Settings

end QueryTypes
