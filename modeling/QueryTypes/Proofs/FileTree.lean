import QueryTypes.FileTree.Basic

/-!
# Trees that grow

Making directories and storing files takes nothing away (`QueryTypes.FileTree.GrowsInto`): what
stands in a tree still stands there afterwards, except that a file may have another text. A path
is walked through directories only, so whatever a path leads to, it leads to the same place when
the tree has grown (`QueryTypes.FileTree.GrowsInto.locate`).
-/

namespace QueryTypes

namespace FileTree

variable {tree next last : FileTree} {rewritten changed : List String → Prop} {path : Path}
  {place : List String}

/-- **A tree grows into another**: what stands in it still stands there, except for files at some
places. -/
structure GrowsInto (tree next : FileTree) (rewritten : List String → Prop) : Prop where
  /-- The working directory is the same. -/
  directory : next.directory = tree.directory
  /-- Directories, and files at other places, are still there. -/
  content : ∀ {place : List String} {entry : Entry}, tree.content? place = some entry →
    (entry = .directory ∨ ¬ rewritten place) → next.content? place = some entry

namespace GrowsInto

theorem refl (tree : FileTree) (rewritten : List String → Prop) : tree.GrowsInto tree rewritten :=
  ⟨rfl, fun h _ => h⟩

theorem trans (first : tree.GrowsInto next rewritten) (second : next.GrowsInto last rewritten) :
    tree.GrowsInto last rewritten :=
  ⟨second.directory.trans first.directory, fun h kept => second.content (first.content h kept) kept⟩

/-- It does no harm to allow for more files with another text. -/
theorem mono (grows : tree.GrowsInto next rewritten)
    (h : ∀ place, rewritten place → changed place) : tree.GrowsInto next changed :=
  ⟨grows.directory, fun hc kept =>
    grows.content hc (kept.imp_right fun other here => other (h _ here))⟩

/-! ### Walking through a tree that has grown -/

/-- A walk goes through directories, and they are all still there. -/
theorem walk (grows : tree.GrowsInto next rewritten) {parts found : List String}
    (h : tree.walk place parts = .ok found) : next.walk place parts = .ok found := by
  induction parts generalizing place with
  | nil => exact h
  | cons part rest ih =>
    unfold FileTree.walk at h ⊢
    cases hc : tree.content? place with
    | none =>
      rw [hc] at h
      cases h
    | some entry =>
      rw [hc] at h
      cases entry with
      | file text => cases h
      | directory =>
        rw [grows.content hc (Or.inl rfl)]
        dsimp only at h ⊢
        split at h
        · next up =>
          rw [if_pos up]
          exact ih h
        · next down =>
          rw [if_neg down]
          split at h
          · cases h
          · next short =>
            rw [if_neg short]
            exact ih h

/-- **A path leads to the same place** when the tree has grown. -/
theorem locate (grows : tree.GrowsInto next rewritten) (h : tree.locate path = .ok place) :
    next.locate path = .ok place := by
  have start : next.start path = tree.start path := by
    unfold FileTree.start
    rw [grows.directory]
  unfold FileTree.locate at h ⊢
  rw [start]
  split at h
  · cases h
  · exact grows.walk h

/-- A file reads as before, unless it is one of those that may have another text. -/
theorem read? (grows : tree.GrowsInto next rewritten) {text : String}
    (h : tree.read? path = some text) (kept : ∀ place, next.locate path = .ok place →
      ¬ rewritten place) : next.read? path = some text := by
  unfold FileTree.read? bytes? find? at h ⊢
  cases hl : tree.locate path with
  | error obstacle =>
    rw [hl] at h
    cases h
  | ok place =>
    have there := grows.locate hl
    rw [hl] at h
    rw [there]
    dsimp only at h ⊢
    cases hc : tree.content? place with
    | none =>
      rw [hc] at h
      cases h
    | some entry =>
      rw [hc] at h
      rw [grows.content hc (Or.inr (kept place there))]
      exact h

end GrowsInto

/-- What is read is read somewhere. -/
theorem exists_locate_of_read? {text : String} (h : tree.read? path = some text) :
    ∃ place, tree.locate path = .ok place := by
  unfold read? bytes? find? at h
  cases hl : tree.locate path with
  | error obstacle =>
    rw [hl] at h
    cases h
  | ok place => exact ⟨place, rfl⟩

/-- A path that leads to a file is read there. -/
theorem bytes?_eq_some_iff {text : String} : tree.bytes? path = some text ↔
    ∃ place, tree.locate path = .ok place ∧ tree.content? place = some (.file text) := by
  unfold bytes? find?
  cases tree.locate path with
  | error obstacle => simp
  | ok place => cases hc : tree.content? place with
    | none => simp [hc]
    | some entry => cases entry <;> simp [hc]

/-! ### Making directories and storing files -/

/-- A place is never the root if nothing stands there, or a file. -/
theorem ne_nil_of_content? (h : tree.content? place ≠ some .directory) : place ≠ [] := by
  rintro rfl
  exact h rfl

/-- A directory where nothing stood takes nothing away. -/
theorem growsInto_put_directory (h : tree.content? place = none) :
    tree.GrowsInto (tree.put place .directory) fun _ => False := by
  refine ⟨rfl, fun {other entry} hc _ => ?_⟩
  have new : place ≠ other := by
    rintro rfl
    cases h.symm.trans hc
  rw [content?_put tree other _ (ne_nil_of_content? (by rw [h]; exact nofun)), if_neg new, hc]

/-- A file may take the place of a file. -/
theorem growsInto_put_file (h : tree.content? place ≠ some .directory) (text : String) :
    tree.GrowsInto (tree.put place (.file text)) (· = place) := by
  refine ⟨rfl, fun {other entry} hc kept => ?_⟩
  have apart : place ≠ other := by
    rintro rfl
    rcases kept with rfl | other
    · exact h hc
    · exact other rfl
  rw [content?_put tree other _ (ne_nil_of_content? h), if_neg apart, hc]

/-- **Making directories takes nothing away**, even if not all can be made. -/
theorem growsInto_makeDirectories (tree : FileTree) (place parts : List String) :
    tree.GrowsInto (tree.makeDirectories place parts).1 fun _ => False := by
  induction parts generalizing tree place with
  | nil => exact .refl ..
  | cons part rest ih =>
    unfold makeDirectories
    split
    · exact .refl ..
    · exact .refl ..
    · split
      · exact ih ..
      · split
        · exact .refl ..
        · dsimp only
          split
          · next h => exact (growsInto_put_directory h).trans (ih ..)
          · exact ih ..

theorem growsInto_makeDirectory (tree : FileTree) (path : Path) :
    tree.GrowsInto (tree.makeDirectory path).1 fun _ => False := by
  unfold makeDirectory
  split
  · exact .refl ..
  · exact growsInto_makeDirectories ..

/-- **A stored file** is where its path leads to, with its text, and no other file is changed. -/
theorem store_eq_ok {text : String} (h : tree.store path text = .ok next) :
    ∃ place, next.locate path = .ok place ∧ next.content? place = some (.file text) ∧
      tree.GrowsInto next (· = place) := by
  unfold store at h
  cases hl : tree.locate path with
  | error e =>
    rw [hl] at h
    cases h
  | ok place =>
    rw [hl] at h
    dsimp only at h
    split at h
    · cases h
    · next free =>
      cases h
      have grows := growsInto_put_file free text
      refine ⟨place, grows.locate hl, ?_, grows⟩
      rw [content?_put tree place _ (ne_nil_of_content? free), if_pos rfl]

/-! ### Where files come from -/

/-- Directories that are made hold no files: every file was there before. -/
theorem file_of_makeDirectories {place parts other : List String} {text : String}
    (h : (tree.makeDirectories place parts).1.content? other = some (.file text)) :
    tree.content? other = some (.file text) := by
  induction parts generalizing tree place with
  | nil => exact h
  | cons part rest ih =>
    unfold makeDirectories at h
    split at h
    · exact h
    · exact h
    · split at h
      · exact ih h
      · split at h
        · exact h
        · dsimp only at h
          split at h
          · next none =>
            have made := ih h
            rw [content?_put _ _ _ (by simp)] at made
            split at made
            · cases made
            · exact made
          · exact ih h

theorem file_of_makeDirectory {other : List String} {text : String}
    (h : (tree.makeDirectory path).1.content? other = some (.file text)) :
    tree.content? other = some (.file text) := by
  unfold makeDirectory at h
  split at h
  · exact h
  · exact file_of_makeDirectories h

/-- After a text was stored, a file holds this text, or it was there before. -/
theorem file_of_store {other : List String} {text held : String}
    (h : tree.store path text = .ok next) (hfile : next.content? other = some (.file held)) :
    held = text ∨ tree.content? other = some (.file held) := by
  unfold store at h
  split at h
  · cases h
  · split at h
    · cases h
    · next free =>
      cases h
      rw [content?_put _ _ _ (ne_nil_of_content? free)] at hfile
      split at hfile
      · cases hfile
        exact Or.inl rfl
      · exact Or.inr hfile

end FileTree

end QueryTypes
