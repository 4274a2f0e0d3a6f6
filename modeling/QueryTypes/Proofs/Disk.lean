import QueryTypes.Disk
import QueryTypes.Proofs.FileTree

/-!
# Files on a disk

A write that succeeds either finds its text by reading, and leaves the file alone, or stores it
(`QueryTypes.Disk.write_cases`). So a file that was written reads as its text, unless the text holds
carriage returns (`QueryTypes.Disk.write_eq_ok`), and a file that already reads as its new text is
left alone (`QueryTypes.Disk.write_of_read?`). Whatever happens, no other file gets another text.

Reading is not comparing. Files are read with one line ending, so a file with carriage returns never
reads as what it holds, and it may read as a text that it does not hold. These files are the only
ones that a disk treats other than it should (`QueryTypes.Disk.writes_exactly_iff`).
-/

namespace QueryTypes

namespace Text

variable {text : String}

/-- A text without carriage returns is read as it is stored. -/
theorem ofFile_eq_self (h : '\r' ∉ text.toList) : ofFile text = text := by
  rw [ofFile, universalNewlines_eq_self h, String.ofList_toList]

theorem not_mem_ofFile (text : String) : '\r' ∉ (ofFile text).toList := by
  rw [ofFile, String.toList_ofList]
  exact not_mem_universalNewlines text.toList

/-- A text reads as what it holds exactly if it holds no carriage returns. -/
theorem ofFile_eq_self_iff : ofFile text = text ↔ '\r' ∉ text.toList := by
  refine ⟨fun h => ?_, ofFile_eq_self⟩
  have none := not_mem_ofFile text
  rwa [h] at none

end Text

namespace Disk

variable {disk next : Disk} {path : Path} {text : String}

/-! ### One write -/

/-- **A write that succeeds** finds the text by reading, which is only reported, or it makes the
directories that are missing and stores the text. -/
theorem write_cases (h : disk.write path text = (next, .ok ())) :
    (disk.tree.read? path = some text ∧ next = { disk with log := disk.log ++
        [Log.record .debug "writer" ("Unchanged, skipping " ++ path.print)] }) ∨
    disk.tree.read? path ≠ some text ∧ ∃ made stored,
      disk.tree.makeDirectory path.parent = (made, .ok ()) ∧ made.store path text = .ok stored ∧
        next = { disk with tree := stored, written := disk.written ++ [path] } := by
  unfold write at h
  split at h
  · cases h
  · split at h
    · next same =>
      cases h
      exact Or.inl ⟨same, rfl⟩
    · next other =>
      split at h
      · cases h
      next made _ hmade =>
        split at h
        · cases h
        next stored hstored =>
          cases h
          exact Or.inr ⟨other, made, stored, hmade, hstored, rfl⟩

/-- A text that is stored behind directories that were made is where its path leads to, and no other
file is changed. -/
theorem exists_place_of_store {made stored : FileTree}
    (hmade : disk.tree.makeDirectory path.parent = (made, .ok ()))
    (hstored : made.store path text = .ok stored) :
    ∃ place, stored.locate path = .ok place ∧ stored.content? place = some (.file text) ∧
      disk.tree.GrowsInto stored (· = place) := by
  have grown := FileTree.growsInto_makeDirectory disk.tree path.parent
  rw [hmade] at grown
  obtain ⟨place, there, content, grows⟩ := FileTree.store_eq_ok hstored
  exact ⟨place, there, content, (grown.mono fun _ h => h.elim).trans grows⟩

/-- **A file that was written**, or skipped since it read so already: its path leads somewhere,
where it reads as its text, and no other file is changed. -/
theorem write_eq_ok (h : disk.write path text = (next, .ok ())) :
    (∃ place, next.tree.locate path = .ok place) ∧
    ('\r' ∉ text.toList → next.tree.read? path = some text) ∧
    disk.tree.GrowsInto next.tree fun place => next.tree.locate path = .ok place := by
  rcases write_cases h with ⟨same, rfl⟩ | ⟨-, made, stored, hmade, hstored, rfl⟩
  · exact ⟨FileTree.exists_locate_of_read? same, fun _ => same, .refl ..⟩
  · obtain ⟨place, there, content, grows⟩ := exists_place_of_store hmade hstored
    refine ⟨⟨place, there⟩, fun plain => ?_, grows.mono fun other here => by rw [here]; exact there⟩
    have holds : stored.bytes? path = some text :=
      FileTree.bytes?_eq_some_iff.2 ⟨place, there, content⟩
    exact (congrArg (Option.map Text.ofFile) holds).trans
      (congrArg some (Text.ofFile_eq_self plain))

/-- A file that cannot be written changes no file. -/
theorem growsInto_of_write_eq_error {obstacle : FileTree.Obstacle}
    (h : disk.write path text = (next, .error obstacle)) :
    disk.tree.GrowsInto next.tree fun _ => False := by
  unfold write at h
  split at h
  · cases h
    exact .refl ..
  · split at h
    · cases h
    · have made := FileTree.growsInto_makeDirectory disk.tree path.parent
      split at h
      · next hmade =>
        cases h
        rwa [hmade] at made
      · next hmade =>
        rw [hmade] at made
        split at h
        · cases h
          exact made
        · cases h

/-- **A file that already reads as its new text is left alone**; this is only reported. -/
theorem write_of_read? (h : disk.tree.read? path = some text) :
    disk.write path text = ({ disk with log := disk.log ++
      [Log.record .debug "writer" ("Unchanged, skipping " ++ path.print)] }, .ok ()) := by
  obtain ⟨place, there⟩ := FileTree.exists_locate_of_read? h
  have known : disk.tree.examine path = .ok (disk.tree.find? path) := by
    unfold FileTree.examine
    rw [there]
  unfold write
  rw [known]
  dsimp only
  rw [if_pos h]

/-! ### Exact writes -/

/-- **A write that does what is asked for**, and no more. -/
structure WritesExactly (disk next : Disk) (path : Path) (text : String) : Prop where
  /-- The file holds the text. -/
  stored : next.tree.bytes? path = some text
  /-- All other files hold what they held. -/
  others : ∀ place held, disk.tree.content? place = some (.file held) →
    next.tree.locate path ≠ .ok place → next.tree.content? place = some (.file held)
  /-- The path is noted, unless there was a file that held the text. -/
  noted : next.written =
    if disk.tree.bytes? path = some text then disk.written else disk.written ++ [path]

/-- Whether the file at a path holds carriage returns, and the text is what it holds or what it
reads as. -/
def IsMistaken (disk : Disk) (path : Path) (text : String) : Prop :=
  ∃ held, disk.tree.bytes? path = some held ∧ '\r' ∈ held.toList ∧
    (text = held ∨ text = Text.ofFile held)

/-- Files other than the one that is written are left alone. -/
theorem others_of_write (h : disk.write path text = (next, .ok ())) {place : List String}
    {held : String} (content : disk.tree.content? place = some (.file held))
    (other : next.tree.locate path ≠ .ok place) : next.tree.content? place = some (.file held) :=
  (write_eq_ok h).2.2.content content (Or.inr other)

/-- **A write that succeeds is exact, unless it is mistaken.** Both ways to succeed are told apart
by what the file reads as, and it should be by what the file holds. -/
theorem writesExactly_iff (h : disk.write path text = (next, .ok ())) :
    disk.WritesExactly next path text ↔ ¬ disk.IsMistaken path text := by
  have others := fun place held => @others_of_write _ _ _ _ h place held
  rcases write_cases h with ⟨same, rfl⟩ | ⟨differs, made, stored, hmade, hstored, rfl⟩
  · -- the file reads as the text, so it was skipped
    obtain ⟨held, hheld, reads⟩ := Option.map_eq_some_iff.1 same
    constructor
    · rintro exact ⟨other, hother, cr, -⟩
      obtain rfl : other = held := Option.some.inj (hother.symm.trans hheld)
      have holds : other = text := Option.some.inj (hheld.symm.trans exact.stored)
      rw [holds] at reads cr
      exact Text.ofFile_eq_self_iff.1 reads cr
    · intro right
      have plain : '\r' ∉ held.toList := fun cr => right ⟨held, hheld, cr, Or.inr reads.symm⟩
      have holds : disk.tree.bytes? path = some text := by
        rw [hheld, ← reads, Text.ofFile_eq_self plain]
      exact ⟨holds, others, (if_pos holds).symm⟩
  · obtain ⟨place, there, content, -⟩ := exists_place_of_store hmade hstored
    have holds : stored.bytes? path = some text :=
      FileTree.bytes?_eq_some_iff.2 ⟨place, there, content⟩
    -- the file is stored anew, which is right unless it held the text
    have reads : ∀ held, disk.tree.bytes? path = some held → Text.ofFile held ≠ text :=
      fun held hheld e => differs (by rw [FileTree.read?, hheld, Option.map_some, e])
    constructor
    · rintro exact ⟨held, hheld, cr, rfl | rfl⟩
      · have := exact.noted
        rw [if_pos hheld] at this
        simp at this
      · exact reads held hheld rfl
    · intro right
      refine ⟨holds, others, (if_neg fun hheld => ?_).symm⟩
      have plain : '\r' ∉ text.toList := fun cr => right ⟨text, hheld, cr, Or.inl rfl⟩
      exact reads text hheld (Text.ofFile_eq_self plain)

/-! ### Calls one after the other -/

/-- The disk after some calls, whether they succeed or not. -/
def writeAll (disk : Disk) : List (Path × String) → Disk
  | [] => disk
  | (path, text) :: calls => (disk.write path text).1.writeAll calls

/-- After a call every file holds its text, or was there before. -/
theorem file_of_write {place : List String} {held : String}
    (h : (disk.write path text).1.tree.content? place = some (.file held)) :
    held = text ∨ disk.tree.content? place = some (.file held) := by
  have made : ∀ {tree result}, disk.tree.makeDirectory path.parent = (tree, result) →
      tree.content? place = some (.file held) → disk.tree.content? place = some (.file held) := by
    intro tree result hmade hfile
    have whole : (disk.tree.makeDirectory path.parent).1.content? place = some (.file held) := by
      rwa [hmade]
    exact FileTree.file_of_makeDirectory whole
  unfold write at h
  split at h
  · exact Or.inr h
  · split at h
    · exact Or.inr h
    · split at h
      · next hmade => exact Or.inr (made hmade h)
      · next hmade =>
        split at h
        · exact Or.inr (made hmade h)
        · next hstored => exact (FileTree.file_of_store hstored h).imp_right (made hmade)

/-- After some calls every file holds the text of one of them, or was there before. -/
theorem file_of_writeAll {calls : List (Path × String)} {place : List String} {held : String}
    (h : (disk.writeAll calls).tree.content? place = some (.file held)) :
    (∃ call ∈ calls, held = call.2) ∨ disk.tree.content? place = some (.file held) := by
  induction calls generalizing disk with
  | nil => exact Or.inr h
  | cons call calls ih =>
    rcases ih h with ⟨other, mem, holds⟩ | earlier
    · exact Or.inl ⟨other, List.mem_cons_of_mem _ mem, holds⟩
    · rcases file_of_write earlier with holds | before
      · exact Or.inl ⟨call, List.mem_cons_self, holds⟩
      · exact Or.inr before

/-- **Calls one after the other.** Each call that succeeds leaves the other files alone, and it does
what is asked for exactly if it is not mistaken about its file. If neither the files of the disk nor
the texts of the calls before hold carriage returns, no call is mistaken. -/
theorem writes_exactly_iff (disk : Disk) (calls : List (Path × String))
    (h : (disk.writeAll calls).write path text = (next, .ok ())) :
    (∀ place held, (disk.writeAll calls).tree.content? place = some (.file held) →
      next.tree.locate path ≠ .ok place → next.tree.content? place = some (.file held)) ∧
    ((disk.writeAll calls).WritesExactly next path text ↔
      ¬ (disk.writeAll calls).IsMistaken path text) ∧
    ((∀ place held, disk.tree.content? place = some (.file held) → '\r' ∉ held.toList) →
      (∀ call ∈ calls, '\r' ∉ call.2.toList) →
      (disk.writeAll calls).WritesExactly next path text) := by
  refine ⟨fun place held => others_of_write h, writesExactly_iff h, fun files texts => ?_⟩
  refine (writesExactly_iff h).2 ?_
  rintro ⟨held, holds, cr, -⟩
  obtain ⟨place, -, content⟩ := FileTree.bytes?_eq_some_iff.1 holds
  rcases file_of_writeAll content with ⟨call, mem, rfl⟩ | before
  · exact texts call mem cr
  · exact files place held before cr

/-- The second call finds the text of the first, and the third writes another one. -/
theorem writes_exactly_thrice :
    let disk : Disk := ⟨.empty [], [], []⟩
    let path : Path := ⟨.relative, ["Q.d.ts"]⟩
    let calls := [(path, "type A;\n"), (path, "type A;\n")]
    ((disk.writeAll calls).write path "type B;\n").2 = .ok () ∧
      (disk.writeAll calls).WritesExactly ((disk.writeAll calls).write path "type B;\n").1 path
        "type B;\n" :=
  ⟨rfl, (writes_exactly_iff ⟨.empty [], [], []⟩ _ rfl).2.2 (by
    intro place held content
    unfold FileTree.content? at content
    split at content <;> cases content) (by decide)⟩

/-- **A file with carriage returns** is taken for the text that it reads as, and left alone when
this text is written; and it is stored anew when the text that it holds is written. -/
theorem write_mistakes_carriage_return :
    let disk : Disk := ⟨⟨[((1, ["f"]), .file "a\r\n")], []⟩, [], []⟩
    let path : Path := ⟨.relative, ["f"]⟩
    ((disk.write path "a\n").2 = .ok () ∧
      (disk.write path "a\n").1.tree.bytes? path = some "a\r\n" ∧
      (disk.write path "a\n").1.written = []) ∧
    (disk.write path "a\r\n").2 = .ok () ∧
      disk.tree.bytes? path = some "a\r\n" ∧ (disk.write path "a\r\n").1.written = [path] :=
  ⟨⟨rfl, by decide +kernel, by decide +kernel⟩, rfl, by decide +kernel, by decide +kernel⟩

end Disk

end QueryTypes
