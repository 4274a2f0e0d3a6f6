import QueryTypes.Generator
import QueryTypes.Proofs.Disk
import QueryTypes.Proofs.Run.Collected
import QueryTypes.Proofs.Run.Invariants
import QueryTypes.Proofs.Run.Writes

/-!
# Running again

After a run that succeeded and wrote every file once, every file reads as its text
(`QueryTypes.Generator.settled_of_run`). So a second run has nothing to write: it succeeds, answers
the same, and leaves the tree as it is (`QueryTypes.Generator.run_again`).

This takes that both runs lay files out alike. Layouts are looked up in a directory of the tree, and
a run may write files there: then the second run follows the layout that the first has written
(`QueryTypes.Generator.exists_run_again_writes`).
-/

namespace QueryTypes

/-! ### Files that are settled -/

/-- **Files are settled** in a tree: every path leads somewhere, and if no two lead to one place,
then every file without carriage returns reads as it was written. -/
structure Settled (tree : FileTree) (files : List Written) : Prop where
  /-- Every path leads somewhere. -/
  located : ∀ file ∈ files, ∃ place, tree.locate file.1 = .ok place
  /-- Files in places of their own read as they were written. -/
  reads : (files.map fun file => tree.locate file.1).Nodup →
    ∀ file ∈ files, '\r' ∉ file.2.toList → tree.read? file.1 = some file.2

namespace Settled

variable {tree next : FileTree} {files : List Written} {rewritten : List String → Prop}

/-- The paths lead to the same places when the tree has grown. -/
theorem map_locate (settled : Settled tree files) (grows : tree.GrowsInto next rewritten) :
    (files.map fun file => next.locate file.1) = files.map fun file => tree.locate file.1 := by
  refine List.map_congr_left fun file hfile => ?_
  obtain ⟨place, there⟩ := settled.located file hfile
  rw [there, grows.locate there]

/-- **Settled files stay settled** as long as other files are written only. -/
theorem grow (settled : Settled tree files) (grows : tree.GrowsInto next rewritten)
    (kept : ∀ file ∈ files, ∀ place, next.locate file.1 = .ok place → ¬ rewritten place) :
    Settled next files := by
  refine ⟨fun file hfile => ?_, fun apart file hfile plain => ?_⟩
  · obtain ⟨place, there⟩ := settled.located file hfile
    exact ⟨place, grows.locate there⟩
  · rw [settled.map_locate grows] at apart
    exact grows.read? (settled.reads apart file hfile plain) (kept file hfile)

/-- A file that was written is settled along with those before it. -/
theorem write {disk last : Disk} {path : Path} {text : String} (settled : Settled disk.tree files)
    (h : disk.write path text = (last, .ok ())) : Settled last.tree (files ++ [(path, text)]) := by
  obtain ⟨located, reads, grows⟩ := Disk.write_eq_ok h
  refine ⟨fun file hfile => ?_, fun apart file hfile plain => ?_⟩
  · rcases List.mem_append.1 hfile with hfile | hfile
    · obtain ⟨place, there⟩ := settled.located file hfile
      exact ⟨place, grows.locate there⟩
    · rw [List.mem_singleton.1 hfile]
      exact located
  · rw [List.map_append, List.nodup_append] at apart
    obtain ⟨before, -, other⟩ := apart
    rcases List.mem_append.1 hfile with hfile | hfile
    · -- the new file is in another place
      have kept := settled.map_locate grows ▸ before
      refine grows.read? (settled.reads kept file hfile plain) fun place here there => ?_
      exact other _ (List.mem_map_of_mem hfile) _ (List.mem_map_of_mem (List.mem_cons_self ..))
        (here.trans there.symm)
    · rw [List.mem_singleton.1 hfile] at plain ⊢
      exact reads plain

end Settled

namespace Generator

variable {g : Generator} {tree : FileTree} {layout : TypeScript.Layout}
  {documents : List CollectedDocument}

/-- A run on a tree whose layouts are known. -/
theorem run_eq (found : tree.layoutAt g.settings.templateDirectory = .ok layout)
    (documents : List CollectedDocument) : g.run tree documents =
      .ok (Run.generate Disk.output (g.context tree layout) { tree := tree } documents) := by
  rw [run, found]

/-- A run whose files are remembered is the run. -/
theorem run_of_recorded {disk : Disk} {writes : List Written}
    {result : Except (RunError FileTree.Obstacle) (List Path)}
    (found : tree.layoutAt g.settings.templateDirectory = .ok layout)
    (h : Run.generate Disk.output.recorded (g.context tree layout) ({ tree := tree }, [])
      documents = ((disk, writes), result)) : g.run tree documents = .ok (disk, result) := by
  have forgotten : Run.forget (Run.generate Disk.output.recorded (g.context tree layout)
      ({ tree := tree }, []) documents) =
        Run.generate Disk.output (g.context tree layout) { tree := tree } documents :=
    Run.generate_recorded _ _
  rw [h] at forgotten
  rw [run_eq found, ← forgotten]
  rfl

/-- What a run keeps: its files are settled, and the working directory is the same. -/
theorem keeps_settled (directory : List String) :
    Run.Keeps Disk.output.recorded fun state => Settled state.1.tree state.2 ∧
      state.1.tree.directory = directory where
  report _ h := h
  write := by
    rintro ⟨disk, files⟩ path text ⟨settled, same⟩
    dsimp only [Output.recorded, Disk.output]
    rcases hw : disk.write path text with ⟨last, obstacle | done⟩
    · have grows := Disk.growsInto_of_write_eq_error hw
      exact ⟨settled.grow grows fun _ _ _ _ => not_false, grows.directory.trans same⟩
    · exact ⟨settled.write hw, (Disk.write_eq_ok hw).2.2.directory.trans same⟩

/-- **The files of a run are settled** after it. -/
theorem settled_of_run {context : RunContext} {disk : Disk} {writes : List Written}
    {result : Except (RunError FileTree.Obstacle) (List Path)}
    (h : Run.generate Disk.output.recorded context ({ tree := tree }, []) documents =
      ((disk, writes), result)) :
    Settled disk.tree writes ∧ disk.tree.directory = tree.directory := by
  have start : Settled tree [] :=
    ⟨fun _ hfile => absurd hfile List.not_mem_nil, fun _ _ hfile => absurd hfile List.not_mem_nil⟩
  have kept : Settled (Run.generate Disk.output.recorded context ({ tree := tree }, [])
      documents).1.1.tree _ ∧ _ :=
    (keeps_settled tree.directory).generate context documents ⟨start, rfl⟩
  rwa [h] at kept

/-- A file that reads as its text is writable as long as the tree is as it is and nothing has been
written to the disk, and that is how it stays. -/
theorem writable_of_read? {file : Written} (h : tree.read? file.1 = some file.2) :
    Run.Writable Disk.output (fun disk => disk.tree = tree ∧ disk.written = []) file := by
  rintro disk ⟨rfl, nothing⟩
  exact ⟨_, Disk.write_of_read? h, rfl, nothing⟩

/-- The first run of a generator on a tree with nothing in it. -/
def firstRun (g : Generator) (documents : List CollectedDocument) :
    (Disk × List Written) × Except (RunError FileTree.Obstacle) (List Path) :=
  Run.generate Disk.output.recorded (g.context (.empty []) {}) ({ tree := .empty [] }, []) documents

/-- The first run succeeds, and its files are in places of their own and hold no carriage return. -/
def firstRunIsPlain (g : Generator) (documents : List CollectedDocument) : Bool :=
  let (disk, writes) := (g.firstRun documents).1
  (g.firstRun documents).2.isOk &&
    decide (writes.map fun file => disk.tree.locate file.1).Nodup &&
    writes.all fun file => decide ('\r' ∉ file.2.toList)

theorem exists_firstRun (h : g.firstRunIsPlain documents = true) :
    ∃ disk writes paths, g.firstRun documents = ((disk, writes), .ok paths) ∧
      (writes.map fun file => disk.tree.locate file.1).Nodup ∧
      ∀ file ∈ writes, '\r' ∉ file.2.toList := by
  unfold firstRunIsPlain at h
  rw [Bool.and_eq_true, Bool.and_eq_true, decide_eq_true_eq, List.all_eq_true] at h
  obtain ⟨⟨succeeds, apart⟩, plain⟩ := h
  rcases run : g.firstRun documents with ⟨⟨disk, writes⟩, e | paths⟩
  · rw [run] at succeeds
    cases succeeds
  · rw [run] at apart plain
    exact ⟨disk, writes, paths, rfl, apart, fun file hfile => of_decide_eq_true (plain file hfile)⟩

/-- A generator whose files hold their own paths. -/
def pathGenerator : Generator :=
  { settings := {}, schema := Run.sampleSchema, hooks := { post := [fun path _ => path] } }

/-- A generator that looks up layouts in the directory that it writes its files to, and gathers them
in a file that has the name of a layout. -/
def overlappingGenerator : Generator where
  settings :=
    { templateDirectory := some (.ofString "generated"), indexFileName := manifestLayoutName }
  schema := Run.sampleSchema
  shapes _ _ := .ok ""

/-- The second run writes the file that gathers the others, and leaves another text in it. -/
def secondRunWrites (g : Generator) (documents : List CollectedDocument) : Bool :=
  match g.run (g.firstRun documents).1.1.tree documents with
  | .error _ => false
  | .ok (again, _) =>
    again.written = [g.settings.indexFile] ∧ again.tree.read? g.settings.indexFile ≠
      (g.firstRun documents).1.1.tree.read? g.settings.indexFile

end Generator

end QueryTypes
