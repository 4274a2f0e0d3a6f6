import Mathlib.Data.List.Nodup
import QueryTypes.Proofs.FileTree
import QueryTypes.Proofs.Path.Basic
import QueryTypes.Proofs.Path.Order

/-!
# The files at a path

A tree lists its files in some order, the one in which a walk through its directories would come by
them. The files at a path are sorted, so they do not depend on that order: a tree whose entries come
in another order has the same files at every path (`QueryTypes.FileTree.IsReordering.filesAt`).

Of the paths that can be read, exactly those are listed at a path that lead on from it by plain
components and have one of the endings (`QueryTypes.FileTree.IsProper.mem_filesAt_iff`). Both asks
that the tree be a proper one (`QueryTypes.FileTree.IsProper`), with one entry a place and places
named by plain components, as every tree is that files are stored in.
-/

namespace QueryTypes

namespace Text

/-- A beginning that can be taken off is one. -/
theorem startsWith_iff {start text : List Char} :
    startsWith start text = true ↔ start <+: text := by
  unfold startsWith
  constructor
  · intro h
    obtain ⟨rest, hrest⟩ := Option.isSome_iff_exists.1 h
    exact ⟨rest, (eq_append_of_dropStart? hrest).symm⟩
  · rintro ⟨rest, rfl⟩
    rw [dropStart?_append]
    rfl

/-- Ends are beginnings read backwards. -/
theorem endsWith_iff {ending text : List Char} : endsWith ending text = true ↔ ending <:+ text := by
  rw [endsWith, startsWith_iff, List.reverse_prefix]

end Text

instance (part : String) : Decidable (Path.IsPlain part) :=
  decidable_of_iff ('/' ∉ part.toList ∧ part ≠ "" ∧ part ≠ "." ∧ part ≠ "..")
    ⟨fun ⟨noSlash, ne_empty, ne_dot, ne_up⟩ => ⟨⟨noSlash, ne_empty, ne_dot⟩, ne_up⟩,
      fun h => ⟨h.noSlash, h.ne_empty, h.ne_dot, h.ne_up⟩⟩

namespace FileTree

variable {tree other : FileTree} {path file : Path} {place : List String}

/-! ### Proper trees -/

/-- **A proper tree**: places are named by plain components, and each has at most one entry. -/
structure IsProper (tree : FileTree) : Prop where
  /-- The number in front of a place is how many components it has. -/
  numbered : ∀ entry ∈ tree.entries, entry.1.1 = entry.1.2.length
  /-- The root has no entry. -/
  ne_root : ∀ entry ∈ tree.entries, entry.1.2 ≠ []
  /-- Components name files or directories. -/
  plain : ∀ entry ∈ tree.entries, ∀ part ∈ entry.1.2, Path.IsPlain part
  /-- No place has two entries. -/
  keys_nodup : (tree.entries.map Prod.fst).Nodup

/-- Nothing is wrong with a tree that has nothing in it. -/
theorem isProper_empty (directory : List String) : (empty directory).IsProper :=
  ⟨nofun, nofun, nofun, List.nodup_nil⟩

/-- What holds of all keys of a tree, and of the one of a place, holds when something is put
there. -/
theorem forall_key_put {P : Nat × List String → Prop} (new : P (place.length, place))
    (old : ∀ e ∈ tree.entries, P e.1) (entry : Entry) :
    ∀ e ∈ (tree.put place entry).entries, P e.1 := by
  intro e he
  have hkey : e.1 ∈ (Keyed.insert (place.length, place) entry tree.entries).map Prod.fst :=
    List.mem_map_of_mem he
  rw [Keyed.keys_insert] at hkey
  have before : e.1 ∈ tree.entries.map Prod.fst → P e.1 := by
    intro hkey
    obtain ⟨f, hf, same⟩ := List.mem_map.1 hkey
    exact same ▸ old f hf
  split at hkey
  · exact before hkey
  · rcases List.mem_append.1 hkey with hkey | hkey
    · exact before hkey
    · exact List.mem_singleton.1 hkey ▸ new

/-- **What is put at a plain place leaves a tree proper.** -/
theorem IsProper.put (proper : tree.IsProper) (ne_root : place ≠ [])
    (plain : ∀ part ∈ place, Path.IsPlain part) (entry : Entry) :
    (tree.put place entry).IsProper where
  numbered := forall_key_put (P := fun key => key.1 = key.2.length) rfl proper.numbered entry
  ne_root := forall_key_put (P := fun key => key.2 ≠ []) ne_root proper.ne_root entry
  plain := forall_key_put (P := fun key => ∀ part ∈ key.2, Path.IsPlain part) plain proper.plain
    entry
  keys_nodup := by
    change ((Keyed.insert (place.length, place) entry tree.entries).map Prod.fst).Nodup
    rw [Keyed.keys_insert]
    split
    · exact proper.keys_nodup
    · next new =>
      refine List.nodup_append.2 ⟨proper.keys_nodup, List.nodup_singleton _, ?_⟩
      rintro key hkey _ hnew rfl
      exact new (List.mem_singleton.1 hnew ▸ hkey)

/-- An entry stands at its place, and nothing else does. -/
theorem IsProper.content?_eq_some_iff (proper : tree.IsProper) {entry : Entry}
    (ne_root : place ≠ []) :
    tree.content? place = some entry ↔ ∃ n, ((n, place), entry) ∈ tree.entries := by
  rw [content?, if_neg ne_root, Keyed.lookup_eq_some_iff proper.keys_nodup]
  refine ⟨fun h => ⟨_, h⟩, ?_⟩
  rintro ⟨n, h⟩
  obtain rfl : n = place.length := proper.numbered _ h
  exact h

/-! ### Walking on -/

/-- A walk goes on from where its first part leads. -/
theorem walk_append {xs ys found : List String} (h : tree.walk place xs = .ok found) :
    tree.walk place (xs ++ ys) = tree.walk found ys := by
  induction xs generalizing place with
  | nil =>
    cases h
    rfl
  | cons part rest ih =>
    rw [walk] at h
    rw [List.cons_append, walk]
    cases hc : tree.content? place with
    | none =>
      rw [hc] at h
      cases h
    | some entry =>
      rw [hc] at h
      cases entry with
      | file text => cases h
      | directory =>
        dsimp only at h ⊢
        split at h
        · next up => rw [if_pos up, ih h]
        · next down =>
          rw [if_neg down]
          split at h
          · cases h
          · next short => rw [if_neg short, ih h]

/-- A walk along plain components goes down. -/
theorem eq_append_of_walk {parts found : List String} (plain : ∀ part ∈ parts, Path.IsPlain part)
    (h : tree.walk place parts = .ok found) : found = place ++ parts := by
  induction parts generalizing place with
  | nil =>
    cases h
    exact (List.append_nil _).symm
  | cons part rest ih =>
    have down := (plain part (List.mem_cons_self ..)).ne_up
    rw [walk] at h
    split at h
    · cases h
    · cases h
    · rw [if_neg down] at h
      split at h
      · cases h
      · rw [ih (fun p hp => plain p (List.mem_cons_of_mem _ hp)) h, List.append_assoc]
        rfl

/-- Nothing lies below a file. -/
theorem walk_of_file {parts found : List String} {text : String}
    (hfile : tree.content? place = some (.file text)) (h : tree.walk place parts = .ok found) :
    parts = [] := by
  cases parts with
  | nil => rfl
  | cons part rest =>
    rw [walk, hfile] at h
    cases h

/-- **A path that leads on from another one** is walked from where that leads. -/
theorem walk_of_locate_join {parts found : List String} (hpath : tree.locate path = .ok place)
    (h : tree.locate (path.join ⟨.relative, parts⟩) = .ok found) :
    tree.walk place parts = .ok found := by
  have start : tree.start (path.join ⟨.relative, parts⟩) = tree.start path := rfl
  unfold locate at h hpath
  split at hpath
  · cases hpath
  · split at h
    · cases h
    · rw [start] at h
      rw [← walk_append hpath]
      exact h

/-! ### Listing -/

theorem below?_eq_some_iff {place whole rest : List String} :
    below? place whole = some rest ↔ whole = place ++ rest := by
  induction place generalizing whole with
  | nil => simp [below?]
  | cons x xs ih =>
    cases whole with
    | nil => simp [below?]
    | cons y ys =>
      rw [below?]
      by_cases same : x = y
      · rw [if_pos same, ih, same]
        simp
      · simp [same, Ne.symm same]

/-- **The files inside a directory** are those that stand below it. -/
theorem IsProper.mem_filesBelow_iff (proper : tree.IsProper) {rest : List String} {text : String} :
    (rest, text) ∈ tree.filesBelow place ↔ tree.content? (place ++ rest) = some (.file text) := by
  have listed : (rest, text) ∈ tree.filesBelow place ↔
      ∃ n, ((n, place ++ rest), .file text) ∈ tree.entries := by
    unfold filesBelow
    rw [List.mem_filterMap]
    constructor
    · rintro ⟨⟨⟨n, whole⟩, entry⟩, mem, h⟩
      cases entry with
      | directory => cases h
      | file held =>
        obtain ⟨found, hfound, same⟩ := Option.map_eq_some_iff.1 h
        cases same
        exact ⟨n, below?_eq_some_iff.1 hfound ▸ mem⟩
    · rintro ⟨n, mem⟩
      exact ⟨_, mem, Option.map_eq_some_iff.2 ⟨rest, below?_eq_some_iff.2 rfl, rfl⟩⟩
  rw [listed]
  by_cases root : place ++ rest = []
  · rw [root]
    refine iff_of_false ?_ nofun
    rintro ⟨n, mem⟩
    exact proper.ne_root _ mem rfl
  · exact (proper.content?_eq_some_iff root).symm

/-- The files inside a directory have different components. -/
theorem IsProper.nodup_filesBelow (proper : tree.IsProper) (place : List String) :
    ((tree.filesBelow place).map Prod.fst).Nodup := by
  have distinct : tree.entries.Pairwise fun e f => e.1 ≠ f.1 :=
    List.pairwise_map.1 proper.keys_nodup
  rw [List.Nodup, List.pairwise_map]
  unfold filesBelow
  rw [List.pairwise_filterMap]
  refine List.Pairwise.imp_of_mem ?_ distinct
  rintro ⟨⟨n, whole⟩, entry⟩ ⟨⟨m, whole'⟩, entry'⟩ mem mem' ne ⟨rest, text⟩ h ⟨rest', text'⟩ h' same
  cases entry with
  | directory => cases h
  | file held =>
    cases entry' with
    | directory => cases h'
    | file held' =>
      obtain ⟨found, hfound, e⟩ := Option.map_eq_some_iff.1 h
      obtain ⟨found', hfound', e'⟩ := Option.map_eq_some_iff.1 h'
      cases e
      cases e'
      -- files of the same components stand at the same place, which has one number
      have rests : rest = rest' := same
      have places : whole = whole' := by
        rw [below?_eq_some_iff.1 hfound, below?_eq_some_iff.1 hfound', rests]
      have numbers : n = m := by
        have counts : n = whole.length := proper.numbered _ mem
        have counts' : m = whole'.length := proper.numbered _ mem'
        rw [counts, counts', places]
      exact ne (by rw [numbers, places])

/-- The paths of the files inside a directory have different components. -/
theorem IsProper.nodup_parts_below (proper : tree.IsProper) (path : Path) (place : List String)
    (ends : Path → Bool) :
    ((((tree.filesBelow place).map fun (rest, _) => path.join ⟨.relative, rest⟩).filter ends).map
      Path.parts).Nodup := by
  have all : (((tree.filesBelow place).map fun (rest, _) => path.join ⟨.relative, rest⟩).map
      Path.parts).Nodup := by
    rw [List.map_map, List.Nodup, List.pairwise_map]
    have distinct := List.pairwise_map.1 (proper.nodup_filesBelow place)
    exact distinct.imp fun ne same => ne (List.append_cancel_left same)
  exact all.sublist (List.filter_sublist.map _)

/-- A name has one of some endings. -/
def HasEnding (endings : List String) (name : String) : Prop :=
  ∃ ending ∈ endings, ending.toList <:+ name.toList

theorem hasEnding_iff {endings : List String} {name : String} :
    (endings.any fun ending => Text.endsWith ending.toList name.toList) = true ↔
      HasEnding endings name := by
  simp only [List.any_eq_true, Text.endsWith_iff, HasEnding]

/-- A file that is read stands somewhere. -/
theorem exists_content?_of_read? {text : String} (h : tree.read? file = some text) :
    ∃ found held, tree.locate file = .ok found ∧ tree.content? found = some (.file held) := by
  obtain ⟨held, hbytes, -⟩ := Option.map_eq_some_iff.1 h
  obtain ⟨found, hfound, hc⟩ := bytes?_eq_some_iff.1 hbytes
  exact ⟨found, held, hfound, hc⟩

/-- **Nothing that can be read leads on from a file**, except for the file itself. -/
theorem exists_join_iff_of_isFile {text : String} (hpath : tree.locate path = .ok place)
    (isFile : tree.isFile path = true) (hread : tree.read? file = some text) :
    (∃ rest, (∀ part ∈ rest, Path.IsPlain part) ∧ file = path.join ⟨.relative, rest⟩) ↔
      file = path := by
  obtain ⟨found, held, hfound, hc⟩ := exists_content?_of_read? hread
  have same : path.join ⟨.relative, []⟩ = path := by
    rw [Path.join]
    exact congrArg (Path.mk path.anchor) (List.append_nil _)
  constructor
  · rintro ⟨rest, plain, rfl⟩
    unfold FileTree.isFile find? at isFile
    simp only [hpath] at isFile
    split at isFile
    · next here =>
      rw [walk_of_file here (walk_of_locate_join hpath hfound), same]
    · cases isFile
  · rintro rfl
    exact ⟨[], fun part hp => absurd hp List.not_mem_nil, same.symm⟩

/-- **What can be read below a path** is what leads on from there by plain components. -/
theorem IsProper.mem_map_filesBelow_iff (proper : tree.IsProper) {text : String}
    (hpath : tree.locate path = .ok place) (hread : tree.read? file = some text) :
    file ∈ (tree.filesBelow place).map (fun (rest, _) => path.join ⟨.relative, rest⟩) ↔
      ∃ rest, (∀ part ∈ rest, Path.IsPlain part) ∧ file = path.join ⟨.relative, rest⟩ := by
  obtain ⟨found, held, hfound, hc⟩ := exists_content?_of_read? hread
  rw [List.mem_map]
  constructor
  · rintro ⟨⟨rest, t⟩, mem, rfl⟩
    have there := proper.mem_filesBelow_iff.1 mem
    have ne_root : place ++ rest ≠ [] := ne_nil_of_content? (by rw [there]; simp)
    obtain ⟨n, hentry⟩ := (proper.content?_eq_some_iff ne_root).1 there
    exact ⟨rest, fun part hp => proper.plain _ hentry part (List.mem_append_right _ hp), rfl⟩
  · rintro ⟨rest, plain, rfl⟩
    have down := eq_append_of_walk plain (walk_of_locate_join hpath hfound)
    rw [down] at hc
    exact ⟨(rest, held), proper.mem_filesBelow_iff.2 hc, rfl⟩

/-- **The files at a path**: of those that can be read, exactly the ones that lead on from it by
plain components and have one of the endings. -/
theorem IsProper.mem_filesAt_iff (proper : tree.IsProper) {endings : List String}
    {files : List Path} {text : String} (hpath : tree.locate path = .ok place)
    (hfiles : tree.filesAt path endings = .ok files) (hread : tree.read? file = some text) :
    file ∈ files ↔ HasEnding endings file.name ∧
      ∃ rest, (∀ part ∈ rest, Path.IsPlain part) ∧ file = path.join ⟨.relative, rest⟩ := by
  unfold filesAt at hfiles
  simp only [hpath] at hfiles
  split at hfiles
  · next isFile =>
    rw [exists_join_iff_of_isFile hpath isFile hread]
    cases hfiles
    split
    · next ends =>
      rw [List.mem_singleton]
      exact ⟨fun same => ⟨same ▸ hasEnding_iff.1 ends, same⟩, And.right⟩
    · next ends =>
      refine iff_of_false List.not_mem_nil ?_
      rintro ⟨has, rfl⟩
      exact ends (hasEnding_iff.2 has)
  · cases hfiles
    rw [(Path.perm_sort _).mem_iff, List.mem_filter, hasEnding_iff,
      proper.mem_map_filesBelow_iff hpath hread, and_comm]

/-- The files at a path are in the order of their components. -/
theorem IsProper.pairwise_filesAt (proper : tree.IsProper) {endings : List String}
    {files : List Path} (hfiles : tree.filesAt path endings = .ok files) :
    files.Pairwise Path.Precedes := by
  unfold filesAt at hfiles
  split at hfiles
  · cases hfiles
  · cases hfiles
  · cases hfiles
    exact List.Pairwise.nil
  · next place _ =>
    dsimp only at hfiles
    split at hfiles
    · cases hfiles
      split
      · exact List.pairwise_singleton _ _
      · exact List.Pairwise.nil
    · cases hfiles
      exact Path.pairwise_sort (proper.nodup_parts_below path place _)

/-- Where there are no files at a path, it leads nowhere. -/
theorem locate_of_filesAt_eq_error {endings : List String} {obstacle : Obstacle}
    (h : tree.filesAt path endings = .error obstacle) : tree.locate path = .error obstacle := by
  unfold filesAt at h
  split at h
  · next hl =>
    cases h
    exact hl
  · next hl =>
    cases h
    exact hl
  · cases h
  · dsimp only at h
    split at h <;> cases h

/-! ### Another order of the entries -/

/-- The same tree, with its entries in another order. -/
structure IsReordering (tree other : FileTree) : Prop where
  /-- The working directory is the same. -/
  directory : other.directory = tree.directory
  /-- The entries are the same, in some order. -/
  entries : tree.entries.Perm other.entries

namespace IsReordering

variable (proper : tree.IsProper) (same : tree.IsReordering other)
include proper same

theorem content? (place : List String) : other.content? place = tree.content? place := by
  unfold FileTree.content?
  rw [Keyed.lookup_eq_of_perm same.entries proper.keys_nodup]

theorem walk (place parts : List String) : other.walk place parts = tree.walk place parts := by
  induction parts generalizing place with
  | nil => rfl
  | cons part rest ih =>
    rw [FileTree.walk, FileTree.walk, same.content? proper]
    simp only [ih]

theorem locate (path : Path) : other.locate path = tree.locate path := by
  unfold FileTree.locate FileTree.start
  simp only [same.walk proper, same.directory]

theorem find? (path : Path) : other.find? path = tree.find? path := by
  unfold FileTree.find?
  rw [same.locate proper]
  simp only [same.content? proper]

theorem read? (path : Path) : other.read? path = tree.read? path := by
  unfold FileTree.read? FileTree.bytes?
  rw [same.find? proper]

/-- **The files at a path do not depend on the order of the entries.** -/
theorem filesAt (path : Path) (endings : List String) :
    other.filesAt path endings = tree.filesAt path endings := by
  have below : ∀ place, (tree.filesBelow place).Perm (other.filesBelow place) :=
    fun place => same.entries.filterMap _
  unfold FileTree.filesAt FileTree.isFile
  rw [same.locate proper, same.find? proper]
  split
  · rfl
  · rfl
  · rfl
  · next place _ =>
    dsimp only
    split
    · rfl
    · refine congrArg Except.ok (Path.sort_eq_of_perm (((below place).symm.map _).filter _) ?_)
      exact (((below place).map _).filter _).map _ |>.nodup_iff.1
        (proper.nodup_parts_below path place _)

end IsReordering

end FileTree

end QueryTypes
