import QueryTypes.Path.Basic

/-!
# Paths and places

Reading a path gives back the components that it was written with
(`QueryTypes.Path.partsOf_join`), and a path that is seen from another one leads to the place
that its components lead to from there (`QueryTypes.Path.absolute_join`). Components other than
double dots are kept on the way, and double dots take back as many components as there are of
them.
-/

namespace QueryTypes

namespace Text

/-! ### Breaking and joining -/

theorem splitOn_of_not_mem {mark : Char} {text : List Char} (h : mark ∉ text) :
    splitOn mark text = [text] := by
  induction text with
  | nil => rfl
  | cons c rest ih =>
    rw [List.mem_cons, not_or] at h
    rw [splitOn, if_neg (Ne.symm h.1), ih h.2]

theorem splitOn_append_mark {mark : Char} {text : List Char} (rest : List Char)
    (h : mark ∉ text) : splitOn mark (text ++ mark :: rest) = text :: splitOn mark rest := by
  induction text with
  | nil => rw [List.nil_append, splitOn, if_pos rfl]
  | cons c text ih =>
    rw [List.mem_cons, not_or] at h
    rw [List.cons_append, splitOn, if_neg (Ne.symm h.1), ih h.2]

/-- The mark at which a text is broken does not occur in its parts. -/
theorem not_mem_of_mem_splitOn {mark : Char} {text part : List Char}
    (h : part ∈ splitOn mark text) : mark ∉ part := by
  induction text generalizing part with
  | nil =>
    rw [splitOn, List.mem_singleton] at h
    rw [h]
    exact List.not_mem_nil
  | cons c rest ih =>
    rw [splitOn] at h
    split at h
    · rcases List.mem_cons.1 h with rfl | h
      · exact List.not_mem_nil
      · exact ih h
    · next hc =>
      split at h
      · rw [List.mem_singleton] at h
        rw [h, List.mem_singleton]
        exact fun e => hc e.symm
      · next first others hparts =>
        rw [hparts] at ih
        rcases List.mem_cons.1 h with rfl | h
        · rw [List.mem_cons, not_or]
          exact ⟨fun e => hc e.symm, ih (List.mem_cons_self ..)⟩
        · exact ih (List.mem_cons_of_mem _ h)

theorem toList_join_cons (separator text next : String) (rest : List String) :
    (join separator (text :: next :: rest)).toList =
      text.toList ++ (separator.toList ++ (join separator (next :: rest)).toList) := by
  rw [join, String.toList_append, String.toList_append, List.append_assoc]

end Text

namespace Path

/-! ### Components -/

/-- A text that can be a component of a path. -/
structure IsComponent (part : String) : Prop where
  /-- It has no slash in it. -/
  noSlash : '/' ∉ part.toList
  /-- It is not empty. -/
  ne_empty : part ≠ ""
  /-- It is not a single dot. -/
  ne_dot : part ≠ "."

/-- A component that names a file or directory: it does not lead upwards. -/
structure IsPlain (part : String) : Prop extends IsComponent part where
  /-- It is not a double dot. -/
  ne_up : part ≠ ".."

theorem isComponent_of_mem_partsOf {text : List Char} {part : String} (h : part ∈ partsOf text) :
    IsComponent part := by
  obtain ⟨chars, hc, rfl⟩ := List.mem_map.1 h
  obtain ⟨hs, hne⟩ := List.mem_filter.1 hc
  have noSlash := Text.not_mem_of_mem_splitOn hs
  simp only [ne_eq, decide_eq_true_eq] at hne
  refine ⟨by rwa [String.toList_ofList], fun e => hne.1 ?_, fun e => hne.2 ?_⟩
  · rw [← String.toList_ofList (l := chars), e, String.toList_empty]
  · rw [← String.toList_ofList (l := chars), e]
    decide

/-- Reading keeps a component. -/
theorem IsComponent.filter_cons {part : String} (h : IsComponent part)
    (others : List (List Char)) :
    (part.toList :: others).filter (fun part => part ≠ [] ∧ part ≠ ['.']) =
      part.toList :: others.filter fun part => part ≠ [] ∧ part ≠ ['.'] := by
  refine List.filter_cons_of_pos ?_
  rw [decide_eq_true_eq]
  refine ⟨fun e => h.ne_empty ?_, fun e => h.ne_dot ?_⟩
  · rw [← String.ofList_toList (s := part), e, String.ofList_nil]
  · rw [← String.ofList_toList (s := part), e]

/-- **Reading what components write gives them back.** -/
theorem partsOf_join {parts : List String} (h : ∀ part ∈ parts, IsComponent part) :
    partsOf (Text.join "/" parts).toList = parts := by
  induction parts with
  | nil => rfl
  | cons part rest ih =>
    have first := h part (List.mem_cons_self ..)
    cases rest with
    | nil =>
      rw [Text.join_singleton, partsOf, Text.splitOn_of_not_mem first.noSlash, first.filter_cons,
        List.filter_nil, List.map_singleton, String.ofList_toList]
    | cons next rest =>
      have := ih fun p hp => h p (List.mem_cons_of_mem _ hp)
      rw [partsOf] at this
      rw [partsOf, Text.toList_join_cons, show "/".toList = ['/'] from rfl, List.singleton_append,
        Text.splitOn_append_mark _ first.noSlash, first.filter_cons, List.map_cons, this,
        String.ofList_toList]

/-- A dot and a slash in front add no component. -/
theorem partsOf_here (text : List Char) : partsOf ('.' :: '/' :: text) = partsOf text := by
  have split : Text.splitOn '/' ('.' :: '/' :: text) = ['.'] :: Text.splitOn '/' text :=
    Text.splitOn_append_mark text (show '/' ∉ ['.'] by decide)
  rw [partsOf, split, List.filter_cons_of_neg (by simp)]
  rfl

/-- A text that begins with a component is no path from the root. -/
theorem anchorOf_of_head {c : Char} {rest : List Char} (h : c ≠ '/') :
    anchorOf (c :: rest) = .relative := by
  unfold anchorOf
  split <;> simp_all

/-- A component reads as the path that consists of it. -/
theorem ofString_of_isComponent {part : String} (h : IsComponent part) :
    ofString part = ⟨.relative, [part]⟩ := by
  have parts : partsOf part.toList = [part] :=
    partsOf_join fun p (hp : p ∈ [part]) => by rwa [List.mem_singleton.1 hp]
  rw [ofString, parts]
  cases hc : part.toList with
  | nil => rfl
  | cons c rest =>
    have head : c ≠ '/' := by
      rintro rfl
      exact h.noSlash (by rw [hc]; exact List.mem_cons_self ..)
    rw [anchorOf_of_head head]

/-! ### Taking components back -/

theorem normalizeOnto_cons {done rest : List String} {part : String} (h : part ≠ "..") :
    normalizeOnto done (part :: rest) = normalizeOnto (part :: done) rest := by
  rw [normalizeOnto]
  exact h

/-- Components that follow others are put onto what is left of those. -/
theorem normalizeOnto_append (done xs ys : List String) :
    normalizeOnto done (xs ++ ys) = normalizeOnto (normalizeOnto done xs).reverse ys := by
  induction xs generalizing done with
  | nil => rw [List.nil_append, normalizeOnto, List.reverse_reverse]
  | cons x xs ih =>
    rw [List.cons_append]
    by_cases hx : x = ".."
    · subst hx
      rw [normalizeOnto, normalizeOnto, ih]
    · rw [normalizeOnto_cons hx, normalizeOnto_cons hx, ih]

/-- Components that do not lead upwards are kept. -/
theorem normalizeOnto_of_ne_up {done parts : List String} (h : ∀ part ∈ parts, part ≠ "..") :
    normalizeOnto done parts = done.reverse ++ parts := by
  induction parts generalizing done with
  | nil => rw [normalizeOnto, List.append_nil]
  | cons part rest ih =>
    rw [normalizeOnto_cons (h part (List.mem_cons_self ..)),
      ih fun p hp => h p (List.mem_cons_of_mem _ hp), List.reverse_cons, List.append_assoc]
    rfl

/-- As many double dots as there are components take all of them back. -/
theorem normalizeOnto_up (done up rest : List String) :
    normalizeOnto (up ++ done) (up.map (fun _ => "..") ++ rest) = normalizeOnto done rest := by
  induction up with
  | nil => rfl
  | cons part up ih =>
    rw [List.cons_append, List.map_cons, List.cons_append, normalizeOnto, List.tail_cons, ih]

/-! ### Places -/

/-- **A path that is seen from another one leads where its components lead from there.** -/
theorem absolute_join (directory : List String) (base : Path) (parts : List String) :
    absolute directory (base.join ⟨.relative, parts⟩) =
      normalizeOnto (absolute directory base).reverse parts := by
  obtain ⟨anchor, front⟩ := base
  cases anchor
  · exact (congrArg normalize (List.append_assoc directory front parts).symm).trans
      (normalizeOnto_append [] (directory ++ front) parts)
  · exact normalizeOnto_append [] front parts
  · exact normalizeOnto_append [] front parts

/-- Below a path without double dots, its components are those of the place. -/
theorem absolute_join_of_ne_up (directory : List String) (base : Path) {parts : List String}
    (h : ∀ part ∈ parts, part ≠ "..") :
    absolute directory (base.join ⟨.relative, parts⟩) = absolute directory base ++ parts := by
  rw [absolute_join, normalizeOnto_of_ne_up h, List.reverse_reverse]

/-- Nothing is left over but components that were there, and no double dots among them. -/
theorem mem_of_mem_normalizeOnto {done parts : List String} {part : String}
    (h : part ∈ normalizeOnto done parts) : part ∈ done ∨ part ∈ parts ∧ part ≠ ".." := by
  induction parts generalizing done with
  | nil =>
    rw [normalizeOnto, List.mem_reverse] at h
    exact Or.inl h
  | cons first rest ih =>
    by_cases up : first = ".."
    · rw [up, normalizeOnto] at h
      rcases ih h with hd | ⟨hr, hne⟩
      · exact Or.inl (List.mem_of_mem_tail hd)
      · exact Or.inr ⟨List.mem_cons_of_mem _ hr, hne⟩
    · rw [normalizeOnto_cons up] at h
      rcases ih h with hd | ⟨hr, hne⟩
      · rcases List.mem_cons.1 hd with rfl | hd
        · exact Or.inr ⟨List.mem_cons_self .., up⟩
        · exact Or.inl hd
      · exact Or.inr ⟨List.mem_cons_of_mem _ hr, hne⟩

/-- **The place that a written path stands for** is named by components that do not lead upwards, as
the working directory is. -/
theorem isPlain_of_mem_absolute {directory : List String}
    (plain : ∀ part ∈ directory, IsPlain part) {text part : String}
    (h : part ∈ (ofString text).absolute directory) : IsPlain part := by
  unfold absolute at h
  split at h
  · obtain ⟨hpart, hne⟩ := (mem_of_mem_normalizeOnto h).resolve_left List.not_mem_nil
    rcases List.mem_append.1 hpart with hpart | hpart
    · exact plain part hpart
    · exact ⟨isComponent_of_mem_partsOf hpart, hne⟩
  · obtain ⟨hpart, hne⟩ := (mem_of_mem_normalizeOnto h).resolve_left List.not_mem_nil
    exact ⟨isComponent_of_mem_partsOf hpart, hne⟩

/-- The path from the root to the place that a path stands for; two slashes in front stay two. -/
def fromRoot (directory : List String) (path : Path) : Path :=
  ⟨match path.anchor with
    | .doubleRoot => .doubleRoot
    | _ => .root, path.absolute directory⟩

/-- The path from the root stands for the same place. -/
theorem absolute_fromRoot {directory : List String} {path : Path}
    (plain : ∀ part ∈ path.absolute directory, part ≠ "..") :
    (path.fromRoot directory).absolute directory = path.absolute directory := by
  have kept : normalize (path.absolute directory) = path.absolute directory :=
    normalizeOnto_of_ne_up plain
  unfold fromRoot
  cases hanchor : path.anchor <;> exact kept

theorem parent_join_singleton (base : Path) (part : String) :
    (base.join ⟨.relative, [part]⟩).parent = base := by
  rw [join, parent, List.dropLast_concat]

end Path

end QueryTypes
