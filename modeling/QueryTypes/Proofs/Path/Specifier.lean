import QueryTypes.Path.Specifier
import QueryTypes.Proofs.Path.Basic

/-!
# Where specifiers lead

A specifier, read as a path from the directory that it was made for, leads to the file that it
was made for, less the double suffix of the file's name
(`QueryTypes.Path.absolute_append_specifierBetween`). On the way up it takes back what the two
places do not share, and on the way down it names what is left of the target; the suffix that is
dropped never reaches over a slash, so only the last component changes.

This is so for all written paths (`QueryTypes.Path.absolute_append_specifier`), unless the file is the
directory itself or one above it. Then the specifier ends in dots, which are no name with a suffix.
A path with two slashes at the front counts as one with a single slash here, since ways between
places go by components (`QueryTypes.Path.exists_specifier_leads_elsewhere`).
-/

namespace QueryTypes

namespace Path

/-! ### Double suffixes -/

/-- A text of which a suffix may consist. -/
structure IsSuffix (text : List Char) : Prop where
  /-- There is something behind the dot. -/
  ne_nil : text ≠ []
  /-- There are no dots in it. -/
  noDot : '.' ∉ text
  /-- There are no slashes in it. -/
  noSlash : '/' ∉ text

theorem IsSuffix.reverse {text : List Char} (h : IsSuffix text) : IsSuffix text.reverse :=
  ⟨by rw [ne_eq, List.reverse_eq_nil_iff]; exact h.ne_nil,
    by rw [List.mem_reverse]; exact h.noDot, by rw [List.mem_reverse]; exact h.noSlash⟩

/-- A suffix and the dot before it are dropped, back to front. -/
theorem dropSuffix?_append {suffix : List Char} (h : IsSuffix suffix) (rest : List Char) :
    dropSuffix? (suffix ++ '.' :: rest) = some rest := by
  have inner : ∀ c ∈ suffix, decide (c ≠ '.' ∧ c ≠ '/') = true := by
    intro c hc
    rw [decide_eq_true_eq]
    exact ⟨fun e => h.noDot (e ▸ hc), fun e => h.noSlash (e ▸ hc)⟩
  cases suffix with
  | nil => exact absurd rfl h.ne_nil
  | cons c suffix =>
    rw [dropSuffix?, List.takeWhile_append_of_pos inner, List.dropWhile_append_of_pos inner]
    simp

/-- What is dropped is a suffix and the dot before it. -/
theorem exists_of_dropSuffix? {reversed rest : List Char} (h : dropSuffix? reversed = some rest) :
    ∃ suffix, IsSuffix suffix ∧ reversed = suffix ++ '.' :: rest := by
  unfold dropSuffix? at h
  dsimp only at h
  split at h
  · cases h
  · next c suffix _ taken left =>
    cases h
    have inner : ∀ d ∈ c :: suffix, decide (d ≠ '.' ∧ d ≠ '/') = true := by
      rw [← taken]
      exact List.all_eq_true.1 List.all_takeWhile
    refine ⟨c :: suffix, ⟨List.cons_ne_nil _ _, fun hdot => ?_, fun hslash => ?_⟩, ?_⟩
    · exact absurd (inner _ hdot) (by decide)
    · exact absurd (inner _ hslash) (by decide)
    · rw [← taken, ← left, List.takeWhile_append_dropWhile]
  · cases h

theorem takeWhile_append_stop {p : Char → Bool} {stop : Char} (h : p stop = false)
    (text rest : List Char) : (text ++ stop :: rest).takeWhile p = text.takeWhile p := by
  induction text with
  | nil => simp [h]
  | cons c text ih =>
    rw [List.cons_append, List.takeWhile_cons, List.takeWhile_cons, ih]

theorem dropWhile_append_stop {p : Char → Bool} {stop : Char} (h : p stop = false)
    (text rest : List Char) :
    (text ++ stop :: rest).dropWhile p = text.dropWhile p ++ stop :: rest := by
  induction text with
  | nil => simp [h]
  | cons c text ih =>
    rw [List.cons_append, List.dropWhile_cons, List.dropWhile_cons, ih]
    split <;> rfl

/-- No suffix reaches over a slash. -/
theorem dropSuffix?_append_slash (text rest : List Char) :
    dropSuffix? (text ++ '/' :: rest) = (dropSuffix? text).map (· ++ '/' :: rest) := by
  rw [dropSuffix?, dropSuffix?, takeWhile_append_stop (by decide),
    dropWhile_append_stop (by decide)]
  cases text.takeWhile _ with
  | nil => rfl
  | cons c suffix =>
    cases text.dropWhile _ with
    | nil => rfl
    | cons d before =>
      by_cases hd : d = '.'
      · rw [hd]
        rfl
      · simp [hd]

/-- A double suffix is dropped. -/
theorem stripDoubleSuffix_append (stem : List Char) {x y : List Char} (hx : IsSuffix x)
    (hy : IsSuffix y) : stripDoubleSuffix (stem ++ '.' :: (x ++ '.' :: y)) = stem := by
  have back : (stem ++ '.' :: (x ++ '.' :: y)).reverse =
      y.reverse ++ '.' :: (x.reverse ++ '.' :: stem.reverse) := by
    simp
  rw [stripDoubleSuffix, back, dropSuffix?_append hy.reverse, Option.bind_some,
    dropSuffix?_append hx.reverse]
  exact List.reverse_reverse stem

/-- Nothing but a double suffix is dropped. -/
theorem stripDoubleSuffix_cases (text : List Char) :
    (∃ x y, IsSuffix x ∧ IsSuffix y ∧ text = stripDoubleSuffix text ++ '.' :: (x ++ '.' :: y)) ∨
      stripDoubleSuffix text = text := by
  cases hs : (dropSuffix? text.reverse).bind dropSuffix? with
  | none =>
    refine Or.inr ?_
    rw [stripDoubleSuffix, hs]
  | some rest =>
    obtain ⟨once, hy, hx⟩ := Option.bind_eq_some_iff.1 hs
    obtain ⟨y, isY, behind⟩ := exists_of_dropSuffix? hy
    obtain ⟨x, isX, before⟩ := exists_of_dropSuffix? hx
    refine Or.inl ⟨x.reverse, y.reverse, isX.reverse, isY.reverse, ?_⟩
    rw [stripDoubleSuffix, hs, ← List.reverse_inj, behind, before]
    simp

/-- What stands before a slash is left alone. -/
theorem stripDoubleSuffix_append_slash (front text : List Char) :
    stripDoubleSuffix (front ++ '/' :: text) = front ++ '/' :: stripDoubleSuffix text := by
  have back : (front ++ '/' :: text).reverse = text.reverse ++ '/' :: front.reverse := by simp
  rw [stripDoubleSuffix, back, dropSuffix?_append_slash]
  rw [stripDoubleSuffix]
  cases hs : dropSuffix? text.reverse with
  | none => rfl
  | some once =>
    rw [Option.map_some, Option.bind_some, Option.bind_some, dropSuffix?_append_slash]
    cases ht : dropSuffix? once with
    | none => rfl
    | some twice => simp

/-- **Only the last component of a way loses its double suffix.** -/
theorem stripDoubleSuffix_join {last stem : String}
    (h : stripDoubleSuffix last.toList = stem.toList) (front : List String) :
    stripDoubleSuffix (Text.join "/" (front ++ [last])).toList =
      (Text.join "/" (front ++ [stem])).toList := by
  induction front with
  | nil => exact h
  | cons part rest ih =>
    have slash : "/".toList = ['/'] := rfl
    cases rest with
    | nil =>
      rw [List.singleton_append, List.singleton_append, Text.toList_join_cons,
        Text.toList_join_cons, slash, List.singleton_append, List.singleton_append,
        stripDoubleSuffix_append_slash]
      exact congrArg (fun text => part.toList ++ '/' :: text) ih
    | cons next rest =>
      rw [List.cons_append, List.cons_append, List.cons_append, List.cons_append,
        Text.toList_join_cons, Text.toList_join_cons, slash, List.singleton_append,
        List.singleton_append, stripDoubleSuffix_append_slash]
      exact congrArg (fun text => part.toList ++ '/' :: text) ih

/-- A file name with a double suffix behind a stem that is a name itself. -/
structure HasStem (name stem : String) : Prop where
  /-- The stem names a file or directory. -/
  plain : IsPlain stem
  /-- Two suffixes follow it. -/
  suffixes : ∃ x y, IsSuffix x ∧ IsSuffix y ∧ name.toList = stem.toList ++ '.' :: (x ++ '.' :: y)

theorem HasStem.stripDoubleSuffix_eq {name stem : String} (h : HasStem name stem) :
    stripDoubleSuffix name.toList = stem.toList := by
  obtain ⟨x, y, hx, hy, hname⟩ := h.suffixes
  rw [hname, stripDoubleSuffix_append _ hx hy]

/-- What has a stem is longer than a component that is none. -/
theorem HasStem.isPlain {name stem : String} (h : HasStem name stem) : IsPlain name := by
  obtain ⟨x, y, hx, hy, hname⟩ := h.suffixes
  have long : ∀ text : String, text.toList.length < 4 → name ≠ text := by
    rintro text short rfl
    have := List.length_pos_iff.2 hx.ne_nil
    have := List.length_pos_iff.2 hy.ne_nil
    simp only [hname, List.length_append, List.length_cons] at short
    omega
  refine ⟨⟨?_, long "" (by decide), long "." (by decide)⟩, long ".." (by decide)⟩
  rw [hname]
  simp only [List.mem_append, List.mem_cons, not_or]
  exact ⟨h.plain.noSlash, by decide, hx.noSlash, by decide, hy.noSlash⟩

/-- A name ends in two suffixes behind a stem: there are two dots, and what stands between and
behind them has no dots in it and is not empty. -/
def EndsDouble (name stem : String) : Prop :=
  ∃ x y : List Char, x ≠ [] ∧ '.' ∉ x ∧ y ≠ [] ∧ '.' ∉ y ∧
    name.toList = stem.toList ++ '.' :: (x ++ '.' :: y)

/-- **The stem of a name**: what stands before a double suffix, or else the whole name. -/
def IsStem (name stem : String) : Prop :=
  EndsDouble name stem ∨ stem = name ∧ ∀ front, ¬ EndsDouble name front

/-- In a name without slashes, a double suffix is one that is dropped. -/
theorem EndsDouble.stripDoubleSuffix_eq {name stem : String} (h : EndsDouble name stem)
    (noSlash : '/' ∉ name.toList) : stripDoubleSuffix name.toList = stem.toList := by
  obtain ⟨x, y, hx, dotX, hy, dotY, hname⟩ := h
  have slashes : '/' ∉ x ∧ '/' ∉ y := by
    rw [hname] at noSlash
    simp only [List.mem_append, List.mem_cons, not_or] at noSlash
    exact ⟨noSlash.2.2.1, noSlash.2.2.2.2⟩
  rw [hname, stripDoubleSuffix_append _ ⟨hx, dotX, slashes.1⟩ ⟨hy, dotY, slashes.2⟩]

/-- **The stem of a component** is what is left of it when its double suffix is dropped. -/
theorem isStem_iff {name stem : String} (noSlash : '/' ∉ name.toList) :
    IsStem name stem ↔ stripDoubleSuffix name.toList = stem.toList := by
  constructor
  · rintro (h | ⟨rfl, none⟩)
    · exact h.stripDoubleSuffix_eq noSlash
    · rcases stripDoubleSuffix_cases stem.toList with ⟨x, y, hx, hy, hname⟩ | same
      · refine absurd ⟨x, y, hx.ne_nil, hx.noDot, hy.ne_nil, hy.noDot, ?_⟩
          (none (String.ofList (stripDoubleSuffix stem.toList)))
        rwa [String.toList_ofList]
      · exact same
  · intro h
    by_cases ends : ∃ front, EndsDouble name front
    · obtain ⟨front, hfront⟩ := ends
      have same : front = stem :=
        String.toList_inj.1 ((hfront.stripDoubleSuffix_eq noSlash).symm.trans h)
      exact Or.inl (same ▸ hfront)
    · have none : ∀ front, ¬ EndsDouble name front := fun front hf => ends ⟨front, hf⟩
      rcases stripDoubleSuffix_cases name.toList with ⟨x, y, hx, hy, hname⟩ | same
      · rw [h] at hname
        exact absurd ⟨x, y, hx.ne_nil, hx.noDot, hy.ne_nil, hy.noDot, hname⟩ (none stem)
      · exact Or.inr ⟨String.toList_inj.1 (h.symm.trans same), none⟩

theorem IsStem.noSlash {name stem : String} (h : IsStem name stem)
    (noSlash : '/' ∉ name.toList) : '/' ∉ stem.toList := by
  rcases h with ⟨x, y, -, -, -, -, hname⟩ | ⟨rfl, -⟩
  · rw [hname, List.mem_append, not_or] at noSlash
    exact noSlash.1
  · exact noSlash

/-- Every component has a stem, and only one. -/
theorem exists_isStem {name : String} (noSlash : '/' ∉ name.toList) :
    ∃ stem, IsStem name stem ∧ ∀ other, IsStem name other → other = stem := by
  refine ⟨String.ofList (stripDoubleSuffix name.toList), ?_, fun other h => ?_⟩
  · rw [isStem_iff noSlash, String.toList_ofList]
  · rw [(isStem_iff noSlash).1 h, String.ofList_toList]

/-! ### Ways between places -/

/-- Two places are what they share, and what is left of each. -/
theorem exists_common_of_dropCommon {xs ys up down : List String}
    (h : dropCommon xs ys = (up, down)) : ∃ common, xs = common ++ up ∧ ys = common ++ down := by
  induction xs generalizing ys with
  | nil =>
    rw [dropCommon, Prod.mk.injEq] at h
    obtain ⟨rfl, rfl⟩ := h
    · exact ⟨[], rfl, rfl⟩
    · intro x xs y ys hx
      cases hx
  | cons x xs ih =>
    cases ys with
    | nil =>
      rw [dropCommon, Prod.mk.injEq] at h
      obtain ⟨rfl, rfl⟩ := h
      · exact ⟨[], rfl, rfl⟩
      · intro x xs y ys _ hy
        cases hy
    | cons y ys =>
      rw [dropCommon] at h
      split at h
      · next e =>
        obtain ⟨common, hx, hy⟩ := ih h
        exact ⟨x :: common, by rw [hx, List.cons_append], by rw [hy, e, List.cons_append]⟩
      · rw [Prod.mk.injEq] at h
        obtain ⟨rfl, rfl⟩ := h
        exact ⟨[], rfl, rfl⟩

/-- From a place to one below it, nothing has to be taken back. -/
theorem dropCommon_append (start rest : List String) :
    dropCommon start (start ++ rest) = ([], rest) := by
  induction start with
  | nil => cases rest <;> rfl
  | cons part start ih => rw [List.cons_append, dropCommon, if_pos rfl, ih]

/-! ### Specifiers -/

/-- The components of a specifier: double dots for what has to be taken back, then the rest of
the way without the double suffix of its last component. -/
theorem partsOf_specifierBetween {start target up front : List String} {last stem : String}
    (hway : dropCommon start target = (up, front ++ [last]))
    (hfront : ∀ part ∈ front, IsComponent part) (hstem : IsComponent stem)
    (hstrip : stripDoubleSuffix last.toList = stem.toList) :
    partsOf (specifierBetween start target).toList =
      up.map (fun _ => "..") ++ (front ++ [stem]) := by
  have way : wayTo start target = (up.map (fun _ => "..") ++ front) ++ [last] := by
    rw [wayTo, hway, List.append_assoc]
  -- components keep their bounds when they are joined and broken again
  have components : ∀ part ∈ (up.map (fun _ => "..") ++ front) ++ [stem], IsComponent part := by
    intro part hp
    rcases List.mem_append.1 hp with hp | hp
    · rcases List.mem_append.1 hp with hp | hp
      · obtain ⟨_, _, rfl⟩ := List.mem_map.1 hp
        exact ⟨by decide, by decide, by decide⟩
      · exact hfront part hp
    · rwa [List.mem_singleton.1 hp]
  have text : (specifierBetween start target).toList =
      '.' :: '/' :: (Text.join "/" ((up.map (fun _ => "..") ++ front) ++ [stem])).toList := by
    rw [specifierBetween, wayText, way, if_neg (by simp), stripDoubleSuffix_join hstrip,
      String.ofList_toList, String.toList_append]
    rfl
  rw [text, partsOf_here, partsOf_join components, List.append_assoc]

/-- A specifier is no path from the root. -/
theorem ofString_specifierBetween (start target : List String) :
    ofString (specifierBetween start target) =
      ⟨.relative, partsOf (specifierBetween start target).toList⟩ := by
  have head : anchorOf (specifierBetween start target).toList = .relative := by
    rw [specifierBetween, String.toList_append, show "./".toList = ['.', '/'] from rfl,
      List.cons_append, anchorOf_of_head (by decide)]
  rw [ofString, head]

/-- **A specifier leads to its file**, less the double suffix. -/
theorem absolute_append_specifierBetween {directory target up front : List String} {base : Path}
    {last stem : String}
    (hway : dropCommon (absolute directory base) target = (up, front ++ [last]))
    (hfront : ∀ part ∈ front, IsPlain part) (hstem : IsPlain stem)
    (hstrip : stripDoubleSuffix last.toList = stem.toList) :
    absolute directory (base.append (specifierBetween (absolute directory base) target)) =
      target.dropLast ++ [stem] := by
  obtain ⟨common, hstart, htarget⟩ := exists_common_of_dropCommon hway
  have plain : ∀ part ∈ front ++ [stem], part ≠ ".." := by
    intro part hp
    rcases List.mem_append.1 hp with hp | hp
    · exact (hfront part hp).ne_up
    · rw [List.mem_singleton.1 hp]
      exact hstem.ne_up
  have ups : up.map (fun _ => "..") = up.reverse.map fun _ => ".." := by
    rw [List.map_const', List.map_const', List.length_reverse]
  rw [append, ofString_specifierBetween, absolute_join,
    partsOf_specifierBetween hway (fun part hp => (hfront part hp).toIsComponent)
      hstem.toIsComponent hstrip, hstart, List.reverse_append, ups, normalizeOnto_up,
    normalizeOnto_of_ne_up plain, List.reverse_reverse, htarget, ← List.append_assoc,
    ← List.append_assoc, List.dropLast_concat]

/-! ### Where specifiers lead, from every directory to every file -/

/-- To a place above, the way takes components back and does nothing else. -/
theorem dropCommon_above (target rest : List String) :
    dropCommon (target ++ rest) target = (rest, []) := by
  induction target with
  | nil => cases rest <;> rfl
  | cons part target ih => rw [List.cons_append, dropCommon, if_pos rfl, ih]

/-- The components of a specifier for a place above. There is nothing in it that could lose a
suffix. -/
theorem partsOf_specifierBetween_above (target rest : List String) :
    partsOf (specifierBetween (target ++ rest) target).toList = rest.map fun _ => ".." := by
  have way : wayTo (target ++ rest) target = rest.map fun _ => ".." := by
    rw [wayTo, dropCommon_above]
    exact List.append_nil _
  rw [specifierBetween, wayText, way]
  rcases List.eq_nil_or_concat rest with rfl | ⟨front, part, rfl⟩
  · rfl
  · rw [List.concat_eq_append, List.map_append, List.map_singleton, if_neg (by simp),
      stripDoubleSuffix_join (show stripDoubleSuffix "..".toList = "..".toList by decide),
      String.ofList_toList, String.toList_append, show "./".toList = ['.', '/'] from rfl,
      List.cons_append, List.singleton_append, partsOf_here, partsOf_join]
    intro p hp
    have up : p = ".." := by
      rcases List.mem_append.1 hp with hp | hp
      · obtain ⟨_, _, rfl⟩ := List.mem_map.1 hp
        rfl
      · exact List.mem_singleton.1 hp
    rw [up]
    exact ⟨by decide, by decide, by decide⟩

/-- **A specifier for a place above leads there**, and all of its name is kept. -/
theorem absolute_append_specifierBetween_above {directory target rest : List String} {base : Path}
    (hbase : absolute directory base = target ++ rest) :
    absolute directory (base.append (specifierBetween (absolute directory base) target)) =
      target := by
  have ups : (rest.map fun _ => "..") = rest.reverse.map fun _ => ".." := by
    rw [List.map_const', List.map_const', List.length_reverse]
  rw [append, ofString_specifierBetween, absolute_join, hbase, partsOf_specifierBetween_above,
    List.reverse_append, ups, ← List.append_nil (rest.reverse.map _), normalizeOnto_up,
    normalizeOnto, List.reverse_reverse]

/-- **Where specifiers lead.** For all written paths of a directory and of a file, the specifier of
the file as seen from the directory begins with a dot and a slash. Joined onto the path of the
directory from the root, it leads to the file with the stem of its name in place of the name, unless
the components of the file begin those of the directory or the stem is not the name of a file. If
they do, the specifier leads to the file with all of its name. -/
theorem absolute_append_specifier {directory : List String}
    (plain : ∀ part ∈ directory, IsPlain part) (start target : String) :
    (∃ rest, specifier directory (ofString start) (ofString target) = "./" ++ rest) ∧
    (¬ (ofString target).absolute directory <+: (ofString start).absolute directory →
      ∃ front last stem, (ofString target).absolute directory = front ++ [last] ∧
        (IsStem last stem ∧ ∀ other, IsStem last other → other = stem) ∧
        (stem ∉ ["", ".", ".."] →
          absolute directory (((ofString start).fromRoot directory).append
            (specifier directory (ofString start) (ofString target))) = front ++ [stem])) ∧
    ((ofString target).absolute directory <+: (ofString start).absolute directory →
      absolute directory (((ofString start).fromRoot directory).append
        (specifier directory (ofString start) (ofString target))) =
          (ofString target).absolute directory) := by
  have plainStart : ∀ part ∈ (ofString start).absolute directory, IsPlain part :=
    fun _ => isPlain_of_mem_absolute plain
  have plainTarget : ∀ part ∈ (ofString target).absolute directory, IsPlain part :=
    fun _ => isPlain_of_mem_absolute plain
  have place : ((ofString start).fromRoot directory).absolute directory =
      (ofString start).absolute directory :=
    absolute_fromRoot fun part hp => (plainStart part hp).ne_up
  rw [specifier, ← place]
  generalize (ofString target).absolute directory = file at plainTarget
  generalize (ofString start).fromRoot directory = base
  refine ⟨⟨_, rfl⟩, fun apart => ?_, fun above => ?_⟩
  · rcases hway : dropCommon (base.absolute directory) file with ⟨up, down⟩
    obtain ⟨common, hstart, hfile⟩ := exists_common_of_dropCommon hway
    -- something is left of the file, or it would be where the directory begins
    rcases List.eq_nil_or_concat down with rfl | ⟨front, last, rfl⟩
    · refine absurd ?_ apart
      rw [hstart, hfile, List.append_nil]
      exact List.prefix_append common up
    · rw [List.concat_eq_append] at hway hfile
      have ofDown : ∀ part ∈ front ++ [last], IsPlain part := fun part hp =>
        plainTarget part (hfile ▸ List.mem_append_right _ hp)
      have isLast := ofDown last (List.mem_append_right _ (List.mem_singleton_self _))
      obtain ⟨stem, hstem, unique⟩ := exists_isStem isLast.noSlash
      refine ⟨common ++ front, last, stem, ?_, ⟨hstem, unique⟩, fun named => ?_⟩
      · rw [hfile, List.append_assoc]
      · have hstrip := (isStem_iff isLast.noSlash).1 hstem
        simp only [List.mem_cons, List.not_mem_nil, or_false, not_or] at named
        rw [absolute_append_specifierBetween hway
          (fun part hp => ofDown part (List.mem_append_left _ hp))
          ⟨⟨hstem.noSlash isLast.noSlash, named.1, named.2.1⟩, named.2.2⟩ hstrip, hfile,
          ← List.append_assoc, List.dropLast_concat]
  · obtain ⟨rest, hrest⟩ := above
    exact absolute_append_specifierBetween_above hrest.symm

/-- From a directory below the working directory to a file in one beside it. The directories have
dots in their names, and only the name of the file loses its suffix. -/
theorem absolute_append_specifier_beside :
    (∀ part ∈ ["home", "me"], IsPlain part) ∧
    ¬ (ofString "..//b.x.y/./N.d.ts").absolute ["home", "me"] <+:
      (ofString "out/b.x.y").absolute ["home", "me"] ∧
    specifier ["home", "me"] (ofString "out/b.x.y") (ofString "..//b.x.y/./N.d.ts") =
      "./../../../b.x.y/N" ∧
    absolute ["home", "me"] (((ofString "out/b.x.y").fromRoot ["home", "me"]).append
      "./../../../b.x.y/N") = ["home", "b.x.y", "N"] := by
  have plain : ∀ part ∈ ["home", "me"], IsPlain part := by
    intro part hp
    simp only [List.mem_cons, List.not_mem_nil, or_false] at hp
    rcases hp with rfl | rfl <;> exact ⟨⟨by decide, by decide, by decide⟩, by decide⟩
  have place : (ofString "..//b.x.y/./N.d.ts").absolute ["home", "me"] =
      ["home", "b.x.y"] ++ ["N.d.ts"] := by
    decide +kernel
  have apart : ¬ (ofString "..//b.x.y/./N.d.ts").absolute ["home", "me"] <+:
      (ofString "out/b.x.y").absolute ["home", "me"] := by
    decide +kernel
  have text : specifier ["home", "me"] (ofString "out/b.x.y") (ofString "..//b.x.y/./N.d.ts") =
      "./../../../b.x.y/N" := by
    decide +kernel
  obtain ⟨-, leads, -⟩ := absolute_append_specifier plain "out/b.x.y" "..//b.x.y/./N.d.ts"
  obtain ⟨front, last, stem, hplace, ⟨-, unique⟩, back⟩ := leads apart
  obtain ⟨rfl, hlast⟩ := List.append_inj' (hplace.symm.trans place) rfl
  cases hlast
  obtain rfl : "N" = stem :=
    unique "N" (Or.inl ⟨['d'], ['t', 's'], by decide, by decide, by decide, by decide, by decide⟩)
  rw [text] at back
  exact ⟨plain, apart, text, back (by decide)⟩

/-- A path is another one or an ancestor of it: both begin at the same root, and the components of
the other begin with its own. -/
def IsAbove (path other : Path) : Prop :=
  path.anchor = other.anchor ∧ path.parts <+: other.parts

/-- **A file that is its own directory but for a slash.** Two slashes at the front make a path
another one, yet ways between places go by components only. So the specifier stays where it is, and
there the double suffix is kept. -/
theorem exists_specifier_leads_elsewhere : ∃ base path : Path,
    base = (ofString "/a.b.c").fromRoot [] ∧ path = (ofString "//a.b.c").fromRoot [] ∧
      ¬ IsAbove path base ∧ path.parts = [] ++ ["a.b.c"] ∧ IsStem "a.b.c" "a" ∧
      specifier [] (ofString "/a.b.c") (ofString "//a.b.c") = "./." ∧
      absolute [] (base.append "./.") ≠ [] ++ ["a"] := by
  refine ⟨_, _, rfl, rfl, ?_, by decide +kernel, ?_, by decide +kernel, by decide +kernel⟩
  · rintro ⟨root, -⟩
    exact absurd root (by decide +kernel)
  · exact Or.inl ⟨['b'], ['c'], by decide, by decide, by decide, by decide, by decide⟩

end Path

end QueryTypes
