import QueryTypes.Proofs.GraphQL.Scrubbing

/-!
# Scrubbing more than once

A document may be scrubbed with one set of internal directives and then with another. What is
deleted the second time is deleted from a smaller tree, and which declarations of variables go is
settled by the uses that are left in it. Deleting twice is deleting once what either deletion takes
(`QueryTypes.GraphQL.SyntaxTree.without_without`), and a variable that is used in the end was used
in between. So two scrubs are one scrub with both sets together
(`QueryTypes.GraphQL.Document.scrubs_compose`).
-/

namespace QueryTypes

namespace GraphQL

/-! ### Deleting twice -/

namespace SyntaxTree

variable {gone other : Label → Bool}

@[simp] theorem label_without (tree : SyntaxTree) : (tree.without gone).label = tree.label := by
  cases tree with
  | node label children => rw [without_node, label_node, label_node]

mutual

/-- **What is left by one deletion and then another** is what is left by deleting for either
reason. -/
theorem without_without : ∀ tree : SyntaxTree,
    (tree.without gone).without other = tree.without fun label => gone label || other label
  | node label children => by
    rw [without_node, without_node, without_node, withoutInAll_withoutInAll children]

theorem withoutInAll_withoutInAll : ∀ trees : List SyntaxTree,
    withoutInAll other (withoutInAll gone trees) =
      withoutInAll (fun label => gone label || other label) trees
  | [] => by simp
  | tree :: rest => by
    have others := withoutInAll_withoutInAll rest
    rw [withoutInAll_cons, withoutInAll_cons]
    cases hg : gone tree.label with
    | true => simpa using others
    | false =>
      rw [if_neg Bool.false_ne_true, withoutInAll_cons, label_without, without_without tree, others,
        Bool.false_or]

end

mutual

/-- A tree stays as it is if none of its labels is gone. -/
theorem without_eq_self : ∀ tree : SyntaxTree, (∀ label ∈ tree.labels, gone label = false) →
    tree.without gone = tree
  | node label children, h => by
    rw [labels_node] at h
    rw [without_node, withoutInAll_eq_self children fun l hl => h l (List.mem_cons_of_mem _ hl)]

theorem withoutInAll_eq_self : ∀ trees : List SyntaxTree,
    (∀ label ∈ trees.flatMap labels, gone label = false) → withoutInAll gone trees = trees
  | [], _ => by simp
  | tree :: rest, h => by
    rw [List.flatMap_cons] at h
    have first := fun label hl => h label (List.mem_append_left _ hl)
    have root : gone tree.label = false := first _ (by cases tree; simp)
    rw [withoutInAll_cons, root, if_neg Bool.false_ne_true, without_eq_self tree first,
      withoutInAll_eq_self rest fun label hl => h label (List.mem_append_right _ hl)]

end

mutual

/-- Deleting brings no labels in. -/
theorem labels_without_subset : ∀ tree : SyntaxTree, (tree.without gone).labels ⊆ tree.labels
  | node label children => by
    rw [without_node, labels_node, labels_node]
    exact List.cons_subset_cons _ (labels_withoutInAll_subset children)

theorem labels_withoutInAll_subset : ∀ trees : List SyntaxTree,
    (withoutInAll gone trees).flatMap labels ⊆ trees.flatMap labels
  | [] => by simp
  | tree :: rest => by
    rw [withoutInAll_cons, List.flatMap_cons]
    have others := labels_withoutInAll_subset rest
    split
    · exact List.subset_append_of_subset_right _ others
    · rw [List.flatMap_cons]
      exact List.append_subset.2
        ⟨List.subset_append_of_subset_left _ (labels_without_subset tree),
          List.subset_append_of_subset_right _ others⟩

end

/-- Deleting brings no uses of variables in. -/
theorem uses_without_subset (tree : SyntaxTree) : (tree.without gone).uses ⊆ tree.uses :=
  List.filterMap_subset _ (labels_without_subset tree)

end SyntaxTree

/-- A label is gone from one scrub or another if it is gone for both sets of internal directives
together, provided that the variables used in the end were used before. -/
theorem Label.isGone_or {I J : String → Bool} {before used : List String} (h : used ⊆ before)
    (label : Label) :
    (label.isGone I before || label.isGone J used) =
      label.isGone (fun name => I name || J name) used := by
  cases label with
  | variableDefinition _ name _ =>
    by_cases hn : name ∈ used
    · simp [isGone, hn, h hn]
    · simp [isGone, hn]
  | _ => rfl

/-! ### Scrubbed documents -/

section Documents

variable {document : Document} {isInternal : String → Bool}

/-- The tree of a scrubbed document, by the uses that are left in it. -/
theorem Document.tree_scrub (h : document.IsParsed) (isInternal : String → Bool) :
    (document.scrub isInternal).tree =
      document.tree.without (Label.isGone isInternal (document.scrub isInternal).tree.uses) := by
  rw [Document.uses_scrub isInternal h, Document.without_tree]
  rfl

/-- Only the scrubbed document has its tree. -/
theorem Document.eq_scrub_of_tree (h : document.IsParsed) {result : Document}
    (hr : result.tree = document.tree.without (Label.isGone isInternal result.tree.uses)) :
    result = document.scrub isInternal := by
  have uses : result.tree.uses = (document.scrub isInternal).tree.uses := by
    rw [hr, Document.uses_without isInternal _ h, Document.uses_scrub isInternal h]
  refine Document.tree_injective ?_
  rw [hr, uses, ← Document.tree_scrub h]

/-- What is left of a parsed document may be scrubbed as well: its names are the same, and its
declarations of variables are still constant. -/
theorem Document.IsParsed.scrub (h : document.IsParsed) (isInternal : String → Bool) :
    (document.scrub isInternal).IsParsed := by
  intro d hd
  obtain ⟨middle, hmiddle, rfl⟩ := List.mem_map.1 hd
  obtain ⟨written, hwritten, rfl⟩ := List.mem_map.1 hmiddle
  cases written with
  | operation o =>
    have parsed : o.IsParsed := h _ hwritten
    refine ⟨parsed.name, fun v hv => ?_⟩
    obtain ⟨declared, hdeclared, rfl⟩ := List.mem_map.1 (List.mem_of_mem_filter hv)
    exact VariableDefinition.usedVariables_withoutDirectives_eq_nil
      (parsed.constant declared hdeclared)
  | fragment f => exact h (.fragment f) hwritten
  | _ => exact trivial

/-- **Two scrubs are one** with both sets of internal directives together. -/
theorem Document.IsParsed.scrub_scrub (h : document.IsParsed) (I J : String → Bool) :
    (document.scrub I).scrub J = document.scrub fun name => I name || J name := by
  refine Document.eq_scrub_of_tree h ?_
  have first := Document.tree_scrub h I
  have second := Document.tree_scrub (h.scrub I) J
  -- what is used in the end was used in between
  have fewer : ((document.scrub I).scrub J).tree.uses ⊆ (document.scrub I).tree.uses := by
    rw [second]
    exact SyntaxTree.uses_without_subset _
  rw [second]
  conv_lhs => rw [first]
  rw [SyntaxTree.without_without, ← second]
  exact congrArg (document.tree.without ·) (funext (Label.isGone_or fewer))

/-- **A document is left alone** exactly if nothing in it is to be deleted. -/
theorem Document.IsParsed.scrub_eq_self_iff (h : document.IsParsed) :
    document.scrub isInternal = document ↔
      (∀ name, .directive name ∈ document.tree.labels → isInternal name = false) ∧
      ∀ about name type, .variableDefinition about name type ∈ document.tree.labels →
        name ∈ document.tree.uses := by
  constructor
  · intro same
    have tree := Document.tree_scrub h isInternal
    rw [same] at tree
    have left : ∀ label ∈ document.tree.labels, label = .document ∨
        Label.isGone isInternal document.tree.uses label = false := by
      intro label hl
      rw [tree] at hl
      exact SyntaxTree.not_gone_of_mem_labels_without document.tree hl
    refine ⟨fun name hn => ?_, fun about name type hn => ?_⟩
    · simpa [Label.isGone] using left _ hn
    · simpa [Label.isGone] using left _ hn
  · rintro ⟨external, used⟩
    refine (Document.eq_scrub_of_tree h (SyntaxTree.without_eq_self _ fun label hl => ?_).symm).symm
    cases label with
    | directive name => exact external name hl
    | variableDefinition about name type =>
      rw [Label.isGone, decide_eq_true (used about name type hl), Bool.not_true]
    | _ => rfl

end Documents

/-! ### The main statement -/

/-- **Scrubs compose.** Of a parsed document, scrubbing with one set of internal directives and then
with another leaves what scrubbing once with both together leaves. So a second scrub changes
nothing, the order of scrubs does not matter, and a document is left alone exactly if it has no
internal directive and every variable it declares stands somewhere as a value. -/
theorem Document.scrubs_compose {text : String} {document : Document}
    (h : Document.parse? text = some document) (I J : String → Bool) :
    (document.scrub I).scrub J = document.scrub (fun name => I name || J name) ∧
    (document.scrub I).scrub I = document.scrub I ∧
    (document.scrub I).scrub J = (document.scrub J).scrub I ∧
    (document.scrub I = document ↔
      (∀ name, .directive name ∈ document.tree.labels → I name = false) ∧
      ∀ about name type, .variableDefinition about name type ∈ document.tree.labels →
        name ∈ document.tree.uses) := by
  have parsed := Document.isParsed_of_parse? h
  refine ⟨parsed.scrub_scrub I J, ?_, ?_, parsed.scrub_eq_self_iff⟩
  · rw [parsed.scrub_scrub]
    simp only [Bool.or_self]
  · rw [parsed.scrub_scrub, parsed.scrub_scrub]
    simp only [Bool.or_comm]

/-- A query in which each of two sets takes the only use of a variable, and a third variable is used
by a field. -/
theorem Document.scrubs_compose_query : ∃ document : Document,
    Document.parse?
      "query Q($a: ID, $b: ID, $n: Int) \x7b x(n: $n) @list(v: $a) \x7b y @when(v: $b) \x7d \x7d" =
        some document ∧
    (document.scrub (· == "list")).scrub (· == "when") =
      document.scrub (fun name => name == "list" || name == "when") ∧
    (document.scrub (· == "list")).scrub (· == "list") = document.scrub (· == "list") ∧
    (document.scrub (· == "list")).scrub (· == "when") =
      (document.scrub (· == "when")).scrub (· == "list") ∧
    (document.scrub (· == "list") = document ↔
      (∀ name, .directive name ∈ document.tree.labels → (name == "list") = false) ∧
      ∀ about name type, .variableDefinition about name type ∈ document.tree.labels →
        name ∈ document.tree.uses) := by
  obtain ⟨document, h⟩ := Option.isSome_iff_exists.1 (show (Document.parse?
    "query Q($a: ID, $b: ID, $n: Int) \x7b x(n: $n) @list(v: $a) \x7b y @when(v: $b) \x7d \x7d"
      ).isSome = true by decide +kernel)
  exact ⟨document, h, Document.scrubs_compose h (· == "list") (· == "when")⟩

end GraphQL

end QueryTypes
