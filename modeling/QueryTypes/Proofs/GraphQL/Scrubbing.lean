import Mathlib.Data.List.Basic
import QueryTypes.Proofs.GraphQL.Parsed
import QueryTypes.Proofs.GraphQL.SyntaxTree

/-!
# What scrubbing deletes

Scrubbing a document deletes nodes of its tree and does nothing else: the directives that are
internal, and the declarations of variables that stand nowhere as a value in what is left
(`QueryTypes.GraphQL.Label.isGone`). The second half of that description speaks of the result,
but it fixes the result all the same, because declarations of variables hold constants only: to
drop one takes no use of a variable away.
-/

namespace QueryTypes

namespace GraphQL

/-- Whether a node is to be deleted: a directive if it is internal, the declaration of a
variable if the variable is not among those that are used. -/
def Label.isGone (isInternal : String → Bool) (used : List String) : Label → Bool
  | .directive name => isInternal name
  | .variableDefinition _ name _ => !decide (name ∈ used)
  | _ => false

/-! ### Deleting among several trees -/

namespace SyntaxTree

variable (gone : Label → Bool)

@[simp] theorem without_node (label : Label) (children : List SyntaxTree) :
    (node label children).without gone = node label (withoutInAll gone children) := by
  rw [without]

@[simp] theorem withoutInAll_nil : withoutInAll gone [] = [] := by
  rw [withoutInAll]

theorem withoutInAll_cons (tree : SyntaxTree) (rest : List SyntaxTree) :
    withoutInAll gone (tree :: rest) =
      if gone tree.label then withoutInAll gone rest
      else tree.without gone :: withoutInAll gone rest := by
  rw [withoutInAll]

@[simp] theorem withoutInAll_append (xs ys : List SyntaxTree) :
    withoutInAll gone (xs ++ ys) = withoutInAll gone xs ++ withoutInAll gone ys := by
  induction xs with
  | nil => simp
  | cons tree rest ih =>
    rw [List.cons_append, withoutInAll_cons, withoutInAll_cons, ih]
    split <;> simp

variable {gone}

/-- The trees of several parts of one sort, if a test on the parts says which of them stay and
a function what is left of a part. -/
theorem withoutInAll_map {α : Type} {tree : α → SyntaxTree} (keep : α → Bool) (left : α → α)
    (hk : ∀ a, gone (tree a).label = !keep a) (hl : ∀ a, (tree a).without gone = tree (left a))
    (parts : List α) :
    withoutInAll gone (parts.map tree) = ((parts.filter keep).map left).map tree := by
  induction parts with
  | nil => simp
  | cons a rest ih =>
    rw [List.map_cons, withoutInAll_cons, hk, ih, List.filter_cons]
    cases keep a <;> simp [hl]

/-- The trees of several parts of one sort, if all of them stay. -/
theorem withoutInAll_map_of_kept {α : Type} {tree : α → SyntaxTree} {left : α → α}
    (hk : ∀ a, gone (tree a).label = false) (hl : ∀ a, (tree a).without gone = tree (left a))
    (parts : List α) : withoutInAll gone (parts.map tree) = (parts.map left).map tree := by
  induction parts with
  | nil => simp
  | cons a rest ih => simp [withoutInAll_cons, hk, hl, ih]

mutual

/-- Below the root of what is left, no label is gone. -/
theorem not_gone_of_mem_labels_without : ∀ (tree : SyntaxTree) {label : Label},
    label ∈ (tree.without gone).labels → label = tree.label ∨ gone label = false
  | node label children, l, h => by
    rw [without_node, labels_node, List.mem_cons] at h
    exact h.imp_right fun h => not_gone_of_mem_labels_withoutInAll children h

/-- In what is left of several trees, no label is gone. -/
theorem not_gone_of_mem_labels_withoutInAll : ∀ (trees : List SyntaxTree) {label : Label},
    label ∈ (withoutInAll gone trees).flatMap labels → gone label = false
  | [], label, h => by simp at h
  | tree :: rest, label, h => by
    rw [withoutInAll_cons] at h
    split at h
    · exact not_gone_of_mem_labels_withoutInAll rest h
    · next kept =>
      rw [List.flatMap_cons, List.mem_append] at h
      rcases h with h | h
      · rcases not_gone_of_mem_labels_without tree h with rfl | h
        · simpa using kept
        · exact h
      · exact not_gone_of_mem_labels_withoutInAll rest h

end

end SyntaxTree

/-! ### Scrubbing in the tree

What is left of the tree of a part is the tree of what scrubbing leaves of the part. -/

section Parts

variable {isInternal : String → Bool} {used : List String}

theorem Value.isGone_tree (v : Value) : Label.isGone isInternal used v.tree.label = false := by
  cases v <;> rfl

mutual

theorem Value.without_tree : ∀ v : Value, v.tree.without (Label.isGone isInternal used) = v.tree
  | .variable _ => by simp [Value.tree]
  | .int _ => by simp [Value.tree]
  | .float _ => by simp [Value.tree]
  | .string _ _ => by simp [Value.tree]
  | .boolean _ => by simp [Value.tree]
  | .null => by simp [Value.tree]
  | .enum _ => by simp [Value.tree]
  | .list items => by
    rw [Value.tree, SyntaxTree.without_node, without_treesOfItems items]
  | .object fields => by
    rw [Value.tree, SyntaxTree.without_node, without_treesOfFields fields]

theorem Value.without_treesOfItems : ∀ items : List Value,
    SyntaxTree.withoutInAll (Label.isGone isInternal used) (Value.treesOfItems items) =
      Value.treesOfItems items
  | [] => by simp [Value.treesOfItems]
  | item :: rest => by
    simp [Value.treesOfItems, SyntaxTree.withoutInAll_cons, Value.isGone_tree,
      Value.without_tree item, without_treesOfItems rest]

theorem Value.without_treesOfFields : ∀ fields : List (String × Value),
    SyntaxTree.withoutInAll (Label.isGone isInternal used) (Value.treesOfFields fields) =
      Value.treesOfFields fields
  | [] => by simp [Value.treesOfFields]
  | (name, item) :: rest => by
    have field : Label.isGone isInternal used (.objectField name) = false := rfl
    simp [Value.treesOfFields, SyntaxTree.withoutInAll_cons, field, Value.isGone_tree,
      Value.without_tree item, without_treesOfFields rest]

end

theorem Value.without_treesOfDefault (value : Option Value) :
    SyntaxTree.withoutInAll (Label.isGone isInternal used) (Value.treesOfDefault value) =
      Value.treesOfDefault value := by
  cases value with
  | none => simp [Value.treesOfDefault]
  | some v =>
    simp [Value.treesOfDefault, SyntaxTree.withoutInAll_cons, Value.isGone_tree, Value.without_tree]

theorem Argument.without_trees (arguments : List Argument) :
    SyntaxTree.withoutInAll (Label.isGone isInternal used) (arguments.map Argument.tree) =
      arguments.map Argument.tree := by
  have same : ∀ a : Argument, a.tree.without (Label.isGone isInternal used) = (id a).tree := by
    intro a
    simp [Argument.tree, SyntaxTree.withoutInAll_cons, Value.isGone_tree, Value.without_tree]
  rw [SyntaxTree.withoutInAll_map_of_kept (fun _ => rfl) same, List.map_id]

/-- **Exactly the internal directives go.** -/
theorem Directive.without_trees (directives : List Directive) :
    SyntaxTree.withoutInAll (Label.isGone isInternal used) (directives.map Directive.tree) =
      (Directive.keepExternal isInternal directives).map Directive.tree := by
  rw [SyntaxTree.withoutInAll_map (fun d => !isInternal d.name) id,
    List.map_id, Directive.keepExternal]
  · intro d
    simp [Directive.tree, Label.isGone]
  · intro d
    simp [Directive.tree, Argument.without_trees]

/-- A selection set stays. -/
theorem without_selectionSet (selections : List SyntaxTree) :
    SyntaxTree.withoutInAll (Label.isGone isInternal used) [.node .selectionSet selections] =
      [.node .selectionSet
        (SyntaxTree.withoutInAll (Label.isGone isInternal used) selections)] := by
  have set : Label.isGone isInternal used .selectionSet = false := rfl
  simp [SyntaxTree.withoutInAll_cons, set]

mutual

theorem Selection.without_tree : ∀ s : Selection,
    s.tree.without (Label.isGone isInternal used) = (s.withoutDirectives isInternal).tree
  | .field _ _ arguments directives none => by
    simp [Selection.tree, Selection.withoutDirectives, Argument.without_trees,
      Directive.without_trees]
  | .field _ _ arguments directives (some selections) => by
    simp [Selection.tree, Selection.withoutDirectives, Argument.without_trees,
      Directive.without_trees, without_selectionSet, Selection.without_treesInAll selections]
  | .spread _ directives => by
    simp [Selection.tree, Selection.withoutDirectives, Directive.without_trees]
  | .inlineFragment _ directives selections => by
    simp [Selection.tree, Selection.withoutDirectives, Directive.without_trees,
      without_selectionSet, Selection.without_treesInAll selections]

theorem Selection.without_treesInAll : ∀ selections : List Selection,
    SyntaxTree.withoutInAll (Label.isGone isInternal used) (Selection.treesInAll selections) =
      Selection.treesInAll (Selection.withoutDirectivesInAll isInternal selections)
  | [] => by simp [Selection.treesInAll, Selection.withoutDirectivesInAll]
  | selection :: rest => by
    have kept : Label.isGone isInternal used selection.tree.label = false := by
      cases selection with
      | field _ _ _ _ selections => cases selections <;> rfl
      | spread _ _ => rfl
      | inlineFragment _ _ _ => rfl
    simp [Selection.treesInAll, Selection.withoutDirectivesInAll, SyntaxTree.withoutInAll_cons,
      kept, Selection.without_tree selection, Selection.without_treesInAll rest]

end

theorem VariableDefinition.without_tree (v : VariableDefinition) :
    v.tree.without (Label.isGone isInternal used) = (v.withoutDirectives isInternal).tree := by
  simp [VariableDefinition.tree, VariableDefinition.withoutDirectives,
    Value.without_treesOfDefault, Directive.without_trees]

/-- **Exactly the declarations of variables that are not used go.** -/
theorem VariableDefinition.without_trees (vs : List VariableDefinition) :
    SyntaxTree.withoutInAll (Label.isGone isInternal used) (vs.map VariableDefinition.tree) =
      ((vs.map (VariableDefinition.withoutDirectives isInternal)).filter
        fun v => decide (v.name ∈ used)).map VariableDefinition.tree := by
  rw [SyntaxTree.withoutInAll_map (fun v => decide (v.name ∈ used))
    (VariableDefinition.withoutDirectives isInternal) (fun _ => rfl)
    VariableDefinition.without_tree, List.filter_map]
  rfl

theorem InputValueDefinition.without_tree (v : InputValueDefinition) :
    v.tree.without (Label.isGone isInternal used) = (v.withoutDirectives isInternal).tree := by
  simp [InputValueDefinition.tree, InputValueDefinition.withoutDirectives,
    Value.without_treesOfDefault, Directive.without_trees]

theorem InputValueDefinition.without_trees (vs : List InputValueDefinition) :
    SyntaxTree.withoutInAll (Label.isGone isInternal used) (vs.map InputValueDefinition.tree) =
      (vs.map (InputValueDefinition.withoutDirectives isInternal)).map InputValueDefinition.tree :=
  SyntaxTree.withoutInAll_map_of_kept (fun _ => rfl) InputValueDefinition.without_tree vs

theorem FieldDefinition.without_tree (f : FieldDefinition) :
    f.tree.without (Label.isGone isInternal used) = (f.withoutDirectives isInternal).tree := by
  simp [FieldDefinition.tree, FieldDefinition.withoutDirectives,
    InputValueDefinition.without_trees, Directive.without_trees]

theorem EnumValueDefinition.without_tree (v : EnumValueDefinition) :
    v.tree.without (Label.isGone isInternal used) = (v.withoutDirectives isInternal).tree := by
  simp [EnumValueDefinition.tree, EnumValueDefinition.withoutDirectives, Directive.without_trees]

theorem TypeBody.kind_withoutDirectives (body : TypeBody) :
    (body.withoutDirectives isInternal).kind = body.kind := by
  cases body <;> rfl

theorem TypeBody.without_trees (body : TypeBody) :
    SyntaxTree.withoutInAll (Label.isGone isInternal used) body.trees =
      (body.withoutDirectives isInternal).trees := by
  cases body with
  | scalar => simp [TypeBody.trees, TypeBody.withoutDirectives]
  | object _ fields =>
    exact SyntaxTree.withoutInAll_map_of_kept (fun _ => rfl) FieldDefinition.without_tree fields
  | interface _ fields =>
    exact SyntaxTree.withoutInAll_map_of_kept (fun _ => rfl) FieldDefinition.without_tree fields
  | union _ => simp [TypeBody.trees, TypeBody.withoutDirectives]
  | enum values =>
    exact SyntaxTree.withoutInAll_map_of_kept (fun _ => rfl) EnumValueDefinition.without_tree values
  | inputObject fields => exact InputValueDefinition.without_trees fields

theorem Definition.isGone_tree (d : Definition) :
    Label.isGone isInternal used d.tree.label = false := by
  cases d <;> rfl

theorem Definition.without_tree (d : Definition) :
    d.tree.without (Label.isGone isInternal used) =
      ((d.withoutDirectives isInternal).keepVariables used).tree := by
  cases d <;>
    simp [Definition.tree, SchemaDefinition.tree, TypeDefinition.tree,
      Definition.withoutDirectives, Definition.keepVariables, SchemaDefinition.withoutDirectives,
      TypeDefinition.withoutDirectives, Directive.without_trees, VariableDefinition.without_trees,
      InputValueDefinition.without_trees, TypeBody.kind_withoutDirectives, TypeBody.without_trees,
      without_selectionSet, Selection.without_treesInAll]

end Parts

/-- A document in which every operation declares only variables of a list. -/
def Document.keepVariables (used : List String) (document : Document) : Document :=
  ⟨document.definitions.map (Definition.keepVariables used)⟩

/-- **Deleting in the tree is scrubbing**, whatever the list of variables is. -/
theorem Document.without_tree (isInternal : String → Bool) (used : List String)
    (document : Document) :
    document.tree.without (Label.isGone isInternal used) =
      ((document.withoutDirectives isInternal).keepVariables used).tree := by
  rw [Document.tree, SyntaxTree.without_node,
    SyntaxTree.withoutInAll_map_of_kept Definition.isGone_tree Definition.without_tree]
  simp [Document.tree, Document.keepVariables, Document.withoutDirectives]

/-! ### Uses after scrubbing -/

theorem Directive.usedVariables_keepExternal_eq_nil {isInternal : String → Bool}
    {directives : List Directive} (h : Directive.usedVariables directives = []) :
    Directive.usedVariables (Directive.keepExternal isInternal directives) = [] := by
  rw [Directive.usedVariables, List.flatMap_eq_nil_iff] at h ⊢
  exact fun d hd => h d (List.mem_of_mem_filter hd)

/-- The declaration of a variable stays constant when directives are taken off. -/
theorem VariableDefinition.usedVariables_withoutDirectives_eq_nil {isInternal : String → Bool}
    {v : VariableDefinition} (h : v.usedVariables = []) :
    (v.withoutDirectives isInternal).usedVariables = [] := by
  rw [VariableDefinition.usedVariables, List.append_eq_nil_iff] at h ⊢
  exact ⟨h.1, Directive.usedVariables_keepExternal_eq_nil h.2⟩

/-- **Dropping constant declarations takes no use away.** -/
theorem Definition.usedVariables_keepVariables (isInternal : String → Bool) (used : List String)
    {d : Definition} (h : d.IsParsed) :
    ((d.withoutDirectives isInternal).keepVariables used).usedVariables =
      (d.withoutDirectives isInternal).usedVariables := by
  cases d with
  | operation o =>
    have constant : ∀ v ∈ o.variableDefinitions.map
        (VariableDefinition.withoutDirectives isInternal), v.usedVariables = [] := by
      intro v hv
      obtain ⟨w, hw, rfl⟩ := List.mem_map.1 hv
      exact VariableDefinition.usedVariables_withoutDirectives_eq_nil (h.constant w hw)
    have all := List.flatMap_eq_nil_iff.2 constant
    have kept := List.flatMap_eq_nil_iff.2 fun v hv =>
      constant v (List.mem_of_mem_filter (p := fun v => decide (v.name ∈ used)) hv)
    simp only [Definition.withoutDirectives, Definition.keepVariables, Definition.usedVariables,
      all, kept]
  | _ => rfl

theorem Document.usedVariables_keepVariables (isInternal : String → Bool) (used : List String)
    {document : Document} (h : document.IsParsed) :
    ((document.withoutDirectives isInternal).keepVariables used).usedVariables =
      (document.withoutDirectives isInternal).usedVariables := by
  simp only [Document.usedVariables, Document.keepVariables, Document.withoutDirectives,
    List.flatMap_map]
  exact List.flatMap_congr fun d hd =>
    Definition.usedVariables_keepVariables isInternal used (h d hd)

/-- Deleting nodes does not depend on which declarations of variables go with them, as far as
uses of variables are concerned. -/
theorem Document.uses_without (isInternal : String → Bool) (used : List String)
    {document : Document} (h : document.IsParsed) :
    (document.tree.without (Label.isGone isInternal used)).uses =
      (document.withoutDirectives isInternal).usedVariables := by
  rw [Document.without_tree, Document.uses_tree,
    Document.usedVariables_keepVariables isInternal used h]

/-- The uses that are left by scrubbing are those that it went by. -/
theorem Document.uses_scrub (isInternal : String → Bool) {document : Document}
    (h : document.IsParsed) :
    (document.scrub isInternal).tree.uses =
      (document.withoutDirectives isInternal).usedVariables := by
  rw [Document.uses_tree]
  exact Document.usedVariables_keepVariables isInternal _ h

/-! ### The main statement -/

/-- **Scrubbing deletes exactly what it should**: the scrubbed document is the one document whose
tree is the given one without the internal directives and without the declarations of variables
that stand nowhere as a value in what is left. So no internal directive is left, and every
variable that is still declared is used. -/
theorem Document.eq_scrub_iff {text : String} {document : Document}
    (h : Document.parse? text = some document) (isInternal : String → Bool) :
    (∀ result : Document, result = document.scrub isInternal ↔
      result.tree = document.tree.without (Label.isGone isInternal result.tree.uses)) ∧
    (∀ name, .directive name ∈ (document.scrub isInternal).tree.labels →
      isInternal name = false) ∧
    (∀ about name type,
      .variableDefinition about name type ∈ (document.scrub isInternal).tree.labels →
        name ∈ (document.scrub isInternal).tree.uses) := by
  have parsed := Document.isParsed_of_parse? h
  have tree : (document.scrub isInternal).tree = document.tree.without
      (Label.isGone isInternal (document.scrub isInternal).tree.uses) := by
    rw [Document.uses_scrub isInternal parsed, Document.without_tree]
    rfl
  have left : ∀ label ∈ (document.scrub isInternal).tree.labels, label = .document ∨
      Label.isGone isInternal (document.scrub isInternal).tree.uses label = false := by
    intro label hl
    rw [tree] at hl
    exact SyntaxTree.not_gone_of_mem_labels_without document.tree hl
  refine ⟨fun result => ⟨?_, fun hr => Document.tree_injective ?_⟩, fun name hn => ?_,
    fun about name type hn => ?_⟩
  · rintro rfl
    exact tree
  · have uses : result.tree.uses = (document.scrub isInternal).tree.uses := by
      rw [hr, Document.uses_without isInternal _ parsed, Document.uses_scrub isInternal parsed]
    rw [hr, uses, ← tree]
  · simpa [Label.isGone] using left _ hn
  · simpa [Label.isGone] using left _ hn

/-- A query that hands one variable to a field and another one to an internal directive only. -/
theorem Document.eq_scrub_iff_query : ∃ document : Document,
    Document.parse? "query Q($id: ID!, $n: Int) \x7b field(first: $n) @list(name: $id) \x7d" =
      some document ∧
    (∀ result : Document, result = document.scrub (· == "list") ↔
      result.tree = document.tree.without (Label.isGone (· == "list") result.tree.uses)) ∧
    (∀ name, .directive name ∈ (document.scrub (· == "list")).tree.labels →
      (name == "list") = false) ∧
    (∀ about name type,
      .variableDefinition about name type ∈ (document.scrub (· == "list")).tree.labels →
        name ∈ (document.scrub (· == "list")).tree.uses) := by
  obtain ⟨document, h⟩ := Option.isSome_iff_exists.1 (show (Document.parse?
    "query Q($id: ID!, $n: Int) \x7b field(first: $n) @list(name: $id) \x7d").isSome = true by
      decide +kernel)
  exact ⟨document, h, Document.eq_scrub_iff h (· == "list")⟩

end GraphQL

end QueryTypes
