import QueryTypes.GraphQL.Scrub

/-!
# Documents as trees of nodes

A document read as one tree, in which every part of it that may be taken off is a node: values,
arguments, directives, selections, definitions. What a part says of itself stands in the label
of its node, and the parts inside it are the nodes below, in the order of the text. A variable
that stands as a value is a node of its own, while the variable that a definition declares is
said in the definition's label, so that the two are told apart.

Nothing is lost in this reading (`QueryTypes.GraphQL.Document.tree_injective`), so an operation
on documents may be described by what it does to the tree. The one used here is to delete the
nodes with certain labels, together with all that is below them, and to keep every other node at
its place (`QueryTypes.GraphQL.SyntaxTree.without`).
-/

namespace QueryTypes

namespace GraphQL

/-! ### Trees of labelled nodes -/

/-- Which kind of type a definition is about, with what it says apart from fields and values. -/
inductive TypeKind where
  /-- A scalar type. -/
  | scalar
  /-- An object type with the interfaces it implements. -/
  | object (interfaces : List String)
  /-- An interface type with the interfaces it implements. -/
  | interface (interfaces : List String)
  /-- A union of object types. -/
  | union (members : List String)
  /-- An enumeration. -/
  | enum
  /-- An input object type. -/
  | inputObject

/-- What a node is, with all that it says apart from the nodes below it. -/
inductive Label where
  /-- A whole document. -/
  | document
  /-- A variable that stands as a value. -/
  | variable (name : String)
  /-- A whole number. -/
  | int (text : String)
  /-- Any other number. -/
  | float (text : String)
  /-- A text. -/
  | string (value : String) (block : Bool)
  /-- A truth value. -/
  | boolean (value : Bool)
  /-- The null value. -/
  | null
  /-- An enumeration value. -/
  | enum (name : String)
  /-- A list of values. -/
  | list
  /-- An object value. -/
  | object
  /-- A named value inside an object value. -/
  | objectField (name : String)
  /-- An argument. -/
  | argument (name : String)
  /-- A directive as applied to the node above. -/
  | directive (name : String)
  /-- A field. -/
  | field (responseName : Option String) (name : String)
  /-- The selections below a field. -/
  | selectionSet
  /-- A spread. -/
  | spread (fragment : String)
  /-- An inline fragment. -/
  | inlineFragment (condition : Option String)
  /-- The declaration of a variable. -/
  | variableDefinition (description : Option Description) (name : String) (type : TypeRef)
  /-- An operation. -/
  | operation (description : Option Description) (kind : OperationKind) (name : Option String)
  /-- A fragment. -/
  | fragment (description : Option Description) (name condition : String)
  /-- The declaration of an argument or input field. -/
  | inputValueDefinition (description : Option Description) (name : String) (type : TypeRef)
  /-- The declaration of a field. -/
  | fieldDefinition (description : Option Description) (name : String) (type : TypeRef)
  /-- The declaration of an enumeration value. -/
  | enumValueDefinition (description : Option Description) (name : String)
  /-- The definition of a type, or an extension of it. -/
  | type (extending : Bool) (description : Option Description) (name : String) (kind : TypeKind)
  /-- The definition of a schema's root types, or an extension of it. -/
  | schema (extending : Bool) (description : Option Description)
      (roots : List (OperationKind × String))
  /-- The definition of a directive. -/
  | directiveDefinition (description : Option Description) (name : String) (repeatable : Bool)
      (locations : List String)
  /-- An extension of the definition of a directive. -/
  | directiveExtension (name : String)

/-- The variable, if the node is one that stands as a value. -/
def Label.variable? : Label → Option String
  | .variable name => some name
  | _ => none

/-- A node with the nodes below it. -/
inductive SyntaxTree where
  /-- What the node is, and the nodes below it in the order of the text. -/
  | node (label : Label) (children : List SyntaxTree)

namespace SyntaxTree

/-- The label at the root of a tree. -/
def label : SyntaxTree → Label
  | node label _ => label

@[simp] theorem label_node (label : Label) (children : List SyntaxTree) :
    (node label children).label = label := rfl

mutual

/-- The labels of all nodes of a tree. -/
def labels : SyntaxTree → List Label
  | node label children => label :: labelsInAll children

/-- The labels of all nodes of some trees. -/
def labelsInAll : List SyntaxTree → List Label
  | [] => []
  | tree :: rest => tree.labels ++ labelsInAll rest

end

theorem labelsInAll_eq_flatMap (trees : List SyntaxTree) :
    labelsInAll trees = trees.flatMap labels := by
  induction trees with
  | nil => rfl
  | cons tree rest ih => rw [labelsInAll, ih, List.flatMap_cons]

@[simp] theorem labels_node (label : Label) (children : List SyntaxTree) :
    (node label children).labels = label :: children.flatMap labels := by
  rw [labels, labelsInAll_eq_flatMap]

/-- The variables that stand as values somewhere in a tree, in the order of the text. -/
def uses (tree : SyntaxTree) : List String := tree.labels.filterMap Label.variable?

@[simp] theorem uses_node (label : Label) (children : List SyntaxTree) :
    (node label children).uses = label.variable?.toList ++ children.flatMap uses := by
  have below : (children.flatMap labels).filterMap Label.variable? = children.flatMap uses := by
    induction children with
    | nil => rfl
    | cons tree rest ih =>
      rw [List.flatMap_cons, List.filterMap_append, ih, List.flatMap_cons, uses]
  rw [uses, labels_node, List.filterMap_cons, below]
  cases label.variable? <;> rfl

mutual

/-- **Deleting nodes**: the tree without the nodes below its root whose labels are gone, and
without all that is below such a node. Every other node stays, at its place among the others. -/
def without (gone : Label → Bool) : SyntaxTree → SyntaxTree
  | node label children => node label (withoutInAll gone children)

/-- Some trees without those whose label is gone, and what is left of the others. -/
def withoutInAll (gone : Label → Bool) : List SyntaxTree → List SyntaxTree
  | [] => []
  | tree :: rest =>
    if gone tree.label then withoutInAll gone rest
    else tree.without gone :: withoutInAll gone rest

end

end SyntaxTree

/-! ### The trees of documents -/

mutual

/-- The tree of a value. -/
def Value.tree : Value → SyntaxTree
  | .variable name => .node (.variable name) []
  | .int text => .node (.int text) []
  | .float text => .node (.float text) []
  | .string value block => .node (.string value block) []
  | .boolean value => .node (.boolean value) []
  | .null => .node .null []
  | .enum name => .node (.enum name) []
  | .list items => .node .list (treesOfItems items)
  | .object fields => .node .object (treesOfFields fields)

/-- The trees of the items of a list. -/
def Value.treesOfItems : List Value → List SyntaxTree
  | [] => []
  | item :: rest => item.tree :: treesOfItems rest

/-- The trees of the fields of an object. -/
def Value.treesOfFields : List (String × Value) → List SyntaxTree
  | [] => []
  | (name, value) :: rest => .node (.objectField name) [value.tree] :: treesOfFields rest

end

/-- The tree of an argument. -/
def Argument.tree (a : Argument) : SyntaxTree := .node (.argument a.name) [a.value.tree]

/-- The tree of a directive. -/
def Directive.tree (d : Directive) : SyntaxTree :=
  .node (.directive d.name) (d.arguments.map Argument.tree)

mutual

/-- The tree of a selection. -/
def Selection.tree : Selection → SyntaxTree
  | .field responseName name arguments directives none =>
    .node (.field responseName name) (arguments.map Argument.tree ++ directives.map Directive.tree)
  | .field responseName name arguments directives (some selections) =>
    .node (.field responseName name) (arguments.map Argument.tree ++
      (directives.map Directive.tree ++ [.node .selectionSet (treesInAll selections)]))
  | .spread fragment directives => .node (.spread fragment) (directives.map Directive.tree)
  | .inlineFragment condition directives selections =>
    .node (.inlineFragment condition)
      (directives.map Directive.tree ++ [.node .selectionSet (treesInAll selections)])

/-- The trees of some selections. -/
def Selection.treesInAll : List Selection → List SyntaxTree
  | [] => []
  | selection :: rest => selection.tree :: treesInAll rest

end

/-- The tree of a value used by default, if there is one. -/
def Value.treesOfDefault (value : Option Value) : List SyntaxTree := (value.map tree).toList

/-- The tree of the declaration of a variable. -/
def VariableDefinition.tree (v : VariableDefinition) : SyntaxTree :=
  .node (.variableDefinition v.description v.name v.type)
    (Value.treesOfDefault v.defaultValue ++ v.directives.map Directive.tree)

/-- The tree of the declaration of an argument or input field. -/
def InputValueDefinition.tree (v : InputValueDefinition) : SyntaxTree :=
  .node (.inputValueDefinition v.description v.name v.type)
    (Value.treesOfDefault v.defaultValue ++ v.directives.map Directive.tree)

/-- The tree of the declaration of a field. -/
def FieldDefinition.tree (f : FieldDefinition) : SyntaxTree :=
  .node (.fieldDefinition f.description f.name f.type)
    (f.arguments.map InputValueDefinition.tree ++ f.directives.map Directive.tree)

/-- The tree of the declaration of an enumeration value. -/
def EnumValueDefinition.tree (v : EnumValueDefinition) : SyntaxTree :=
  .node (.enumValueDefinition v.description v.name) (v.directives.map Directive.tree)

/-- What the body of a type definition says apart from fields and values. -/
def TypeBody.kind : TypeBody → TypeKind
  | .scalar => .scalar
  | .object interfaces _ => .object interfaces
  | .interface interfaces _ => .interface interfaces
  | .union members => .union members
  | .enum _ => .enum
  | .inputObject _ => .inputObject

/-- The trees of the fields or values in the body of a type definition. -/
def TypeBody.trees : TypeBody → List SyntaxTree
  | .scalar => []
  | .object _ fields => fields.map FieldDefinition.tree
  | .interface _ fields => fields.map FieldDefinition.tree
  | .union _ => []
  | .enum values => values.map EnumValueDefinition.tree
  | .inputObject fields => fields.map InputValueDefinition.tree

/-- The tree of a type definition or of an extension. -/
def TypeDefinition.tree (extending : Bool) (t : TypeDefinition) : SyntaxTree :=
  .node (.type extending t.description t.name t.body.kind)
    (t.directives.map Directive.tree ++ t.body.trees)

/-- The tree of a schema definition or of an extension. -/
def SchemaDefinition.tree (extending : Bool) (s : SchemaDefinition) : SyntaxTree :=
  .node (.schema extending s.description s.roots) (s.directives.map Directive.tree)

/-- The tree of a definition. -/
def Definition.tree : Definition → SyntaxTree
  | .operation o => .node (.operation o.description o.kind o.name)
    (o.variableDefinitions.map VariableDefinition.tree ++
      (o.directives.map Directive.tree ++
        [.node .selectionSet (Selection.treesInAll o.selections)]))
  | .fragment f => .node (.fragment f.description f.name f.condition)
    (f.directives.map Directive.tree ++
      [.node .selectionSet (Selection.treesInAll f.selections)])
  | .schema s => s.tree false
  | .schemaExtension s => s.tree true
  | .type t => t.tree false
  | .typeExtension t => t.tree true
  | .directive d => .node (.directiveDefinition d.description d.name d.repeatable d.locations)
    (d.arguments.map InputValueDefinition.tree ++ d.directives.map Directive.tree)
  | .directiveExtension d => .node (.directiveExtension d.name) (d.directives.map Directive.tree)

/-- The tree of a document. -/
def Document.tree (document : Document) : SyntaxTree :=
  .node .document (document.definitions.map Definition.tree)

/-! ### Uses of variables

The variables that stand as values in the tree of a part are those that the part uses. -/

mutual

theorem Value.uses_tree : ∀ v : Value, v.tree.uses = v.usedVariables
  | .variable name => rfl
  | .int _ => rfl
  | .float _ => rfl
  | .string _ _ => rfl
  | .boolean _ => rfl
  | .null => rfl
  | .enum _ => rfl
  | .list items => by
    rw [Value.tree, SyntaxTree.uses_node, uses_treesOfItems items, Value.usedVariables]
    rfl
  | .object fields => by
    rw [Value.tree, SyntaxTree.uses_node, uses_treesOfFields fields, Value.usedVariables]
    rfl

theorem Value.uses_treesOfItems : ∀ items : List Value,
    (Value.treesOfItems items).flatMap SyntaxTree.uses = Value.usedVariablesInItems items
  | [] => rfl
  | item :: rest => by
    rw [Value.treesOfItems, List.flatMap_cons, Value.uses_tree item, uses_treesOfItems rest,
      Value.usedVariablesInItems]

theorem Value.uses_treesOfFields : ∀ fields : List (String × Value),
    (Value.treesOfFields fields).flatMap SyntaxTree.uses = Value.usedVariablesInFields fields
  | [] => rfl
  | (name, value) :: rest => by
    rw [Value.treesOfFields, List.flatMap_cons, uses_treesOfFields rest, SyntaxTree.uses_node,
      List.flatMap_singleton, Value.uses_tree value, Value.usedVariablesInFields]
    rfl

end

theorem Value.uses_treesOfDefault (value : Option Value) :
    (Value.treesOfDefault value).flatMap SyntaxTree.uses = Value.usedByDefault value := by
  cases value with
  | none => rfl
  | some value => simp [Value.treesOfDefault, Value.usedByDefault, Value.uses_tree]

/-- The uses in the trees of several parts are those of the parts, if this holds of each. -/
theorem uses_map {α : Type} {tree : α → SyntaxTree} {used : α → List String}
    (h : ∀ a, (tree a).uses = used a) (parts : List α) :
    (parts.map tree).flatMap SyntaxTree.uses = parts.flatMap used := by
  rw [List.flatMap_map]
  exact congrArg (parts.flatMap ·) (funext h)

theorem Argument.uses_trees (arguments : List Argument) :
    (arguments.map Argument.tree).flatMap SyntaxTree.uses = Argument.usedVariables arguments :=
  uses_map (fun a => by simp [Argument.tree, Label.variable?, Value.uses_tree]) arguments

theorem Directive.uses_trees (directives : List Directive) :
    (directives.map Directive.tree).flatMap SyntaxTree.uses = Directive.usedVariables directives :=
  uses_map (fun d => by simp [Directive.tree, Label.variable?, Argument.uses_trees]) directives

mutual

theorem Selection.uses_tree : ∀ s : Selection, s.tree.uses = s.usedVariables
  | .field _ _ arguments directives none => by
    simp [Selection.tree, Selection.usedVariables, Label.variable?, Argument.uses_trees,
      Directive.uses_trees]
  | .field _ _ arguments directives (some selections) => by
    simp [Selection.tree, Selection.usedVariables, Label.variable?, Argument.uses_trees,
      Directive.uses_trees, Selection.uses_treesInAll selections]
  | .spread _ directives => by
    simp [Selection.tree, Selection.usedVariables, Label.variable?, Directive.uses_trees]
  | .inlineFragment _ directives selections => by
    simp [Selection.tree, Selection.usedVariables, Label.variable?, Directive.uses_trees,
      Selection.uses_treesInAll selections]

theorem Selection.uses_treesInAll : ∀ selections : List Selection,
    (Selection.treesInAll selections).flatMap SyntaxTree.uses =
      Selection.usedVariablesInAll selections
  | [] => rfl
  | selection :: rest => by
    rw [Selection.treesInAll, List.flatMap_cons, Selection.uses_tree selection,
      Selection.uses_treesInAll rest, Selection.usedVariablesInAll]

end

theorem VariableDefinition.uses_tree (v : VariableDefinition) : v.tree.uses = v.usedVariables := by
  simp [VariableDefinition.tree, VariableDefinition.usedVariables, Label.variable?,
    Value.uses_treesOfDefault, Directive.uses_trees]

theorem InputValueDefinition.uses_tree (v : InputValueDefinition) :
    v.tree.uses = v.usedVariables := by
  simp [InputValueDefinition.tree, InputValueDefinition.usedVariables, Label.variable?,
    Value.uses_treesOfDefault, Directive.uses_trees]

theorem FieldDefinition.uses_tree (f : FieldDefinition) : f.tree.uses = f.usedVariables := by
  simp [FieldDefinition.tree, FieldDefinition.usedVariables, Label.variable?,
    uses_map InputValueDefinition.uses_tree, Directive.uses_trees]

theorem EnumValueDefinition.uses_tree (v : EnumValueDefinition) :
    v.tree.uses = Directive.usedVariables v.directives := by
  simp [EnumValueDefinition.tree, Label.variable?, Directive.uses_trees]

theorem TypeBody.uses_trees (body : TypeBody) :
    body.trees.flatMap SyntaxTree.uses = body.usedVariables := by
  cases body with
  | scalar => rfl
  | object _ fields => exact uses_map FieldDefinition.uses_tree fields
  | interface _ fields => exact uses_map FieldDefinition.uses_tree fields
  | union _ => rfl
  | enum values => exact uses_map EnumValueDefinition.uses_tree values
  | inputObject fields => exact uses_map InputValueDefinition.uses_tree fields

theorem Definition.uses_tree (d : Definition) : d.tree.uses = d.usedVariables := by
  cases d <;>
    simp [Definition.tree, SchemaDefinition.tree, TypeDefinition.tree, Definition.usedVariables,
      Label.variable?, Directive.uses_trees, Selection.uses_treesInAll, TypeBody.uses_trees,
      uses_map VariableDefinition.uses_tree, uses_map InputValueDefinition.uses_tree]

/-- **The tree of a document shows the variables it uses.** -/
theorem Document.uses_tree (document : Document) :
    document.tree.uses = document.usedVariables := by
  rw [Document.tree, SyntaxTree.uses_node, uses_map Definition.uses_tree]
  rfl

/-! ### Nothing is lost

Parts with one tree are one part. Where the children of a node come from several lists, the
labels tell at which place one list ends and the next begins. -/

/-- Whether a node is a directive. -/
def Label.isDirective : Label → Bool
  | .directive _ => true
  | _ => false

/-- Whether a node stands before the directives of the node above it, where that has any. -/
def Label.isBeforeDirectives : Label → Bool
  | .argument _ => true
  | .variableDefinition _ _ _ => true
  | .inputValueDefinition _ _ _ => true
  | _ => false

/-- Two lists of trees that are told apart by their labels can be read off what they make
together. -/
theorem SyntaxTree.append_inj_of_label (p : Label → Bool) {xs xs' ys ys' : List SyntaxTree}
    (hx : ∀ t ∈ xs, p t.label = true) (hx' : ∀ t ∈ xs', p t.label = true)
    (hy : ∀ t ∈ ys, p t.label = false) (hy' : ∀ t ∈ ys', p t.label = false)
    (h : xs ++ ys = xs' ++ ys') : xs = xs' ∧ ys = ys' := by
  have filtered : ∀ {as bs : List SyntaxTree}, (∀ t ∈ as, p t.label = true) →
      (∀ t ∈ bs, p t.label = false) → (as ++ bs).filter (fun t => p t.label) = as := by
    intro as bs ha hb
    rw [List.filter_append, List.filter_eq_self.2 ha,
      List.filter_eq_nil_iff.2 fun t ht => by simp [hb t ht], List.append_nil]
  have first : xs = xs' := by rw [← filtered hx hy, h, filtered hx' hy']
  subst first
  exact ⟨rfl, List.append_cancel_left h⟩

mutual

theorem Value.tree_inj : ∀ {v w : Value}, v.tree = w.tree → v = w
  | .list items, .list items', h => by
    rw [Value.tree, Value.tree, SyntaxTree.node.injEq] at h
    rw [Value.treesOfItems_inj h.2]
  | .object fields, .object fields', h => by
    rw [Value.tree, Value.tree, SyntaxTree.node.injEq] at h
    rw [Value.treesOfFields_inj h.2]
  | .variable _, w, h => by cases w <;> simp_all [Value.tree]
  | .int _, w, h => by cases w <;> simp_all [Value.tree]
  | .float _, w, h => by cases w <;> simp_all [Value.tree]
  | .string _ _, w, h => by cases w <;> simp_all [Value.tree]
  | .boolean _, w, h => by cases w <;> simp_all [Value.tree]
  | .null, w, h => by cases w <;> simp_all [Value.tree]
  | .enum _, w, h => by cases w <;> simp_all [Value.tree]

theorem Value.treesOfItems_inj : ∀ {xs ys : List Value},
    Value.treesOfItems xs = Value.treesOfItems ys → xs = ys
  | [], [], _ => rfl
  | x :: xs, y :: ys, h => by
    rw [Value.treesOfItems, Value.treesOfItems, List.cons.injEq] at h
    rw [Value.tree_inj h.1, Value.treesOfItems_inj h.2]

theorem Value.treesOfFields_inj : ∀ {xs ys : List (String × Value)},
    Value.treesOfFields xs = Value.treesOfFields ys → xs = ys
  | [], [], _ => rfl
  | (name, x) :: xs, (name', y) :: ys, h => by
    rw [Value.treesOfFields, Value.treesOfFields, List.cons.injEq, SyntaxTree.node.injEq,
      Label.objectField.injEq, List.cons.injEq] at h
    rw [h.1.1, Value.tree_inj h.1.2.1, Value.treesOfFields_inj h.2]

end

theorem Value.treesOfDefault_inj {v w : Option Value}
    (h : Value.treesOfDefault v = Value.treesOfDefault w) : v = w := by
  cases v <;> cases w <;> simp_all [Value.treesOfDefault]
  exact Value.tree_inj h

theorem Value.isDirective_tree (v : Value) : v.tree.label.isDirective = false := by
  cases v <;> rfl

theorem Argument.trees_inj {xs ys : List Argument}
    (h : xs.map Argument.tree = ys.map Argument.tree) : xs = ys := by
  refine (List.map_inj_right fun a b hab => ?_).1 h
  obtain ⟨name, value⟩ := a
  obtain ⟨name', value'⟩ := b
  simp only [Argument.tree, SyntaxTree.node.injEq, Label.argument.injEq, List.cons.injEq,
    and_true] at hab
  rw [hab.1, Value.tree_inj hab.2]

theorem Directive.trees_inj {xs ys : List Directive}
    (h : xs.map Directive.tree = ys.map Directive.tree) : xs = ys := by
  refine (List.map_inj_right fun a b hab => ?_).1 h
  obtain ⟨name, arguments⟩ := a
  obtain ⟨name', arguments'⟩ := b
  simp only [Directive.tree, SyntaxTree.node.injEq, Label.directive.injEq] at hab
  rw [hab.1, Argument.trees_inj hab.2]

/-- Directives and what stands behind them can be read off the trees of both. -/
theorem Directive.trees_append_inj {ds ds' : List Directive} {ys ys' : List SyntaxTree}
    (hy : ∀ t ∈ ys, t.label.isDirective = false) (hy' : ∀ t ∈ ys', t.label.isDirective = false)
    (h : ds.map Directive.tree ++ ys = ds'.map Directive.tree ++ ys') : ds = ds' ∧ ys = ys' := by
  have directives : ∀ ds : List Directive, ∀ t ∈ ds.map Directive.tree,
      t.label.isDirective = true := by
    intro ds t ht
    obtain ⟨d, -, rfl⟩ := List.mem_map.1 ht
    rfl
  obtain ⟨hd, hys⟩ := SyntaxTree.append_inj_of_label Label.isDirective (directives ds)
    (directives ds') hy hy' h
  exact ⟨Directive.trees_inj hd, hys⟩

/-- Parts that stand before directives can be read off the trees of all. -/
theorem before_directives_inj {xs xs' ys ys' : List SyntaxTree} {ds ds' : List Directive}
    (hx : ∀ t ∈ xs, t.label.isBeforeDirectives = true)
    (hx' : ∀ t ∈ xs', t.label.isBeforeDirectives = true)
    (hy : ∀ t ∈ ys, t.label = .selectionSet) (hy' : ∀ t ∈ ys', t.label = .selectionSet)
    (h : xs ++ (ds.map Directive.tree ++ ys) = xs' ++ (ds'.map Directive.tree ++ ys')) :
    xs = xs' ∧ ds = ds' ∧ ys = ys' := by
  have behind : ∀ {ds : List Directive} {ys : List SyntaxTree},
      (∀ t ∈ ys, t.label = .selectionSet) → ∀ t ∈ ds.map Directive.tree ++ ys,
        t.label.isBeforeDirectives = false := by
    intro ds ys hy t ht
    rcases List.mem_append.1 ht with ht | ht
    · obtain ⟨d, -, rfl⟩ := List.mem_map.1 ht
      rfl
    · rw [hy t ht]
      rfl
  obtain ⟨hxs, hrest⟩ := SyntaxTree.append_inj_of_label Label.isBeforeDirectives hx hx'
    (behind hy) (behind hy') h
  exact ⟨hxs, Directive.trees_append_inj (fun t ht => by rw [hy t ht]; rfl)
    (fun t ht => by rw [hy' t ht]; rfl) hrest⟩

theorem Argument.before_directives (arguments : List Argument) :
    ∀ t ∈ arguments.map Argument.tree, t.label.isBeforeDirectives = true := by
  intro t ht
  obtain ⟨a, -, rfl⟩ := List.mem_map.1 ht
  rfl

/-- The trees below a field, its selections apart. -/
theorem Argument.trees_append_inj {xs xs' : List Argument} {ds ds' : List Directive}
    {ys ys' : List SyntaxTree} (hy : ∀ t ∈ ys, t.label = .selectionSet)
    (hy' : ∀ t ∈ ys', t.label = .selectionSet)
    (h : xs.map Argument.tree ++ (ds.map Directive.tree ++ ys) =
      xs'.map Argument.tree ++ (ds'.map Directive.tree ++ ys')) :
    xs = xs' ∧ ds = ds' ∧ ys = ys' := by
  obtain ⟨hx, hrest⟩ := before_directives_inj (Argument.before_directives xs)
    (Argument.before_directives xs') hy hy' h
  exact ⟨Argument.trees_inj hx, hrest⟩

mutual

theorem Selection.tree_inj : ∀ {s t : Selection}, s.tree = t.tree → s = t
  | .field r n xs ds none, .field r' n' xs' ds' none, h => by
    simp only [Selection.tree, SyntaxTree.node.injEq, Label.field.injEq] at h
    obtain ⟨⟨rfl, rfl⟩, hc⟩ := h
    rw [← List.append_nil (ds.map _), ← List.append_nil (ds'.map _)] at hc
    obtain ⟨rfl, rfl, -⟩ := Argument.trees_append_inj (by simp) (by simp) hc
    rfl
  | .field r n xs ds none, .field r' n' xs' ds' (some ss'), h => by
    simp only [Selection.tree, SyntaxTree.node.injEq] at h
    have hc := h.2
    rw [← List.append_nil (ds.map _)] at hc
    -- what follows arguments and directives is nothing on one side, a selection set on the other
    obtain ⟨-, -, hs⟩ := Argument.trees_append_inj (by simp) (by simp) hc
    simp at hs
  | .field r n xs ds (some ss), .field r' n' xs' ds' none, h => by
    simp only [Selection.tree, SyntaxTree.node.injEq] at h
    have hc := h.2
    rw [← List.append_nil (ds'.map _)] at hc
    obtain ⟨-, -, hs⟩ := Argument.trees_append_inj (by simp) (by simp) hc
    simp at hs
  | .field r n xs ds (some ss), .field r' n' xs' ds' (some ss'), h => by
    simp only [Selection.tree, SyntaxTree.node.injEq, Label.field.injEq] at h
    obtain ⟨⟨rfl, rfl⟩, hc⟩ := h
    obtain ⟨rfl, rfl, hs⟩ := Argument.trees_append_inj (by simp) (by simp) hc
    rw [selectionSet_inj hs]
  | .spread f ds, .spread f' ds', h => by
    simp only [Selection.tree, SyntaxTree.node.injEq, Label.spread.injEq] at h
    rw [h.1, Directive.trees_inj h.2]
  | .inlineFragment c ds ss, .inlineFragment c' ds' ss', h => by
    simp only [Selection.tree, SyntaxTree.node.injEq, Label.inlineFragment.injEq] at h
    obtain ⟨rfl, hc⟩ := h
    obtain ⟨rfl, hs⟩ := Directive.trees_append_inj (by simp [Label.isDirective])
      (by simp [Label.isDirective]) hc
    rw [selectionSet_inj hs]
  | .field _ _ _ _ none, .spread _ _, h => by simp [Selection.tree] at h
  | .field _ _ _ _ (some _), .spread _ _, h => by simp [Selection.tree] at h
  | .field _ _ _ _ none, .inlineFragment _ _ _, h => by simp [Selection.tree] at h
  | .field _ _ _ _ (some _), .inlineFragment _ _ _, h => by simp [Selection.tree] at h
  | .spread _ _, .field _ _ _ _ none, h => by simp [Selection.tree] at h
  | .spread _ _, .field _ _ _ _ (some _), h => by simp [Selection.tree] at h
  | .spread _ _, .inlineFragment _ _ _, h => by simp [Selection.tree] at h
  | .inlineFragment _ _ _, .field _ _ _ _ none, h => by simp [Selection.tree] at h
  | .inlineFragment _ _ _, .field _ _ _ _ (some _), h => by simp [Selection.tree] at h
  | .inlineFragment _ _ _, .spread _ _, h => by simp [Selection.tree] at h

theorem Selection.selectionSet_inj {xs ys : List Selection}
    (h : [SyntaxTree.node .selectionSet (Selection.treesInAll xs)] =
      [.node .selectionSet (Selection.treesInAll ys)]) : xs = ys := by
  simp only [List.cons.injEq, SyntaxTree.node.injEq, true_and, and_true] at h
  exact Selection.treesInAll_inj h

theorem Selection.treesInAll_inj : ∀ {xs ys : List Selection},
    Selection.treesInAll xs = Selection.treesInAll ys → xs = ys
  | [], [], _ => rfl
  | x :: xs, y :: ys, h => by
    rw [Selection.treesInAll, Selection.treesInAll, List.cons.injEq] at h
    rw [Selection.tree_inj h.1, Selection.treesInAll_inj h.2]

end

/-- A default value and directives can be read off the trees of both. -/
theorem default_directives_inj {v w : Option Value} {ds ds' : List Directive}
    (h : Value.treesOfDefault v ++ ds.map Directive.tree =
      Value.treesOfDefault w ++ ds'.map Directive.tree) : v = w ∧ ds = ds' := by
  have values : ∀ v : Option Value, ∀ t ∈ Value.treesOfDefault v,
      (!t.label.isDirective) = true := by
    intro v t ht
    obtain ⟨a, -, rfl⟩ : ∃ a, v = some a ∧ a.tree = t := by simpa [Value.treesOfDefault] using ht
    rw [Value.isDirective_tree]
    rfl
  have directives : ∀ ds : List Directive, ∀ t ∈ ds.map Directive.tree,
      (!t.label.isDirective) = false := by
    intro ds t ht
    obtain ⟨d, -, rfl⟩ := List.mem_map.1 ht
    rfl
  obtain ⟨hv, hd⟩ := SyntaxTree.append_inj_of_label (fun l => !l.isDirective) (values v) (values w)
    (directives ds) (directives ds') h
  exact ⟨Value.treesOfDefault_inj hv, Directive.trees_inj hd⟩

theorem VariableDefinition.before_directives (vs : List VariableDefinition) :
    ∀ t ∈ vs.map VariableDefinition.tree, t.label.isBeforeDirectives = true := by
  intro t ht
  obtain ⟨v, -, rfl⟩ := List.mem_map.1 ht
  rfl

theorem VariableDefinition.trees_inj {xs ys : List VariableDefinition}
    (h : xs.map VariableDefinition.tree = ys.map VariableDefinition.tree) : xs = ys := by
  refine (List.map_inj_right fun a b hab => ?_).1 h
  cases a
  cases b
  simp only [VariableDefinition.tree, SyntaxTree.node.injEq, Label.variableDefinition.injEq] at hab
  obtain ⟨⟨rfl, rfl, rfl⟩, hc⟩ := hab
  obtain ⟨rfl, rfl⟩ := default_directives_inj hc
  rfl

theorem InputValueDefinition.trees_inj {xs ys : List InputValueDefinition}
    (h : xs.map InputValueDefinition.tree = ys.map InputValueDefinition.tree) : xs = ys := by
  refine (List.map_inj_right fun a b hab => ?_).1 h
  cases a
  cases b
  simp only [InputValueDefinition.tree, SyntaxTree.node.injEq,
    Label.inputValueDefinition.injEq] at hab
  obtain ⟨⟨rfl, rfl, rfl⟩, hc⟩ := hab
  obtain ⟨rfl, rfl⟩ := default_directives_inj hc
  rfl

/-- Declared arguments and directives can be read off the trees of both. -/
theorem InputValueDefinition.trees_append_inj {xs xs' : List InputValueDefinition}
    {ds ds' : List Directive}
    (h : xs.map InputValueDefinition.tree ++ ds.map Directive.tree =
      xs'.map InputValueDefinition.tree ++ ds'.map Directive.tree) : xs = xs' ∧ ds = ds' := by
  have before : ∀ xs : List InputValueDefinition, ∀ t ∈ xs.map InputValueDefinition.tree,
      t.label.isBeforeDirectives = true := by
    intro xs t ht
    obtain ⟨x, -, rfl⟩ := List.mem_map.1 ht
    rfl
  have none : ∀ t ∈ ([] : List SyntaxTree), t.label = .selectionSet := by simp
  obtain ⟨hx, hd, -⟩ := before_directives_inj (before xs) (before xs') none none
    (by simpa using h)
  exact ⟨InputValueDefinition.trees_inj hx, hd⟩

theorem FieldDefinition.trees_inj {xs ys : List FieldDefinition}
    (h : xs.map FieldDefinition.tree = ys.map FieldDefinition.tree) : xs = ys := by
  refine (List.map_inj_right fun a b hab => ?_).1 h
  cases a
  cases b
  simp only [FieldDefinition.tree, SyntaxTree.node.injEq, Label.fieldDefinition.injEq] at hab
  obtain ⟨⟨rfl, rfl, rfl⟩, hc⟩ := hab
  obtain ⟨rfl, rfl⟩ := InputValueDefinition.trees_append_inj hc
  rfl

theorem EnumValueDefinition.trees_inj {xs ys : List EnumValueDefinition}
    (h : xs.map EnumValueDefinition.tree = ys.map EnumValueDefinition.tree) : xs = ys := by
  refine (List.map_inj_right fun a b hab => ?_).1 h
  cases a
  cases b
  simp only [EnumValueDefinition.tree, SyntaxTree.node.injEq,
    Label.enumValueDefinition.injEq] at hab
  obtain ⟨⟨rfl, rfl⟩, hc⟩ := hab
  rw [Directive.trees_inj hc]

theorem TypeBody.trees_inj {a b : TypeBody} (hk : a.kind = b.kind) (h : a.trees = b.trees) :
    a = b := by
  cases a <;> cases b <;> simp_all [TypeBody.kind, TypeBody.trees]
  · exact FieldDefinition.trees_inj h
  · exact FieldDefinition.trees_inj h
  · exact EnumValueDefinition.trees_inj h
  · exact InputValueDefinition.trees_inj h

/-- No directive stands directly in the body of a type definition. -/
theorem TypeBody.isDirective_trees (body : TypeBody) :
    ∀ t ∈ body.trees, t.label.isDirective = false := by
  cases body with
  | scalar => simp [TypeBody.trees]
  | object _ fields => simp [TypeBody.trees, FieldDefinition.tree, Label.isDirective]
  | interface _ fields => simp [TypeBody.trees, FieldDefinition.tree, Label.isDirective]
  | union _ => simp [TypeBody.trees]
  | enum values => simp [TypeBody.trees, EnumValueDefinition.tree, Label.isDirective]
  | inputObject fields => simp [TypeBody.trees, InputValueDefinition.tree, Label.isDirective]

theorem TypeDefinition.tree_inj {a b : TypeDefinition} {x y : Bool} (h : a.tree x = b.tree y) :
    x = y ∧ a = b := by
  cases a
  cases b
  simp only [TypeDefinition.tree, SyntaxTree.node.injEq, Label.type.injEq] at h
  obtain ⟨⟨rfl, rfl, rfl, hk⟩, hc⟩ := h
  obtain ⟨rfl, hb⟩ := Directive.trees_append_inj (TypeBody.isDirective_trees _)
    (TypeBody.isDirective_trees _) hc
  obtain rfl := TypeBody.trees_inj hk hb
  exact ⟨rfl, rfl⟩

theorem SchemaDefinition.tree_inj {a b : SchemaDefinition} {x y : Bool}
    (h : a.tree x = b.tree y) : x = y ∧ a = b := by
  cases a
  cases b
  simp only [SchemaDefinition.tree, SyntaxTree.node.injEq, Label.schema.injEq] at h
  obtain ⟨⟨rfl, rfl, rfl⟩, hc⟩ := h
  obtain rfl := Directive.trees_inj hc
  exact ⟨rfl, rfl⟩

theorem Definition.tree_inj {d e : Definition} (h : d.tree = e.tree) : d = e := by
  cases d <;> cases e
  case operation.operation a b =>
    cases a
    cases b
    simp only [Definition.tree, SyntaxTree.node.injEq, Label.operation.injEq] at h
    obtain ⟨⟨rfl, rfl, rfl⟩, hc⟩ := h
    obtain ⟨hv, rfl, hs⟩ := before_directives_inj (VariableDefinition.before_directives _)
      (VariableDefinition.before_directives _) (by simp) (by simp) hc
    rw [VariableDefinition.trees_inj hv, Selection.selectionSet_inj hs]
  case fragment.fragment a b =>
    cases a
    cases b
    simp only [Definition.tree, SyntaxTree.node.injEq, Label.fragment.injEq] at h
    obtain ⟨⟨rfl, rfl, rfl⟩, hc⟩ := h
    obtain ⟨rfl, hs⟩ := Directive.trees_append_inj (by simp [Label.isDirective])
      (by simp [Label.isDirective]) hc
    rw [Selection.selectionSet_inj hs]
  case directive.directive a b =>
    cases a
    cases b
    simp only [Definition.tree, SyntaxTree.node.injEq, Label.directiveDefinition.injEq] at h
    obtain ⟨⟨rfl, rfl, rfl, rfl⟩, hc⟩ := h
    obtain ⟨rfl, rfl⟩ := InputValueDefinition.trees_append_inj hc
    rfl
  case directiveExtension.directiveExtension a b =>
    cases a
    cases b
    simp only [Definition.tree, SyntaxTree.node.injEq, Label.directiveExtension.injEq] at h
    rw [h.1, Directive.trees_inj h.2]
  case schema.schema a b => rw [(SchemaDefinition.tree_inj h).2]
  case schemaExtension.schemaExtension a b => rw [(SchemaDefinition.tree_inj h).2]
  case type.type a b => rw [(TypeDefinition.tree_inj h).2]
  case typeExtension.typeExtension a b => rw [(TypeDefinition.tree_inj h).2]
  case schema.schemaExtension a b => exact absurd (SchemaDefinition.tree_inj h).1 (by simp)
  case schemaExtension.schema a b => exact absurd (SchemaDefinition.tree_inj h).1 (by simp)
  case type.typeExtension a b => exact absurd (TypeDefinition.tree_inj h).1 (by simp)
  case typeExtension.type a b => exact absurd (TypeDefinition.tree_inj h).1 (by simp)
  all_goals simp [Definition.tree, SchemaDefinition.tree, TypeDefinition.tree] at h

/-- **A document can be read off its tree.** -/
theorem Document.tree_injective : Function.Injective Document.tree := by
  rintro ⟨ds⟩ ⟨es⟩ h
  simp only [Document.tree, SyntaxTree.node.injEq, true_and] at h
  rw [(List.map_inj_right fun _ _ => Definition.tree_inj).1 h]

end GraphQL

end QueryTypes
