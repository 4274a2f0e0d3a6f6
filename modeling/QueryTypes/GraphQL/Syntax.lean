/-!
# GraphQL documents

The abstract syntax of a GraphQL document: executable definitions (operations and
fragments) and type-system definitions, in the order of the text. Everything that
may carry directives carries its list of them. Where the grammar writes no empty
lists, an absent list is the empty one; a selection set may be empty, and a field
without one is told apart from a field with an empty one.
-/

namespace QueryTypes

namespace GraphQL

/-! ### Values and directives -/

/-- A value as written in a document. Numbers keep their text. -/
inductive Value where
  /-- A use of a variable. -/
  | variable (name : String)
  /-- A whole number, as written. -/
  | int (text : String)
  /-- Any other number, as written. -/
  | float (text : String)
  /-- A text, written as a plain or as a block string. -/
  | string (value : String) (block : Bool)
  /-- A truth value. -/
  | boolean (value : Bool)
  /-- The null value. -/
  | null
  /-- A name that stands for an enumeration value. -/
  | enum (name : String)
  /-- A list of values. -/
  | list (items : List Value)
  /-- Named values. -/
  | object (fields : List (String × Value))
  deriving Inhabited

/-- A named value handed to a field or a directive. -/
structure Argument where
  /-- The argument's name. -/
  name : String
  /-- Its value. -/
  value : Value
  deriving Inhabited

/-- A directive as applied to some part of a document. -/
structure Directive where
  /-- The directive's name, without the at sign. -/
  name : String
  /-- Its arguments in order. -/
  arguments : List Argument
  deriving Inhabited

/-- A reference to a type, with its list and non-null wrappers. -/
inductive TypeRef where
  /-- A type of the schema, by name. -/
  | named (name : String)
  /-- A list of something. -/
  | list (item : TypeRef)
  /-- Something that is never null. -/
  | nonNull (type : TypeRef)
  deriving DecidableEq, Inhabited

namespace TypeRef

/-- The name under all wrappers. -/
def baseName : TypeRef → String
  | named name => name
  | list item => item.baseName
  | nonNull type => type.baseName

/-- Whether the outermost wrapper forbids null. -/
def isNonNull : TypeRef → Bool
  | nonNull _ => true
  | _ => false

end TypeRef

/-- A text that describes a definition, written as a plain or as a block string. -/
structure Description where
  /-- The text itself. -/
  value : String
  /-- Whether it is written as a block string. -/
  block : Bool
  deriving DecidableEq, Inhabited

/-! ### Executable definitions -/

/-- The three kinds of operations. -/
inductive OperationKind where
  /-- Reads data. -/
  | query
  /-- Changes data. -/
  | mutation
  /-- Receives data over time. -/
  | subscription
  deriving DecidableEq, Inhabited

/-- The word that opens an operation of this kind. -/
def OperationKind.word : OperationKind → String
  | query => "query"
  | mutation => "mutation"
  | subscription => "subscription"

/-- The kind of operation that a word opens. -/
def OperationKind.ofWord? (word : String) : Option OperationKind :=
  if word = "query" then some query
  else if word = "mutation" then some mutation
  else if word = "subscription" then some subscription
  else none

@[simp] theorem OperationKind.ofWord?_word (kind : OperationKind) :
    ofWord? kind.word = some kind := by
  cases kind <;> rfl

/-- One selection of a selection set. -/
inductive Selection where
  /-- A field, with its response name if that differs. -/
  | field (responseName : Option String) (name : String) (arguments : List Argument)
      (directives : List Directive) (selections : Option (List Selection))
  /-- The selections of a fragment, by the fragment's name. -/
  | spread (fragment : String) (directives : List Directive)
  /-- Selections for one type, or under a directive. -/
  | inlineFragment (condition : Option String) (directives : List Directive)
      (selections : List Selection)
  deriving Inhabited

/-- The declaration of a variable. -/
structure VariableDefinition where
  /-- What is said about the variable. -/
  description : Option Description
  /-- The variable's name, without the dollar sign. -/
  name : String
  /-- The variable's type. -/
  type : TypeRef
  /-- The value it has when none is given. -/
  defaultValue : Option Value
  /-- The directives on the declaration. -/
  directives : List Directive
  deriving Inhabited

/-- A query, a mutation or a subscription. -/
structure Operation where
  /-- What is said about the operation. -/
  description : Option Description
  /-- Which kind of operation it is. -/
  kind : OperationKind
  /-- The operation's name; an operation may have none. -/
  name : Option String
  /-- The variables it declares. -/
  variableDefinitions : List VariableDefinition
  /-- The directives on the operation. -/
  directives : List Directive
  /-- What it selects from the root type. -/
  selections : List Selection
  deriving Inhabited

/-- A named set of selections on one type. -/
structure Fragment where
  /-- What is said about the fragment. -/
  description : Option Description
  /-- The fragment's name. -/
  name : String
  /-- The type the fragment applies to. -/
  condition : String
  /-- The directives on the fragment. -/
  directives : List Directive
  /-- What it selects. -/
  selections : List Selection
  deriving Inhabited

/-! ### Type-system definitions -/

/-- The declaration of an argument, or of a field of an input object type. -/
structure InputValueDefinition where
  /-- What is said about it. -/
  description : Option Description
  /-- Its name. -/
  name : String
  /-- Its type. -/
  type : TypeRef
  /-- The value it has when none is given. -/
  defaultValue : Option Value
  /-- The directives on it. -/
  directives : List Directive
  deriving Inhabited

/-- The declaration of a field of an object or interface type. -/
structure FieldDefinition where
  /-- What is said about the field. -/
  description : Option Description
  /-- The field's name. -/
  name : String
  /-- The arguments it takes. -/
  arguments : List InputValueDefinition
  /-- The type of its result. -/
  type : TypeRef
  /-- The directives on it. -/
  directives : List Directive
  deriving Inhabited

/-- The declaration of one value of an enumeration. -/
structure EnumValueDefinition where
  /-- What is said about the value. -/
  description : Option Description
  /-- The value's name. -/
  name : String
  /-- The directives on it. -/
  directives : List Directive
  deriving Inhabited

/-- What a definition or extension says about a type, by kind of type. -/
inductive TypeBody where
  /-- A scalar type. -/
  | scalar
  /-- An object type with the interfaces it implements. -/
  | object (interfaces : List String) (fields : List FieldDefinition)
  /-- An interface type with the interfaces it implements. -/
  | interface (interfaces : List String) (fields : List FieldDefinition)
  /-- A union of object types. -/
  | union (members : List String)
  /-- An enumeration. -/
  | enum (values : List EnumValueDefinition)
  /-- An input object type. -/
  | inputObject (fields : List InputValueDefinition)
  deriving Inhabited

/-- The definition of a type, or an extension of it. -/
structure TypeDefinition where
  /-- What is said about the type. -/
  description : Option Description
  /-- The type's name. -/
  name : String
  /-- The directives on the type. -/
  directives : List Directive
  /-- The type itself. -/
  body : TypeBody
  deriving Inhabited

/-- The definition of a schema's root types, or an extension of it. -/
structure SchemaDefinition where
  /-- What is said about the schema. -/
  description : Option Description
  /-- The directives on the schema. -/
  directives : List Directive
  /-- The root type of each kind of operation that is given one. -/
  roots : List (OperationKind × String)
  deriving Inhabited

/-- The definition of a directive. -/
structure DirectiveDefinition where
  /-- What is said about the directive. -/
  description : Option Description
  /-- The directive's name, without the at sign. -/
  name : String
  /-- The arguments it takes. -/
  arguments : List InputValueDefinition
  /-- The directives on its definition. -/
  directives : List Directive
  /-- Whether it may be applied twice at one place. -/
  repeatable : Bool
  /-- The places where it may be applied. -/
  locations : List String
  deriving Inhabited

/-- More directives on the definition of a directive. -/
structure DirectiveExtension where
  /-- The name of the directive that is defined, without the at sign. -/
  name : String
  /-- The directives added to its definition. -/
  directives : List Directive
  deriving Inhabited

/-! ### Documents -/

/-- One definition of a document. -/
inductive Definition where
  /-- A query, mutation or subscription. -/
  | operation (operation : Operation)
  /-- A fragment. -/
  | fragment (fragment : Fragment)
  /-- The root types of the schema. -/
  | schema (definition : SchemaDefinition)
  /-- An extension of the root types. -/
  | schemaExtension (definition : SchemaDefinition)
  /-- A type. -/
  | type (definition : TypeDefinition)
  /-- An extension of a type. -/
  | typeExtension (definition : TypeDefinition)
  /-- A directive. -/
  | directive (definition : DirectiveDefinition)
  /-- An extension of a directive. -/
  | directiveExtension (definition : DirectiveExtension)
  deriving Inhabited

/-- A GraphQL document: its definitions in order. -/
structure Document where
  /-- The definitions in the order of the text. -/
  definitions : List Definition
  deriving Inhabited

namespace Definition

/-- The fragment, if the definition is one. -/
def fragment? : Definition → Option Fragment
  | fragment f => some f
  | _ => none

/-- The operation, if the definition is one. -/
def operation? : Definition → Option Operation
  | operation o => some o
  | _ => none

/-- Whether the definition is an operation or a fragment. -/
def isExecutable : Definition → Bool
  | operation _ => true
  | fragment _ => true
  | _ => false

end Definition

/-- The fragments that a document defines, in order. -/
def Document.fragments (document : Document) : List Fragment :=
  document.definitions.filterMap Definition.fragment?

end GraphQL

end QueryTypes
