import QueryTypes.Schema.Rules

/-!
# Schemas from documents

A schema is built of the type-system definitions of a document that meets the
rules: extensions are merged into the types they extend, standard types are added,
and where no definition gives the root types they are the types called `Query`,
`Mutation` and `Subscription`. A type that has the name of a standard type is that
standard type.
-/

namespace QueryTypes

/-- Why no schema can be built of a document. -/
inductive SchemaError where
  /-- The document breaks a rule. -/
  | rule
  /-- A standard directive is given a value it cannot take. -/
  | directiveValue
  deriving DecidableEq

namespace Schema

open GraphQL

/-! ### Types with their extensions -/

/-- The fields that several parts of one type declare. -/
def mergeFields (parts : List TypeDefinition) : List (String × TypeRef) :=
  parts.flatMap fun t => match t.body with
    | .object _ fields => fields.map fun f => (f.name, f.type)
    | .interface _ fields => fields.map fun f => (f.name, f.type)
    | .inputObject fields => fields.map fun f => (f.name, f.type)
    | _ => []

/-- The interfaces that several parts of one type declare. -/
def mergeInterfaces (parts : List TypeDefinition) : List String :=
  parts.flatMap fun t => match t.body with
    | .object interfaces _ => interfaces
    | .interface interfaces _ => interfaces
    | _ => []

/-- The members that several parts of one union declare. -/
def mergeMembers (parts : List TypeDefinition) : List String :=
  parts.flatMap fun t => match t.body with
    | .union members => members
    | _ => []

/-- The type that a definition and its extensions make together. -/
def mergeType (extensions : List TypeDefinition) (t : TypeDefinition) : SchemaType :=
  match standardType? t.name with
  | some standard => standard
  | none =>
    let parts := t :: extensions.filter fun e => e.name = t.name
    ⟨t.name, match t.body with
      | .scalar => .scalar
      | .object _ _ => .object (mergeInterfaces parts) (mergeFields parts)
      | .interface _ _ => .interface (mergeInterfaces parts) (mergeFields parts)
      | .union _ => .union (mergeMembers parts)
      | .enum _ => .enum (parts.flatMap declaredValues)
      | .inputObject _ => .inputObject (mergeFields parts)⟩

/-! ### Root types -/

/-- The root types that go by the usual names. -/
def usualRoots (names : List String) (roots : RootTypes) : RootTypes :=
  let pick (name : String) (given : Option String) : Option String :=
    if names.contains name then some name else given
  ⟨pick "Query" roots.query, pick "Mutation" roots.mutation,
    pick "Subscription" roots.subscription⟩

/-- The root types of a document. -/
def rootsOf (document : Document) : RootTypes :=
  let given := (givenRoots document).foldl (fun roots (kind, name) => roots.set kind name) {}
  let isDefined := document.definitions.any fun
    | .schema _ => true
    | _ => false
  if isDefined then given
  else usualRoots ((typeDefinitions document).map TypeDefinition.name) given

/-! ### Values of standard directives -/

/-- Whether the first directive of a name is given a string for an argument, or may do
without. -/
def takesString (directive argument : String) (required : Bool) (directives : List Directive) :
    Bool :=
  match directives.find? fun d => d.name = directive with
  | none => true
  | some d => match d.arguments.find? fun a => a.name = argument with
    | none => !required
    | some a => match a.value with
      | .string _ _ => true
      | _ => false

/-- Whether what is marked as deprecated is given a text for a reason, or no reason. -/
def deprecationFits (directives : List Directive) : Bool :=
  takesString "deprecated" "reason" false directives

/-- Whether something is built of a definition. A standard type is what it is, whatever is
defined under its name. -/
def isBuilt : Definition → Bool
  | .type t => (standardType? t.name).isNone
  | .typeExtension t => (standardType? t.name).isNone
  | .directive _ => true
  | _ => false

/-- The directives on the definition of a directive, and behind them those on its extensions. -/
def directivesOn (document : Document) (definition : DirectiveDefinition) : List Directive :=
  definition.directives ++ document.definitions.flatMap fun
    | .directiveExtension e => if e.name = definition.name then e.directives else []
    | _ => []

/-- Whether the standard directives on what is built are given strings. The values of an
enumeration are not asked, since they are only built once they are read. -/
def directiveValuesFit (document : Document) : Bool :=
  let fits (site : DirectiveSite) : Bool :=
    match site.location with
    | "FIELD_DEFINITION" | "ARGUMENT_DEFINITION" | "INPUT_FIELD_DEFINITION" =>
      deprecationFits site.directives
    | "SCALAR" => takesString "specifiedBy" "url" true site.directives
    | _ => true
  ((document.definitions.filter isBuilt).flatMap sitesOfDefinition).all fits &&
    (directiveDefinitions document).all fun d => deprecationFits (directivesOn document d)

/-- The enumerations whose values cannot be built, since the reason for which one of them is
deprecated is not a string. -/
def unreadableEnums (document : Document) : List String :=
  let parts := (typeDefinitions document ++ typeExtensions document).filter fun t =>
    (standardType? t.name).isNone
  (parts.filter fun t => match t.body with
    | .enum values => !values.all fun v => deprecationFits v.directives
    | _ => false).map TypeDefinition.name

/-! ### Building -/

/-- The schema of a document. -/
def ofDocument (document : Document) : Except SchemaError Schema :=
  if meetsRules document then
    if directiveValuesFit document then
      let types := (typeDefinitions document).map (mergeType (typeExtensions document))
      let roots := rootsOf document
      let built := document.definitions.filter isBuilt
      let mentioned := roots.names ++ built.flatMap mentionedTypes
      match ofTypes? (withStandardTypes mentioned types) roots with
      | some schema => .ok { schema with unreadable := unreadableEnums document }
      | none => .error .rule
    else .error .directiveValue
  else .error .rule

end Schema

end QueryTypes
