import QueryTypes.Schema.Standard

/-!
# Rules for schema documents

What a document has to meet so that a schema can be built of it. The rules look at
the document alone: names are unique and known, extensions extend what is there,
and directives are applied where and as they may be. They do not ask whether the
schema makes sense as a whole. Operations and fragments in the document are held to
the rules as well, although no schema comes of them.

`QueryTypes.Schema.meetsRules` is the conjunction of all of them.
-/

namespace QueryTypes

namespace Schema

open GraphQL

/-- Whether no name occurs twice. -/
def allDistinct (names : List String) : Bool := decide names.Nodup

/-! ### Parts of a document -/

/-- A place where directives are applied. Places of one group count as one place. -/
structure DirectiveSite where
  /-- What kind of place it is. -/
  location : String
  /-- The group of the place, if it is in one. -/
  group : Option String
  /-- The directives applied there. -/
  directives : List Directive

mutual

/-- The places inside a selection. -/
def sitesOfSelection : Selection → List DirectiveSite
  | .field _ _ _ directives none => [⟨"FIELD", none, directives⟩]
  | .field _ _ _ directives (some selections) =>
    ⟨"FIELD", none, directives⟩ :: sitesOfSelections selections
  | .spread _ directives => [⟨"FRAGMENT_SPREAD", none, directives⟩]
  | .inlineFragment _ directives selections =>
    ⟨"INLINE_FRAGMENT", none, directives⟩ :: sitesOfSelections selections

/-- The places inside some selections. -/
def sitesOfSelections : List Selection → List DirectiveSite
  | [] => []
  | selection :: rest => sitesOfSelection selection ++ sitesOfSelections rest

end

/-- The places on the declarations of arguments. -/
def sitesOfArguments (arguments : List InputValueDefinition) : List DirectiveSite :=
  arguments.map fun a => ⟨"ARGUMENT_DEFINITION", none, a.directives⟩

/-- The places inside the declarations of fields. -/
def sitesOfFields (fields : List FieldDefinition) : List DirectiveSite :=
  fields.flatMap fun f =>
    ⟨"FIELD_DEFINITION", none, f.directives⟩ :: sitesOfArguments f.arguments

/-- The places of a type definition or extension. -/
def sitesOfType (t : TypeDefinition) : List DirectiveSite :=
  let site (location : String) : DirectiveSite := ⟨location, some ("type " ++ t.name), t.directives⟩
  match t.body with
  | .scalar => [site "SCALAR"]
  | .object _ fields => site "OBJECT" :: sitesOfFields fields
  | .interface _ fields => site "INTERFACE" :: sitesOfFields fields
  | .union _ => [site "UNION"]
  | .enum values =>
    site "ENUM" :: values.map fun v => ⟨"ENUM_VALUE", none, v.directives⟩
  | .inputObject fields =>
    site "INPUT_OBJECT" :: fields.map fun f => ⟨"INPUT_FIELD_DEFINITION", none, f.directives⟩

/-- The places of an operation, by its kind. -/
def operationLocation : OperationKind → String
  | .query => "QUERY"
  | .mutation => "MUTATION"
  | .subscription => "SUBSCRIPTION"

/-- The place of the directives on the definition of a directive or on an extension. -/
def siteOfDirective (name : String) (directives : List Directive) : DirectiveSite :=
  ⟨"DIRECTIVE_DEFINITION", some ("directive " ++ name), directives⟩

/-- The places of a definition where directives are applied. -/
def sitesOfDefinition : Definition → List DirectiveSite
  | .operation o =>
    ⟨operationLocation o.kind, none, o.directives⟩ ::
      ((o.variableDefinitions.map fun v => ⟨"VARIABLE_DEFINITION", none, v.directives⟩) ++
        sitesOfSelections o.selections)
  | .fragment f => ⟨"FRAGMENT_DEFINITION", none, f.directives⟩ :: sitesOfSelections f.selections
  | .schema s => [⟨"SCHEMA", some "schema", s.directives⟩]
  | .schemaExtension s => [⟨"SCHEMA", some "schema", s.directives⟩]
  | .type t => sitesOfType t
  | .typeExtension t => sitesOfType t
  | .directive d => siteOfDirective d.name d.directives :: sitesOfArguments d.arguments
  | .directiveExtension d => [siteOfDirective d.name d.directives]

/-- The places of a document where directives are applied. -/
def sites (document : Document) : List DirectiveSite :=
  document.definitions.flatMap sitesOfDefinition

mutual

/-- The lists of arguments handed to the fields of a selection. -/
def argumentListsOfSelection : Selection → List (List Argument)
  | .field _ _ arguments _ none => [arguments]
  | .field _ _ arguments _ (some selections) =>
    arguments :: argumentListsOfSelections selections
  | .spread _ _ => []
  | .inlineFragment _ _ selections => argumentListsOfSelections selections

/-- The lists of arguments handed to the fields of some selections. -/
def argumentListsOfSelections : List Selection → List (List Argument)
  | [] => []
  | selection :: rest => argumentListsOfSelection selection ++ argumentListsOfSelections rest

end

/-- The selections of a definition. -/
def selectionsOf : Definition → List Selection
  | .operation o => o.selections
  | .fragment f => f.selections
  | _ => []

/-- All lists of arguments that a document hands to fields and directives. -/
def argumentLists (document : Document) : List (List Argument) :=
  ((sites document).flatMap fun s => s.directives.map Directive.arguments) ++
    document.definitions.flatMap fun d => argumentListsOfSelections (selectionsOf d)

/-- The declarations of arguments and input fields in a type. -/
def inputValuesOfType (t : TypeDefinition) : List InputValueDefinition :=
  match t.body with
  | .object _ fields => fields.flatMap FieldDefinition.arguments
  | .interface _ fields => fields.flatMap FieldDefinition.arguments
  | .inputObject fields => fields
  | _ => []

/-- The declarations of arguments and input fields in a definition. -/
def inputValuesOf : Definition → List InputValueDefinition
  | .type t => inputValuesOfType t
  | .typeExtension t => inputValuesOfType t
  | .directive d => d.arguments
  | _ => []

/-- The default values that a definition declares. -/
def defaultValuesOf (definition : Definition) : List Value :=
  (inputValuesOf definition).filterMap InputValueDefinition.defaultValue ++
    match definition with
    | .operation o => o.variableDefinitions.filterMap VariableDefinition.defaultValue
    | _ => []

/-- All values written in a document. -/
def values (document : Document) : List Value :=
  ((argumentLists document).flatMap fun arguments => arguments.map Argument.value) ++
    document.definitions.flatMap defaultValuesOf

/-- The type definitions of a document. -/
def typeDefinitions (document : Document) : List TypeDefinition :=
  document.definitions.filterMap fun
    | .type t => some t
    | _ => none

/-- The type extensions of a document. -/
def typeExtensions (document : Document) : List TypeDefinition :=
  document.definitions.filterMap fun
    | .typeExtension t => some t
    | _ => none

/-- The directive definitions of a document. -/
def directiveDefinitions (document : Document) : List DirectiveDefinition :=
  document.definitions.filterMap fun
    | .directive d => some d
    | _ => none

/-- The root types that schema definitions and extensions give. -/
def givenRoots (document : Document) : List (OperationKind × String) :=
  document.definitions.flatMap fun
    | .schema s => s.roots
    | .schemaExtension s => s.roots
    | _ => []

/-! ### Directives -/

/-- What is known of a directive: where it may stand, whether more than once, and its
arguments with a mark on those that have to be given. -/
structure KnownDirective where
  /-- The directive's name. -/
  name : String
  /-- Where it may be applied. -/
  locations : List String
  /-- Whether it may be applied twice at one place. -/
  repeatable : Bool
  /-- Its arguments, and whether each is required. -/
  arguments : List (String × Bool)

/-- The directives that need no definition. -/
def standardDirectives : List KnownDirective :=
  [⟨"include", ["FIELD", "FRAGMENT_SPREAD", "INLINE_FRAGMENT"], false, [("if", true)]⟩,
   ⟨"skip", ["FIELD", "FRAGMENT_SPREAD", "INLINE_FRAGMENT"], false, [("if", true)]⟩,
   ⟨"deprecated",
     ["FIELD_DEFINITION", "ARGUMENT_DEFINITION", "INPUT_FIELD_DEFINITION", "ENUM_VALUE",
      "DIRECTIVE_DEFINITION"], false, [("reason", false)]⟩,
   ⟨"specifiedBy", ["SCALAR"], false, [("url", true)]⟩,
   ⟨"oneOf", ["INPUT_OBJECT"], false, []⟩]

/-- A directive as a document defines it. -/
def knownDirective (d : DirectiveDefinition) : KnownDirective :=
  ⟨d.name, d.locations, d.repeatable,
    d.arguments.map fun a => (a.name, a.type.isNonNull && a.defaultValue.isNone)⟩

/-- The directives of a document; its own definitions come before the standard ones. -/
def knownDirectives (document : Document) : List KnownDirective :=
  (directiveDefinitions document).reverse.map knownDirective ++ standardDirectives

/-- The directive of a name. -/
def findDirective? (known : List KnownDirective) (name : String) : Option KnownDirective :=
  known.find? fun d => d.name = name

/-- Every directive is known and stands where it may. -/
def directivesAreKnown (document : Document) : Bool :=
  let known := knownDirectives document
  (sites document).all fun site => site.directives.all fun d =>
    match findDirective? known d.name with
    | some k => k.locations.contains site.location
    | none => false

/-- No place has a directive twice that may stand there once. -/
def directivesAreUnique (document : Document) : Bool :=
  let known := knownDirectives document
  let once (directives : List Directive) : List String :=
    (directives.map Directive.name).filter fun name =>
      match findDirective? known name with
      | some k => !k.repeatable
      | none => false
  let all := sites document
  let groups := (all.filterMap DirectiveSite.group).eraseDups
  (all.filter fun s => s.group.isNone).all (fun s => allDistinct (once s.directives)) &&
    groups.all fun g =>
      allDistinct (once ((all.filter fun s => s.group = some g).flatMap DirectiveSite.directives))

/-- Directives are given arguments they have, and all those they require. -/
def directiveArgumentsMatch (document : Document) : Bool :=
  let known := knownDirectives document
  (sites document).all fun site => site.directives.all fun d =>
    match findDirective? known d.name with
    | none => true
    | some k =>
      let given := d.arguments.map Argument.name
      given.all (fun name => Keyed.contains name k.arguments) &&
        k.arguments.all fun (name, required) => !required || given.contains name

/-! ### Names -/

mutual

/-- No object inside a value has a field twice. -/
def objectFieldsAreUnique : Value → Bool
  | .list items => allObjectFieldsAreUnique items
  | .object fields => allDistinct (fields.map Prod.fst) && allFieldsHaveUniqueFields fields
  | _ => true

/-- No object inside some values has a field twice. -/
def allObjectFieldsAreUnique : List Value → Bool
  | [] => true
  | value :: rest => objectFieldsAreUnique value && allObjectFieldsAreUnique rest

/-- No object inside the fields of an object has a field twice. -/
def allFieldsHaveUniqueFields : List (String × Value) → Bool
  | [] => true
  | (_, value) :: rest => objectFieldsAreUnique value && allFieldsHaveUniqueFields rest

end

/-- The names of the fields that a type definition or extension declares. -/
def declaredFields (t : TypeDefinition) : List String :=
  match t.body with
  | .object _ fields => fields.map FieldDefinition.name
  | .interface _ fields => fields.map FieldDefinition.name
  | .inputObject fields => fields.map InputValueDefinition.name
  | _ => []

/-- The names of the enumeration values that a type definition or extension declares. -/
def declaredValues (t : TypeDefinition) : List String :=
  match t.body with
  | .enum values => values.map EnumValueDefinition.name
  | _ => []

/-- Nothing is declared twice in a type and its extensions together. -/
def declarationsAreUnique (declared : TypeDefinition → List String) (document : Document) :
    Bool :=
  let all := typeDefinitions document ++ typeExtensions document
  (all.map TypeDefinition.name).eraseDups.all fun name =>
    allDistinct ((all.filter fun t => t.name = name).flatMap declared)

/-- The lists of argument names that fields and directives declare. -/
def declaredArguments : Definition → List (List String)
  | .type t => ofType t
  | .typeExtension t => ofType t
  | .directive d => [d.arguments.map InputValueDefinition.name]
  | _ => []
where
  /-- The lists of argument names that the fields of a type declare. -/
  ofType (t : TypeDefinition) : List (List String) :=
    let ofFields (fields : List FieldDefinition) :=
      fields.map fun f => f.arguments.map InputValueDefinition.name
    match t.body with
    | .object _ fields => ofFields fields
    | .interface _ fields => ofFields fields
    | _ => []

/-- The names of types that a type definition or extension mentions. -/
def mentionedByType (t : TypeDefinition) : List String :=
  let ofInputs (inputs : List InputValueDefinition) := inputs.map fun v => v.type.baseName
  let ofFields (fields : List FieldDefinition) :=
    fields.flatMap fun f => f.type.baseName :: ofInputs f.arguments
  match t.body with
  | .scalar => []
  | .object interfaces fields => interfaces ++ ofFields fields
  | .interface interfaces fields => interfaces ++ ofFields fields
  | .union members => members
  | .enum _ => []
  | .inputObject fields => ofInputs fields

mutual

/-- The type conditions inside a selection. -/
def conditionsOfSelection : Selection → List String
  | .field _ _ _ _ none => []
  | .field _ _ _ _ (some selections) => conditionsOfSelections selections
  | .spread _ _ => []
  | .inlineFragment condition _ selections =>
    condition.toList ++ conditionsOfSelections selections

/-- The type conditions inside some selections. -/
def conditionsOfSelections : List Selection → List String
  | [] => []
  | selection :: rest => conditionsOfSelection selection ++ conditionsOfSelections rest

end

/-- The names of types that a type-system definition mentions. -/
def mentionedTypes : Definition → List String
  | .schema s => s.roots.map Prod.snd
  | .schemaExtension s => s.roots.map Prod.snd
  | .type t => mentionedByType t
  | .typeExtension t => mentionedByType t
  | .directive d => d.arguments.map fun a => a.type.baseName
  | _ => []

/-- The names of types that an operation or fragment mentions. -/
def mentionedByExecutable : Definition → List String
  | .operation o =>
    (o.variableDefinitions.map fun v => v.type.baseName) ++ conditionsOfSelections o.selections
  | .fragment f => f.condition :: conditionsOfSelections f.selections
  | _ => []

/-- Mentioned types are defined; a type-system definition may also mention standard
types. -/
def typesAreKnown (document : Document) : Bool :=
  let defined := (typeDefinitions document).map TypeDefinition.name
  document.definitions.all fun d =>
    (mentionedTypes d).all (fun name => defined.contains name || standardNames.contains name) &&
      (mentionedByExecutable d).all fun name => defined.contains name

/-- Whether two types are of one kind. -/
def sameKind : TypeBody → TypeBody → Bool
  | .scalar, .scalar => true
  | .object _ _, .object _ _ => true
  | .interface _ _, .interface _ _ => true
  | .union _, .union _ => true
  | .enum _, .enum _ => true
  | .inputObject _, .inputObject _ => true
  | _, _ => false

/-- Extensions extend a defined type of their own kind. -/
def extensionsMatch (document : Document) : Bool :=
  let defined := typeDefinitions document
  (typeExtensions document).all fun e =>
    match defined.find? fun t => t.name = e.name with
    | some t => sameKind t.body e.body
    | none => false

/-- At most one definition gives the root types. -/
def atMostOneSchemaDefinition (document : Document) : Bool :=
  (document.definitions.filter fun
    | .schema _ => true
    | _ => false).length ≤ 1

/-! ### All rules -/

/-- Whether a schema can be built of the document. -/
def meetsRules (document : Document) : Bool :=
  atMostOneSchemaDefinition document &&
  allDistinct ((givenRoots document).map fun r => r.1.word) &&
  allDistinct ((typeDefinitions document).map TypeDefinition.name) &&
  allDistinct ((directiveDefinitions document).map DirectiveDefinition.name) &&
  declarationsAreUnique declaredFields document &&
  declarationsAreUnique declaredValues document &&
  (document.definitions.flatMap declaredArguments).all allDistinct &&
  typesAreKnown document &&
  extensionsMatch document &&
  directivesAreKnown document &&
  directivesAreUnique document &&
  directiveArgumentsMatch document &&
  (argumentLists document).all (fun arguments => allDistinct (arguments.map Argument.name)) &&
  (values document).all objectFieldsAreUnique

end Schema

end QueryTypes
