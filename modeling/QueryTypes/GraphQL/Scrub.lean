import QueryTypes.GraphQL.Syntax

/-!
# Documents without internal directives

Some directives speak to this tool alone and never reach a server. Scrubbing a
document takes them off every part of it, and then drops the variable
definitions whose variable is used nowhere in what is left: a variable that only
an internal directive used is gone with the directive.

The two halves are `QueryTypes.GraphQL.Document.withoutDirectives`, which removes
directives by name, and `QueryTypes.GraphQL.Document.withoutUnusedVariables`,
which reads off the uses with `QueryTypes.GraphQL.Document.usedVariables`. A
variable counts as used wherever it stands as a value; its own definition is no
use, and default values hold no variables.
-/

namespace QueryTypes

namespace GraphQL

/-! ### Uses of variables -/

mutual

/-- The variables that a value uses, in the order of the text. -/
def Value.usedVariables : Value → List String
  | .variable name => [name]
  | .list items => usedVariablesInItems items
  | .object fields => usedVariablesInFields fields
  | _ => []

/-- The variables that the items of a list use. -/
def Value.usedVariablesInItems : List Value → List String
  | [] => []
  | item :: rest => item.usedVariables ++ usedVariablesInItems rest

/-- The variables that the fields of an object use. -/
def Value.usedVariablesInFields : List (String × Value) → List String
  | [] => []
  | (_, item) :: rest => item.usedVariables ++ usedVariablesInFields rest

end

/-- The variables that some arguments use. -/
def Argument.usedVariables (arguments : List Argument) : List String :=
  arguments.flatMap fun a => a.value.usedVariables

/-- The variables that some directives use. -/
def Directive.usedVariables (directives : List Directive) : List String :=
  directives.flatMap fun d => Argument.usedVariables d.arguments

/-- The variables that a value used by default uses. -/
def Value.usedByDefault (value : Option Value) : List String :=
  (value.map usedVariables).getD []

mutual

/-- The variables that a selection uses. -/
def Selection.usedVariables : Selection → List String
  | .field _ _ arguments directives none =>
    Argument.usedVariables arguments ++ Directive.usedVariables directives
  | .field _ _ arguments directives (some selections) =>
    Argument.usedVariables arguments ++ Directive.usedVariables directives ++
      usedVariablesInAll selections
  | .spread _ directives => Directive.usedVariables directives
  | .inlineFragment _ directives selections =>
    Directive.usedVariables directives ++ usedVariablesInAll selections

/-- The variables that some selections use. -/
def Selection.usedVariablesInAll : List Selection → List String
  | [] => []
  | selection :: rest => selection.usedVariables ++ usedVariablesInAll rest

end

/-- The variables that a variable's definition uses, apart from the one it defines. -/
def VariableDefinition.usedVariables (v : VariableDefinition) : List String :=
  Value.usedByDefault v.defaultValue ++ Directive.usedVariables v.directives

/-- The variables that the declaration of an argument or input field uses. -/
def InputValueDefinition.usedVariables (v : InputValueDefinition) : List String :=
  Value.usedByDefault v.defaultValue ++ Directive.usedVariables v.directives

/-- The variables that the declaration of a field uses. -/
def FieldDefinition.usedVariables (f : FieldDefinition) : List String :=
  f.arguments.flatMap InputValueDefinition.usedVariables ++ Directive.usedVariables f.directives

/-- The variables that the body of a type definition uses. -/
def TypeBody.usedVariables : TypeBody → List String
  | .scalar => []
  | .object _ fields => fields.flatMap FieldDefinition.usedVariables
  | .interface _ fields => fields.flatMap FieldDefinition.usedVariables
  | .union _ => []
  | .enum values => values.flatMap fun v => Directive.usedVariables v.directives
  | .inputObject fields => fields.flatMap InputValueDefinition.usedVariables

/-- The variables that a definition uses. -/
def Definition.usedVariables : Definition → List String
  | .operation o =>
    o.variableDefinitions.flatMap VariableDefinition.usedVariables ++
      Directive.usedVariables o.directives ++ Selection.usedVariablesInAll o.selections
  | .fragment f =>
    Directive.usedVariables f.directives ++ Selection.usedVariablesInAll f.selections
  | .schema s => Directive.usedVariables s.directives
  | .schemaExtension s => Directive.usedVariables s.directives
  | .type t => Directive.usedVariables t.directives ++ t.body.usedVariables
  | .typeExtension t => Directive.usedVariables t.directives ++ t.body.usedVariables
  | .directive d =>
    d.arguments.flatMap InputValueDefinition.usedVariables ++ Directive.usedVariables d.directives
  | .directiveExtension d => Directive.usedVariables d.directives

/-- The variables used anywhere in a document. -/
def Document.usedVariables (document : Document) : List String :=
  document.definitions.flatMap Definition.usedVariables

/-! ### Removing directives -/

/-- The directives that are not internal. -/
def Directive.keepExternal (isInternal : String → Bool) (directives : List Directive) :
    List Directive :=
  directives.filter fun d => !isInternal d.name

mutual

/-- A selection without internal directives. -/
def Selection.withoutDirectives (isInternal : String → Bool) : Selection → Selection
  | .field responseName name arguments directives none =>
    .field responseName name arguments (Directive.keepExternal isInternal directives) none
  | .field responseName name arguments directives (some selections) =>
    .field responseName name arguments (Directive.keepExternal isInternal directives)
      (some (withoutDirectivesInAll isInternal selections))
  | .spread fragment directives =>
    .spread fragment (Directive.keepExternal isInternal directives)
  | .inlineFragment condition directives selections =>
    .inlineFragment condition (Directive.keepExternal isInternal directives)
      (withoutDirectivesInAll isInternal selections)

/-- Selections without internal directives. -/
def Selection.withoutDirectivesInAll (isInternal : String → Bool) :
    List Selection → List Selection
  | [] => []
  | selection :: rest =>
    selection.withoutDirectives isInternal :: withoutDirectivesInAll isInternal rest

end

/-- The declaration of a variable without internal directives. -/
def VariableDefinition.withoutDirectives (isInternal : String → Bool)
    (v : VariableDefinition) : VariableDefinition :=
  { v with directives := Directive.keepExternal isInternal v.directives }

/-- The declaration of an argument or input field without internal directives. -/
def InputValueDefinition.withoutDirectives (isInternal : String → Bool)
    (v : InputValueDefinition) : InputValueDefinition :=
  { v with directives := Directive.keepExternal isInternal v.directives }

/-- The declaration of a field without internal directives. -/
def FieldDefinition.withoutDirectives (isInternal : String → Bool)
    (f : FieldDefinition) : FieldDefinition :=
  { f with
    arguments := f.arguments.map (InputValueDefinition.withoutDirectives isInternal)
    directives := Directive.keepExternal isInternal f.directives }

/-- The declaration of an enumeration value without internal directives. -/
def EnumValueDefinition.withoutDirectives (isInternal : String → Bool)
    (v : EnumValueDefinition) : EnumValueDefinition :=
  { v with directives := Directive.keepExternal isInternal v.directives }

/-- The body of a type definition without internal directives. -/
def TypeBody.withoutDirectives (isInternal : String → Bool) : TypeBody → TypeBody
  | .scalar => .scalar
  | .object interfaces fields =>
    .object interfaces (fields.map (FieldDefinition.withoutDirectives isInternal))
  | .interface interfaces fields =>
    .interface interfaces (fields.map (FieldDefinition.withoutDirectives isInternal))
  | .union members => .union members
  | .enum values => .enum (values.map (EnumValueDefinition.withoutDirectives isInternal))
  | .inputObject fields =>
    .inputObject (fields.map (InputValueDefinition.withoutDirectives isInternal))

/-- A type definition without internal directives. -/
def TypeDefinition.withoutDirectives (isInternal : String → Bool)
    (t : TypeDefinition) : TypeDefinition :=
  { t with
    directives := Directive.keepExternal isInternal t.directives
    body := t.body.withoutDirectives isInternal }

/-- A schema definition without internal directives. -/
def SchemaDefinition.withoutDirectives (isInternal : String → Bool)
    (s : SchemaDefinition) : SchemaDefinition :=
  { s with directives := Directive.keepExternal isInternal s.directives }

/-- A definition without internal directives. -/
def Definition.withoutDirectives (isInternal : String → Bool) : Definition → Definition
  | .operation o => .operation { o with
      variableDefinitions :=
        o.variableDefinitions.map (VariableDefinition.withoutDirectives isInternal)
      directives := Directive.keepExternal isInternal o.directives
      selections := Selection.withoutDirectivesInAll isInternal o.selections }
  | .fragment f => .fragment { f with
      directives := Directive.keepExternal isInternal f.directives
      selections := Selection.withoutDirectivesInAll isInternal f.selections }
  | .schema s => .schema (s.withoutDirectives isInternal)
  | .schemaExtension s => .schemaExtension (s.withoutDirectives isInternal)
  | .type t => .type (t.withoutDirectives isInternal)
  | .typeExtension t => .typeExtension (t.withoutDirectives isInternal)
  | .directive d => .directive { d with
      arguments := d.arguments.map (InputValueDefinition.withoutDirectives isInternal)
      directives := Directive.keepExternal isInternal d.directives }
  | .directiveExtension d => .directiveExtension { d with
      directives := Directive.keepExternal isInternal d.directives }

/-- A document without internal directives. -/
def Document.withoutDirectives (isInternal : String → Bool) (document : Document) : Document :=
  ⟨document.definitions.map (Definition.withoutDirectives isInternal)⟩

/-! ### Dropping variable definitions -/

/-- A definition that declares only the variables that are used. -/
def Definition.keepVariables (used : List String) : Definition → Definition
  | .operation o => .operation { o with
      variableDefinitions := o.variableDefinitions.filter fun v => decide (v.name ∈ used) }
  | definition => definition

/-- A document in which every operation declares only variables used somewhere. -/
def Document.withoutUnusedVariables (document : Document) : Document :=
  ⟨document.definitions.map (Definition.keepVariables document.usedVariables)⟩

/-- The document that is left for the outside: no internal directives, and no variables
that nothing uses any more. -/
def Document.scrub (isInternal : String → Bool) (document : Document) : Document :=
  (document.withoutDirectives isInternal).withoutUnusedVariables

/-- The internal directives by default. -/
def defaultInternalDirectives : List String :=
  ["list", "prepend", "append", "parentID", "when", "when_not", "arguments", "with", "cache"]

end GraphQL

end QueryTypes
