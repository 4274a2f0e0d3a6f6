import QueryTypes.Schema.Basic
import QueryTypes.Text.Basic

/-!
# The types every schema has

Five scalar types are built into GraphQL, and a schema describes itself through
the types of the introspection system, whose names begin with two underscores.
The introspection types use strings and truth values, so those two scalars are
part of every schema; the other three are part of a schema that mentions them.
-/

namespace QueryTypes

namespace Schema

open GraphQL.TypeRef

/-- The scalar types that are built in. -/
def standardScalars : List String := ["ID", "String", "Boolean", "Int", "Float"]

/-- The type of a standard scalar. -/
def standardScalar (name : String) : SchemaType := ⟨name, .scalar⟩

/-- The types through which a schema describes itself. -/
def introspectionTypes : List SchemaType :=
  [⟨"__Schema", .object []
      [("description", named "String"),
       ("types", nonNull (list (nonNull (named "__Type")))),
       ("queryType", nonNull (named "__Type")),
       ("mutationType", named "__Type"),
       ("subscriptionType", named "__Type"),
       ("directives", nonNull (list (nonNull (named "__Directive"))))]⟩,
   ⟨"__Directive", .object []
      [("name", nonNull (named "String")),
       ("description", named "String"),
       ("isRepeatable", nonNull (named "Boolean")),
       ("locations", nonNull (list (nonNull (named "__DirectiveLocation")))),
       ("args", nonNull (list (nonNull (named "__InputValue")))),
       ("isDeprecated", nonNull (named "Boolean")),
       ("deprecationReason", named "String")]⟩,
   ⟨"__DirectiveLocation", .enum
      ["QUERY", "MUTATION", "SUBSCRIPTION", "FIELD", "FRAGMENT_DEFINITION", "FRAGMENT_SPREAD",
       "INLINE_FRAGMENT", "VARIABLE_DEFINITION", "FRAGMENT_VARIABLE_DEFINITION", "SCHEMA",
       "SCALAR", "OBJECT", "FIELD_DEFINITION", "ARGUMENT_DEFINITION", "INTERFACE", "UNION",
       "ENUM", "ENUM_VALUE", "INPUT_OBJECT", "INPUT_FIELD_DEFINITION", "DIRECTIVE_DEFINITION"]⟩,
   ⟨"__Type", .object []
      [("kind", nonNull (named "__TypeKind")),
       ("name", named "String"),
       ("description", named "String"),
       ("specifiedByURL", named "String"),
       ("fields", list (nonNull (named "__Field"))),
       ("interfaces", list (nonNull (named "__Type"))),
       ("possibleTypes", list (nonNull (named "__Type"))),
       ("enumValues", list (nonNull (named "__EnumValue"))),
       ("inputFields", list (nonNull (named "__InputValue"))),
       ("ofType", named "__Type"),
       ("isOneOf", named "Boolean")]⟩,
   ⟨"__Field", .object []
      [("name", nonNull (named "String")),
       ("description", named "String"),
       ("args", nonNull (list (nonNull (named "__InputValue")))),
       ("type", nonNull (named "__Type")),
       ("isDeprecated", nonNull (named "Boolean")),
       ("deprecationReason", named "String")]⟩,
   ⟨"__InputValue", .object []
      [("name", nonNull (named "String")),
       ("description", named "String"),
       ("type", nonNull (named "__Type")),
       ("defaultValue", named "String"),
       ("isDeprecated", nonNull (named "Boolean")),
       ("deprecationReason", named "String")]⟩,
   ⟨"__EnumValue", .object []
      [("name", nonNull (named "String")),
       ("description", named "String"),
       ("isDeprecated", nonNull (named "Boolean")),
       ("deprecationReason", named "String")]⟩,
   ⟨"__TypeKind", .enum
      ["SCALAR", "OBJECT", "INTERFACE", "UNION", "ENUM", "INPUT_OBJECT", "LIST", "NON_NULL"]⟩]

/-- The names that a schema may mention without defining them. -/
def standardNames : List String :=
  standardScalars ++ introspectionTypes.map SchemaType.name

/-- The standard type of a name. -/
def standardType? (name : String) : Option SchemaType :=
  if name ∈ standardScalars then some (standardScalar name)
  else introspectionTypes.find? fun t => t.name = name

/-- Whether a name is kept for the introspection system. -/
def isReserved (name : String) : Bool := Text.startsWith ['_', '_'] name.toList

/-- The types together with those that every schema has and the other standard types
they mention. -/
def withStandardTypes (mentioned : List String) (types : List SchemaType) :
    List SchemaType :=
  let isNew (t : SchemaType) : Bool := !(types.any fun other => other.name = t.name)
  let scalars := standardScalars.filter fun name =>
    name = "String" || name = "Boolean" || name ∈ mentioned ||
      types.any fun t => t.mentions.contains name
  types ++ (scalars.map standardScalar).filter isNew ++ introspectionTypes.filter isNew

end Schema

end QueryTypes
