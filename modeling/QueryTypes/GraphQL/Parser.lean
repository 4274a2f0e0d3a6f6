import QueryTypes.GraphQL.Token
import QueryTypes.GraphQL.Syntax

/-!
# Parsing GraphQL documents

A recursive-descent parser for the GraphQL grammar, executable and type-system
definitions alike. A parser takes tokens off the front of a list and fails where
the grammar does not go on; why it fails is of no interest here.

Selection sets, lists, objects and list types open levels, and no part of a
document may lie inside more than `QueryTypes.GraphQL.maxNesting` of them. The
`depth` argument of a parser is the number of levels that may still be opened.

`QueryTypes.GraphQL.Document.parse?` reads a whole text: at least one definition,
and nothing after the last.
-/

namespace QueryTypes

namespace GraphQL

/-- The most levels of selection sets and values, or of list types, inside each other. -/
def maxNesting : Nat := 200

/-- Takes tokens off the front of a list, or fails. -/
abbrev Parser (α : Type) := StateT (List Token) Option α

namespace Parser

variable {α : Type}

/-! ### Single tokens -/

/-- The next token, which stays where it is. -/
def peek : Parser (Option Token) := fun tokens => some (tokens.head?, tokens)

/-- The token after the next, which stays where it is. -/
def peekSecond : Parser (Option Token) := fun tokens => some (tokens.tail.head?, tokens)

/-- Takes the next token, whatever it is. -/
def next : Parser Token
  | [] => none
  | token :: rest => some (token, rest)

/-- Takes a token if it is the next one, and says whether it was. -/
def skip (token : Token) : Parser Bool
  | [] => some (false, [])
  | t :: rest => if t = token then some (true, rest) else some (false, t :: rest)

/-- Takes a token that has to be the next one. -/
def expect (token : Token) : Parser Unit
  | [] => none
  | t :: rest => if t = token then some ((), rest) else none

/-- Takes a single-character mark if it is next. -/
def skipMark (c : Char) : Parser Bool := skip (.mark c)

/-- Takes a single-character mark that has to be next. -/
def expectMark (c : Char) : Parser Unit := expect (.mark c)

/-- Takes a keyword if it is next. -/
def skipWord (word : String) : Parser Bool := skip (.name word)

/-- Takes a keyword that has to be next. -/
def expectWord (word : String) : Parser Unit := expect (.name word)

/-- Takes a name. -/
def name : Parser String
  | .name text :: rest => some (text, rest)
  | _ => none

/-! ### Repetition -/

/-- Items up to the closing mark, at least one. -/
def itemsUntil (close : Char) (item : Parser α) : Nat → Parser (List α)
  | 0 => failure
  | bound + 1 => do
    let first ← item
    if ← skipMark close then pure [first]
    else
      let rest ← itemsUntil close item bound
      pure (first :: rest)

/-- Items up to the closing mark, at least one; the tokens bound their number. -/
def items (close : Char) (item : Parser α) : Parser (List α) :=
  fun tokens => itemsUntil close item tokens.length tokens

/-- Items between two marks, at least one. -/
def between (opening close : Char) (item : Parser α) : Parser (List α) := do
  expectMark opening
  items close item

/-- Items between two marks, at least one; or nothing at all. -/
def optional (opening close : Char) (item : Parser α) : Parser (List α) := do
  if ← skipMark opening then items close item else pure []

/-- Items between two marks, of which the opening one is taken already. -/
def many (close : Char) (item : Parser α) : Parser (List α) := do
  if ← skipMark close then pure [] else items close item

/-- Items separated by a mark, at least one. -/
def separatedBy (mark : Char) (item : Parser α) : Nat → Parser (List α)
  | 0 => failure
  | bound + 1 => do
    let first ← item
    if ← skipMark mark then
      let rest ← separatedBy mark item bound
      pure (first :: rest)
    else pure [first]

/-- Items separated by a mark, which may also stand before the first. -/
def delimited (mark : Char) (item : Parser α) : Parser (List α) := do
  let _ ← skipMark mark
  fun tokens => separatedBy mark item tokens.length tokens

/-! ### Values, arguments and directives -/

/-- A value that opens no level. Constant values use no variables. -/
def plainValue (constant : Bool) : Parser Value := do
  match ← next with
  | .mark c => if c = '$' ∧ constant = false then return .variable (← name) else failure
  | .int text => return .int text
  | .float text => return .float text
  | .string text block => return .string text block
  | .name "true" => return .boolean true
  | .name "false" => return .boolean false
  | .name "null" => return .null
  | .name text => return .enum text
  | .spread => failure

/-- A value. A list or an object opens a level. -/
def value (constant : Bool) : Nat → Parser Value
  | 0 => plainValue constant
  | depth + 1 => do
    if ← skipMark '[' then return .list (← many ']' (value constant depth))
    else if ← skipMark '\x7b' then
      return .object (← many '\x7d' do
        let key ← name
        expectMark ':'
        return (key, ← value constant depth))
    else plainValue constant

/-- An argument: a name and its value. -/
def argument (constant : Bool) (depth : Nat) : Parser Argument := do
  let argumentName ← name
  expectMark ':'
  return ⟨argumentName, ← value constant depth⟩

/-- The arguments in parentheses, if there are any. -/
def arguments (constant : Bool) (depth : Nat) : Parser (List Argument) :=
  optional '(' ')' (argument constant depth)

/-- The directives at this place. -/
def directivesUpTo (constant : Bool) (depth : Nat) : Nat → Parser (List Directive)
  | 0 => pure []
  | bound + 1 => do
    if ← skipMark '@' then
      let directiveName ← name
      let given ← arguments constant depth
      let rest ← directivesUpTo constant depth bound
      return ⟨directiveName, given⟩ :: rest
    else return []

/-- The directives at this place; the tokens bound their number. -/
def directives (constant : Bool) (depth : Nat) : Parser (List Directive) :=
  fun tokens => directivesUpTo constant depth tokens.length tokens

/-! ### Types and descriptions -/

/-- A type, non-null if an exclamation mark follows. -/
def orNonNull (type : Parser TypeRef) : Parser TypeRef := do
  let inner ← type
  if ← skipMark '!' then return .nonNull inner else return inner

/-- A reference to a type. A list type opens a level. -/
def typeRef : Nat → Parser TypeRef
  | 0 => orNonNull (TypeRef.named <$> name)
  | depth + 1 => orNonNull do
    if ← skipMark '[' then
      let item ← typeRef depth
      expectMark ']'
      return .list item
    else TypeRef.named <$> name

/-- The description at this place, if there is one. -/
def description : Parser (Option Description)
  | .string text block :: rest => some (some ⟨text, block⟩, rest)
  | tokens => some (none, tokens)

/-! ### Executable definitions -/

/-- The name of a fragment, which cannot be the keyword between it and its type. -/
def fragmentName : Parser String := do
  let text ← name
  if text = "on" then failure else return text

/-- A selection, in which a selection set is read by the last argument. -/
def selection (depth : Nat) (selections : Parser (List Selection)) : Parser Selection := do
  if ← skip .spread then
    if ← skipWord "on" then
      let condition ← name
      let applied ← directives false depth
      return .inlineFragment (some condition) applied (← selections)
    else match ← peek with
      | some (.name _) =>
        let fragment ← name
        return .spread fragment (← directives false depth)
      | _ =>
        let applied ← directives false depth
        return .inlineFragment none applied (← selections)
  else
    let first ← name
    let renamed ← skipMark ':'
    let fieldName ← if renamed then name else pure first
    let given ← arguments false depth
    let applied ← directives false depth
    let below ← do
      if (← peek) = some (.mark '\x7b') then some <$> selections else pure none
    return .field (if renamed then some first else none) fieldName given applied below

/-- A selection set, which may be empty and opens a level. -/
def selectionSet : Nat → Parser (List Selection)
  | 0 => failure
  | depth + 1 => do
    expectMark '\x7b'
    many '\x7d' (selection depth (selectionSet depth))

/-- The declaration of a variable. -/
def variableDefinition (depth : Nat) : Parser VariableDefinition := do
  let about ← description
  expectMark '$'
  let variableName ← name
  expectMark ':'
  let type ← typeRef depth
  let defaultValue ← do
    if ← skipMark '=' then pure (some (← value true depth)) else pure none
  return ⟨about, variableName, type, defaultValue, ← directives true depth⟩

/-- The word that opens an operation. -/
def operationKind : Parser OperationKind := do
  match OperationKind.ofWord? (← name) with
  | some kind => return kind
  | none => failure

/-- An operation that begins with its description or keyword. -/
def operation (depth : Nat) : Parser Operation := do
  let about ← description
  let kind ← operationKind
  let operationName ← match ← peek with
    | some (.name _) => some <$> name
    | _ => pure none
  let declared ← optional '(' ')' (variableDefinition depth)
  let applied ← directives false depth
  return ⟨about, kind, operationName, declared, applied, ← selectionSet depth⟩

/-- A fragment. -/
def fragment (depth : Nat) : Parser Fragment := do
  let about ← description
  expectWord "fragment"
  let fragmentName ← fragmentName
  expectWord "on"
  let condition ← name
  let applied ← directives false depth
  return ⟨about, fragmentName, condition, applied, ← selectionSet depth⟩

/-! ### Type-system definitions -/

/-- The declaration of an argument or input field. -/
def inputValueDefinition (depth : Nat) : Parser InputValueDefinition := do
  let about ← description
  let valueName ← name
  expectMark ':'
  let type ← typeRef depth
  let defaultValue ← do
    if ← skipMark '=' then pure (some (← value true depth)) else pure none
  return ⟨about, valueName, type, defaultValue, ← directives true depth⟩

/-- The declared arguments in parentheses, if there are any. -/
def argumentDefinitions (depth : Nat) : Parser (List InputValueDefinition) :=
  optional '(' ')' (inputValueDefinition depth)

/-- The declaration of a field. -/
def fieldDefinition (depth : Nat) : Parser FieldDefinition := do
  let about ← description
  let fieldName ← name
  let given ← argumentDefinitions depth
  expectMark ':'
  let type ← typeRef depth
  return ⟨about, fieldName, given, type, ← directives true depth⟩

/-- The declaration of an enumeration value. -/
def enumValueDefinition (depth : Nat) : Parser EnumValueDefinition := do
  let about ← description
  let valueName ← name
  if valueName = "true" ∨ valueName = "false" ∨ valueName = "null" then failure
  else return ⟨about, valueName, ← directives true depth⟩

/-- The interfaces that a type implements. -/
def interfaces : Parser (List String) := do
  if ← skipWord "implements" then delimited '&' name else pure []

/-- The members of a union, if they are given. -/
def unionMembers : Parser (List String) := do
  if ← skipMark '=' then delimited '|' name else pure []

/-- What follows the keyword of a type definition: name, directives and body. -/
def typeAfter (keyword : String) (about : Option Description) (depth : Nat) :
    Parser TypeDefinition := do
  let typeName ← name
  match keyword with
  | "scalar" => return ⟨about, typeName, ← directives true depth, .scalar⟩
  | "type" =>
    let parents ← interfaces
    let applied ← directives true depth
    let fields ← optional '\x7b' '\x7d' (fieldDefinition depth)
    return ⟨about, typeName, applied, .object parents fields⟩
  | "interface" =>
    let parents ← interfaces
    let applied ← directives true depth
    let fields ← optional '\x7b' '\x7d' (fieldDefinition depth)
    return ⟨about, typeName, applied, .interface parents fields⟩
  | "union" =>
    let applied ← directives true depth
    return ⟨about, typeName, applied, .union (← unionMembers)⟩
  | "enum" =>
    let applied ← directives true depth
    let values ← optional '\x7b' '\x7d' (enumValueDefinition depth)
    return ⟨about, typeName, applied, .enum values⟩
  | "input" =>
    let applied ← directives true depth
    let fields ← optional '\x7b' '\x7d' (inputValueDefinition depth)
    return ⟨about, typeName, applied, .inputObject fields⟩
  | _ => failure

/-- The root type of one kind of operation. -/
def rootType : Parser (OperationKind × String) := do
  let kind ← operationKind
  expectMark ':'
  return (kind, ← name)

/-- The places where a directive may be applied. -/
def directiveLocations : List String :=
  ["QUERY", "MUTATION", "SUBSCRIPTION", "FIELD", "FRAGMENT_DEFINITION", "FRAGMENT_SPREAD",
   "INLINE_FRAGMENT", "VARIABLE_DEFINITION", "FRAGMENT_VARIABLE_DEFINITION", "SCHEMA", "SCALAR",
   "OBJECT", "FIELD_DEFINITION", "ARGUMENT_DEFINITION", "INTERFACE", "UNION", "ENUM",
   "ENUM_VALUE", "INPUT_OBJECT", "INPUT_FIELD_DEFINITION", "DIRECTIVE_DEFINITION"]

/-- A place where a directive may be applied. -/
def directiveLocation : Parser String := do
  let text ← name
  if text ∈ directiveLocations then return text else failure

/-- What follows the keyword of a directive definition. -/
def directiveAfter (about : Option Description) (depth : Nat) : Parser DirectiveDefinition := do
  expectMark '@'
  let directiveName ← name
  let given ← argumentDefinitions depth
  let applied ← directives true depth
  let repeatable ← skipWord "repeatable"
  expectWord "on"
  return ⟨about, directiveName, given, applied, repeatable, ← delimited '|' directiveLocation⟩

/-- Whether a type definition says anything, as an extension has to. -/
def saysSomething (definition : TypeDefinition) : Bool :=
  !definition.directives.isEmpty || match definition.body with
    | .scalar => false
    | .object parents fields => !parents.isEmpty || !fields.isEmpty
    | .interface parents fields => !parents.isEmpty || !fields.isEmpty
    | .union members => !members.isEmpty
    | .enum values => !values.isEmpty
    | .inputObject fields => !fields.isEmpty

/-- An extension, after its keyword. -/
def extensionAfter (depth : Nat) : Parser Definition := do
  let keyword ← name
  if keyword = "schema" then
    let applied ← directives true depth
    let roots ← optional '\x7b' '\x7d' rootType
    if applied.isEmpty && roots.isEmpty then failure
    else return .schemaExtension ⟨none, applied, roots⟩
  else if keyword = "directive" then
    expectMark '@'
    let directiveName ← name
    let applied ← directives true depth
    if applied.isEmpty then failure else return .directiveExtension ⟨directiveName, applied⟩
  else
    let definition ← typeAfter keyword none depth
    if saysSomething definition then return .typeExtension definition else failure

/-- A definition whose keyword is the next token or the one after its description. -/
def definition (depth : Nat) : Parser Definition := do
  if (← peek) = some (.mark '\x7b') then
    return .operation ⟨none, .query, none, [], [], ← selectionSet depth⟩
  else
    let described := match ← peek with
      | some (.string _ _) => true
      | _ => false
    let keyword ← if described then peekSecond else peek
    match keyword with
    | some (.name word) =>
      if (OperationKind.ofWord? word).isSome then return .operation (← operation depth)
      else if word = "fragment" then return .fragment (← fragment depth)
      else if word = "extend" then
        if described then failure
        else
          expectWord "extend"
          extensionAfter depth
      else
        let about ← description
        expectWord word
        if word = "schema" then
          let applied ← directives true depth
          return .schema ⟨about, applied, ← between '\x7b' '\x7d' rootType⟩
        else if word = "directive" then return .directive (← directiveAfter about depth)
        else return .type (← typeAfter word about depth)
    | _ => failure

/-- The definitions up to the end, at least one. -/
def definitionsUpTo (depth : Nat) : Nat → Parser (List Definition)
  | 0 => failure
  | bound + 1 => do
    let first ← definition depth
    match ← peek with
    | none => return [first]
    | some _ =>
      let rest ← definitionsUpTo depth bound
      return first :: rest

end Parser

/-- The document that a text holds, `none` if it is not in the grammar. -/
def Document.parse? (text : String) : Option Document :=
  match Token.ofString? text with
  | none => none
  | some tokens =>
    (Parser.definitionsUpTo maxNesting (tokens.length + 1) tokens).map
      fun (definitions, _) => ⟨definitions⟩

end GraphQL

end QueryTypes
