import QueryTypes.GraphQL.Syntax
import QueryTypes.GraphQL.BlockString
import QueryTypes.Text.Quoted

/-!
# Printing GraphQL documents

The text of a document: two blanks of indentation, one selection a line, one
blank line between definitions. A line that would pass 80 characters is broken
where the layout allows it: the arguments of a field, the items of a list and the
fields of an object go one a line.
-/

namespace QueryTypes

namespace GraphQL

/-- The longest line that is not broken. -/
def maxLineLength : Nat := 80

namespace Printer

/-! ### Strings -/

/-- The upper-case hexadecimal digit of a number below sixteen. -/
def upperHexDigit (n : Nat) : Char :=
  if n < 10 then Char.ofNat (48 + n) else Char.ofNat (55 + n)

/-- How one character stands inside a plain string. -/
def stringChar (c : Char) : List Char :=
  if c = '"' then ['\\', '"']
  else if c = '\\' then ['\\', '\\']
  else if c = '\x08' then ['\\', 'b']
  else if c = '\t' then ['\\', 't']
  else if c = '\n' then ['\\', 'n']
  else if c = '\x0c' then ['\\', 'f']
  else if c = '\r' then ['\\', 'r']
  else if c.toNat < 32 ∨ (127 ≤ c.toNat ∧ c.toNat < 160) then
    ['\\', 'u', '0', '0', upperHexDigit (c.toNat / 16), upperHexDigit (c.toNat % 16)]
  else [c]

/-- A plain string. -/
def plainString (text : String) : String :=
  String.ofList ('"' :: (text.toList.flatMap stringChar ++ ['"']))

/-- A string, plain or as a block. -/
def string (text : String) (block : Bool) : String :=
  if block then BlockString.write text else plainString text

/-! ### Layout -/

/-- Items in braces, one a line; nothing if there are none. -/
def block (items : List String) : String :=
  Text.wrap "\x7b\n" (Text.indent (Text.join "\n" items)) "\n\x7d"

/-- A selection set, from the texts of its selections. -/
def selectionSet (items : List String) : String :=
  if items.isEmpty then "\x7b\x7d" else block items

/-- Whether one of the texts has several lines. -/
def anyMultiline (texts : List String) : Bool :=
  texts.any fun text => text.toList.contains '\n'

/-! ### Values, arguments and directives -/

mutual

/-- The text of a value. -/
def value : Value → String
  | .variable name => "$" ++ name
  | .int text => text
  | .float text => text
  | .string text isBlock => string text isBlock
  | .boolean true => "true"
  | .boolean false => "false"
  | .null => "null"
  | .enum name => name
  | .list items =>
    let parts := valueList items
    let line := "[" ++ Text.join ", " parts ++ "]"
    if maxLineLength < line.length then
      "[\n" ++ Text.indent (Text.join "\n" parts) ++ "\n]"
    else line
  | .object fields =>
    let parts := valueFields fields
    let line := "\x7b " ++ Text.join ", " parts ++ " \x7d"
    if maxLineLength < line.length then block parts else line

/-- The texts of the items of a list. -/
def valueList : List Value → List String
  | [] => []
  | item :: rest => value item :: valueList rest

/-- The texts of the fields of an object. -/
def valueFields : List (String × Value) → List String
  | [] => []
  | (name, item) :: rest => (name ++ ": " ++ value item) :: valueFields rest

end

/-- The text of an argument. -/
def argument (a : Argument) : String := a.name ++ ": " ++ value a.value

/-- The text of a directive, with its arguments on one line. -/
def directive (d : Directive) : String :=
  "@" ++ d.name ++ Text.wrap "(" (Text.join ", " (d.arguments.map argument)) ")"

/-- The text of several directives. -/
def directives (ds : List Directive) : String := Text.join " " (ds.map directive)

/-- The text of a reference to a type. -/
def typeRef : TypeRef → String
  | .named name => name
  | .list item => "[" ++ typeRef item ++ "]"
  | .nonNull type => typeRef type ++ "!"

/-- A description on lines of its own. -/
def description : Option Description → String
  | none => ""
  | some d => string d.value d.block ++ "\n"

/-- A default value with the mark before it. -/
def defaultValue : Option Value → String
  | none => ""
  | some v => "= " ++ value v

/-! ### Executable definitions -/

/-- A field up to its arguments, which go one a line if the line would be too long. -/
def fieldHead (responseName : Option String) (name : String) (arguments : List Argument) : String :=
  let label := match responseName with
    | none => name
    | some other => other ++ ": " ++ name
  let given := arguments.map argument
  let line := label ++ Text.wrap "(" (Text.join ", " given) ")"
  if maxLineLength < line.length then
    label ++ Text.wrap "(\n" (Text.indent (Text.join "\n" given)) "\n)"
  else line

mutual

/-- The text of a selection. -/
def selection : Selection → String
  | .field responseName name arguments ds none =>
    Text.joinPresent " " [fieldHead responseName name arguments, directives ds]
  | .field responseName name arguments ds (some below) =>
    Text.joinPresent " "
      [fieldHead responseName name arguments, directives ds, selectionSet (selections below)]
  | .spread fragment ds => "..." ++ fragment ++ Text.wrap " " (directives ds) ""
  | .inlineFragment condition ds below =>
    Text.joinPresent " "
      ["...", Text.wrap "on " (condition.getD "") "", directives ds,
        selectionSet (selections below)]

/-- The texts of several selections. -/
def selections : List Selection → List String
  | [] => []
  | s :: rest => selection s :: selections rest

end

/-- The declaration of a variable. -/
def variableDefinition (v : VariableDefinition) : String :=
  description v.description ++ "$" ++ v.name ++ ": " ++ typeRef v.type ++
    Text.wrap " " (defaultValue v.defaultValue) "" ++ Text.wrap " " (directives v.directives) ""

/-- The declared variables in parentheses. -/
def variableDefinitions (vs : List VariableDefinition) : String :=
  let parts := vs.map variableDefinition
  if anyMultiline parts then Text.wrap "(\n" (Text.join "\n" parts) "\n)"
  else Text.wrap "(" (Text.join ", " parts) ")"

/-- The text of an operation. A query with nothing before its selections is written
by them alone. -/
def operation (o : Operation) : String :=
  let head := description o.description ++
    Text.joinPresent " "
      [o.kind.word, o.name.getD "" ++ variableDefinitions o.variableDefinitions,
        directives o.directives]
  (if head = "query" then "" else head ++ " ") ++ selectionSet (selections o.selections)

/-- The text of a fragment. -/
def fragment (f : Fragment) : String :=
  description f.description ++ "fragment " ++ f.name ++ " on " ++ f.condition ++ " " ++
    Text.wrap "" (directives f.directives) " " ++ selectionSet (selections f.selections)

/-! ### Type-system definitions -/

/-- The declaration of an argument or input field. -/
def inputValueDefinition (v : InputValueDefinition) : String :=
  description v.description ++
    Text.joinPresent " "
      [v.name ++ ": " ++ typeRef v.type, defaultValue v.defaultValue, directives v.directives]

/-- The declared arguments in parentheses. -/
def argumentDefinitions (vs : List InputValueDefinition) : String :=
  let parts := vs.map inputValueDefinition
  if anyMultiline parts then Text.wrap "(\n" (Text.indent (Text.join "\n" parts)) "\n)"
  else Text.wrap "(" (Text.join ", " parts) ")"

/-- The declaration of a field. -/
def fieldDefinition (f : FieldDefinition) : String :=
  description f.description ++ f.name ++ argumentDefinitions f.arguments ++ ": " ++
    typeRef f.type ++ Text.wrap " " (directives f.directives) ""

/-- The declaration of an enumeration value. -/
def enumValueDefinition (v : EnumValueDefinition) : String :=
  description v.description ++ Text.joinPresent " " [v.name, directives v.directives]

/-- A type definition after its description. -/
def typeAfterDescription (t : TypeDefinition) : String :=
  let parents (names : List String) := Text.wrap "implements " (Text.join " & " names) ""
  let applied := directives t.directives
  Text.joinPresent " " <| match t.body with
    | .scalar => ["scalar", t.name, applied]
    | .object names fields =>
      ["type", t.name, parents names, applied, block (fields.map fieldDefinition)]
    | .interface names fields =>
      ["interface", t.name, parents names, applied, block (fields.map fieldDefinition)]
    | .union names => ["union", t.name, applied, Text.wrap "= " (Text.join " | " names) ""]
    | .enum values => ["enum", t.name, applied, block (values.map enumValueDefinition)]
    | .inputObject fields =>
      ["input", t.name, applied, block (fields.map inputValueDefinition)]

/-- The root type of one kind of operation. -/
def rootType (root : OperationKind × String) : String := root.1.word ++ ": " ++ root.2

/-- A schema definition after its description. -/
def schemaAfterDescription (s : SchemaDefinition) : String :=
  Text.joinPresent " " ["schema", directives s.directives, block (s.roots.map rootType)]

/-- The definition of a directive. -/
def directiveDefinition (d : DirectiveDefinition) : String :=
  description d.description ++ "directive @" ++ d.name ++ argumentDefinitions d.arguments ++
    Text.wrap " " (directives d.directives) "" ++ (if d.repeatable then " repeatable" else "") ++
    " on " ++ Text.join " | " d.locations

/-- The extension of a directive. -/
def directiveExtension (d : DirectiveExtension) : String :=
  Text.joinPresent " " ["extend directive @" ++ d.name, directives d.directives]

/-- The text of a definition. -/
def definition : Definition → String
  | .operation o => operation o
  | .fragment f => fragment f
  | .schema s => description s.description ++ schemaAfterDescription s
  | .schemaExtension s => "extend " ++ schemaAfterDescription s
  | .type t => description t.description ++ typeAfterDescription t
  | .typeExtension t => "extend " ++ typeAfterDescription t
  | .directive d => directiveDefinition d
  | .directiveExtension d => directiveExtension d

end Printer

/-- The text of a document. -/
def Document.print (document : Document) : String :=
  Text.join "\n\n" (document.definitions.map Printer.definition)

end GraphQL

end QueryTypes
