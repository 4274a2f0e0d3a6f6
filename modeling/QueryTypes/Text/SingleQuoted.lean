import QueryTypes.Text.Printable
import QueryTypes.Text.Quoted

/-!
# Names in messages

A message shows a name between single quotes, or between double quotes if the
name holds a single quote and no double quote. The backslash, the quote in use
and everything that does not print are escaped.
-/

namespace QueryTypes

namespace Text

/-- How one character stands between the given quotes. -/
def quotedNameChar (quote c : Char) : List Char :=
  if c = quote ∨ c = '\\' then ['\\', c]
  else if c = '\n' then ['\\', 'n']
  else if c = '\r' then ['\\', 'r']
  else if c = '\t' then ['\\', 't']
  else if isPrintable c then [c]
  else if c.toNat < 0x100 then '\\' :: 'x' :: hexDigits 2 c.toNat
  else if c.toNat < 0x10000 then '\\' :: 'u' :: hexDigits 4 c.toNat
  else '\\' :: 'U' :: hexDigits 8 c.toNat

/-- The quote that a name is put between. -/
def quoteFor (name : List Char) : Char :=
  if '\x27' ∈ name ∧ '"' ∉ name then '"' else '\x27'

/-- A name as a message shows it. -/
def quotedName (name : String) : String :=
  let quote := quoteFor name.toList
  String.ofList (quote :: (name.toList.flatMap (quotedNameChar quote) ++ [quote]))

end Text

end QueryTypes
