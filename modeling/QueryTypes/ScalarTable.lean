import QueryTypes.Keyed

/-!
# TypeScript types of scalars

Which TypeScript type stands for which scalar. The five built-in scalars have a type
from the start, settings may change theirs and add others, and a scalar that nothing
is said about stands for any value.
-/

namespace QueryTypes

/-- The TypeScript types of scalars, by name. -/
structure ScalarTable where
  /-- The types in the order in which their scalars came up. -/
  entries : List (String × String)
  deriving DecidableEq, Inhabited

namespace ScalarTable

/-- The types of the built-in scalars. -/
def builtIn : ScalarTable :=
  ⟨[("ID", "string"), ("String", "string"), ("Boolean", "boolean"), ("Int", "number"),
    ("Float", "number")]⟩

/-- The names of the built-in scalars, in order. -/
def builtInNames : List String := builtIn.entries.map Prod.fst

/-- The type of a scalar that the table does not hold. -/
def fallback : String := "any"

/-- Gives a scalar its type. -/
def register (table : ScalarTable) (name type : String) : ScalarTable :=
  ⟨Keyed.insert name type table.entries⟩

/-- The built-in types with some changes and additions. -/
def withOverrides (overrides : List (String × String)) : ScalarTable :=
  ⟨Keyed.insertAll builtIn.entries overrides⟩

/-- The type of a scalar. -/
def get (table : ScalarTable) (name : String) : String :=
  (Keyed.lookup name table.entries).getD fallback

/-- Whether the table holds a scalar. -/
def has (table : ScalarTable) (name : String) : Bool :=
  Keyed.contains name table.entries

theorem get_register (table : ScalarTable) (name other type : String) :
    (table.register name type).get other = if name = other then type else table.get other := by
  simp only [get, register, Keyed.lookup_insert]
  split <;> rfl

end ScalarTable

end QueryTypes
