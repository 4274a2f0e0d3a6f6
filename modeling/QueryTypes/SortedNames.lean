/-!
# Sorted names

Lists of names in the order of their code points, each name once. Where generated
text lists the members of a set of names, this is the order it uses.
-/

namespace QueryTypes

namespace SortedNames

/-- Puts a name at its place, unless it is there already. -/
def insert (name : String) : List String → List String
  | [] => [name]
  | other :: rest =>
    if name = other then other :: rest
    else if name < other then name :: other :: rest
    else other :: insert name rest

/-- The names of a list in order, each once. -/
def ofList : List String → List String
  | [] => []
  | name :: rest => insert name (ofList rest)

theorem mem_insert {name other : String} {names : List String} :
    other ∈ insert name names ↔ other = name ∨ other ∈ names := by
  induction names with
  | nil => simp [insert]
  | cons x rest ih =>
    unfold insert
    split
    · next h => subst h; simp
    · split
      · simp
      · simp only [List.mem_cons, ih]
        constructor
        · rintro (h | h | h) <;> simp_all
        · rintro (h | h | h) <;> simp_all

/-- Sorting neither adds nor loses a name. -/
@[simp] theorem mem_ofList {name : String} {names : List String} :
    name ∈ ofList names ↔ name ∈ names := by
  induction names with
  | nil => simp [ofList]
  | cons x rest ih => simp [ofList, mem_insert, ih]

end SortedNames

end QueryTypes
