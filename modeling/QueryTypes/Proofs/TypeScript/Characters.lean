import QueryTypes.Proofs.TypeScript.Spelling

/-!
# The characters of printed types

What a type expression is printed as, as a list of characters: one equation for each kind of type
(`QueryTypes.TypeScript.TypeExpr.chars_object` for object types) and one for members
(`QueryTypes.TypeScript.Member.chars_mk`). What a list of arguments, types or members is written as
is its first item and the others behind separators.
-/

namespace QueryTypes

namespace TypeScript

/-- The characters of the text of a type expression. -/
def TypeExpr.chars (depth : Int) (type : TypeExpr) : List Char := (type.render depth).toList

/-- The characters of the line of a member. -/
def Member.chars (depth : Int) (member : Member) : List Char := (member.render depth).toList

theorem TypeExpr.renderAll_eq_map (depth : Int) (types : List TypeExpr) :
    TypeExpr.renderAll depth types = types.map (TypeExpr.render depth) := by
  induction types with
  | nil => rw [TypeExpr.renderAll]; rfl
  | cons type rest ih => rw [TypeExpr.renderAll, ih, List.map_cons]

theorem Member.renderAll_eq_map (depth : Int) (members : List Member) :
    Member.renderAll depth members = members.map (Member.render depth) := by
  induction members with
  | nil => rw [Member.renderAll]; rfl
  | cons member rest ih => rw [Member.renderAll, ih, List.map_cons]

/-- The characters of several texts with separators between them. -/
theorem toList_join_map {α : Type} (separator : String) (text : α → String) (first : α)
    (rest : List α) :
    (Text.join separator (text first :: rest.map text)).toList =
      (text first).toList ++ behind separator.toList (fun x => (text x).toList) rest := by
  rw [toList_join, behind, behind, List.flatMap_map]

variable {depth : Int}

namespace TypeExpr

theorem chars_union (first : TypeExpr) (rest : List TypeExpr) :
    chars depth (.union (first :: rest)) =
      first.chars depth ++ behind [' ', '|', ' '] (chars depth) rest := by
  rw [chars, render, renderAll, renderAll_eq_map, toList_join_map]
  rfl

theorem chars_reference (name : String) (first : TypeExpr) (rest : List TypeExpr) :
    chars depth (.reference name (first :: rest)) =
      name.toList ++
        '<' :: (first.chars depth ++ (behind [',', ' '] (chars depth) rest ++ ['>'])) := by
  rw [chars, render, renderAll_eq_map, String.toList_append, String.toList_append,
    String.toList_append, toList_join_map, List.append_assoc, List.append_assoc, List.append_assoc]
  rfl

theorem chars_indexed (name index : String) : chars depth (.indexed name index) =
    name.toList ++ '[' :: ((Text.quoted index).toList ++ [']']) := by
  rw [chars, render, String.toList_append, String.toList_append, String.toList_append,
    List.append_assoc, List.append_assoc, show "[".toList = ['['] from rfl,
    show "]".toList = [']'] from rfl, List.singleton_append]

theorem chars_object (first : Member) (rest : List Member) :
    chars depth (.object (first :: rest)) =
      '\x7b' :: '\n' :: (first.chars (depth + 1) ++
        (behind ['\n'] (Member.chars (depth + 1)) rest ++
          '\n' :: ((indentation depth).toList ++ ['\x7d']))) := by
  rw [chars, render, Member.renderAll_eq_map]
  simp only [String.toList_append, toList_join_map, List.append_assoc]
  rfl

theorem chars_string (value : String) :
    chars depth (.literal (.string value)) = (Text.quoted value).toList := by
  rw [chars, render]
  rfl

theorem chars_integer (value : Int) :
    chars depth (.literal (.integer value)) = (toString value).toList := by
  rw [chars, render]
  rfl

/-- The text of an object type begins with a brace. -/
theorem exists_chars_object (members : List Member) (depth : Int) :
    ∃ rest, chars depth (.object members) = '\x7b' :: rest := by
  cases members with
  | nil => exact ⟨['\x7d'], by rw [chars, render]; rfl⟩
  | cons first rest => exact ⟨_, chars_object first rest⟩

end TypeExpr

theorem Member.chars_mk (key : String) (type : TypeExpr) (optional readonly : Bool) :
    Member.chars depth (.mk key type optional readonly) =
      (indentation depth).toList ++ ((if readonly then "readonly " else "").toList ++
        ((propertyKey key).toList ++ ((if optional then "?" else "").toList ++
          ':' :: ' ' :: (type.chars depth ++ [';'])))) := by
  rw [chars, render]
  simp only [String.toList_append, List.append_assoc]
  rfl

end TypeScript

end QueryTypes
