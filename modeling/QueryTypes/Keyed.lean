/-!
# Lists of keyed values

A list of pairs of a key and a value, read as a table in which the first entry
of a key counts. Storing under a key that is there replaces its value in place, so
the keys keep the order in which they first came.
-/

namespace QueryTypes

namespace Keyed

variable {κ α : Type} [DecidableEq κ]

/-- The first value stored under a key. -/
def lookup (key : κ) : List (κ × α) → Option α
  | [] => none
  | (name, value) :: rest => if name = key then some value else lookup key rest

/-- Stores a value under a key: at the place of the key if it is there, else last. -/
def insert (key : κ) (value : α) : List (κ × α) → List (κ × α)
  | [] => [(key, value)]
  | (name, old) :: rest =>
    if name = key then (name, value) :: rest else (name, old) :: insert key value rest

/-- Stores one table after another into a table. -/
def insertAll (table : List (κ × α)) : List (κ × α) → List (κ × α)
  | [] => table
  | (name, value) :: rest => insertAll (insert name value table) rest

/-- Whether something is stored under a key. -/
def contains (key : κ) (table : List (κ × α)) : Bool :=
  (lookup key table).isSome

@[simp] theorem lookup_nil (key : κ) : lookup key ([] : List (κ × α)) = none := rfl

@[simp] theorem lookup_cons (key name : κ) (value : α) (rest : List (κ × α)) :
    lookup key ((name, value) :: rest) =
      if name = key then some value else lookup key rest := rfl

theorem lookup_append (key : κ) (xs ys : List (κ × α)) :
    lookup key (xs ++ ys) = (lookup key xs).or (lookup key ys) := by
  induction xs with
  | nil => rfl
  | cons entry rest ih =>
    rw [List.cons_append, lookup, lookup, ih]
    split <;> rfl

theorem lookup_eq_none {key : κ} {table : List (κ × α)} (h : key ∉ table.map Prod.fst) :
    lookup key table = none := by
  induction table with
  | nil => rfl
  | cons entry rest ih =>
    rw [List.map_cons, List.mem_cons, not_or] at h
    rw [lookup, if_neg (Ne.symm h.1), ih h.2]

theorem mem_of_lookup {key : κ} {value : α} {table : List (κ × α)}
    (h : lookup key table = some value) : (key, value) ∈ table := by
  induction table with
  | nil => cases h
  | cons entry rest ih =>
    rw [lookup] at h
    split at h
    · next same =>
      cases h
      rw [← same]
      exact List.mem_cons_self ..
    · exact List.mem_cons_of_mem _ (ih h)

/-- In a table that has each key once, exactly what is stored is found. -/
theorem lookup_eq_some_iff {key : κ} {value : α} {table : List (κ × α)}
    (distinct : (table.map Prod.fst).Nodup) :
    lookup key table = some value ↔ (key, value) ∈ table := by
  refine ⟨mem_of_lookup, fun h => ?_⟩
  induction table with
  | nil => cases h
  | cons entry rest ih =>
    rw [List.map_cons, List.nodup_cons] at distinct
    rw [lookup]
    rcases List.mem_cons.1 h with rfl | h
    · rw [if_pos rfl]
    · have other : entry.1 ≠ key := by
        rintro rfl
        exact distinct.1 (List.mem_map.2 ⟨_, h, rfl⟩)
      rw [if_neg other, ih distinct.2 h]

/-- The order of a table that has each key once does not matter. -/
theorem lookup_eq_of_perm {table other : List (κ × α)} (h : table.Perm other)
    (distinct : (table.map Prod.fst).Nodup) (key : κ) : lookup key table = lookup key other := by
  have distinctOther : (other.map Prod.fst).Nodup := (h.map Prod.fst).nodup_iff.1 distinct
  refine Option.ext fun value => ?_
  rw [lookup_eq_some_iff distinct, lookup_eq_some_iff distinctOther, h.mem_iff]

theorem lookup_insert (key other : κ) (value : α) (table : List (κ × α)) :
    lookup other (insert key value table) =
      if key = other then some value else lookup other table := by
  induction table with
  | nil => simp [insert]
  | cons entry rest ih =>
    obtain ⟨name, old⟩ := entry
    by_cases hk : name = key
    · subst hk
      by_cases ho : name = other <;> simp [insert, ho]
    · by_cases ho : name = other
      · subst ho
        simp [insert, hk, Ne.symm hk]
      · simp [insert, hk, ho, ih]

/-- The keys after storing: one more at the end, unless it is there already. -/
theorem keys_insert (key : κ) (value : α) (table : List (κ × α)) :
    (insert key value table).map Prod.fst =
      if key ∈ table.map Prod.fst then table.map Prod.fst
      else table.map Prod.fst ++ [key] := by
  induction table with
  | nil => simp [insert]
  | cons entry rest ih =>
    obtain ⟨name, old⟩ := entry
    by_cases hk : name = key
    · simp [insert, hk]
    · simp only [insert, hk, if_false, List.map_cons, ih, List.mem_cons, Ne.symm hk, false_or]
      split <;> simp_all

end Keyed

end QueryTypes
