import QueryTypes.Proofs.Shape.NamedTypes

/-!
# Declaring input object types from a worklist

Following fields in rounds is one way to find the input object types that can be reached; another
one is to declare them one at a time. The types that are still to be declared are pending. Declaring
a type notes what its fields refer to, and all that is noted and not declared becomes pending, on
top of what is pending already, so a type may be pending several times; when it comes up again it is
passed over (`QueryTypes.Shape.Worklist.step`).

This comes to an end on every schema, since a type that is declared uses up a type of the schema and
a type that is passed over is pending once less (`QueryTypes.Shape.Worklist.exists_end`). Whatever
has been noted is declared then, so what is declared is what can be reached
(`QueryTypes.Shape.Worklist.Holds.mem_declared_iff`), and both ways declare the same
(`QueryTypes.Shape.Worklist.namedTypeNames_eq`).
-/

namespace QueryTypes

namespace Shape

/-- Input object types that are about to be declared. -/
structure Worklist where
  /-- The types that are still to be declared, the next one first. -/
  pending : List String
  /-- The types that are declared, the latest first. -/
  declared : List String
  /-- What has been referred to so far. -/
  noted : References

namespace Worklist

/-- Before any type is declared, the types that are referred to are pending. The last in the order
of their names is the next. -/
def start (references : References) : Worklist :=
  ⟨(SortedNames.ofList references.inputs).reverse, [], references⟩

/-- Declares a type, with others left on the worklist: what its fields refer to is noted. -/
def declare (schema : Schema) (name : String) (rest : List String) (w : Worklist) : Worklist :=
  let noted := w.noted.append (fieldReferences schema name)
  let declared := name :: w.declared
  let missing := noted.inputs.filter fun other => !declared.contains other
  ⟨(SortedNames.ofList missing).reverse ++ rest, declared, noted⟩

/-- One turn, if anything is pending: the next type is declared, unless it is declared already. -/
def step (schema : Schema) (w : Worklist) : Option Worklist :=
  match w.pending with
  | [] => none
  | name :: rest =>
    if name ∈ w.declared then some { w with pending := rest } else some (w.declare schema name rest)

/-- One turn leads to another worklist. -/
def Turn (schema : Schema) (w next : Worklist) : Prop := w.step schema = some next

variable {schema : Schema} {references : References} {w next last : Worklist}
  {name other : String} {rest : List String}

/-- **What a turn does**: it passes over a type that is declared, or it declares one. -/
theorem Turn.cases (h : Turn schema w next) : ∃ name rest, w.pending = name :: rest ∧
    (name ∈ w.declared ∧ next = { w with pending := rest } ∨
      name ∉ w.declared ∧ next = w.declare schema name rest) := by
  unfold Turn step at h
  split at h
  · cases h
  · next name rest hpending =>
    refine ⟨name, rest, hpending, ?_⟩
    split at h
    · next hd => exact Or.inl ⟨hd, (Option.some.inj h).symm⟩
    · next hd => exact Or.inr ⟨hd, (Option.some.inj h).symm⟩

theorem step_eq_none_iff : w.step schema = none ↔ w.pending = [] := by
  unfold step
  split
  · next hpending => simp [hpending]
  · next hpending => split <;> simp [hpending]

theorem mem_pending_declare_iff : other ∈ (w.declare schema name rest).pending ↔
    (other ∈ w.noted.inputs ∨ LeadsTo schema name other) ∧ other ≠ name ∧ other ∉ w.declared ∨
      other ∈ rest := by
  simp only [declare, List.mem_append, List.mem_reverse, SortedNames.mem_ofList, List.mem_filter,
    References.append, fieldReferences, mem_allInputReferences_iff.2, LeadsTo, Bool.not_eq_true',
    List.contains_eq_mem, decide_eq_false_iff_not, List.mem_cons, not_or]

/-! ### What holds on the way -/

/-- **What every worklist keeps** that started from some references. -/
structure Holds (schema : Schema) (references : References) (w : Worklist) : Prop where
  /-- No type is declared twice. -/
  nodup : w.declared.Nodup
  /-- Pending types have been noted. -/
  pending : w.pending ⊆ w.noted.inputs
  /-- Declared types have been noted. -/
  declared : w.declared ⊆ w.noted.inputs
  /-- What has been noted can be reached. -/
  reached : ∀ name ∈ w.noted.inputs, ReachedInput schema references.inputs name
  /-- What the references refer to at once has been noted. -/
  noted : references.inputs ⊆ w.noted.inputs
  /-- What has been noted is declared or pending. -/
  covered : ∀ name ∈ w.noted.inputs, name ∈ w.declared ∨ name ∈ w.pending
  /-- What declared types lead to has been noted. -/
  followed : ∀ name ∈ w.declared, ∀ other, LeadsTo schema name other → other ∈ w.noted.inputs
  /-- The enumerations that have been noted are those of the references and of declared types. -/
  enums : ∀ name, name ∈ w.noted.enums ↔ name ∈ references.enums ∨
    ∃ input ∈ w.declared, name ∈ inputFieldTypes schema input ∧ schema.IsEnum name

theorem holds_start (schema : Schema) (references : References) :
    Holds schema references (start references) where
  nodup := List.nodup_nil
  pending name hn := SortedNames.mem_ofList.1 (List.mem_reverse.1 hn)
  declared := List.nil_subset _
  reached name hn := ⟨name, hn, .refl⟩
  noted := List.Subset.refl _
  covered name hn := Or.inr (List.mem_reverse.2 (SortedNames.mem_ofList.2 hn))
  followed := nofun
  enums name := by simp [start]

/-- A type that is passed over is declared, so it need not be pending. -/
theorem Holds.pass (h : Holds schema references w) (hpending : w.pending = name :: rest)
    (hd : name ∈ w.declared) : Holds schema references { w with pending := rest } where
  nodup := h.nodup
  pending other ho := h.pending (hpending ▸ List.mem_cons_of_mem _ ho)
  declared := h.declared
  reached := h.reached
  noted := h.noted
  covered other ho := by
    rcases h.covered other ho with hdeclared | ho
    · exact Or.inl hdeclared
    · rw [hpending] at ho
      rcases List.mem_cons.1 ho with rfl | ho
      · exact Or.inl hd
      · exact Or.inr ho
  followed := h.followed
  enums := h.enums

/-- A type that is declared has been noted, so what its fields refer to can be reached. -/
theorem Holds.declare (h : Holds schema references w) (hpending : w.pending = name :: rest)
    (hd : name ∉ w.declared) : Holds schema references (w.declare schema name rest) := by
  have noted : name ∈ w.noted.inputs := h.pending (hpending ▸ List.mem_cons_self ..)
  have mem : ∀ other, other ∈ (w.declare schema name rest).noted.inputs ↔
      other ∈ w.noted.inputs ∨ LeadsTo schema name other := by
    intro other
    simp only [Worklist.declare, References.append, List.mem_append, fieldReferences,
      mem_allInputReferences_iff.2, LeadsTo]
  refine ⟨List.nodup_cons.2 ⟨hd, h.nodup⟩, fun other ho => ?_, fun other ho => ?_,
    fun other ho => ?_, fun other ho => (mem other).2 (Or.inl (h.noted ho)), fun other ho => ?_,
    fun other ho next leads => ?_, fun enum => ?_⟩
  · rcases mem_pending_declare_iff.1 ho with ⟨ho, -⟩ | ho
    · exact (mem other).2 ho
    · exact (mem other).2 (Or.inl (h.pending (hpending ▸ List.mem_cons_of_mem _ ho)))
  · rcases List.mem_cons.1 ho with rfl | ho
    · exact (mem other).2 (Or.inl noted)
    · exact (mem other).2 (Or.inl (h.declared ho))
  · rcases (mem other).1 ho with ho | leads
    · exact h.reached other ho
    · obtain ⟨first, hfirst, path⟩ := h.reached name noted
      exact ⟨first, hfirst, path.tail leads⟩
  · by_cases hdeclared : other ∈ name :: w.declared
    · exact Or.inl hdeclared
    · rw [List.mem_cons, not_or] at hdeclared
      exact Or.inr (mem_pending_declare_iff.2 (Or.inl ⟨(mem other).1 ho, hdeclared⟩))
  · rcases List.mem_cons.1 ho with rfl | ho
    · exact (mem next).2 (Or.inr leads)
    · exact (mem next).2 (Or.inl (h.followed other ho next leads))
  · simp only [Worklist.declare, References.append, List.mem_append, fieldReferences,
      mem_allInputReferences_iff.1, h.enums, List.mem_cons, exists_eq_or_imp]
    rw [or_assoc]
    exact or_congr_right or_comm

/-- **Every turn keeps it.** -/
theorem Holds.turn (h : Holds schema references w) (turn : Turn schema w next) :
    Holds schema references next := by
  obtain ⟨name, rest, hpending, ⟨hd, rfl⟩ | ⟨hd, rfl⟩⟩ := turn.cases
  · exact h.pass hpending hd
  · exact h.declare hpending hd

/-- **It holds of whatever the worklist gets to.** -/
theorem holds_of_run (run : Relation.ReflTransGen (Turn schema) (start references) w) :
    Holds schema references w := by
  induction run with
  | refl => exact holds_start schema references
  | tail _ turn ih => exact ih.turn turn

/-! ### The end -/

/-- A turn declares a type of the schema, or fewer types are pending. -/
theorem Holds.turn_lt (sound : ∀ name ∈ references.inputs, schema.IsInputObject name)
    (h : Holds schema references w) (turn : Turn schema w next) :
    (unknownTypes schema next.declared).length < (unknownTypes schema w.declared).length ∨
      next.declared = w.declared ∧ next.pending.length < w.pending.length := by
  obtain ⟨name, rest, hpending, ⟨-, rfl⟩ | ⟨hd, rfl⟩⟩ := turn.cases
  · refine Or.inr ⟨rfl, ?_⟩
    rw [hpending]
    exact Nat.lt_succ_self _
  · have reached := h.reached name (h.pending (hpending ▸ List.mem_cons_self ..))
    have fewer : (unknownTypes schema ([name] ++ w.declared)).length <
        (unknownTypes schema w.declared).length :=
      length_unknownTypes_lt (List.mem_singleton_self name) (reached.isInputObject sound) hd
    exact Or.inl fewer

/-- **The worklist comes to an end**, on every schema. -/
theorem exists_end {w : Worklist} (sound : ∀ name ∈ references.inputs, schema.IsInputObject name)
    (h : Holds schema references w) :
    ∃ last, Relation.ReflTransGen (Turn schema) w last ∧ last.step schema = none := by
  cases hstep : w.step schema with
  | none => exact ⟨w, .refl, hstep⟩
  | some next =>
    have less := h.turn_lt sound hstep
    obtain ⟨last, run, ends⟩ := exists_end sound (h.turn hstep)
    exact ⟨last, .head hstep run, ends⟩
termination_by ((unknownTypes schema w.declared).length, w.pending.length)
decreasing_by
  rcases less with fewer | ⟨same, shorter⟩
  · exact Prod.Lex.left _ _ fewer
  · rw [same]
    exact Prod.Lex.right _ shorter

/-- **At the end, what is declared is what can be reached.** -/
theorem Holds.mem_declared_iff (h : Holds schema references w) (ends : w.step schema = none) :
    name ∈ w.declared ↔ ReachedInput schema references.inputs name := by
  have all : ∀ other ∈ w.noted.inputs, other ∈ w.declared := fun other ho => by
    refine (h.covered other ho).resolve_right ?_
    rw [step_eq_none_iff.1 ends]
    exact List.not_mem_nil
  refine ⟨fun hn => h.reached name (h.declared hn), ?_⟩
  rintro ⟨first, hfirst, path⟩
  induction path with
  | refl => exact all _ (h.noted hfirst)
  | tail _ leads ih => exact all _ (h.followed _ ih _ leads)

/-- **At the end, the enumerations that have been noted are those that can be reached.** -/
theorem Holds.mem_enums_iff (h : Holds schema references w) (ends : w.step schema = none) :
    name ∈ w.noted.enums ↔ name ∈ reachableEnums schema references := by
  rw [h.enums, mem_reachableEnums_iff]
  simp only [h.mem_declared_iff ends]

/-- **Both ways declare the same.** -/
theorem namedTypeNames_eq (run : Relation.ReflTransGen (Turn schema) (start references) last)
    (ends : last.step schema = none) :
    SortedNames.ofList (last.declared ++ last.noted.enums) = namedTypeNames schema references := by
  have h := holds_of_run run
  refine SortedNames.ofList_congr fun name => ?_
  rw [List.mem_append, List.mem_append, h.mem_declared_iff ends, h.mem_enums_iff ends,
    mem_reachableInputs_iff]

end Worklist

end Shape

end QueryTypes
