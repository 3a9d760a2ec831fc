/-
Values by name, in the order in which the names were first given.

A mapping is looked at through `List.lookup`: an insertion changes the value of its own name only, and so does an
erasure.
-/
namespace UrlRouter

abbrev Mapping (α : Type) := List (String × α)

/-- The value of a name is replaced where it stands, or added at the end. -/
def insertValue {α : Type} (name : String) (value : α) : Mapping α → Mapping α
  | [] => [(name, value)]
  | (key, old) :: rest =>
    if key = name then (key, value) :: rest else (key, old) :: insertValue name value rest

def eraseValue {α : Type} (name : String) (mapping : Mapping α) : Mapping α := mapping.filter (·.1 != name)

/-- The first mapping with the values of the second put in one after the other. -/
def insertAll {α : Type} (mapping values : Mapping α) : Mapping α :=
  values.foldl (fun mapping (name, value) => insertValue name value mapping) mapping

theorem lookup_insertValue {α : Type} (name key : String) (value : α) (mapping : Mapping α) :
    (insertValue name value mapping).lookup key = if key = name then some value else mapping.lookup key := by
  induction mapping with
  | nil =>
    by_cases h : key = name
    · simp [insertValue, h]
    · have hb : (key == name) = false := beq_eq_false_iff_ne.mpr h
      simp [insertValue, List.lookup_cons, hb, h]
  | cons entry rest ih =>
    obtain ⟨other, old⟩ := entry
    by_cases ho : other = name
    · subst ho
      by_cases h : key = other
      · simp [insertValue, h]
      · have hb : (key == other) = false := beq_eq_false_iff_ne.mpr h
        simp [insertValue, List.lookup_cons, hb, h]
    · by_cases hk : key = other
      · subst hk
        simp [insertValue, ho]
      · have hb : (key == other) = false := beq_eq_false_iff_ne.mpr hk
        simp only [insertValue, ho, if_false, List.lookup_cons, hb, ih]

theorem lookup_filter_ne {κ α : Type} [BEq κ] [LawfulBEq κ] [DecidableEq κ] (name key : κ)
    (entries : List (κ × α)) : (entries.filter (·.1 != name)).lookup key = if key = name then none else entries.lookup key := by
  induction entries with
  | nil => simp
  | cons entry rest ih =>
    obtain ⟨other, old⟩ := entry
    rw [List.filter_cons]
    by_cases ho : other = name
    · subst ho
      rw [if_neg (by simp), ih]
      by_cases h : key = other
      · simp [h]
      · have hb : (key == other) = false := beq_eq_false_iff_ne.mpr h
        simp [List.lookup_cons, hb, h]
    · rw [if_pos (by simpa using ho)]
      by_cases hk : key = other
      · subst hk
        simp [ho]
      · have hb : (key == other) = false := beq_eq_false_iff_ne.mpr hk
        simp only [List.lookup_cons, hb, ih]

theorem lookup_eraseValue {α : Type} (name key : String) (mapping : Mapping α) :
    (eraseValue name mapping).lookup key = if key = name then none else mapping.lookup key :=
  lookup_filter_ne name key mapping

/-- Where no name comes twice, every entry is found under its name. -/
theorem lookup_of_nodup {α : Type} {mapping : Mapping α} (hnodup : (mapping.map (·.1)).Nodup) {key : String}
    {value : α} (h : (key, value) ∈ mapping) : mapping.lookup key = some value := by
  obtain ⟨before, after, hsplit⟩ := List.append_of_mem h
  rw [List.lookup_eq_some_iff]
  refine ⟨before, after, hsplit, fun entry hentry => ?_⟩
  rw [hsplit, List.map_append, List.map_cons] at hnodup
  have hne := (List.nodup_append.1 hnodup).2.2 entry.1 (List.mem_map_of_mem hentry) key List.mem_cons_self
  simpa using Ne.symm hne

end UrlRouter
