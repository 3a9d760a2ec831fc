/-
Attributes of a match.

Attributes are gathered by inserting values under their names one after the other. Where no name comes twice, this is
the list of the values that there are.

Results:
- `captureAttributes_eq_filterMap`: the attributes of a named expression are its non-empty captures, in the order of
  its groups.
- `map_fst_decoded`, `decoded_take`: values stand under the names in front of them, and no further ones.
-/
import Mathlib.Tactic
import UrlRouter.Dispatch.Matcher
import UrlRouter.Proofs.Except

namespace UrlRouter

/-! ## Values one after the other -/

theorem insertValue_new {α : Type} {name : String} (value : α) {mapping : Mapping α}
    (h : name ∉ mapping.map (·.1)) : insertValue name value mapping = mapping ++ [(name, value)] := by
  induction mapping with
  | nil => rfl
  | cons entry rest ih =>
    obtain ⟨key, old⟩ := entry
    rw [List.map_cons, List.mem_cons, not_or] at h
    rw [insertValue, if_neg (Ne.symm h.1), ih h.2, List.cons_append]

/-- Values that are inserted under different names stand in the order in which they come. -/
theorem foldl_insertValue {α β : Type} (f : β → Option (String × α)) (entries : List β) (mapping : Mapping α)
    (h : ((mapping ++ entries.filterMap f).map (·.1)).Nodup) :
    entries.foldl (fun mapping entry =>
        match f entry with
        | some (name, value) => insertValue name value mapping
        | none => mapping) mapping = mapping ++ entries.filterMap f := by
  induction entries generalizing mapping with
  | nil => simp
  | cons entry rest ih =>
    rw [List.foldl_cons]
    cases hf : f entry with
    | none =>
      rw [List.filterMap_cons_none hf] at h ⊢
      exact ih mapping h
    | some pair =>
      obtain ⟨name, value⟩ := pair
      rw [List.filterMap_cons_some hf] at h ⊢
      rw [List.map_append, List.map_cons] at h
      have hnew : name ∉ mapping.map (·.1) := fun hmem =>
        (List.nodup_append.1 h).2.2 name hmem name List.mem_cons_self rfl
      have hrest := ih (mapping ++ [(name, value)]) (by
        rw [List.map_append, List.map_append, List.append_assoc]
        exact h)
      simp only [insertValue_new value hnew]
      rw [hrest, List.append_assoc]
      rfl

/-! ## Named expressions -/

/-- the attribute behind a group that took part and is not empty -/
def captured? (m : Regex.Match) (captures : List (String × String)) (group : String × Nat) :
    Option (String × String) :=
  match captures.lookup group.1, m.group? group.2 with
  | some name, some value => if value = "" then none else some (name, Text.percentDecode value)
  | _, _ => none

theorem captured?_name {m : Regex.Match} {captures : List (String × String)} {group : String × Nat}
    {entry : String × String} (h : captured? m captures group = some entry) :
    captures.lookup group.1 = some entry.1 := by
  unfold captured? at h
  split at h
  · rename_i name value hname hvalue
    split_ifs at h
    cases h
    exact hname
  · cases h

/-- A name that stands behind two groups stands twice among the captures. -/
theorem lookup_inj {captures : List (String × String)} (h : (captures.map (·.2)).Nodup) {a b name : String}
    (ha : captures.lookup a = some name) (hb : captures.lookup b = some name) : a = b := by
  obtain ⟨before, after, rfl, -⟩ := List.lookup_eq_some_iff.1 ha
  obtain ⟨before', after', heq, -⟩ := List.lookup_eq_some_iff.1 hb
  have hmem : (b, name) ∈ before ++ (a, name) :: after := by rw [heq]; simp
  rw [List.map_append, List.map_cons] at h
  obtain ⟨-, hrest, hdisjoint⟩ := List.nodup_append.1 h
  rcases List.mem_append.1 hmem with hmem | hmem
  · exact absurd rfl (hdisjoint name (List.mem_map.2 ⟨(b, name), hmem, rfl⟩) name List.mem_cons_self)
  · rcases List.mem_cons.1 hmem with heq | hmem
    · exact (Prod.mk.inj heq).1.symm
    · exact absurd (List.mem_map.2 ⟨(b, name), hmem, rfl⟩) (List.nodup_cons.1 hrest).1

/-- **The attributes of a named expression** are its non-empty captures under the names of their attributes. -/
theorem captureAttributes_eq_filterMap (m : Regex.Match) (regex : Regex) {captures : List (String × String)}
    (hnames : (regex.names.map (·.1)).Nodup) (hcaptures : (captures.map (·.2)).Nodup) :
    captureAttributes m regex captures = regex.names.filterMap (captured? m captures) := by
  have hnodup : ((([] : Mapping String) ++ regex.names.filterMap (captured? m captures)).map (·.1)).Nodup := by
    rw [List.nil_append, List.Nodup, List.pairwise_map, List.pairwise_filterMap]
    rw [List.Nodup, List.pairwise_map] at hnames
    refine hnames.imp fun {a b} hab x hx y hy hxy => hab ?_
    exact lookup_inj hcaptures (captured?_name hx) (hxy ▸ captured?_name hy)
  refine Eq.trans ?_ (foldl_insertValue (captured? m captures) regex.names [] hnodup)
  unfold captureAttributes
  congr 1
  funext mapping group
  obtain ⟨group, n⟩ := group
  simp only [captured?]
  cases captures.lookup group with
  | none => rfl
  | some name =>
    cases m.group? n with
    | none => rfl
    | some value =>
      by_cases hvalue : value = ""
      · simp [hvalue]
      · simp only [if_neg hvalue]

/-! ## Decoded values -/

theorem ofList_eq_empty {chars : List Char} : String.ofList chars = "" ↔ chars = [] := by
  rw [← String.toList_inj, String.toList_ofList]
  rfl

/-- names with decoded values -/
def decoded (names : List String) (values : List (List Char)) : List (String × String) :=
  (names.zip values).map fun pair => (pair.1, Text.percentDecode (String.ofList pair.2))

theorem map_fst_decoded {names : List String} {values : List (List Char)} (h : values.length = names.length) :
    (decoded names values).map (·.1) = names := by
  rw [decoded, List.map_map]
  exact List.map_fst_zip h.ge

theorem value_of_mem_decoded {names : List String} {values : List (List Char)} {entry : String × String}
    (h : entry ∈ decoded names values) : ∃ value ∈ values, entry.2 = Text.percentDecode (String.ofList value) := by
  obtain ⟨⟨name, value⟩, hpair, rfl⟩ := List.mem_map.1 h
  exact ⟨value, (List.of_mem_zip hpair).2, rfl⟩

/-- Only as many names count as there are values. -/
theorem decoded_take (names : List String) {values : List (List Char)} {count : Nat} (h : values.length = count) :
    decoded (names.take count) values = decoded names values := by
  have hzip : (names.take count).zip values = names.zip values := by
    rw [← h]
    have htake : (names.zip values).take values.length = (names.take values.length).zip (values.take values.length) :=
      List.take_zipWith
    rw [List.take_length, List.take_of_length_le (by simp)] at htake
    exact htake.symm
  rw [decoded, decoded, hzip]

end UrlRouter
