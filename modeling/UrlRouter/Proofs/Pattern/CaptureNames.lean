/-
The search for a group name, and what the group names of a pattern are good for.

An attribute whose name is no identifier is captured under `_a` and its number, with an underscore put in front for as
long as an attribute is called so. `Lengthens` is that search with nothing that limits it. The search always ends, since
what it passes over are names of other attributes. Names found for different attributes are never compared, and differ
all the same: behind the underscores stands the number of the attribute.

Results:
- `lengthens_iff`: the search ends with one name, after fewer rounds than there are attributes.
- `captureNames_of_nodup`: what holds of the group names of distinct attributes.
- `captures_keep_attributes`: they are read back without loss, from any distinct names and for every pattern.
-/
import Mathlib.Tactic
import UrlRouter.Proofs.Dispatch.Attributes
import UrlRouter.Proofs.Pattern.Aliases

namespace UrlRouter.Pattern

/-! ## The search -/

/-- An underscore is put in front of `candidate` for as long as it is one of `names`; after `rounds` of them `found` is
none. -/
inductive Lengthens (names : List String) : (candidate : String) → (rounds : Nat) → (found : String) → Prop
  | stop {candidate : String} : candidate ∉ names → Lengthens names candidate 0 candidate
  | more {candidate found : String} {rounds : Nat} : candidate ∈ names →
      Lengthens names ("_" ++ candidate) rounds found → Lengthens names candidate (rounds + 1) found

namespace Lengthens

variable {names : List String} {candidate found found' : String} {rounds rounds' : Nat}

theorem unique (h : Lengthens names candidate rounds found) (h' : Lengthens names candidate rounds' found') :
    rounds = rounds' ∧ found = found' := by
  induction h generalizing rounds' found' with
  | stop hfree =>
    cases h' with
    | stop => exact ⟨rfl, rfl⟩
    | more htaken => exact absurd htaken hfree
  | more htaken _ ih =>
    cases h' with
    | stop hfree => exact absurd htaken hfree
    | more _ hrest =>
      obtain ⟨hrounds, hfound⟩ := ih hrest
      exact ⟨congrArg (· + 1) hrounds, hfound⟩

/-- What the search finds is no name. -/
theorem not_mem (h : Lengthens names candidate rounds found) : found ∉ names := by
  induction h with
  | stop hfree => exact hfree
  | more _ _ ih => exact ih

/-- What the search passes over are names. -/
theorem passed (h : Lengthens names candidate rounds found) : ∀ j < rounds, prefixed candidate j ∈ names := by
  induction h with
  | stop => exact fun j hj => absurd hj (Nat.not_lt_zero j)
  | more htaken _ ih =>
    rintro (_ | j) hj
    · simpa [prefixed] using htaken
    · rw [← prefixed_succ]
      exact ih j (Nat.lt_of_succ_lt_succ hj)

/-- The candidates passed over differ from each other, and from any name that is no candidate. -/
theorem rounds_lt (h : Lengthens names candidate rounds found) {name : String} (hname : name ∈ names)
    (hother : ∀ j, prefixed candidate j ≠ name) : rounds < names.length := by
  have hsub : name :: (List.range rounds).map (prefixed candidate) ⊆ names := by
    refine List.cons_subset.2 ⟨hname, fun other hmem => ?_⟩
    obtain ⟨j, hj, rfl⟩ := List.mem_map.1 hmem
    exact h.passed j (List.mem_range.1 hj)
  have hnodup : (name :: (List.range rounds).map (prefixed candidate)).Nodup := by
    refine List.nodup_cons.2 ⟨fun hmem => ?_, List.nodup_range.map (prefixed_injective candidate)⟩
    obtain ⟨j, -, heq⟩ := List.mem_map.1 hmem
    exact hother j heq
  simpa using (hnodup.subperm hsub).length_le

end Lengthens

/-- The limited search is the unlimited one wherever it finds something. -/
theorem lengthens_of_not_mem {names : List String} {candidate : String} {limit : Nat}
    (h : freshAlias names candidate limit ∉ names) :
    ∃ rounds, Lengthens names candidate rounds (freshAlias names candidate limit) := by
  induction limit generalizing candidate with
  | zero => exact ⟨0, .stop h⟩
  | succ limit ih =>
    by_cases htaken : names.contains candidate = true
    · rw [freshAlias, if_pos htaken] at h ⊢
      obtain ⟨rounds, hrounds⟩ := ih h
      exact ⟨rounds + 1, .more (by simpa using htaken) hrounds⟩
    · rw [freshAlias, if_neg htaken] at h ⊢
      exact ⟨0, .stop h⟩

/-- **The search for a group name ends**, after fewer rounds than there are names, and with one result. -/
theorem lengthens_iff {names : List String} {name : String} (hname : name ∈ names)
    (hforeign : Text.isIdentifier name = false) (i : Nat) :
    ∃ rounds < names.length, ∀ n found,
      Lengthens names ("_a" ++ toString i) n found ↔ n = rounds ∧ found = aliasFor names i name := by
  have halias : aliasFor names i name = freshAlias names ("_a" ++ toString i) names.length := by
    rw [aliasFor, if_neg (by simp [hforeign])]
  obtain ⟨rounds, hrounds⟩ := lengthens_of_not_mem (freshAlias_not_mem names ("_a" ++ toString i))
  rw [← halias] at hrounds
  refine ⟨rounds, hrounds.rounds_lt hname fun j heq => ?_, fun n found => ⟨fun h => h.unique hrounds, ?_⟩⟩
  · -- a candidate is an identifier, whatever stands in front of it
    rw [← heq, isIdentifier_prefixed] at hforeign
    cases hforeign
  · rintro ⟨rfl, rfl⟩
    exact hrounds

/-! ## The group names of a pattern -/

/-- What the group names `captures` of the attributes `names` are good for. -/
structure CaptureNames (names : List String) (captures : List (String × String)) : Prop where
  /-- one entry for each attribute, in order -/
  attributes : captures.map (·.2) = names
  distinct : (captures.map (·.1)).Nodup
  identifiers : ∀ capture ∈ captures, Text.isIdentifier capture.1 = true
  own : ∀ capture ∈ captures, Text.isIdentifier capture.2 = true → capture.1 = capture.2
  /-- Any other name is the one result of the search, which ends. -/
  generated : ∀ (i : Nat) (group name : String), captures[i]? = some (group, name) → Text.isIdentifier name = false →
    group ∉ names ∧ ∃ rounds < names.length, ∀ n found,
      Lengthens names ("_a" ++ toString i) n found ↔ n = rounds ∧ found = group
  /-- A mapping that is filled in this order keeps every entry. -/
  kept : insertAll [] captures = captures
  /-- A group name leads back to the one attribute that has it. -/
  back : ∀ group name, captures.lookup group = some name ↔ name ∈ names ∧ aliasOf captures name = group

theorem insertAll_of_nodup {captures : List (String × String)} (h : (captures.map (·.1)).Nodup) :
    insertAll [] captures = captures := by
  have hfilled := foldl_insertValue some captures [] (by rwa [List.nil_append, List.filterMap_some])
  rwa [List.nil_append, List.filterMap_some] at hfilled

theorem getElem?_captureAliases (names : List String) (i : Nat) :
    (captureAliases names)[i]? = names[i]?.map fun name => (aliasFor names i name, name) := by
  rw [captureAliases, List.getElem?_map, List.getElem?_zipIdx, Option.map_map, Nat.zero_add]
  rfl

theorem own_of_mem_captureAliases {names : List String} {capture : String × String} (h : capture ∈ captureAliases names)
    (hidentifier : Text.isIdentifier capture.2 = true) : capture.1 = capture.2 := by
  obtain ⟨⟨name, i⟩, -, rfl⟩ := List.mem_map.1 h
  exact if_pos hidentifier

theorem lookup_captureAliases {names : List String} (h : names.Nodup) (group name : String) :
    (captureAliases names).lookup group = some name ↔ name ∈ names ∧ aliasOf (captureAliases names) name = group := by
  constructor
  · intro hlookup
    obtain ⟨before, after, hsplit, -⟩ := List.lookup_eq_some_iff.1 hlookup
    have hmem : (group, name) ∈ captureAliases names := by rw [hsplit]; simp
    refine ⟨?_, aliasOf_captureAliases h hmem⟩
    rw [← captureAliases_names names]
    exact List.mem_map_of_mem hmem
  · rintro ⟨hname, rfl⟩
    rw [← captureAliases_names names] at hname
    obtain ⟨capture, hmem, rfl⟩ := List.mem_map.1 hname
    rw [aliasOf_captureAliases h hmem]
    exact lookup_of_nodup (captureAliases_nodup h) hmem

theorem captureNames_of_nodup {names : List String} (h : names.Nodup) : CaptureNames names (captureAliases names) where
  attributes := captureAliases_names names
  distinct := captureAliases_nodup h
  identifiers := fun _ => isIdentifier_of_mem_captureAliases
  own := fun _ => own_of_mem_captureAliases
  generated := by
    intro i group name hentry hforeign
    rw [getElem?_captureAliases] at hentry
    obtain ⟨name, hname, heq⟩ := Option.map_eq_some_iff.1 hentry
    cases heq
    obtain ⟨rounds, hrounds, hsearch⟩ := lengthens_iff (List.mem_of_getElem? hname) hforeign i
    exact ⟨((hsearch rounds _).2 ⟨rfl, rfl⟩).not_mem, rounds, hrounds, hsearch⟩
  kept := insertAll_of_nodup (captureAliases_nodup h)
  back := lookup_captureAliases h

/-- **Group names keep the attributes.** Distinct tokens have distinct group names, each of them an identifier and none
of them, unless it is its own, the name of a token; the search for one ends; and from the group names the attributes are
read back. The named form of every pattern that parses has such names for the tokens of the pattern. -/
theorem captures_keep_attributes :
    (∀ tokens : List Token, (tokens.map (·.name)).Nodup →
      CaptureNames (tokens.map (·.name)) (captureAliases (tokens.map (·.name)))) ∧
    ∀ pattern overrides form, NamedForm.parse pattern overrides = .ok form →
      ∃ layout, layoutOf pattern = .ok layout ∧ CaptureNames (layout.tokens.map (·.name)) form.captures := by
  refine ⟨fun tokens => captureNames_of_nodup, fun pattern overrides form h => ?_⟩
  obtain ⟨layout, hlayout, hcaptures⟩ := layout_of_namedForm h
  rw [hcaptures]
  exact ⟨layout, hlayout, captureNames_of_nodup (wellFormed_of_layoutOf hlayout).nodup⟩

/-- Two attributes are called like generated group names, and one like a lengthened one. -/
theorem imitated_aliases_kept :
    captureAliases ["x-y", "_a0", "__a0", "y-z", "_a3"] =
        [("___a0", "x-y"), ("_a0", "_a0"), ("__a0", "__a0"), ("__a3", "y-z"), ("_a3", "_a3")] ∧
      CaptureNames ["x-y", "_a0", "__a0", "y-z", "_a3"] (captureAliases ["x-y", "_a0", "__a0", "y-z", "_a3"]) ∧
      ∃ form, NamedForm.parse "/\x7bx-y\x7d/\x7b_a0\x7d[/\x7b__a0\x7d]" [] = .ok form ∧
        form.captures = [("___a0", "x-y"), ("_a0", "_a0"), ("__a0", "__a0")] ∧
        ∃ layout, layoutOf "/\x7bx-y\x7d/\x7b_a0\x7d[/\x7b__a0\x7d]" = .ok layout ∧
          CaptureNames (layout.tokens.map (·.name)) form.captures := by
  have hparsed : (NamedForm.parse "/\x7bx-y\x7d/\x7b_a0\x7d[/\x7b__a0\x7d]" []).toOption.map (·.captures) =
      some [("___a0", "x-y"), ("_a0", "_a0"), ("__a0", "__a0")] := by decide +kernel
  obtain ⟨form, hform, hcaptures⟩ := Option.map_eq_some_iff.1 hparsed
  have hform := toOption_eq_some.1 hform
  refine ⟨by decide +kernel, ?_, form, hform, hcaptures, captures_keep_attributes.2 _ _ form hform⟩
  exact captures_keep_attributes.1 (["x-y", "_a0", "__a0", "y-z", "_a3"].map fun name => ⟨"", name, none⟩) (by decide)

end UrlRouter.Pattern
