/-
Group names of attributes.

An attribute whose name is an identifier is captured under its own name, any other under an alias. No two attributes of
a pattern share a group name.

Results:
- `freshAlias_not_mem`: an alias is the name of no attribute.
- `captureAliases_nodup`: the group names of different attributes differ.
- `isIdentifier_aliasFor`: every group name is an identifier.
-/
import Mathlib.Tactic
import UrlRouter.Pattern.NamedForm
import UrlRouter.Proofs.Pattern.PlainLayout
import UrlRouter.Proofs.Text.Numbered

namespace UrlRouter.Pattern

/-! ## Aliases with underscores in front -/

/-- `candidate` with `k` underscores in front -/
def prefixed (candidate : String) (k : Nat) : String := String.ofList (List.replicate k '_' ++ candidate.toList)

theorem prefixed_succ (candidate : String) (k : Nat) : prefixed ("_" ++ candidate) k = prefixed candidate (k + 1) := by
  simp only [prefixed, List.replicate_succ', String.toList_append, List.append_assoc]
  rfl

theorem prefixed_injective (candidate : String) : Function.Injective (prefixed candidate) := by
  intro k l h
  have hlen := congrArg (fun s : String => s.toList.length) h
  simpa [prefixed] using hlen

theorem freshAlias_eq_prefixed (names : List String) (candidate : String) (limit : Nat) :
    ∃ k ≤ limit, freshAlias names candidate limit = prefixed candidate k ∧
      (freshAlias names candidate limit ∈ names → k = limit) ∧ ∀ j < k, prefixed candidate j ∈ names := by
  induction limit generalizing candidate with
  | zero => exact ⟨0, le_rfl, by simp [freshAlias, prefixed], fun _ => rfl, fun j hj => absurd hj (Nat.not_lt_zero j)⟩
  | succ limit ih =>
    by_cases hmem : names.contains candidate = true
    · obtain ⟨k, hk, heq, hlast, hbefore⟩ := ih ("_" ++ candidate)
      rw [prefixed_succ] at heq
      refine ⟨k + 1, by omega, ?_, ?_, ?_⟩
      · rw [freshAlias, if_pos hmem, heq]
      · rw [freshAlias, if_pos hmem]
        exact fun h => congrArg (· + 1) (hlast h)
      · rintro (_ | j) hj
        · simpa [prefixed] using hmem
        · rw [← prefixed_succ]
          exact hbefore j (by omega)
    · refine ⟨0, Nat.zero_le _, by rw [freshAlias, if_neg hmem]; simp [prefixed], ?_, fun j hj => absurd hj (Nat.not_lt_zero j)⟩
      rw [freshAlias, if_neg hmem]
      exact fun h => absurd (by simpa using h) hmem

/-- With as many tries as there are names, an alias is found that is none of them. -/
theorem freshAlias_not_mem (names : List String) (candidate : String) :
    freshAlias names candidate names.length ∉ names := by
  intro hmem
  obtain ⟨k, -, heq, hlast, hbefore⟩ := freshAlias_eq_prefixed names candidate names.length
  obtain rfl := hlast hmem
  -- all the candidates are names, and there is one more of them
  have hsub : (List.range (names.length + 1)).map (prefixed candidate) ⊆ names := by
    intro name hname
    obtain ⟨j, hj, rfl⟩ := List.mem_map.1 hname
    rcases Nat.lt_succ_iff_lt_or_eq.1 (List.mem_range.1 hj) with hlt | rfl
    · exact hbefore j hlt
    · exact heq ▸ hmem
  have hnodup := (@List.nodup_range (names.length + 1)).map (prefixed_injective candidate)
  have hlen := (hnodup.subperm hsub).length_le
  simp at hlen

/-- What stands behind the underscores of an alias tells the number of the attribute. -/
theorem dropWhile_prefixed (i k : Nat) :
    (prefixed ("_a" ++ toString i) k).toList.dropWhile (· = '_') = 'a' :: Nat.toDigits 10 i := by
  rw [prefixed, String.toList_ofList, String.toList_append, Text.toString_toList]
  rw [List.dropWhile_append_of_pos (by simp)]
  rfl

theorem freshAlias_inj {names : List String} {i j : Nat} {m n : Nat}
    (h : freshAlias names ("_a" ++ toString i) m = freshAlias names ("_a" ++ toString j) n) : i = j := by
  obtain ⟨k, -, hk, -⟩ := freshAlias_eq_prefixed names ("_a" ++ toString i) m
  obtain ⟨l, -, hl, -⟩ := freshAlias_eq_prefixed names ("_a" ++ toString j) n
  have htail := congrArg (fun s : String => s.toList.dropWhile (· = '_')) (hk.symm.trans (h.trans hl))
  simp only [dropWhile_prefixed] at htail
  exact Text.toDigits_inj (List.cons.inj htail).2

theorem isIdentifier_prefixed (i k : Nat) : Text.isIdentifier (prefixed ("_a" ++ toString i) k) = true := by
  have hchars : (prefixed ("_a" ++ toString i) k).toList = '_' :: (List.replicate k '_' ++ 'a' :: Nat.toDigits 10 i) := by
    rw [prefixed, String.toList_ofList, String.toList_append, Text.toString_toList]
    show List.replicate k '_' ++ '_' :: 'a' :: _ = _
    rw [← List.singleton_append, ← List.append_assoc, ← List.replicate_succ', List.replicate_succ]
    rfl
  refine Text.isIdentifier_underscore hchars fun c hc => ?_
  rcases List.mem_append.1 hc with hc | hc
  · rw [List.eq_of_mem_replicate hc]
    decide
  · rcases List.mem_cons.1 hc with rfl | hc
    · decide
    · exact Text.asciiWord_digits i c hc

theorem isIdentifier_freshAlias (names : List String) (i limit : Nat) :
    Text.isIdentifier (freshAlias names ("_a" ++ toString i) limit) = true := by
  obtain ⟨k, -, hk, -⟩ := freshAlias_eq_prefixed names ("_a" ++ toString i) limit
  rw [hk]
  exact isIdentifier_prefixed i k

/-! ## The group names of a pattern -/

theorem isIdentifier_aliasFor (names : List String) (i : Nat) (name : String) :
    Text.isIdentifier (aliasFor names i name) = true := by
  unfold aliasFor
  split_ifs with h
  · exact h
  · exact isIdentifier_freshAlias names i _

theorem aliasFor_inj {names : List String} {i j : Nat} {a b : String} (ha : a ∈ names) (hb : b ∈ names)
    (hne : a ≠ b) (hij : i ≠ j) : aliasFor names i a ≠ aliasFor names j b := by
  unfold aliasFor
  split_ifs with h1 h2 h2
  · exact hne
  · exact fun h => freshAlias_not_mem names _ (h ▸ ha)
  · exact fun h => freshAlias_not_mem names _ (h ▸ hb)
  · exact fun h => hij (freshAlias_inj h)

theorem captureAliases_names (names : List String) : (captureAliases names).map (·.2) = names := by
  rw [captureAliases, List.map_map]
  exact List.zipIdx_map_fst 0 names

/-- **Different attributes have different group names.** -/
theorem captureAliases_nodup {names : List String} (h : names.Nodup) : ((captureAliases names).map (·.1)).Nodup := by
  rw [captureAliases, List.map_map, List.Nodup, List.pairwise_map]
  have hpair : names.zipIdx.Pairwise fun a b => a.1 ≠ b.1 ∧ a.2 ≠ b.2 := by
    refine List.Pairwise.and ?_ ?_
    · rw [← List.pairwise_map (f := Prod.fst) (R := (· ≠ ·)), List.zipIdx_map_fst]
      exact h
    · rw [← List.pairwise_map (f := Prod.snd) (R := (· ≠ ·)), List.zipIdx_map_snd]
      exact List.nodup_range'
  refine hpair.imp_of_mem fun {a b} ha hb hab => ?_
  exact aliasFor_inj (List.fst_mem_of_mem_zipIdx ha) (List.fst_mem_of_mem_zipIdx hb) hab.1 hab.2

theorem isIdentifier_of_mem_captureAliases {names : List String} {capture : String × String}
    (h : capture ∈ captureAliases names) : Text.isIdentifier capture.1 = true := by
  obtain ⟨⟨name, i⟩, -, rfl⟩ := List.mem_map.1 h
  exact isIdentifier_aliasFor names i name

/-- The attribute behind an alias leads back to the alias. -/
theorem aliasOf_captureAliases {names : List String} (h : names.Nodup) {capture : String × String}
    (hmem : capture ∈ captureAliases names) : aliasOf (captureAliases names) capture.2 = capture.1 := by
  obtain ⟨before, after, hsplit⟩ := List.append_of_mem hmem
  have hnames := captureAliases_names names
  rw [hsplit, List.map_append, List.map_cons] at hnames
  rw [← hnames] at h
  have hfirst : before.find? (·.2 == capture.2) = none := by
    rw [List.find?_eq_none]
    intro c hc heq
    have hc' : c.2 = capture.2 := by simpa using heq
    exact (List.nodup_append.1 h).2.2 c.2 (List.mem_map_of_mem hc) capture.2 List.mem_cons_self hc'
  rw [aliasOf, hsplit, List.find?_append, hfirst, List.find?_cons_of_pos (by simp)]
  rfl

/-- The captures of a parsed pattern are the aliases of the names in its layout. -/
theorem layout_of_namedForm {pattern : String} {overrides : Overrides} {form : NamedForm}
    (h : NamedForm.parse pattern overrides = .ok form) :
    ∃ layout, layoutOf pattern = .ok layout ∧ form.captures = captureAliases layout.names := by
  unfold NamedForm.parse at h
  dsimp only at h
  unfold layoutOf
  split_ifs at h ⊢ with hroot hstatic
  · cases h
    exact ⟨_, rfl, rfl⟩
  · cases h
    exact ⟨_, rfl, rfl⟩
  · obtain ⟨layout, hlayout, h⟩ := bind_eq_ok.1 h
    obtain ⟨segments, -, h⟩ := bind_eq_ok.1 h
    obtain ⟨base, -, h⟩ := bind_eq_ok.1 h
    obtain ⟨_, -, h⟩ := bind_eq_ok.1 h
    cases h
    exact ⟨layout, hlayout, rfl⟩

theorem captures_of_parse {pattern : String} {overrides : Overrides} {form : NamedForm}
    (h : NamedForm.parse pattern overrides = .ok form) :
    ∃ names : List String, names.Nodup ∧ form.captures = captureAliases names := by
  obtain ⟨layout, hlayout, hcaptures⟩ := layout_of_namedForm h
  exact ⟨layout.names, (wellFormed_of_layoutOf hlayout).nodup, hcaptures⟩

end UrlRouter.Pattern
