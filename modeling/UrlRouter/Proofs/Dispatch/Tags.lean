/-
The tags of a chunk.

A tag is made of the number of its route in the chunk and the number of its variant in the route, so that it names one
variant only. The expression of a chunk is an alternation with a group for each tag.

Results:
- `variantTagName_inj`: a tag tells both numbers.
- `nodup_tags_markChunk`: the tags of a chunk differ.
- `markChunk_of_variants`: a chunk, given what it holds for each of its variants.
-/
import Mathlib.Tactic
import UrlRouter.Dispatch.Collector
import UrlRouter.Proofs.Regex.Composite
import UrlRouter.Proofs.Text.Numbered

namespace UrlRouter

theorem variantTagName_toList (i j : Nat) :
    (variantTagName i j).toList = '_' :: 'r' :: (Nat.toDigits 10 i ++ '_' :: Nat.toDigits 10 j) := by
  simp [variantTagName]

theorem variantTagName_inj {i j k l : Nat} (h : variantTagName i j = variantTagName k l) : i = k ∧ j = l := by
  have hlist := congrArg String.toList h
  rw [variantTagName_toList, variantTagName_toList] at hlist
  exact Text.digits_pair_inj (List.cons.inj (List.cons.inj hlist).2).2

theorem isIdentifier_variantTagName (i j : Nat) : Text.isIdentifier (variantTagName i j) = true := by
  refine Text.isIdentifier_underscore (variantTagName_toList i j) fun c hc => ?_
  rcases List.mem_cons.1 hc with rfl | hc
  · decide
  rcases List.mem_append.1 hc with hc | hc
  · exact Text.asciiWord_digits i c hc
  rcases List.mem_cons.1 hc with rfl | hc
  · decide
  · exact Text.asciiWord_digits j c hc

/-- **The tags of a chunk differ**: routes by the first number, variants by the second. -/
theorem nodup_tags_markChunk (routes : List (Collected .mark)) : ((markChunk routes).tags.map (·.1)).Nodup := by
  have hindices : ∀ {α : Type} (items : List α), items.zipIdx.Pairwise fun a b => a.2 ≠ b.2 := by
    intro α items
    rw [← List.pairwise_map (f := Prod.snd) (R := (· ≠ ·)), List.zipIdx_map_snd]
    exact List.nodup_range'
  have hname : ∀ i route, ∀ tag ∈ routeTags i route, ∃ j, tag.1 = variantTagName i j := by
    intro i route tag htag
    obtain ⟨⟨_, j⟩, -, rfl⟩ := List.mem_map.1 htag
    exact ⟨j, rfl⟩
  unfold markChunk
  rw [List.map_map, List.Nodup, List.pairwise_map, List.pairwise_flatten]
  constructor
  · intro tags htags
    obtain ⟨⟨route, i⟩, -, rfl⟩ := List.mem_map.1 htags
    show (routeTags i route).Pairwise _
    unfold routeTags
    rw [List.pairwise_map]
    exact (hindices _).imp fun hne heq => hne (variantTagName_inj heq).2
  · rw [List.pairwise_map]
    refine (hindices routes).imp fun hne x hx y hy heq => hne ?_
    obtain ⟨j, hj⟩ := hname _ _ x hx
    obtain ⟨l, hl⟩ := hname _ _ y hy
    exact (variantTagName_inj (hj.symm.trans (heq.trans hl))).1

/-- what a chunk holds for a variant: its tag, its expression and what the tag stands for -/
abbrev TagEntry := String × String × VariantTag

/-- the group of a tag as a chunk writes it -/
def TagEntry.text (entry : TagEntry) : String := "(?P<" ++ entry.1 ++ ">" ++ entry.2.1 ++ ")"

/-- **A chunk is the alternation of its variants**, however these are given. -/
theorem markChunk_of_variants {α : Type} {items : List (Collected .mark)} {variants : List α} {entry : α → TagEntry}
    {text : α → List Char} (htags : (items.zipIdx.map fun pair => routeTags pair.2 pair.1).flatten = variants.map entry)
    (htext : ∀ v, (TagEntry.text (entry v)).toList = text v) :
    markChunk items = ⟨items.map (·.name), String.ofList (Regex.alternationText (variants.map text)),
      variants.map fun v => ((entry v).1, (entry v).2.2)⟩ := by
  have hregex : "(?:" ++ "|".intercalate (variants.map (TagEntry.text ∘ entry)) ++ ")" =
      String.ofList (Regex.alternationText (variants.map text)) := by
    have htexts : String.toList ∘ TagEntry.text ∘ entry = text := funext htext
    apply String.toList_injective
    rw [String.toList_ofList, String.toList_append, String.toList_append, String.toList_intercalate, List.map_map, htexts]
    rfl
  unfold markChunk
  simp only [htags, List.map_map]
  rw [← hregex]
  rfl

end UrlRouter
