/-
Cutting a value off the front of a text.

A value is non-empty and holds no slash. `cuts` lists the ways to cut one off, the longest first, which is the order in
which a greedy run of non-slashes tries them.

Results:
- `mem_cuts`: the cuts are the ways to write the text as a value and what is left.
- `exists_first_cut`: the first cut of some kind is the longest.
- `value_unique`: only one of them leaves what begins with a slash.
-/
import Mathlib.Tactic

namespace UrlRouter.Text

/-- the ways to cut a non-empty text without slashes off the front, the longest first -/
def cuts : List Char → List (List Char × List Char)
  | [] => []
  | c :: rest => if c = '/' then [] else (cuts rest).map (fun (v, left) => (c :: v, left)) ++ [([c], rest)]

theorem mem_cuts {text v left : List Char} : (v, left) ∈ cuts text ↔ text = v ++ left ∧ v ≠ [] ∧ '/' ∉ v := by
  induction text generalizing v with
  | nil => simp +contextual [cuts, eq_comm]
  | cons c rest ih =>
    by_cases hc : c = '/'
    · subst hc
      constructor
      · intro h; simp [cuts] at h
      · rintro ⟨h, hne, hv⟩
        cases v with
        | nil => exact absurd rfl hne
        | cons d v => obtain ⟨rfl, -⟩ := List.cons.inj h; exact absurd List.mem_cons_self hv
    · simp only [cuts, if_neg hc, List.mem_append, List.mem_map, List.mem_singleton, Prod.mk.injEq, Prod.exists]
      constructor
      · rintro (⟨w, l, hw, rfl, rfl⟩ | ⟨rfl, rfl⟩)
        · obtain ⟨rfl, -, hs⟩ := ih.1 hw
          exact ⟨rfl, by simp, by simp [hs, Ne.symm hc]⟩
        · exact ⟨rfl, by simp, by simp [Ne.symm hc]⟩
      · rintro ⟨h, hne, hv⟩
        cases v with
        | nil => exact absurd rfl hne
        | cons d v =>
          obtain ⟨rfl, rfl⟩ := List.cons.inj h
          cases v with
          | nil => exact Or.inr ⟨rfl, rfl⟩
          | cons e v =>
            exact Or.inl ⟨e :: v, left, ih.2 ⟨rfl, by simp, fun h => hv (List.mem_cons_of_mem c h)⟩, rfl, rfl⟩

theorem cuts_pairwise (text : List Char) : (cuts text).Pairwise fun a b => b.1.length < a.1.length := by
  induction text with
  | nil => exact List.Pairwise.nil
  | cons c rest ih =>
    unfold cuts
    split_ifs
    · exact List.Pairwise.nil
    · rw [List.pairwise_append]
      refine ⟨List.pairwise_map.2 (ih.imp fun h => by simpa using h), List.pairwise_singleton _ _, ?_⟩
      intro a ha b hb
      obtain ⟨⟨v, left⟩, hv, rfl⟩ := List.mem_map.1 ha
      obtain rfl := List.mem_singleton.1 hb
      have := List.length_pos_of_ne_nil (mem_cuts.1 hv).2.1
      simp only [List.length_cons, List.length_nil]
      omega

theorem cuts_nil : cuts [] = [] := rfl

/-- The first cut of some kind is as long as any other of this kind, so that it leaves an end of what the other leaves,
with as many slashes. -/
theorem exists_first_cut {text v left : List Char} (h : (v, left) ∈ cuts text) {p : List Char × List Char → Bool}
    (hp : p (v, left) = true) :
    ∃ w rest before after, cuts text = before ++ (w, rest) :: after ∧ p (w, rest) = true ∧
      (∀ cut ∈ before, p cut = false) ∧ rest <:+ left ∧ rest.count '/' = left.count '/' := by
  obtain ⟨⟨w, rest⟩, hfind⟩ : ∃ cut, (cuts text).find? p = some cut := by
    rw [← Option.isSome_iff_exists, List.find?_isSome]
    exact ⟨(v, left), h, hp⟩
  obtain ⟨hw, before, after, hsplit, hbefore⟩ := List.find?_eq_some_iff_append.1 hfind
  have hlonger : v.length ≤ w.length := by
    have hmem := hsplit ▸ h
    have hpair := hsplit ▸ cuts_pairwise text
    rcases List.mem_append.1 hmem with hb | hb
    · have hnot := hbefore _ hb
      rw [hp] at hnot
      cases hnot
    · rcases List.mem_cons.1 hb with hb | hb
      · exact (congrArg (·.1.length) hb).le
      · exact (List.rel_of_pairwise_cons (List.pairwise_append.1 hpair).2.1 hb).le
  obtain ⟨htext, -, hslash⟩ := mem_cuts.1 h
  obtain ⟨htext', -, hslash'⟩ := mem_cuts.1 (List.mem_of_find?_eq_some hfind)
  have hlength := congrArg List.length (htext'.symm.trans htext)
  have hcount := congrArg (List.count '/') (htext'.symm.trans htext)
  simp only [List.length_append, List.count_append, List.count_eq_zero_of_not_mem hslash,
    List.count_eq_zero_of_not_mem hslash', Nat.zero_add] at hlength hcount
  refine ⟨w, rest, before, after, hsplit, hw, fun cut hcut => ?_, ?_, hcount⟩
  · simpa using hbefore cut hcut
  · exact List.suffix_of_suffix_length_le ⟨w, htext'.symm⟩ ⟨v, htext.symm⟩ (by omega)

/-! ## Values that end where their segment ends -/

/-- nothing is left, or a slash comes next -/
def AtSlash (text : List Char) : Prop := text = [] ∨ text.head? = some '/'

theorem takeWhile_value {v left : List Char} (hv : '/' ∉ v) (hleft : AtSlash left) :
    (v ++ left).takeWhile (· ≠ '/') = v := by
  have hinside : ∀ c ∈ v, decide (c ≠ '/') = true := by
    intro c hc
    simpa using fun heq : c = '/' => hv (heq ▸ hc)
  rw [List.takeWhile_append_of_pos hinside]
  have hstop : left.takeWhile (· ≠ '/') = [] := by
    rcases hleft with rfl | hslash
    · rfl
    · obtain ⟨tail, rfl⟩ := List.head?_eq_some_iff.1 hslash
      simp
  rw [hstop, List.append_nil]

/-- A text is cut in one way into a value and what begins with the next slash. -/
theorem value_unique {v w left rest : List Char} (hv : '/' ∉ v) (hw : '/' ∉ w) (hleft : AtSlash left)
    (hrest : AtSlash rest) (h : v ++ left = w ++ rest) : v = w ∧ left = rest := by
  have hvalue : v = w := by
    rw [← takeWhile_value hv hleft, h, takeWhile_value hw hrest]
  subst hvalue
  exact ⟨rfl, List.append_cancel_left h⟩

end UrlRouter.Text
