/-
What plain pieces capture.

Where an expression made from plain pieces can match a text in several ways, the places that it reaches go with the ways
to spell a beginning of the text, one by one and in the same order: the value of the `i`th token is what the `i`th group
holds. Optional segments that are nested in each other go with the ways through the chain.

Results:
- `agrees_pieces`, `agrees_chain`: places and ways agree in number, order, values and in what is left.
- `find_of_agrees`: a match of the whole text holds the values of the first way that leaves nothing.
- `find_variant`, `find_layout`: the expression of a plain variant finds the values with which it spells the text, and
  the one expression of a plain layout those of the first variant.
-/
import Mathlib.Tactic
import UrlRouter.Proofs.Pattern.PlainForms
import UrlRouter.Proofs.Pattern.Spelling
import UrlRouter.Proofs.Regex.Places

namespace UrlRouter.Pattern

open Regex (Composite Continuation Item Place nodeOf valueAt)
open Text (cuts mem_cuts)

variable (text : List Char)

/-! ## Places and ways -/

/-- The place `q`, reached from `p`, holds in the `m` groups from number `n` on the values of the way. -/
structure Reads (n m : Nat) (p q : Place) (way : Way) : Prop where
  left : text.drop q.position = way.2
  within : q.position ≤ text.length
  earlier : ∀ g < n, q.span? g = p.span? g
  values : ∀ i < m, valueAt text q (n + i) = way.1[i]?

/-- a place from which no group from number `n` on has been seen -/
structure Fresh (n : Nat) (p : Place) : Prop where
  within : p.position ≤ text.length
  unset : ∀ g ≥ n, p.span? g = none

/-- The search tries places that go with the ways, one by one. -/
def TriesWays (n m : Nat) (p : Place) (search : Continuation → Option Place) (found : List Way) : Prop :=
  ∃ places : List Place, (∀ k, search k = places.findSome? k) ∧ List.Forall₂ (Reads text n m p) places found

/-- Wherever the items are run, the places that they reach go with the ways of `next`; `n` is the number of the first
group, and `m` of them hold values. -/
def Agrees (n m : Nat) (items : List Item) (next : List Char → List Way) : Prop :=
  ∀ p, Fresh text n p → TriesWays text n m p ((nodeOf items).run text.toArray p) (next (text.drop p.position))

variable {text} {n m : Nat} {p : Place}

theorem tries_none : TriesWays text n m p (fun _ => none) [] := ⟨[], fun _ => rfl, .nil⟩

theorem TriesWays.or {search search' : Continuation → Option Place} {found found' : List Way}
    (h : TriesWays text n m p search found) (h' : TriesWays text n m p search' found') :
    TriesWays text n m p (fun k => (search k).or (search' k)) (found ++ found') := by
  obtain ⟨places, hplaces, hreads⟩ := h
  obtain ⟨places', hplaces', hreads'⟩ := h'
  refine ⟨places ++ places', fun k => ?_, List.rel_append hreads hreads'⟩
  show (search k).or (search' k) = _
  rw [List.findSome?_append, hplaces, hplaces']

/-- Searches that are tried one after the other go with all their ways together. -/
theorem tries_flatMap {α : Type} {as : List α} {search : α → Continuation → Option Place} {found : α → List Way}
    (h : ∀ a ∈ as, TriesWays text n m p (search a) (found a)) :
    TriesWays text n m p (fun k => as.findSome? fun a => search a k) (as.flatMap found) := by
  induction as with
  | nil => exact tries_none
  | cons a as ih =>
    have hrest := ih fun b hb => h b (List.mem_cons_of_mem a hb)
    obtain ⟨places, hplaces, hreads⟩ := (h a List.mem_cons_self).or hrest
    refine ⟨places, fun k => ?_, hreads⟩
    rw [← hplaces]
    show (a :: as).findSome? (search · k) = (search a k).or (as.findSome? (search · k))
    rw [List.findSome?_cons]
    cases search a k <;> rfl

theorem TriesWays.imp {n' m' : Nat} {p' : Place} {search search' : Continuation → Option Place} {found : List Way}
    {f : Way → Way} (h : TriesWays text n m p search found) (hsearch : ∀ k, search' k = search k)
    (hreads : ∀ q way, Reads text n m p q way → Reads text n' m' p' q (f way)) :
    TriesWays text n' m' p' search' (found.map f) := by
  obtain ⟨places, hplaces, hfound⟩ := h
  refine ⟨places, fun k => (hsearch k).trans (hplaces k), ?_⟩
  rw [List.forall₂_map_right_iff]
  exact hfound.imp fun q way hq => hreads q way hq

theorem agrees_nil (n : Nat) : Agrees text n 0 [] stop := by
  intro p hp
  refine ⟨[p], fun k => ?_, .cons ⟨rfl, hp.within, fun _ _ => rfl, fun i hi => absurd hi (Nat.not_lt_zero i)⟩ .nil⟩
  rw [List.findSome?_singleton]
  rfl

/-! ## Characters -/

theorem Fresh.forward (hp : Fresh text n p) {count : Nat} (h : p.position + count ≤ text.length) :
    Fresh text n (p.forward count) := ⟨h, hp.unset⟩

theorem agrees_char {items : List Item} {next : List Char → List Way} (c : Char) (h : Agrees text n m items next) :
    Agrees text n m (⟨.char {} (.code c.toNat), .yes⟩ :: items)
      fun text => if text.head? = some c then next text.tail else [] := by
  intro p hp
  have hrun : ∀ k, (nodeOf (⟨.char {} (.code c.toNat), .yes⟩ :: items)).run text.toArray p k =
      if text[p.position]? = some c then (nodeOf items).run text.toArray (p.forward 1) k else none := fun k => by
    rw [Regex.run_nodeOf_cons, Regex.run_code]
  show TriesWays text n m p _ (if (text.drop p.position).head? = some c then next (text.drop p.position).tail else [])
  rw [List.head?_drop]
  split_ifs with hc
  · have hlt := (List.getElem?_eq_some_iff.1 hc).1
    have hrest := h (p.forward 1) (hp.forward hlt)
    rw [show text.drop (p.forward 1).position = (text.drop p.position).tail from (List.tail_drop ..).symm] at hrest
    rw [← List.map_id (next _)]
    refine hrest.imp (fun k => ?_) fun q way hq => ⟨hq.left, hq.within, hq.earlier, hq.values⟩
    rw [hrun, if_pos hc]
  · refine ⟨[], fun k => ?_, .nil⟩
    rw [hrun, if_neg hc]
    rfl

/-- Characters that stand for themselves are tried one after the other. -/
theorem agrees_ordinary {items : List Item} {next : List Char → List Way} (chars : List Char)
    (h : Agrees text n m items next) : Agrees text n m ((Composite.ordinary chars).items n ++ items)
      fun text => if chars <+: text then next (text.drop chars.length) else [] := by
  induction chars with
  | nil => simpa [Composite.ordinary, Composite.items] using h
  | cons c rest ih =>
    have hsame : (fun text : List Char => if c :: rest <+: text then next (text.drop (rest.length + 1)) else []) =
        fun text => if text.head? = some c then
          if rest <+: text.tail then next (text.tail.drop rest.length) else [] else [] := by
      funext text
      cases text with
      | nil => simp
      | cons d tail =>
        by_cases hd : d = c
        · simp [hd, List.cons_prefix_cons]
        · simp [hd, List.cons_prefix_cons, Ne.symm hd]
    rw [List.length_cons, hsame]
    exact agrees_char c ih

/-! ## Tokens -/

/-- the place behind a capture with number `n` of `count` characters -/
def capturedAt (p : Place) (n count : Nat) : Place := ((p.openGroup n).forward count).closeGroup n

theorem span?_capturedAt (p : Place) (n count : Nat) :
    (capturedAt p n count).span? n = some (p.position, p.position + count) := by
  simp [capturedAt, Place.span?, Place.openGroup, Place.closeGroup, Place.forward]

theorem span?_capturedAt_ne (p : Place) {n g : Nat} (count : Nat) (h : g ≠ n) :
    (capturedAt p n count).span? g = p.span? g := by
  rw [capturedAt, Place.span?_closeGroup h]
  exact Place.span?_openGroup h

theorem Fresh.captured (hp : Fresh text n p) {count : Nat} (h : p.position + count ≤ text.length) :
    Fresh text (n + 1) (capturedAt p n count) :=
  ⟨h, fun g hg => (span?_capturedAt_ne p count (by omega)).trans (hp.unset g (by omega))⟩

/-- A value that was captured stands in front of those read afterwards. -/
theorem Reads.withValue {q : Place} {way : Way} {v left : List Char} (hdrop : text.drop p.position = v ++ left)
    (h : Reads text (n + 1) m (capturedAt p n v.length) q way) : Reads text n (1 + m) p q (way.withValue v) := by
  have hn : q.span? n = some (p.position, p.position + v.length) :=
    (h.earlier n (Nat.lt_succ_self n)).trans (span?_capturedAt p n v.length)
  refine ⟨h.left, h.within, fun g hg => ?_, fun i hi => ?_⟩
  · exact (h.earlier g (by omega)).trans (span?_capturedAt_ne p v.length (by omega))
  · cases i with
    | zero => simp [valueAt, hn, hdrop, Way.withValue]
    | succ i =>
      have hi' := h.values i (by omega)
      rw [show n + (i + 1) = n + 1 + i by omega, hi']
      rfl

theorem agrees_token {items : List Item} {next : List Char → List Way} (t : Token) (pieces : List Piece)
    (h : Agrees text (n + 1) m items (waysThen next pieces)) :
    Agrees text n (1 + m) (⟨.group n nonSlashes, .yes⟩ :: items) (waysThen next (.token t :: pieces)) := by
  intro p hp
  have hrun : ∀ k, (nodeOf (⟨.group n nonSlashes, .yes⟩ :: items)).run text.toArray p k =
      (cuts (text.drop p.position)).findSome? fun cut =>
        (nodeOf items).run text.toArray (capturedAt p n cut.1.length) k := by
    intro k
    rw [Regex.run_nodeOf_cons]
    show nonSlashes.run text.toArray (p.openGroup n) _ = _
    rw [nonSlashes, Regex.run_nonSlashes, List.findSome?_map]
    rfl
  have hcuts : ∀ cut ∈ cuts (text.drop p.position),
      TriesWays text n (1 + m) p ((nodeOf items).run text.toArray (capturedAt p n cut.1.length))
        ((waysThen next pieces cut.2).map (Way.withValue cut.1)) := by
    rintro ⟨v, left⟩ hcut
    obtain ⟨hdrop, -, -⟩ := mem_cuts.1 hcut
    have hlen := congrArg List.length hdrop
    rw [List.length_drop, List.length_append] at hlen
    have hle := hp.within
    have hbehind := h (capturedAt p n v.length) (hp.captured (by omega))
    have hleft : text.drop (capturedAt p n v.length).position = left := by
      show text.drop (p.position + v.length) = left
      rw [← List.drop_drop, hdrop, List.drop_left]
    rw [hleft] at hbehind
    exact hbehind.imp (fun _ => rfl) fun q way hq => hq.withValue hdrop
  obtain ⟨places, hplaces, hreads⟩ := tries_flatMap hcuts
  exact ⟨places, fun k => (hrun k).trans (hplaces k), hreads⟩

/-! ## Pieces and chains -/

variable {overrides : Overrides}

/-- **Plain pieces are read as they are spelled**, whatever comes behind them. -/
theorem agrees_pieces {pieces : List Piece} (hpieces : PlainPieces overrides pieces) {items : List Item}
    {next : List Char → List Way} (h : Agrees text (n + tokenCount pieces) m items next) :
    Agrees text n (tokenCount pieces + m) (pieceItems overrides n pieces ++ items) (waysThen next pieces) := by
  induction pieces generalizing n with
  | nil =>
    rw [show tokenCount [] + m = m from Nat.zero_add m]
    exact h
  | cons piece rest ih =>
    cases piece with
    | literal t =>
      rw [pieceItems_literal hpieces, List.append_assoc]
      exact agrees_ordinary t.toList (ih hpieces.rest h)
    | token t =>
      rw [tokenCount_token, ← Nat.add_assoc] at h
      rw [pieceItems_token hpieces, tokenCount_token, Nat.add_assoc]
      exact agrees_token t rest (ih hpieces.rest h)

/-- **A chain is read as deep as it goes**, and groups that were not entered hold nothing. -/
theorem agrees_chain (naming : Token → Option String) {segments : List (List Piece)}
    (hsegments : PlainPieces overrides segments.flatten) (n : Nat) :
    Agrees text n (tokenCount segments.flatten) ((chainOf overrides naming segments).items n)
      (nestedWays segments) := by
  induction segments generalizing n with
  | nil => exact agrees_nil n
  | cons segment rest ih =>
    intro p hp
    rw [List.flatten_cons] at hsegments
    have hsegment := hsegments.of_subset (List.subset_append_left _ _)
    have hinner := agrees_pieces hsegment
      (ih (hsegments.of_subset (List.subset_append_right _ _)) (n + tokenCount segment)) p hp
    have hcount : tokenCount (segment :: rest).flatten = tokenCount segment + tokenCount rest.flatten := by
      rw [List.flatten_cons, tokenCount, List.filterMap_append, List.length_append]
      rfl
    -- the groups that would follow have not been seen
    have hstop : TriesWays text n (tokenCount (segment :: rest).flatten) p (fun k => k p)
        (stop (text.drop p.position)) := by
      refine ⟨[p], fun k => by rw [List.findSome?_singleton], .cons ⟨rfl, hp.within, fun _ _ => rfl, fun i _ => ?_⟩ .nil⟩
      simp [valueAt, hp.unset (n + i) (by omega)]
    rw [← hcount] at hinner
    obtain ⟨places, hplaces, hreads⟩ := hinner.or hstop
    refine ⟨places, fun k => ?_, hreads⟩
    rw [← hplaces, chainOf, Composite.items, Composite.items, items_compositeOf, pieceGroups_of_plain hsegment,
      Regex.run_nodeOf_cons, Regex.run_optional]
    rfl

/-! ## Finding the place at the end of the text -/

theorem Reads.full_iff {q : Place} {way : Way} (h : Reads text n m p q way) :
    decide (q.position = text.length) = way.2.isEmpty := by
  have hwithin := h.within
  rw [Bool.eq_iff_iff, decide_eq_true_iff, List.isEmpty_iff, ← h.left, List.drop_eq_nil_iff]
  omega

/-- The first place at the end of the text belongs to the first way that leaves nothing. -/
theorem find?_of_reads {places : List Place} {found : List Way} (h : List.Forall₂ (Reads text n m p) places found) :
    Option.Rel (fun q vs => ∀ i < m, valueAt text q (n + i) = vs[i]?)
      (places.find? fun q => q.position = text.length) (firstFull found) := by
  induction h with
  | nil => exact .none
  | @cons q way places found hq _ ih =>
    rw [List.find?_cons, firstFull, List.find?_cons, hq.full_iff]
    cases way.2.isEmpty with
    | true => exact .some hq.values
    | false => exact ih

/-- The match holds the values in its groups from the first one on. -/
def Holds (count : Nat) (found : Regex.Match) (values : List (List Char)) : Prop :=
  ∀ i < count, found.group? (1 + i) = values[i]?.map String.ofList

/-- **A match of the whole text** holds the values of the first way that leaves nothing. -/
theorem find_of_agrees {items : List Item} {next : List Char → List Way} (h : Agrees text 1 m items next) {regex : Regex}
    (hroot : regex.root = nodeOf items) :
    Option.Rel (Holds m) (regex.fullMatch? (String.ofList text)) (firstFull (next text)) := by
  obtain ⟨places, hplaces, hreads⟩ := h {} ⟨Nat.zero_le _, fun _ _ => rfl⟩
  rw [Regex.fullMatch?_eq_find? text regex places fun k => by rw [hroot, hplaces]]
  have hfound := find?_of_reads hreads
  rw [show text.drop (({} : Place).position) = text from rfl] at hfound
  revert hfound
  generalize places.find? _ = place, firstFull (next text) = values
  intro hfound
  cases hfound with
  | none => exact .none
  | some hvalues =>
    refine .some fun i hi => ?_
    rw [Regex.group?_eq_valueAt, hvalues i hi]

/-- **A plain variant** finds the values with which its pieces spell the text. -/
theorem find_variant {pieces : List Piece} (h : PlainPieces overrides pieces) (regex : Regex)
    (hroot : regex.root = nodeOf (pieceItems overrides 1 pieces)) (text : List Char) :
    Option.Rel (Holds (tokenCount pieces)) (regex.fullMatch? (String.ofList text)) (reading? pieces text) := by
  have hagrees : Agrees text 1 (tokenCount pieces + 0) (pieceItems overrides 1 pieces ++ []) (waysThen stop pieces) :=
    agrees_pieces h (agrees_nil (1 + tokenCount pieces))
  rw [List.append_nil] at hagrees
  exact find_of_agrees hagrees hroot

/-- A base with a chain of optional segments finds the values of the first variant that spells the text. -/
theorem find_chain (naming : Token → Option String) {base : List Piece} {segments : List (List Piece)}
    (h : PlainPieces overrides (base ++ segments.flatten)) (regex : Regex)
    (hroot : regex.root =
      nodeOf ((compositeOf overrides (fun _ => naming) 0 base (chainOf overrides naming segments)).items 1))
    (text : List Char) :
    Option.Rel (Holds (tokenCount (base ++ segments.flatten))) (regex.fullMatch? (String.ofList text))
      ((base :: Layout.extensions base segments).findSome? (reading? · text)) := by
  have hbase := h.of_subset (List.subset_append_left _ _)
  have hchain : Agrees text (1 + tokenCount base) (tokenCount segments.flatten)
      ((chainOf overrides naming segments).items (1 + tokenCount base)) (nestedWays segments) :=
    agrees_chain naming (h.of_subset (List.subset_append_right _ _)) (1 + tokenCount base)
  have hcount : tokenCount (base ++ segments.flatten) = tokenCount base + tokenCount segments.flatten := by
    rw [tokenCount, List.filterMap_append, List.length_append]
    rfl
  rw [items_compositeOf, pieceGroups_of_plain hbase] at hroot
  rw [← first_nested, hcount]
  exact find_of_agrees (agrees_pieces hbase hchain) hroot

/-- Taking the first slash out of an opening chain does not change which variant comes first, nor its values. -/
theorem findSome?_namedParts {layout : Layout} (h : layout.WellFormed) (text : List Char) :
    ((namedParts layout).1 :: Layout.extensions (namedParts layout).1 (namedParts layout).2).findSome?
        (reading? · text) = layout.variants.findSome? (reading? · text) := by
  unfold namedParts Layout.variants
  cases hstart : layout.optionalStart with
  | false => rfl
  | true =>
    obtain ⟨t, first, rest, hsegments⟩ := h.slash hstart
    have hdrop : String.ofList (("/" ++ t).toList.drop 1) = t := by simp
    have hsame : ∀ next, waysThen next ([.literal "/"] ++ .literal t :: first) =
        waysThen next ([] ++ .literal ("/" ++ t) :: first) := fun next => waysThen_literal_append next "/" t first
    simp only [hsegments, withoutSlash, hdrop, if_true, Layout.extensions, List.findSome?_cons]
    rw [findSome?_extensions_congr _ _ hsame]
    simp only [reading?, ways, hsame stop]

/-- **The one expression of a plain layout** finds the values of the first variant that spells the text. -/
theorem find_layout {layout : Layout} (hwell : layout.WellFormed) (h : layout.IsPlain overrides) (regex : Regex)
    (hroot : regex.root = nodeOf ((namedComposite layout overrides).items 1)) (text : List Char) :
    Option.Rel (Holds layout.tokens.length) (regex.fullMatch? (String.ofList text))
      (layout.variants.findSome? (reading? · text)) := by
  have hchain := find_chain (namedBy (captureAliases layout.names)) (plain_namedParts h) regex hroot text
  rwa [findSome?_namedParts hwell, tokenCount, tokens_namedParts] at hchain

end UrlRouter.Pattern
