/-
The variants of a chunk side by side.

A chunk is one alternation, with a named group around each variant of its routes. When its expression compiles, each of
these groups has been read to the end: it holds the pieces of its variant with the groups around the tokens, and as many
groups as the tokens and their constraints make. So the number of a tag follows from the variants before it.

Results:
- `comes_variant`, `comes_choice`: reading one variant, and all of them, goes as they are written or fails.
- `compile_choice`: what an alternation of variants is compiled to.
-/
import Mathlib.Tactic
import UrlRouter.Proofs.Dispatch.Tags
import UrlRouter.Proofs.Pattern.TokenGroups

namespace UrlRouter

open Pattern (Laid Piece Readable Token groupText groupedText ownGroups variantText)
open Regex (Node Reader alternationText captureNames choiceText groupsOf numbersFrom)

/-! ## Variants with tags -/

/-- a variant of a route in a chunk; the routes are numbered from zero, and the variants of each -/
structure ChunkVariant where
  route : Route
  index : Nat
  variant : Nat
  pieces : List Piece

namespace ChunkVariant

def tag (v : ChunkVariant) : String := variantTagName v.index v.variant

def tokens (v : ChunkVariant) : List Token := v.pieces.filterMap Piece.token?

/-- how many groups there are within the group of the tag -/
def groups (v : ChunkVariant) : Nat := groupsOf (ownGroups v.route.tokens) v.tokens

/-- the numbers of the groups around the tokens, the first of them being number `n` -/
def numbers (v : ChunkVariant) (n : Nat) : List Nat := numbersFrom (ownGroups v.route.tokens) n v.tokens

/-- the group of the tag as it is written -/
def text (v : ChunkVariant) : List Char :=
  groupText (some v.tag) ((variantText v.route.tokens v.pieces).toList ++ [')'])

/-- The node is the group of this number, around the pieces of the variant. -/
def ReadAs (v : ChunkVariant) (number : Nat) (node : Node) : Prop :=
  ∃ parts, node = .group number (.ofList parts) ∧ Laid v.route.tokens v.pieces (v.numbers (number + 1)) parts

/-- variants with the numbers of their groups, the first being number `n` -/
def numbered (n : Nat) (variants : List ChunkVariant) : List (ChunkVariant × Nat) :=
  variants.zip (numbersFrom groups n variants)

/-- The nodes are the groups of the variants, the first of which has number `n`. -/
def AllReadAs (n : Nat) (variants : List ChunkVariant) (nodes : List Node) : Prop :=
  List.Forall₂ (fun entry node => entry.1.ReadAs entry.2 node) (numbered n variants) nodes

/-- the tags with the numbers of their groups -/
def tagNumbers (n : Nat) (variants : List ChunkVariant) : List (String × Nat) :=
  (numbered n variants).map fun entry => (entry.1.tag, entry.2)

theorem map_fst_tagNumbers (n : Nat) (variants : List ChunkVariant) :
    (tagNumbers n variants).map (·.1) = variants.map tag := by
  have hfst : (numbered n variants).map (·.1) = variants :=
    List.map_fst_zip (Regex.length_numbersFrom n variants).ge
  rw [tagNumbers, List.map_map]
  conv_rhs => rw [← hfst, List.map_map]
  rfl

theorem AllReadAs.length_eq {n : Nat} {variants : List ChunkVariant} {nodes : List Node} (h : AllReadAs n variants nodes) :
    nodes.length = variants.length := by
  rw [← List.Forall₂.length_eq h, numbered, List.length_zip, Regex.length_numbersFrom, Nat.min_self]

/-- The group of a variant comes behind the groups of the variants before it and those inside them. -/
theorem AllReadAs.exists_node {n : Nat} {variants : List ChunkVariant} {nodes : List Node} (h : AllReadAs n variants nodes)
    {j : Nat} {v : ChunkVariant} (hv : variants[j]? = some v) :
    ∃ node, nodes[j]? = some node ∧ (v.tag, n + groupsOf groups (variants.take j)) ∈ tagNumbers n variants ∧
      v.ReadAs (n + groupsOf groups (variants.take j)) node := by
  have hj := (List.getElem?_eq_some_iff.1 hv).1
  have hentry : (numbered n variants)[j]? = some (v, n + groupsOf groups (variants.take j)) :=
    List.getElem?_zip_eq_some.2 ⟨hv, Regex.getElem?_numbersFrom hj n⟩
  obtain ⟨hbound, hat⟩ := List.getElem?_eq_some_iff.1 hentry
  have hnode := List.Forall₂.get h hbound (h.length_eq.symm ▸ hj)
  rw [List.get_eq_getElem, hat] at hnode
  exact ⟨_, List.getElem?_eq_getElem _, List.mem_map.2 ⟨_, List.mem_of_getElem? hentry, rfl⟩, hnode⟩

/-- An alternation of variants goes on with the parenthesis of a group. -/
theorem follow_choiceText (v : ChunkVariant) (rest : List ChunkVariant) (behind : List Char) :
    Regex.Follow (Regex.Token.ofChars (Regex.choiceText ((v :: rest).map text) ++ behind)) := by
  have hopen : ∃ more, Regex.choiceText ((v :: rest).map text) ++ behind = '(' :: more := by
    cases rest with
    | nil => exact ⟨_, rfl⟩
    | cons w rest => exact ⟨_, by rw [List.map_cons, List.map_cons, Regex.choiceText_cons, text, groupText]; rfl⟩
  obtain ⟨more, hmore⟩ := hopen
  rw [hmore]
  exact Regex.follow_ofChars (by decide) (by decide) (by decide) more

end ChunkVariant

open ChunkVariant (AllReadAs tagNumbers)

/-! ## Reading -/

/-- A variant is read as the group of its tag, or reading fails within it. -/
theorem comes_variant {v : ChunkVariant} (hv : Readable v.route.tokens v.pieces) {r : Reader} (hr : r.InOrder)
    (hmode : r.frame.mode = {}) (hflags : r.globalFlags = [])
    (hnodup : ((r.names ++ [(v.tag, r.groupBound)]).map (·.1)).Nodup) {behind : List Char}
    (hbehind : Regex.Follow (Regex.Token.ofChars behind)) (hrest : r.rest = Regex.Token.ofChars (v.text ++ behind)) :
    r.Comes fun s => ∃ node, v.ReadAs r.groupBound node ∧
      r.Takes s (Regex.Token.ofChars behind) [node] (1 + v.groups) [(v.tag, r.groupBound)] := by
  have hclose : Regex.Token.ofChars (')' :: behind) = .plain ')' :: Regex.Token.ofChars behind :=
    Regex.ofChars_cons (by decide) behind
  have hclosing := Regex.follow_ofChars (c := ')') (by decide) (by decide) (by decide) behind
  have hvariant : (variantText v.route.tokens v.pieces).toList =
      groupedText v.route.tokens (fun _ _ => none) 0 v.pieces := Pattern.toList_variantText 0 v.pieces
  have hfollow := Pattern.follow_grouped hv (fun _ _ => none) 0 hclosing
  rw [← hvariant] at hfollow
  have hinner : ∀ s : Reader, s.InOrder →
      r.Opens s (some v.tag) (Regex.Token.ofChars ((variantText v.route.tokens v.pieces).toList ++ ')' :: behind)) →
      s.Comes fun t => ∃ body, v.ReadAs r.groupBound (.group r.groupBound body) ∧
        s.Fills t (Regex.Token.ofChars behind) body v.groups := by
    intro s hs hopens
    have hadmits : Pattern.Admits v.route.tokens (fun _ _ => none) 0 v.pieces s := by
      refine ⟨hv, hs, by rw [hopens.frame], hopens.flags.trans hflags, ?_⟩
      rw [Pattern.namesFrom_none, List.append_nil, hopens.names]
      exact hnodup
    have hpieces := Pattern.comes_pieces (fun _ _ _ hname => by cases hname) hclosing v.pieces 0 s hadmits
      (by rw [hopens.rest, hvariant])
    refine hpieces.mono ?_
    rintro t ⟨parts, hlaid, htakes⟩
    rw [Pattern.namesFrom_none, hclose] at htakes
    rw [Reader.groupBound, hopens.widths] at hlaid
    exact ⟨.ofList parts, ⟨parts, rfl, hlaid⟩, htakes.fills hopens.frame⟩
  have hgroup : r.Comes fun s => ∃ body, v.ReadAs r.groupBound (.group r.groupBound body) ∧
      r.Takes s (Regex.Token.ofChars behind) [.group r.groupBound body] (1 + v.groups)
        (captureNames (some v.tag) r.groupBound) :=
    Regex.comes_capture hr (fun name hname => by cases hname; exact isIdentifier_variantTagName v.index v.variant)
      (fun name hname => by cases hname; exact Regex.lookup_eq_none_of_nodup hnodup) hmode hfollow.back hfollow.question
      hbehind.back (by simp [hrest, ChunkVariant.text, groupText]) hinner
  refine hgroup.mono ?_
  rintro s ⟨body, hbody, htakes⟩
  exact ⟨_, hbody, htakes⟩

/-- whether variants can be read in this state, which is that of a group without a capture -/
structure AdmitsAll (r : Reader) (variants : List ChunkVariant) : Prop where
  readable : ∀ v ∈ variants, Readable v.route.tokens v.pieces
  inOrder : r.InOrder
  kind : r.frame.kind = .plain
  items : r.frame.items = []
  mode : r.frame.mode = {}
  flags : r.globalFlags = []
  nodup : ((r.names ++ tagNumbers r.groupBound variants).map (·.1)).Nodup

/-- Between the states `r` and `s` a variant was read, and the bar behind it. -/
structure Passed (r s : Reader) (v : ChunkVariant) (node : Node) : Prop where
  done : s.frame.done = node :: r.frame.done
  outer : s.outer = r.outer
  widths : s.widths.length = r.widths.length + (1 + v.groups)
  names : s.names = r.names ++ [(v.tag, r.groupBound)]

theorem Passed.groupBound {r s : Reader} {v : ChunkVariant} {node : Node} (h : Passed r s v node) :
    s.groupBound = r.groupBound + 1 + v.groups := by
  simp only [Reader.groupBound, h.widths]
  omega

/-- Behind a variant that is not the last one stands a bar, and behind it the other variants can be read. -/
theorem reaches_next {v w : ChunkVariant} {rest : List ChunkVariant} {r s : Reader} {node : Node}
    (hr : AdmitsAll r (v :: w :: rest)) (hs : s.InOrder)
    (htakes : r.Takes s (Regex.Token.ofChars ('|' :: (choiceText ((w :: rest).map (·.text)) ++ [')']))) [node]
      (1 + v.groups) [(v.tag, r.groupBound)]) :
    ∃ u, s.Reaches u ∧ u.rest = Regex.Token.ofChars (choiceText ((w :: rest).map (·.text)) ++ [')']) ∧
      AdmitsAll u (w :: rest) ∧ Passed r u v node := by
  have hkind : s.frame.kind = .plain := by rw [htakes.frame]; exact hr.kind
  have hbar : s.rest = .plain '|' :: Regex.Token.ofChars (choiceText ((w :: rest).map (·.text)) ++ [')']) :=
    htakes.rest.trans (Regex.ofChars_cons (by decide) _)
  have hstep := Regex.reaches_bar hbar (ChunkVariant.follow_choiceText w rest [')']).back hkind
  set u : Reader := ({ s with
    rest := Regex.Token.ofChars (choiceText ((w :: rest).map (·.text)) ++ [')'])
    position := s.position + (Regex.Token.plain '|').length } : Reader).parted with hu
  have hdone : s.frame.alternative :: s.frame.done = node :: r.frame.done := by
    rw [htakes.frame]
    simp [Regex.Frame.alternative, hr.items, Node.ofList]
  have hpassed : Passed r u v node := ⟨hdone, htakes.outer, htakes.widths, htakes.names⟩
  refine ⟨u, hstep, rfl, ⟨fun x hx => hr.readable x (List.mem_cons_of_mem v hx), hs.reached hstep, hkind, rfl,
    htakes.mode.trans hr.mode, htakes.flags.trans hr.flags, ?_⟩, hpassed⟩
  have hnodup : ((r.names ++ ([(v.tag, r.groupBound)] ++
      tagNumbers (r.groupBound + 1 + v.groups) (w :: rest))).map (·.1)).Nodup := hr.nodup
  rw [hpassed.groupBound, hpassed.names, List.append_assoc]
  exact hnodup

/-- Between the states `r` and `s` variants were read, up to the parenthesis that closes the alternation. -/
structure Chosen (r s : Reader) (variants : List ChunkVariant) (nodes : List Node) : Prop where
  readAs : AllReadAs r.groupBound variants nodes
  rest : s.rest = [.plain ')']
  kind : s.frame.kind = .plain
  body : s.frame.body = .ofAlternatives (r.frame.done.reverse ++ nodes)
  outer : s.outer = r.outer
  widths : s.widths.length = r.widths.length + groupsOf ChunkVariant.groups variants
  names : s.names = r.names ++ tagNumbers r.groupBound variants

theorem Chosen.cons {r s u : Reader} {v : ChunkVariant} {variants : List ChunkVariant} {node : Node} {nodes : List Node}
    (hnode : v.ReadAs r.groupBound node) (hpassed : Passed r u v node) (h : Chosen u s variants nodes) :
    Chosen r s (v :: variants) (node :: nodes) where
  readAs := by
    have hreadAs := h.readAs
    rw [hpassed.groupBound] at hreadAs
    exact List.Forall₂.cons hnode hreadAs
  rest := h.rest
  kind := h.kind
  body := by
    rw [h.body, hpassed.done]
    simp
  outer := h.outer.trans hpassed.outer
  widths := by rw [h.widths, hpassed.widths, Regex.groupsOf_cons, Nat.add_assoc]
  names := by
    rw [h.names, hpassed.names, hpassed.groupBound, List.append_assoc]
    rfl

/-- **Reading the variants of a chunk** goes through them from left to right, or fails. -/
theorem comes_choice (v : ChunkVariant) (rest : List ChunkVariant) :
    ∀ r : Reader, AdmitsAll r (v :: rest) → r.rest = Regex.Token.ofChars (choiceText ((v :: rest).map (·.text)) ++ [')']) →
      r.Comes fun s => ∃ nodes, Chosen r s (v :: rest) nodes := by
  induction rest generalizing v with
  | nil =>
    intro r hr hrest
    have hclose : Regex.Token.ofChars [')'] = [.plain ')'] := Regex.ofChars_cons (by decide) []
    have hfollow := Regex.follow_ofChars (c := ')') (by decide) (by decide) (by decide) []
    have hlast := comes_variant (hr.readable v List.mem_cons_self) hr.inOrder hr.mode hr.flags hr.nodup hfollow
      (by rw [hrest, List.map_cons, List.map_nil, Regex.choiceText_singleton])
    refine hlast.mono ?_
    rintro s ⟨node, hnode, htakes⟩
    refine ⟨[node], List.Forall₂.cons hnode .nil, htakes.rest.trans hclose, ?_, ?_, htakes.outer, htakes.widths,
      htakes.names⟩
    · rw [htakes.frame]
      exact hr.kind
    · rw [htakes.frame, hr.items]
      simp [Regex.Frame.body, Regex.Frame.alternative, Node.ofList]
  | cons w rest ih =>
    intro r hr hrest
    have hfirst : ((r.names ++ [(v.tag, r.groupBound)]).map (·.1)).Nodup := by
      refine (List.Sublist.map _ (List.Sublist.append_left ?_ _)).nodup hr.nodup
      exact List.sublist_append_left [(v.tag, r.groupBound)] _
    have hfollow := Regex.follow_ofChars (c := '|') (by decide) (by decide) (by decide)
      (choiceText ((w :: rest).map (·.text)) ++ [')'])
    have hvariant := comes_variant (hr.readable v List.mem_cons_self) hr.inOrder hr.mode hr.flags hfirst hfollow
      (by rw [hrest, List.map_cons, List.map_cons, Regex.choiceText_cons, List.append_assoc]; rfl)
    refine .bind (hvariant.inOrder hr.inOrder) ?_
    rintro s ⟨hs, node, hnode, htakes⟩
    obtain ⟨u, hreaches, hurest, hadmits, hpassed⟩ := reaches_next hr hs htakes
    refine .behind hreaches ((ih w u hadmits hurest).mono ?_)
    rintro t ⟨nodes, ht⟩
    exact ⟨node :: nodes, .cons hnode hpassed ht⟩

/-! ## Whole chunks -/

/-- Reading an alternation of variants fails, or it ends behind the parenthesis that closes the alternation. -/
theorem comes_alternation (v : ChunkVariant) (rest : List ChunkVariant)
    (hvariants : ∀ w ∈ v :: rest, Readable w.route.tokens w.pieces) (htags : ((v :: rest).map (·.tag)).Nodup) :
    (Reader.facingText (String.ofList (alternationText ((v :: rest).map (·.text))))).Comes fun s =>
      s.rest = [] ∧ ∃ nodes, AllReadAs 1 (v :: rest) nodes ∧
        s.frame.body = .ofAlternatives nodes ∧ s.widths.length = groupsOf ChunkVariant.groups (v :: rest) ∧
        s.names = tagNumbers 1 (v :: rest) := by
  set behind := choiceText ((v :: rest).map (·.text)) ++ [')'] with hbehind
  have htokens : (Reader.facingText (String.ofList (alternationText ((v :: rest).map (·.text))))).rest =
      .plain '(' :: .plain '?' :: .plain ':' :: Regex.Token.ofChars behind := by
    rw [Reader.facingText, String.toList_ofList, alternationText, Regex.ofChars_cons (by decide),
      Regex.ofChars_cons (by decide), Regex.ofChars_cons (by decide)]
  obtain ⟨s, hopen, hsrest, hsframe, hsouter, hswidths, hsnames, -, hsflags⟩ :=
    Regex.reaches_open_plain (ChunkVariant.follow_choiceText v rest [')']).back rfl htokens
  have hbound : s.groupBound = 1 := by rw [Reader.groupBound, hswidths]; rfl
  have hadmits : AdmitsAll s (v :: rest) := by
    refine ⟨hvariants, (Regex.inOrder_facingText _).reached hopen, by rw [hsframe], by rw [hsframe], by rw [hsframe],
      hsflags, ?_⟩
    rw [hsnames, hbound]
    exact (ChunkVariant.map_fst_tagNumbers 1 (v :: rest)).symm ▸ htags
  refine .behind hopen (.bind (comes_choice v rest s hadmits hsrest) ?_)
  rintro t ⟨nodes, ht⟩
  obtain ⟨u, hclose, hurest, huframe, -, huwidths, hunames, -, -⟩ :=
    Regex.reaches_close ht.rest (by simp) (ht.outer.trans hsouter)
  have hreadAs := ht.readAs
  rw [hbound] at hreadAs
  refine .of_reaches hclose ⟨hurest, nodes, hreadAs, ?_, ?_, ?_⟩
  · have hclosed : t.closed = .ofAlternatives nodes := by
      rw [Reader.closed, ht.kind, ht.body, hsframe]
      rfl
    rw [huframe, hclosed]
    rfl
  · rw [huwidths, ht.widths, hswidths]
    exact Nat.zero_add _
  · rw [hunames, ht.names, hsnames, hbound]
    rfl

/-- **What an alternation of variants is compiled to**: the groups of the tags in order, each around its variant. -/
theorem compile_choice {variants : List ChunkVariant} (hvariants : ∀ v ∈ variants, Readable v.route.tokens v.pieces)
    (htags : (variants.map (·.tag)).Nodup) {regex : Regex}
    (h : Regex.compile (String.ofList (alternationText (variants.map (·.text)))) = .ok regex) :
    ∃ nodes, AllReadAs 1 variants nodes ∧
      regex = ⟨.ofAlternatives nodes, groupsOf ChunkVariant.groups variants, tagNumbers 1 variants⟩ := by
  cases variants with
  | nil =>
    have hempty : (Regex.compile "(?:)").toOption.map (fun regex => (regex.root, regex.groups, regex.names)) =
        some (.empty, 0, []) := by decide +kernel
    rw [show Regex.compile "(?:)" = .ok regex from h] at hempty
    obtain ⟨root, groups, names⟩ := regex
    cases hempty
    exact ⟨[], List.Forall₂.nil, rfl⟩
  | cons v rest =>
    obtain ⟨t, ⟨-, nodes, hreadAs, hbody, hwidths, hnames⟩, -, rfl⟩ :=
      Regex.compile_of_comes h (comes_alternation v rest hvariants htags) fun t ht => ht.1
    exact ⟨nodes, hreadAs, by rw [hbody, hwidths, hnames]⟩

end UrlRouter
