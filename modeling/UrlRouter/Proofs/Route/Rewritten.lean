/-
The path that is written for values that were read.

What a plain route reads from a path are the decoded values of its first tokens, up to the end of some segment. With
these values the same tokens are written again. A value that holds a slash is refused; the path held it encoded.

Results:
- `writtenTokens_of_read`: the tokens that are written are those that were read.
- `stopsAtSlash_path`: the first value with a slash is refused, and without one a path is written.
- `encoded_of_slashed`: a value with a slash was read where the path holds an encoded one.
- `plainTest_of_read`: the written path has the same values again, if every token ends its segment.
-/
import Mathlib.Tactic
import UrlRouter.Proofs.Route.Written
import UrlRouter.Proofs.Text.Slashes

namespace UrlRouter

open Pattern (Layout Piece Token layoutOf Spells tokensEndSegments)

/-! ## The tokens that are written -/

theorem supplied_iff {values : List (String × String)} {pieces : List Piece} :
    supplied values pieces = true ↔ ∀ token ∈ pieces.filterMap Piece.token?, token.name ∈ values.map (·.1) := by
  rw [supplied, List.all_eq_true]
  refine forall₂_congr fun token _ => ?_
  rw [List.lookup_isSome_iff, List.mem_map]
  exact exists_congr fun entry => and_congr_right fun _ => by rw [beq_iff_eq, eq_comm]

section

variable {layout : Layout} {count : Nat} {values : List (String × String)}

/-- The segments that were read are supplied. -/
theorem supplied_of_read
    (hvalues : values.map (·.1) =
      ((layout.base ++ (layout.segments.take count).flatten).filterMap Piece.token?).map (·.name)) :
    ∀ segment ∈ layout.segments.take count, supplied values segment = true := by
  intro segment hsegment
  rw [supplied_iff, hvalues]
  intro token htoken
  refine List.mem_map_of_mem (List.Sublist.subset (List.Sublist.filterMap _ ?_) htoken)
  exact (List.sublist_flatten_of_mem hsegment).trans (List.sublist_append_right _ _)

/-- Behind them, only segments without tokens are supplied, since no name comes twice. -/
theorem tokens_behind_read (hnames : layout.names.Nodup)
    (hvalues : values.map (·.1) =
      ((layout.base ++ (layout.segments.take count).flatten).filterMap Piece.token?).map (·.name)) :
    ((layout.segments.drop count).takeWhile (supplied values)).flatten.filterMap Piece.token? = [] := by
  rw [List.eq_nil_iff_forall_not_mem]
  intro token htoken
  have hbehind : token ∈ (layout.segments.drop count).flatten.filterMap Piece.token? :=
    ((List.takeWhile_sublist _).flatten.filterMap Piece.token?).subset htoken
  -- it is supplied, so that its name is one of those that were read
  obtain ⟨piece, hpiece, htoken⟩ := List.mem_filterMap.1 htoken
  obtain ⟨segment, hsegment, hpiece⟩ := List.mem_flatten.1 hpiece
  have hread := supplied_iff.1 (List.mem_takeWhile_imp hsegment) token (List.mem_filterMap.2 ⟨piece, hpiece, htoken⟩)
  rw [hvalues] at hread
  rw [Layout.names, Layout.tokens_eq, Layout.pieces, ← List.take_append_drop count layout.segments,
    List.flatten_append, ← List.append_assoc, List.filterMap_append, List.map_append] at hnames
  exact (List.nodup_append.1 hnames).2.2 _ hread _ (List.mem_map_of_mem hbehind) rfl

end

/-- **The tokens that are written** for values that were read are those that were read. -/
theorem writtenTokens_of_read {layout : Layout} (hnames : layout.names.Nodup) {pieces : List Piece}
    (hpieces : pieces ∈ layout.variants) {values : List (String × String)}
    (hvalues : values.map (·.1) = (pieces.filterMap Piece.token?).map (·.name)) :
    layout.writtenTokens values = pieces.filterMap Piece.token? := by
  obtain ⟨count, htokens⟩ := Pattern.exists_take_of_mem_variants hpieces
  rw [htokens] at hvalues ⊢
  have hsplit : layout.segments.takeWhile (supplied values) =
      layout.segments.take count ++ (layout.segments.drop count).takeWhile (supplied values) := by
    conv_lhs => rw [← List.take_append_drop count layout.segments]
    exact List.takeWhile_append_of_pos (supplied_of_read hvalues)
  rw [Layout.writtenTokens, Layout.writtenPieces, hsplit, List.flatten_append, ← List.append_assoc,
    List.filterMap_append, tokens_behind_read hnames hvalues, List.append_nil]

/-! ## Writing the values -/

/-- the first value that holds a slash, with its name -/
def slashed? (values : List (String × String)) : Option (String × String) :=
  values.find? fun entry => entry.2.toList.contains '/'

theorem mem_of_slashed {values : List (String × String)} {entry : String × String} (h : slashed? values = some entry) :
    entry ∈ values ∧ '/' ∈ entry.2.toList := by
  unfold slashed? at h
  have hslash := List.find?_some h
  exact ⟨List.mem_of_find?_eq_some h, List.contains_iff_mem.1 hslash⟩

/-- The writing of pieces with these values ends at the first that holds a slash, if there is one. -/
def StopsAtSlash (route : String) (values : List (String × String)) (written : Except GenerateError String) : Prop :=
  match slashed? values with
  | some entry => written = .error (.mismatch entry.1 Pattern.defaultConstraint route)
  | none => ∃ text, written = .ok text

theorem StopsAtSlash.map {route : String} {values : List (String × String)} {written : Except GenerateError String}
    (h : StopsAtSlash route values written) (f : String → String) :
    StopsAtSlash route values (written >>= fun text => pure (f text)) := by
  unfold StopsAtSlash at h ⊢
  cases hslashed : slashed? values with
  | some entry =>
    rw [hslashed] at h
    obtain rfl := h
    rfl
  | none =>
    rw [hslashed] at h
    obtain ⟨text, rfl⟩ := h
    exact ⟨f text, rfl⟩

/-- A value that is not empty is written unless it holds a slash. -/
theorem substitute_of_value {route : String} {constraints values : List (String × String)} {token : Token}
    (hconstraint : Pattern.constraintOf constraints token = Pattern.defaultConstraint) {value : String}
    (hvalue : values.lookup token.name = some value) (hne : value ≠ "") :
    substitute route constraints values token =
      if value.toList.contains '/' then .error (.mismatch token.name Pattern.defaultConstraint route)
      else .ok (Text.percentEncode value) := by
  unfold substitute
  rw [hvalue, hconstraint]
  dsimp only
  by_cases hslash : '/' ∈ value.toList
  · rw [if_pos (List.contains_iff_mem.2 hslash), if_neg fun hfull => ((fullMatches_default value).1 hfull).2 hslash]
  · rw [if_neg (mt List.contains_iff_mem.1 hslash), if_pos ((fullMatches_default value).2 ⟨hne, hslash⟩)]

/-- **The pieces are written** with values that are not empty up to the first that holds a slash. -/
theorem stopsAtSlash_writePieces {route : String} {constraints values : List (String × String)}
    (hconstraints : ∀ token, Pattern.constraintOf constraints token = Pattern.defaultConstraint)
    {pieces : List Piece} {entries : List (String × String)}
    (hnames : entries.map (·.1) = (pieces.filterMap Piece.token?).map (·.name))
    (hentries : ∀ entry ∈ entries, values.lookup entry.1 = some entry.2 ∧ entry.2 ≠ "") :
    StopsAtSlash route entries (writePieces (substitute route constraints values) pieces) := by
  induction pieces generalizing entries with
  | nil =>
    obtain rfl : entries = [] := List.map_eq_nil_iff.1 hnames
    exact ⟨"", rfl⟩
  | cons piece rest ih =>
    cases piece with
    | literal t => exact (ih hnames hentries).map (t ++ ·)
    | token t =>
      obtain ⟨entry, others, rfl, hname, hothers⟩ := List.map_eq_cons_iff.1 hnames
      have hname : entry.1 = t.name := hname
      obtain ⟨hlookup, hne⟩ := hentries entry List.mem_cons_self
      rw [hname] at hlookup
      have hrest := ih hothers fun other hother => hentries other (List.mem_cons_of_mem entry hother)
      rw [writePieces, substitute_of_value (hconstraints t) hlookup hne]
      split_ifs with hslash
      · have hfirst : slashed? (entry :: others) = some entry := List.find?_cons_of_pos hslash
        rw [StopsAtSlash, hfirst, ← hname]
        rfl
      · have hnext : slashed? (entry :: others) = slashed? others := List.find?_cons_of_neg hslash
        have hwritten := hrest.map (Text.percentEncode entry.2 ++ ·)
        rw [StopsAtSlash] at hwritten ⊢
        rw [hnext]
        exact hwritten

/-! ## The path of a route -/

/-- What the test of a plain route reads are the decoded values of a variant, under the names of its tokens. -/
theorem exists_variant_of_plainTest {route : Route} {layout : Layout} (hread : layoutOf route.path = .ok layout)
    {path : String} {attributes : List (String × String)} (h : plainTest route path = some attributes) :
    ∃ pieces ∈ layout.variants, ∃ values, Spells pieces values path.toList ∧
      attributes = decoded ((pieces.filterMap Piece.token?).map (·.name)) values := by
  rw [plainTest_eq hread, Option.map_eq_some_iff] at h
  obtain ⟨values, hvalues, rfl⟩ := h
  obtain ⟨pieces, hpieces, hspells⟩ := exists_variant_of_plainValues? hvalues
  refine ⟨pieces, hpieces, values, hspells, ?_⟩
  rw [← decoded_take layout.names hspells.length_eq, Layout.names, ← List.map_take,
    ← List.prefix_iff_eq_take.1 (Pattern.tokens_prefix_of_mem_variants hpieces)]

section

variable {route : Route} {path : String} {attributes : List (String × String)}

/-- What was read by a plain route: the tokens that are written for it, in order, each with its own value. -/
theorem attributes_of_plainTest (hplain : route.IsPlain) (h : plainTest route path = some attributes) :
    attributes.map (·.1) = (route.layout.writtenTokens attributes).map (·.name) ∧
      ∀ entry ∈ attributes, attributes.lookup entry.1 = some entry.2 ∧ entry.2 ≠ "" := by
  obtain ⟨hread, hwell, -⟩ := hplain.layout_eq
  obtain ⟨pieces, hpieces, values, hspells, rfl⟩ := exists_variant_of_plainTest hread h
  have hkeys := map_fst_decoded (hspells.length_eq.trans (List.length_map (·.name)).symm)
  have hnodup : ((pieces.filterMap Piece.token?).map (·.name)).Nodup :=
    hwell.nodup.sublist ((Pattern.tokens_prefix_of_mem_variants hpieces).sublist.map _)
  refine ⟨?_, fun entry hentry => ⟨lookup_of_nodup (hkeys.symm ▸ hnodup) hentry, ?_⟩⟩
  · rw [writtenTokens_of_read hwell.nodup hpieces hkeys, hkeys]
  · obtain ⟨value, hvalue, hdecoded⟩ := value_of_mem_decoded hentry
    rw [hdecoded]
    exact Text.percentDecode_ne_empty fun hempty => hspells.ne_nil value hvalue (ofList_eq_empty.1 hempty)

/-- A value with a slash was read where the path holds an encoded one. -/
theorem encoded_of_slashed (hplain : route.IsPlain) (h : plainTest route path = some attributes)
    {entry : String × String} (hslashed : slashed? attributes = some entry) :
    ∃ form ∈ Text.encodedSlashes, form <:+: path.toList := by
  obtain ⟨hread, -, -⟩ := hplain.layout_eq
  obtain ⟨pieces, -, values, hspells, rfl⟩ := exists_variant_of_plainTest hread h
  obtain ⟨hentry, hslash⟩ := mem_of_slashed hslashed
  obtain ⟨value, hvalue, hdecoded⟩ := value_of_mem_decoded hentry
  obtain ⟨hinside, hno⟩ := hspells.infix_of_mem hvalue
  rw [hdecoded, Text.slash_mem_percentDecode, String.toList_ofList, Text.holdsSlash_iff, or_iff_right hno] at hslash
  obtain ⟨form, hform, hvalue⟩ := hslash
  exact ⟨form, hform, hvalue.trans hinside⟩

/-- **The path is written** with the values that were read, up to the first that holds a slash. -/
theorem stopsAtSlash_path (hplain : route.IsPlain) {info : RouteLayout} (hinfo : RouteLayout.ofRoute route = .ok info)
    (h : plainTest route path = some attributes) :
    StopsAtSlash route.name attributes (info.path route attributes) := by
  obtain ⟨hread, -, hlayout⟩ := hplain.layout_eq
  obtain ⟨hnames, hentries⟩ := attributes_of_plainTest hplain h
  rcases ofRoute_of_plain hread hlayout hinfo with ⟨hnone, hstatic⟩ | ⟨hsome, hconstraints⟩
  · rw [hstatic] at hnames
    obtain rfl : attributes = [] := List.map_eq_nil_iff.1 hnames
    rw [RouteLayout.path, hnone]
    exact ⟨_, rfl⟩
  rw [path_of_layout hsome]
  split_ifs with hroot
  · obtain rfl : attributes = [] := List.isEmpty_iff.1 (Bool.and_eq_true_iff.1 hroot).2
    exact ⟨_, rfl⟩
  · have hbase : supplied attributes route.layout.base = true := by
      rw [supplied_iff, hnames]
      intro token htoken
      exact List.mem_map_of_mem (((List.sublist_append_left _ _).filterMap Piece.token?).subset htoken)
    have hnone : route.layout.baseTokens.find? (fun token => (attributes.lookup token.name).isNone) = none := by
      refine List.find?_eq_none.2 fun token htoken => ?_
      rw [← Option.not_isSome, List.all_eq_true.1 hbase token htoken]
      decide
    rw [hnone]
    exact (stopsAtSlash_writePieces hconstraints hnames hentries).map _

/-- **The written path** has the values that were read, if every token ends its segment. -/
theorem plainTest_of_read (hplain : route.IsPlain) (hend : tokensEndSegments route.layout.pieces = true)
    {info : RouteLayout} (hinfo : RouteLayout.ofRoute route = .ok info) (h : plainTest route path = some attributes)
    {again : String} (hagain : info.path route attributes = .ok again) : plainTest route again = some attributes := by
  obtain ⟨hnames, hentries⟩ := attributes_of_plainTest hplain h
  obtain ⟨found, htest, hfound⟩ := plainTest_of_path hplain hend hinfo hagain
  have hread : attributes.map (fun entry => (entry.1, some entry.2)) =
      (route.layout.writtenTokens attributes).map fun token => (token.name, attributes.lookup token.name) := by
    calc attributes.map (fun entry => (entry.1, some entry.2))
        = attributes.map fun entry => (entry.1, attributes.lookup entry.1) :=
          List.map_congr_left fun entry hentry => by rw [(hentries entry hentry).1]
      _ = (attributes.map (·.1)).map fun name => (name, attributes.lookup name) := by rw [List.map_map]; rfl
      _ = _ := by rw [hnames, List.map_map]; rfl
  have hinjective : Function.Injective fun entry : String × String => (entry.1, some entry.2) := by
    intro a b hab
    simpa [Prod.ext_iff] using hab
  rw [htest, (List.map_injective_iff.2 hinjective) (hfound.trans hread.symm)]

end

end UrlRouter
