/-
The path that is written for a route.

A path is written from the base and from the segments up to the first that lacks a value, each value percent-encoded.
For a plain route this is a variant of its pattern with the encoded values for its tokens; where every token ends its
segment, no other values can be read from the path.

Results:
- `spells_of_path`: a written path is spelled by a variant with the encoded values.
- `plainTest_of_path`: the test of the route finds the values that were given.
-/
import Mathlib.Tactic
import UrlRouter.Proofs.Dispatch.PlainRoutes
import UrlRouter.Proofs.Text.Percent
import UrlRouter.Route.Generator

namespace UrlRouter

open Pattern (Layout Piece Token layoutOf Spells tokensEndSegments)

/-! ## The pieces that are written -/

/-- the base and the segments up to the first that lacks a value -/
def Pattern.Layout.writtenPieces (layout : Layout) (values : List (String × String)) : List Piece :=
  layout.base ++ (layout.segments.takeWhile (supplied values)).flatten

def Pattern.Layout.writtenTokens (layout : Layout) (values : List (String × String)) : List Token :=
  (layout.writtenPieces values).filterMap Piece.token?

theorem exists_take_writtenPieces (layout : Layout) (values : List (String × String)) :
    ∃ count, layout.writtenPieces values = layout.base ++ (layout.segments.take count).flatten := by
  refine ⟨(layout.segments.takeWhile (supplied values)).length, ?_⟩
  rw [Layout.writtenPieces, ← List.prefix_iff_eq_take.1 ( List.takeWhile_prefix _)]

theorem prefix_writtenPieces (layout : Layout) (values : List (String × String)) :
    layout.writtenPieces values <+: layout.pieces := by
  obtain ⟨count, hcount⟩ := exists_take_writtenPieces layout values
  rw [hcount]
  exact (List.prefix_append_right_inj _).2 (Pattern.prefix_flatten_take _ _)

section Writing

variable {f : Token → Except GenerateError String}

theorem writePieces_append (a b : List Piece) :
    writePieces f (a ++ b) = (do return (← writePieces f a) ++ (← writePieces f b)) := by
  induction a with
  | nil =>
    show _ = (pure "" >>= fun x => writePieces f b >>= fun y => pure (x ++ y))
    simp only [List.nil_append, pure_bind, String.empty_append, bind_pure]
  | cons piece rest ih =>
    cases piece with
    | literal t => simp only [List.cons_append, writePieces, ih, bind_assoc, pure_bind, String.append_assoc]
    | token t => simp only [List.cons_append, writePieces, ih, bind_assoc, pure_bind, String.append_assoc]

theorem writePieces_flatten (segments : List (List Piece)) :
    writePieces f segments.flatten = (do return String.join (← segments.mapM (writePieces f))) := by
  induction segments with
  | nil => rfl
  | cons segment rest ih =>
    rw [List.flatten_cons, writePieces_append, ih, List.mapM_cons]
    simp only [bind_assoc, pure_bind, String.join_cons]

end Writing

/-! ## Values of plain tokens -/

/-- **The default constraint** is met by the texts that are not empty and hold no slash. -/
theorem fullMatches_default (text : String) :
    fullMatches Pattern.defaultConstraint text = true ↔ text ≠ "" ∧ '/' ∉ text.toList := by
  obtain ⟨body, hbody, hroot, -⟩ := Pattern.exists_defaultBody
  have hcompile : Regex.compile Pattern.defaultConstraint = .ok body.regex :=
    Regex.Body.text_of_ofText? hbody ▸ body.compile_text
  have hfind := Regex.fullMatch?_eq_find? text.toList body.regex _ fun k => by
    rw [Regex.Body.regex, hroot, Pattern.nonSlashes, Regex.run_nonSlashes]
  rw [String.ofList_toList] at hfind
  have hcuts : fullMatches Pattern.defaultConstraint text = true ↔
      ∃ v left, (v, left) ∈ Text.cuts text.toList ∧ v.length = text.toList.length := by
    rw [fullMatches, hcompile]
    dsimp only
    rw [hfind]
    simp [Regex.Place.forward]
  rw [hcuts, ne_eq, ← String.toList_eq_nil_iff]
  constructor
  · rintro ⟨v, left, hcut, hlength⟩
    obtain ⟨htext, hne, hslash⟩ := Text.mem_cuts.1 hcut
    have hprefix := List.prefix_iff_eq_take.1 ⟨left, htext.symm⟩
    rw [hlength, List.take_length] at hprefix
    rw [← hprefix]
    exact ⟨hne, hslash⟩
  · rintro ⟨hne, hslash⟩
    exact ⟨text.toList, [], Text.mem_cuts.2 ⟨(List.append_nil _).symm, hne, hslash⟩, rfl⟩

/-- A token of a plain route is written as its value, which is not empty. -/
theorem substitute_eq_ok {route : String} {constraints values : List (String × String)} {token : Token} {text : String}
    (hconstraint : Pattern.constraintOf constraints token = Pattern.defaultConstraint)
    (h : substitute route constraints values token = .ok text) :
    ∃ value, values.lookup token.name = some value ∧ value ≠ "" ∧ text = Text.percentEncode value := by
  unfold substitute at h
  split at h
  · cases h
  · rename_i value hvalue
    rw [hconstraint] at h
    dsimp only at h
    split_ifs at h with hfull
    exact ⟨value, hvalue, ((fullMatches_default value).1 hfull).1, (Except.ok.inj h).symm⟩

/-- the values, each under the name of a token -/
def GivenFor (values : List (String × String)) (tokens : List Token) (given : List String) : Prop :=
  List.Forall₂ (fun token value => values.lookup token.name = some value) tokens given

def encodedValues (given : List String) : List (List Char) := given.map fun value => (Text.percentEncode value).toList

/-- **What is written** is spelled by its pieces with the encoded values. -/
theorem spells_of_writePieces {route : String} {constraints values : List (String × String)} {pieces : List Piece}
    {text : String} (hconstraints : ∀ token, Pattern.constraintOf constraints token = Pattern.defaultConstraint)
    (h : writePieces (substitute route constraints values) pieces = .ok text) :
    ∃ given, GivenFor values (pieces.filterMap Piece.token?) given ∧
      Spells pieces (encodedValues given) text.toList := by
  induction pieces generalizing text with
  | nil =>
    obtain rfl : "" = text := Except.ok.inj h
    exact ⟨[], .nil, .nil⟩
  | cons piece rest ih =>
    cases piece with
    | literal t =>
      obtain ⟨after, hafter, h⟩ := bind_eq_ok.1 h
      obtain rfl : t ++ after = text := Except.ok.inj h
      obtain ⟨given, hgiven, hspells⟩ := ih hafter
      refine ⟨given, hgiven, ?_⟩
      rw [String.toList_append]
      exact .literal t hspells
    | token t =>
      obtain ⟨written, hwritten, h⟩ := bind_eq_ok.1 h
      obtain ⟨after, hafter, h⟩ := bind_eq_ok.1 h
      obtain rfl : written ++ after = text := Except.ok.inj h
      obtain ⟨value, hvalue, hne, rfl⟩ := substitute_eq_ok (hconstraints t) hwritten
      obtain ⟨given, hgiven, hspells⟩ := ih hafter
      refine ⟨value :: given, .cons hvalue hgiven, ?_⟩
      rw [String.toList_append]
      exact .token t (Text.encode_ne_nil hne) (Text.slash_not_mem_encode value) hspells

/-! ## Paths of plain routes -/

/-- A plain route can be written: as its static path, or from its layout with the default constraint for every token. -/
theorem exists_ofRoute_of_plain {route : Route} {layout : Layout} (hread : layoutOf route.path = .ok layout)
    (hplain : layout.IsPlain route.tokens) :
    ∃ info, RouteLayout.ofRoute route = .ok info ∧
      ((info.layout = none ∧ layout = ⟨[.literal (if route.path.isEmpty then "/" else route.path)], []⟩) ∨
        (info.layout = some layout ∧
          ∀ token, Pattern.constraintOf info.constraints token = Pattern.defaultConstraint)) := by
  unfold RouteLayout.ofRoute
  cases hdynamic : Pattern.isDynamic route.path with
  | false =>
    rw [Pattern.layoutOf_static hdynamic] at hread
    rw [Bool.not_false, if_pos rfl]
    exact ⟨_, rfl, .inl ⟨rfl, (Except.ok.inj hread).symm⟩⟩
  | true =>
    rw [Pattern.layoutOf_dynamic hdynamic] at hread
    rw [Bool.not_true, if_neg Bool.false_ne_true, hread, ok_bind,
      Pattern.mapM_constraints_of_regular fun token htoken => Pattern.regular_tokens hplain.isRegular htoken]
    refine ⟨_, rfl, .inr ⟨rfl, fun token => Pattern.constraintOf_default (fun entry hentry => ?_) token⟩⟩
    obtain ⟨t, ht, rfl⟩ := List.mem_map.1 hentry
    exact Pattern.constraintText_of_plain (Pattern.mem_tokens_of_plain hplain t ht)

theorem ofRoute_of_plain {route : Route} {layout : Layout} (hread : layoutOf route.path = .ok layout)
    (hplain : layout.IsPlain route.tokens) {info : RouteLayout} (h : RouteLayout.ofRoute route = .ok info) :
    (info.layout = none ∧ layout = ⟨[.literal (if route.path.isEmpty then "/" else route.path)], []⟩) ∨
      (info.layout = some layout ∧
        ∀ token, Pattern.constraintOf info.constraints token = Pattern.defaultConstraint) := by
  obtain ⟨found, hfound, hcases⟩ := exists_ofRoute_of_plain hread hplain
  obtain rfl := Except.ok.inj (hfound.symm.trans h)
  exact hcases

/-- The path of a layout: the root path where the pattern is a chain and nothing is given, else what the written pieces
give, unless a token of the base lacks a value. -/
theorem path_of_layout {info : RouteLayout} {layout : Layout} (h : info.layout = some layout) (route : Route)
    (values : List (String × String)) :
    info.path route values =
      if layout.optionalStart && values.isEmpty then .ok "/"
      else
        match layout.baseTokens.find? fun token => (values.lookup token.name).isNone with
        | some token => .error (.missing token.name route.name)
        | none => (do
          let text ← writePieces (substitute route.name info.constraints values) (layout.writtenPieces values)
          return if text.isEmpty then "/" else text) := by
  unfold RouteLayout.path
  rw [h]
  dsimp only
  split_ifs
  · rfl
  · cases layout.baseTokens.find? fun token => (values.lookup token.name).isNone with
    | some token => rfl
    | none =>
      dsimp only
      rw [Layout.writtenPieces, writePieces_append, writePieces_flatten]
      simp only [bind_assoc, pure_bind]

/-- Without values no token is written. -/
theorem writtenTokens_nil {layout : Layout} (h : layout.base = []) : layout.writtenTokens [] = [] := by
  rw [Layout.writtenTokens, Layout.writtenPieces, h, List.nil_append, List.filterMap_flatten, List.flatten_eq_nil_iff]
  intro tokens htokens
  obtain ⟨segment, hsegment, rfl⟩ := List.mem_map.1 htokens
  have hsupplied := List.mem_takeWhile_imp hsegment
  rw [List.eq_nil_iff_forall_not_mem]
  intro token htoken
  have hvalue := List.all_eq_true.1 hsupplied token htoken
  cases hvalue

/-- Nothing spells nothing but no pieces, where no literal is empty. -/
theorem Pattern.Spells.pieces_nil {pieces : List Piece} {values : List (List Char)}
    (hliterals : ∀ text, .literal text ∈ pieces → text ≠ "") (h : Spells pieces values []) : pieces = [] := by
  cases pieces with
  | nil => rfl
  | cons piece rest =>
    cases piece with
    | literal t =>
      obtain ⟨left, htext, -⟩ := Pattern.spells_literal.1 h
      have hempty := (List.append_eq_nil_iff.1 htext.symm).1
      exact absurd (String.toList_eq_nil_iff.1 hempty) (hliterals t List.mem_cons_self)
    | token t =>
      obtain ⟨v, vs, left, -, htext, hne, -⟩ := Pattern.spells_token.1 h
      exact absurd (List.append_eq_nil_iff.1 htext.symm).1 hne

/-- Some variant spells the path with the encoded values, one for each token that is written. -/
def SpelledAsWritten (layout : Layout) (values : List (String × String)) (path : String) : Prop :=
  ∃ given, GivenFor values (layout.writtenTokens values) given ∧
    ∃ pieces ∈ layout.variants, Spells pieces (encodedValues given) path.toList

/-- The root path is written where a chain opens the pattern and no token is written. -/
theorem spelled_root {layout : Layout} {values : List (String × String)} (hstart : layout.optionalStart = true)
    (hnone : layout.writtenTokens values = []) : SpelledAsWritten layout values "/" := by
  refine ⟨[], by rw [GivenFor, hnone]; exact .nil, [.literal "/"], ?_, .literal "/" .nil⟩
  rw [Layout.variants, if_pos hstart]
  exact List.mem_cons_self

/-- What the written pieces give is spelled by them, or is the root path if they give nothing. -/
theorem spelled_written {layout : Layout} (hwell : layout.WellFormed) {route : String}
    {constraints values : List (String × String)}
    (hconstraints : ∀ token, Pattern.constraintOf constraints token = Pattern.defaultConstraint) {text : String}
    (h : writePieces (substitute route constraints values) (layout.writtenPieces values) = .ok text) :
    SpelledAsWritten layout values (if text.isEmpty then "/" else text) := by
  obtain ⟨given, hgiven, hspells⟩ := spells_of_writePieces hconstraints h
  split_ifs with hempty
  · rw [String.isEmpty_iff.1 hempty] at hspells
    have hnothing := hspells.pieces_nil fun text htext =>
      hwell.literals text ((prefix_writtenPieces layout values).subset htext)
    have hbase := (List.append_eq_nil_iff.1 hnothing).1
    have hstart := Pattern.optionalStart_iff.2 ⟨hbase, hwell.base.resolve_left (not_not.2 hbase)⟩
    exact spelled_root hstart (by rw [Layout.writtenTokens, hnothing]; rfl)
  · obtain ⟨count, hcount⟩ := exists_take_writtenPieces layout values
    refine ⟨given, hgiven, _, hcount ▸ Pattern.mem_variants_of_take count fun hnothing => hempty ?_, hspells⟩
    rw [hcount, hnothing] at h
    rw [← Except.ok.inj h]
    rfl

/-- **A written path** is spelled by a variant with the encoded values, one for each token that is written. -/
theorem spells_of_path {route : Route} {layout : Layout} (hread : layoutOf route.path = .ok layout)
    (hplain : layout.IsPlain route.tokens) {info : RouteLayout} (hinfo : RouteLayout.ofRoute route = .ok info)
    {values : List (String × String)} {path : String} (h : info.path route values = .ok path) :
    SpelledAsWritten layout values path := by
  rcases ofRoute_of_plain hread hplain hinfo with ⟨hnone, rfl⟩ | ⟨hsome, hconstraints⟩
  · rw [RouteLayout.path, hnone] at h
    obtain rfl := Except.ok.inj h
    have hstatic := Spells.literal (if route.path.isEmpty then "/" else route.path) .nil
    rw [List.append_nil] at hstatic
    exact ⟨[], .nil, _, List.mem_cons_self, hstatic⟩
  rw [path_of_layout hsome] at h
  split_ifs at h with hstart
  · -- no segment of a chain that opens the pattern is written without values
    obtain rfl := Except.ok.inj h
    obtain ⟨hstart, hvalues⟩ := Bool.and_eq_true_iff.1 hstart
    refine spelled_root hstart ?_
    rw [List.isEmpty_iff.1 hvalues, writtenTokens_nil (Pattern.optionalStart_iff.1 hstart).1]
  · split at h
    · cases h
    obtain ⟨text, htext, h⟩ := bind_eq_ok.1 h
    obtain rfl := Except.ok.inj h
    exact spelled_written (Pattern.wellFormed_of_layoutOf hread) hconstraints htext

/-! ## Reading a written path -/

/-- The first values that are read are the only ones, if every token ends its segment. -/
theorem plainValues?_of_spells {layout : Layout} (hwell : layout.WellFormed)
    (hend : tokensEndSegments layout.pieces = true) {pieces : List Piece} (hpieces : pieces ∈ layout.variants)
    {path : String} {values : List (List Char)} (h : Spells pieces values path.toList) :
    plainValues? layout path = some values := by
  cases hfound : plainValues? layout path with
  | none =>
    have hnone := List.findSome?_eq_none_iff.1 hfound pieces hpieces
    exact absurd h (Pattern.reading?_eq_none.1 hnone values)
  | some found =>
    obtain ⟨others, hothers, hspells⟩ := exists_variant_of_plainValues? hfound
    rw [Pattern.values_unique hwell hend hothers hpieces hspells h]

/-- Encoded values are decoded to what was given. -/
theorem decoded_encodedValues {values : List (String × String)} {tokens : List Token} {given : List String}
    (h : GivenFor values tokens given) :
    (decoded (tokens.map (·.name)) (encodedValues given)).map (fun entry => (entry.1, some entry.2)) =
      tokens.map fun token => (token.name, values.lookup token.name) := by
  induction h with
  | nil => rfl
  | @cons token value tokens given hvalue _ ih =>
    rw [@List.map_cons _ _ _ token, @List.map_cons _ _ _ token, hvalue, ← ih]
    simp only [decoded, encodedValues, List.map_cons, List.zip_cons_cons, String.ofList_toList,
      Text.percentDecode_encode]

/-- **The test of a plain route** finds in a written path the values that were given for the tokens that are written,
if every token ends its segment. -/
theorem plainTest_of_path {route : Route} (hplain : route.IsPlain)
    (hend : tokensEndSegments route.layout.pieces = true) {info : RouteLayout}
    (hinfo : RouteLayout.ofRoute route = .ok info) {values : List (String × String)} {path : String}
    (h : info.path route values = .ok path) :
    ∃ attributes, plainTest route path = some attributes ∧
      attributes.map (fun entry => (entry.1, some entry.2)) =
        (route.layout.writtenTokens values).map fun token => (token.name, values.lookup token.name) := by
  obtain ⟨hread, hwell, hlayout⟩ := hplain.layout_eq
  obtain ⟨given, hgiven, pieces, hpieces, hspells⟩ := spells_of_path hread hlayout hinfo h
  refine ⟨_, by rw [plainTest_eq hread, plainValues?_of_spells hwell hend hpieces hspells]; rfl, ?_⟩
  have hlength : (encodedValues given).length = (route.layout.writtenTokens values).length := by
    rw [encodedValues, List.length_map, hgiven.length_eq]
  have hnames : route.layout.names.take (route.layout.writtenTokens values).length =
      (route.layout.writtenTokens values).map (·.name) := by
    have hbegins : route.layout.writtenTokens values <+: route.layout.pieces.filterMap Piece.token? :=
      (prefix_writtenPieces route.layout values).filterMap Piece.token?
    rw [Layout.names, Layout.tokens_eq, ← List.map_take, ← List.prefix_iff_eq_take.1 hbegins]
  rw [← decoded_take route.layout.names hlength, hnames]
  exact decoded_encodedValues hgiven

end UrlRouter
