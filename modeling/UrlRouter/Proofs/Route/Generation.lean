/-
What a generator answers for a route and some attributes.

A generator keeps layouts by the name of their route, and what it keeps is what it would read anew. The path of a
dynamic route is decided in three steps: every token of the base needs a value; the values of the tokens that are
written must match their constraints, from left to right; then the pieces are joined. How many segments are written
depends on the presence of values alone.

Results:
- `UrlGenerator.generate_of_faithful`: kept layouts make no difference, and stay those of their routes.
- `isDepth_takeWhile`: the segments up to the first that lacks a value are the most that can be written.
- `writePieces_substitute`: pieces are written up to the first value that does not match.
- `generated_path_exact`: what a generator answers, after any earlier calls.
-/
import Mathlib.Tactic
import UrlRouter.Proofs.Route.Written

namespace UrlRouter

open Pattern (Layout Piece Token layoutOf)

/-! ## What a generator keeps -/

/-- every record stands under its own name -/
def KeyedByName (routes : List (String × Route)) : Prop := ∀ entry ∈ routes, entry.2.name = entry.1

instance : DecidablePred KeyedByName := fun routes =>
  inferInstanceAs (Decidable (∀ entry ∈ routes, entry.2.name = entry.1))

theorem KeyedByName.name_eq {routes : List (String × Route)} (h : KeyedByName routes) {name : String} {route : Route}
    (hroute : routes.lookup name = some route) : route.name = name := by
  obtain ⟨before, after, hsplit, -⟩ := List.lookup_eq_some_iff.1 hroute
  exact h (name, route) (by simp [hsplit])

namespace UrlGenerator

/-- a generator that keeps nothing -/
def uncached : UrlGenerator := { useCache := false }

/-- what is kept under the name of a route is the layout of that route -/
def Faithful (generator : UrlGenerator) (routes : List (String × Route)) : Prop :=
  ∀ name route, routes.lookup name = some route →
    ∀ info, generator.cache.lookup name = some info → RouteLayout.ofRoute route = .ok info

/-- the generator after it was asked for some paths -/
def after (generator : UrlGenerator) (routes : List (String × Route)) (calls : List (String × Attributes)) :
    UrlGenerator :=
  calls.foldl (fun generator call => (generator.generate routes call.1 call.2).2) generator

variable {generator : UrlGenerator} {routes : List (String × Route)}

theorem faithful_of_empty (h : generator.cache = []) : generator.Faithful routes := by
  intro name route hroute info hkept
  rw [h] at hkept
  cases hkept

/-- The layout of a route is the same whether it was kept or not, and it is kept for that route only. -/
theorem layoutOf_of_faithful (hkeyed : KeyedByName routes) (h : generator.Faithful routes) {name : String}
    {route : Route} (hroute : routes.lookup name = some route) :
    (generator.layoutOf route).1 = RouteLayout.ofRoute route ∧ (generator.layoutOf route).2.Faithful routes := by
  have hname := hkeyed.name_eq hroute
  unfold layoutOf
  cases hkept : (if generator.useCache then generator.cache.lookup route.name else none) with
  | some info =>
    obtain ⟨-, hlookup⟩ := Option.ite_none_right_eq_some.1 hkept
    rw [hname] at hlookup
    exact ⟨(h name route hroute info hlookup).symm, h⟩
  | none =>
    cases hlayout : RouteLayout.ofRoute route with
    | error e => exact ⟨rfl, h⟩
    | ok info =>
      refine ⟨rfl, ?_⟩
      dsimp only
      split_ifs
      · intro other record hrecord found hfound
        rw [List.lookup_cons, hname] at hfound
        cases hother : other == name with
        | true =>
          rw [hother] at hfound
          obtain rfl := eq_of_beq hother
          obtain rfl : info = found := Option.some.inj hfound
          obtain rfl : route = record := Option.some.inj (hroute.symm.trans hrecord)
          exact hlayout
        | false =>
          rw [hother] at hfound
          exact h other record hrecord found hfound
      · exact h

theorem layoutOf_uncached (route : Route) : uncached.layoutOf route = (RouteLayout.ofRoute route, uncached) := by
  unfold layoutOf
  cases RouteLayout.ofRoute route <;> rfl

theorem generate_uncached {name : String} {route : Route} (hroute : routes.lookup name = some route)
    (attributes : Attributes) : (uncached.generate routes name attributes).1 =
      match RouteLayout.ofRoute route with
      | .error e => .error (.pattern e)
      | .ok info => info.path route attributes.given := by
  rw [generate, hroute]
  dsimp only
  rw [layoutOf_uncached]
  cases RouteLayout.ofRoute route <;> rfl

/-- **What is kept makes no difference**, and what is kept afterwards are again layouts of their routes. -/
theorem generate_of_faithful (hkeyed : KeyedByName routes) (h : generator.Faithful routes) (name : String)
    (attributes : Attributes) :
    (generator.generate routes name attributes).1 = (uncached.generate routes name attributes).1 ∧
      (generator.generate routes name attributes).2.Faithful routes := by
  cases hroute : routes.lookup name with
  | none =>
    rw [generate, generate, hroute]
    exact ⟨rfl, h⟩
  | some route =>
    obtain ⟨hlayout, hafter⟩ := layoutOf_of_faithful hkeyed h hroute
    rw [generate_uncached hroute, ← hlayout, generate, hroute]
    dsimp only
    generalize generator.layoutOf route = kept at hafter
    obtain ⟨result, keeper⟩ := kept
    cases result with
    | error e => exact ⟨rfl, hafter⟩
    | ok info => exact ⟨rfl, hafter⟩

theorem faithful_after (hkeyed : KeyedByName routes) (h : generator.Faithful routes)
    (calls : List (String × Attributes)) : (generator.after routes calls).Faithful routes := by
  induction calls generalizing generator with
  | nil => exact h
  | cons call calls ih => exact ih (generate_of_faithful hkeyed h call.1 call.2).2

/-- After any calls a new generator answers like one that keeps nothing. -/
theorem generate_after (useCache : Bool) (hkeyed : KeyedByName routes) (earlier : List (String × Attributes))
    (name : String) (attributes : Attributes) :
    ((({ useCache } : UrlGenerator).after routes earlier).generate routes name attributes).1 =
      (uncached.generate routes name attributes).1 :=
  (generate_of_faithful hkeyed (faithful_after hkeyed (faithful_of_empty rfl) earlier) name attributes).1

end UrlGenerator

/-! ## How much is written -/

section

variable {layout : Layout} {values : List (String × String)}

/-- the base and the first segments -/
def Pattern.Layout.piecesTo (layout : Layout) (depth : Nat) : List Piece :=
  layout.base ++ (layout.segments.take depth).flatten

def Pattern.Layout.tokensTo (layout : Layout) (depth : Nat) : List Token :=
  (layout.piecesTo depth).filterMap Piece.token?

/-- the largest number of segments, from the first on, whose tokens all have a value -/
def Pattern.Layout.IsDepth (layout : Layout) (values : List (String × String)) (depth : Nat) : Prop :=
  IsGreatest {count | count ≤ layout.segments.length ∧
    ∀ segment ∈ layout.segments.take count, supplied values segment = true} depth

/-- **The segments up to the first that lacks a value** are the most whose tokens all have one. -/
theorem isDepth_takeWhile (layout : Layout) (values : List (String × String)) :
    layout.IsDepth values (layout.segments.takeWhile (supplied values)).length := by
  have hstart := List.takeWhile_prefix (supplied values) (l := layout.segments)
  refine ⟨⟨hstart.length_le, fun segment hsegment => ?_⟩, fun count ⟨hcount, hsupplied⟩ => ?_⟩
  · rw [← List.prefix_iff_eq_take.1 hstart] at hsegment
    exact List.mem_takeWhile_imp hsegment
  · have hsplit : layout.segments.takeWhile (supplied values) =
        layout.segments.take count ++ (layout.segments.drop count).takeWhile (supplied values) := by
      conv_lhs => rw [← List.take_append_drop count layout.segments]
      exact List.takeWhile_append_of_pos hsupplied
    rw [hsplit, List.length_append, List.length_take_of_le hcount]
    exact Nat.le_add_right _ _

theorem writtenPieces_eq {depth : Nat} (h : layout.IsDepth values depth) :
    layout.writtenPieces values = layout.piecesTo depth := by
  obtain rfl := h.unique (isDepth_takeWhile layout values)
  rw [Layout.writtenPieces, Layout.piecesTo, ← List.prefix_iff_eq_take.1 (List.takeWhile_prefix _)]

/-- Where the tokens of the base have values, so have all tokens that are written. -/
theorem isSome_of_isDepth {depth : Nat} (h : layout.IsDepth values depth)
    (hbase : ∀ token ∈ layout.baseTokens, (values.lookup token.name).isSome = true) :
    ∀ token ∈ layout.tokensTo depth, (values.lookup token.name).isSome = true := by
  intro token htoken
  rw [Layout.tokensTo, Layout.piecesTo, List.filterMap_append] at htoken
  rcases List.mem_append.1 htoken with htoken | htoken
  · exact hbase token htoken
  · obtain ⟨piece, hpiece, htoken⟩ := List.mem_filterMap.1 htoken
    obtain ⟨segment, hsegment, hpiece⟩ := List.mem_flatten.1 hpiece
    have hsupplied := h.1.2 segment hsegment
    exact List.all_eq_true.1 hsupplied token (List.mem_filterMap.2 ⟨piece, hpiece, htoken⟩)

end

/-! ## What is written -/

/-- a token without a value -/
def lacksValue (values : List (String × String)) (token : Token) : Bool := (values.lookup token.name).isNone

/-- a token whose value does not match its constraint -/
def failsConstraint (constraint : Token → String) (values : List (String × String)) (token : Token) : Bool :=
  (values.lookup token.name).any fun value => !fullMatches (constraint token) value

/-- the pieces with the encoded values for their tokens -/
def encodedText (values : List (String × String)) (pieces : List Piece) : String :=
  Pattern.render (fun token => Text.percentEncode ((values.lookup token.name).getD "")) pieces

theorem encodedText_literal (values : List (String × String)) (text : String) (rest : List Piece) :
    encodedText values (.literal text :: rest) = text ++ encodedText values rest := by
  rw [encodedText, encodedText, Pattern.render, Pattern.render, List.map_cons, String.join_cons]

theorem encodedText_token {values : List (String × String)} {token : Token} {value : String}
    (h : values.lookup token.name = some value) (rest : List Piece) :
    encodedText values (.token token :: rest) = Text.percentEncode value ++ encodedText values rest := by
  rw [encodedText, encodedText, Pattern.render, Pattern.render, List.map_cons, String.join_cons]
  dsimp only
  rw [h, Option.getD_some]

/-- **Pieces are written** with their encoded values, unless one of these does not match: the first such ends the
writing. -/
theorem writePieces_substitute (route : String) {constraints values : List (String × String)}
    {constraint : Token → String} {pieces : List Piece}
    (hconstraint : ∀ token ∈ pieces.filterMap Piece.token?, Pattern.constraintOf constraints token = constraint token)
    (hvalues : ∀ token ∈ pieces.filterMap Piece.token?, (values.lookup token.name).isSome = true) :
    writePieces (substitute route constraints values) pieces =
      match (pieces.filterMap Piece.token?).find? (failsConstraint constraint values) with
      | some token => .error (.mismatch token.name (constraint token) route)
      | none => .ok (encodedText values pieces) := by
  induction pieces with
  | nil => rfl
  | cons piece rest ih =>
    cases piece with
    | literal text =>
      have htokens : (Piece.literal text :: rest).filterMap Piece.token? = rest.filterMap Piece.token? := rfl
      rw [writePieces, ih hconstraint hvalues, htokens, encodedText_literal]
      cases (rest.filterMap Piece.token?).find? (failsConstraint constraint values) with
      | some token => rfl
      | none => rfl
    | token token =>
      have htokens : (Piece.token token :: rest).filterMap Piece.token? = token :: rest.filterMap Piece.token? := rfl
      rw [htokens] at hconstraint hvalues ⊢
      obtain ⟨hown, hrest⟩ := List.forall_mem_cons.1 hconstraint
      obtain ⟨hgiven, hothers⟩ := List.forall_mem_cons.1 hvalues
      obtain ⟨value, hvalue⟩ := Option.isSome_iff_exists.1 hgiven
      rw [writePieces, ih hrest hothers, substitute, hvalue, hown, encodedText_token hvalue]
      dsimp only
      by_cases hfull : fullMatches (constraint token) value = true
      · have hpasses : ¬failsConstraint constraint values token = true := by simp [failsConstraint, hvalue, hfull]
        rw [if_pos hfull, List.find?_cons_of_neg hpasses, ok_bind]
        cases (rest.filterMap Piece.token?).find? (failsConstraint constraint values) with
        | some token => rfl
        | none => rfl
      · have hfails : failsConstraint constraint values token = true := by simp [failsConstraint, hvalue, hfull]
        rw [if_neg hfull, List.find?_cons_of_pos hfails]
        rfl

/-! ## The path of a dynamic route -/

/-- The path when the first segments are written: the root path where a chain opens the pattern and nothing is given, or
where the pieces give no text. -/
def Pattern.Layout.pathText (layout : Layout) (values : List (String × String)) (depth : Nat) : String :=
  if layout.optionalStart = true ∧ values = [] then "/"
  else if encodedText values (layout.piecesTo depth) = "" then "/"
  else encodedText values (layout.piecesTo depth)

/-- What is answered for a route with these values, when so many segments are written. -/
inductive PathAnswer (route : String) (layout : Layout) (constraint : Token → String)
    (values : List (String × String)) (depth : Nat) : Except GenerateError String → Prop
  | missing {token : Token} (h : layout.baseTokens.find? (lacksValue values) = some token) :
    PathAnswer route layout constraint values depth (.error (.missing token.name route))
  | mismatch {token : Token} (hbase : layout.baseTokens.find? (lacksValue values) = none)
    (h : (layout.tokensTo depth).find? (failsConstraint constraint values) = some token) :
    PathAnswer route layout constraint values depth (.error (.mismatch token.name (constraint token) route))
  | written (hbase : layout.baseTokens.find? (lacksValue values) = none)
    (h : (layout.tokensTo depth).find? (failsConstraint constraint values) = none) :
    PathAnswer route layout constraint values depth (.ok (layout.pathText values depth))

section

variable {route : Route} {layout : Layout} {constraint : Token → String} {values : List (String × String)}
  {depth : Nat}

/-- Only one of the answers is given. -/
theorem PathAnswer.unique {name : String} {a b : Except GenerateError String}
    (ha : PathAnswer name layout constraint values depth a) (hb : PathAnswer name layout constraint values depth b) :
    a = b := by
  cases ha with
  | missing ha =>
    cases hb with
    | missing hb =>
      rw [ha] at hb
      cases hb
      rfl
    | mismatch hbase _ => rw [ha] at hbase; cases hbase
    | written hbase _ => rw [ha] at hbase; cases hbase
  | mismatch hbase ha =>
    cases hb with
    | missing hb => rw [hb] at hbase; cases hbase
    | mismatch _ hb =>
      rw [ha] at hb
      cases hb
      rfl
    | written _ hb => rw [ha] at hb; cases hb
  | written hbase ha =>
    cases hb with
    | missing hb => rw [hb] at hbase; cases hbase
    | mismatch _ hb => rw [ha] at hb; cases hb
    | written _ _ => rfl

/-- Resolved constraints are found under the names of their tokens, since no name comes twice. -/
theorem constraintOf_resolved {overrides : Pattern.Overrides} {pattern : Option String} {tokens : List Token}
    (hnames : (tokens.map (·.name)).Nodup)
    (hresolved : ∀ token ∈ tokens, Pattern.resolveConstraint token overrides pattern = .ok (constraint token)) :
    ∃ constraints, (tokens.mapM fun token => do
        return (token.name, ← Pattern.resolveConstraint token overrides pattern)) = .ok constraints ∧
      ∀ token ∈ tokens, Pattern.constraintOf constraints token = constraint token := by
  refine ⟨tokens.map fun token => (token.name, constraint token), ?_, fun token htoken => ?_⟩
  · rw [mapM_eq_ok, List.forall₂_map_right_iff, List.forall₂_same]
    intro token htoken
    rw [hresolved token htoken]
    rfl
  · have hkeys : ((tokens.map fun token => (token.name, constraint token)).map (·.1)).Nodup := by
      rw [List.map_map]
      exact hnames
    rw [Pattern.constraintOf, lookup_of_nodup hkeys (List.mem_map_of_mem htoken), Option.getD_some]

/-- A dynamic route whose constraints resolve has a layout with these constraints. -/
theorem exists_ofRoute_of_dynamic (hdynamic : Pattern.isDynamic route.path = true)
    (hlayout : Pattern.analyze route.path = .ok layout)
    (hresolved : ∀ token ∈ layout.tokens,
      Pattern.resolveConstraint token route.tokens (some route.path) = .ok (constraint token)) :
    ∃ info, RouteLayout.ofRoute route = .ok info ∧ info.layout = some layout ∧
      ∀ token ∈ layout.tokens, Pattern.constraintOf info.constraints token = constraint token := by
  have hwell := Pattern.wellFormed_of_layoutOf ((Pattern.layoutOf_dynamic hdynamic).trans hlayout)
  obtain ⟨constraints, hconstraints, hfound⟩ := constraintOf_resolved hwell.nodup hresolved
  refine ⟨⟨some layout, constraints⟩, ?_, rfl, hfound⟩
  rw [RouteLayout.ofRoute, hdynamic, Bool.not_true, if_neg Bool.false_ne_true, hlayout, ok_bind, hconstraints]
  rfl

theorem tokensTo_subset (layout : Layout) (depth : Nat) : layout.tokensTo depth ⊆ layout.tokens := by
  rw [Layout.tokens_eq]
  exact (((List.prefix_append_right_inj _).2 (Pattern.prefix_flatten_take _ _)).filterMap Piece.token?).subset

/-- **The path of a layout** is what its rule says. -/
theorem pathAnswer_of_layout {info : RouteLayout} (route : Route) (hlayout : info.layout = some layout)
    (hconstraint : ∀ token ∈ layout.tokens, Pattern.constraintOf info.constraints token = constraint token)
    (hdepth : layout.IsDepth values depth) :
    PathAnswer route.name layout constraint values depth (info.path route values) := by
  rw [path_of_layout hlayout]
  by_cases hroot : (layout.optionalStart && values.isEmpty) = true
  · -- a chain that opens the pattern has no base, and without values no token is written
    obtain ⟨hstart, hempty⟩ := Bool.and_eq_true_iff.1 hroot
    obtain rfl := List.isEmpty_iff.1 hempty
    have hbase := (Pattern.optionalStart_iff.1 hstart).1
    have hnone : layout.tokensTo depth = [] := by
      rw [Layout.tokensTo, ← writtenPieces_eq hdepth]
      exact writtenTokens_nil hbase
    have hpath : layout.pathText [] depth = "/" := if_pos ⟨hstart, rfl⟩
    rw [if_pos hroot, ← hpath]
    exact .written (by rw [Layout.baseTokens, hbase]; rfl) (by rw [hnone]; rfl)
  · have hroot' : ¬(layout.optionalStart = true ∧ values = []) := by
      rwa [Bool.and_eq_true, List.isEmpty_iff] at hroot
    rw [if_neg hroot]
    show PathAnswer _ _ _ _ _ (match layout.baseTokens.find? (lacksValue values) with
      | some token => _
      | none => _)
    cases hbase : layout.baseTokens.find? (lacksValue values) with
    | some token => exact .missing hbase
    | none =>
      have hgiven : ∀ token ∈ layout.tokensTo depth, (values.lookup token.name).isSome = true := by
        refine isSome_of_isDepth hdepth fun token htoken => ?_
        have hlacks := List.find?_eq_none.1 hbase token htoken
        rwa [lacksValue, Option.isNone_iff_eq_none, ← ne_eq, ← Option.isSome_iff_ne_none] at hlacks
      have hwritten := writePieces_substitute route.name
        (fun token (htoken : token ∈ layout.tokensTo depth) => hconstraint token (tokensTo_subset layout depth htoken)) hgiven
      dsimp only
      rw [writtenPieces_eq hdepth, hwritten]
      show PathAnswer _ _ _ _ _ ((match (layout.tokensTo depth).find? (failsConstraint constraint values) with
        | some token => _
        | none => _) >>= _)
      cases hfails : (layout.tokensTo depth).find? (failsConstraint constraint values) with
      | some token => exact .mismatch hbase hfails
      | none =>
        have hpath : layout.pathText values depth = if (encodedText values (layout.piecesTo depth)).isEmpty then "/"
            else encodedText values (layout.piecesTo depth) := by
          rw [Layout.pathText, if_neg hroot']
          simp only [String.isEmpty_iff]
        have hanswer : PathAnswer route.name layout constraint values depth _ := .written hbase hfails
        rw [hpath] at hanswer
        exact hanswer

end

/-- **What a generator answers** for a dynamic route whose pattern can be read and whose constraints resolve, after any
earlier calls and whether it keeps layouts or not. Of the values that are given only their presence decides how many
segments are written. A token of the base without a value is missing, the first of them before any value is looked at.
Else the first token that is written and whose value does not match its constraint as a whole is a mismatch. Else the
pieces up to that depth are joined with the encoded values; what lies behind them makes no difference. -/
theorem generated_path_exact (useCache : Bool) (routes : List (String × Route)) (hkeyed : KeyedByName routes)
    (earlier : List (String × Attributes)) (name : String) (route : Route) (hroute : routes.lookup name = some route)
    (hdynamic : Pattern.isDynamic route.path = true) (layout : Layout)
    (hlayout : Pattern.analyze route.path = .ok layout) (constraint : Token → String)
    (hresolved : ∀ token ∈ layout.tokens,
      Pattern.resolveConstraint token route.tokens (some route.path) = .ok (constraint token))
    (attributes : Attributes) :
    let generator := ({ useCache } : UrlGenerator).after routes earlier
    ∃ depth, layout.IsDepth attributes.given depth ∧ ∀ answer,
      (generator.generate routes name attributes).1 = answer ↔
        PathAnswer route.name layout constraint attributes.given depth answer := by
  intro generator
  obtain ⟨info, hinfo, hsome, hconstraint⟩ := exists_ofRoute_of_dynamic hdynamic hlayout hresolved
  have hdepth := isDepth_takeWhile layout attributes.given
  have hpath : (generator.generate routes name attributes).1 = info.path route attributes.given := by
    rw [UrlGenerator.generate_after useCache hkeyed, UrlGenerator.generate_uncached hroute, hinfo]
  have hrule := pathAnswer_of_layout route hsome hconstraint hdepth
  rw [← hpath] at hrule
  refine ⟨_, hdepth, fun answer => ⟨?_, hrule.unique⟩⟩
  rintro rfl
  exact hrule

def journalPage : Route :=
  ⟨"/journal/\x7byear:[0-9]+\x7d[/\x7bmonth\x7d;/\x7bday\x7d]", "journal", none, [("day", "[0-9]+")], none, none, none⟩

/-- No month is given, so that the day is not written, and is not held against its constraint. -/
theorem journalPath_exact :
    let routes := [("journal", journalPage)]
    let generator := ({} : UrlGenerator).after routes [("journal", [("year", .int 1999)])]
    let attributes : Attributes := [("year", .int 2024), ("month", .null), ("day", .string "x")]
    (generator.generate routes "journal" attributes).1 = .ok "/journal/2024" := by
  intro routes generator attributes
  let layout : Layout := ⟨[.literal "/journal/", .token ⟨"\x7byear:[0-9]+\x7d", "year", some "[0-9]+"⟩],
    [[.literal "/", .token ⟨"\x7bmonth\x7d", "month", none⟩], [.literal "/", .token ⟨"\x7bday\x7d", "day", none⟩]]⟩
  let constraint : Token → String := fun token => if token.name = "month" then "[^/]+" else "[0-9]+"
  obtain ⟨depth, hdepth, hanswer⟩ := generated_path_exact true routes (by decide +kernel)
    [("journal", [("year", .int 1999)])] "journal" journalPage (by decide +kernel) (by decide +kernel) layout
    (by decide +kernel) constraint (by decide +kernel) attributes
  have hgiven : attributes.given = [("year", "2024"), ("day", "x")] := by decide +kernel
  rw [hgiven] at hdepth hanswer
  obtain rfl : depth = 0 := hdepth.unique (isDepth_takeWhile layout _)
  have hpath : layout.pathText [("year", "2024"), ("day", "x")] 0 = "/journal/2024" := by decide +kernel
  rw [hanswer, ← hpath]
  exact .written (by decide +kernel) (by decide +kernel)

end UrlRouter
