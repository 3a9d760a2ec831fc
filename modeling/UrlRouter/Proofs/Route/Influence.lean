/-
Which attributes a path depends on.

A path is written from the values of the tokens of its pattern. Other attributes are looked at in one place only: a
pattern that opens with its chain gives the root path when nothing at all is given. If such a chain begins with segments
without tokens, any attribute whatsoever brings these to light.

Results:
- `writtenPath_congr`: beyond that place, only the values of the pattern's tokens count.
- `path_influence`: when two groups of attributes that agree on the pattern's names give the same path.
- `foreign_attribute_matters`: an attribute that the pattern does not name changes a path.
-/
import Mathlib.Tactic
import UrlRouter.Proofs.Route.Generation

namespace UrlRouter

open Pattern (Layout Piece Token)

/-! ## Values of the tokens -/

section

variable {a b : List (String × String)}

/-- the same values for these tokens -/
def AgreeOn (tokens : List Token) (a b : List (String × String)) : Prop :=
  ∀ token ∈ tokens, a.lookup token.name = b.lookup token.name

theorem AgreeOn.of_subset {tokens others : List Token} (h : AgreeOn tokens a b) (hsub : others ⊆ tokens) :
    AgreeOn others a b := fun token htoken => h token (hsub htoken)

theorem supplied_congr {pieces : List Piece} (h : AgreeOn (pieces.filterMap Piece.token?) a b) :
    supplied a pieces = supplied b pieces := by
  rw [supplied, supplied, Bool.eq_iff_iff, List.all_eq_true, List.all_eq_true]
  refine forall₂_congr fun token htoken => ?_
  rw [h token htoken]

theorem takeWhile_supplied_congr {segments : List (List Piece)}
    (h : AgreeOn (segments.flatten.filterMap Piece.token?) a b) :
    segments.takeWhile (supplied a) = segments.takeWhile (supplied b) := by
  induction segments with
  | nil => rfl
  | cons segment rest ih =>
    rw [List.flatten_cons, List.filterMap_append] at h
    have hrest := ih (h.of_subset (List.subset_append_right _ _))
    rw [List.takeWhile_cons, List.takeWhile_cons, hrest, supplied_congr (h.of_subset (List.subset_append_left _ _))]

theorem writePieces_congr (route : String) (constraints : List (String × String)) {pieces : List Piece}
    (h : AgreeOn (pieces.filterMap Piece.token?) a b) :
    writePieces (substitute route constraints a) pieces = writePieces (substitute route constraints b) pieces := by
  induction pieces with
  | nil => rfl
  | cons piece rest ih =>
    cases piece with
    | literal text => rw [writePieces, writePieces, ih h]
    | token token =>
      obtain ⟨hown, hrest⟩ := List.forall_mem_cons.1 h
      rw [writePieces, writePieces, ih hrest, substitute, substitute, hown]

variable {layout : Layout}

theorem writtenPieces_congr (h : AgreeOn layout.tokens a b) : layout.writtenPieces a = layout.writtenPieces b := by
  rw [Layout.tokens_eq, Layout.pieces, List.filterMap_append] at h
  rw [Layout.writtenPieces, Layout.writtenPieces,
    takeWhile_supplied_congr (h.of_subset (List.subset_append_right _ _))]

end

/-! ## The path beyond the root -/

section

variable {info : RouteLayout} {layout : Layout}

/-- the path when it is not the root path for want of any value -/
def RouteLayout.writtenPath (info : RouteLayout) (layout : Layout) (route : Route) (values : List (String × String)) :
    Except GenerateError String :=
  match layout.baseTokens.find? fun token => (values.lookup token.name).isNone with
  | some token => .error (.missing token.name route.name)
  | none => do
    let text ← writePieces (substitute route.name info.constraints values) (layout.writtenPieces values)
    return if text.isEmpty then "/" else text

/-- the path of the segments without tokens that a chain begins with -/
def Pattern.Layout.openingPath (layout : Layout) : String :=
  let text := encodedText [] (layout.segments.takeWhile fun segment => (segment.filterMap Piece.token?).isEmpty).flatten
  if text.isEmpty then "/" else text

/-- The layout of a route is that of its pattern. -/
theorem analyze_of_ofRoute {route : Route} (hinfo : RouteLayout.ofRoute route = .ok info)
    (h : info.layout = some layout) : Pattern.analyze route.path = .ok layout := by
  unfold RouteLayout.ofRoute at hinfo
  split_ifs at hinfo with hstatic
  · obtain rfl := Except.ok.inj hinfo
    cases h
  · obtain ⟨read, hread, hinfo⟩ := bind_eq_ok.1 hinfo
    obtain ⟨constraints, -, hinfo⟩ := bind_eq_ok.1 hinfo
    obtain rfl := Except.ok.inj hinfo
    obtain rfl := Option.some.inj h
    exact hread

theorem path_eq (h : info.layout = some layout) (route : Route) (values : List (String × String)) :
    info.path route values =
      if layout.optionalStart && values.isEmpty then .ok "/" else info.writtenPath layout route values :=
  path_of_layout h route values

/-- **Beyond the root path**, only the values of the pattern's tokens count. -/
theorem writtenPath_congr {a b : List (String × String)} (h : AgreeOn layout.tokens a b) (route : Route) :
    info.writtenPath layout route a = info.writtenPath layout route b := by
  have hbase : layout.baseTokens.find? (fun token => (a.lookup token.name).isNone) =
      layout.baseTokens.find? fun token => (b.lookup token.name).isNone := by
    refine List.find?_congr fun token htoken => ?_
    rw [h token (List.mem_append_left _ htoken)]
  have hpieces : AgreeOn ((layout.writtenPieces a).filterMap Piece.token?) a b := by
    refine h.of_subset ?_
    rw [Layout.tokens_eq]
    exact ((prefix_writtenPieces layout a).filterMap Piece.token?).subset
  rw [RouteLayout.writtenPath, RouteLayout.writtenPath, hbase, writePieces_congr route.name info.constraints hpieces,
    writtenPieces_congr h]

theorem supplied_nil (pieces : List Piece) : supplied [] pieces = (pieces.filterMap Piece.token?).isEmpty := by
  rw [supplied]
  cases pieces.filterMap Piece.token? <;> rfl

/-- A pattern that opens with its chain gives the first segments without tokens, when its tokens have no values. -/
theorem writtenPath_nil (hstart : layout.optionalStart = true) (route : Route) :
    info.writtenPath layout route [] = .ok layout.openingPath := by
  have hbase := (Pattern.optionalStart_iff.1 hstart).1
  have hpieces : layout.writtenPieces [] =
      (layout.segments.takeWhile fun segment => (segment.filterMap Piece.token?).isEmpty).flatten := by
    rw [Layout.writtenPieces, hbase, List.nil_append, funext supplied_nil]
  have hnone : (layout.writtenPieces []).filterMap Piece.token? = [] := writtenTokens_nil hbase
  have hwritten := @writePieces_substitute route.name info.constraints [] (Pattern.constraintOf info.constraints)
    (layout.writtenPieces []) (fun _ _ => rfl) (by rw [hnone]; exact fun _ h => absurd h List.not_mem_nil)
  rw [hnone] at hwritten
  rw [RouteLayout.writtenPath, Layout.baseTokens, hbase]
  dsimp only [List.filterMap_nil, List.find?_nil]
  rw [hwritten, hpieces]
  rfl

end

/-! ## Two groups of attributes -/

/-- A path with some value and one without any are the same where the opening segments give the root path. -/
theorem path_eq_path_nil {info : RouteLayout} {layout : Layout} (hlayout : info.layout = some layout)
    (hstart : layout.optionalStart = true) {values : List (String × String)} (hvalues : values ≠ [])
    (hagree : AgreeOn layout.tokens values []) (route : Route) :
    info.path route values = info.path route [] ↔ layout.openingPath = "/" := by
  have hroot : info.path route [] = .ok "/" := by
    rw [path_eq hlayout, hstart]
    rfl
  have hsome : ¬(layout.optionalStart && values.isEmpty) = true := by
    rw [Bool.and_eq_true, List.isEmpty_iff]
    exact fun h => hvalues h.2
  rw [hroot, path_eq hlayout, if_neg hsome, writtenPath_congr hagree, writtenPath_nil hstart, Except.ok.injEq]

/-- Values that agree give the same path, unless the chain that opens the pattern begins with text and only some of them
are none at all. -/
theorem path_eq_iff {info : RouteLayout} {layout : Layout} (hlayout : info.layout = some layout)
    {a b : List (String × String)} (hagree : AgreeOn layout.tokens a b) (route : Route) :
    info.path route a = info.path route b ↔
      (layout.optionalStart = true → layout.openingPath ≠ "/" → (a = [] ↔ b = [])) := by
  cases hstart : layout.optionalStart with
  | false =>
    rw [path_eq hlayout, path_eq hlayout, hstart, writtenPath_congr hagree]
    simp
  | true =>
    by_cases ha : a = []
    · by_cases hb : b = []
      · simp [ha, hb]
      · subst ha
        have hnil := path_eq_path_nil hlayout hstart hb (fun token htoken => (hagree token htoken).symm) route
        rw [eq_comm, hnil]
        simp [hb]
    · by_cases hb : b = []
      · subst hb
        rw [path_eq_path_nil hlayout hstart ha hagree route]
        simp [ha]
      · rw [path_eq hlayout, path_eq hlayout, writtenPath_congr hagree]
        simp [ha, hb]

/-- Where there is no route with a pattern that can be read, the attributes make no difference. -/
theorem answer_of_no_layout {routes : List (String × Route)} {name : String}
    (hnone : ∀ route info layout, routes.lookup name = some route → RouteLayout.ofRoute route = .ok info →
      info.layout ≠ some layout) (a b : Attributes) :
    (UrlGenerator.uncached.generate routes name a).1 = (UrlGenerator.uncached.generate routes name b).1 := by
  cases hroute : routes.lookup name with
  | none => rw [UrlGenerator.generate, UrlGenerator.generate, hroute]
  | some route =>
    rw [UrlGenerator.generate_uncached hroute, UrlGenerator.generate_uncached hroute]
    cases hinfo : RouteLayout.ofRoute route with
    | error e => rfl
    | ok info =>
      have hstatic : info.layout = none :=
        Option.eq_none_iff_forall_ne_some.2 fun layout => hnone route info layout hroute hinfo
      dsimp only
      rw [RouteLayout.path, RouteLayout.path, hstatic]

/-- **What a path depends on.** Two groups of attributes, of which those that are null count as absent, agree on every
name in the pattern of a route. After any earlier calls a generator gives them the same path, or refuses them for the
same reason, with one exception: the pattern is nothing but a chain that begins with segments without tokens, which are
more than a slash, and one of the groups is empty while the other is not. Then the answers differ. -/
theorem path_influence (useCache : Bool) (routes : List (String × Route)) (hkeyed : KeyedByName routes)
    (earlier : List (String × Attributes)) (name : String) (a b : Attributes)
    (hagree : ∀ route layout, routes.lookup name = some route → Pattern.analyze route.path = .ok layout →
      ∀ key ∈ layout.names, a.given.lookup key = b.given.lookup key) :
    let generator := ({ useCache } : UrlGenerator).after routes earlier
    (generator.generate routes name a).1 = (generator.generate routes name b).1 ↔
      ∀ route info layout, routes.lookup name = some route → RouteLayout.ofRoute route = .ok info →
        info.layout = some layout → layout.optionalStart = true → layout.openingPath ≠ "/" →
        (a.given = [] ↔ b.given = []) := by
  intro generator
  rw [UrlGenerator.generate_after useCache hkeyed, UrlGenerator.generate_after useCache hkeyed]
  by_cases hread : ∃ route info layout, routes.lookup name = some route ∧ RouteLayout.ofRoute route = .ok info ∧
      info.layout = some layout
  · obtain ⟨route, info, layout, hroute, hinfo, hlayout⟩ := hread
    have htokens : AgreeOn layout.tokens a.given b.given := fun token htoken =>
      hagree route layout hroute (analyze_of_ofRoute hinfo hlayout) token.name (List.mem_map_of_mem htoken)
    rw [UrlGenerator.generate_uncached hroute, UrlGenerator.generate_uncached hroute, hinfo]
    dsimp only
    rw [path_eq_iff hlayout htokens]
    constructor
    · intro h found info' layout' hfound hinfo' hlayout'
      obtain rfl : route = found := Option.some.inj (hroute.symm.trans hfound)
      obtain rfl : info = info' := Except.ok.inj (hinfo.symm.trans hinfo')
      obtain rfl : layout = layout' := Option.some.inj (hlayout.symm.trans hlayout')
      exact h
    · exact fun h => h route info layout hroute hinfo hlayout
  · have hnone : ∀ route info layout, routes.lookup name = some route → RouteLayout.ofRoute route = .ok info →
        info.layout ≠ some layout := fun route info layout hroute hinfo hlayout =>
      hread ⟨route, info, layout, hroute, hinfo, hlayout⟩
    refine iff_of_true (answer_of_no_layout hnone a b) ?_
    intro route info layout hroute hinfo hlayout
    exact absurd hlayout (hnone route info layout hroute hinfo)

def homePage : Route := ⟨"[/about;/\x7bpage\x7d]", "home", none, [], none, none, none⟩

theorem names_homePage {layout : Layout} (h : Pattern.analyze homePage.path = .ok layout) : layout.names = ["page"] := by
  have hnames : (Pattern.analyze homePage.path).toOption.map Layout.names = some ["page"] := by decide +kernel
  rw [h] at hnames
  exact Option.some.inj hnames

/-- Neither group names a page, and each holds something. -/
theorem homePaths_same :
    let routes := [("home", homePage)]
    let generator := ({} : UrlGenerator).after routes [("home", [])]
    (generator.generate routes "home" [("utm", .string "x")]).1 =
      (generator.generate routes "home" [("page", .null), ("ref", .int 7)]).1 := by
  intro routes generator
  have hsame : routes.lookup "home" = some homePage := rfl
  refine (path_influence true routes (by decide +kernel) [("home", [])] "home" _ _ ?_).2 ?_
  · intro route layout hroute hlayout key hkey
    rw [hsame] at hroute
    obtain rfl := Option.some.inj hroute
    rw [names_homePage hlayout, List.mem_singleton] at hkey
    rw [hkey]
    decide +kernel
  · intro route info layout _ _ _ _ _
    exact iff_of_false (by decide +kernel) (by decide +kernel)

/-- **A foreign attribute matters.** The pattern names only a page. Of two groups without one, the empty group gives the
root path, and the other gives the segment that comes before the page. -/
theorem foreign_attribute_matters :
    let routes := [("home", homePage)]
    let foreign : Attributes := [("utm", .string "x")]
    (∀ layout, Pattern.analyze homePage.path = .ok layout →
        ∀ key ∈ layout.names, foreign.given.lookup key = (Attributes.given []).lookup key) ∧
      (({} : UrlGenerator).generate routes "home" []).1 = .ok "/" ∧
      (({} : UrlGenerator).generate routes "home" foreign).1 = .ok "/about" := by
  intro routes foreign
  refine ⟨fun layout hlayout key hkey => ?_, by decide +kernel, by decide +kernel⟩
  rw [names_homePage hlayout, List.mem_singleton] at hkey
  rw [hkey]
  decide +kernel

end UrlRouter
