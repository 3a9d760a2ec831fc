/-
Static routes that were accepted, matched on their own paths.

A detector compares the paths of routes as they are written. Reading a path is coarser in one place: the root path may be
written as nothing or as a slash. So two routes may be accepted which answer for the same path and method, and the one
that is tried later is not reached there. Nothing else keeps an accepted static route from its requests.

Results:
- `plainTest_static`: a static route matches its own path, and no other.
- `answer_ownPath`: what a request for the own path of a route finds.
- `eq_or_rootApart`: accepted routes for the same path and method are the same, or spell the root path differently.
- `static_routes_reached`: which requests reach an accepted static route, and when all of them do.
-/
import Mathlib.Tactic
import UrlRouter.Proofs.Dispatch.PlainRoutes
import UrlRouter.Proofs.Route.Collisions
import UrlRouter.Proofs.Route.Written

namespace UrlRouter

open Pattern (Layout Piece PlainLiteral Spells layoutOf)

/-! ## Own paths -/

/-- the path for which a static route answers -/
def Route.ownPath (route : Route) : String := if route.path.isEmpty then "/" else route.path

/-- both are the root path, written differently -/
def Route.RootApart (route other : Route) : Prop :=
  (route.path = "" ∧ other.path = "/") ∨ (route.path = "/" ∧ other.path = "")

theorem Route.ownPath_of_empty {route : Route} (h : route.path = "") : route.ownPath = "/" := by
  rw [Route.ownPath, h]
  rfl

theorem Route.ownPath_of_ne {route : Route} (h : route.path ≠ "") : route.ownPath = route.path :=
  if_neg fun hempty => h (String.isEmpty_iff.1 hempty)

/-- Only the root path has two spellings. -/
theorem Route.ownPath_eq_iff {route other : Route} :
    route.ownPath = other.ownPath ↔ route.path = other.path ∨ route.RootApart other := by
  unfold Route.RootApart
  by_cases hroute : route.path = ""
  · by_cases hother : other.path = ""
    · simp [Route.ownPath_of_empty hroute, Route.ownPath_of_empty hother, hroute, hother]
    · rw [Route.ownPath_of_empty hroute, Route.ownPath_of_ne hother, hroute]
      simp only [true_and, hother, and_false, or_false, Ne.symm hother, false_or]
      exact eq_comm
  · by_cases hother : other.path = ""
    · simp [Route.ownPath_of_ne hroute, Route.ownPath_of_empty hother, hroute, hother]
    · simp [Route.ownPath_of_ne hroute, Route.ownPath_of_ne hother, hroute, hother]

/-- Braces and brackets are among the characters that mean something in an expression. -/
theorem static_of_plain {path : String} (h : PlainLiteral path) : Pattern.isDynamic path = false := by
  refine List.any_eq_false.2 fun c hc hopen => ?_
  have hcases : c = '\x7b' ∨ c = '[' := by simpa [Pattern.isTokenOpen] using hopen
  rcases hcases with rfl | rfl
  · exact h _ hc (by decide)
  · exact h _ hc (by decide)

/-- A static route is read as its own path. -/
theorem layoutOf_plain {route : Route} (h : PlainLiteral route.path) :
    layoutOf route.path = .ok ⟨[.literal route.ownPath], []⟩ := Pattern.layoutOf_static (static_of_plain h)

theorem isPlain_of_plain {route : Route} (h : PlainLiteral route.path) : route.IsPlain := by
  refine ⟨_, layoutOf_plain h, ?_, ?_⟩
  · intro text htext
    obtain rfl : text = route.ownPath := by simpa [Layout.pieces] using htext
    rw [Route.ownPath]
    split_ifs
    · decide
    · exact h
  · intro token htoken
    simp [Layout.pieces] at htoken

theorem spells_literal_only {text : String} {values : List (List Char)} {path : String} :
    Spells [.literal text] values path.toList ↔ text = path ∧ values = [] := by
  rw [Pattern.spells_literal]
  constructor
  · rintro ⟨rest, htext, hrest⟩
    cases hrest
    exact ⟨String.toList_inj.1 (by simpa using htext.symm), rfl⟩
  · rintro ⟨rfl, rfl⟩
    exact ⟨[], (List.append_nil _).symm, .nil⟩

/-- **A static route matches its own path**, and no other. -/
theorem plainTest_static {route : Route} (h : PlainLiteral route.path) (path : String) :
    plainTest route path = if route.ownPath = path then some [] else none := by
  have hvalues : plainValues? ⟨[.literal route.ownPath], []⟩ path = if route.ownPath = path then some [] else none := by
    have hvariants : (⟨[.literal route.ownPath], []⟩ : Layout).variants = [[.literal route.ownPath]] := rfl
    rw [plainValues?, hvariants, List.findSome?_singleton]
    split_ifs with hpath
    · exact Pattern.reading?_eq_some.2
        ⟨spells_literal_only.2 ⟨hpath, rfl⟩, fun others hothers => .inl (spells_literal_only.1 hothers).2⟩
    · exact Pattern.reading?_eq_none.2 fun values hspells => hpath (spells_literal_only.1 hspells).1
  rw [plainTest_eq (layoutOf_plain h), hvalues]
  split_ifs
  · rfl
  · rfl

/-! ## The order of trying -/

/-- the routes that a request with this method is tried against, in this order -/
def triedFor (method : String) (routes : List Route) : List Route :=
  routesListing (Text.toUpper method) routes ++ routesForAny routes

section

variable {routes : List Route} {method : String}

theorem mem_triedFor (hmade : ∀ route ∈ routes, route.Made) {route : Route} :
    route ∈ triedFor method routes ↔ route ∈ routes ∧ route.allowsMethod method = true := by
  rw [triedFor, List.mem_append, routesListing, routesForAny, List.mem_filter, List.mem_filter, ← and_or_left,
    and_congr_right_iff]
  intro hroute
  rw [(hmade route hroute).isEmpty_sortedMethods, Route.allowsMethod, Bool.or_eq_true, or_comm]
  rfl

/-- No route lists a method and is for any. -/
theorem nodup_triedFor (h : routes.Nodup) : (triedFor method routes).Nodup := by
  refine List.nodup_append.2 ⟨h.filter _, h.filter _, fun listing hlisting any hany heq => ?_⟩
  have hlists := (List.mem_filter.1 hlisting).2
  have hnone := (List.mem_filter.1 hany).2
  rw [Route.methodNames, heq, List.isEmpty_iff.1 hnone] at hlists
  simp at hlists

/-- **A request for a path** finds the first route tried that answers for it. -/
theorem answer_ownPath (hplain : ∀ route ∈ routes, PlainLiteral route.path) {path : String} {winner : Route}
    (hwinner : (triedFor method routes).find? (·.ownPath = path) = some winner) :
    answer plainTest routes path method =
      { status := .found, method := Text.toUpper method, path, route := some winner.name } := by
  have hfirst : ∀ part : List Route, part ⊆ routes →
      firstMatch plainTest path part = (part.find? (·.ownPath = path)).map fun route => (route.name, []) := by
    intro part hpart
    induction part with
    | nil => rfl
    | cons route rest ih =>
      obtain ⟨hroute, hrest⟩ := List.cons_subset.1 hpart
      have htail := ih hrest
      rw [firstMatch] at htail ⊢
      rw [List.findSome?_cons, plainTest_static (hplain route hroute), htail]
      by_cases hpath : route.ownPath = path
      · simp [hpath]
      · simp [hpath]
  have hfound : (firstMatch plainTest path (routesListing (Text.toUpper method) routes)).or
      (firstMatch plainTest path (routesForAny routes)) = some (winner.name, []) := by
    rw [hfirst (routesListing _ routes) (List.filter_subset_self _), hfirst (routesForAny routes)
      (List.filter_subset_self _), ← Option.map_or, ← List.find?_append, ← triedFor, hwinner]
    rfl
  unfold answer
  dsimp only
  rw [hfound]

/-- Among elements that differ, the first with a property is the one that comes after no other with it. -/
theorem find?_eq_some_iff_sublist {α : Type} {p : α → Bool} {items : List α} (hnodup : items.Nodup) {a : α}
    (ha : a ∈ items) (hpa : p a = true) : items.find? p = some a ↔ ∀ b, p b = true → ¬[b, a].Sublist items := by
  constructor
  · intro hfind b hpb hsub
    obtain ⟨-, before, after, rfl, hbefore⟩ := List.find?_eq_some_iff_append.1 hfind
    have hb : b ∉ before := fun hb => by simpa [hpb] using hbefore b hb
    -- the pair cannot begin before `a`, and behind it there is no second `a`
    have hrest : [b, a].Sublist (a :: after) := by
      obtain ⟨front, back, hsplit, hfront, hback⟩ := List.sublist_append_iff.1 hsub
      cases front with
      | nil => rwa [hsplit]
      | cons c front =>
        obtain rfl : b = c := (List.cons.inj hsplit).1
        exact absurd (hfront.subset List.mem_cons_self) hb
    have hafter : a ∉ after := (List.nodup_cons.1 (List.nodup_append.1 hnodup).2.1).1
    rcases List.sublist_cons_iff.1 hrest with hrest | ⟨tail, htail, hrest⟩
    · exact hafter (hrest.subset (by simp))
    · obtain rfl := (List.cons.inj htail).2
      exact hafter (hrest.subset List.mem_cons_self)
  · intro hnone
    obtain ⟨before, after, rfl⟩ := List.append_of_mem ha
    refine List.find?_eq_some_iff_append.2 ⟨hpa, before, after, rfl, fun b hb => ?_⟩
    have hsub : [b, a].Sublist (before ++ a :: after) :=
      (List.singleton_sublist.2 hb).append (List.singleton_sublist.2 List.mem_cons_self)
    simpa using mt (hnone b) (not_not.2 hsub)

end

/-! ## Accepted routes -/

/-- **Routes accepted one after the other** are those behind the detector. -/
theorem Detector.Holds.foldlM {detector after : Detector} {accepted : List Route} (h : detector.Holds accepted)
    {routes : List Route} (hmade : ∀ route ∈ routes, route.Made)
    (hafter : routes.foldlM Detector.checkAndRecord detector = .ok after) : after.Holds (accepted ++ routes) := by
  induction routes generalizing detector accepted with
  | nil =>
    cases hafter
    rwa [List.append_nil]
  | cons route rest ih =>
    rw [List.foldlM_cons] at hafter
    obtain ⟨next, hnext, hafter⟩ := bind_eq_ok.1 hafter
    have hholds := (h.of_ok (hmade route List.mem_cons_self) hnext).2
    rw [List.append_cons]
    exact ih hholds (fun other hother => hmade other (List.mem_cons_of_mem route hother)) hafter

theorem Detector.Holds.names_nodup {detector : Detector} {accepted : List Route} (h : detector.Holds accepted) :
    (accepted.map (·.name)).Nodup := by
  rw [List.Nodup, List.pairwise_map]
  exact h.apart.imp fun hapart heq => hapart (.inl heq)

/-- Routes share a method just when some request may go to either. -/
theorem sharesMethod_iff {route other : Route} (hroute : route.Made) (hother : other.Made) :
    route.SharesMethod other ↔ ∃ method, route.allowsMethod method = true ∧ other.allowsMethod method = true := by
  have hlisted : ∀ route : Route, ∀ method ∈ route.sortedMethods, route.allowsMethod method.name = true := by
    intro route method hmethod
    rw [Route.allowsMethod, toUpper_methodName, List.contains_iff_mem.2 (List.mem_map_of_mem hmethod), Bool.or_true]
  have hsome : ∀ route : Route, route.Made → ∃ method : Method, route.allowsMethod method.name = true := by
    intro route hmade
    cases hmethods : route.sortedMethods with
    | nil =>
      have hany : route.allowsAnyMethod = true := by rw [← hmade.isEmpty_sortedMethods, hmethods]; rfl
      exact ⟨.get, by rw [Route.allowsMethod, hany, Bool.true_or]⟩
    | cons method rest => exact ⟨method, hlisted route method (by rw [hmethods]; exact List.mem_cons_self)⟩
  constructor
  · rintro (hany | hany | ⟨method, hmine, htheirs⟩)
    · obtain ⟨method, hmethod⟩ := hsome other hother
      exact ⟨method.name, by rw [Route.allowsMethod, hany, Bool.true_or], hmethod⟩
    · obtain ⟨method, hmethod⟩ := hsome route hroute
      exact ⟨method.name, hmethod, by rw [Route.allowsMethod, hany, Bool.true_or]⟩
    · exact ⟨method.name, hlisted route method hmine, hlisted other method htheirs⟩
  · rintro ⟨method, hmine, htheirs⟩
    rcases Bool.or_eq_true_iff.1 hmine with hany | hmine
    · exact .inl hany
    rcases Bool.or_eq_true_iff.1 htheirs with hany | htheirs
    · exact .inr (.inl hany)
    obtain ⟨found, hfound, hname⟩ := List.mem_map.1 (List.contains_iff_mem.1 hmine)
    obtain ⟨same, hsame, hname'⟩ := List.mem_map.1 (List.contains_iff_mem.1 htheirs)
    obtain rfl := methodName_inj (hname.trans hname'.symm)
    exact .inr (.inr ⟨found, hfound, hsame⟩)

/-- **Accepted routes for the same path and method** are the same, or spell the root path differently. -/
theorem Detector.Holds.eq_or_rootApart {detector : Detector} {accepted : List Route} (h : detector.Holds accepted)
    {route other : Route} (hroute : route ∈ accepted) (hother : other ∈ accepted)
    (hpath : route.ownPath = other.ownPath) (hshares : route.SharesMethod other) :
    route = other ∨ route.RootApart other := by
  rcases Route.ownPath_eq_iff.1 hpath with hsame | hroot
  · left
    by_contra hne
    have hsymm : Std.Symm fun route other : Route => ¬route.Collides other := by
      refine ⟨fun route other hapart hcollides => hapart ?_⟩
      rcases hcollides with heq | ⟨hpath, hshares⟩
      · exact .inl heq.symm
      · exact .inr ⟨hpath.symm, hshares.symm⟩
    exact h.apart.forall hroute hother hne (.inr ⟨hsame, hshares⟩)
  · exact .inr hroot

/-! ## Reached routes -/

/-- a request for the own path of the route finds just this route -/
def Matcher.Reaches (matcher : Matcher) (route : Route) (method : String) : Prop :=
  matcher.match' route.ownPath method =
    .ok { status := .found, method := Text.toUpper method, path := route.ownPath, route := some route.name }

section

variable {routes : List Route} {detector : Detector} {matcher : Matcher}

/-- **A request for the own path** of an accepted route reaches a route for this path and method. It is another one just
when that spells the root path differently and is tried before. -/
theorem reaches_iff (hholds : detector.Holds routes) (hplain : ∀ route ∈ routes, PlainLiteral route.path)
    (hmatch : ∀ path method, matcher.match' path method = .ok (answer plainTest routes path method)) {route : Route}
    (hroute : route ∈ routes) {method : String} (hmethod : route.allowsMethod method = true) :
    (∃ winner ∈ routes, winner.allowsMethod method = true ∧ winner.ownPath = route.ownPath ∧
      matcher.Reaches winner method) ∧
    (matcher.Reaches route method ↔
      ∀ other, other.RootApart route → ¬[other, route].Sublist (triedFor method routes)) := by
  have hmem : ∀ {other}, other ∈ triedFor method routes ↔ other ∈ routes ∧ other.allowsMethod method = true :=
    mem_triedFor hholds.made
  have htried : route ∈ triedFor method routes := hmem.2 ⟨hroute, hmethod⟩
  have hnodup : (triedFor method routes).Nodup := nodup_triedFor (List.Nodup.of_map _ hholds.names_nodup)
  obtain ⟨winner, hwinner⟩ : ∃ winner, (triedFor method routes).find? (·.ownPath = route.ownPath) = some winner :=
    Option.isSome_iff_exists.1 (List.find?_isSome.2 ⟨route, htried, by simp⟩)
  have hanswer := (hmatch route.ownPath method).trans (congrArg Except.ok (answer_ownPath hplain hwinner))
  obtain ⟨hlisted, hallows⟩ := hmem.1 (List.mem_of_find?_eq_some hwinner)
  have hpath : winner.ownPath = route.ownPath := by simpa using List.find?_some hwinner
  have hown : matcher.Reaches route method ↔ winner = route := by
    rw [Matcher.Reaches, hanswer]
    constructor
    · intro h
      have hname : winner.name = route.name := by simpa using h
      exact List.inj_on_of_nodup_map hholds.names_nodup hlisted hroute hname
    · rintro rfl
      rfl
  refine ⟨⟨winner, hlisted, hallows, hpath, by rw [Matcher.Reaches, hpath]; exact hanswer⟩, ?_⟩
  rw [hown, ← Option.some_inj, ← hwinner, find?_eq_some_iff_sublist hnodup htried (by simp)]
  constructor
  · intro hfirst other hroot hbefore
    exact hfirst other (decide_eq_true (Route.ownPath_eq_iff.2 (.inr hroot))) hbefore
  · intro hfirst other hother hbefore
    obtain ⟨hother', hallows⟩ := hmem.1 (hbefore.subset List.mem_cons_self)
    have hshares := (sharesMethod_iff (hholds.made other hother') (hholds.made route hroute)).2
      ⟨method, hallows, hmethod⟩
    rcases hholds.eq_or_rootApart hother' hroute (of_decide_eq_true hother) hshares with rfl | hroot
    · exact absurd (hnodup.sublist hbefore) (by simp)
    · exact hfirst other hroot hbefore

end

/-- **Which static routes are reached.** Routes whose paths hold none of the characters that mean something in an
expression, braces and brackets included, are accepted one after the other. With either strategy and chunks of any size
they make a matcher, and a request for the own path of a route with any method that it allows is answered with some
route for this path and method. This is the route itself, unless the root path is also registered in the other
spelling, by a route that is tried before it. So all routes are reached with all their methods just when the two
spellings of the root path share none. -/
theorem static_routes_reached (strategy : Strategy) (size : Int) (hsize : 1 ≤ size) (routes : List Route)
    (hmade : ∀ route ∈ routes, route.Made) (hplain : ∀ route ∈ routes, PlainLiteral route.path) (detector : Detector)
    (haccepted : routes.foldlM Detector.checkAndRecord {} = .ok detector) :
    ∃ collector matcher, Collector.make strategy.name size = .ok collector ∧
      (collector.addRoutes routes).2 = .ok () ∧
      Matcher.ofData (collector.addRoutes routes).1.data = .ok matcher ∧
      (∀ route ∈ routes, ∀ method, route.allowsMethod method = true →
        (∃ winner ∈ routes, winner.allowsMethod method = true ∧ winner.ownPath = route.ownPath ∧
          matcher.Reaches winner method) ∧
        (matcher.Reaches route method ↔
          ∀ other, other.RootApart route → ¬[other, route].Sublist (triedFor method routes))) ∧
      ((∀ route ∈ routes, ∀ method, route.allowsMethod method = true → matcher.Reaches route method) ↔
        ∀ empty ∈ routes, empty.path = "" → ∀ slash ∈ routes, slash.path = "/" → ¬empty.SharesMethod slash) := by
  have hholds : detector.Holds routes := Detector.Holds.empty.foldlM hmade haccepted
  have hnames := hholds.names_nodup
  obtain ⟨collector, matcher, hmake, hadd, hdata, hmatch⟩ := exists_matcher_of_plain strategy hsize hnames
    fun route hroute => isPlain_of_plain (hplain route hroute)
  refine ⟨collector, matcher, hmake, hadd, hdata, fun route hroute method hmethod =>
    reaches_iff hholds hplain hmatch hroute hmethod, ?_, ?_⟩
  · intro hall empty hempty hpath slash hslash hpath' hshares
    obtain ⟨method, hmine, htheirs⟩ := (sharesMethod_iff (hmade empty hempty) (hmade slash hslash)).1 hshares
    have hown : empty.ownPath = slash.ownPath := Route.ownPath_eq_iff.2 (.inr (.inl ⟨hpath, hpath'⟩))
    have hfirst := hall empty hempty method hmine
    have hsecond := hall slash hslash method htheirs
    -- one request cannot be answered with both
    rw [Matcher.Reaches, hown] at hfirst
    have hname : empty.name = slash.name := by simpa using hfirst.symm.trans hsecond
    obtain rfl := List.inj_on_of_nodup_map hnames hempty hslash hname
    exact absurd (hpath.symm.trans hpath') (by decide)
  · intro hapart route hroute method hmethod
    refine (reaches_iff hholds hplain hmatch hroute hmethod).2.2 fun other hroot hbefore => ?_
    obtain ⟨hother, hallows⟩ := (mem_triedFor hmade).1 (hbefore.subset List.mem_cons_self)
    have hshares := (sharesMethod_iff (hmade other hother) (hmade route hroute)).2 ⟨method, hallows, hmethod⟩
    rcases hroot with ⟨hpath, hpath'⟩ | ⟨hpath, hpath'⟩
    · exact hapart other hother hpath route hroute hpath' hshares
    · exact hapart route hroute hpath' other hother hpath hshares.symm

def blankRoot : Route := ⟨"", "blank", some [.get], [], none, none, none⟩

def slashRoot : Route := ⟨"/", "slash", some [.get], [], none, none, none⟩

def postedRoot : Route := ⟨"/", "posted", some [.post], [], none, none, none⟩

def aboutPage : Route := ⟨"/about", "about", none, [], none, none, none⟩

theorem blankRoot_made : blankRoot.Made :=
  ⟨{ path := "", name := "blank", methods := some ["get"] }, toOption_eq_some.1 (by decide +kernel)⟩

/-- The two spellings of the root path share no method here, and the page is reached with any. -/
theorem rootRoutes_reached :
    ∃ collector matcher, Collector.make Strategy.named.name 1 = .ok collector ∧
      Matcher.ofData (collector.addRoutes [blankRoot, postedRoot, aboutPage]).1.data = .ok matcher ∧
      matcher.Reaches blankRoot "get" ∧ matcher.Reaches postedRoot "POST" ∧ matcher.Reaches aboutPage "PATCH" := by
  have hmade : ∀ route ∈ [blankRoot, postedRoot, aboutPage], route.Made := by
    intro route hroute
    simp only [List.mem_cons, List.not_mem_nil, or_false] at hroute
    rcases hroute with rfl | rfl | rfl
    · exact blankRoot_made
    · exact ⟨{ path := "/", name := "posted", methods := some ["post"] }, toOption_eq_some.1 (by decide +kernel)⟩
    · exact ⟨{ path := "/about", name := "about" }, toOption_eq_some.1 (by decide +kernel)⟩
  obtain ⟨detector, haccepted⟩ : ∃ detector,
      [blankRoot, postedRoot, aboutPage].foldlM Detector.checkAndRecord {} = .ok detector :=
    exists_of_isSome (by decide +kernel)
  obtain ⟨collector, matcher, hmake, -, hdata, -, hall⟩ := static_routes_reached .named 1 (by decide)
    [blankRoot, postedRoot, aboutPage] hmade (by decide +kernel) detector haccepted
  have hapart : ∀ empty ∈ [blankRoot, postedRoot, aboutPage], empty.path = "" →
      ∀ slash ∈ [blankRoot, postedRoot, aboutPage], slash.path = "/" → ¬empty.SharesMethod slash := by
    unfold Route.SharesMethod
    decide +kernel
  have hreached := hall.2 hapart
  exact ⟨collector, matcher, hmake, hdata, hreached blankRoot (by simp) _ (by decide +kernel),
    hreached postedRoot (by simp) _ (by decide +kernel), hreached aboutPage (by simp) _ (by decide +kernel)⟩

/-- **A registered route that no request reaches.** Both spellings of the root path are accepted for the same method, and
every request for it is answered with the first of them. -/
theorem second_root_unreached :
    (∀ route ∈ [blankRoot, slashRoot], route.Made ∧ PlainLiteral route.path) ∧
      (∃ detector, [blankRoot, slashRoot].foldlM Detector.checkAndRecord {} = .ok detector) ∧
      slashRoot.allowsMethod "GET" = true ∧
      ∀ strategy : Strategy, ∃ collector matcher, Collector.make strategy.name 15 = .ok collector ∧
        (collector.addRoutes [blankRoot, slashRoot]).2 = .ok () ∧
        Matcher.ofData (collector.addRoutes [blankRoot, slashRoot]).1.data = .ok matcher ∧
        ∀ method, slashRoot.allowsMethod method = true → matcher.match' slashRoot.ownPath method =
          .ok { status := .found, method := "GET", path := "/", route := some "blank" } := by
  have hslash : slashRoot.Made :=
    ⟨{ path := "/", name := "slash", methods := some ["get"] }, toOption_eq_some.1 (by decide +kernel)⟩
  refine ⟨?_, exists_of_isSome (by decide +kernel), by decide +kernel, fun strategy => ?_⟩
  · intro route hroute
    simp only [List.mem_cons, List.not_mem_nil, or_false] at hroute
    rcases hroute with rfl | rfl
    · exact ⟨blankRoot_made, by decide⟩
    · exact ⟨hslash, by decide⟩
  · obtain ⟨collector, matcher, hmake, hadd, hdata, hmatch⟩ := @exists_matcher_of_plain strategy 15 (by decide)
      [blankRoot, slashRoot] (by decide) (by decide +kernel)
    refine ⟨collector, matcher, hmake, hadd, hdata, fun method hmethod => ?_⟩
    have hget : Text.toUpper method = "GET" := by
      have hlisted : Text.toUpper method ∈ [Method.get.name] := List.contains_iff_mem.1 hmethod
      exact List.mem_singleton.1 hlisted
    have hanswer : answer plainTest [blankRoot, slashRoot] slashRoot.ownPath "GET" =
        { status := .found, method := "GET", path := "/", route := some "blank" } := by decide +kernel
    have hupper : Text.toUpper "GET" = "GET" := toUpper_methodName .get
    rw [hmatch, ← hanswer]
    unfold answer
    rw [hget, hupper]

end UrlRouter
