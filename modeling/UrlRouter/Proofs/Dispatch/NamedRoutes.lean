/-
Routes of the named strategy.

The expressions of a named chunk are tried one after the other, so a chunk finds what its routes find one by one.

Results:
- `namedChunks_find`: if every route's own expression compiles and decides the route's test, so do all chunks.
- `named_routes_match`: collected routes are matched as if each route's expression were tried on its own.
-/
import Mathlib.Tactic
import UrlRouter.Proofs.Dispatch.Attributes
import UrlRouter.Proofs.Dispatch.Reference
import UrlRouter.Proofs.Pattern.Aliases
import UrlRouter.Proofs.Regex.GroupNames

namespace UrlRouter

/-! ## Chunks of named expressions -/

/-- The route's own expression compiles and finds what the test says. -/
def EntryFinds (test : RouteTest) (route : Route) (item : Collected .named) : Prop :=
  ∃ regex, Regex.compile item.form.regex = .ok regex ∧
    ∀ path, CompiledEntry.match? ⟨item.name, regex, item.form.captures⟩ path = (test route path).map (route.name, ·)

theorem namedChunks_find {test : RouteTest} {routes : List Route}
    (h : ∀ route ∈ routes, ∀ item, route.collected .named = .ok item → EntryFinds test route item) :
    ChunksFind .named test routes := by
  intro part chunk hne hmem hcollected
  have hentries : List.Forall₂ (EntryFinds test) part chunk := by
    have hboth := (List.forall₂_and_left _ _).2 ⟨hmem, hcollected⟩
    exact hboth.imp fun route item hitem => h route hitem.1 item hitem.2
  clear hne hmem hcollected
  have hcompiled : ∃ entries : List CompiledEntry,
      List.Forall₂ (fun item entry => (do
        return (⟨item.name, ← compileRegex item.form.regex, item.form.captures⟩ : CompiledEntry)) = .ok entry)
          chunk entries ∧
      ∀ path, entries.findSome? (·.match? path) = firstMatch test path part := by
    induction hentries with
    | nil => exact ⟨[], .nil, fun _ => rfl⟩
    | @cons route item part chunk hitem _ ih =>
      obtain ⟨regex, hregex, hmatch⟩ := hitem
      obtain ⟨entries, hentries, hfind⟩ := ih
      refine ⟨⟨item.name, regex, item.form.captures⟩ :: entries, .cons ?_ hentries, fun path => ?_⟩
      · rw [compileRegex, hregex]
        rfl
      · rw [List.findSome?_cons, hmatch, hfind]
        rfl
  obtain ⟨entries, hentries, hfind⟩ := hcompiled
  refine ⟨.named entries, ?_, fun path => congrArg Except.ok (hfind path)⟩
  have hmapM := mapM_eq_ok.2 ((List.forall₂_map_left_iff (f := fun route : Collected .named =>
    (⟨route.name, route.form.regex, route.form.captures⟩ : NamedEntry)) (R := fun entry compiled => (do
      return (⟨entry.route, ← compileRegex entry.regex, entry.captures⟩ : CompiledEntry)) = .ok compiled)).2 hentries)
  rw [Strategy.chunk, namedChunk, Chunk.compile, hmapM]
  rfl

/-! ## Routes tried one by one -/

/-- The route's own expression, tried on the path. The attributes are its captures that are not empty, decoded. -/
def namedTest : RouteTest := fun route path =>
  match Pattern.NamedForm.parse route.path route.tokens with
  | .error _ => none
  | .ok form =>
    match Regex.compile form.regex with
    | .error _ => none
    | .ok regex => (regex.fullMatch? path).map fun m => regex.names.filterMap (captured? m form.captures)

/-- the route's own expression compiles -/
def Route.Compiles (route : Route) : Prop :=
  ∃ form regex, Pattern.NamedForm.parse route.path route.tokens = .ok form ∧ Regex.compile form.regex = .ok regex

instance : DecidablePred Route.Compiles := fun route =>
  match hform : Pattern.NamedForm.parse route.path route.tokens with
  | .error _ => isFalse fun ⟨_, _, h, _⟩ => by rw [hform] at h; cases h
  | .ok form =>
    match hregex : Regex.compile form.regex with
    | .error _ => isFalse fun ⟨_, _, h, h'⟩ => by
        rw [hform] at h
        cases h
        rw [hregex] at h'
        cases h'
    | .ok regex => isTrue ⟨form, regex, hform, hregex⟩

/-- A route whose expression compiles is found as its test says. -/
theorem entryFinds_of_compiles {route : Route} (h : route.Compiles) {item : Collected .named}
    (hitem : route.collected .named = .ok item) : EntryFinds namedTest route item := by
  obtain ⟨form, regex, hform, hregex⟩ := h
  obtain ⟨parsed, hparsed, hitem⟩ := bind_eq_ok.1 hitem
  cases hitem
  obtain rfl : form = parsed := Except.ok.inj (hform.symm.trans hparsed)
  obtain ⟨names, hnames, hcaptures⟩ := Pattern.captures_of_parse hform
  have hnodup : (form.captures.map (·.2)).Nodup := by rwa [hcaptures, Pattern.captureAliases_names]
  refine ⟨regex, hregex, fun path => ?_⟩
  have hattributes := fun m => captureAttributes_eq_filterMap m regex (Regex.compile_names_nodup hregex) hnodup
  simp only [CompiledEntry.match?, hattributes, namedTest, hform, hregex, Option.map_map]
  rfl

/-- Named routes whose expressions compile make a matcher, which tries each of them on its own. -/
theorem exists_named_matcher {collector : Collector} (hempty : collector.Empty) (hnamed : collector.strategy = .named)
    {routes : List Route} (hnames : (routes.map (·.name)).Nodup) (hadded : (collector.addRoutes routes).2 = .ok ())
    (hcompiles : ∀ route ∈ routes, route.Compiles) :
    ∃ matcher, Matcher.ofData (collector.addRoutes routes).1.data = .ok matcher ∧
      ∀ path method, matcher.match' path method = .ok (answer namedTest routes path method) := by
  obtain ⟨parsed, hparsed⟩ := (addRoutes_eq (by rwa [hempty.seen, List.nil_append])).2 hadded
  have hchunks : ChunksFind collector.strategy namedTest routes := by
    rw [hnamed]
    exact namedChunks_find fun route hroute item hitem => entryFinds_of_compiles (hcompiles route hroute) hitem
  exact ofData_of_chunks hempty hnames hparsed hchunks

/-- **Collected named routes are matched as if each were tried on its own.** When a collector of the named strategy
accepts routes of distinct names and their expressions compile, its data make a matcher that answers every request
by one scan of the routes in the order in which they were added, whatever the size of the chunks. -/
theorem named_routes_match (size : Int) (start : Collector) (hstart : Collector.make Strategy.named.name size = .ok start)
    (routes : List Route) (hnames : (routes.map (·.name)).Nodup) (hadded : (start.addRoutes routes).2 = .ok ())
    (hcompiles : ∀ route ∈ routes, route.Compiles) :
    ∃ matcher, Matcher.ofData (start.addRoutes routes).1.data = .ok matcher ∧
      ∀ path method, matcher.match' path method = .ok (answer namedTest routes path method) := by
  have hempty := (Collector.make_eq_ok hstart).1
  exact exists_named_matcher hempty (Collector.strategy_of_make hstart) hnames hadded hcompiles

def orderRoutes : List Route := [
  ⟨"/orders/\x7bid:[0-9]+\x7d", "order", some [.get, .put], [], none, none, none⟩,
  ⟨"/orders/\x7bkey-part:[a-z]*\x7d[/\x7brest:.*\x7d]", "file", some [.delete], [], none, none, none⟩]

/-- Of two kinds of orders, the second has a name that is no identifier and may be empty. -/
theorem orderRoutes_match :
    ∃ start matcher, Collector.make Strategy.named.name 1 = .ok start ∧
      Matcher.ofData (start.addRoutes orderRoutes).1.data = .ok matcher ∧
      matcher.match' "/orders/7" "post" = .ok
        { status := .methodNotAllowed, method := "POST", path := "/orders/7", allowed := ["GET", "PUT"],
          failed := ["order"] } ∧
      matcher.match' "/orders//a%20b" "delete" = .ok
        { status := .found, method := "DELETE", path := "/orders//a%20b", route := some "file",
          attributes := [("rest", "a b")] } := by
  obtain ⟨matcher, hdata, hmatch⟩ := named_routes_match 1 ⟨.named, 1, by decide, [], []⟩ rfl orderRoutes (by decide)
    (by decide +kernel) (by decide +kernel)
  exact ⟨_, matcher, rfl, hdata, (hmatch _ _).trans (by decide +kernel), (hmatch _ _).trans (by decide +kernel)⟩

end UrlRouter
