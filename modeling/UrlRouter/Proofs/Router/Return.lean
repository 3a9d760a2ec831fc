/-
A found path leads to a path that is found.

A router with one plain route finds a path and hands out attributes. A path is written for these attributes, perhaps with
other characters encoded and with other optional segments that hold no token, and a request for this path is answered as
the first one was. The exception is a value with a slash: the request holds it encoded, where the expression of the route
does not see it, but the writer tests the constraint on the decoded value.

Results:
- `found_path_returns`: a found path is written and found again, or the first value with a slash is refused.
- `encoded_slash_refused`: such a request is found, and its path is not written.
-/
import Mathlib.Tactic
import UrlRouter.Proofs.Route.Rewritten
import UrlRouter.Proofs.Router.RoundTrip

namespace UrlRouter

open Pattern (tokensEndSegments)

/-- read attributes, as they are given for a path -/
def asGiven (attributes : List (String × String)) : Attributes :=
  attributes.map fun entry => (entry.1, .string entry.2)

theorem given_asGiven (attributes : List (String × String)) : (asGiven attributes).given = attributes := by
  rw [asGiven, Attributes.given, List.filterMap_map]
  exact List.filterMap_some

/-- **A found path leads back.** A router is opened with either strategy and chunks of any size, and after any calls
holds one plain route whose tokens are each followed by a slash or by nothing. It finds a path. If a value that it hands
out holds a slash, the path held an encoded one and the route's path is not written for these attributes: the first
such value does not match the default constraint. Otherwise the route's path is written, and a request for it with the
same method gets the same answer, with the same attributes and no others. -/
theorem found_path_returns (strategy : Strategy) (size : Int) (hsize : 1 ≤ size) (key : String)
    (tokens : Mapping String) (cached : Bool) (calls : List RouterCall) (state : RouterState)
    (hstate : state = (RouterState.opened strategy.name size key tokens cached).run calls)
    (route : Route) (hroutes : state.router.routes = [route]) (hplain : route.IsPlain)
    (hend : tokensEndSegments route.layout.pieces = true) (path method : String) (result : MatchResult)
    (hresult : (RouterM.outcome (RouterM.match' path method) state).1 = .ok result)
    (hfound : result.status = .found) :
    let after := state.step (.request path method)
    let given := asGiven result.attributes
    let written := (RouterM.outcome (RouterM.generateUri route.name given []) after).1
    result.route = some route.name ∧
      match slashed? result.attributes with
      | some entry =>
        (∃ form ∈ Text.encodedSlashes, form <:+: path.toList) ∧
          written = .error (.generate (.mismatch entry.1 Pattern.defaultConstraint route.name))
      | none => ∃ again, written = .ok again ∧
          (RouterM.outcome (RouterM.match' again method) (after.step (.generateUri route.name given []))).1 =
            .ok { result with path := again } := by
  intro after given written
  have hholds : state.HoldsPlain strategy size := RouterState.holdsPlain_run strategy size key tokens cached calls hstate
    (by rw [hroutes]; exact fun other hother => List.mem_singleton.1 hother ▸ hplain)
  obtain ⟨hread, -, hlayout⟩ := hplain.layout_eq
  obtain ⟨info, hinfo, -⟩ := exists_ofRoute_of_plain hread hlayout
  -- what was found
  rw [hholds.match' hsize, hroutes] at hresult
  obtain rfl := Except.ok.inj hresult
  obtain ⟨found, hmem, htest, hname⟩ := found_answer hfound
  obtain rfl := List.mem_singleton.1 hmem
  refine ⟨hname, ?_⟩
  -- what is written for it
  obtain ⟨hafter, hroutes'⟩ := hholds.step (.request path method) fun _ hcall => by cases hcall
  have hpath : written = (info.path found (answer plainTest [found] path method).attributes).mapError .generate := by
    show (RouterM.outcome (RouterM.generateUri found.name given []) after).1 = _
    rw [hafter.generateUri, freshPath_of_mem hafter.coherent.names (hroutes' ▸ hroutes ▸ hmem), hinfo]
    dsimp only
    rw [given_asGiven]
  have hstops := stopsAtSlash_path hplain hinfo htest
  unfold StopsAtSlash at hstops
  cases hslashed : slashed? (answer plainTest [found] path method).attributes with
  | some entry =>
    rw [hslashed] at hstops
    refine ⟨encoded_of_slashed hplain htest hslashed, ?_⟩
    rw [hpath, hstops]
    rfl
  | none =>
    rw [hslashed] at hstops
    obtain ⟨again, hagain⟩ := hstops
    refine ⟨again, by rw [hpath, hagain]; rfl, ?_⟩
    obtain ⟨hlater, hroutes''⟩ := hafter.step (.generateUri found.name given []) fun _ hcall => by cases hcall
    rw [hlater.match' hsize, hroutes'', hroutes', hroutes]
    have hsame : ∀ route ∈ [found], plainTest route again = plainTest route path := by
      intro route hroute
      obtain rfl := List.mem_singleton.1 hroute
      rw [htest, plainTest_of_read hplain hend hinfo htest hagain]
    rw [answer_of_same_tests hsame]

/-- The written path has another form, and the segment of the month is not written. -/
theorem archivePath_returns :
    let state := (RouterState.opened Strategy.mark.name 1 "k" [] true).run [.addRoute archivePage]
    let path := "/archive/20%2d24"
    let given : Attributes := [("year", .string "20-24")]
    let after := state.step (.request path "get")
    let again := "/archive/20-24"
    let result : MatchResult :=
      { status := .found, method := "GET", path, route := some "archive", attributes := [("year", "20-24")] }
    (RouterM.outcome (RouterM.match' path "get") state).1 = .ok result ∧
      (RouterM.outcome (RouterM.generateUri "archive" given []) after).1 = .ok again ∧
      (RouterM.outcome (RouterM.match' again "get") (after.step (.generateUri "archive" given []))).1 =
        .ok { result with path := again } := by
  intro state path given after again result
  have hresult : (RouterM.outcome (RouterM.match' path "get") state).1 = .ok result :=
    toOption_eq_some.1 (by decide +kernel)
  obtain ⟨-, written, hpath, hmatch⟩ := found_path_returns .mark 1 (by decide) "k" [] true [.addRoute archivePage] state
    rfl archivePage.route (by decide +kernel) (by decide +kernel) (by decide +kernel) path "get" result hresult rfl
  have hagain : (RouterM.outcome (RouterM.generateUri "archive" given []) after).1 = .ok again :=
    toOption_eq_some.1 (by decide +kernel)
  obtain rfl : written = again := Except.ok.inj (hpath.symm.trans hagain)
  exact ⟨hresult, hagain, hmatch⟩

/-- **An encoded slash is found and refused.** The route has plain text, and its token stands between a slash and the
end of the pattern. A request with an encoded slash finds it, and for the attributes that are handed out no path is
written. -/
theorem encoded_slash_refused :
    let state := (RouterState.opened Strategy.mark.name 15 "k" [] true).run [.addRoute userPage]
    let path := "/users/a%2Fb"
    let after := state.step (.request path "get")
    state.router.routes = [userPage.route] ∧ userPage.route.IsPlain ∧
      tokensEndSegments userPage.route.layout.pieces = true ∧
      (RouterM.outcome (RouterM.match' path "get") state).1.toOption =
        some { status := .found, method := "GET", path, route := some "user", attributes := [("id", "a/b")] } ∧
      (RouterM.outcome (RouterM.generateUri "user" (asGiven [("id", "a/b")]) []) after).1 =
        .error (.generate (.mismatch "id" "[^/]+" "user")) := by
  intro state path after
  have hroutes : state.router.routes = [userPage.route] := by decide +kernel
  have hplain : userPage.route.IsPlain := by decide +kernel
  have hholds : state.HoldsPlain .mark 15 := RouterState.holdsPlain_run .mark 15 "k" [] true [.addRoute userPage] rfl
    (by rw [hroutes]; exact fun route hroute => List.mem_singleton.1 hroute ▸ hplain)
  obtain ⟨hafter, hroutes'⟩ := hholds.step (.request path "get") fun _ hcall => by cases hcall
  refine ⟨hroutes, hplain, by decide +kernel, by decide +kernel, ?_⟩
  have hrefused : freshPath [userPage.route] "user" (asGiven [("id", "a/b")]) =
      .error (.mismatch "id" "[^/]+" "user") := by decide +kernel
  rw [hafter.generateUri, hroutes', hroutes, hrefused]
  rfl

end UrlRouter
