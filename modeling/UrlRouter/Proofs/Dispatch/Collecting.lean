/-
What a collector makes of its calls.

A collector is given routes, one or several at a time, and asked for its data in between. Which routes it accepts is read
off the calls alone: those that parse and whose name is free, while a route that is refused ends the call that it came
with. The data follow from the accepted routes.

Results:
- `chunksOf_filled`: every chunk but the last is full, and the last one holds something.
- `Collector.Holds.describes`: the data of a collector, told by the routes that it accepted.
- `holds_collectorCall`, `holds_after`: after any calls a collector holds the accepted routes.
- `collected_exact`: all of this together, with the errors that the calls raise.
-/
import Mathlib.Tactic
import UrlRouter.Proofs.Dispatch.Buckets
import UrlRouter.Proofs.Route.Made

namespace UrlRouter

/-! ## Chunks of a bucket -/

/-- lengths of pieces that hold `size` items each, up to the last one, which may hold less but not nothing -/
structure Filled (size : Int) (lengths : List Nat) : Prop where
  full : ∀ length ∈ lengths.dropLast, (length : Int) = size
  last : ∀ length ∈ lengths.getLast?, 1 ≤ length ∧ (length : Int) ≤ size

theorem chunksOf_eq_nil {α : Type} (size limit : Nat) : chunksOf size limit ([] : List α) = [] := by
  cases limit <;> rfl

theorem chunksOf_ne_nil {α : Type} {size limit : Nat} {items : List α} (hitems : items ≠ [])
    (hlimit : items.length ≤ limit) : chunksOf size limit items ≠ [] := by
  cases limit with
  | zero => exact absurd (List.length_eq_zero_iff.1 (Nat.le_zero.1 hlimit)) hitems
  | succ limit => simp [chunksOf, hitems]

/-- **All chunks but the last are full**, and the last holds something. -/
theorem chunksOf_filled {α : Type} {size limit : Nat} (hsize : 0 < size) {items : List α}
    (hlimit : items.length ≤ limit) : Filled size ((chunksOf size limit items).map List.length) := by
  induction limit generalizing items with
  | zero => exact ⟨by simp [chunksOf], by simp [chunksOf]⟩
  | succ limit ih =>
    rw [chunksOf]
    by_cases hitems : items = []
    · subst hitems
      exact ⟨by simp, by simp⟩
    have hpos : 0 < items.length := List.length_pos_iff.2 hitems
    have hrest : (items.drop size).length ≤ limit := by
      rw [List.length_drop]
      omega
    rw [if_neg (by simpa using hitems), List.map_cons, List.length_take]
    by_cases hmore : items.drop size = []
    · -- these are the last items
      have hlength : items.length ≤ size := List.drop_eq_nil_iff.1 hmore
      rw [hmore, chunksOf_eq_nil]
      constructor
      · intro length hmem
        simp at hmem
      · intro length hmem
        simp only [List.map_nil, List.getLast?_singleton, Option.mem_def, Option.some.injEq] at hmem
        omega
    · have hlength : size < items.length := by
        rw [List.drop_eq_nil_iff] at hmore
        omega
      obtain ⟨hfull, hlast⟩ := ih hrest
      obtain ⟨next, others, hothers⟩ := List.exists_cons_of_ne_nil (@chunksOf_ne_nil α size limit _ hmore hrest)
      rw [hothers, List.map_cons] at hfull hlast ⊢
      constructor
      · intro length hmem
        rw [List.dropLast_cons_cons] at hmem
        rcases List.mem_cons.1 hmem with rfl | hmem
        · rw [Nat.min_eq_left hlength.le]
        · exact hfull length hmem
      · intro length hmem
        rw [List.getLast?_cons_cons] at hmem
        exact hlast length hmem

/-- Lists that correspond item by item are cut alike. -/
theorem forall₂_chunksOf {α β : Type} {R : α → β → Prop} (size limit : Nat) {as : List α} {bs : List β}
    (h : List.Forall₂ R as bs) : List.Forall₂ (List.Forall₂ R) (chunksOf size limit as) (chunksOf size limit bs) := by
  induction limit generalizing as bs with
  | zero => exact List.Forall₂.nil
  | succ limit ih =>
    rw [chunksOf, chunksOf]
    cases h with
    | nil => exact List.Forall₂.nil
    | cons hfirst hrest =>
      have h := List.Forall₂.cons hfirst hrest
      exact List.Forall₂.cons (List.forall₂_take size h) (ih (List.forall₂_drop size h))

theorem routes_chunk (strategy : Strategy) (items : List (Collected strategy)) :
    (strategy.chunk items).routes = items.map (·.name) := by
  cases strategy <;> rfl

/-- What waits in a bucket was parsed from the routes that go there, in their order. -/
theorem forall₂_itemsOf {strategy : Strategy} {routes : List Route} {parsed : List (Collected strategy)}
    (h : List.Forall₂ (fun route item => route.collected strategy = .ok item) routes parsed)
    (hnodup : ∀ route ∈ routes, route.buckets.Nodup) (bucket : String) :
    List.Forall₂ (fun route item => route.collected strategy = .ok item)
      (routes.filter (·.buckets.contains bucket)) (itemsOf bucket (bucketEntries routes parsed)) := by
  induction h with
  | nil => exact List.Forall₂.nil
  | @cons route item routes parsed hitem _ ih =>
    have hrest := ih fun other hother => hnodup other (List.mem_cons_of_mem route hother)
    rw [itemsOf_bucketEntries_cons, List.filter_beq]
    by_cases hmem : bucket ∈ route.buckets
    · rw [List.filter_cons_of_pos (by simpa using hmem),
        List.count_eq_one_of_mem (hnodup route List.mem_cons_self) hmem]
      exact List.Forall₂.cons hitem hrest
    · rw [List.filter_cons_of_neg (by simpa using hmem), List.count_eq_zero_of_not_mem hmem]
      exact hrest

/-! ## Data of accepted routes -/

/-- the chunk is what the strategy makes of these routes -/
def Strategy.Makes (strategy : Strategy) (part : List Route) (chunk : Chunk) : Prop :=
  ∃ items, part.mapM (Route.collected strategy) = .ok items ∧ chunk = strategy.chunk items

/-- These are the data of the routes: a bucket for each method, with chunks of the routes that go there. -/
structure DispatchData.Describes (data : DispatchData) (strategy : Strategy) (size : Int) (accepted : List Route) :
    Prop where
  strategy_eq : data.strategy = strategy
  chunkSize_eq : data.chunkSize = size
  distinct : (accepted.map (·.name)).Nodup
  buckets : data.groups.map (·.1) = (accepted.flatMap Route.buckets).eraseDups
  chunks : ∀ group ∈ data.groups, ∃ parts, parts.flatten = accepted.filter (·.buckets.contains group.1) ∧
    List.Forall₂ strategy.Makes parts group.2
  names : ∀ group ∈ data.groups,
    group.2.flatMap Chunk.routes = (accepted.filter (·.buckets.contains group.1)).map (·.name)
  filled : ∀ group ∈ data.groups, Filled size (group.2.map (·.routes.length))
  count : data.routeCount = accepted.length

/-- Every route goes into some bucket, so that the buckets hold as many names as there are routes. -/
theorem routeCount_eq {data : DispatchData} {accepted : List Route} (hdistinct : (accepted.map (·.name)).Nodup)
    (hbuckets : data.groups.map (·.1) = (accepted.flatMap Route.buckets).eraseDups)
    (hnames : ∀ group ∈ data.groups,
      group.2.flatMap Chunk.routes = (accepted.filter (·.buckets.contains group.1)).map (·.name)) :
    data.routeCount = accepted.length := by
  have hsame : ∀ name, name ∈ (data.groups.flatMap fun group => group.2.flatMap Chunk.routes).eraseDups ↔
      name ∈ accepted.map (·.name) := by
    intro name
    rw [List.mem_eraseDups, List.mem_flatMap]
    constructor
    · rintro ⟨group, hgroup, hname⟩
      rw [hnames group hgroup] at hname
      obtain ⟨route, hroute, rfl⟩ := List.mem_map.1 hname
      exact List.mem_map_of_mem (List.mem_filter.1 hroute).1
    · intro hname
      obtain ⟨route, hroute, rfl⟩ := List.mem_map.1 hname
      obtain ⟨bucket, hbucket⟩ := List.exists_mem_of_ne_nil route.buckets (buckets_ne_nil route)
      have hopened : bucket ∈ data.groups.map (·.1) := by
        rw [hbuckets, List.mem_eraseDups]
        exact List.mem_flatMap.2 ⟨route, hroute, hbucket⟩
      obtain ⟨group, hgroup, rfl⟩ := List.mem_map.1 hopened
      refine ⟨group, hgroup, ?_⟩
      rw [hnames group hgroup]
      exact List.mem_map_of_mem (List.mem_filter.2 ⟨hroute, List.contains_iff_mem.2 hbucket⟩)
  have hperm := (List.perm_ext_iff_of_nodup (nodup_eraseDups _) hdistinct).2 hsame
  exact hperm.length_eq.trans (List.length_map _)

/-! ## Calls -/

/-- a call of a collector -/
inductive CollectorCall where
  | addRoute (route : Route)
  | addRoutes (routes : List Route)
  | getData

/-- the routes of the call were built from values -/
def CollectorCall.Fair : CollectorCall → Prop
  | .addRoute route => route.Made
  | .addRoutes routes => ∀ route ∈ routes, route.Made
  | .getData => True

namespace Collector

/-- what a call leaves behind, and the error that it raises if it does -/
def call (collector : Collector) : CollectorCall → Collector × Option Pattern.Error
  | .addRoute route =>
    match collector.addRoute route with
    | .ok next => (next, none)
    | .error e => (collector, some e)
  | .addRoutes routes =>
    match collector.addRoutes routes with
    | (next, .ok ()) => (next, none)
    | (next, .error e) => (next, some e)
  | .getData => (collector, none)

/-- the collector after calls one after the other -/
def after (collector : Collector) (calls : List CollectorCall) : Collector :=
  calls.foldl (fun collector call => (collector.call call).1) collector

end Collector

namespace Strategy

/-- the accepted routes after one more, unless that is refused: its name is free, and it must parse -/
def accept (strategy : Strategy) (accepted : List Route) (route : Route) : List Route × Option Pattern.Error :=
  if (accepted.map (·.name)).contains route.name then (accepted, none)
  else
    match strategy.parse route.path route.tokens with
    | .ok _ => (accepted ++ [route], none)
    | .error e => (accepted, some e)

/-- the accepted routes after several more, the last of which may be refused -/
def acceptAll (strategy : Strategy) (accepted : List Route) : List Route → List Route × Option Pattern.Error
  | [] => (accepted, none)
  | route :: rest =>
    match strategy.accept accepted route with
    | (more, none) => strategy.acceptAll more rest
    | (_, some e) => (accepted, some e)

/-- the accepted routes after one more call, and the error that it raises if it does -/
def accepts (strategy : Strategy) (accepted : List Route) : CollectorCall → List Route × Option Pattern.Error
  | .addRoute route => strategy.accept accepted route
  | .addRoutes routes => strategy.acceptAll accepted routes
  | .getData => (accepted, none)

/-- the routes that are accepted by calls one after the other -/
def accepted (strategy : Strategy) (calls : List CollectorCall) : List Route :=
  calls.foldl (fun accepted call => (strategy.accepts accepted call).1) []

end Strategy

/-! ## Routes behind a collector -/

/-- the collector has accepted these routes, and nothing else -/
structure Collector.Holds (collector : Collector) (strategy : Strategy) (size : Int) (accepted : List Route) :
    Prop where
  strategy_eq : collector.strategy = strategy
  chunkSize_eq : (collector.chunkSize : Int) = size
  made : ∀ route ∈ accepted, route.Made
  distinct : (accepted.map (·.name)).Nodup
  seen : collector.seen = accepted.map (·.name)
  buckets : ∃ parsed, List.Forall₂ (fun route item => route.collected collector.strategy = .ok item) accepted parsed ∧
    collector.buckets =
      (bucketEntries accepted parsed).foldl (fun buckets entry => addToBucket entry.1 entry.2 buckets) []

variable {collector : Collector} {strategy : Strategy} {size : Int} {accepted : List Route}

/-- **The data of a collector** are those of the routes that it accepted. -/
theorem Collector.Holds.describes (h : collector.Holds strategy size accepted) :
    collector.data.Describes strategy size accepted := by
  obtain ⟨rfl, rfl, hmade, hdistinct, -, parsed, hparsed, hbuckets⟩ := h
  have hkeys : collector.data.groups.map (·.1) = (accepted.flatMap Route.buckets).eraseDups := by
    simp only [Collector.data, hbuckets, foldl_addToBucket, List.map_map, Function.comp_def, List.map_id']
    rw [map_fst_bucketEntries hparsed.length_eq]
  have hgroups : ∀ group ∈ collector.data.groups, ∃ items, List.Forall₂
      (fun route item => route.collected collector.strategy = .ok item)
        (accepted.filter (·.buckets.contains group.1)) items ∧
      group.2 = (chunksOf collector.chunkSize items.length items).map collector.strategy.chunk := by
    intro group hgroup
    simp only [Collector.data, hbuckets, foldl_addToBucket, List.map_map] at hgroup
    obtain ⟨bucket, -, rfl⟩ := List.mem_map.1 hgroup
    exact ⟨_, forall₂_itemsOf hparsed (fun route hroute => (hmade route hroute).nodup_buckets) bucket, rfl⟩
  have hnames : ∀ group ∈ collector.data.groups,
      group.2.flatMap Chunk.routes = (accepted.filter (·.buckets.contains group.1)).map (·.name) := by
    intro group hgroup
    obtain ⟨items, hitems, hchunks⟩ := hgroups group hgroup
    calc group.2.flatMap Chunk.routes
        = (chunksOf collector.chunkSize items.length items).flatMap fun part => part.map (·.name) := by
          rw [hchunks, List.flatMap_map]
          simp only [routes_chunk]
      _ = (chunksOf collector.chunkSize items.length items).flatten.map (·.name) := by
          rw [List.map_flatten, List.flatMap_def]
      _ = items.map (·.name) := by rw [chunksOf_flatten collector.chunkSize_pos items le_rfl]
      _ = (accepted.filter (·.buckets.contains group.1)).map (·.name) :=
          map_of_forall₂ (hitems.imp fun _ _ h => name_of_collected h)
  refine ⟨rfl, rfl, hdistinct, hkeys, ?_, hnames, ?_, routeCount_eq hdistinct hkeys hnames⟩
  · intro group hgroup
    obtain ⟨items, hitems, hchunks⟩ := hgroups group hgroup
    refine ⟨chunksOf collector.chunkSize items.length (accepted.filter (·.buckets.contains group.1)), ?_, ?_⟩
    · exact chunksOf_flatten collector.chunkSize_pos _ hitems.length_eq.le
    · rw [hchunks, List.forall₂_map_right_iff]
      exact (forall₂_chunksOf _ _ hitems).imp fun part items hpart => ⟨items, mapM_eq_ok.2 hpart, rfl⟩
  · intro group hgroup
    obtain ⟨items, -, hchunks⟩ := hgroups group hgroup
    rw [hchunks, List.map_map]
    simpa only [Function.comp_def, routes_chunk, List.length_map] using
      chunksOf_filled collector.chunkSize_pos (le_refl items.length)

/-! ## Whatever a collector is called for -/

theorem Collector.Empty.holds (h : collector.Empty) (hstrategy : collector.strategy = strategy)
    (hsize : (collector.chunkSize : Int) = size) : collector.Holds strategy size [] where
  strategy_eq := hstrategy
  chunkSize_eq := hsize
  made := fun _ hroute => absurd hroute List.not_mem_nil
  distinct := List.nodup_nil
  seen := h.seen
  buckets := ⟨[], List.Forall₂.nil, h.buckets⟩

/-- **What one more route does**: it is passed over, is refused, or is accepted behind the others. -/
theorem Collector.Holds.addRoute_cases (h : collector.Holds strategy size accepted) {route : Route}
    (hroute : route.Made) :
    (collector.addRoute route = .ok collector ∧ strategy.accept accepted route = (accepted, none)) ∨
    (∃ e, collector.addRoute route = .error e ∧ strategy.accept accepted route = (accepted, some e)) ∨
    ∃ next, collector.addRoute route = .ok next ∧ next.Holds strategy size (accepted ++ [route]) ∧
      strategy.accept accepted route = (accepted ++ [route], none) := by
  obtain ⟨rfl, rfl, hmade, hdistinct, hseen, parsed, hparsed, hbuckets⟩ := h
  unfold Strategy.accept
  by_cases hname : route.name ∈ accepted.map (·.name)
  · left
    rw [Collector.addRoute, hseen, if_pos (List.contains_iff_mem.2 hname), if_pos (List.contains_iff_mem.2 hname)]
    exact ⟨rfl, rfl⟩
  right
  rw [addRoute_new (by rwa [hseen]), if_neg (by rwa [List.contains_iff_mem]), Route.collected]
  cases hparse : collector.strategy.parse route.path route.tokens with
  | error e => exact .inl ⟨e, rfl, rfl⟩
  | ok form =>
    right
    refine ⟨_, rfl, ?_, rfl⟩
    have hitem : route.collected collector.strategy = .ok ⟨route.name, form⟩ := by
      rw [Route.collected, hparse]
      rfl
    refine ⟨rfl, rfl, ?_, ?_, ?_, parsed ++ [⟨route.name, form⟩], ?_, ?_⟩
    · intro other hother
      rcases List.mem_append.1 hother with hother | hother
      · exact hmade other hother
      · rwa [List.mem_singleton.1 hother]
    · rw [List.map_append, List.map_singleton]
      apply List.nodup_append.2
      refine ⟨hdistinct, List.nodup_singleton route.name, ?_⟩
      rintro name hmem other hother rfl
      exact hname (List.mem_singleton.1 hother ▸ hmem)
    · rw [hseen, List.map_append, List.map_singleton]
    · exact List.rel_append hparsed (List.Forall₂.cons hitem List.Forall₂.nil)
    · simp only [hbuckets, bucketEntries, List.zip_append hparsed.length_eq, List.flatMap_append, List.foldl_append,
        List.zip_cons_cons, List.zip_nil_left, List.flatMap_singleton]

/-- Routes that are added together are accepted one after the other. -/
theorem Collector.Holds.addRoutes (h : collector.Holds strategy size accepted) {routes : List Route}
    (hroutes : ∀ route ∈ routes, route.Made) :
    (collector.addRoutes routes).1.Holds strategy size (strategy.acceptAll accepted routes).1 ∧
      ∀ e, (collector.addRoutes routes).2 = .error e ↔ (strategy.acceptAll accepted routes).2 = some e := by
  induction routes generalizing collector accepted with
  | nil => exact ⟨h, fun e => by simp [Collector.addRoutes, Strategy.acceptAll]⟩
  | cons route routes ih =>
    have hrest : ∀ other ∈ routes, other.Made := fun other hother =>
      hroutes other (List.mem_cons_of_mem route hother)
    rw [Collector.addRoutes, Strategy.acceptAll]
    rcases h.addRoute_cases (hroutes route List.mem_cons_self) with
      ⟨hadd, haccept⟩ | ⟨e, hadd, haccept⟩ | ⟨next, hadd, hnext, haccept⟩
    · rw [hadd, haccept]
      exact ih h hrest
    · rw [hadd, haccept]
      exact ⟨h, fun other => by simp⟩
    · rw [hadd, haccept]
      exact ih hnext hrest

/-- **Every call keeps the routes behind a collector**, and raises the error that they account for. -/
theorem holds_collectorCall (h : collector.Holds strategy size accepted) {call : CollectorCall} (hcall : call.Fair) :
    (collector.call call).1.Holds strategy size (strategy.accepts accepted call).1 ∧
      (collector.call call).2 = (strategy.accepts accepted call).2 := by
  cases call with
  | addRoute route =>
    rw [Collector.call, Strategy.accepts]
    rcases h.addRoute_cases hcall with ⟨hadd, haccept⟩ | ⟨e, hadd, haccept⟩ | ⟨next, hadd, hnext, haccept⟩
    · rw [hadd, haccept]
      exact ⟨h, rfl⟩
    · rw [hadd, haccept]
      exact ⟨h, rfl⟩
    · rw [hadd, haccept]
      exact ⟨hnext, rfl⟩
  | addRoutes routes =>
    obtain ⟨hholds, herror⟩ := h.addRoutes hcall
    rw [Collector.call, Strategy.accepts]
    rcases hadded : collector.addRoutes routes with ⟨next, _ | _⟩
    · rename_i e
      rw [hadded] at hholds herror
      exact ⟨hholds, ((herror e).1 rfl).symm⟩
    · rw [hadded] at hholds herror
      refine ⟨hholds, ?_⟩
      cases hraised : (strategy.acceptAll accepted routes).2 with
      | none => rfl
      | some e => cases (herror e).2 hraised
  | getData => exact ⟨h, rfl⟩

/-- **So does every sequence of calls.** -/
theorem holds_after (h : collector.Holds strategy size accepted) {calls : List CollectorCall}
    (hcalls : ∀ call ∈ calls, call.Fair) : (collector.after calls).Holds strategy size
      (calls.foldl (fun accepted call => (strategy.accepts accepted call).1) accepted) := by
  induction calls generalizing collector accepted with
  | nil => exact h
  | cons call calls ih =>
    apply ih (holds_collectorCall h (hcalls call List.mem_cons_self)).1
    intro other hother
    exact hcalls other (List.mem_cons_of_mem call hother)

/-- **A collector gives exactly the routes that it accepted.** It is opened with either strategy and chunks of any
size. After any calls, some of which may have failed, with data asked for in between:
- its data are those of the accepted routes, which have different names: a bucket for each method in the order of first
  use, with the routes that go there in the order in which they were accepted, in chunks that are full up to the last;
- an accepted route goes into the buckets of its methods in the order of all methods, or into the one for any method;
- the next call raises an error just when it comes to a route whose name is free and that does not parse;
- a route that is refused leaves the collector as it was, and so does asking for the data. -/
theorem collected_exact (strategy : Strategy) (size : Int) (hsize : 1 ≤ size) (calls : List CollectorCall)
    (hcalls : ∀ call ∈ calls, call.Fair) :
    ∃ start, Collector.make strategy.name size = .ok start ∧
      let state := start.after calls
      let accepted := strategy.accepted calls
      state.data.Describes strategy size accepted ∧
      (∀ route ∈ accepted, route.buckets =
        if route.allowsAnyMethod then [anyMethod] else (Method.canonical route.sortedMethods).map Method.name) ∧
      (∀ call, call.Fair → (state.call call).2 = (strategy.accepts accepted call).2) ∧
      (∀ route e, (state.call (.addRoute route)).2 = some e → (state.call (.addRoute route)).1 = state) ∧
      state.call .getData = (state, none) := by
  obtain ⟨start, hmake, hstrategy⟩ := Collector.make_of_pos strategy hsize
  obtain ⟨hempty, -, hchunkSize⟩ := Collector.make_eq_ok hmake
  have hholds : (start.after calls).Holds strategy size (strategy.accepted calls) :=
    holds_after (hempty.holds hstrategy hchunkSize) hcalls
  refine ⟨start, hmake, hholds.describes, ?_, ?_, ?_, rfl⟩
  · intro route hroute
    have hmade := hholds.made route hroute
    rw [hmade.buckets_eq, Route.methodNames, hmade.canonical_sortedMethods]
  · intro call hcall
    exact (holds_collectorCall hholds hcall).2
  · intro route e he
    rw [Collector.call] at he ⊢
    cases hadd : (start.after calls).addRoute route with
    | error _ => rfl
    | ok next =>
      rw [hadd] at he
      cases he

def shopItems : Route := ⟨"/items", "items", some [.get, .head], [], none, none, none⟩

def shopItem : Route := ⟨"/items/\x7bid\x7d", "item", some [.get], [], none, none, none⟩

def shopRest : Route := ⟨"/\x7brest\x7d", "rest", none, [], none, none, none⟩

/-- A name that was refused is used again; what stands behind a refused route, and a known name, come to nothing. -/
theorem shopCalls_collected :
    let calls := [.addRoutes [shopItems, { shopItem with path := "/items/\x7bid" }, shopRest], .getData,
      .addRoute shopItem, .addRoutes [shopItems, shopRest]]
    ∃ start, Collector.make Strategy.mark.name 1 = .ok start ∧
      (start.after calls).data.Describes .mark 1 [shopItems, shopItem, shopRest] ∧
      (start.after calls).data.groups.map (·.1) = ["GET", "HEAD", "ANY"] := by
  intro calls
  have hitems : shopItems.Made :=
    ⟨{ path := "/items", name := "items", methods := some ["HEAD", "GET"] }, toOption_eq_some.1 (by decide +kernel)⟩
  have hmade : ∀ path, ({ shopItem with path } : Route).Made := fun path =>
    ⟨{ path, name := "item", methods := some ["GET"] }, rfl⟩
  have hrest : shopRest.Made := ⟨{ path := "/\x7brest\x7d", name := "rest" }, toOption_eq_some.1 (by decide +kernel)⟩
  have hcalls : ∀ call ∈ calls, call.Fair := by
    simp only [calls, CollectorCall.Fair, List.forall_mem_cons, List.not_mem_nil, false_implies, implies_true, and_true,
      true_and]
    exact ⟨⟨hitems, hmade _, hrest⟩, hmade _, hitems, hrest⟩
  have haccepted : Strategy.mark.accepted calls = [shopItems, shopItem, shopRest] := by decide +kernel
  obtain ⟨start, hmake, hdata, -⟩ := collected_exact .mark 1 (by decide) calls hcalls
  rw [haccepted] at hdata
  exact ⟨start, hmake, hdata, hdata.buckets.trans (by decide +kernel)⟩

end UrlRouter
