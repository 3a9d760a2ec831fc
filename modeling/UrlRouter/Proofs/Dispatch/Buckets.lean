/-
What a collector holds.

Adding items to buckets one after the other gives the bucket names in the order in which they first come, each with its
items in order. A collector that accepts all of a list of routes holds the buckets of their parsed forms. Whatever it is
given, also routes that it refuses, everything in its buckets was parsed from a route.

Results:
- `foldl_addToBucket`: the buckets after any sequence of additions.
- `chunksOf_flatten`: cutting a bucket into chunks loses nothing.
- `addRoutes_eq`: routes of distinct names are accepted just when each of them can be parsed.
- `data_of_collected`: the data then have the buckets of the parsed routes, cut into chunks.
- `gathers_addRoute`, `gathers_addRoutes`: every addition keeps the items of a bucket parsed routes that belong there.
-/
import Mathlib.Tactic
import UrlRouter.Dispatch.Collector
import UrlRouter.Proofs.Except

namespace UrlRouter

/-! ## Items each once -/

section EraseDups

variable {α : Type} [BEq α] [LawfulBEq α]

theorem eraseDups_concat (items : List α) (item : α) :
    (items ++ [item]).eraseDups = if items.contains item then items.eraseDups else items.eraseDups ++ [item] := by
  rw [List.eraseDups_append, List.removeAll, List.filter_cons, List.filter_nil]
  by_cases h : item ∈ items
  · simp [h]
  · simp [h, List.eraseDups_cons]

theorem nodup_eraseDups (items : List α) : items.eraseDups.Nodup := by
  induction items using List.reverseRecOn with
  | nil => exact List.nodup_nil
  | append_singleton items item ih =>
    rw [eraseDups_concat]
    split_ifs with h
    · exact ih
    · rw [List.nodup_append]
      refine ⟨ih, List.nodup_singleton item, fun a ha b hb hab => h ?_⟩
      rw [List.contains_iff_mem, ← List.mem_eraseDups, ← List.mem_singleton.1 hb, ← hab]
      exact ha

theorem eraseDups_of_nodup {items : List α} (h : items.Nodup) : items.eraseDups = items := by
  induction items using List.reverseRecOn with
  | nil => rfl
  | append_singleton items item ih =>
    obtain ⟨hitems, -, hdisjoint⟩ := List.nodup_append.1 h
    have hnew : items.contains item = false := by
      rw [Bool.eq_false_iff, Ne, List.contains_iff_mem]
      exact fun hmem => hdisjoint item hmem item (List.mem_singleton_self item) rfl
    rw [eraseDups_concat, hnew, ih hitems]
    rfl

theorem eraseDups_filter (p : α → Bool) (items : List α) : (items.filter p).eraseDups = items.eraseDups.filter p := by
  induction items using List.reverseRecOn with
  | nil => rfl
  | append_singleton items item ih =>
    rw [List.filter_append, eraseDups_concat]
    cases hp : p item with
    | false =>
      rw [List.filter_cons_of_neg (by simp [hp]), List.filter_nil, List.append_nil, ih]
      split_ifs
      · rfl
      · simp [hp]
    | true =>
      rw [List.filter_cons_of_pos hp, List.filter_nil, eraseDups_concat, ih]
      have hcontains : (items.filter p).contains item = items.contains item := by
        rw [Bool.eq_iff_iff, List.contains_iff_mem, List.contains_iff_mem, List.mem_filter]
        exact and_iff_left hp
      rw [hcontains]
      split_ifs
      · rfl
      · simp [hp]

end EraseDups

/-- Where no name comes twice, an item is found by its name. -/
theorem find?_of_nodup {α β : Type} [DecidableEq β] {f : α → β} {items : List α} (h : (items.map f).Nodup) {item : α}
    (hmem : item ∈ items) : items.find? (f · == f item) = some item := by
  induction items with
  | nil => cases hmem
  | cons first rest ih =>
    rw [List.map_cons, List.nodup_cons] at h
    rcases List.mem_cons.1 hmem with rfl | hmem
    · rw [List.find?_cons_of_pos (by simp)]
    · have hne : f first ≠ f item := fun heq => h.1 (heq ▸ List.mem_map_of_mem hmem)
      rw [List.find?_cons_of_neg (by simpa using hne), ih h.2 hmem]

/-! ## Buckets -/

variable {α : Type}

/-- the items that were added to a bucket -/
def itemsOf (bucket : String) (entries : List (String × α)) : List α := (entries.filter (·.1 == bucket)).map (·.2)

theorem itemsOf_concat (bucket : String) (entries : List (String × α)) (entry : String × α) :
    itemsOf bucket (entries ++ [entry]) =
      if entry.1 = bucket then itemsOf bucket entries ++ [entry.2] else itemsOf bucket entries := by
  unfold itemsOf
  rw [List.filter_append]
  by_cases h : entry.1 = bucket
  · simp [h]
  · simp [h]

theorem itemsOf_eq_nil {bucket : String} {entries : List (String × α)} (h : bucket ∉ entries.map (·.1)) :
    itemsOf bucket entries = [] := by
  unfold itemsOf
  rw [List.map_eq_nil_iff, List.filter_eq_nil_iff]
  intro entry hentry heq
  exact h (List.mem_map.2 ⟨entry, hentry, by simpa using heq⟩)

theorem addToBucket_map (bucket : String) (item : α) (names : List String) (f : String → List α)
    (hnodup : names.Nodup) (hnew : bucket ∉ names → f bucket = []) :
    addToBucket bucket item (names.map fun name => (name, f name)) =
      (if bucket ∈ names then names else names ++ [bucket]).map fun name =>
        (name, if name = bucket then f name ++ [item] else f name) := by
  induction names with
  | nil => simp [addToBucket, hnew]
  | cons name names ih =>
    obtain ⟨hname, hnodup⟩ := List.nodup_cons.1 hnodup
    rw [List.map_cons, addToBucket]
    by_cases h : name = bucket
    · subst h
      rw [if_pos rfl, if_pos List.mem_cons_self, List.map_cons, if_pos rfl]
      congr 1
      refine List.map_congr_left fun other hother => ?_
      rw [if_neg fun (heq : other = name) => hname (heq ▸ hother)]
    · rw [if_neg h, ih hnodup fun hmem => hnew fun hmem' => (List.mem_cons.1 hmem').elim (h ·.symm) hmem]
      have hmem : bucket ∈ name :: names ↔ bucket ∈ names := by
        rw [List.mem_cons]
        exact or_iff_right (Ne.symm h)
      by_cases hb : bucket ∈ names
      · rw [if_pos hb, if_pos (hmem.2 hb), List.map_cons, if_neg h]
      · rw [if_neg hb, if_neg fun hmem' => hb (hmem.1 hmem'), List.cons_append, List.map_cons, if_neg h]

/-- **The buckets after any additions**: their names in the order in which they first came, with their items. -/
theorem foldl_addToBucket (entries : List (String × α)) :
    entries.foldl (fun buckets entry => addToBucket entry.1 entry.2 buckets) [] =
      ((entries.map (·.1)).eraseDups).map fun bucket => (bucket, itemsOf bucket entries) := by
  induction entries using List.reverseRecOn with
  | nil => rfl
  | append_singleton entries entry ih =>
    rw [List.foldl_append, ih, List.foldl_cons, List.foldl_nil,
      addToBucket_map entry.1 entry.2 _ _ (nodup_eraseDups _) fun h => itemsOf_eq_nil (by rwa [List.mem_eraseDups] at h),
      List.map_append, List.map_singleton, eraseDups_concat]
    simp only [List.mem_eraseDups, List.contains_iff_mem]
    refine List.map_congr_left fun bucket _ => ?_
    rw [itemsOf_concat]
    by_cases h : bucket = entry.1
    · rw [if_pos h, if_pos h.symm]
    · rw [if_neg h, if_neg (Ne.symm h)]

theorem chunksOf_flatten {size limit : Nat} (hsize : 0 < size) (items : List α) (hlimit : items.length ≤ limit) :
    (chunksOf size limit items).flatten = items := by
  induction limit generalizing items with
  | zero => rw [List.length_eq_zero_iff.1 (Nat.le_zero.1 hlimit)]; rfl
  | succ limit ih =>
    rw [chunksOf]
    cases items with
    | nil => rfl
    | cons item items =>
      rw [List.isEmpty_cons, if_neg (by simp), List.flatten_cons, ih, List.take_append_drop]
      simp only [List.length_drop, List.length_cons] at hlimit ⊢
      omega

theorem ne_nil_of_mem_chunksOf {size limit : Nat} (hsize : 0 < size) {items chunk : List α}
    (h : chunk ∈ chunksOf size limit items) : chunk ≠ [] ∧ ∀ item ∈ chunk, item ∈ items := by
  induction limit generalizing items with
  | zero => exact absurd h List.not_mem_nil
  | succ limit ih =>
    rw [chunksOf] at h
    split_ifs at h with hempty
    · exact absurd h List.not_mem_nil
    · rcases List.mem_cons.1 h with rfl | h
      · refine ⟨?_, fun item hitem => List.mem_of_mem_take hitem⟩
        rw [Ne, List.take_eq_nil_iff, not_or]
        exact ⟨by omega, by simpa using hempty⟩
      · obtain ⟨hne, hmem⟩ := ih h
        exact ⟨hne, fun item hitem => List.mem_of_mem_drop (hmem item hitem)⟩

/-! ## Collecting routes -/

/-- a route as it waits in a bucket -/
def Route.collected (strategy : Strategy) (route : Route) : Except Pattern.Error (Collected strategy) := do
  return ⟨route.name, ← strategy.parse route.path route.tokens⟩

/-- parsed routes with the buckets that they go into -/
def bucketEntries {strategy : Strategy} (routes : List Route) (parsed : List (Collected strategy)) :
    List (String × Collected strategy) :=
  (routes.zip parsed).flatMap fun pair => pair.1.buckets.map (·, pair.2)

theorem name_of_collected {strategy : Strategy} {route : Route} {item : Collected strategy}
    (h : route.collected strategy = .ok item) : item.name = route.name := by
  obtain ⟨form, -, h⟩ := bind_eq_ok.1 h
  cases h
  rfl

theorem map_fst_bucketEntries {strategy : Strategy} {routes : List Route} {parsed : List (Collected strategy)}
    (h : routes.length = parsed.length) :
    (bucketEntries routes parsed).map (·.1) = routes.flatMap Route.buckets := by
  induction routes generalizing parsed with
  | nil => rfl
  | cons route routes ih =>
    cases parsed with
    | nil => cases h
    | cons item parsed =>
      have hrest := @ih parsed (by simpa using h)
      rw [List.flatMap_cons, ← hrest]
      simp [bucketEntries, Function.comp_def]

theorem itemsOf_bucketEntries_cons {strategy : Strategy} (bucket : String) (route : Route) (routes : List Route)
    (item : Collected strategy) (parsed : List (Collected strategy)) :
    itemsOf bucket (bucketEntries (route :: routes) (item :: parsed)) =
      ((route.buckets.filter (· == bucket)).map fun _ => item) ++ itemsOf bucket (bucketEntries routes parsed) := by
  simp [itemsOf, bucketEntries, List.filter_map, Function.comp_def]

/-- Whatever waits in a bucket was parsed from a route. -/
theorem exists_route_of_mem_itemsOf {strategy : Strategy} {routes : List Route} {parsed : List (Collected strategy)}
    (h : List.Forall₂ (fun route item => route.collected strategy = .ok item) routes parsed) {bucket : String}
    {item : Collected strategy} (hmem : item ∈ itemsOf bucket (bucketEntries routes parsed)) :
    ∃ route, route ∈ routes ∧ route.collected strategy = .ok item := by
  obtain ⟨entry, hentry, rfl⟩ := List.mem_map.1 hmem
  obtain ⟨pair, hpair, hentry⟩ := List.mem_flatMap.1 (List.mem_filter.1 hentry).1
  obtain ⟨_, -, rfl⟩ := List.mem_map.1 hentry
  exact ⟨pair.1, (List.of_mem_zip hpair).1, (List.forall₂_iff_zip.1 h).2 hpair⟩

/-- a collector with no routes yet -/
structure Collector.Empty (collector : Collector) : Prop where
  buckets : collector.buckets = []
  seen : collector.seen = []

theorem Collector.make_eq_ok {strategy : String} {size : Int} {collector : Collector}
    (h : Collector.make strategy size = .ok collector) :
    collector.Empty ∧ Strategy.ofName? strategy = some collector.strategy ∧ (collector.chunkSize : Int) = size := by
  unfold Collector.make at h
  split_ifs at h with hsize
  split at h
  · rename_i found hfound
    cases h
    exact ⟨⟨rfl, rfl⟩, hfound, by simp; omega⟩
  · cases h

@[simp] theorem Strategy.ofName?_name (strategy : Strategy) : Strategy.ofName? strategy.name = some strategy := by
  cases strategy <;> decide

theorem Collector.strategy_of_make {strategy : Strategy} {size : Int} {collector : Collector}
    (h : Collector.make strategy.name size = .ok collector) : collector.strategy = strategy := by
  have hname := (Collector.make_eq_ok h).2.1
  rw [Strategy.ofName?_name] at hname
  exact (Option.some.inj hname).symm

theorem Collector.make_of_pos (strategy : Strategy) {size : Int} (hsize : 1 ≤ size) :
    ∃ collector, Collector.make strategy.name size = .ok collector ∧ collector.strategy = strategy := by
  have hname := Strategy.ofName?_name strategy
  unfold Collector.make
  rw [dif_pos (by omega), hname]
  exact ⟨_, rfl, rfl⟩

theorem addRoute_new {collector : Collector} {route : Route} (h : route.name ∉ collector.seen) :
    collector.addRoute route = (route.collected collector.strategy).map fun parsed => { collector with
      buckets := (route.buckets.map (·, parsed)).foldl (fun buckets entry => addToBucket entry.1 entry.2 buckets)
        collector.buckets
      seen := collector.seen ++ [route.name] } := by
  unfold Collector.addRoute Route.collected
  rw [if_neg (by simpa using h)]
  cases collector.strategy.parse route.path route.tokens with
  | error e => rfl
  | ok form =>
    rw [ok_bind, ok_bind]
    simp only [List.foldl_map]
    rfl

/-- Routes of new names are accepted just when each of them can be parsed. -/
theorem addRoutes_eq {collector : Collector} {routes : List Route}
    (hnew : (collector.seen ++ routes.map (·.name)).Nodup) :
    (∀ parsed, routes.mapM (Route.collected collector.strategy) = .ok parsed →
      collector.addRoutes routes = ({ collector with
        buckets := (bucketEntries routes parsed).foldl (fun buckets entry => addToBucket entry.1 entry.2 buckets)
          collector.buckets
        seen := collector.seen ++ routes.map (·.name) }, .ok ())) ∧
    ((collector.addRoutes routes).2 = .ok () → ∃ parsed, routes.mapM (Route.collected collector.strategy) = .ok parsed) := by
  induction routes generalizing collector with
  | nil =>
    refine ⟨fun parsed h => ?_, fun _ => ⟨[], rfl⟩⟩
    simp [Collector.addRoutes, bucketEntries]
  | cons route routes ih =>
    rw [List.map_cons] at hnew
    have hname : route.name ∉ collector.seen := fun hmem =>
      (List.nodup_append.1 hnew).2.2 route.name hmem route.name List.mem_cons_self rfl
    rw [Collector.addRoutes, addRoute_new hname]
    cases hparse : route.collected collector.strategy with
    | error e =>
      refine ⟨fun parsed h => ?_, fun h => by cases h⟩
      rw [List.mapM_cons, hparse] at h
      cases h
    | ok first =>
      obtain ⟨hforward, hback⟩ := @ih { collector with
        buckets := (route.buckets.map (·, first)).foldl (fun buckets entry => addToBucket entry.1 entry.2 buckets)
          collector.buckets
        seen := collector.seen ++ [route.name] } (by rw [List.append_assoc]; exact hnew)
      refine ⟨fun parsed h => ?_, fun h => ?_⟩
      · rw [List.mapM_cons, hparse, ok_bind] at h
        obtain ⟨rest, hrest, h⟩ := bind_eq_ok.1 h
        obtain rfl : first :: rest = parsed := Except.ok.inj h
        refine (hforward rest hrest).trans ?_
        simp [bucketEntries, List.foldl_append]
      · obtain ⟨rest, hrest⟩ := hback h
        exact ⟨first :: rest, by rw [List.mapM_cons, hparse, ok_bind, hrest]; rfl⟩

/-- The data of a collector that has accepted routes of distinct names. -/
theorem data_of_collected {collector : Collector} (hempty : collector.Empty) {routes : List Route}
    (hnames : (routes.map (·.name)).Nodup) {parsed : List (Collected collector.strategy)}
    (hparsed : routes.mapM (Route.collected collector.strategy) = .ok parsed) :
    (collector.addRoutes routes).2 = .ok () ∧
      (collector.addRoutes routes).1.data.groups =
        (((bucketEntries routes parsed).map (·.1)).eraseDups).map fun bucket =>
          (bucket, (chunksOf collector.chunkSize (itemsOf bucket (bucketEntries routes parsed)).length
            (itemsOf bucket (bucketEntries routes parsed))).map collector.strategy.chunk) := by
  have hnew : (collector.seen ++ routes.map (·.name)).Nodup := by rwa [hempty.seen, List.nil_append]
  rw [(addRoutes_eq hnew).1 parsed hparsed]
  refine ⟨rfl, ?_⟩
  simp only [Collector.data, hempty.buckets, foldl_addToBucket, List.map_map]
  rfl

/-! ## Whatever a collector is given -/

/-- buckets of different names, whose items each suit their bucket -/
structure BucketsSuit (suits : String → α → Prop) (buckets : List (String × List α)) : Prop where
  names : (buckets.map (·.1)).Nodup
  items : ∀ bucket ∈ buckets, ∀ item ∈ bucket.2, suits bucket.1 item

variable {suits : String → α → Prop}

theorem names_addToBucket (bucket : String) (item : α) (buckets : List (String × List α)) :
    (addToBucket bucket item buckets).map (·.1) =
      if bucket ∈ buckets.map (·.1) then buckets.map (·.1) else buckets.map (·.1) ++ [bucket] := by
  induction buckets with
  | nil => rfl
  | cons first rest ih =>
    obtain ⟨name, items⟩ := first
    rw [addToBucket]
    by_cases h : name = bucket
    · rw [if_pos h, if_pos (by simp [h])]
      rfl
    · rw [if_neg h, List.map_cons, ih]
      have hmem : bucket ∈ name :: rest.map (·.1) ↔ bucket ∈ rest.map (·.1) := by
        rw [List.mem_cons]
        exact or_iff_right (Ne.symm h)
      by_cases hrest : bucket ∈ rest.map (·.1)
      · rw [if_pos hrest, List.map_cons, if_pos (hmem.2 hrest)]
      · rw [if_neg hrest, List.map_cons, if_neg fun h' => hrest (hmem.1 h')]
        rfl

theorem items_addToBucket {bucket : String} {item : α} {buckets : List (String × List α)}
    (hbuckets : ∀ group ∈ buckets, ∀ other ∈ group.2, suits group.1 other) (hitem : suits bucket item) :
    ∀ group ∈ addToBucket bucket item buckets, ∀ other ∈ group.2, suits group.1 other := by
  induction buckets with
  | nil =>
    intro group hgroup other hother
    obtain rfl := List.mem_singleton.1 hgroup
    exact List.mem_singleton.1 hother ▸ hitem
  | cons first rest ih =>
    obtain ⟨name, items⟩ := first
    have hfirst := hbuckets (name, items) List.mem_cons_self
    have hrest : ∀ group ∈ rest, ∀ other ∈ group.2, suits group.1 other := fun group hgroup =>
      hbuckets group (List.mem_cons_of_mem _ hgroup)
    intro group hgroup other hother
    rw [addToBucket] at hgroup
    split_ifs at hgroup with hname
    · rcases List.mem_cons.1 hgroup with rfl | hgroup
      · rcases List.mem_append.1 hother with hother | hother
        · exact hfirst other hother
        · rw [List.mem_singleton.1 hother, hname]
          exact hitem
      · exact hrest group hgroup other hother
    · rcases List.mem_cons.1 hgroup with rfl | hgroup
      · exact hfirst other hother
      · exact ih hrest group hgroup other hother

theorem BucketsSuit.add {buckets : List (String × List α)} (h : BucketsSuit suits buckets) {bucket : String} {item : α}
    (hitem : suits bucket item) : BucketsSuit suits (addToBucket bucket item buckets) := by
  refine ⟨?_, items_addToBucket h.items hitem⟩
  rw [names_addToBucket]
  split_ifs with hmem
  · exact h.names
  · exact List.nodup_append.2 ⟨h.names, List.nodup_singleton bucket, fun a ha b hb hab =>
      hmem (List.mem_singleton.1 hb ▸ hab ▸ ha)⟩

theorem BucketsSuit.addAll {buckets : List (String × List α)} (h : BucketsSuit suits buckets) {names : List String}
    {item : α} (hitem : ∀ name ∈ names, suits name item) :
    BucketsSuit suits (names.foldl (fun buckets bucket => addToBucket bucket item buckets) buckets) := by
  induction names generalizing buckets with
  | nil => exact h
  | cons name names ih =>
    exact ih (h.add (hitem name List.mem_cons_self)) fun other hother => hitem other (List.mem_cons_of_mem name hother)

/-- Every item of a bucket is the parsed form of one of the routes that go there. -/
def Collector.Gathers (collector : Collector) (routes : List Route) : Prop :=
  BucketsSuit (fun bucket item => ∃ route ∈ routes, bucket ∈ route.buckets ∧
    route.collected collector.strategy = .ok item) collector.buckets

theorem Collector.Empty.gathers {collector : Collector} (h : collector.Empty) (routes : List Route) :
    collector.Gathers routes := by
  unfold Collector.Gathers
  rw [h.buckets]
  exact ⟨List.nodup_nil, fun bucket hbucket => absurd hbucket List.not_mem_nil⟩

/-- A route that is accepted goes into its own buckets; one of a known name goes nowhere. -/
theorem gathers_addRoute {collector next : Collector} {routes : List Route} (h : collector.Gathers routes)
    {route : Route} (hroute : route ∈ routes) (hnext : collector.addRoute route = .ok next) : next.Gathers routes := by
  by_cases hseen : route.name ∈ collector.seen
  · rw [Collector.addRoute, if_pos (List.contains_iff_mem.2 hseen)] at hnext
    cases hnext
    exact h
  · unfold Collector.addRoute at hnext
    rw [if_neg (by simpa using hseen)] at hnext
    obtain ⟨form, hform, hnext⟩ := bind_eq_ok.1 hnext
    cases hnext
    have hparsed : route.collected collector.strategy = .ok ⟨route.name, form⟩ := by
      unfold Route.collected
      rw [hform]
      rfl
    exact BucketsSuit.addAll h fun bucket hbucket => ⟨route, hroute, hbucket, hparsed⟩

/-- Adding routes up to the first that fails keeps what the buckets hold. -/
theorem gathers_addRoutes {collector : Collector} {routes added : List Route} (h : collector.Gathers routes)
    (hadded : ∀ route ∈ added, route ∈ routes) : (collector.addRoutes added).1.Gathers routes := by
  induction added generalizing collector with
  | nil => exact h
  | cons route added ih =>
    rw [Collector.addRoutes]
    cases hnext : collector.addRoute route with
    | error e => exact h
    | ok next =>
      exact ih (gathers_addRoute h (hadded route List.mem_cons_self) hnext) fun other hother =>
        hadded other (List.mem_cons_of_mem route hother)

end UrlRouter
