/-
Dispatch data through their text.

What a collector compiles can be written and read back without loss: no key of its objects comes twice, and a chunk
says of what kind it is. The codec is that of this library, `DispatchData.text` and `DispatchData.ofText`, and what is said
here is about texts that the one has written: they hold no numbers but integers and are nested no deeper than the schema.
A reader's bound on the digits of an integer is left out; it could only matter for a chunk size of that length.

Results:
- `ofText_text`: data whose keys are distinct are read back from their text.
- `Collector.Gathers.keyed`: the data of a collector are such data, whatever it was given.
- `collected_data_restored`: they are read back from their text, and a matcher of them answers as before.
-/
import Mathlib.Tactic
import UrlRouter.Dispatch.Blob
import UrlRouter.Dispatch.Matcher
import UrlRouter.Proofs.Dispatch.Buckets
import UrlRouter.Proofs.Dispatch.Tags
import UrlRouter.Proofs.Json.RoundTrip
import UrlRouter.Proofs.Pattern.Aliases
import UrlRouter.Proofs.Pattern.PlainLayout

namespace UrlRouter

open Validation Json

/-! ## Checks of what was written -/

section Checks

variable {α : Type} {check : Check α} {f : α → Json}

theorem items_map {values : List α} (h : ∀ a ∈ values, check (f a) = .ok a) (index : Nat) :
    items check index (values.map f) = .ok values := by
  induction values generalizing index with
  | nil => rfl
  | cons a values ih =>
    rw [List.map_cons, items, h a List.mem_cons_self, ih fun b hb => h b (List.mem_cons_of_mem a hb)]
    rfl

theorem listOf_array {values : List α} (h : ∀ a ∈ values, check (f a) = .ok a) :
    listOf check (.array (values.map f)) = .ok values := items_map h 0

theorem required_of_field {name : String} {value field : Json} {a : α} (hfield : value.field? name = some field)
    (hcheck : check field = .ok a) : required name check value = .ok a := by
  simp only [required, hfield, hcheck]
  rfl

theorem optional_of_field {name : String} {value : Json} {absent a : α} (field : Json) (hfield : value.field? name = some field)
    (hcheck : check field = .ok a) : optional name absent check value = .ok a := by
  simp only [Validation.optional, hfield, hcheck]
  rfl

theorem distinctFields_of_nodup {fields : List (String × Json)} (h : (fields.map (·.1)).Nodup) :
    distinctFields fields = fields := by
  have hreverse : (fields.reverse.map (·.1)).Nodup := by
    rw [List.map_reverse]
    exact List.nodup_reverse.2 h
  unfold distinctFields
  rw [eraseDups_of_nodup h, List.filterMap_map]
  have hfound : ∀ field ∈ fields, ((fun key => (fields.reverse.find? (·.1 == key)).map fun entry => (key, entry.2)) ∘
      Prod.fst) field = some field := by
    intro field hfield
    simp only [Function.comp, find?_of_nodup (f := Prod.fst) hreverse (List.mem_reverse.2 hfield), Option.map_some]
  rw [List.filterMap_congr hfound]
  exact List.filterMap_some

theorem mappingOf_object {mapping : List (String × α)} (hkeys : (mapping.map (·.1)).Nodup)
    (h : ∀ entry ∈ mapping, check (f entry.2) = .ok entry.2) : mappingOf check (jsonMapping f mapping) = .ok mapping := by
  have hfields : ((mapping.map fun entry => (entry.1, f entry.2)).map (·.1)).Nodup := by
    rw [List.map_map]
    exact hkeys
  show entries check (distinctFields (mapping.map fun entry => (entry.1, f entry.2))) = _
  rw [distinctFields_of_nodup hfields]
  clear hkeys hfields
  induction mapping with
  | nil => rfl
  | cons entry mapping ih =>
    rw [List.map_cons, entries, h entry List.mem_cons_self, ih fun other hother => h other (List.mem_cons_of_mem entry hother)]
    rfl

end Checks

/-! ## Data with distinct keys -/

def Chunk.Keyed : Chunk → Prop
  | .mark chunk => (chunk.tags.map (·.1)).Nodup
  | .named chunk => ∀ entry ∈ chunk.entries, (entry.captures.map (·.1)).Nodup

/-- data in which no key comes twice -/
structure DispatchData.Keyed (data : DispatchData) : Prop where
  size : 1 ≤ data.chunkSize
  buckets : (data.groups.map (·.1)).Nodup
  chunks : ∀ group ∈ data.groups, ∀ chunk ∈ group.2, chunk.Keyed

theorem strings_read (texts : List String) : listOf anyString (.ofStrings texts) = .ok texts :=
  listOf_array fun _ _ => rfl

theorem checkTag_toJson (tag : VariantTag) : checkTag tag.toJson = .ok tag := by
  have hroute : required "route" anyString tag.toJson = .ok tag.route := required_of_field rfl rfl
  have hattributes : optional "attributes" [] (listOf anyString) tag.toJson = .ok tag.attributes :=
    optional_of_field _ rfl (strings_read tag.attributes)
  have hgroups : optional "groups" [] (listOf integer) tag.toJson = .ok tag.groups :=
    optional_of_field (.array (tag.groups.map .int)) rfl (listOf_array fun _ _ => rfl)
  show (both (required "route" anyString tag.toJson) (both (optional "attributes" [] (listOf anyString) tag.toJson)
    (optional "groups" [] (listOf integer) tag.toJson))).map _ = _
  rw [hroute, hattributes, hgroups]
  rfl

theorem checkEntry_toJson {entry : NamedEntry} (h : (entry.captures.map (·.1)).Nodup) :
    checkEntry entry.toJson = .ok entry := by
  have hroute : required "route" anyString entry.toJson = .ok entry.route := required_of_field rfl rfl
  have hregex : required "regex" anyString entry.toJson = .ok entry.regex := required_of_field rfl rfl
  have hcaptures : optional "captures" [] (mappingOf anyString) entry.toJson = .ok entry.captures :=
    optional_of_field (jsonMapping .string entry.captures) rfl (mappingOf_object h fun _ _ => rfl)
  show (both (required "route" anyString entry.toJson) (both (required "regex" anyString entry.toJson)
    (optional "captures" [] (mappingOf anyString) entry.toJson))).map _ = _
  rw [hroute, hregex, hcaptures]
  rfl

theorem checkChunk_toJson {chunk : Chunk} (h : chunk.Keyed) : checkChunk chunk.toJson = .ok chunk := by
  cases chunk with
  | mark chunk =>
    have hroutes : optional "routes" [] (listOf anyString) (Chunk.mark chunk).toJson = .ok chunk.routes :=
      optional_of_field _ rfl (strings_read chunk.routes)
    have hregex : required "regex" anyString (Chunk.mark chunk).toJson = .ok chunk.regex := required_of_field rfl rfl
    have htags : optional "tags" [] (mappingOf checkTag) (Chunk.mark chunk).toJson = .ok chunk.tags :=
      optional_of_field (jsonMapping VariantTag.toJson chunk.tags) rfl
        (mappingOf_object h fun entry _ => checkTag_toJson entry.2)
    have hchunk : checkMarkChunk (Chunk.mark chunk).toJson = .ok chunk := by
      rw [checkMarkChunk, hroutes, hregex, htags]
      rfl
    show under (.field "mark") ((checkMarkChunk (Chunk.mark chunk).toJson).map Chunk.mark) = _
    rw [hchunk]
    rfl
  | named chunk =>
    have hroutes : optional "routes" [] (listOf anyString) (Chunk.named chunk).toJson = .ok chunk.routes :=
      optional_of_field _ rfl (strings_read chunk.routes)
    have hentries : optional "entries" [] (listOf checkEntry) (Chunk.named chunk).toJson = .ok chunk.entries :=
      optional_of_field (.array (chunk.entries.map NamedEntry.toJson)) rfl
        (listOf_array fun entry hentry => checkEntry_toJson (h entry hentry))
    have hchunk : checkNamedChunk (Chunk.named chunk).toJson = .ok chunk := by
      rw [checkNamedChunk, hroutes, hentries]
      rfl
    show under (.field "named") ((checkNamedChunk (Chunk.named chunk).toJson).map Chunk.named) = _
    rw [hchunk]
    rfl

theorem checkStrategy_name (strategy : Strategy) : checkStrategy (.string strategy.name) = .ok strategy := by
  cases strategy <;> rfl

theorem checkData_toJson {data : DispatchData} (h : data.Keyed) : checkData data.toJson = .ok data := by
  have hstrategy : optional "strategy" .mark checkStrategy data.toJson = .ok data.strategy :=
    optional_of_field _ rfl (checkStrategy_name data.strategy)
  have hsize : optional "chunk_size" 15 (fun size => ensure (atLeast 1) (integer size)) data.toJson =
      .ok data.chunkSize := by
    refine optional_of_field (.int data.chunkSize) rfl ?_
    simp only [integer, ensure, atLeast, if_pos h.size]
  have hgroups : optional "groups" [] (mappingOf (listOf checkChunk)) data.toJson = .ok data.groups := by
    refine optional_of_field
      (jsonMapping (fun chunks : List Chunk => .array (chunks.map Chunk.toJson)) data.groups) rfl ?_
    exact mappingOf_object h.buckets fun group hgroup =>
      listOf_array fun chunk hchunk => checkChunk_toJson (h.chunks group hgroup chunk hchunk)
  show (both (optional "strategy" .mark checkStrategy data.toJson)
    (both (optional "chunk_size" 15 (fun size => ensure (atLeast 1) (integer size)) data.toJson)
      (optional "groups" [] (mappingOf (listOf checkChunk)) data.toJson))).map _ = _
  rw [hstrategy, hsize, hgroups]
  rfl

/-! ## Fractions do not occur -/

theorem fractionless_ofStrings (texts : List String) : (Json.ofStrings texts).Fractionless := by
  refine .array fun item hitem => ?_
  obtain ⟨text, -, rfl⟩ := List.mem_map.1 hitem
  exact .string text

theorem fractionless_array {α : Type} {f : α → Json} (hf : ∀ a, (f a).Fractionless) (values : List α) :
    (Json.array (values.map f)).Fractionless := by
  refine .array fun item hitem => ?_
  obtain ⟨a, -, rfl⟩ := List.mem_map.1 hitem
  exact hf a

theorem fractionless_jsonMapping {α : Type} {f : α → Json} (hf : ∀ a, (f a).Fractionless) (mapping : List (String × α)) :
    (jsonMapping f mapping).Fractionless := by
  refine .object fun field hfield => ?_
  obtain ⟨entry, -, rfl⟩ := List.mem_map.1 hfield
  exact hf entry.2

theorem fractionless_chunk (chunk : Chunk) : chunk.toJson.Fractionless := by
  cases chunk with
  | mark chunk =>
    refine .object ?_
    simp only [List.forall_mem_cons, List.not_mem_nil, false_imp_iff, implies_true, and_true]
    refine ⟨.string _, fractionless_ofStrings _, .string _, fractionless_jsonMapping (fun tag => ?_) _⟩
    refine .object ?_
    simp only [List.forall_mem_cons, List.not_mem_nil, false_imp_iff, implies_true, and_true]
    exact ⟨.string _, fractionless_ofStrings _, fractionless_array .int _⟩
  | named chunk =>
    refine .object ?_
    simp only [List.forall_mem_cons, List.not_mem_nil, false_imp_iff, implies_true, and_true]
    refine ⟨.string _, fractionless_ofStrings _, fractionless_array (fun entry => ?_) _⟩
    refine .object ?_
    simp only [List.forall_mem_cons, List.not_mem_nil, false_imp_iff, implies_true, and_true]
    exact ⟨.string _, .string _, fractionless_jsonMapping .string _⟩

theorem fractionless_data (data : DispatchData) : data.toJson.Fractionless := by
  refine .object ?_
  simp only [List.forall_mem_cons, List.not_mem_nil, false_imp_iff, implies_true, and_true]
  exact ⟨.string _, .int _, fractionless_jsonMapping (fractionless_array fractionless_chunk) _⟩

/-- **Data with distinct keys are read back from their text.** -/
theorem ofText_text {data : DispatchData} (h : data.Keyed) : DispatchData.ofText data.text = .ok data := by
  unfold DispatchData.ofText DispatchData.text
  rw [ofText?_text (fractionless_data data)]
  exact checkData_toJson h

/-! ## The data of a collector -/

/-- The chunks of parsed routes have distinct keys. -/
theorem keyed_chunk {strategy : Strategy} {chunk : List (Collected strategy)}
    (h : ∀ item ∈ chunk, ∃ route : Route, route.collected strategy = .ok item) : (strategy.chunk chunk).Keyed := by
  cases strategy with
  | mark => exact nodup_tags_markChunk chunk
  | named =>
    intro entry hentry
    obtain ⟨item, hitem, rfl⟩ := List.mem_map.1 hentry
    obtain ⟨route, hroute⟩ := h item hitem
    obtain ⟨form, hform, hroute⟩ := bind_eq_ok.1 hroute
    cases hroute
    obtain ⟨names, hnames, hcaptures⟩ := Pattern.captures_of_parse hform
    show (form.captures.map (·.1)).Nodup
    rw [hcaptures]
    exact Pattern.captureAliases_nodup hnames

/-- **What a collector compiles has distinct keys**, whatever it was given. -/
theorem Collector.Gathers.keyed {collector : Collector} {routes : List Route} (h : collector.Gathers routes) :
    collector.data.Keyed := by
  refine ⟨?_, ?_, ?_⟩
  · show (1 : Int) ≤ (collector.chunkSize : Int)
    have hpos := collector.chunkSize_pos
    omega
  · show ((collector.buckets.map _).map _).Nodup
    rw [List.map_map]
    exact h.names
  · intro group hgroup chunk hchunk
    obtain ⟨bucket, hbucket, rfl⟩ := List.mem_map.1 hgroup
    obtain ⟨part, hpart, rfl⟩ := List.mem_map.1 hchunk
    refine keyed_chunk fun item hitem => ?_
    obtain ⟨route, -, -, hroute⟩ := h.items bucket hbucket item
      ((ne_nil_of_mem_chunksOf collector.chunkSize_pos hpart).2 item hitem)
    exact ⟨route, hroute⟩

/-- the collector after calls that each add some routes; the routes behind one that fails are not added -/
def Collector.run (collector : Collector) (calls : List (List Route)) : Collector :=
  calls.foldl (fun collector routes => (collector.addRoutes routes).1) collector

/-- Any calls keep the items of a bucket parsed routes that belong there. -/
theorem gathers_run {collector : Collector} {routes : List Route} (h : collector.Gathers routes)
    {calls : List (List Route)} (hcalls : ∀ call ∈ calls, ∀ route ∈ call, route ∈ routes) :
    (collector.run calls).Gathers routes := by
  induction calls generalizing collector with
  | nil => exact h
  | cons call calls ih =>
    exact ih (gathers_addRoutes h (hcalls call List.mem_cons_self)) fun other hother =>
      hcalls other (List.mem_cons_of_mem call hother)

/-- what a new matcher of these data answers -/
def DispatchData.answer (data : DispatchData) (path method : String) : Except MatcherError MatchResult := do
  (← Matcher.ofData data).match' path method

/-- **Dispatch data survive their text**, as `DispatchData.text` writes it and `DispatchData.ofText` reads it. Whatever a
new collector was given, routes that it refused and names that it knew already among them, its data are read back from
their text as they were, so that a matcher of the restored data answers, or fails, as one of the data themselves. -/
theorem collected_data_restored (strategy : String) (size : Int) (start : Collector)
    (hstart : Collector.make strategy size = .ok start) (calls : List (List Route)) :
    let data := (start.run calls).data
    DispatchData.ofText data.text = .ok data ∧
      ∀ restored, DispatchData.ofText data.text = .ok restored →
        ∀ path method, restored.answer path method = data.answer path method := by
  intro data
  have hgathers : start.Gathers calls.flatten := (Collector.make_eq_ok hstart).1.gathers _
  have hrun : (start.run calls).Gathers calls.flatten :=
    gathers_run hgathers fun call hcall route hroute => List.mem_flatten.2 ⟨call, hcall, hroute⟩
  have hread : DispatchData.ofText data.text = .ok data := ofText_text hrun.keyed
  refine ⟨hread, fun restored hrestored path method => ?_⟩
  obtain rfl : data = restored := Except.ok.inj (hread.symm.trans hrestored)
  rfl

/-- routes whose names and expressions hold quotes, backslashes and a letter beyond ASCII, and one that is refused -/
def awkwardCalls : List (List Route) := [
  [⟨"/\x7bid:\\d+\x7d", "a \"quoted\" name", some [.get], [], none, none, none⟩,
    ⟨"/\x7bid:\x7d\x7d", "refused", none, [], none, none, none⟩],
  [⟨"/caf\u00e9[/\x7bkey-part\x7d]", "caf\u00e9\n", none, [], none, none, none⟩]]

/-- The data of such routes answer as before when they were read back. -/
theorem awkwardCalls_restored :
    ∃ start, Collector.make "named" 1 = .ok start ∧ (start.run awkwardCalls).seen = ["a \"quoted\" name", "caf\u00e9\n"] ∧
      ∃ restored, DispatchData.ofText (start.run awkwardCalls).data.text = .ok restored ∧
        (restored.answer "/42" "get").toOption.bind (·.route) = some "a \"quoted\" name" := by
  obtain ⟨hread, -⟩ := collected_data_restored "named" 1 ⟨.named, 1, by decide, [], []⟩ rfl awkwardCalls
  exact ⟨_, rfl, by decide +kernel, _, hread, by decide +kernel⟩

end UrlRouter
