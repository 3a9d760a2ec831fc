/-
Routes of the mark strategy.

The variants of a chunk stand in one alternation, each in a group of its own. A variant that is a body means the same
there as by itself, so a chunk finds what its routes find one by one.

Results:
- `markChunk_finds`: a chunk of variants that are bodies compiles and tries them one after the other.
- `markChunks_find`: so do all chunks of routes whose variants are bodies.
-/
import Mathlib.Tactic
import UrlRouter.Proofs.Dispatch.Attributes
import UrlRouter.Proofs.Dispatch.Reference
import UrlRouter.Proofs.Dispatch.Tags
import UrlRouter.Proofs.Pattern.PlainLayout
import UrlRouter.Proofs.Regex.Places

namespace UrlRouter

open Regex (Composite Place)

/-! ## The test of a route -/

/-- what a group holds, if it took part and is not empty -/
def valueOf? (m : Regex.Match) (n : Nat) : Option String := (m.group? n).filter (· ≠ "")

/-- an attribute with the decoded value of its group -/
def valued? (m : Regex.Match) (entry : String × Nat) : Option (String × String) :=
  (valueOf? m entry.2).map fun value => (entry.1, Text.percentDecode value)

/-- A variant's own expression, tried on the path; the groups are those of the attributes. -/
def variantTest (attributes : List String) (path : String) (variant : String × List Nat) :
    Option (List (String × String)) :=
  match Regex.compile variant.1 with
  | .error _ => none
  | .ok regex => (regex.fullMatch? path).map fun m => (attributes.zip variant.2).filterMap (valued? m)

/-- The first of the route's variants that matches the path. The attributes are its groups that are not empty,
decoded. -/
def markTest : RouteTest := fun route path =>
  match Pattern.MarkForm.parse route.path route.tokens with
  | .error _ => none
  | .ok form => (form.variants.zip form.groups).findSome? (variantTest form.attributes path)

/-- Every variant of the route is a body that holds the groups of the attributes. -/
def Route.IsSelfContained (route : Route) : Prop :=
  ∃ form, Pattern.MarkForm.parse route.path route.tokens = .ok form ∧
    ∀ variant ∈ form.variants.zip form.groups,
      ∃ body : Regex.Body, body.text = variant.1 ∧ ∀ g ∈ variant.2, 1 ≤ g ∧ g ≤ body.groups

instance : DecidablePred Route.IsSelfContained := fun route =>
  match h : Pattern.MarkForm.parse route.path route.tokens with
  | .error _ => isFalse fun ⟨_, hform, _⟩ => by rw [h] at hform; cases hform
  | .ok form => decidable_of_iff
      (∀ variant ∈ form.variants.zip form.groups,
        ∃ body : Regex.Body, body.text = variant.1 ∧ ∀ g ∈ variant.2, 1 ≤ g ∧ g ≤ body.groups)
      ⟨fun hbodies => ⟨form, h, hbodies⟩, fun ⟨_, hform, hbodies⟩ => Except.ok.inj (h.symm.trans hform) ▸ hbodies⟩

/-! ## Attributes of a variant -/

theorem groupValue?_eq {m : Regex.Match} {groups n : Nat} (hn : 1 ≤ n) (hgroups : n ≤ groups) :
    groupValue? m groups (n : Int) = .ok (valueOf? m n) := by
  have hbounds : ¬((decide ((n : Int) < 0) || decide ((groups : Int) < n)) = true) := by
    simp only [Bool.or_eq_true, decide_eq_true_eq]
    omega
  have hzero : ¬(n : Int) = 0 := by omega
  unfold groupValue? valueOf?
  rw [if_neg hbounds, if_neg hzero, Int.toNat_natCast]
  cases hgroup : m.group? n with
  | none => rfl
  | some value =>
    by_cases hvalue : value = "" <;> simp [hvalue, Option.filter]

/-- Groups that are counted from the tag of a variant hold what the variant's own groups hold. -/
theorem tagAttributes_eq {m own : Regex.Match} {total base groups : Nat} (entries : List (String × Int))
    (mapping : Mapping String) (hfits : ∀ entry ∈ entries, 1 ≤ entry.2 ∧ entry.2 ≤ groups)
    (htotal : base + groups ≤ total) (hsame : ∀ n, 1 ≤ n → m.group? (base + n) = own.group? n)
    (hnodup : (mapping.map (·.1) ++ entries.map (·.1)).Nodup) :
    tagAttributes m total base entries mapping =
      .ok (mapping ++ entries.filterMap fun entry => valued? own (entry.1, entry.2.toNat)) := by
  induction entries generalizing mapping with
  | nil => rw [tagAttributes, List.filterMap_nil, List.append_nil]
  | cons entry rest ih =>
    obtain ⟨name, g⟩ := entry
    obtain ⟨hg, hgroups⟩ := hfits (name, g) List.mem_cons_self
    obtain ⟨n, rfl⟩ : ∃ n : Nat, g = n := ⟨g.toNat, (Int.toNat_of_nonneg (by omega)).symm⟩
    have hrest := fun mapping => ih mapping fun entry hentry => hfits entry (List.mem_cons_of_mem _ hentry)
    have hvalue : groupValue? m total (base + n) = .ok (valueOf? own n) := by
      have hsum := @groupValue?_eq m total (base + n) (by omega) (by omega)
      rwa [Nat.cast_add, valueOf?, hsame n (by omega)] at hsum
    rw [tagAttributes, hvalue, ok_bind, List.filterMap_cons, valued?, Int.toNat_natCast]
    cases valueOf? own n with
    | none =>
      refine hrest mapping ((List.Sublist.append_left ?_ _).nodup hnodup)
      exact (List.sublist_cons_self _ _)
    | some value =>
      have hnew : name ∉ mapping.map (·.1) := fun hmem =>
        (List.nodup_append.1 hnodup).2.2 name hmem name List.mem_cons_self rfl
      have hnodup' : ((mapping ++ [(name, Text.percentDecode value)]).map (·.1) ++ rest.map (·.1)).Nodup := by
        rw [List.map_append, List.append_assoc]
        exact hnodup
      simp only [insertValue_new _ hnew, hrest _ hnodup', Option.map_some]
      rw [List.append_assoc]
      rfl

theorem zip_fst_sublist {α β : Type} (as : List α) (bs : List β) : ((as.zip bs).map (·.1)).Sublist as := by
  induction as generalizing bs with
  | nil => exact List.nil_sublist _
  | cons a as ih =>
    cases bs with
    | nil => exact List.nil_sublist _
    | cons b bs => exact (ih bs).cons_cons a

/-! ## Chunks of bodies -/

/-- a variant of a chunk that is a body, with what its tag stands for -/
structure TaggedBody where
  tag : String
  body : Regex.Body
  info : VariantTag
  identifier : Text.isIdentifier tag = true
  nodup : info.attributes.Nodup
  fits : ∀ g ∈ info.groups, 1 ≤ g ∧ g ≤ body.groups

namespace TaggedBody

/-- the alternative of a variant -/
def alternative (v : TaggedBody) : Composite := .capture (some v.tag) v.body .done

/-- what the variant finds by itself -/
def hit? (path : String) (v : TaggedBody) : Option Hit :=
  (v.body.regex.fullMatch? path).map fun m =>
    (v.info.route, (v.info.attributes.zip v.info.groups).filterMap fun entry => valued? m (entry.1, entry.2.toNat))

/-- the compiled expression of a chunk -/
def chunkRegex (variants : List TaggedBody) : Regex where
  root := .ofAlternatives (Composite.choiceNodes 1 (variants.map alternative))
  groups := Composite.choiceGroups (variants.map alternative)
  names := Composite.choiceNames 1 (variants.map alternative)

theorem choiceNames_cons (n : Nat) (v : TaggedBody) (rest : List TaggedBody) :
    Composite.choiceNames n ((v :: rest).map alternative) =
      (v.tag, n) :: Composite.choiceNames (n + (1 + v.body.groups)) (rest.map alternative) := rfl

theorem choiceNames_tags (variants : List TaggedBody) (n : Nat) :
    (Composite.choiceNames n (variants.map alternative)).map (·.1) = variants.map (·.tag) := by
  induction variants generalizing n with
  | nil => rfl
  | cons v rest ih => rw [choiceNames_cons, List.map_cons, ih, List.map_cons]

/-- The groups of the variants are numbered upwards. -/
theorem choiceNames_numbers (variants : List TaggedBody) (n : Nat) :
    (∀ named ∈ Composite.choiceNames n (variants.map alternative), n ≤ named.2) ∧
      ((Composite.choiceNames n (variants.map alternative)).map (·.2)).Nodup := by
  induction variants generalizing n with
  | nil => exact ⟨fun _ h => absurd h List.not_mem_nil, .nil⟩
  | cons v rest ih =>
    obtain ⟨hrest, hnodup⟩ := ih (n + (1 + v.body.groups))
    rw [choiceNames_cons]
    constructor
    · intro named hnamed
      rcases List.mem_cons.1 hnamed with rfl | hnamed
      · exact le_rfl
      · exact le_trans (Nat.le_add_right _ _) (hrest named hnamed)
    · rw [List.map_cons, List.nodup_cons]
      refine ⟨fun hmem => ?_, hnodup⟩
      obtain ⟨named, hnamed, heq⟩ := List.mem_map.1 hmem
      have hle := hrest named hnamed
      omega

end TaggedBody

open TaggedBody (alternative hit? chunkRegex)

/-- The place `p`, found in a chunk whose first group is number `n`, is the place of a variant found by itself: its groups
are counted from its tag, which closed last. -/
structure TaggedBody.Locates (variants : List TaggedBody) (n base : Nat) (p : Place) (found : TaggedBody × Place) :
    Prop where
  mem : found.1 ∈ variants
  follows : p.Follows base found.2
  closed : p.lastClosed = some base
  named : (found.1.tag, base) ∈ Composite.choiceNames n (variants.map alternative)
  fits : base + found.1.body.groups < n + Composite.choiceGroups (variants.map alternative)

/-- The place at the end of a path that a chunk finds belongs to the first variant that matches by itself. -/
theorem place_of_variants (text : Array Char) (variants : List TaggedBody) (n : Nat) :
    Option.Rel (fun p found => ∃ base, TaggedBody.Locates variants n base p found)
      ((Composite.choiceNodes n (variants.map alternative)).findSome? fun node =>
        node.run text {} fun p => if p.position = text.size then some p else none)
      (variants.findSome? fun v =>
        (v.body.root.run text {} fun p => if p.position = text.size then some p else none).map (v, ·)) := by
  induction variants generalizing n with
  | nil => exact .none
  | cons v rest ih =>
    have hgroups : Composite.choiceGroups ((v :: rest).map alternative) =
        1 + v.body.groups + Composite.choiceGroups (rest.map alternative) := rfl
    have hnodes : Composite.choiceNodes n ((v :: rest).map alternative) =
        .group n (v.body.root.shift n) ::
          Composite.choiceNodes (n + (1 + v.body.groups)) (rest.map alternative) := rfl
    have hown := v.body.group_follows text n
    have hlater := ih (n + (1 + v.body.groups))
    rw [hnodes, List.findSome?_cons, List.findSome?_cons]
    revert hown
    generalize (Regex.Node.group n (v.body.root.shift n)).run text {} _ = place
    generalize v.body.root.run text {} _ = own
    intro hown
    cases hown with
    | some h =>
      refine .some ⟨n, List.mem_cons_self, h.1, h.2, List.mem_cons_self, ?_⟩
      show n + v.body.groups < _
      omega
    | none =>
      refine Regex.rel_imp hlater fun p found h => ?_
      obtain ⟨base, hmem, hfollows, hlast, hnamed, hfits⟩ := h
      exact ⟨base, List.mem_cons_of_mem v hmem, hfollows, hlast, List.mem_cons_of_mem _ hnamed, by omega⟩

theorem group?_of_follows {text : Array Char} {base : Nat} {p q : Place} (h : p.Follows base q) (n : Nat) (hn : 1 ≤ n) :
    (⟨text, p⟩ : Regex.Match).group? (base + n) = (⟨text, q⟩ : Regex.Match).group? n := by
  simp only [Regex.Match.group?, h.span? hn]

theorem info_of_mem {variants : List TaggedBody} (htags : (variants.map (·.tag)).Nodup) {v : TaggedBody}
    (hv : v ∈ variants) : (variants.map fun v => (v.tag, v.info)).lookup v.tag = some v.info := by
  refine lookup_of_nodup ?_ (List.mem_map_of_mem (f := fun v : TaggedBody => (v.tag, v.info)) hv)
  rw [List.map_map]
  exact htags

/-- A compiled chunk finds what the first of its variants finds by itself. -/
theorem match?_of_bodies {variants : List TaggedBody} (hne : variants ≠ []) (htags : (variants.map (·.tag)).Nodup)
    (path : String) :
    (CompiledChunk.mark (chunkRegex variants) (variants.map fun v => (v.tag, v.info))).match? path =
      .ok (variants.findSome? (hit? path)) := by
  have hroot : ∀ k, (chunkRegex variants).root.run path.toList.toArray {} k =
      (Composite.choiceNodes 1 (variants.map alternative)).findSome? fun node => node.run path.toList.toArray {} k := by
    obtain ⟨first, others, rfl⟩ := List.exists_cons_of_ne_nil hne
    exact fun k => Regex.run_alternatives (List.cons_ne_nil _ _) _ k
  have hplace := place_of_variants path.toList.toArray variants 1
  have hown : variants.findSome? (hit? path) = (variants.findSome? fun v =>
      (v.body.root.run path.toList.toArray {} fun p =>
        if p.position = path.toList.toArray.size then some p else none).map (v, ·)).map fun found =>
          (found.1.info.route, (found.1.info.attributes.zip found.1.info.groups).filterMap fun entry =>
            valued? ⟨path.toList.toArray, found.2⟩ (entry.1, entry.2.toNat)) := by
    rw [List.map_findSome?]
    refine congrArg (List.findSome? · variants) (funext fun v => ?_)
    simp only [Function.comp, Option.map_map, hit?, Regex.fullMatch?, Regex.Body.regex]
    rfl
  rw [CompiledChunk.match?, Regex.fullMatch?, hroot, hown]
  revert hplace
  generalize List.findSome? _ (Composite.choiceNodes 1 (variants.map alternative)) = place
  generalize List.findSome? _ variants = own
  intro hplace
  cases hplace with
  | none => rfl
  | @some p found h =>
    obtain ⟨base, h⟩ := h
    have hnumbers := (TaggedBody.choiceNames_numbers variants 1).2
    have hname : (chunkRegex variants).names.find? (·.2 == base) = some (found.1.tag, base) :=
      find?_of_nodup hnumbers h.named
    have hattributes := @tagAttributes_eq ⟨path.toList.toArray, p⟩ ⟨path.toList.toArray, found.2⟩
      (chunkRegex variants).groups base found.1.body.groups (found.1.info.attributes.zip found.1.info.groups) []
      (fun entry hentry => found.1.fits _ (List.of_mem_zip hentry).2)
      (Nat.lt_one_add_iff.1 h.fits) (group?_of_follows h.follows) ((zip_fst_sublist _ _).nodup found.1.nodup)
    simp only [Option.map_some, Regex.Match.lastClosed, h.closed, hname, Option.bind_some, info_of_mem htags h.mem,
      hattributes]
    rfl

/-- A chunk compiles when its expression does and has a group for each tag. -/
theorem compile_mark {chunk : MarkChunk} {regex : Regex} (hcompile : Regex.compile chunk.regex = .ok regex)
    (htags : ∀ tag ∈ chunk.tags.map (·.1), tag ∈ regex.names.map (·.1)) :
    (Chunk.mark chunk).compile = .ok (.mark regex chunk.tags) := by
  have hgroups : chunk.tags.find? (fun entry => (regex.groupNumber? entry.1).isNone) = none := by
    rw [List.find?_eq_none]
    intro entry hentry
    obtain ⟨named, hnamed, heq⟩ := List.mem_map.1 (htags entry.1 (List.mem_map_of_mem hentry))
    have hfound : (regex.groupNumber? entry.1).isSome = true :=
      List.lookup_isSome_iff.2 ⟨named, hnamed, by simp [heq]⟩
    simp [Option.isSome_iff_ne_none.1 hfound]
  rw [Chunk.compile]
  simp only [compileRegex, hcompile, Except.mapError, ok_bind, hgroups]
  rfl

/-- **A chunk of variants that are bodies** compiles, and finds what the first of them finds by itself. -/
theorem markChunk_finds {variants : List TaggedBody} (hne : variants ≠ []) (htags : (variants.map (·.tag)).Nodup)
    (names : List String) :
    ∃ compiled, (Chunk.mark ⟨names, String.ofList (Regex.alternationText (variants.map (·.alternative.text))),
        variants.map fun v => (v.tag, v.info)⟩).compile = .ok compiled ∧
      ∀ path, compiled.match? path = .ok (variants.findSome? (hit? path)) := by
  have hfst : (Composite.choiceNames 1 (variants.map alternative)).map (·.1) = variants.map (·.tag) :=
    TaggedBody.choiceNames_tags variants 1
  have hreadable : ∀ e ∈ variants.map alternative, e.Readable := by
    intro e he
    obtain ⟨v, hv, rfl⟩ := List.mem_map.1 he
    refine ⟨fun name hname => ?_, trivial⟩
    obtain rfl : v.tag = name := by simpa using hname
    exact v.identifier
  have hcompile : Regex.compile (String.ofList (Regex.alternationText (variants.map (·.alternative.text)))) =
      .ok (chunkRegex variants) := by
    obtain ⟨first, others, rfl⟩ := List.exists_cons_of_ne_nil hne
    have hread := Regex.compile_alternatives first.alternative (others.map alternative) hreadable
      (by rw [← List.map_cons, hfst]; exact htags)
    rwa [← List.map_cons, List.map_map] at hread
  have htagged : ∀ tag ∈ (variants.map fun v => (v.tag, v.info)).map (·.1), tag ∈ (chunkRegex variants).names.map (·.1) := by
    intro tag htag
    have hlisted : tag ∈ variants.map (·.tag) := by simpa using htag
    rw [← hfst] at hlisted
    exact hlisted
  exact ⟨_, compile_mark hcompile htagged, match?_of_bodies hne htags⟩

/-! ## Chunks of routes -/

namespace Pattern

/-- The attributes of a parsed pattern differ, and it has a variant with groups. -/
theorem markForm_wellFormed {pattern : String} {overrides : Overrides} {form : MarkForm}
    (h : MarkForm.parse pattern overrides = .ok form) :
    form.attributes.Nodup ∧ form.variants.zip form.groups ≠ [] := by
  unfold MarkForm.parse at h
  split_ifs at h with hroot hstatic
  · cases h
    exact ⟨.nil, List.cons_ne_nil _ _⟩
  · obtain ⟨_, -, h⟩ := bind_eq_ok.1 h
    obtain ⟨_, -, h⟩ := bind_eq_ok.1 h
    cases h
    exact ⟨.nil, List.cons_ne_nil _ _⟩
  · obtain ⟨layout, hlayout, h⟩ := bind_eq_ok.1 h
    obtain ⟨_, -, h⟩ := bind_eq_ok.1 h
    obtain ⟨groups, hgroups, h⟩ := bind_eq_ok.1 h
    cases h
    have hread : layoutOf pattern = .ok layout := by rw [layoutOf, if_neg hroot, if_neg hstatic, hlayout]
    refine ⟨(wellFormed_of_layoutOf hread).nodup, fun hnil => ?_⟩
    have hlength := (mapM_eq_ok.1 hgroups).length_eq
    have hzip := congrArg List.length hnil
    rw [List.length_zip, List.length_map, ← hlength, Nat.min_self, Layout.variants] at hzip
    cases hzip

end Pattern

def TaggedBody.entry (v : TaggedBody) : TagEntry := (v.tag, v.body.text, v.info)

theorem findSome?_of_forall₂ {α β γ : Type} {f : α → Option γ} {g : β → Option γ} {as : List α} {bs : List β}
    (h : List.Forall₂ (fun a b => g b = f a) as bs) : bs.findSome? g = as.findSome? f := by
  induction h with
  | nil => rfl
  | cons h _ ih => rw [List.findSome?_cons, List.findSome?_cons, h, ih]

theorem tag_entries_eq (attributes : List String) (groups : List Nat) :
    ((attributes.take groups.length).zip (groups.map Int.ofNat)).map (fun entry => (entry.1, entry.2.toNat)) =
      attributes.zip groups := by
  induction groups generalizing attributes with
  | nil => simp
  | cons g groups ih =>
    cases attributes with
    | nil => rfl
    | cons name attributes => exact congrArg ((name, g) :: ·) (ih attributes)

/-- The tags of a self-contained route stand for bodies, which find what the route's test finds. -/
theorem exists_routeBodies {route : Route} {item : Collected .mark} (hroute : route.IsSelfContained)
    (hitem : route.collected .mark = .ok item) (i : Nat) :
    ∃ variants : List TaggedBody, variants.map TaggedBody.entry = routeTags i item ∧
      ∀ path, variants.findSome? (hit? path) = (markTest route path).map (route.name, ·) := by
  obtain ⟨form, hform, hbodies⟩ := hroute
  obtain ⟨parsed, hparsed, hitem⟩ := bind_eq_ok.1 hitem
  cases hitem
  obtain rfl : form = parsed := Except.ok.inj (hform.symm.trans hparsed)
  have hnodup := (Pattern.markForm_wellFormed hform).1
  have hvariant : ∀ pair ∈ (form.variants.zip form.groups).zipIdx, ∃ v : TaggedBody,
      v.entry = (variantTagName i pair.2, pair.1.1,
        ⟨route.name, form.attributes.take pair.1.2.length, pair.1.2.map Int.ofNat⟩) ∧
      ∀ path, hit? path v = (variantTest form.attributes path pair.1).map (route.name, ·) := by
    rintro ⟨variant, j⟩ hpair
    obtain ⟨body, htext, hfits⟩ := hbodies variant (List.fst_mem_of_mem_zipIdx hpair)
    refine ⟨⟨variantTagName i j, body, ⟨route.name, form.attributes.take variant.2.length, variant.2.map Int.ofNat⟩,
      isIdentifier_variantTagName i j, (List.take_sublist _ _).nodup hnodup, fun g hg => ?_⟩,
      by rw [TaggedBody.entry, htext], fun path => ?_⟩
    · obtain ⟨n, hn, rfl⟩ := List.mem_map.1 hg
      have hn' := hfits n hn
      exact ⟨Int.ofNat_le.2 hn'.1, Int.ofNat_le.2 hn'.2⟩
    · have hcompile : Regex.compile variant.1 = .ok body.regex := htext ▸ body.compile_text
      simp only [hit?, variantTest, hcompile, Option.map_map, ← tag_entries_eq form.attributes variant.2,
        List.filterMap_map]
      rfl
  obtain ⟨variants, hvariants⟩ := forall₂_of_exists hvariant
  refine ⟨variants, map_of_forall₂ (hvariants.imp fun _ _ h => h.1), fun path => ?_⟩
  have hfirst := findSome?_of_forall₂ (f := fun pair : (String × List Nat) × Nat =>
    (variantTest form.attributes path pair.1).map (route.name, ·)) (hvariants.imp fun _ _ h => h.2 path)
  have htest : markTest route path = (form.variants.zip form.groups).findSome? (variantTest form.attributes path) := by
    simp only [markTest, hform]
  rw [hfirst, htest, List.map_findSome?]
  conv_rhs => rw [← List.zipIdx_map_fst 0 (form.variants.zip form.groups), List.findSome?_map]
  rfl

/-- The tags of a chunk of self-contained routes stand for bodies, which find what the first of the routes finds. -/
theorem exists_chunkBodies {part : List Route} {chunk : List (Collected .mark)}
    (hroutes : ∀ route ∈ part, route.IsSelfContained)
    (h : List.Forall₂ (fun route item => route.collected .mark = .ok item) part chunk) (i : Nat) :
    ∃ variants : List TaggedBody,
      variants.map TaggedBody.entry = ((chunk.zipIdx i).map fun pair => routeTags pair.2 pair.1).flatten ∧
      ∀ path, variants.findSome? (hit? path) = firstMatch markTest path part := by
  induction h generalizing i with
  | nil => exact ⟨[], rfl, fun _ => rfl⟩
  | @cons route item part chunk hitem _ ih =>
    obtain ⟨own, hown, hownfind⟩ := exists_routeBodies (hroutes route List.mem_cons_self) hitem i
    obtain ⟨others, hothers, hfind⟩ := ih (fun other hother => hroutes other (List.mem_cons_of_mem route hother)) (i + 1)
    refine ⟨own ++ others, ?_, fun path => ?_⟩
    · rw [List.map_append, hown, hothers, List.zipIdx_cons, List.map_cons, List.flatten_cons]
    · rw [List.findSome?_append, hownfind, hfind, firstMatch, firstMatch, List.findSome?_cons]
      cases (markTest route path).map (route.name, ·) <;> rfl

theorem TaggedBody.text_entry (v : TaggedBody) : (TagEntry.text v.entry).toList = v.alternative.text := by
  simp [TagEntry.text, entry, alternative, Composite.text]

theorem routeTags_ne_nil {route : Route} {item : Collected .mark} (h : route.collected .mark = .ok item) (i : Nat) :
    routeTags i item ≠ [] := by
  obtain ⟨form, hform, hitem⟩ := bind_eq_ok.1 h
  cases hitem
  have hne := (Pattern.markForm_wellFormed hform).2
  simpa [routeTags] using hne

/-- **Chunks of self-contained routes** compile and find the first of their routes that matches. -/
theorem markChunks_find {routes : List Route} (h : ∀ route ∈ routes, route.IsSelfContained) :
    ChunksFind .mark markTest routes := by
  intro part chunk hne hmem hcollected
  obtain ⟨variants, hvariants, hfind⟩ :=
    exists_chunkBodies (fun route hroute => h route (hmem route hroute)) hcollected 0
  have hchunk := markChunk_of_variants hvariants.symm TaggedBody.text_entry
  have htags : (variants.map (·.tag)).Nodup := by
    have hnodup := nodup_tags_markChunk chunk
    rwa [hchunk, List.map_map] at hnodup
  have hvariants_ne : variants ≠ [] := by
    rintro rfl
    cases hcollected with
    | nil => exact hne rfl
    | cons hitem _ => exact routeTags_ne_nil hitem 0 (List.append_eq_nil_iff.1 hvariants.symm).1
  obtain ⟨compiled, hcompiled, hmatch⟩ := markChunk_finds hvariants_ne htags (chunk.map (·.name))
  refine ⟨compiled, ?_, fun path => by rw [hmatch, hfind]⟩
  rw [Strategy.chunk, hchunk]
  exact hcompiled

end UrlRouter
