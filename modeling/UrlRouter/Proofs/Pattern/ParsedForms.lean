/-
What a form was parsed from.

Both parsers read the layout of a dynamic pattern and resolve the constraint of every token, the positional one for each
variant, the named one once. Where parsing succeeds, its result can be written down from the layout and the resolved
constraints alone.

Results:
- `resolveConstraint_eq_ok`: a resolved constraint is the one asked for, compiles and names no group.
- `markForm_of_parse`, `markForm_of_static`: what the positional form of a pattern is.
- `namedForm_of_parse`, `namedForm_of_static`: the same for the named form.
-/
import Mathlib.Tactic
import UrlRouter.Proofs.Dispatch.Building
import UrlRouter.Proofs.Pattern.RegularForms

namespace UrlRouter.Pattern

/-! ## Constraints -/

theorem names_eq_nil_of_forall {regex : Regex} (h : ∀ name, name ∉ regex.names.map (·.1)) : regex.names = [] :=
  List.map_eq_nil_iff.1 (List.eq_nil_iff_forall_not_mem.2 h)

theorem rejectNamedGroups_eq_ok {pattern : Option String} {allowed : List String} {regex : Regex} :
    rejectNamedGroups pattern allowed regex = .ok () ↔ ∀ name ∈ regex.names.map (·.1), name ∈ allowed := by
  unfold rejectNamedGroups
  cases hnames : (regex.names.map (·.1)).filter (!allowed.contains ·) with
  | nil => simpa [List.filter_eq_nil_iff] using hnames
  | cons name rest =>
    have hmem : name ∈ (regex.names.map (·.1)).filter (!allowed.contains ·) := by rw [hnames]; exact List.mem_cons_self
    obtain ⟨hname, hforeign⟩ := List.mem_filter.1 hmem
    constructor
    · intro h
      cases h
    · intro h
      exact absurd (h name hname) (by simpa using hforeign)

/-- **A resolved constraint** is the one the token asks for. It compiles by itself, and names no group. -/
theorem resolveConstraint_eq_ok {token : Token} {overrides : Overrides} {pattern : Option String} {constraint : String}
    (h : resolveConstraint token overrides pattern = .ok constraint) :
    constraint = token.constraintText overrides ∧
      ∃ regex, Regex.compile constraint = .ok regex ∧ regex.names = [] := by
  unfold resolveConstraint at h
  cases hgiven : token.givenConstraint? overrides with
  | none =>
    rw [hgiven] at h
    cases h
    exact ⟨by rw [Token.constraintText, hgiven]; rfl, compile_defaultConstraint⟩
  | some given =>
    rw [hgiven] at h
    obtain ⟨regex, hregex, h⟩ := bind_eq_ok.1 h
    obtain ⟨_, hrejected, h⟩ := bind_eq_ok.1 h
    cases h
    refine ⟨by rw [Token.constraintText, hgiven]; rfl, regex, compile_of_compileOr hregex, ?_⟩
    exact names_eq_nil_of_forall fun name hname => List.not_mem_nil (rejectNamedGroups_eq_ok.1 hrejected name hname)

/-- The constraint of every token resolves. -/
def Resolves (overrides : Overrides) (tokens : List Token) : Prop :=
  ∀ token ∈ tokens, ∃ pattern, resolveConstraint token overrides pattern = .ok (token.constraintText overrides)

theorem Resolves.compile {overrides : Overrides} {tokens : List Token} (h : Resolves overrides tokens) {token : Token}
    (htoken : token ∈ tokens) :
    ∃ regex, Regex.compile (token.constraintText overrides) = .ok regex ∧ regex.names = [] := by
  obtain ⟨pattern, hresolved⟩ := h token htoken
  exact (resolveConstraint_eq_ok hresolved).2

theorem resolves_of_mapM {overrides : Overrides} {pattern : Option String} {tokens : List Token}
    {constraints : List (String × String)}
    (h : (tokens.mapM fun token => do
      return (token.name, ← resolveConstraint token overrides pattern) : Except Error _) = .ok constraints) :
    Resolves overrides tokens ∧ constraints = tokens.map fun token => (token.name, token.constraintText overrides) := by
  have hpairs : List.Forall₂ (fun token entry =>
      resolveConstraint token overrides pattern = .ok (token.constraintText overrides) ∧
        entry = (token.name, token.constraintText overrides)) tokens constraints := by
    refine (mapM_eq_ok.1 h).imp fun token entry hentry => ?_
    obtain ⟨constraint, hresolved, hentry⟩ := bind_eq_ok.1 hentry
    cases hentry
    obtain rfl := (resolveConstraint_eq_ok hresolved).1
    exact ⟨hresolved, rfl⟩
  clear h
  induction hpairs with
  | nil => exact ⟨fun token htoken => absurd htoken List.not_mem_nil, rfl⟩
  | @cons token entry tokens constraints hhead _ ih =>
    obtain ⟨hresolves, hconstraints⟩ := ih
    refine ⟨fun other hother => ?_, by rw [hhead.2, hconstraints, List.map_cons]⟩
    rcases List.mem_cons.1 hother with rfl | hother
    · exact ⟨pattern, hhead.1⟩
    · exact hresolves other hother

/-! ## The positional form -/

/-- a variant with a group around each token -/
def variantText (overrides : Overrides) (pieces : List Piece) : String :=
  render (fun token => "(" ++ token.constraintText overrides ++ ")") pieces

/-- a variant with a named group around each token; `i` tokens came before -/
def markedText (overrides : Overrides) (i : Nat) (pieces : List Piece) : String :=
  renderMarked (fun token => token.constraintText overrides) i pieces

theorem toList_render_append (f : Token → String) (a b : List Piece) :
    (render f (a ++ b)).toList = (render f a).toList ++ (render f b).toList := by
  simp only [render, List.map_append, String.toList_join, List.flatMap_append]

theorem render_congr {f g : Token → String} {pieces : List Piece}
    (h : ∀ token, .token token ∈ pieces → f token = g token) : render f pieces = render g pieces := by
  unfold render
  congr 1
  refine List.map_congr_left fun piece hpiece => ?_
  cases piece with
  | literal text => rfl
  | token token => exact h token hpiece

theorem renderMarked_congr {f g : Token → String} {pieces : List Piece}
    (h : ∀ token, .token token ∈ pieces → f token = g token) (i : Nat) :
    renderMarked f i pieces = renderMarked g i pieces := by
  induction pieces generalizing i with
  | nil => rfl
  | cons piece rest ih =>
    have hrest := fun i => ih (fun token htoken => h token (List.mem_cons_of_mem _ htoken)) i
    cases piece with
    | literal text => rw [renderMarked, renderMarked, hrest]
    | token token => rw [renderMarked, renderMarked, hrest, h token List.mem_cons_self]

/-- the names of the groups put around so many tokens -/
def markers (count : Nat) : List String := (List.range count).map markerName

/-- The groups of a variant are found when its marked text compiles, and names the markers and nothing else. -/
structure Numbered (overrides : Overrides) (pieces : List Piece) (groups : List Nat) : Prop where
  compiles : ∃ regex, Regex.compile (markedText overrides 0 pieces) = .ok regex ∧
    (∀ name ∈ regex.names.map (·.1), name ∈ markers (pieces.filterMap Piece.token?).length) ∧
    List.Forall₂ (fun marker group => regex.groupNumber? marker = some group)
      (markers (pieces.filterMap Piece.token?).length) groups

theorem Numbered.length_eq {overrides : Overrides} {pieces : List Piece} {groups : List Nat}
    (h : Numbered overrides pieces groups) : groups.length = (pieces.filterMap Piece.token?).length := by
  obtain ⟨regex, -, -, hgroups⟩ := h.compiles
  rw [← hgroups.length_eq, markers, List.length_map, List.length_range]

theorem numbered_of_groupNumbers {overrides : Overrides} {constraint : Token → String} {pattern : String}
    {pieces : List Piece} {groups : List Nat}
    (hconstraint : ∀ token, .token token ∈ pieces → constraint token = token.constraintText overrides)
    (h : groupNumbers constraint pattern pieces = .ok groups) : Numbered overrides pieces groups := by
  obtain ⟨regex, hregex, h⟩ := bind_eq_ok.1 h
  obtain ⟨_, hrejected, h⟩ := bind_eq_ok.1 h
  have hcompile := compile_of_compileOr hregex
  rw [renderMarked_congr hconstraint] at hcompile
  refine ⟨regex, hcompile, rejectNamedGroups_eq_ok.1 hrejected, (mapM_eq_ok.1 h).imp fun marker group hgroup => ?_⟩
  cases hnumber : regex.groupNumber? marker with
  | none => rw [hnumber] at hgroup; cases hgroup
  | some n => rw [hnumber] at hgroup; rw [Except.ok.inj hgroup]

/-- **The positional form of a dynamic pattern** has the text of each variant and the groups found in it. -/
theorem markForm_of_parse {pattern : String} {overrides : Overrides} {form : MarkForm}
    (hdynamic : isDynamic pattern = true) (h : MarkForm.parse pattern overrides = .ok form) :
    ∃ layout, analyze pattern = .ok layout ∧ layout.WellFormed ∧ Resolves overrides layout.tokens ∧
      form.variants = layout.variants.map (variantText overrides) ∧ form.attributes = layout.names ∧
      List.Forall₂ (Numbered overrides) layout.variants form.groups := by
  unfold MarkForm.parse at h
  rw [if_neg (not_root_of_dynamic hdynamic), if_neg (by simp [hdynamic])] at h
  obtain ⟨layout, hlayout, h⟩ := bind_eq_ok.1 h
  obtain ⟨constraints, hconstraints, h⟩ := bind_eq_ok.1 h
  obtain ⟨groups, hgroups, h⟩ := bind_eq_ok.1 h
  cases h
  have hwell := wellFormed_of_layoutOf ((layoutOf_dynamic hdynamic).trans hlayout)
  obtain ⟨hresolves, rfl⟩ := resolves_of_mapM hconstraints
  have hconstraint : ∀ pieces ∈ layout.variants, ∀ token, .token token ∈ pieces →
      constraintOf (layout.tokens.map fun token => (token.name, token.constraintText overrides)) token =
        token.constraintText overrides := fun pieces hpieces token htoken =>
    constraintOf_of_nodup hwell.nodup (token_of_mem_variants hpieces htoken)
  refine ⟨layout, hlayout, hwell, hresolves, List.map_congr_left fun pieces hpieces => ?_, rfl, ?_⟩
  · exact render_congr fun token htoken => by rw [hconstraint pieces hpieces token htoken]
  · exact forall₂_imp_of_mem (mapM_eq_ok.1 hgroups) fun pieces hpieces groups h =>
      numbered_of_groupNumbers (hconstraint pieces hpieces) h

/-- **The positional form of a static pattern** is its own text, which compiles and names no group. -/
theorem markForm_of_static {pattern : String} {overrides : Overrides} {form : MarkForm}
    (hstatic : isDynamic pattern = false) (h : MarkForm.parse pattern overrides = .ok form) :
    form = ⟨[if pattern.isEmpty then "/" else pattern], [], [[]]⟩ ∧
      ∃ regex, Regex.compile (if pattern.isEmpty then "/" else pattern) = .ok regex ∧ regex.names = [] := by
  unfold MarkForm.parse at h
  rw [hstatic, Bool.not_false, if_pos rfl] at h
  by_cases hroot : pattern = "" ∨ pattern = "/"
  · have htext : (if pattern.isEmpty then "/" else pattern) = "/" := by rcases hroot with rfl | rfl <;> rfl
    rw [if_pos (by simpa using hroot)] at h
    cases h
    have hnames : (Regex.compile "/").toOption.map (·.names) = some [] := by decide +kernel
    obtain ⟨regex, hregex, hnames⟩ := Option.map_eq_some_iff.1 hnames
    rw [htext]
    exact ⟨rfl, regex, toOption_eq_some.1 hregex, hnames⟩
  · have htext : (if pattern.isEmpty then "/" else pattern) = pattern :=
      if_neg fun hempty => hroot (.inl (String.isEmpty_iff.1 hempty))
    rw [if_neg (by simpa using hroot)] at h
    obtain ⟨regex, hregex, h⟩ := bind_eq_ok.1 h
    obtain ⟨_, hrejected, h⟩ := bind_eq_ok.1 h
    cases h
    rw [htext]
    refine ⟨rfl, regex, compile_of_compileOr hregex, ?_⟩
    exact names_eq_nil_of_forall fun name hname => List.not_mem_nil (rejectNamedGroups_eq_ok.1 hrejected name hname)

/-! ## The named form -/

/-- **The named form of a static pattern** is its own text, whatever that says. -/
theorem namedForm_of_static {pattern : String} {overrides : Overrides} (hstatic : isDynamic pattern = false) :
    NamedForm.parse pattern overrides = .ok ⟨if pattern.isEmpty then "/" else pattern, []⟩ := by
  unfold NamedForm.parse
  rw [hstatic, Bool.not_false, if_pos rfl]
  by_cases hroot : pattern = "" ∨ pattern = "/"
  · rw [if_pos (by simpa using hroot)]
    rcases hroot with rfl | rfl <;> rfl
  · have hempty : ¬pattern.isEmpty = true := fun hempty => hroot (.inl (String.isEmpty_iff.1 hempty))
    rw [if_neg (by simpa using hroot), if_neg hempty]
    rfl

/-- pieces with the named group of each token -/
def aliasedText (overrides : Overrides) (captures : List (String × String)) (pieces : List Piece) : String :=
  render (fun token => "(?P<" ++ aliasOf captures token.name ++ ">" ++ token.constraintText overrides ++ ")") pieces

theorem renderNamed_eq_ok {pattern : String} {overrides : Overrides} {captures : List (String × String)}
    {pieces : List Piece} {text : String} (h : renderNamed pattern overrides captures pieces = .ok text) :
    Resolves overrides (pieces.filterMap Piece.token?) ∧ text = aliasedText overrides captures pieces := by
  induction pieces generalizing text with
  | nil =>
    cases h
    exact ⟨fun token htoken => absurd htoken List.not_mem_nil, rfl⟩
  | cons piece rest ih =>
    cases piece with
    | literal own =>
      obtain ⟨tail, htail, h⟩ := bind_eq_ok.1 h
      cases h
      obtain ⟨hresolves, rfl⟩ := ih htail
      exact ⟨hresolves, by rw [aliasedText, aliasedText, render, render, List.map_cons, String.join_cons]⟩
    | token token =>
      obtain ⟨constraint, hconstraint, h⟩ := bind_eq_ok.1 h
      obtain ⟨tail, htail, h⟩ := bind_eq_ok.1 h
      cases h
      obtain ⟨hresolves, rfl⟩ := ih htail
      obtain rfl := (resolveConstraint_eq_ok hconstraint).1
      refine ⟨fun other hother => ?_, by rw [aliasedText, aliasedText, render, render, List.map_cons, String.join_cons]⟩
      rcases List.mem_cons.1 hother with rfl | hother
      · exact ⟨some pattern, hconstraint⟩
      · exact hresolves other hother

theorem resolves_of_rendered {pattern : String} {overrides : Overrides} {captures : List (String × String)} {layout : Layout}
    {segments : List String} {base : String}
    (hsegments : layout.segments.mapM (renderNamed pattern overrides captures) = .ok segments)
    (hbase : renderNamed pattern overrides captures layout.base = .ok base) : Resolves overrides layout.tokens := by
  intro token htoken
  rcases List.mem_append.1 htoken with htoken | htoken
  · exact (renderNamed_eq_ok hbase).1 token htoken
  · obtain ⟨segment, hsegment, htoken⟩ := List.mem_flatMap.1 htoken
    obtain ⟨text, -, htext⟩ := exists_of_mem_mapM' hsegments hsegment
    exact (renderNamed_eq_ok htext).1 token htoken

/-- **The named form of a dynamic pattern** is one expression, with an alias for each attribute. -/
theorem namedForm_of_parse {pattern : String} {overrides : Overrides} {form : NamedForm}
    (hdynamic : isDynamic pattern = true) (h : NamedForm.parse pattern overrides = .ok form) :
    ∃ layout, analyze pattern = .ok layout ∧ Resolves overrides layout.tokens ∧
      form.captures = captureAliases layout.names ∧
      form.regex = assemble layout.optionalStart (aliasedText overrides form.captures layout.base)
        (layout.segments.map (aliasedText overrides form.captures)) := by
  unfold NamedForm.parse at h
  rw [if_neg (not_root_of_dynamic hdynamic), if_neg (by simp [hdynamic])] at h
  obtain ⟨layout, hlayout, h⟩ := bind_eq_ok.1 h
  obtain ⟨segments, hsegments, h⟩ := bind_eq_ok.1 h
  obtain ⟨base, hbase, h⟩ := bind_eq_ok.1 h
  obtain ⟨_, -, h⟩ := bind_eq_ok.1 h
  cases h
  obtain ⟨-, rfl⟩ := renderNamed_eq_ok hbase
  have htexts : segments = layout.segments.map (aliasedText overrides (captureAliases layout.names)) := by
    have hpairs := (mapM_eq_ok.1 hsegments).imp fun segment text htext => (renderNamed_eq_ok htext).2
    have heq := map_of_forall₂ (g := id) hpairs
    rwa [List.map_id] at heq
  exact ⟨layout, hlayout, resolves_of_rendered hsegments hbase, rfl, by rw [htexts]⟩

end UrlRouter.Pattern
