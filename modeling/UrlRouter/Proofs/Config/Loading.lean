/-
What loading a configuration comes to.

The reader of the file may make any value of its text. What the environment sets is put into the value before anything is
checked: an item goes into a mapping, and an item of a section into the mapping under its name. Where these are there,
loading gives a configuration within all bounds, or it fails for a reason that is reported as an invalid configuration.
Where they are not, it fails in another way. Nothing is supposed of the reader; where it refuses a text, its own error
is that of loading.

Results:
- `Override.apply_placed`, `Override.apply_unplaced`: what one variable does to a value, and where it fails.
- `overlays_placed`, `overlays_unplaced`: the same for all variables, one after the other.
- `load_of_read`, `load_of_refused`: loading as far as it hangs on the reader.
- `load_total`: what loading a file with any value gives.
- `blank_section_escapes`: an error of another kind.
-/
import Mathlib.Tactic
import UrlRouter.Proofs.Config.Bounds
import UrlRouter.Proofs.Json.RoundTrip
import UrlRouter.Proofs.Storage.Files
import UrlRouter.Router.ErrorName

namespace UrlRouter

/-! ## Values from the environment -/

def Json.IsObject (value : Json) : Prop := ∃ fields, value = .object fields

theorem Json.field?_put (fields : List (String × Json)) (key : String) (item : Json) (other : String) :
    (Json.object (eraseValue key fields ++ [(key, item)])).field? other =
      if other = key then some item else (Json.object fields).field? other := by
  unfold Json.field? eraseValue
  dsimp only
  rw [List.reverse_append, List.reverse_singleton, List.singleton_append, List.find?_cons]
  by_cases h : other = key
  · simp [h]
  · have hkey : (key == other) = false := beq_eq_false_iff_ne.2 (Ne.symm h)
    have hrest : (fields.filter (·.1 != key)).reverse.find? (·.1 == other) = fields.reverse.find? (·.1 == other) := by
      rw [← List.filter_reverse, List.find?_filter]
      congr 1
      funext entry
      by_cases hentry : entry.1 = other
      · simp [hentry, h]
      · simp [hentry]
    rw [if_neg h]
    simp only [hkey, hrest]

namespace Config

/-- An item is set in an object, and nothing else changes; nothing but an object takes an item. -/
theorem setItem_object (key : String) (fields : List (String × Json)) (item : Json) :
    ∃ after, setItem key (.object fields) item = .ok (.object after) ∧ ∀ other,
      (Json.object after).field? other = if other = key then some item else (Json.object fields).field? other :=
  ⟨_, rfl, Json.field?_put fields key item⟩

theorem setItem_of_not_object {value : Json} (h : ¬value.IsObject) (key : String) (item : Json) :
    setItem key value item = .error .noSuchItem := by
  cases value with
  | object fields => exact absurd ⟨fields, rfl⟩ h
  | _ => rfl

namespace Override

/-- the field of a configuration that is set, or in which something is set -/
def place : Override → String
  | .text key => key
  | .size key => key
  | .sectionText name _ => name
  | .sectionFlag name _ => name

/-- the section in which an item is set, if it is set in one -/
def section? : Override → Option String
  | .text _ => none
  | .size _ => none
  | .sectionText name _ => some name
  | .sectionFlag name _ => some name

/-- **The item has a place**: the value is an object, and if it is for a section, the section is one or is not there. -/
def HasPlace (value : Json) (override : Override) : Prop :=
  value.IsObject ∧ ∀ name, override.section? = some name → ∀ inner, value.field? name = some inner → inner.IsObject

/-- The text can be read: only what is a size must be a number. -/
def Readable (text : String) : Override → Prop
  | .size _ => ∃ n, Text.readInteger text = .ok n
  | _ => True

/-- what an override leaves of a value that has a place for it -/
structure Lays (override : Override) (value after : Json) : Prop where
  isObject : after.IsObject
  inside : ∀ name, override.section? = some name → ∃ inner, after.field? name = some inner ∧ inner.IsObject
  others : ∀ name, name ≠ override.place → after.field? name = value.field? name

/-- An item that is set without a section. -/
theorem setItem_lays (override : Override) (hsection : override.section? = none) {value : Json} (h : value.IsObject)
    (item : Json) : ∃ after, setItem override.place value item = .ok after ∧ override.Lays value after := by
  obtain ⟨fields, rfl⟩ := h
  obtain ⟨after, hset, hfields⟩ := setItem_object override.place fields item
  refine ⟨.object after, hset, ⟨after, rfl⟩, fun name hname => ?_, fun name hne => ?_⟩
  · rw [hsection] at hname
    cases hname
  · rw [hfields, if_neg hne]

/-- An item that is set in a section, which is opened if it is not there. -/
theorem setInSection_lays (override : Override) (hsection : override.section? = some override.place) {value : Json}
    (h : override.HasPlace value) (key : String) (item : Json) :
    ∃ after, setInSection override.place key value item = .ok after ∧ override.Lays value after := by
  obtain ⟨⟨fields, rfl⟩, hinner⟩ := h
  have hopened : (((Json.object fields).field? override.place).getD (.object [])).IsObject := by
    cases hfield : (Json.object fields).field? override.place with
    | none => exact ⟨[], rfl⟩
    | some inner => exact hinner override.place hsection inner hfield
  obtain ⟨opened, hopened⟩ := hopened
  obtain ⟨inner, hset, -⟩ := setItem_object key opened item
  obtain ⟨after, houter, hfields⟩ := setItem_object override.place fields (.object inner)
  refine ⟨.object after, ?_, ⟨after, rfl⟩, fun name hname => ?_, fun name hne => ?_⟩
  · rw [setInSection, hopened, hset]
    exact houter
  · obtain rfl : override.place = name := Option.some.inj (hsection.symm.trans hname)
    exact ⟨.object inner, by rw [hfields, if_pos rfl], inner, rfl⟩
  · rw [hfields, if_neg hne]

/-- **Where it has a place**, an item that can be read is laid there, and one that cannot is reported. -/
theorem apply_placed {override : Override} {value : Json} (h : override.HasPlace value) (text : String) :
    override.Readable text ∧ (∃ after, override.apply value text = .ok after ∧ override.Lays value after) ∨
    ¬override.Readable text ∧ ∃ cause, override.apply value text = .error (.chunkSize text cause) := by
  cases override with
  | text key => exact .inl ⟨trivial, setItem_lays (.text key) rfl h.1 _⟩
  | size key =>
    rw [apply, Readable]
    cases Text.readInteger text with
    | ok n => exact .inl ⟨⟨n, rfl⟩, setItem_lays (.size key) rfl h.1 _⟩
    | error cause => exact .inr ⟨fun ⟨n, hn⟩ => (by cases hn), cause, rfl⟩
  | sectionText name key => exact .inl ⟨trivial, setInSection_lays (.sectionText name key) rfl h key _⟩
  | sectionFlag name key => exact .inl ⟨trivial, setInSection_lays (.sectionFlag name key) rfl h key _⟩

theorem setInSection_unplaced (override : Override) (hsection : override.section? = some override.place) {value : Json}
    (h : ¬override.HasPlace value) (key : String) (item : Json) :
    setInSection override.place key value item = .error .noSuchItem ∨
      setInSection override.place key value item = .error .noSections := by
  cases value with
  | object fields =>
    left
    cases hfield : (Json.object fields).field? override.place with
    | none =>
      refine absurd ⟨⟨fields, rfl⟩, fun name hname inner hinner => ?_⟩ h
      obtain rfl : override.place = name := Option.some.inj (hsection.symm.trans hname)
      rw [hfield] at hinner
      cases hinner
    | some inner =>
      have hinner : ¬inner.IsObject := by
        refine fun hinner => h ⟨⟨fields, rfl⟩, fun name hname other hother => ?_⟩
        obtain rfl : override.place = name := Option.some.inj (hsection.symm.trans hname)
        rw [hfield] at hother
        cases hother
        exact hinner
      rw [setInSection, hfield, Option.getD_some, setItem_of_not_object hinner]
      rfl
  | _ => exact .inr rfl

/-- **Where it has none**, an item that can be read fails in one of two ways. -/
theorem apply_unplaced {override : Override} {value : Json} (h : ¬override.HasPlace value) {text : String}
    (hreadable : override.Readable text) :
    override.apply value text = .error .noSuchItem ∨ override.apply value text = .error .noSections := by
  have hitem : override.section? = none → ¬value.IsObject := by
    intro hsection hobject
    exact h ⟨hobject, fun name hname => by rw [hsection] at hname; cases hname⟩
  cases override with
  | text key => exact .inl (setItem_of_not_object (hitem rfl) key _)
  | size key =>
    obtain ⟨n, hn⟩ := hreadable
    rw [apply, hn]
    exact .inl (setItem_of_not_object (hitem rfl) key _)
  | sectionText name key => exact setInSection_unplaced (.sectionText name key) rfl h key _
  | sectionFlag name key => exact setInSection_unplaced (.sectionFlag name key) rfl h key _

/-- no item is set where a section is -/
theorem place_ne_section : ∀ entry ∈ overrides, ∀ other ∈ overrides, entry.2.section? = none →
    other.2.section? ≠ some entry.2.place := by decide

/-- What is laid takes no place away and makes none. -/
theorem Lays.hasPlace_iff {entry other : String × Override} (hentry : entry ∈ overrides) (hother : other ∈ overrides)
    {value after : Json} (hplace : entry.2.HasPlace value) (h : entry.2.Lays value after) :
    other.2.HasPlace after ↔ other.2.HasPlace value := by
  have hsame : ∀ name, other.2.section? = some name →
      ((∀ inner, after.field? name = some inner → inner.IsObject) ↔
        ∀ inner, value.field? name = some inner → inner.IsObject) := by
    intro name hname
    by_cases heq : name = entry.2.place
    · -- both are for one section, which has a place before and after
      have hsection : entry.2.section? = some name := by
        cases hcase : entry.2.section? with
        | none => exact absurd (heq ▸ hname) (place_ne_section entry hentry other hother hcase)
        | some found =>
          have hfound : entry.2.place = found := by
            cases hoverride : entry.2 <;> rw [hoverride] at hcase <;> cases hcase <;> rfl
          rw [heq, hfound]
      obtain ⟨opened, hopened, hisObject⟩ := h.inside name hsection
      refine ⟨fun _ => hplace.2 name hsection, fun _ inner hinner => ?_⟩
      rw [hopened] at hinner
      cases hinner
      exact hisObject
    · rw [h.others name heq]
  constructor
  · exact fun hafter => ⟨hplace.1, fun name hname => (hsame name hname).1 (hafter.2 name hname)⟩
  · exact fun hvalue => ⟨h.isObject, fun name hname => (hsame name hname).2 (hvalue.2 name hname)⟩

end Override

/-! ## Loading -/

/-- **Every item from the environment has a place** in that value. -/
def Placed (environment : Environment) (value : Json) : Prop :=
  ∀ entry ∈ overrides, ∀ text, environment.given? entry.1 = some text → entry.2.HasPlace value

/-- every item from the environment can be read -/
def Readable (environment : Environment) : Prop :=
  ∀ entry ∈ overrides, ∀ text, environment.given? entry.1 = some text → entry.2.Readable text

/-- one variable laid over a value, if it is set -/
def overlay (environment : Environment) (value : Json) (entry : String × Override) : Except ConfigError Json :=
  match environment.given? entry.1 with
  | some text => entry.2.apply value text
  | none => .ok value

section Overlays

variable {environment : Environment} {entries : List (String × Override)} {value : Json}

/-- **Variables that have a place** are all laid, up to one that cannot be read. -/
theorem overlays_placed (hentries : ∀ entry ∈ entries, entry ∈ overrides)
    (h : ∀ entry ∈ entries, ∀ text, environment.given? entry.1 = some text → entry.2.HasPlace value) :
    (∃ after, entries.foldlM (overlay environment) value = .ok after) ∨
      ∃ text cause, entries.foldlM (overlay environment) value = .error (.chunkSize text cause) := by
  induction entries generalizing value with
  | nil => exact .inl ⟨value, rfl⟩
  | cons entry entries ih =>
    have hmem := hentries entry List.mem_cons_self
    have hrest : ∀ other ∈ entries, other ∈ overrides :=
      fun other hother => hentries other (List.mem_cons_of_mem _ hother)
    rw [List.foldlM_cons, overlay]
    cases hgiven : environment.given? entry.1 with
    | none => exact ih hrest fun other hother => h other (List.mem_cons_of_mem _ hother)
    | some text =>
      have hplace := h entry List.mem_cons_self text hgiven
      rcases Override.apply_placed hplace text with ⟨-, after, happly, hlays⟩ | ⟨-, cause, happly⟩
      · dsimp only
        rw [happly, ok_bind]
        refine ih hrest fun other hother text htext => ?_
        rw [hlays.hasPlace_iff hmem (hrest other hother) hplace]
        exact h other (List.mem_cons_of_mem _ hother) text htext
      · dsimp only
        rw [happly, error_bind]
        exact .inr ⟨text, cause, rfl⟩

/-- **A variable that has no place** stops them, if all can be read. -/
theorem overlays_unplaced (hentries : ∀ entry ∈ entries, entry ∈ overrides)
    (hreadable : ∀ entry ∈ entries, ∀ text, environment.given? entry.1 = some text → entry.2.Readable text)
    (h : ∃ entry ∈ entries, ∃ text, environment.given? entry.1 = some text ∧ ¬entry.2.HasPlace value) :
    entries.foldlM (overlay environment) value = .error .noSuchItem ∨
      entries.foldlM (overlay environment) value = .error .noSections := by
  induction entries generalizing value with
  | nil =>
    obtain ⟨entry, hentry, -⟩ := h
    exact absurd hentry List.not_mem_nil
  | cons entry entries ih =>
    have hmem := hentries entry List.mem_cons_self
    have hrest : ∀ other ∈ entries, other ∈ overrides :=
      fun other hother => hentries other (List.mem_cons_of_mem _ hother)
    have hreads : ∀ other ∈ entries, ∀ text, environment.given? other.1 = some text → other.2.Readable text :=
      fun other hother => hreadable other (List.mem_cons_of_mem _ hother)
    obtain ⟨unplaced, hunplaced, blocked, hblocked, hnone⟩ := h
    rw [List.foldlM_cons, overlay]
    cases hgiven : environment.given? entry.1 with
    | none =>
      rcases List.mem_cons.1 hunplaced with rfl | hunplaced
      · rw [hgiven] at hblocked
        cases hblocked
      · exact ih hrest hreads ⟨unplaced, hunplaced, blocked, hblocked, hnone⟩
    | some text =>
      have hread := hreadable entry List.mem_cons_self text hgiven
      dsimp only
      by_cases hplace : entry.2.HasPlace value
      · rcases Override.apply_placed hplace text with ⟨-, after, happly, hlays⟩ | ⟨hunread, -⟩
        · rw [happly, ok_bind]
          rcases List.mem_cons.1 hunplaced with rfl | hunplaced
          · exact absurd hplace hnone
          · refine ih hrest hreads ⟨unplaced, hunplaced, blocked, hblocked, ?_⟩
            rwa [hlays.hasPlace_iff hmem (hrest unplaced hunplaced) hplace]
        · exact absurd hread hunread
      · rcases Override.apply_unplaced hplace hread with happly | happly
        · rw [happly]
          exact .inl rfl
        · rw [happly]
          exact .inr rfl

end Overlays

/-- A value that was overlaid is a valid configuration, or invalid. -/
theorem ofJson_spec (value : Json) :
    (∃ config, ofJson value = .ok config ∧ config.Valid) ∨ ∃ e, ofJson value = .error e ∧ e.kind = "ValueError" := by
  unfold ofJson
  split
  · rename_i fields
    cases hcheck : RouterConfig.check (.object fields) with
    | ok config => exact .inl ⟨config, rfl, RouterConfig.check_valid _ config hcheck⟩
    | error issues => exact .inr ⟨.invalid issues, rfl, rfl⟩
  · exact .inr ⟨.notMapping, rfl, rfl⟩

section Reading

variable {reader : Reader} {file : Location} {files : FileTree} {text : String}

/-- A file whose text is read as a value holds it, or nothing if it is blank; this is overlaid and then checked. -/
theorem load_of_read {value : Json} (environment : Environment) (hread : files.read file = .ok text)
    (hvalue : reader text = .ok value) :
    load file environment files reader =
      overrides.foldlM (overlay environment) (if isBlank value then .object [] else value) >>= ofJson := by
  have hcontent : content reader file files = .ok (if isBlank value then .object [] else value) := by
    rw [content, FileTree.status?_of_read hread, if_neg (by simp), hread]
    dsimp only
    rw [hvalue]
  rw [load, hcontent, ok_bind]
  rfl

/-- A text that the reader refuses is not loaded, whatever the environment holds. -/
theorem load_of_refused {fault : SyntaxFault} (environment : Environment) (hread : files.read file = .ok text)
    (hrefused : reader text = .error fault) : load file environment files reader = .error (.malformed fault) := by
  have hcontent : content reader file files = .error (.malformed fault) := by
    rw [content, FileTree.status?_of_read hread, if_neg (by simp), hread]
    dsimp only
    rw [hrefused]
  rw [load, hcontent, error_bind]

end Reading

end Config

/-- **Loading a file**, with any reader of its text and in any environment.
- The reader makes a value of the text, and every item from the environment has a place in this value: loading gives a
  valid configuration, or it fails because the configuration is invalid.
- The reader makes a value of the text, and an item has no place there, though all items can be read: loading fails in
  another way.
- The reader refuses the text: its error is that of loading, under its own name. -/
theorem load_total (reader : Config.Reader) {file : Location} {files : FileTree} {text : String}
    (environment : Environment) (hread : files.read file = .ok text) :
    (∀ value, reader text = .ok value →
      let base := if Config.isBlank value then .object [] else value
      (Config.Placed environment base →
        (∃ config, Config.load file environment files reader = .ok config ∧ config.Valid) ∨
          ∃ e, Config.load file environment files reader = .error e ∧ e.kind = "ValueError") ∧
      (¬Config.Placed environment base → Config.Readable environment →
        ∃ e, Config.load file environment files reader = .error e ∧ e.kind ≠ "ValueError")) ∧
    ∀ fault, reader text = .error fault →
      ∃ e, Config.load file environment files reader = .error e ∧ e.kind = fault.kind ∧ e.message = fault.message := by
  refine ⟨fun value hvalue => ?_, fun fault hrefused => ⟨_, Config.load_of_refused environment hread hrefused, rfl, rfl⟩⟩
  intro base
  rw [Config.load_of_read environment hread hvalue]
  constructor
  · intro hplaced
    rcases Config.overlays_placed (fun _ h => h) hplaced with ⟨after, hafter⟩ | ⟨text, cause, herror⟩
    · rw [hafter, ok_bind]
      exact Config.ofJson_spec after
    · rw [herror, error_bind]
      exact .inr ⟨_, rfl, rfl⟩
  · intro hunplaced hreadable
    have hblocked : ∃ entry ∈ Config.overrides, ∃ text,
        environment.given? entry.1 = some text ∧ ¬entry.2.HasPlace base := by
      simpa only [Config.Placed, not_forall, exists_prop] using hunplaced
    rcases Config.overlays_unplaced (fun _ h => h) hreadable hblocked with herror | herror
    · rw [herror, error_bind]
      exact ⟨_, rfl, by decide⟩
    · rw [herror, error_bind]
      exact ⟨_, rfl, by decide⟩

/-- the working folder with a file that holds the value -/
def filesOf (value : Json) : FileTree := ⟨[(["router.yaml"], .file value.text)]⟩

def routerFile : Location := ⟨"", ["router.yaml"]⟩

/-- What was written as JSON is read as the value. -/
theorem Config.readJson_text {value : Json} (h : value.Fractionless) : readJson value.text = .ok value := by
  rw [readJson, Json.ofText?_text h]

theorem read_filesOf (value : Json) : (filesOf value).read routerFile = .ok value.text := rfl

def fileBackend : Environment := [("SWITCHYARD_CACHE_BACKEND", "file")]

/-- an object with a size and no section -/
def sizeOnly : Json := .object [("chunk_size", .int 3)]

/-- A section that is not there is opened for an item from the environment, and loading gives a configuration. -/
theorem missing_section_loads : ∃ config,
    Config.load routerFile fileBackend (filesOf sizeOnly) = .ok config ∧ config.Valid := by
  have hvalue : Config.readJson sizeOnly.text = .ok sizeOnly :=
    Config.readJson_text (.object fun field hfield => List.mem_singleton.1 hfield ▸ .int 3)
  have hsection : ∀ entry ∈ Config.overrides, (fileBackend.given? entry.1).isSome = true →
      entry.2.section? = some "cache" := by decide
  have hplaced : Config.Placed fileBackend sizeOnly := by
    intro entry hentry text htext
    have hcache := hsection entry hentry (by rw [htext]; rfl)
    refine ⟨⟨_, rfl⟩, fun name hname inner hinner => ?_⟩
    obtain rfl : "cache" = name := Option.some.inj (hcache.symm.trans hname)
    cases hinner
  have hloads : (Config.load routerFile fileBackend (filesOf sizeOnly)).toOption.isSome = true := by decide +kernel
  obtain ⟨hloading, -⟩ := load_total Config.readJson fileBackend (read_filesOf sizeOnly)
  rcases (hloading sizeOnly hvalue).1 hplaced with hloaded | ⟨e, herror, -⟩
  · exact hloaded
  · rw [herror] at hloads
    cases hloads

/-- an object with a section without a value -/
def blankSection : Json := .object [("cache", .null)]

/-- **A section without a value lets another error escape.** The file holds an object, which is an invalid configuration
as long as the environment has nothing for the section. -/
theorem blank_section_escapes :
    Config.readJson blankSection.text = .ok blankSection ∧
    (∃ e, Config.load routerFile [] (filesOf blankSection) = .error e ∧ e.kind = "ValueError") ∧
    ∃ e, Config.load routerFile fileBackend (filesOf blankSection) = .error e ∧ e.kind = "TypeError" := by
  have hvalue : Config.readJson blankSection.text = .ok blankSection :=
    Config.readJson_text (.object fun field hfield => List.mem_singleton.1 hfield ▸ .null)
  have hread := read_filesOf blankSection
  refine ⟨hvalue, ⟨.invalid [⟨[.field "cache"], .modelWanted "CacheConfig"⟩], ?_, rfl⟩, .noSuchItem, ?_, rfl⟩
  · exact (Config.load_of_read [] hread hvalue).trans rfl
  · exact (Config.load_of_read fileBackend hread hvalue).trans rfl

end UrlRouter
