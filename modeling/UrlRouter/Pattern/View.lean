/-
Views of layouts and parsed patterns as JSON, for inspection.
-/
import UrlRouter.Json.Basic
import UrlRouter.Mapping
import UrlRouter.Pattern.MarkForm
import UrlRouter.Pattern.NamedForm

namespace UrlRouter.Pattern

def Piece.toJson : Piece → Json
  | literal text => .string text
  | token t =>
    .object [("text", .string t.text), ("name", .string t.name), ("pattern", Json.ofOption .string t.constraint)]

/-- The parts of a layout, with its variants written as in the pattern. -/
def Layout.view (layout : Layout) : Mapping Json := [
  ("base", .array (layout.base.map Piece.toJson)),
  ("segments", .array (layout.segments.map fun segment => .array (segment.map Piece.toJson))),
  ("optional_start", .bool layout.optionalStart), ("tokens", .ofStrings layout.names),
  ("base_tokens", .ofStrings (layout.baseTokens.map (·.name))),
  ("variants", .ofStrings (layout.variants.map (render (·.text))))]

def MarkForm.toJson (form : MarkForm) : Json :=
  .object [
    ("variants", .ofStrings form.variants), ("attributes", .ofStrings form.attributes),
    ("groups", .array (form.groups.map fun numbers => .array (numbers.map fun (n : Nat) => .int n)))]

def NamedForm.toJson (form : NamedForm) : Json :=
  .object [
    ("regex", .string form.regex), ("captures", .object (form.captures.map fun (key, name) => (key, .string name))),
    ("attributes", .ofStrings form.attributes)]

end UrlRouter.Pattern
