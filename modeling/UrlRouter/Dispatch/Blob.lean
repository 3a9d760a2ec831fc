/-
Dispatch data as JSON.

`DispatchData.text` writes the data with its fields in a fixed order and `DispatchData.ofText` reads it back; the kind
of a chunk decides how its other fields are read.

The reader follows the schema of the data over the JSON of the standard, without bounds of its own. Other readers of the
same schema differ from it: some take NaN and Infinity for numbers, and some refuse values nested deeper than 200 or
integers of more than 4300 digits. A router therefore takes its reader as a value.
-/
import UrlRouter.Dispatch.Data
import UrlRouter.Json.Writer
import UrlRouter.Json.Reader
import UrlRouter.Json.Plain
import UrlRouter.Validation.Check

namespace UrlRouter

open Validation

def VariantTag.toJson (tag : VariantTag) : Json :=
  .object [("route", .string tag.route), ("attributes", .ofStrings tag.attributes),
    ("groups", .array (tag.groups.map .int))]

def jsonMapping {α : Type} (f : α → Json) (entries : List (String × α)) : Json :=
  .object (entries.map fun (key, value) => (key, f value))

def NamedEntry.toJson (entry : NamedEntry) : Json :=
  .object [("route", .string entry.route), ("regex", .string entry.regex),
    ("captures", jsonMapping .string entry.captures)]

def Chunk.toJson : Chunk → Json
  | .mark chunk =>
    .object [("kind", .string "mark"), ("routes", .ofStrings chunk.routes), ("regex", .string chunk.regex),
      ("tags", jsonMapping VariantTag.toJson chunk.tags)]
  | .named chunk =>
    .object [("kind", .string "named"), ("routes", .ofStrings chunk.routes),
      ("entries", .array (chunk.entries.map NamedEntry.toJson))]

def DispatchData.toJson (data : DispatchData) : Json :=
  .object [("strategy", .string data.strategy.name), ("chunk_size", .int data.chunkSize),
    ("groups", jsonMapping (fun chunks => .array (chunks.map Chunk.toJson)) data.groups)]

def DispatchData.text (data : DispatchData) : String := data.toJson.text

def checkTag : Check VariantTag :=
  model "VariantTag" fun value =>
    (both (required "route" anyString value)
      (both (optional "attributes" [] (listOf anyString) value)
        (optional "groups" [] (listOf integer) value))).map
      fun (route, attributes, groups) => ⟨route, attributes, groups⟩

def checkEntry : Check NamedEntry :=
  model "NamedEntry" fun value =>
    (both (required "route" anyString value)
      (both (required "regex" anyString value)
        (optional "captures" [] (mappingOf anyString) value))).map
      fun (route, regex, captures) => ⟨route, regex, captures⟩

def checkMarkChunk (value : Json) : Checked MarkChunk :=
  (both (optional "routes" [] (listOf anyString) value)
    (both (required "regex" anyString value)
      (optional "tags" [] (mappingOf checkTag) value))).map
    fun (routes, regex, tags) => ⟨routes, regex, tags⟩

def checkNamedChunk (value : Json) : Checked NamedChunk :=
  (both (optional "routes" [] (listOf anyString) value)
    (optional "entries" [] (listOf checkEntry) value)).map
    fun (routes, entries) => ⟨routes, entries⟩

/-- A chunk says of what kind it is; issues inside it lie under that kind. -/
def checkChunk (value : Json) : Checked Chunk :=
  match value with
  | .object _ =>
    match value.field? "kind" with
    | none => refuse (.tagMissing "kind")
    | some (.string "mark") => under (.field "mark") ((checkMarkChunk value).map .mark)
    | some (.string "named") => under (.field "named") ((checkNamedChunk value).map .named)
    | some tag => refuse (.tagUnknown "kind" tag.plain ["mark", "named"])
  | _ => refuse .attributesWanted

def checkStrategy : Check Strategy
  | .string text =>
    match Strategy.ofName? text with
    | some strategy => .ok strategy
    | none => refuse (.choiceWanted ["mark", "named"])
  | _ => refuse (.choiceWanted ["mark", "named"])

def checkData : Check DispatchData :=
  model "DispatchData" fun value =>
    (both (optional "strategy" .mark checkStrategy value)
      (both (optional "chunk_size" 15 (fun size => ensure (atLeast 1) (integer size)) value)
        (optional "groups" [] (mappingOf (listOf checkChunk)) value))).map
      fun (strategy, chunkSize, groups) => ⟨strategy, chunkSize, groups⟩

/-- Reads dispatch data, or lists what is wrong with the text. -/
def DispatchData.ofText (text : String) : Checked DispatchData :=
  match Json.ofText? text with
  | none => refuse .notJson
  | some value => checkData value

end UrlRouter
