/-
JSON values.

Whole numbers are kept apart from fractions, and the fields of an object keep the order in which they were written.
-/
namespace UrlRouter

inductive Json where
  | null
  | bool (value : Bool)
  | int (value : Int)
  | float (value : Float)
  | string (text : String)
  | array (items : List Json)
  | object (fields : List (String × Json))
  deriving Inhabited

namespace Json

/-- The value of a field; of several with one key the last counts. -/
def field? (key : String) : Json → Option Json
  | object fields => (fields.reverse.find? (·.1 == key)).map (·.2)
  | _ => none

def string? : Json → Option String
  | string text => some text
  | _ => none

def array? : Json → Option (List Json)
  | array items => some items
  | _ => none

def object? : Json → Option (List (String × Json))
  | object fields => some fields
  | _ => none

def ofStrings (texts : List String) : Json := array (texts.map string)

/-- a mapping of texts as an object -/
def ofTexts (mapping : List (String × String)) : Json := object (mapping.map fun (key, text) => (key, string text))

/-- how an error is shown -/
def ofFailure (kind message : String) : Json := object [("error", string kind), ("message", string message)]

def ofOption {α : Type} (f : α → Json) : Option α → Json
  | some value => f value
  | none => null

end Json

end UrlRouter
