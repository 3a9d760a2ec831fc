/-
The plain text of a value, as it appears inside messages and URLs.

A text stands as it is at the outside and in quotes inside a list or mapping; truth values are capitalized.
-/
import UrlRouter.Json.Basic
import UrlRouter.Decimal.Shortest
import UrlRouter.Text.Quoted

namespace UrlRouter.Json

mutual

/-- the text of a value inside another one -/
def inner : Json → String
  | null => "None"
  | bool true => "True"
  | bool false => "False"
  | int n => toString n
  | float x => Decimal.floatText x
  | string text => Text.quoted text
  | array items => "[" ++ ", ".intercalate (innerItems items) ++ "]"
  | object fields => "\x7b" ++ ", ".intercalate (innerFields fields) ++ "\x7d"

def innerItems : List Json → List String
  | [] => []
  | item :: items => inner item :: innerItems items

def innerFields : List (String × Json) → List String
  | [] => []
  | (key, value) :: fields => (Text.quoted key ++ ": " ++ inner value) :: innerFields fields

end

def plain : Json → String
  | string text => text
  | value => inner value

end UrlRouter.Json
