/-
Issues found while a structured value is checked.

An issue has a place, which is a path of field names and item numbers, and a cause. Its wording depends on whether the
value came as a text or was built in memory.
-/
namespace UrlRouter.Validation

inductive Step where
  | field (name : String)
  | item (index : Nat)
  deriving DecidableEq, Repr

/-- where a value came from -/
inductive Medium where
  | text
  | memory
  deriving DecidableEq, Repr

inductive Cause where
  | notJson
  | missing
  | stringWanted
  | arrayWanted
  | mappingWanted
  | modelWanted (name : String)
  | attributesWanted
  | intWanted
  | intUnreadable
  | intFromFraction
  | intTooLarge
  | numberNotFinite
  | boolWanted
  | boolUnreadable
  | choiceWanted (choices : List String)
  | tagMissing (discriminator : String)
  | tagUnknown (discriminator tag : String) (tags : List String)
  | below (bound : Int)
  | above (bound : Int)
  | refused (message : String)
  deriving DecidableEq, Repr

structure Issue where
  path : List Step
  cause : Cause
  deriving DecidableEq, Repr

def Issue.under (step : Step) (issue : Issue) : Issue := { issue with path := step :: issue.path }

def quotedChoices (choices : List String) : List String := choices.map fun choice => "'" ++ choice ++ "'"

/-- the name of the kind of issue -/
def Cause.kind : Cause → String
  | .notJson => "json_invalid"
  | .missing => "missing"
  | .stringWanted => "string_type"
  | .arrayWanted => "list_type"
  | .mappingWanted => "dict_type"
  | .modelWanted _ => "model_type"
  | .attributesWanted => "model_attributes_type"
  | .intWanted => "int_type"
  | .intUnreadable => "int_parsing"
  | .intFromFraction => "int_from_float"
  | .intTooLarge => "int_parsing_size"
  | .numberNotFinite => "finite_number"
  | .boolWanted => "bool_type"
  | .boolUnreadable => "bool_parsing"
  | .choiceWanted _ => "literal_error"
  | .tagMissing _ => "union_tag_not_found"
  | .tagUnknown _ _ _ => "union_tag_invalid"
  | .below _ => "greater_than_equal"
  | .above _ => "less_than_equal"
  | .refused _ => "value_error"

/-- What is wrong, in words; that a text is no JSON at all is not worded. -/
def Cause.message? (medium : Medium) : Cause → Option String
  | .notJson => none
  | .missing => some "Field required"
  | .stringWanted => some "Input should be a valid string"
  | .arrayWanted => some (if medium = .text then "Input should be a valid array" else "Input should be a valid list")
  | .mappingWanted =>
    some (if medium = .text then "Input should be an object" else "Input should be a valid dictionary")
  | .modelWanted name =>
    some (if medium = .text then "Input should be an object"
      else "Input should be a valid dictionary or instance of " ++ name)
  | .attributesWanted =>
    some (if medium = .text then "Input should be an object"
      else "Input should be a valid dictionary or object to extract fields from")
  | .intWanted => some "Input should be a valid integer"
  | .intUnreadable => some "Input should be a valid integer, unable to parse string as an integer"
  | .intFromFraction => some "Input should be a valid integer, got a number with a fractional part"
  | .intTooLarge => some "Unable to parse input string as an integer, exceeded maximum size"
  | .numberNotFinite => some "Input should be a finite number"
  | .boolWanted => some "Input should be a valid boolean"
  | .boolUnreadable => some "Input should be a valid boolean, unable to interpret input"
  | .choiceWanted choices => some ("Input should be " ++ " or ".intercalate (quotedChoices choices))
  | .tagMissing discriminator => some ("Unable to extract tag using discriminator '" ++ discriminator ++ "'")
  | .tagUnknown discriminator tag tags =>
    some ("Input tag '" ++ tag ++ "' found using '" ++ discriminator ++ "' does not match any of the expected tags: " ++
      ", ".intercalate (quotedChoices tags))
  | .below bound => some ("Input should be greater than or equal to " ++ toString bound)
  | .above bound => some ("Input should be less than or equal to " ++ toString bound)
  | .refused message => some ("Value error, " ++ message)

end UrlRouter.Validation
