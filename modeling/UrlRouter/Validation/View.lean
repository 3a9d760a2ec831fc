/-
Issues as JSON.
-/
import UrlRouter.Json.Basic
import UrlRouter.Validation.Issue

namespace UrlRouter.Validation

def Step.toJson : Step → Json
  | field name => .string name
  | item index => .int index

/-- An issue with its place, its kind and its wording, if it is worded. -/
def Issue.toJson (medium : Medium) (issue : Issue) : Json :=
  .object ([("loc", .array (issue.path.map Step.toJson)), ("type", .string issue.cause.kind)] ++
    ((issue.cause.message? medium).map fun message => ("msg", Json.string message)).toList)

def issuesJson (medium : Medium) (issues : List Issue) : Json := .array (issues.map (Issue.toJson medium))

end UrlRouter.Validation
