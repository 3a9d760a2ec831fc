/-
Detection of duplicate routes.

A route collides when its name is taken, or when its path is already registered for one of its methods; a route for
any method collides with every other on its path.
-/
import UrlRouter.Route.Basic

namespace UrlRouter

inductive DuplicateError where
  | name (name : String)
  | path (path method name : String)
  deriving DecidableEq, Repr

def DuplicateError.message : DuplicateError → String
  | .name taken => "Route with name `" ++ taken ++ "` already exists"
  | .path taken method owner =>
    "Route with path `" ++ taken ++ "` already exists with method [" ++ method ++ "] and name [" ++ owner ++ "]"

/-- one method of a path, taken by a route -/
structure Claim where
  path : String
  method : String
  name : String
  deriving DecidableEq, Repr

/-- the names and methods already taken, in the order of registration -/
structure Detector where
  names : List String := []
  claims : List Claim := []
  deriving DecidableEq, Repr

namespace Detector

/-- Whether a claim on the same path stands in the way of a route for these buckets. -/
def Claim.clashes (claim : Claim) (buckets : List String) : Bool :=
  claim.method == anyMethod || buckets.contains anyMethod || buckets.contains claim.method

/-- Remembers the route, or says what it collides with. -/
def checkAndRecord (detector : Detector) (route : Route) : Except DuplicateError Detector :=
  if detector.names.contains route.name then .error (.name route.name)
  else
    match detector.claims.find? fun claim => claim.path == route.path && Claim.clashes claim route.buckets with
    | some claim => .error (.path route.path claim.method claim.name)
    | none =>
      .ok {
        names := detector.names ++ [route.name]
        claims := detector.claims ++ route.buckets.map (⟨route.path, ·, route.name⟩) }

def reset (_ : Detector) : Detector := {}

end Detector

end UrlRouter
