/-
Generating the path of a named route.

Every token of the base needs a value; an optional segment is written as long as all its tokens have one, and the
first that lacks one ends the path. Values must match their constraint as a whole and are percent-encoded.
-/
import UrlRouter.Route.Basic
import UrlRouter.Text.Percent
import UrlRouter.Json.Plain

namespace UrlRouter

inductive GenerateError where
  | routeNotFound (name : String)
  | missing (name route : String)
  | mismatch (name constraint route : String)
  | pattern (cause : Pattern.Error)
  deriving DecidableEq, Repr

def GenerateError.message : GenerateError → String
  | .routeNotFound name => "Route with name [" ++ name ++ "] not found"
  | .missing name route => "Parameter value for [" ++ name ++ "] is missing for route [" ++ route ++ "]"
  | .mismatch name constraint route =>
    "Parameter value for [" ++ name ++ "] did not match the regex `" ++ constraint ++ "` in route [" ++ route ++ "]"
  | .pattern cause => cause.message

/-- The analyzed pattern of a route with the constraint of each token; a static pattern has no layout. -/
structure RouteLayout where
  layout : Option Pattern.Layout
  constraints : List (String × String)

def RouteLayout.ofRoute (route : Route) : Except Pattern.Error RouteLayout := do
  if !Pattern.isDynamic route.path then return ⟨none, []⟩
  let layout ← Pattern.analyze route.path
  let constraints ← layout.tokens.mapM fun token => do
    return (token.name, ← Pattern.resolveConstraint token route.tokens (some route.path))
  return ⟨some layout, constraints⟩

/-- values by attribute name -/
abbrev Attributes := List (String × Json)

/-- The values that are there; null counts as none. -/
def Attributes.given (attributes : Attributes) : List (String × String) :=
  attributes.filterMap fun (name, value) =>
    match value with
    | .null => none
    | value => some (name, value.plain)

def fullMatches (constraint text : String) : Bool :=
  match Regex.compile constraint with
  | .ok regex => (regex.fullMatch? text).isSome
  | .error _ => false

/-- the text of a token in a path -/
def substitute (route : String) (constraints values : List (String × String)) (token : Pattern.Token) :
    Except GenerateError String :=
  match values.lookup token.name with
  | none => .error (.missing token.name route)
  | some value =>
    let constraint := Pattern.constraintOf constraints token
    if fullMatches constraint value then .ok (Text.percentEncode value)
    else .error (.mismatch token.name constraint route)

def writePieces (f : Pattern.Token → Except GenerateError String) : List Pattern.Piece → Except GenerateError String
  | [] => .ok ""
  | .literal text :: rest => do return text ++ (← writePieces f rest)
  | .token t :: rest => do
    let value ← f t
    return value ++ (← writePieces f rest)

/-- whether every token among the pieces has a value -/
def supplied (values : List (String × String)) (pieces : List Pattern.Piece) : Bool :=
  (pieces.filterMap Pattern.Piece.token?).all fun token => (values.lookup token.name).isSome

/-- The path of a route with these values. -/
def RouteLayout.path (info : RouteLayout) (route : Route) (values : List (String × String)) :
    Except GenerateError String := do
  match info.layout with
  | none => return if route.path.isEmpty then "/" else route.path
  | some layout =>
    if layout.optionalStart && values.isEmpty then return "/"
    match layout.baseTokens.find? fun token => (values.lookup token.name).isNone with
    | some token => throw (.missing token.name route.name)
    | none =>
      let write := writePieces (substitute route.name info.constraints values)
      let base ← write layout.base
      let segments ← (layout.segments.takeWhile (supplied values)).mapM write
      let path := base ++ String.join segments
      return if path.isEmpty then "/" else path

/-- A generator keeps the layouts of the routes it has analyzed, by name, unless it was told not to. -/
structure UrlGenerator where
  useCache : Bool := true
  cache : List (String × RouteLayout) := []

namespace UrlGenerator

def layoutOf (generator : UrlGenerator) (route : Route) : Except Pattern.Error RouteLayout × UrlGenerator :=
  match if generator.useCache then generator.cache.lookup route.name else none with
  | some info => (.ok info, generator)
  | none =>
    match RouteLayout.ofRoute route with
    | .error e => (.error e, generator)
    | .ok info =>
      (.ok info, if generator.useCache then { generator with cache := (route.name, info) :: generator.cache }
        else generator)

/-- The path of the route with that name, and the generator afterwards. -/
def generate (generator : UrlGenerator) (routes : List (String × Route)) (name : String) (attributes : Attributes) :
    Except GenerateError String × UrlGenerator :=
  match routes.lookup name with
  | none => (.error (.routeNotFound name), generator)
  | some route =>
    match generator.layoutOf route with
    | (.error e, generator) => (.error (.pattern e), generator)
    | (.ok info, generator) => (info.path route attributes.given, generator)

def clearCache (generator : UrlGenerator) : UrlGenerator := { generator with cache := [] }

end UrlGenerator

end UrlRouter
