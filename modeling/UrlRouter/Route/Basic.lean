/-
Routes.

A route is a pattern with a name, the methods it answers to and what it asks of a request's scheme, host and port.
`Route.make` is the only way to build one from given values: it upper-cases and orders the methods, lower-cases the
schemes, derives a missing name and refuses what cannot hold.
-/
import UrlRouter.Http.Method
import UrlRouter.Pattern.Constraint
import UrlRouter.Regex.Match

namespace UrlRouter

/-- why a route cannot be built -/
inductive RouteError where
  | noMethods
  | unknownMethod (name : String)
  | invalidHost (host : String) (cause : Regex.CompileError)
  | hostLimit (cause : Regex.CompileError)
  | invalidPort (port : Int)
  deriving DecidableEq, Repr

def RouteError.message : RouteError → String
  | .noMethods => "Http methods array is empty"
  | .unknownMethod name => "Invalid HTTP method: " ++ name
  | .invalidHost host cause => "Invalid host pattern `" ++ host ++ "`: " ++ cause.message host
  | .hostLimit cause => cause.message ""
  | .invalidPort port => "Invalid port: " ++ toString port

/-- A registered route. No methods means any method, no schemes any scheme, and so on. -/
structure Route where
  path : String
  name : String
  methods : Option (List Method)
  tokens : Pattern.Overrides
  host : Option String
  port : Option Int
  schemes : Option (List String)
  deriving DecidableEq, Repr

/-- what a route is built from -/
structure RouteValues where
  path : String
  name : String := ""
  methods : Option (List String) := none
  tokens : Pattern.Overrides := []
  host : Option String := none
  port : Option Int := none
  schemes : Option (List String) := none

def normalizeMethods : Option (List String) → Except RouteError (Option (List Method))
  | none => .ok none
  | some [] => .error .noMethods
  | some names => do
    let methods ← (names.map Text.toUpper).mapM fun name =>
      match Method.ofName? name with
      | some method => .ok method
      | none => .error (.unknownMethod name)
    return some (Method.canonical methods)

/-- Lower-case schemes, sorted and each once; none are any. -/
def normalizeSchemes : Option (List String) → Option (List String)
  | none | some [] => none
  | some schemes => some (((schemes.map Text.toLower).eraseDups).mergeSort fun a b => a ≤ b)

/-- the bucket of routes that accept any method -/
def anyMethod : String := "ANY"

/-- values by name, those of `own` before those of `base` -/
def mergeTokens (base own : Pattern.Overrides) : Pattern.Overrides :=
  base.map (fun (name, value) => (name, (own.lookup name).getD value)) ++
    own.filter fun (name, _) => (base.lookup name).isNone

namespace Route

/-- The name of a route registered without one. -/
def defaultName (path : String) : Option (List Method) → String
  | none => path
  | some methods => path ++ "^" ++ ":".intercalate (methods.map Method.name)

def checkHost : Option String → Except RouteError Unit
  | none => .ok ()
  | some host =>
    match Regex.compile host with
    | .ok _ => .ok ()
    | .error (.malformed problem position) => .error (.invalidHost host (.malformed problem position))
    | .error cause => .error (.hostLimit cause)

def checkPort : Option Int → Except RouteError Unit
  | none => .ok ()
  | some port => if 0 < port && port < 65536 then .ok () else .error (.invalidPort port)

def make (values : RouteValues) : Except RouteError Route := do
  let methods ← normalizeMethods values.methods
  checkHost values.host
  checkPort values.port
  return {
    path := values.path
    name := if values.name.isEmpty then defaultName values.path methods else values.name
    methods
    tokens := values.tokens
    host := values.host
    port := values.port
    schemes := normalizeSchemes values.schemes }

def allowsAnyMethod (route : Route) : Bool := route.methods.isNone

def sortedMethods (route : Route) : List Method := route.methods.getD []

def allowsMethod (route : Route) (method : String) : Bool :=
  route.allowsAnyMethod || (route.sortedMethods.map Method.name).contains (Text.toUpper method)

/-- The buckets that a route goes into: one per method, or the one for any method. -/
def buckets (route : Route) : List String :=
  match route.sortedMethods with
  | [] => [anyMethod]
  | methods => methods.map Method.name

def allowsAnyScheme (route : Route) : Bool := route.schemes.isNone

def allowsScheme (route : Route) (scheme : String) : Bool :=
  route.allowsAnyScheme || (route.schemes.getD []).contains (Text.toLower scheme)

/-- The host pattern must match the whole host in any case. -/
def allowsHost (route : Route) (host : Option String) : Bool :=
  match route.host, host with
  | none, _ => true
  | some _, none => false
  | some pattern, some host =>
    match Regex.compileIn { ignoreCase := true } pattern with
    | .ok regex => (regex.fullMatch? host).isSome
    | .error _ => false

def allowsPort (route : Route) (port : Option Int) : Bool :=
  match route.port with
  | none => true
  | some wanted => port = some wanted

/-- Whether a request with this scheme, host and port meets the route's demands. -/
def accepts (route : Route) (scheme : String) (host : Option String) (port : Option Int) : Bool :=
  route.allowsScheme scheme && route.allowsHost host && route.allowsPort port

/-- The route with default tokens merged in; its own tokens win. -/
def withTokens (route : Route) (tokens : Pattern.Overrides) : Route :=
  { route with tokens := mergeTokens tokens route.tokens }

end Route

end UrlRouter
