/-
The router.

Routes are registered one by one and compiled when a request first needs them. Compiled data goes into a cache, if
there is one, and is read from it once; after that a new route makes the cached data stale, so that the next
compilation starts from the routes and overwrites the entry. An operation that fails keeps what it has done so far.

What a text of the cache says is for the router's `decode` to tell. A program may bring a reader of its own: nothing here
depends on which texts it takes, but that a text it refuses comes with a list of issues.
-/
import UrlRouter.Cache.Calls
import UrlRouter.Dispatch.Blob
import UrlRouter.Dispatch.Collector
import UrlRouter.Route.Duplicates
import UrlRouter.Router.Event
import UrlRouter.Router.Registration

namespace UrlRouter

inductive RouterError where
  | route (cause : RouteError)
  | duplicate (cause : DuplicateError)
  | collector (cause : CollectorError)
  | pattern (cause : Pattern.Error)
  | matcher (cause : MatcherError)
  | generate (cause : GenerateError)
  | cache (cause : CacheError)
  | store (cause : StoreAddressError)

def RouterError.message : RouterError → String
  | route cause => cause.message
  | duplicate cause => cause.message
  | collector cause => cause.message
  | pattern cause => cause.message
  | matcher cause => cause.message
  | generate cause => cause.message
  | cache cause => cause.message
  | store _ => badStoreAddress

structure Router where
  /-- the name of the strategy, which is looked at when routes are compiled -/
  strategy : String := Strategy.mark.name
  chunkSize : Int := defaultChunkSize
  cacheKey : String := defaultCacheKey
  tokens : Mapping String := []
  registrations : List Registration := []
  groups : List RouteGroup := []
  middlewares : MiddlewareStack := []
  detector : Detector := {}
  generator : UrlGenerator := {}
  /-- the reader of cache entries -/
  decode : String → Validation.Checked DispatchData := DispatchData.ofText
  matcher : Option Matcher := none
  /-- whether data was compiled or loaded since the cache was last cleared -/
  loaded : Bool := false
  /-- whether routes were added since then -/
  stale : Bool := false

/-- a router at work: with its cache, the files that may hold it, and what it has reported -/
structure RouterState where
  router : Router
  cache : Option Cache := none
  files : FileTree := {}
  events : List RouterEvent := []

abbrev RouterM := ExceptT RouterError (StateM RouterState)

namespace Router

def routes (router : Router) : List Route := router.registrations.map (·.route)

def find? (router : Router) (name : String) : Option Registration :=
  router.registrations.find? (·.route.name == name)

/-- The registration behind a match. A route without a name is not looked up. -/
def matched? (router : Router) (result : MatchResult) : Option Registration :=
  match result.route with
  | none | some "" => none
  | some name => router.find? name

def group? (router : Router) (registration : Registration) : Option RouteGroup :=
  registration.group.bind (router.groups[·]?)

/-- The middlewares around the target of a route, those of its group first. -/
def stackOf (router : Router) (registration : Registration) : MiddlewareStack :=
  ((router.group? registration).map (·.middlewares)).getD [] ++ registration.middlewares

/-- Adds default constraints for routes that are registered from now on. -/
def setTokens (router : Router) (tokens : Mapping String) : Router :=
  { router with tokens := insertAll router.tokens tokens }

/-- The router with one more route; what was compiled before does not count any more. -/
def register (router : Router) (registration : Registration) : Except DuplicateError Router := do
  let detector ← router.detector.checkAndRecord registration.route
  let route := if router.tokens.isEmpty then registration.route else registration.route.withTokens router.tokens
  return { router with
    detector
    registrations := router.registrations ++ [{ registration with route }]
    matcher := none
    stale := router.stale || router.loaded }

end Router

namespace RouterM

def report (event : RouterEvent) : RouterM Unit :=
  modify fun state => { state with events := state.events ++ [event] }

def modifyRouter (change : Router → Router) : RouterM Unit :=
  modify fun state => { state with router := change state.router }

def orFail {ε α : Type} (wrap : ε → RouterError) : Except ε α → RouterM α
  | .ok value => pure value
  | .error e => throw (wrap e)

/-- Events of the cache are reported only if there is one. -/
def reportCache (event : CacheEvent) : RouterM Unit := do
  let state ← get
  if state.cache.isSome then report (.cache event state.router.cacheKey)

/-- Registers a route and gives it back as it was stored. -/
def addRoute (registration : Registration) : RouterM Registration := do
  let router ← orFail .duplicate ((← get).router.register registration)
  modifyRouter fun _ => router
  let stored := (router.registrations.getLast?).getD registration
  report (.registered stored.route router.registrations.length)
  return stored

/-- Applies an operation of the cache. -/
def changeCache (operation : Cache → FileTree → Cache.Outcome) : RouterM Unit := do
  let state ← get
  match state.cache with
  | none => return ()
  | some cache =>
    let outcome := operation cache state.files
    set { state with cache := some outcome.cache, files := outcome.files }
    orFail .cache outcome.result

/-- Stores a text in the cache. -/
def storeText (key text : String) : RouterM Unit := do
  changeCache fun cache files => cache.insert files key text
  match (← get).cache with
  | some (.file folder) => report (.wroteCacheFile (Cache.fileOf folder key) key)
  | _ => return ()

/-- Makes a call of the cache, if there is one. -/
def callCache (call : CacheCall) : RouterM (Option CacheReply) := do
  let state ← get
  match state.cache with
  | none => return none
  | some cache =>
    let (after, reply) := CacheState.step ⟨cache, state.files⟩ call
    set { state with cache := some after.cache, files := after.files }
    match call, after.cache, reply with
    | .set key _, .file folder, .done => report (.wroteCacheFile (Cache.fileOf folder key) key)
    | _, _, _ => pure ()
    return some reply

/-- The cached data, if the cache holds some that can be read. -/
def cachedData : RouterM (Option DispatchData) := do
  let state ← get
  match state.cache with
  | none => return none
  | some cache =>
    let key := state.router.cacheKey
    match ← orFail .cache (cache.get? state.files key) with
    | none =>
      reportCache .miss
      return none
    | some text =>
      match state.router.decode text with
      | .ok data =>
        reportCache .hit
        return some data
      | .error issues =>
        report (.corruptEntry issues.length key)
        reportCache .corrupt
        return none

def storeData (data : DispatchData) : RouterM Unit := do
  let state ← get
  if state.cache.isSome then
    storeText state.router.cacheKey data.text
    reportCache .write

/-- Compiles the registered routes and stores the result. -/
def compileRoutes : RouterM DispatchData := do
  let router := (← get).router
  let collector ← orFail .collector (Collector.make router.strategy router.chunkSize)
  let (collector, result) := collector.addRoutes router.routes
  orFail .pattern result
  let data := collector.data
  report (.collected collector.seen.length data.chunkCount data.strategy (data.groups.map (·.1)))
  storeData data
  modifyRouter fun router => { router with stale := false }
  return data

/-- The dispatch data: from the cache unless it is stale, otherwise from the routes. -/
def dispatchData : RouterM DispatchData := do
  let cached ← if (← get).router.stale then pure none else cachedData
  let data ← match cached with
    | some data => pure data
    | none => compileRoutes
  modifyRouter fun router => { router with loaded := true }
  report (.compiled data.routeCount data.chunkCount data.strategy cached.isSome)
  return data

/-- The compiled matcher, which is made when it is first asked for. -/
def getMatcher : RouterM Matcher := do
  match (← get).router.matcher with
  | some matcher => return matcher
  | none =>
    let data ← dispatchData
    let matcher ← orFail .matcher (Matcher.ofData data)
    modifyRouter fun router => { router with matcher := some matcher }
    return matcher

/-- Matches a request; the matched route may be unknown to a router that shares its cache. -/
def match' (path method : String) : RouterM MatchResult := do
  let matcher ← getMatcher
  let result ← orFail .matcher (matcher.match' path method)
  if result.status = .methodNotAllowed then report (.refusedMethod result)
  report (.matched result)
  return result

/-- the texts that a value of a query stands for -/
def queryTexts : Json → List String
  | .string text => [text]
  | .array items => items.map Json.plain
  | .object fields => fields.map (·.1)
  | value => [value.plain]

/-- A query string, with a list spread over several fields of one name. -/
def queryText (query : Mapping Json) : String :=
  "&".intercalate (query.flatMap fun (name, value) =>
    (queryTexts value).map fun text => Text.formEncode name ++ "=" ++ Text.formEncode text)

/-- The path of a named route, with a query if there is one. -/
def generateUri (name : String) (attributes : Attributes) (query : Mapping Json) : RouterM String := do
  let router := (← get).router
  let (result, generator) :=
    router.generator.generate (router.routes.map fun route => (route.name, route)) name attributes
  modifyRouter fun router => { router with generator }
  match result with
  | .error e =>
    match e.kind? with
    | some kind => report (.generateFailed name kind e.message)
    | none => pure ()
    throw (.generate e)
  | .ok path => return if query.isEmpty then path else path ++ "?" ++ queryText query

/-- The registered route of that name. -/
def requireRoute (name : String) : RouterM Registration := do
  match (← get).router.find? name with
  | some registration => return registration
  | none => throw (.generate (.routeNotFound name))

/-- Forgets compiled data and layouts, and drops the cache entry. -/
def clearCache : RouterM Unit := do
  modifyRouter fun router => { router with matcher := none, loaded := false, stale := false }
  let key := (← get).router.cacheKey
  changeCache fun cache files => cache.erase files key
  modifyRouter fun router => { router with generator := router.generator.clearCache }
  reportCache .clear

end RouterM

end UrlRouter
