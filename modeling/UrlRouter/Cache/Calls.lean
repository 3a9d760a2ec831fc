/-
Calls of a cache and what they answer.

A run of calls over a memory cache is a plain map from keys to texts; the other caches can be held against it.
-/
import UrlRouter.Cache.Basic
import UrlRouter.Config.Basic

namespace UrlRouter

/-- the ways in which the address of a store may begin -/
def storeSchemes : List String := ["redis://", "rediss://", "unix://"]

def badStoreAddress : String :=
  "Redis URL must specify one of the following schemes (" ++ ", ".intercalate storeSchemes ++ ")"

/-- a store whose address cannot be one -/
structure StoreAddressError where
  address : String
  deriving DecidableEq, Repr

/-- The cache that a configuration asks for; none if caching is off. -/
def Cache.ofConfig (config : CacheConfig) : Except StoreAddressError (Option Cache) :=
  if !config.enabled then .ok none
  else
    match config.backend with
    | .memory => .ok (some (.memory []))
    | .file => .ok (some (.file (.ofText config.directory)))
    | .remote =>
      if storeSchemes.any (config.redisUrl.startsWith ·) then
        .ok (some (.remote config.keyPrefix config.lifetime {}))
      else .error ⟨config.redisUrl⟩

inductive CacheCall where
  | get (key : String)
  | set (key value : String)
  | has (key : String)
  | delete (key : String)
  | clear
  deriving DecidableEq, Repr

inductive CacheReply where
  | done
  | value (text : Option String)
  | presence (present : Bool)
  | failed (error : CacheError)
  deriving DecidableEq, Repr

/-- a cache together with the files it may use -/
structure CacheState where
  cache : Cache
  files : FileTree := {}
  deriving DecidableEq, Repr

def Cache.Outcome.reply (outcome : Cache.Outcome) : CacheState × CacheReply :=
  (⟨outcome.cache, outcome.files⟩,
    match outcome.result with
    | .ok () => .done
    | .error e => .failed e)

namespace CacheState

def step (state : CacheState) : CacheCall → CacheState × CacheReply
  | .get key =>
    (state, match state.cache.get? state.files key with
      | .ok text => .value text
      | .error e => .failed e)
  | .has key =>
    (state, match state.cache.contains state.files key with
      | .ok present => .presence present
      | .error e => .failed e)
  | .set key value => (state.cache.insert state.files key value).reply
  | .delete key => (state.cache.erase state.files key).reply
  | .clear => (state.cache.clear state.files).reply

/-- the replies to calls made one after the other -/
def run (state : CacheState) : List CacheCall → List CacheReply
  | [] => []
  | call :: rest => (state.step call).2 :: (state.step call).1.run rest

end CacheState

end UrlRouter
