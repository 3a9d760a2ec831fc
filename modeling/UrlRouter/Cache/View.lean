/-
Views of caches and of what they answer as JSON, for inspection.
-/
import UrlRouter.Cache.Calls
import UrlRouter.Router.ErrorName

namespace UrlRouter

def Cache.backendName : Cache → String
  | memory _ => "InMemoryRouteCache"
  | file _ => "FileRouteCache"
  | remote _ _ _ => "RedisRouteCache"

def CacheReply.toJson : CacheReply → Json
  | done => .null
  | value text => Json.ofOption .string text
  | presence present => .bool present
  | failed e => .ofFailure e.kind e.message

/-- What a cache holds: its entries, its files, or the entries of its store with their lifetimes. -/
def CacheState.toJson (state : CacheState) : Json :=
  match state.cache with
  | .memory entries => .ofTexts entries
  | .file _ => .ofStrings state.files.listing
  | .remote _ _ store =>
    .object [("data", .ofTexts store.data),
      ("ttl", .object (store.lifetimes.map fun (key, ttl) => (key, Json.ofOption .int ttl)))]

end UrlRouter
