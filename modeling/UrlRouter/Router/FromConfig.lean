/-
Routers from configurations.
-/
import UrlRouter.Config.Basic
import UrlRouter.Router.Group

namespace UrlRouter

def RouteConfig.request (config : RouteConfig) : RouteRequest where
  values := {
    path := config.path
    name := config.name.getD ""
    methods := config.methods
    tokens := config.tokens
    host := config.host
    port := config.port
    schemes := config.schemes }
  target := .value config.target

/-- A router without routes. -/
def Router.ofConfig (config : RouterConfig) : Router where
  strategy := config.strategy.name
  chunkSize := config.chunkSize
  cacheKey := config.cache.key
  tokens := config.tokens

/-- Registers the routes of a configuration, in order. -/
def RouterM.addConfigured (routes : List RouteConfig) : RouterM Unit :=
  routes.forM fun config => do
    let route ← orFail .route (Route.make config.request.values)
    let _ ← addRoute { route, target := config.request.target }

end UrlRouter
