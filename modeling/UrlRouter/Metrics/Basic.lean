/-
Metrics of a router.

Counters only grow and have one value for each combination of labels; histograms sort what they observe into buckets
with upper bounds. A label combination is there from the first time it is used.
-/
import UrlRouter.Mapping

namespace UrlRouter

/-- the values of the labels, in the order of their names -/
abbrev LabelValues := List String

structure Counter where
  name : String
  help : String
  labels : List String
  counts : List (LabelValues × Nat) := []
  deriving DecidableEq, Repr

/-- The first entry of a key is changed, or one is added at the end. -/
def upsert {α β : Type} [DecidableEq α] (key : α) (absent : β) (change : β → β) : List (α × β) → List (α × β)
  | [] => [(key, change absent)]
  | (other, value) :: rest =>
    if other = key then (other, change value) :: rest else (other, value) :: upsert key absent change rest

def Counter.increment (counter : Counter) (values : LabelValues) : Counter :=
  { counter with counts := upsert values 0 (· + 1) counter.counts }

/-- what was observed under one combination of labels: how many in each bucket and above all, and their sum -/
structure Observed where
  buckets : List Nat
  sum : Float := 0

structure Histogram where
  name : String
  help : String
  labels : List String
  /-- upper bounds of the buckets, rising; above the last there is one more -/
  bounds : List Float
  observed : List (LabelValues × Observed) := []

namespace Histogram

/-- Adds one to the first bucket whose bound is not below the amount, or to the last. -/
def count (amount : Float) : List Float → List Nat → List Nat
  | bound :: bounds, n :: rest => if amount ≤ bound then (n + 1) :: rest else n :: count amount bounds rest
  | _, n :: rest => (n + 1) :: rest
  | _, [] => []

def empty (histogram : Histogram) : Observed := { buckets := List.replicate (histogram.bounds.length + 1) 0 }

def observe (histogram : Histogram) (values : LabelValues) (amount : Float) : Histogram :=
  { histogram with
    observed := upsert values histogram.empty
      (fun seen => { buckets := count amount histogram.bounds seen.buckets, sum := seen.sum + amount })
      histogram.observed }

end Histogram

structure RouterMetrics where
  matches' : Counter :=
    { name := "switchyard_matches_total", help := "Total number of match attempts", labels := ["method", "status"] }
  matchDuration : Histogram :=
    { name := "switchyard_match_duration_seconds", help := "Route matching latency in seconds", labels := ["method"]
      bounds := [0.00005, 0.0001, 0.00025, 0.0005, 0.001, 0.0025, 0.005, 0.01, 0.05, 0.1] }
  generateErrors : Counter :=
    { name := "switchyard_generate_errors_total", help := "Total number of failed URL generations"
      labels := ["error_type"] }
  compileDuration : Histogram :=
    { name := "switchyard_compile_duration_seconds", help := "Dispatch data compilation latency in seconds"
      labels := ["strategy"], bounds := [0.001, 0.005, 0.01, 0.05, 0.1, 0.5, 1, 5] }
  cacheEvents : Counter :=
    { name := "switchyard_cache_events_total", help := "Total number of compiled data cache events"
      labels := ["event"] }
  /-- the number of registered routes -/
  routes : Float := 0

namespace RouterMetrics

def uninitializedMessage : String := "Metrics not initialized. Call initialize_metrics() first."

def recordMatch (metrics : RouterMetrics) (method status : String) (seconds : Float) : RouterMetrics :=
  { metrics with
    matches' := metrics.matches'.increment [method, status]
    matchDuration := metrics.matchDuration.observe [method] seconds }

def recordGenerateError (metrics : RouterMetrics) (kind : String) : RouterMetrics :=
  { metrics with generateErrors := metrics.generateErrors.increment [kind] }

def recordCompile (metrics : RouterMetrics) (strategy : String) (seconds : Float) : RouterMetrics :=
  { metrics with compileDuration := metrics.compileDuration.observe [strategy] seconds }

def recordCacheEvent (metrics : RouterMetrics) (event : String) : RouterMetrics :=
  { metrics with cacheEvents := metrics.cacheEvents.increment [event] }

def updateRoutes (metrics : RouterMetrics) (count : Float) : RouterMetrics := { metrics with routes := count }

end RouterMetrics

end UrlRouter
