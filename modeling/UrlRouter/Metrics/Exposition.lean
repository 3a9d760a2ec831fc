/-
Metrics as samples and as text.

Every family of metrics has a line of help, a line with its type, and its samples; the buckets of a histogram are
cumulated. Large numbers are written with an exponent of two digits.
-/
import UrlRouter.Metrics.Basic
import UrlRouter.Decimal.Shortest
import UrlRouter.Log.Template

namespace UrlRouter

structure Sample where
  name : String
  labels : Mapping String
  value : Float

structure Family where
  name : String
  help : String
  kind : String
  samples : List Sample

namespace Metrics

def floatOf (n : Nat) : Float := Float.ofNat n

/-- A number: from a million on, one with a point in its text is written with an exponent. -/
def numberText (x : Float) : String :=
  let text := (Decimal.floatText x).toList
  let whole := text.takeWhile (· ≠ '.')
  if x > 0 && whole.length < text.length && 6 < whole.length then
    let digits := whole.take 1 ++ '.' :: (whole.drop 1 ++ (text.drop (whole.length + 1)))
    let mantissa := (digits.reverse.dropWhile fun c => c = '0' || c = '.').reverse
    String.ofList mantissa ++ "e+0" ++ toString (whole.length - 1)
  else String.ofList text

def boundText (bound : Float) : String := numberText bound

def counterFamily (counter : Counter) : Family :=
  ⟨counter.name, counter.help, "counter",
    counter.counts.map fun (values, n) => ⟨counter.name, counter.labels.zip values, floatOf n⟩⟩

/-- Each number added to all before it. -/
def cumulated (before : Nat) : List Nat → List Nat
  | [] => []
  | n :: rest => (before + n) :: cumulated (before + n) rest

def histogramSamples (histogram : Histogram) (values : LabelValues) (seen : Observed) : List Sample :=
  let labels := histogram.labels.zip values
  let bounds := histogram.bounds.map boundText ++ ["+Inf"]
  let counts := cumulated 0 seen.buckets
  (bounds.zip counts).map (fun (bound, n) => ⟨histogram.name ++ "_bucket", ("le", bound) :: labels, floatOf n⟩) ++
    [⟨histogram.name ++ "_count", labels, floatOf (counts.getLast?.getD 0)⟩,
      ⟨histogram.name ++ "_sum", labels, seen.sum⟩]

def histogramFamily (histogram : Histogram) : Family :=
  ⟨histogram.name, histogram.help, "histogram",
    histogram.observed.flatMap fun (values, seen) => histogramSamples histogram values seen⟩

def routesName : String := "switchyard_routes_registered"

def families (metrics : RouterMetrics) : List Family := [
  counterFamily metrics.matches', histogramFamily metrics.matchDuration, counterFamily metrics.generateErrors,
  histogramFamily metrics.compileDuration, counterFamily metrics.cacheEvents,
  ⟨routesName, "Number of registered routes", "gauge", [⟨routesName, [], metrics.routes⟩]⟩]

def labelChar (c : Char) : List Char :=
  if c = '\\' then ['\\', '\\'] else if c = '"' then ['\\', '"'] else if c = '\n' then ['\\', 'n'] else [c]

def labelText (label : String × String) : String :=
  label.1 ++ "=\"" ++ String.ofList (label.2.toList.flatMap labelChar) ++ "\""

def sortedLabels (labels : Mapping String) : Mapping String := labels.mergeSort fun a b => a.1 ≤ b.1

def Sample.line (sample : Sample) : String :=
  let labels := if sample.labels.isEmpty then ""
    else "\x7b" ++ ",".intercalate ((sortedLabels sample.labels).map labelText) ++ "\x7d"
  sample.name ++ labels ++ " " ++ numberText sample.value

def Family.lines (family : Family) : List String :=
  ["# HELP " ++ family.name ++ " " ++ family.help, "# TYPE " ++ family.name ++ " " ++ family.kind] ++
    family.samples.map Sample.line

/-- the lines of the whole text -/
def lines (metrics : RouterMetrics) : List String := (families metrics).flatMap Family.lines

def text (metrics : RouterMetrics) : String := String.join ((lines metrics).map (· ++ "\n"))

/-- order of lists by their first difference, a shorter list before what extends it -/
def keysBefore : List String → List String → Bool
  | [], _ => true
  | _ :: _, [] => false
  | a :: as, b :: bs => a < b || (a = b && keysBefore as bs)

/-- order of samples: by name, then by labels -/
def Sample.before (a b : Sample) : Bool :=
  let keys (sample : Sample) : List String :=
    (sortedLabels sample.labels).flatMap fun (name, value) => [name, value]
  a.name < b.name || (a.name = b.name && keysBefore (keys a) (keys b))

/-- all samples in order -/
def samples (metrics : RouterMetrics) : List Sample :=
  ((families metrics).flatMap (·.samples)).mergeSort Sample.before

/-- A number as JSON; a whole one has no point. -/
def numberJson (x : Float) : Json :=
  match Log.wholeOf (.float x) with
  | some n => if Float.ofInt n == x then .int n else .float x
  | none => .float x

def Sample.toJson (sample : Sample) : Json :=
  .array [.string sample.name, .object (sample.labels.map fun (key, value) => (key, .string value)),
    numberJson sample.value]

end Metrics

end UrlRouter
