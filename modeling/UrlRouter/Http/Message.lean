/-
Requests and responses.

Names of headers are compared without regard to case; setting a header replaces every one of that name.
-/
import UrlRouter.Json.Basic
import UrlRouter.Text.Casing
import UrlRouter.Text.Numeral
import UrlRouter.Text.Percent

namespace UrlRouter

abbrev Headers := List (String × String)

namespace Headers

def sameName (a b : String) : Bool := Text.toLower a = Text.toLower b

def get? (headers : Headers) (name : String) : Option String :=
  (headers.find? fun (key, _) => sameName key name).map (·.2)

def has (headers : Headers) (name : String) : Bool := (headers.get? name).isSome

def set (headers : Headers) (name value : String) : Headers :=
  headers.filter (fun (key, _) => !sameName key name) ++ [(name, value)]

end Headers

inductive Body where
  | json (value : Json)
  | text (content : String)

structure Response where
  status : Nat
  contentType : String := "text/plain"
  headers : Headers := []
  body : Body

/-- a response with a JSON body -/
def Response.ofJson (status : Nat) (headers : Headers) (value : Json) : Response :=
  { status, contentType := "application/json", headers, body := .json value }

structure Request where
  method : String
  /-- the path as it was sent, percent-encoded -/
  rawPath : String
  scheme : String := "http"
  headers : Headers := []

/-- host and port that a request was sent to -/
structure Authority where
  host : Option String
  port : Option Nat
  deriving DecidableEq, Repr

def badPortMessage : String := "Invalid URL: port can't be converted to integer"

/-- the port after a host, which may be empty; none if it is no number -/
def readPort (text : List Char) : Option (Option Nat) :=
  if text.isEmpty then some none
  else
    match Text.readInteger (String.ofList text) with
    | .ok n => if 0 ≤ n && n < 65536 then some (some n.toNat) else none
    | .error _ => none

/-- An authority without the user before an at sign. A host in brackets may hold colons. -/
def Authority.ofText? (text : String) : Option Authority :=
  let chars := (text.toList.reverse.takeWhile (· ≠ '@')).reverse
  let (host, rest) :=
    match chars with
    | '[' :: inner => (inner.takeWhile (· ≠ ']'), (inner.dropWhile (· ≠ ']')).drop 1)
    | chars => (chars.takeWhile (· ≠ ':'), chars.dropWhile (· ≠ ':'))
  (readPort (rest.drop 1)).map fun port =>
    { host := if host.isEmpty then none else some (Text.toLower (String.ofList host)), port }

namespace Request

def path (request : Request) : String := Text.lenientDecode request.rawPath

/-- the port that a scheme has by itself -/
def defaultPort (scheme : String) : Option Nat :=
  match scheme with
  | "http" | "ws" => some 80
  | "https" | "wss" => some 443
  | "ftp" => some 21
  | _ => none

/-- Host and port of a request, from its host header; none if the port is no number. -/
def authority? (request : Request) : Option Authority :=
  (Authority.ofText? ((request.headers.get? "Host").getD "")).map fun authority =>
    { authority with port := authority.port.or (defaultPort request.scheme) }

end Request

end UrlRouter
