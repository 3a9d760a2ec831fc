/-
HTTP methods, in the order in which they are listed.
-/
import UrlRouter.Text.Casing

namespace UrlRouter

inductive Method where
  | get
  | post
  | put
  | delete
  | patch
  | options
  | head
  | connect
  | trace
  deriving DecidableEq, Repr

namespace Method

def all : List Method := [get, post, put, delete, patch, options, head, connect, trace]

def name : Method → String
  | get => "GET"
  | post => "POST"
  | put => "PUT"
  | delete => "DELETE"
  | patch => "PATCH"
  | options => "OPTIONS"
  | head => "HEAD"
  | connect => "CONNECT"
  | trace => "TRACE"

def ofName? (text : String) : Option Method := all.find? (·.name == text)

/-- a set of methods in the order of `all`, each once -/
def canonical (methods : List Method) : List Method := all.filter (methods.contains ·)

end Method

end UrlRouter
