/-
Arguments of the form `key=value`.
-/
import UrlRouter.Dispatch.Matcher

namespace UrlRouter

/-- an argument without a key or without an equals sign -/
structure PairError where
  argument : String
  deriving DecidableEq, Repr

def PairError.message (e : PairError) : String := "Expected key=value, got: " ++ e.argument

/-- An argument cut at its first equals sign. -/
def splitPair (argument : String) : Except PairError (String × String) :=
  let chars := argument.toList
  let key := chars.takeWhile (· ≠ '=')
  if key.isEmpty || !chars.contains '=' then .error ⟨argument⟩
  else .ok (String.ofList key, String.ofList (chars.drop (key.length + 1)))

/-- The values of all arguments; a key keeps its first place and its last value. -/
def parsePairs (arguments : List String) : Except PairError (List (String × String)) :=
  arguments.foldlM (fun values argument => do
    let (key, value) ← splitPair argument
    return insertValue key value values) []

end UrlRouter
