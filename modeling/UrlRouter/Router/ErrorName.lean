/-
Names of errors.

An error is reported to people and programs by a name beside its message. Errors of the router's own have names of
their own; limits and faults from below keep general ones.
-/
import UrlRouter.Config.Load
import UrlRouter.Http.Dispatch

namespace UrlRouter

def Regex.CompileError.kind : Regex.CompileError → String
  | malformed _ _ => "error"
  | repetitionTooLarge => "OverflowError"
  | numeralTooLong _ | asciiAndUnicode => "ValueError"

def Pattern.Error.kind : Pattern.Error → String
  | fault (.duplicateAttribute _) _ => "DuplicateAttributeError"
  | fault _ _ => "RouteSyntaxError"
  | limit cause => cause.kind
  | lostGroup _ => "KeyError"

def RouteError.kind : RouteError → String
  | hostLimit cause => cause.kind
  | _ => "InvalidRouteError"

def MatcherError.kind : MatcherError → String
  | regex _ cause => cause.kind
  | unknownTag _ => "KeyError"
  | noSuchGroup => "IndexError"

def GenerateError.kind : GenerateError → String
  | routeNotFound _ => "RouteNotFoundError"
  | missing _ _ => "MissingAttributeError"
  | mismatch _ _ _ => "AttributeMismatchError"
  | pattern cause => cause.kind

def FileFault.kind : FileFault → String
  | notFound => "FileNotFoundError"
  | alreadyThere => "FileExistsError"
  | notFolder => "NotADirectoryError"
  | isFolder => "IsADirectoryError"

def CacheError.kind : CacheError → String
  | fileFault _ fault => fault.kind
  | _ => "CacheError"

def RouterError.kind : RouterError → String
  | route cause => cause.kind
  | duplicate _ => "DuplicateRouteError"
  | collector _ | store _ => "ValueError"
  | pattern cause => cause.kind
  | matcher cause => cause.kind
  | generate cause => cause.kind
  | cache cause => cause.kind

def ConfigError.kind : ConfigError → String
  | unreadable _ fault => fault.kind
  | noSuchItem => "TypeError"
  | noSections => "AttributeError"
  | malformed fault => fault.kind
  | invalid _ | notMapping | chunkSize _ _ => "ValueError"

def Log.TemplateError.kind : Log.TemplateError → String
  | arguments => "TypeError"
  | missingKey _ => "KeyError"
  | noSuchCharacter | unrepresentable | amountTooBig => "OverflowError"
  | incomplete | incompleteKey | unsupported _ _ | widthTooBig | precisionTooBig => "ValueError"

end UrlRouter
