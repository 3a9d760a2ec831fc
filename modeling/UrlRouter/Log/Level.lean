/-
Levels of log records.

A level is a number; five of them have names.
-/
namespace UrlRouter

inductive LogLevel where
  | debug
  | info
  | warning
  | error
  | critical
  deriving DecidableEq, Repr

namespace LogLevel

def name : LogLevel → String
  | debug => "DEBUG"
  | info => "INFO"
  | warning => "WARNING"
  | error => "ERROR"
  | critical => "CRITICAL"

def number : LogLevel → Int
  | debug => 10
  | info => 20
  | warning => 30
  | error => 40
  | critical => 50

def all : List LogLevel := [debug, info, warning, error, critical]

def ofName? (name : String) : Option LogLevel := all.find? (·.name == name)

/-- What a record of that level is called. -/
def nameOf (number : Int) : String :=
  match all.find? (·.number == number) with
  | some level => level.name
  | none => if number = 0 then "NOTSET" else "Level " ++ toString number

end LogLevel

end UrlRouter
