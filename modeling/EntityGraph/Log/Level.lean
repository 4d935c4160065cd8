/-!
# Log levels

A level is a number; the named ones are the usual six.
-/

namespace EntityGraph.Log

/-- How grave a record is. -/
abbrev Level := Int

namespace Level

def notSet : Level := 0
def debug : Level := 10
def info : Level := 20
def warning : Level := 30
def error : Level := 40
def critical : Level := 50

/-- The name of a level; a number without a name is shown as such. -/
def name (level : Level) : String :=
  if level = critical then "CRITICAL"
  else if level = error then "ERROR"
  else if level = warning then "WARNING"
  else if level = info then "INFO"
  else if level = debug then "DEBUG"
  else if level = notSet then "NOTSET"
  else "Level " ++ toString level

/-- The level of a name in capitals; two levels have a second name. -/
def ofName? (s : String) : Option Level :=
  if s = "CRITICAL" ∨ s = "FATAL" then some critical
  else if s = "ERROR" then some error
  else if s = "WARNING" ∨ s = "WARN" then some warning
  else if s = "INFO" then some info
  else if s = "DEBUG" then some debug
  else if s = "NOTSET" then some notSet
  else none

end Level

end EntityGraph.Log
