import TaskTags.Settings.Log
import TaskTags.Store.Variable
import TaskTags.Tag.Filter

/-!
Settings, and layers of them. A layer sets some of the settings and leaves the others alone, so
that of several layers the last one that sets a value decides it.
-/

namespace TaskTags

structure Settings where
  run : List String
  skip : List String
  /-- Whether the tags of plays and blocks belong to their tasks. -/
  inherit : Bool
  verbosity : Nat
  diff : Bool
  color : Bool
  logLevel : LogLevel
  logFormat : LogFormat
  logFile : Option String
deriving DecidableEq, Inhabited

structure SettingsLayer where
  run : Option (List String) := none
  skip : Option (List String) := none
  inherit : Option Bool := none
  verbosity : Option Nat := none
  diff : Option Bool := none
  color : Option Bool := none
  logLevel : Option LogLevel := none
  logFormat : Option LogFormat := none
  logFile : Option String := none
deriving DecidableEq, Inhabited

namespace Settings

def default : Settings where
  run := []
  skip := []
  inherit := true
  verbosity := 0
  diff := false
  color := true
  logLevel := .warn
  logFormat := .compact
  logFile := none

/-- The settings with those of a layer in their place. -/
def override (s : Settings) (layer : SettingsLayer) : Settings where
  run := layer.run.getD s.run
  skip := layer.skip.getD s.skip
  inherit := layer.inherit.getD s.inherit
  verbosity := layer.verbosity.getD s.verbosity
  diff := layer.diff.getD s.diff
  color := layer.color.getD s.color
  logLevel := layer.logLevel.getD s.logLevel
  logFormat := layer.logFormat.getD s.logFormat
  logFile := layer.logFile.or s.logFile

/-- Only a verbosity can be out of its range. -/
def check (s : Settings) : Except Error Settings :=
  if s.verbosity ≤ Variable.maxVerbosity then .ok s
  else .error (.setting (.verbosity s.verbosity))

def filter (s : Settings) : TagFilter :=
  TagFilter.ofValues s.run s.skip

end Settings
end TaskTags
