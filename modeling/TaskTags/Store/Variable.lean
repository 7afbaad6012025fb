import TaskTags.Json.Basic
import TaskTags.Error

/-!
A variable with its initial value and the flags that decide where it is reported.
-/

namespace TaskTags

/-- What a caller sets about a variable; what is absent stays as it is. -/
structure VariableOptions where
  diff : Option Bool
  output : Option Bool
  change : Option Bool
  fact : Option Bool
  verbosity : Option Nat
  initial : Option Json
deriving Inhabited

def VariableOptions.none : VariableOptions where
  diff := .none
  output := .none
  change := .none
  fact := .none
  verbosity := .none
  initial := .none

structure Variable where
  value : Json
  initial : Json
  /-- Whether the initial value has been recorded. -/
  recorded : Bool
  diff : Bool
  output : Bool
  change : Option Bool
  fact : Bool
  verbosity : Nat
deriving Inhabited

namespace Variable

def maxVerbosity : Nat := 4

def blank : Variable where
  value := .null
  initial := .null
  recorded := false
  diff := false
  output := true
  change := .none
  fact := false
  verbosity := 0

/-- Applies options, all of them or, with a verbosity out of range, none. -/
def configure (v : Variable) (options : VariableOptions) : Except Error Variable :=
  match options.verbosity.filter (maxVerbosity < ·) with
  | some level => .error (.invalidVerbosity level)
  | none => .ok {
      value := v.value
      initial := options.initial.getD v.initial
      recorded := v.recorded || options.initial.isSome
      diff := options.diff.getD v.diff
      output := options.output.getD v.output
      change := options.change.or v.change
      fact := options.fact.getD v.fact
      verbosity := options.verbosity.getD v.verbosity }

/-- The first value is the initial one unless an initial value has been given. -/
def assign (v : Variable) (value : Json) : Variable :=
  { v with
    value
    initial := if v.recorded then v.initial else value
    recorded := true }

/-- Whether a change of the value counts; without a word on it, whether it is shown as difference. -/
def tracksChange (v : Variable) : Bool :=
  v.change.getD v.diff

def hasChanged (v : Variable) : Bool :=
  v.tracksChange && !(v.initial == v.value)

def visibleAt (v : Variable) (verbosity : Nat) : Bool :=
  v.verbosity ≤ verbosity

def showsDiff (v : Variable) (verbosity : Nat) : Bool :=
  v.visibleAt verbosity && v.diff && v.hasChanged

def showsOutput (v : Variable) (verbosity : Nat) : Bool :=
  v.output && v.visibleAt verbosity

end Variable
end TaskTags
