import TaskTags.Environment
import TaskTags.Settings.Document

/-!
Settings from files and variables: those of the system, of the user, of the project and of a file
that a variable names, one over the other, and variables over all of them. A file given by the
caller takes the place of all these files.
-/

namespace TaskTags

/-- A number without sign of at most 255. -/
def verbosityOf? (s : String) : Option Nat :=
  let ds :=
    match s.toList with
    | '+' :: rest => rest
    | cs => cs
  if ds.isEmpty || !ds.all Decimal.isDigit then none
  else some (Decimal.natOf ds) |>.filter (· < 256)

/-- What variables set. A value that cannot be read sets nothing. -/
def SettingsLayer.ofVariables (env : Environment) : SettingsLayer where
  run := (env.value? "RUSTIBLE_TAGS_RUN").map Text.commaPieces
  skip := (env.value? "RUSTIBLE_TAGS_SKIP").map Text.commaPieces
  verbosity := (env.value? "RUSTIBLE_VERBOSITY").bind verbosityOf?
  logLevel := (env.value? "RUSTIBLE_LOG_LEVEL").bind fun s => (LogLevel.parse s).toOption
  color := if env.isSet "NO_COLOR" then some false else none

def SettingsLayer.ofFile (env : Environment) (path : String) : Except Error SettingsLayer := do
  let text ← (env.files path).read.mapError (Error.file .settings path)
  match SettingsLayer.parse? (extensionOf path) text with
  | some layer => .ok layer
  | none => .error (.file .settings path .malformed)

namespace Settings

def joinPath (directory name : String) : String :=
  if directory.endsWith "/" then directory ++ name else directory ++ "/" ++ name

/-- The files that may exist, by increasing precedence. -/
def paths (env : Environment) (explicit : Option String) : List String :=
  match explicit with
  | some path => [path]
  | none =>
    ["/etc/rustible/rustible-tags.cfg"] ++
    (env.homeDirectory?.map (joinPath · ".rustible-tags.cfg")).toList ++
    ["rustible-tags.cfg"] ++ (env.value? "RUSTIBLE_TAGS_CONFIG").toList

/-- The layers of the files that exist. -/
def fileLayers (env : Environment) (explicit : Option String) :
    Except Error (List SettingsLayer) :=
  ((paths env explicit).filter fun path => (env.files path).isPresent).mapM
    (SettingsLayer.ofFile env)

def load (env : Environment) (explicit : Option String) : Except Error Settings := do
  let layers ← fileLayers env explicit
  ((layers.foldl override default).override (.ofVariables env)).check

def ofFile (env : Environment) (path : String) : Except Error Settings := do
  (default.override (← SettingsLayer.ofFile env path)).check

end Settings
end TaskTags
