import TaskTags.Json.Basic
import TaskTags.Template.Fault

/-!
Errors by their causes, with the text and the exit status of each.
-/

namespace TaskTags

inductive TagFault where
  /-- A declaration that is neither text nor list. -/
  | notAList
  /-- A number, by its text, that is no integer of 64 bits. -/
  | badNumber (text : String)
  /-- A value, by its text, that is no tag at all. -/
  | badValue (text : String)
deriving DecidableEq

def TagFault.message : TagFault → String
  | .notAList => "tags must be specified as a list"
  | .badNumber text => "tag '" ++ text ++ "' is not a string or integer"
  | .badValue text => "tag " ++ text ++ " is not a string or integer"

inductive PlaybookFault where
  | notAList
  /-- Plays are counted from one. -/
  | playNotMapping (number : Nat)
  | taskNotMapping (parent : String)
  | tasksNotList (parent : String)
  | varsNotMapping (owner : String)
deriving DecidableEq

def PlaybookFault.message : PlaybookFault → String
  | .notAList => "a playbook must be a list of plays"
  | .playNotMapping number => "play #" ++ toString number ++ " must be a mapping"
  | .taskNotMapping parent => "task in '" ++ parent ++ "' must be a mapping"
  | .tasksNotList parent => "task list in '" ++ parent ++ "' must be a list"
  | .varsNotMapping owner => "vars of '" ++ owner ++ "' must be a mapping"

inductive FileRole where
  | settings
  | extraVars
deriving DecidableEq, Inhabited

def FileRole.name : FileRole → String
  | .settings => "config file"
  | .extraVars => "vars file"

inductive FileFault where
  /-- The operating system's reason. -/
  | unreadable (reason : String)
  | malformed
deriving DecidableEq, Inhabited

inductive SettingFault where
  | verbosity (level : Nat)
  | logLevel (text : String)
deriving DecidableEq

def SettingFault.key : SettingFault → String
  | .verbosity _ => "output.verbosity"
  | .logLevel _ => "logging.level"

def SettingFault.message : SettingFault → String
  | .verbosity level => toString level ++ " is out of range, expected 0..=4"
  | .logLevel text => "unknown log level '" ++ text ++ "'"

inductive Error where
  | reservedName (name : String)
  | variableNotFound (name : String)
  | invalidVerbosity (level : Nat)
  | invalidTags (owner : String) (fault : TagFault)
  | template (source : String) (fault : Template.Fault)
  | playbookFile (path : String) (fault : FileFault)
  | file (role : FileRole) (path : String) (fault : FileFault)
  | playbook (fault : PlaybookFault)
  | setting (fault : SettingFault)
  /-- An extra variable that is neither an assignment nor a file. -/
  | extraVariable (text : String)
  /-- An extra variable whose value JSON cannot hold. -/
  | extraKey (fault : Json.KeyFault)
  /-- A YAML text that does not parse. -/
  | yaml
  /-- A JSON text that does not parse, or a value that JSON cannot hold. -/
  | json
  /-- A message in front of a cause. -/
  | context (message : String) (cause : Error)
deriving DecidableEq

namespace Error

/-- The text of an error itself, without that of its cause. -/
def message : Error → String
  | .reservedName name => "Name '" ++ name ++ "' is reserved"
  | .variableNotFound name => "Variable '" ++ name ++ "' not found"
  | .invalidVerbosity level => "Invalid verbosity " ++ toString level ++ ": must be between 0 and 4"
  | .invalidTags owner fault => "Invalid tags for '" ++ owner ++ "': " ++ fault.message
  | .template source fault => "Template rendering failed for '" ++ source ++ "': " ++ fault.message
  | .playbookFile path (.unreadable _) =>
    "Failed to parse playbook '" ++ path ++ "': failed to read file"
  | .playbookFile path .malformed => "Failed to parse playbook '" ++ path ++ "'"
  | .file role path (.unreadable _) => "Failed to read " ++ role.name ++ ": " ++ path
  | .file role path .malformed => "Failed to parse " ++ role.name ++ ": " ++ path
  | .playbook fault => "Playbook validation failed: " ++ fault.message
  | .setting fault =>
    "Invalid configuration value for '" ++ fault.key ++ "': " ++ fault.message
  | .extraVariable text =>
    "Invalid extra variable '" ++ text ++ "': expected key=value or @file"
  | .extraKey fault => fault.message
  | .yaml => "YAML parse error"
  | .json => "JSON parse error"
  | .context message _ => message

/-- The text of an error and of all that caused it, but for what a reader of documents or templates
says of its place. -/
def report : Error → String
  | .playbookFile path (.unreadable reason) =>
    (Error.playbookFile path (.unreadable reason)).message ++ ": " ++ reason
  | .file role path (.unreadable reason) =>
    (Error.file role path (.unreadable reason)).message ++ ": " ++ reason
  | .context message cause => message ++ ": " ++ cause.report
  | e => e.message

def exitCode : Error → Nat
  | .playbookFile .. | .playbook _ | .invalidTags .. => 4
  | .template .. => 2
  | .setting _ => 5
  | _ => 1

end Error
end TaskTags
