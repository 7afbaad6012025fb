import TaskTags.CommandLine.Console
import TaskTags.CommandLine.ExtraVariable
import TaskTags.CommandLine.Invocation
import TaskTags.Json.Printer
import TaskTags.Playbook.Collect
import TaskTags.Playbook.Listing
import TaskTags.Playbook.Load
import TaskTags.Report.DiffText
import TaskTags.Settings.Load

/-!
Running a command line: what it prints and its exit status, from what it sees of the system.

A command prints as it goes: text for readers first, and the report at its end, once the variables
of the report are assigned. With a report as JSON nothing else is printed.
-/

namespace TaskTags.CommandLine

def programName : String := "rustible-tags"

def programVersion : String := "0.1.0"

structure Outcome where
  exitCode : Nat
  stdout : String
  stderr : String
deriving DecidableEq, Inhabited

structure Context where
  settings : Settings
  filter : TagFilter
  extraVars : Bindings
  verbosity : Nat
  diff : Bool
  inherit : Bool
  json : Bool
  color : Bool
  warnings : List String
deriving Inhabited

/-- A variable that a command reports besides the filters. -/
structure Assignment where
  name : String
  value : Json
  /-- The verbosity from which on it is reported. -/
  verbosity : Option Nat
deriving Inhabited

def Assignment.options (a : Assignment) : VariableOptions :=
  { VariableOptions.none with verbosity := a.verbosity }

structure Finding where
  assigned : List Assignment
  message : String
  warnings : List String
deriving Inhabited

/-- Colors are for terminals, unless a variable forbids them. One that is zero is overruled by one
that forces colors. -/
def allowsColor (env : Environment) : Bool :=
  env.isTerminal && !env.isSet "NO_COLOR" &&
    (env.value? "CLICOLOR" ≠ some "0" || (env.value? "CLICOLOR_FORCE").any (· ≠ "0"))

namespace Context

def replacedFilter : String := "command line tag filters replace the configured ones"

def verbosityOf (inv : Invocation) : Nat :=
  min inv.verbose Variable.maxVerbosity

/-- Filters of the command line take the place of those in the settings. -/
def filterOf (inv : Invocation) (settings : Settings) : TagFilter :=
  TagFilter.ofValues (if inv.tags.isEmpty then settings.run else inv.tags)
    (if inv.skipTags.isEmpty then settings.skip else inv.skipTags)

def make (env : Environment) (inv : Invocation) (settings : Settings) : Except Error Context := do
  let extraVars ← extraVariables env inv.extraVars
  let filter := filterOf inv settings
  return {
    settings
    filter
    extraVars
    verbosity := max (verbosityOf inv) settings.verbosity
    diff := inv.diff || settings.diff
    inherit := settings.inherit && !inv.noInherit
    json := inv.json
    color := allowsColor env && !inv.noColor && settings.color
    warnings :=
      if settings.filter ≠ filter && settings.filter.isActive then [replacedFilter] else [] }

def tracked : VariableOptions := { VariableOptions.none with diff := some true }

/-- The filters as variables, first those of the settings and then those in effect. -/
def filterVars (ctx : Context) : Except Error VariableStore := do
  let configured := ctx.settings.filter
  let s := VariableStore.empty
  let s ← s.setWith "only_tags" (.str configured.only.display) tracked
  let s ← s.set "only_tags" (.str ctx.filter.only.display)
  let s ← s.setWith "skip_tags" (.str configured.skip.display) tracked
  s.set "skip_tags" (.str ctx.filter.skip.display)

/-- A line for readers who ask for more words. -/
def info (ctx : Context) (message : String) : String :=
  if 1 ≤ ctx.verbosity then Text.paint ctx.color .blue "INFO:" ++ " " ++ message ++ "\n" else ""

/-- A title, underlined as far as it has bytes. -/
def title (ctx : Context) (text : String) : String :=
  "\n" ++ Text.paint ctx.color .boldCyan text ++ "\n" ++
    Text.paint ctx.color .cyan ("".pushn '-' text.utf8ByteSize) ++ "\n"

def warningLine (ctx : Context) (message : String) : String :=
  Text.paint ctx.color .boldYellow "WARNING:" ++ " " ++ message ++ "\n"

def say (ctx : Context) (text : String) : Console Unit :=
  if ctx.json then pure () else Console.print text

def assign (ctx : Context) (assigned : List Assignment) : Except Error VariableStore := do
  assigned.foldlM (fun s a => s.setWith a.name a.value a.options) (← ctx.filterVars)

def reportOptions (ctx : Context) (message : String) : ReportOptions where
  verbosity := ctx.verbosity
  diffMode := ctx.diff
  factsName := none
  changed := false
  message := message

def diagnostics (ctx : Context) (warnings : List String) : Diagnostics :=
  (ctx.warnings ++ warnings).foldl Diagnostics.warn Diagnostics.empty

def report (ctx : Context) (s : VariableStore) (finding : Finding) : Report :=
  (Report.ofStore s (ctx.reportOptions finding.message) (ctx.diagnostics finding.warnings)).1

/-- Prints a report: as JSON, or of it the difference of the filters and, as errors, the warnings. -/
def printReport (ctx : Context) (report : Report) : Console Unit := do
  if ctx.json then
    Console.print (report.toJson.pretty ++ "\n")
  else
    Console.print ((report.diff.map (·.render ctx.color)).getD "")
    report.diagnostics.warnings.forM fun warning => Console.printError (ctx.warningLine warning)

/-- The end of a command: it assigns what it reports and prints the report. -/
def conclude (ctx : Context) (finding : Finding) : Console Unit := do
  let s ← ctx.assign finding.assigned
  ctx.printReport (ctx.report s finding)

def answer (runs : Bool) : String :=
  if runs then "run" else "skip"

def checked (own : TagSet) (runs : Bool) : Finding where
  assigned := [⟨"tags", .str own.display, none⟩, ⟨"run", .bool runs, none⟩]
  message := answer runs
  warnings := []

def check (ctx : Context) (args : List String) : Console Unit := do
  let own := TagSet.ofValues args
  let runs := ctx.filter.runs own
  ctx.say (answer runs ++ "\n")
  ctx.say (ctx.info ("tags [" ++ own.display ++ "] against --tags [" ++ ctx.filter.only.display ++
    "] --skip-tags [" ++ ctx.filter.skip.display ++ "]"))
  ctx.conclude (checked own runs)

/-- The tasks of a collector under the texts of their tags. -/
def tasksByText (collector : TagCollector) : Bindings :=
  Json.sortFields (collector.tasks.map fun (tag, names) => (tag.display, Json.ofStrings names))

def listedTags (collector : TagCollector) : Finding where
  assigned := [⟨"tags", Json.ofStrings (collector.tags.toList.map Tag.display), none⟩,
    ⟨"tag_tasks", .obj (tasksByText collector), none⟩]
  message := toString collector.count ++ " tags found"
  warnings := []

def listTags (ctx : Context) (path : String) (playbook : Playbook) : Console Unit := do
  let collector := playbook.collect
  ctx.say (ctx.title ("playbook: " ++ path))
  ctx.say (String.ofList (Text.trimEnd collector.display.toList) ++ "\n")
  ctx.conclude (listedTags collector)

def selectedCount (plays : List PlaySelection) : Nat :=
  (plays.flatMap (·.selected)).length

def skippedCount (plays : List PlaySelection) : Nat :=
  (plays.flatMap (·.skipped)).length

def unknownTagWarning (tag : Tag) : String :=
  "tag '" ++ tag.display ++ "' is not used by any play or task"

def listedTasks (ctx : Context) (plays : List PlaySelection) : Finding where
  assigned := [⟨"plays", .arr (plays.map PlaySelection.toJson), none⟩,
    ⟨"selected", Json.ofNat (selectedCount plays), none⟩,
    ⟨"skipped", Json.ofNat (skippedCount plays), none⟩, ⟨"inherit", .bool ctx.inherit, some 1⟩]
  message := toString (selectedCount plays) ++ " of " ++
    toString (selectedCount plays + skippedCount plays) ++ " tasks selected"
  warnings := (unknownTags ctx.filter.only plays).map unknownTagWarning

def selectionRules (ctx : Context) : SelectionRules :=
  ⟨ctx.filter, Templater.on, ctx.extraVars, ctx.inherit⟩

def listTasks (ctx : Context) (path : String) (playbook : Playbook) (showSkipped : Bool) :
    Console Unit := do
  let plays ← playbook.select ctx.selectionRules
  ctx.say (ctx.title ("playbook: " ++ path))
  plays.forM fun play => ctx.say (play.lines ctx.color showSkipped (1 ≤ ctx.verbosity))
  ctx.say (ctx.info (toString (selectedCount plays) ++ " tasks selected, " ++
    toString (skippedCount plays) ++ " skipped"))
  ctx.conclude (ctx.listedTasks plays)

def readPlaybook (env : Environment) (path : String) : Except Error Playbook := do
  let text ← (env.files path).read.mapError (Error.playbookFile path)
  match Yaml.Value.parse? text with
  | none => .error (.playbookFile path .malformed)
  | some v => Playbook.ofValue v

def execute (env : Environment) (ctx : Context) : Command → Console Unit
  | .check args => ctx.check args
  | .listTags path => do ctx.listTags path (← readPlaybook env path)
  | .listTasks path showSkipped => do ctx.listTasks path (← readPlaybook env path) showSkipped

end Context

def errorLine (env : Environment) (inv : Invocation) (e : Error) : String :=
  if inv.json then
    (Json.obj [("message", .str (env.report e)), ("type", .str "error")]).compact ++ "\n"
  else
    Text.paint (allowsColor env && !inv.noColor) .boldRed "ERROR:" ++ " " ++ env.report e ++ "\n"

/-- The settings of an invocation and what there is to say about them. Only settings that are asked
for must load; in the place of others that do not, the defaults count. -/
def settingsOf (env : Environment) (inv : Invocation) : Except Error (Settings × String) :=
  match Settings.load env inv.config with
  | .ok settings => .ok (settings, "")
  | .error e =>
    if inv.config.isSome then .error e
    else
      let notice :=
        if 1 ≤ inv.verbose then "Warning: Failed to load config: " ++ env.report e ++ "\n" else ""
      .ok (Settings.default, notice)

/-- The file that log lines go to: with more words asked for, they go to the terminal. -/
def logFileOf (inv : Invocation) (settings : Settings) : Option String :=
  if inv.verbose = 0 then settings.logFile else none

def logNotice (env : Environment) (inv : Invocation) (settings : Settings) : String :=
  match (logFileOf inv settings).filter fun path => !env.canAppend path with
  | some path => "Warning: Failed to initialize logging: Failed to open log file: " ++ path ++ "\n"
  | none => ""

def banner (inv : Invocation) : String :=
  if 2 ≤ inv.verbose then programName ++ " v" ++ programVersion ++ "\n" else ""

/-- The program of an invocation, up to the error that it may end with. Log lines are left out:
those that go to the terminal are not among the error output here, and the file that the others go
to is taken to be neither the standard output nor a file that the invocation reads. -/
def Invocation.program (env : Environment) (inv : Invocation) : Console Unit := do
  let (settings, notice) ← settingsOf env inv
  Console.printError notice
  Console.printError (logNotice env inv settings)
  Console.printError (banner inv)
  let ctx ← Context.make env inv settings
  ctx.execute env inv.command

def Invocation.run (env : Environment) (inv : Invocation) : Outcome :=
  match (inv.program env).start with
  | (.ok (), printed) => ⟨0, printed.stdout, printed.stderr⟩
  | (.error e, printed) => ⟨e.exitCode, printed.stdout, printed.stderr ++ errorLine env inv e⟩

def usage : String :=
  "Usage: rustible-tags [OPTIONS] <list-tasks PLAYBOOK | list-tags PLAYBOOK | check [TAG]...>\n"

def Stop.outcome : Stop → Outcome
  | .misuse => ⟨2, "", usage⟩
  | .help => ⟨0, usage, ""⟩
  | .version command =>
    let name := String.intercalate "-" (programName :: command.toList)
    ⟨0, name ++ " " ++ programVersion ++ "\n", ""⟩

def run (env : Environment) (args : List String) : Outcome :=
  match Invocation.parse args with
  | .error stop => stop.outcome
  | .ok inv => inv.run env

end TaskTags.CommandLine
