import TaskTags.Proofs.CommandLine.Output
import TaskTags.Proofs.Playbook.Painted

/-!
# Runs with and without colors

A command prints the same with colors and without them, apart from codes and from the status of
selected tasks. Whatever switches colors leaves the rest of what a command works with alone.
-/

namespace TaskTags

open Text

namespace ValueDiff

/-- A line of a difference, with the style that it has in colors. -/
def styledLine : Diff.Mark × String → Option Style × String
  | (.same, line) => (none, " " ++ line)
  | (.deleted, line) => (some .red, "-" ++ line)
  | (.inserted, line) => (some .green, "+" ++ line)

def styledLines (d : ValueDiff) : List (Option Style × String) :=
  [(some .red, "--- before"), (some .green, "+++ after")] ++
    d.hunks.flatMap fun hunk => (none, hunk.header) :: hunk.lines.map styledLine

def paintLine (color : Bool) : Option Style × String → String
  | (some style, line) => Text.paint color style line
  | (none, line) => line

theorem diffLines_eq (d : ValueDiff) (color : Bool) :
    d.diffLines color = d.styledLines.map (paintLine color) := by
  have hline : markedLine color = paintLine color ∘ styledLine := by
    funext marked
    obtain ⟨_ | _ | _, line⟩ := marked <;> rfl
  rw [diffLines, styledLines, List.map_append, List.map_flatMap, hline]
  simp only [List.map_cons, List.map_map]
  rfl

theorem repaints_render (d : ValueDiff) : Repaints 0 (d.render false) (d.render true) := by
  have hline : ∀ line ∈ d.styledLines,
      Repaints 0 (paintLine false line ++ "\n") (paintLine true line ++ "\n") := by
    rintro ⟨_ | style, line⟩ -
    · exact .of_separates line (by decide)
    · exact .paint style line (by decide)
  have hrender : ∀ color,
      d.render color = String.join (d.styledLines.map (paintLine color · ++ "\n")) := by
    intro color
    rw [render, diffLines_eq, List.map_map]
    rfl
  have hcount : d.styledLines.countP (fun _ => false) = 0 :=
    List.countP_eq_zero.mpr fun _ _ => Bool.false_ne_true
  rw [hrender, hrender, ← hcount]
  exact .join hline

end ValueDiff

namespace CommandLine

open Console (Does)

/-! ## Programs -/

/-- Two programs that succeed and print alike but for colors, the second one in colors. -/
def Alike (n : Nat) (p q : Console Unit) : Prop :=
  ∃ more more', Does p (.ok ()) more ∧ Does q (.ok ()) more' ∧ Repaints n more.stdout more'.stdout

namespace Alike

variable {m n : Nat} {p q p' q' : Console Unit} {α β : Type} {s t : String}

theorem bind (h : Alike m p q) (h' : Alike n p' q') :
    Alike (m + n) (do p; p') (do q; q') := by
  obtain ⟨more, more', hp, hq, hrepaints⟩ := h
  obtain ⟨later, later', hp', hq', hrepaints'⟩ := h'
  exact ⟨more ++ later, more' ++ later', hp.bind hp', hq.bind hq', hrepaints.append hrepaints'⟩

theorem colors_bind (h : Alike 0 p q) (h' : Alike n p' q') : Alike n (do p; p') (do q; q') := by
  rw [← Nat.zero_add n]
  exact h.bind h'

theorem bind_colors (h : Alike n p q) (h' : Alike 0 p' q') : Alike n (do p; p') (do q; q') :=
  h.bind h'

/-- A list of steps, each with the parts of what it prints at which a blank is gone. -/
theorem forM {f g : α → Console Unit} {parts : α → List β} {xs : List α}
    (h : ∀ x ∈ xs, Alike (parts x).length (f x) (g x)) :
    Alike (xs.flatMap parts).length (xs.forM f) (xs.forM g) := by
  induction xs with
  | nil =>
      exact ⟨.empty, .empty, Console.does_pure (), Console.does_pure (), .empty⟩
  | cons x xs ih =>
      have hrest := ih fun y hy => h y (List.mem_cons_of_mem x hy)
      rw [List.flatMap_cons, List.length_append]
      exact (h x List.mem_cons_self).bind hrest

theorem print (h : Repaints n s t) : Alike n (Console.print s) (Console.print t) :=
  ⟨⟨s, ""⟩, ⟨t, ""⟩, Console.does_print s, Console.does_print t, h⟩

theorem printError (s t : String) : Alike 0 (Console.printError s) (Console.printError t) :=
  ⟨_, _, Console.does_printError s, Console.does_printError t, .empty⟩

end Alike

namespace Context

/-- The context with colors on or off, by the settings or past them. -/
def recolored (ctx : Context) (color setting : Bool) : Context :=
  { ctx with color, settings := { ctx.settings with color := setting } }

/-- The number of tasks that are shown as selected. -/
def shownRuns (env : Environment) (ctx : Context) : Command → Nat
  | .listTasks path true =>
    match readPlaybook env path >>= (·.select ctx.selectionRules) with
    | .ok plays => selectedCount plays
    | .error _ => 0
  | _ => 0

variable {env env' : Environment} {ctx : Context} {command : Command} {finding : Finding}
  {n : Nat} {s t : String}

theorem shownRuns_listTasks {path : String} {playbook : Playbook} {plays : List PlaySelection}
    (hread : readPlaybook env path = .ok playbook)
    (hselect : playbook.select ctx.selectionRules = .ok plays) (showSkipped : Bool) :
    ctx.shownRuns env (.listTasks path showSkipped)
      = if showSkipped then selectedCount plays else 0 := by
  cases showSkipped with
  | false => rfl
  | true => rw [shownRuns, hread, Except.ok_bind, hselect, if_pos rfl]

theorem alike_say (hjson : ctx.json = false) (setting : Bool) (h : Repaints n s t) :
    Alike n ((ctx.recolored false setting).say s) (ctx.say t) := by
  have hplain : (ctx.recolored false setting).json = false := hjson
  rw [say, say, if_neg (ne_true_of_eq_false hplain), if_neg (ne_true_of_eq_false hjson)]
  exact .print h

theorem repaints_info (hcolor : ctx.color = true) (setting : Bool) (message : String) :
    Repaints 0 ((ctx.recolored false setting).info message) (ctx.info message) := by
  have hinfo : ∀ ctx : Context, ctx.info message = if 1 ≤ ctx.verbosity then
      (Text.paint ctx.color .blue "INFO:" ++ " ") ++ (message ++ "\n") else "" := by
    intro ctx
    rw [info, ← String.append_assoc]
  have hlabel : Repaints 0 ("INFO:" ++ " ") (Text.paint true .blue "INFO:" ++ " ") :=
    .paint .blue "INFO:" (by decide)
  rw [hinfo, hinfo, hcolor]
  show Repaints 0 (if 1 ≤ ctx.verbosity then _ else _) _
  by_cases hverbose : 1 ≤ ctx.verbosity
  · rw [if_pos hverbose, if_pos hverbose]
    exact hlabel.colors_append (.of_separates message (by decide))
  · rw [if_neg hverbose, if_neg hverbose]
    exact .empty

theorem repaints_title (hcolor : ctx.color = true) (setting : Bool) (text : String) :
    Repaints 0 ((ctx.recolored false setting).title text) (ctx.title text) := by
  let dashes := "".pushn '-' text.utf8ByteSize
  have htitle : ∀ ctx : Context, ctx.title text
      = "\n" ++ ((Text.paint ctx.color .boldCyan text ++ "\n") ++
          (Text.paint ctx.color .cyan dashes ++ "\n")) := by
    intro ctx
    simp only [title, String.append_assoc, dashes]
  have htext : Repaints 0 (text ++ "\n") (Text.paint true .boldCyan text ++ "\n") :=
    .paint .boldCyan text (by decide)
  have hdashes : Repaints 0 (dashes ++ "\n") (Text.paint true .cyan dashes ++ "\n") :=
    .paint .cyan dashes (by decide)
  rw [htitle, htitle, hcolor]
  exact .colors_append (.of_not_mem (by decide)) (htext.colors_append hdashes)

/-- Of a report only the difference is printed in colors; warnings go elsewhere. -/
theorem alike_printReport (hcolor : ctx.color = true) (hjson : ctx.json = false) (setting : Bool)
    (report : Report) :
    Alike 0 ((ctx.recolored false setting).printReport report) (ctx.printReport report) := by
  have hplain : (ctx.recolored false setting).json = false := hjson
  have hoff : (ctx.recolored false setting).color = false := rfl
  have hdiff : Repaints 0 ((report.diff.map (·.render false)).getD "")
      ((report.diff.map (·.render true)).getD "") := by
    cases report.diff with
    | none => exact .empty
    | some d =>
        rw [Option.map_some, Option.map_some, Option.getD_some, Option.getD_some]
        exact d.repaints_render
  have hwarnings : Alike (report.diagnostics.warnings.flatMap fun _ => ([] : List Unit)).length
      (report.diagnostics.warnings.forM fun warning =>
        Console.printError ((ctx.recolored false setting).warningLine warning))
      (report.diagnostics.warnings.forM fun warning =>
        Console.printError (ctx.warningLine warning)) :=
    .forM fun warning _ => .printError _ _
  rw [List.flatMap_eq_nil_iff.mpr fun _ _ => rfl] at hwarnings
  rw [printReport, printReport, if_neg (ne_true_of_eq_false hplain),
    if_neg (ne_true_of_eq_false hjson), hcolor, hoff]
  exact (Alike.print hdiff).colors_bind hwarnings

theorem alike_conclude (hcolor : ctx.color = true) (hjson : ctx.json = false) (setting : Bool)
    (hsound : finding.Sound) :
    Alike 0 ((ctx.recolored false setting).conclude finding) (ctx.conclude finding) := by
  have hplain : (ctx.recolored false setting).assign finding.assigned
      = .ok (ctx.assignedStore finding.assigned) := assign_eq _ hsound
  have hreport : ∀ s, (ctx.recolored false setting).report s finding = ctx.report s finding :=
    fun _ => rfl
  rw [conclude, conclude, hplain, assign_eq ctx hsound, Console.lift_ok_bind, Console.lift_ok_bind,
    hreport]
  exact alike_printReport hcolor hjson setting _

/-- What a command finds without colors it finds in colors, and prints alike. -/
theorem alike_execute (hfiles : env'.files = env.files) (hcolor : ctx.color = true)
    (hjson : ctx.json = false) (setting : Bool) (hfinds : ctx.Finds env command finding) :
    Alike (ctx.shownRuns env command) ((ctx.recolored false setting).execute env' command)
      (ctx.execute env command) := by
  have hread : ∀ path, readPlaybook env' path = readPlaybook env path := by
    intro path
    rw [readPlaybook, readPlaybook, hfiles]
  have hconclude := alike_conclude hcolor hjson setting hfinds.sound
  cases hfinds with
  | check args =>
      have hanswer := Repaints.of_separates (answer (ctx.filter.runs (TagSet.ofValues args)))
        (t := "\n") (by decide)
      rw [execute, execute, check, check]
      apply (alike_say hjson setting hanswer).colors_bind
      apply (alike_say hjson setting (repaints_info hcolor setting _)).colors_bind
      exact hconclude
  | listTags read =>
      rw [execute, execute, hread, read, Console.lift_ok_bind, Console.lift_ok_bind, listTags,
        listTags]
      apply (alike_say hjson setting (repaints_title hcolor setting _)).colors_bind
      apply (alike_say hjson setting (.of_separates _ (by decide))).colors_bind
      exact hconclude
  | @listTasks path playbook plays showSkipped read selected =>
      have hcount : ctx.shownRuns env (.listTasks path showSkipped)
          = (plays.flatMap fun play => if showSkipped then play.selected else []).length := by
        rw [shownRuns_listTasks read selected]
        cases showSkipped with
        | false => simp
        | true => rfl
      have hplain : playbook.select (ctx.recolored false setting).selectionRules = .ok plays :=
        selected
      rw [execute, execute, hread, read, Console.lift_ok_bind, Console.lift_ok_bind, listTasks,
        listTasks, hplain, selected, Console.lift_ok_bind, Console.lift_ok_bind, hcount]
      apply (alike_say hjson setting (repaints_title hcolor setting _)).colors_bind
      apply Alike.bind_colors (.forM fun play _ => ?_)
      · apply (alike_say hjson setting (repaints_info hcolor setting _)).colors_bind
        exact hconclude
      · rw [hcolor]
        exact alike_say hjson setting (play.repaints_lines showSkipped _)

end Context

/-! ## Switching colors -/

def colorVariables : List String :=
  ["NO_COLOR", "CLICOLOR", "CLICOLOR_FORCE"]

/-- Two invocations that differ in what switches colors: a flag, some variables and the terminal. -/
structure SameButColors (env env' : Environment) (inv inv' : Invocation) : Prop where
  files : env'.files = env.files
  homeDirectory? : env'.homeDirectory? = env.homeDirectory?
  value? : ∀ name, name ∉ colorVariables → env'.value? name = env.value? name
  invocation : inv' = { inv with noColor := inv'.noColor }

namespace SameButColors

variable {env env' : Environment} {inv inv' : Invocation} {settings : Settings}
  {explicit : Option String} {notice : String} {ctx : Context} {args args' : List String}

theorem paths (h : SameButColors env env' inv inv') (explicit : Option String) :
    Settings.paths env' explicit = Settings.paths env explicit := by
  cases explicit with
  | some path => rfl
  | none =>
      rw [Settings.paths, Settings.paths, h.homeDirectory?,
        h.value? "RUSTIBLE_TAGS_CONFIG" (by decide)]

theorem fileLayers (h : SameButColors env env' inv inv') (explicit : Option String) :
    Settings.fileLayers env' explicit = Settings.fileLayers env explicit := by
  have hfile : SettingsLayer.ofFile env' = SettingsLayer.ofFile env := by
    funext path
    rw [SettingsLayer.ofFile, SettingsLayer.ofFile, h.files]
  rw [Settings.fileLayers, Settings.fileLayers, h.paths, hfile, h.files]

theorem ofVariables (h : SameButColors env env' inv inv') :
    SettingsLayer.ofVariables env'
      = { SettingsLayer.ofVariables env with
          color := (SettingsLayer.ofVariables env').color } := by
  simp only [SettingsLayer.ofVariables, h.value? "RUSTIBLE_TAGS_RUN" (by decide),
    h.value? "RUSTIBLE_TAGS_SKIP" (by decide), h.value? "RUSTIBLE_VERBOSITY" (by decide),
    h.value? "RUSTIBLE_LOG_LEVEL" (by decide)]

/-- Of settings that load only the one for colors can be another one. -/
theorem load (h : SameButColors env env' inv inv') (explicit : Option String) :
    ∃ setting, Settings.load env' explicit
      = (Settings.load env explicit).map fun s => { s with color := setting } := by
  rw [Settings.load, Settings.load, h.fileLayers]
  cases Settings.fileLayers env explicit with
  | error e => exact ⟨true, rfl⟩
  | ok layers =>
      let given := layers.foldl Settings.override Settings.default
      let setting := (SettingsLayer.ofVariables env').color.getD given.color
      have hsettings : given.override (.ofVariables env')
          = { given.override (.ofVariables env) with color := setting } := by
        rw [h.ofVariables]
        rfl
      have hcheck : ∀ s : Settings, ({ s with color := setting } : Settings).check
          = s.check.map fun s => { s with color := setting } := by
        intro s
        rw [Settings.check, Settings.check]
        split <;> rfl
      refine ⟨setting, ?_⟩
      rw [Except.ok_bind, Except.ok_bind, hsettings, hcheck]

theorem settingsOf (h : SameButColors env env' inv inv')
    (hsettings : settingsOf env inv = .ok (settings, notice)) :
    ∃ setting notice', CommandLine.settingsOf env' inv'
      = .ok ({ settings with color := setting }, notice') := by
  obtain ⟨setting, hload⟩ := h.load inv.config
  rw [h.invocation, CommandLine.settingsOf, hload]
  rw [CommandLine.settingsOf] at hsettings
  cases hcase : Settings.load env inv.config with
  | ok s =>
      rw [hcase] at hsettings
      obtain ⟨rfl, rfl⟩ := Prod.mk.inj (Except.ok.inj hsettings)
      exact ⟨setting, "", rfl⟩
  | error e =>
      -- The same error leaves the same choice: to fail, or to take the defaults.
      rw [hcase] at hsettings
      cases hconfig : inv.config with
      | some path =>
          rw [hconfig] at hsettings
          cases hsettings
      | none =>
          rw [hconfig] at hsettings
          obtain ⟨rfl, rfl⟩ := Prod.mk.inj (Except.ok.inj hsettings)
          exact ⟨Settings.default.color, _, rfl⟩

theorem extraVariables (h : SameButColors env env' inv inv') :
    extraVariables env' inv'.extraVars = extraVariables env inv.extraVars := by
  have hargument : variablesOfArgument env' = variablesOfArgument env := by
    funext arg
    simp only [variablesOfArgument, variablesOfFile, h.files]
  rw [h.invocation, CommandLine.extraVariables, CommandLine.extraVariables, hargument]

theorem make (h : SameButColors env env' inv inv')
    (hmake : Context.make env inv settings = .ok ctx) (setting : Bool) :
    ∃ color, Context.make env' inv' { settings with color := setting }
      = .ok (ctx.recolored color setting) := by
  obtain ⟨extraVars, hextra, hctx⟩ := Except.bind_eq_ok_iff.mp hmake
  obtain rfl := Except.ok.inj hctx
  refine ⟨allowsColor env' && !inv'.noColor && setting, ?_⟩
  rw [Context.make, h.extraVariables, hextra, Except.ok_bind, h.invocation]
  rfl

theorem reaches (h : SameButColors env env' inv inv') (hreaches : Reaches env args inv ctx)
    (hparse : Invocation.parse args' = .ok inv') :
    ∃ color setting, Reaches env' args' inv' (ctx.recolored color setting) := by
  obtain ⟨settings, notice, hsettings, hmake⟩ := hreaches.context
  obtain ⟨setting, notice', hsettings'⟩ := h.settingsOf hsettings
  obtain ⟨color, hmake'⟩ := h.make hmake setting
  exact ⟨color, setting, hparse, _, notice', hsettings', hmake'⟩

end SameButColors

variable {env env' : Environment} {args args' : List String} {inv inv' : Invocation}
  {ctx : Context}

/-- A run in colors that succeeds also does without colors. Without codes its output is that of the
other run but for the blank behind the status of each task that is shown as selected. -/
theorem colors_add_codes (hreaches : Reaches env args inv ctx) (hcolor : ctx.color = true)
    (hjson : inv.json = false) (hzero : (run env args).exitCode = 0)
    (hsame : SameButColors env env' inv inv') (hparse : Invocation.parse args' = .ok inv') :
    ∃ ctx', Reaches env' args' inv' ctx' ∧ (ctx'.color = false →
      (run env' args').exitCode = 0 ∧
      Unpadded (ctx.shownRuns env inv.command) (unstyled (run env' args').stdout)
        (unstyled (run env args).stdout) ∧
      (escape ∉ (run env' args').stdout.toList →
        (unstyled (run env args).stdout = (run env' args').stdout.toList ↔
          ctx.shownRuns env inv.command = 0))) := by
  obtain ⟨color, setting, hreaches'⟩ := hsame.reaches hreaches hparse
  refine ⟨_, hreaches', ?_⟩
  intro hplain
  obtain rfl : color = false := hplain
  obtain ⟨finding, hfinds⟩ := finds_of_run hreaches hzero
  have hjson' : ctx.json = false := hreaches.json.trans hjson
  obtain ⟨more, more', hdoes, hdoes', hrepaints⟩ :=
    Context.alike_execute hsame.files hcolor hjson' setting hfinds
  have hcommand : inv'.command = inv.command := by
    rw [hsame.invocation]
  rw [← hcommand] at hdoes
  obtain ⟨stderr', hrun'⟩ := run_of_execute hreaches' hdoes
  obtain ⟨stderr, hrun⟩ := run_of_execute hreaches hdoes'
  rw [hrun, hrun']
  refine ⟨rfl, hrepaints.unpadded, ?_⟩
  intro hplain
  rw [← unstyled_of_not_mem hplain]
  exact hrepaints.unpadded.eq_iff

/-- A terminal, and a play with two tasks. -/
def terminalSite : Environment :=
  (FileTree.ofList [("site.yml",
    "- name: site\n  tasks:\n    - name: a\n      tags: [web]\n    - name: b\n      tags: [db]\n")]
    ).environment [] true

/-- Arguments that select one of the tasks and show the other one as skipped. -/
def statusArgs : List String :=
  ["--tags", "web", "list-tasks", "--show-skipped", "site.yml"]

def plainStatus : String :=
  "\nplaybook: site.yml\n------------------\n\nPLAY [site] " ++
    String.ofList (List.replicate 68 '*') ++
    "\n  [run ] a\tTAGS: [web]\n  [skip] b\tTAGS: [db]\n"

def paintedStatus : String :=
  "\n\x1b[1;36mplaybook: site.yml\x1b[0m\n\x1b[36m------------------\x1b[0m\n\n" ++
    "\x1b[1;97mPLAY [site]\x1b[0m \x1b[90m" ++ String.ofList (List.replicate 68 '*') ++
    "\x1b[0m\n  [\x1b[32mrun\x1b[0m] a\tTAGS: [\x1b[33mweb\x1b[0m]\n" ++
    "  [\x1b[36mskip\x1b[0m] b\tTAGS: [\x1b[33mdb\x1b[0m]\n"

theorem run_terminalSite :
    run terminalSite ("--no-color" :: statusArgs) = ⟨0, plainStatus, ""⟩ ∧
      run terminalSite statusArgs = ⟨0, paintedStatus, ""⟩ := by
  decide +kernel

theorem reaches_terminalSite :
    ∃ inv inv' ctx ctx', Reaches terminalSite statusArgs inv ctx ∧
      Reaches terminalSite ("--no-color" :: statusArgs) inv' ctx' ∧
      SameButColors terminalSite terminalSite inv inv' ∧ inv.json = false ∧
      ctx.color = true ∧ ctx'.color = false ∧ ctx.shownRuns terminalSite inv.command = 1 := by
  let inv : Invocation :=
    ⟨.listTasks "site.yml" true, ["web"], [], [], 0, false, false, false, none, false⟩
  let inv' : Invocation := { inv with noColor := true }
  have hparse : Invocation.parse statusArgs = .ok inv := by decide +kernel
  have hparse' : Invocation.parse ("--no-color" :: statusArgs) = .ok inv' := by decide +kernel
  have hload : Settings.load terminalSite none = .ok Settings.default := by decide +kernel
  have hsettings : settingsOf terminalSite inv = .ok (Settings.default, "") :=
    settingsOf_of_load hload
  have hsettings' : settingsOf terminalSite inv' = .ok (Settings.default, "") :=
    settingsOf_of_load hload
  refine ⟨inv, inv', _, _, ⟨hparse, _, _, hsettings, rfl⟩, ⟨hparse', _, _, hsettings', rfl⟩,
    ⟨rfl, rfl, fun _ _ => rfl, rfl⟩, rfl, ?_, ?_, ?_⟩
  · decide +kernel
  · decide +kernel
  · decide +kernel

theorem colors_add_codes_terminalSite :
    Unpadded 1 (unstyled (run terminalSite ("--no-color" :: statusArgs)).stdout)
      (unstyled (run terminalSite statusArgs).stdout) := by
  obtain ⟨inv, inv', ctx, ctx', hreaches, hreaches', hsame, hjson, hcolor, hplain, hcount⟩ :=
    reaches_terminalSite
  have hzero : (run terminalSite statusArgs).exitCode = 0 := by
    rw [run_terminalSite.2]
  obtain ⟨found, hfound, h⟩ :=
    colors_add_codes hreaches hcolor hjson hzero hsame hreaches'.parse
  obtain ⟨settings, notice, hsettings, hmake⟩ := hreaches'.context
  obtain rfl := hfound.eq_of_make hsettings hmake
  rw [← hcount]
  exact (h hplain).2.1

/-- Without codes the status in colors is not as wide as the plain one. -/
theorem unpadded_status_terminalSite :
    (∃ inv inv' ctx ctx', Reaches terminalSite statusArgs inv ctx ∧
      Reaches terminalSite ("--no-color" :: statusArgs) inv' ctx' ∧
      SameButColors terminalSite terminalSite inv inv' ∧ inv.json = false ∧
      ctx.color = true ∧ ctx'.color = false) ∧
    run terminalSite ("--no-color" :: statusArgs) = ⟨0, plainStatus, ""⟩ ∧
    run terminalSite statusArgs = ⟨0, paintedStatus, ""⟩ ∧
    escape ∉ plainStatus.toList ∧ unstyled paintedStatus ≠ plainStatus.toList := by
  obtain ⟨inv, inv', ctx, ctx', hreaches, hreaches', hsame, hjson, hcolor, hplain, -⟩ :=
    reaches_terminalSite
  refine ⟨⟨inv, inv', ctx, ctx', hreaches, hreaches', hsame, hjson, hcolor, hplain⟩,
    run_terminalSite.1, run_terminalSite.2, ?_, ?_⟩
  -- A text is compared by its characters, part by part.
  · unfold plainStatus
    simp only [String.toList_append, String.toList_ofList]
    decide +kernel
  · unfold plainStatus paintedStatus unstyled
    simp only [String.toList_append, String.toList_ofList]
    decide +kernel

end CommandLine
end TaskTags
