import TaskTags.Proofs.CommandLine.Readable
import TaskTags.Proofs.CommandLine.Reported
import TaskTags.Proofs.CommandLine.Settings

/-!
# What a command prints

A command fails before it prints anything, or it ends with a report. Where the report is JSON,
nothing else comes to the standard output.
-/

namespace TaskTags.CommandLine

namespace Context

variable {env : Environment} {ctx : Context} {command : Command} {finding : Finding}
  {p q : Console Unit}

/-- A step for readers only. -/
def Silent (ctx : Context) (p : Console Unit) : Prop :=
  ∃ more, p.Does (.ok ()) more ∧ (ctx.json = true → more.stdout = "")

/-- A program that ends with the report on a finding. -/
def Reports (ctx : Context) (p : Console Unit) (finding : Finding) : Prop :=
  ∃ s more, ctx.assign finding.assigned = .ok s ∧ p.Does (.ok ()) more ∧
    (ctx.json = true → more.stdout = (ctx.report s finding).toJson.pretty ++ "\n")

theorem silent_say (ctx : Context) (text : String) : ctx.Silent (ctx.say text) := by
  unfold Silent say
  by_cases hjson : ctx.json = true
  · rw [if_pos hjson]
    exact ⟨.empty, Console.does_pure (), fun _ => rfl⟩
  · rw [if_neg hjson]
    exact ⟨⟨text, ""⟩, Console.does_print text, fun h => absurd h hjson⟩

theorem silent_forM {α : Type} {xs : List α} {f : α → Console Unit}
    (h : ∀ x ∈ xs, ctx.Silent (f x)) : ctx.Silent (xs.forM f) := by
  apply Console.Does.forM _ ?_ ?_ h
  · exact fun _ => rfl
  · intro printed more hprinted hmore hjson
    rw [Printed.stdout_append, hprinted hjson, hmore hjson]
    rfl

theorem exists_does_printReport (ctx : Context) (report : Report) :
    ∃ more, (ctx.printReport report).Does (.ok ()) more ∧
      (ctx.json = true → more.stdout = report.toJson.pretty ++ "\n") := by
  unfold printReport
  by_cases hjson : ctx.json = true
  · rw [if_pos hjson]
    exact ⟨_, Console.does_print _, fun _ => rfl⟩
  · rw [if_neg hjson]
    have hwarn : ∀ warning ∈ report.diagnostics.warnings, ∃ more,
        (Console.printError (ctx.warningLine warning)).Does (.ok ()) more ∧ True :=
      fun warning _ => ⟨_, Console.does_printError _, trivial⟩
    obtain ⟨warned, hwarned, -⟩ :=
      Console.Does.forM (fun _ => True) trivial (fun _ _ _ _ => trivial) hwarn
    exact ⟨_, (Console.does_print _).bind hwarned, fun h => absurd h hjson⟩

theorem reports_conclude (hsound : finding.Sound) : ctx.Reports (ctx.conclude finding) finding := by
  have hassign := ctx.assign_eq hsound
  obtain ⟨more, hmore, hstdout⟩ :=
    ctx.exists_does_printReport (ctx.report (ctx.assignedStore finding.assigned) finding)
  refine ⟨_, more, hassign, ?_, hstdout⟩
  rwa [conclude, hassign, Console.lift_ok_bind]

theorem Silent.reports (hp : ctx.Silent p) (hq : ctx.Reports q finding) :
    ctx.Reports (do p; q) finding := by
  obtain ⟨said, hsaid, hsilent⟩ := hp
  obtain ⟨s, more, hassign, hmore, hreport⟩ := hq
  refine ⟨s, said ++ more, hassign, hsaid.bind hmore, ?_⟩
  intro hjson
  rw [Printed.stdout_append, hsilent hjson, hreport hjson, String.empty_append]

theorem reports_check (env : Environment) (ctx : Context) (args : List String) :
    ∃ finding, ctx.Finds env (.check args) finding ∧ ctx.Reports (ctx.check args) finding := by
  have hfinds : ctx.Finds env (.check args) _ := .check args
  refine ⟨_, hfinds, ?_⟩
  rw [check]
  apply (silent_say ctx _).reports
  apply (silent_say ctx _).reports
  exact reports_conclude hfinds.sound

theorem reports_listTags {path : String} {playbook : Playbook}
    (hread : readPlaybook env path = .ok playbook) :
    ctx.Reports (ctx.listTags path playbook) (listedTags playbook.collect) := by
  have hfinds : ctx.Finds env (.listTags path) _ := .listTags hread
  rw [listTags]
  apply (silent_say ctx _).reports
  apply (silent_say ctx _).reports
  exact reports_conclude hfinds.sound

theorem reports_listTasks {path : String} {playbook : Playbook} {plays : List PlaySelection}
    (showSkipped : Bool) (hread : readPlaybook env path = .ok playbook)
    (hselect : playbook.select ctx.selectionRules = .ok plays) :
    ctx.Reports (ctx.listTasks path playbook showSkipped) (ctx.listedTasks plays) := by
  have hfinds : ctx.Finds env (.listTasks path showSkipped) _ := .listTasks showSkipped hread hselect
  rw [listTasks, hselect, Console.lift_ok_bind]
  apply (silent_say ctx _).reports
  apply (silent_forM fun play _ => silent_say ctx _).reports
  apply (silent_say ctx _).reports
  exact reports_conclude hfinds.sound

/-- A command fails with nothing printed, or it ends with the report on what it finds. -/
theorem execute_cases (env : Environment) (ctx : Context) (command : Command) :
    (∃ e, (ctx.execute env command).Does (.error e) .empty) ∨
      ∃ finding, ctx.Finds env command finding ∧
        ctx.Reports (ctx.execute env command) finding := by
  cases command with
  | check args => exact .inr (reports_check env ctx args)
  | listTags path =>
      rw [execute]
      cases hread : readPlaybook env path with
      | error e => exact .inl ⟨e, (Console.does_lift _).bind_error⟩
      | ok playbook => exact .inr ⟨_, .listTags hread, reports_listTags hread⟩
  | listTasks path showSkipped =>
      rw [execute]
      cases hread : readPlaybook env path with
      | error e => exact .inl ⟨e, (Console.does_lift _).bind_error⟩
      | ok playbook =>
          cases hselect : playbook.select ctx.selectionRules with
          | error e =>
              have hfails : (ctx.listTasks path playbook showSkipped).Does (.error e) .empty := by
                rw [listTasks, hselect]
                exact (Console.does_lift _).bind_error
              exact .inl ⟨e, hfails⟩
          | ok plays =>
              exact .inr ⟨_, .listTasks showSkipped hread hselect,
                reports_listTasks showSkipped hread hselect⟩

end Context

/-! ## Runs -/

variable {env : Environment} {args : List String} {inv : Invocation} {ctx : Context}
  {finding : Finding}

theorem Reaches.json (h : Reaches env args inv ctx) : ctx.json = inv.json := by
  obtain ⟨settings, notice, -, hmake⟩ := h.context
  obtain ⟨extraVars, -, hctx⟩ := Except.bind_eq_ok_iff.mp hmake
  obtain rfl := Except.ok.inj hctx
  rfl

/-- Between its settings and its context an invocation prints notices, as errors. -/
theorem does_program {settings : Settings} {notice : String} {result : Except Error Unit}
    {more : Printed} (hsettings : settingsOf env inv = .ok (settings, notice))
    (h : Console.Does (liftM (Context.make env inv settings) >>= fun ctx =>
      ctx.execute env inv.command) result more) :
    (inv.program env).Does result
      (⟨"", notice ++ logNotice env inv settings ++ banner inv⟩ ++ more) := by
  have hprinted : Printed.mk "" (notice ++ logNotice env inv settings ++ banner inv) ++ more
      = ⟨"", notice⟩ ++ (⟨"", logNotice env inv settings⟩ ++ (⟨"", banner inv⟩ ++ more)) := by
    rw [← Printed.append_assoc, ← Printed.append_assoc]
    rfl
  rw [hprinted, Invocation.program, hsettings, Console.lift_ok_bind]
  apply (Console.does_printError notice).bind
  apply (Console.does_printError (logNotice env inv settings)).bind
  apply (Console.does_printError (banner inv)).bind
  exact h

theorem does_program_of_make {settings : Settings} {notice : String}
    {result : Except Error Unit} {more : Printed}
    (hsettings : settingsOf env inv = .ok (settings, notice))
    (hmake : Context.make env inv settings = .ok ctx)
    (h : (ctx.execute env inv.command).Does result more) :
    (inv.program env).Does result
      (⟨"", notice ++ logNotice env inv settings ++ banner inv⟩ ++ more) := by
  apply does_program hsettings
  rwa [hmake, Console.lift_ok_bind]

theorem run_of_does_error {e : Error} {printed : Printed} (hparse : Invocation.parse args = .ok inv)
    (h : (inv.program env).Does (.error e) printed) (hstdout : printed.stdout = "") :
    ∃ e stderr, run env args = ⟨Error.exitCode e, "", stderr⟩ := by
  refine ⟨e, printed.stderr ++ errorLine env inv e, ?_⟩
  rw [run, hparse]
  show inv.run env = _
  rw [Invocation.run_of_does h, hstdout]

/-- A run ends with the error of its command, behind the notices. -/
theorem run_of_execute_error {settings : Settings} {notice : String} {e : Error}
    (hparse : Invocation.parse args = .ok inv)
    (hsettings : settingsOf env inv = .ok (settings, notice))
    (hmake : Context.make env inv settings = .ok ctx)
    (h : (ctx.execute env inv.command).Does (.error e) .empty) :
    run env args = ⟨e.exitCode, "",
      notice ++ logNotice env inv settings ++ banner inv ++ errorLine env inv e⟩ := by
  rw [run, hparse]
  show inv.run env = _
  rw [Invocation.run_of_does (does_program_of_make hsettings hmake h), Printed.append_empty]

/-- What a command prints to the standard output is all that its run prints there. -/
theorem run_of_execute {more : Printed} (hreaches : Reaches env args inv ctx)
    (h : (ctx.execute env inv.command).Does (.ok ()) more) :
    ∃ stderr, run env args = ⟨0, more.stdout, stderr⟩ := by
  obtain ⟨settings, notice, hsettings, hmake⟩ := hreaches.context
  have hprogram := does_program_of_make hsettings hmake h
  refine ⟨notice ++ logNotice env inv settings ++ banner inv ++ more.stderr, ?_⟩
  rw [run, hreaches.parse]
  show inv.run env = _
  rw [Invocation.run_of_does hprogram]
  simp only [Printed.stdout_append, Printed.stderr_append, String.empty_append]

theorem run_of_reports (hreaches : Reaches env args inv ctx)
    (h : ctx.Reports (ctx.execute env inv.command) finding) :
    ∃ s stdout stderr, ctx.assign finding.assigned = .ok s ∧ run env args = ⟨0, stdout, stderr⟩ ∧
      (inv.json = true → stdout = (ctx.report s finding).toJson.pretty ++ "\n") := by
  obtain ⟨s, more, hassign, hends, hreport⟩ := h
  obtain ⟨stderr, hrun⟩ := run_of_execute hreaches hends
  refine ⟨s, more.stdout, stderr, hassign, hrun, ?_⟩
  rwa [← hreaches.json]

/-- A command line of a command fails with nothing printed, or it ends with a report. -/
theorem run_cases (env : Environment) (hparse : Invocation.parse args = .ok inv) :
    (∃ e stderr, run env args = ⟨Error.exitCode e, "", stderr⟩) ∨
      ∃ ctx finding s stdout stderr, Reaches env args inv ctx ∧
        ctx.Finds env inv.command finding ∧ ctx.assign finding.assigned = .ok s ∧
        run env args = ⟨0, stdout, stderr⟩ ∧
        (inv.json = true → stdout = (ctx.report s finding).toJson.pretty ++ "\n") := by
  -- The steps in front of the command may fail as well. By then only notices are printed.
  cases hsettings : settingsOf env inv with
  | error e =>
      left
      have hprogram : (inv.program env).Does (.error e) .empty := by
        rw [Invocation.program, hsettings]
        exact (Console.does_lift _).bind_error
      exact run_of_does_error hparse hprogram rfl
  | ok loaded =>
      obtain ⟨settings, notice⟩ := loaded
      cases hmake : Context.make env inv settings with
      | error e =>
          left
          have hfails : Console.Does (liftM (Context.make env inv settings) >>= fun ctx =>
              ctx.execute env inv.command) (.error e) .empty := by
            rw [hmake]
            exact (Console.does_lift _).bind_error
          exact run_of_does_error hparse (does_program hsettings hfails) rfl
      | ok ctx =>
          obtain ⟨e, hfails⟩ | ⟨finding, hfinds, hreports⟩ := ctx.execute_cases env inv.command
          · exact .inl ⟨e, _, run_of_execute_error hparse hsettings hmake hfails⟩
          · right
            have hreaches : Reaches env args inv ctx := ⟨hparse, settings, notice, hsettings, hmake⟩
            obtain ⟨s, stdout, stderr, hassign, hrun, hstdout⟩ := run_of_reports hreaches hreports
            exact ⟨ctx, finding, s, stdout, stderr, hreaches, hfinds, hassign, hrun, hstdout⟩

theorem finds_of_run (hreaches : Reaches env args inv ctx) (hzero : (run env args).exitCode = 0) :
    ∃ finding, ctx.Finds env inv.command finding := by
  obtain ⟨settings, notice, hsettings, hmake⟩ := hreaches.context
  obtain ⟨e, stderr, hrun⟩ | ⟨found, finding, -, -, -, hfound, hfinds, -⟩ :=
    run_cases env hreaches.parse
  · rw [hrun] at hzero
    exact absurd hzero (exitCode_ne_zero e)
  · obtain rfl := hfound.eq_of_make hsettings hmake
    exact ⟨finding, hfinds⟩

theorem report_of_run (hparse : Invocation.parse args = .ok inv)
    (hzero : (run env args).exitCode = 0) (hjson : inv.json = true) :
    ∃ ctx finding s, Reaches env args inv ctx ∧ ctx.Finds env inv.command finding ∧
      ctx.assign finding.assigned = .ok s ∧
      (run env args).stdout = (ctx.report s finding).toJson.pretty ++ "\n" := by
  obtain ⟨e, stderr, hrun⟩ | ⟨ctx, finding, s, stdout, stderr, hreaches, hfinds, hassign, hrun,
    hstdout⟩ := run_cases env hparse
  · rw [hrun] at hzero
    exact absurd hzero (exitCode_ne_zero e)
  · refine ⟨ctx, finding, s, hreaches, hfinds, hassign, ?_⟩
    rw [hrun]
    exact hstdout hjson

/-- The object that is printed is read again, unless a count in it is too large. -/
theorem parse?_report_line {command : Command} {s : VariableStore}
    (hfinds : ctx.Finds env command finding) (hassign : ctx.assign finding.assigned = .ok s)
    (hcounts : ∀ a ∈ finding.assigned, ∀ count, a.value = Json.ofNat count → count < 2 ^ 64) :
    Json.parse? ((ctx.report s finding).toJson.pretty ++ "\n")
      = some (ctx.report s finding).toJson := by
  have hvalues : ∀ a ∈ finding.assigned, Json.Readable (Json.maxDepth - 4) a.value :=
    fun a ha => (hfinds.readable hcounts a ha).mono (by decide)
  exact (Context.readable_report hfinds.sound hassign hvalues).parse?_line (by decide)

/-- A command line of a command that fails has printed nothing. One that does not, with the report
as JSON, has printed one object and the end of its line: the report on what the command finds, which
is read again if its counts have 64 bits. -/
theorem run_prints_report_or_nothing (hparse : Invocation.parse args = .ok inv) :
    ((run env args).exitCode ≠ 0 → (run env args).stdout = "") ∧
      ((run env args).exitCode = 0 → inv.json = true → ∃ ctx finding s,
        Reaches env args inv ctx ∧ ctx.Finds env inv.command finding ∧
        ctx.assign finding.assigned = .ok s ∧
        (run env args).stdout = (ctx.report s finding).toJson.pretty ++ "\n" ∧
        ((∀ a ∈ finding.assigned, ∀ count, a.value = Json.ofNat count → count < 2 ^ 64) →
          Json.parse? (run env args).stdout = some (ctx.report s finding).toJson)) := by
  constructor
  · intro hfails
    obtain ⟨e, stderr, hrun⟩ | ⟨ctx, finding, s, stdout, stderr, -, -, -, hrun, -⟩ :=
      run_cases env hparse
    · rw [hrun]
    · rw [hrun] at hfails
      exact absurd rfl hfails
  · intro hzero hjson
    obtain ⟨ctx, finding, s, hreaches, hfinds, hassign, hstdout⟩ := report_of_run hparse hzero hjson
    refine ⟨ctx, finding, s, hreaches, hfinds, hassign, hstdout, fun hcounts => ?_⟩
    rw [hstdout]
    exact parse?_report_line hfinds hassign hcounts

theorem run_prints_report_or_nothing_emptySystem :
    (run emptySystem ["list-tags", "site.yml"]).exitCode ≠ 0 ∧
      (run emptySystem ["list-tags", "site.yml"]).stdout = "" ∧
      ∃ report : Report,
        (run emptySystem ["--output", "json", "check", "web"]).stdout
          = report.toJson.pretty ++ "\n" ∧
        Json.parse? (run emptySystem ["--output", "json", "check", "web"]).stdout
          = some report.toJson := by
  have hmissing : Invocation.parse ["list-tags", "site.yml"]
      = .ok ⟨.listTags "site.yml", [], [], [], 0, false, false, false, none, false⟩ := by
    decide +kernel
  have hjson : Invocation.parse ["--output", "json", "check", "web"]
      = .ok ⟨.check ["web"], [], [], [], 0, false, false, true, none, false⟩ := by
    decide +kernel
  have hfails : (run emptySystem ["list-tags", "site.yml"]).exitCode ≠ 0 := by decide +kernel
  have hsucceeds : (run emptySystem ["--output", "json", "check", "web"]).exitCode = 0 := by
    decide +kernel
  refine ⟨hfails, (run_prints_report_or_nothing hmissing).1 hfails, ?_⟩
  obtain ⟨ctx, finding, s, -, hfinds, -, hstdout, hread⟩ :=
    (run_prints_report_or_nothing hjson).2 hsucceeds rfl
  refine ⟨ctx.report s finding, hstdout, hread ?_⟩
  intro a ha count hcount
  cases hfinds with
  | check args => obtain rfl | rfl := List.mem_pair.mp ha <;> cases hcount

end TaskTags.CommandLine
