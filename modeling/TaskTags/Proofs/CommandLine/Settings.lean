import TaskTags.CommandLine.Run
import TaskTags.FileTree
import TaskTags.Proofs.CommandLine.Console
import TaskTags.Proofs.Settings.Precedence
import TaskTags.Proofs.Text.Pieces

/-!
# The settings of a command

A command that is reached without a file of its own works with the settings that load, or with the
defaults where they do not. With a file of its own it works with the settings of that file alone.
-/

namespace TaskTags.CommandLine

/-- A command line leads to a command, which works with a context. -/
structure Reaches (env : Environment) (args : List String) (inv : Invocation) (ctx : Context) :
    Prop where
  parse : Invocation.parse args = .ok inv
  context : ∃ settings notice, settingsOf env inv = .ok (settings, notice) ∧
    Context.make env inv settings = .ok ctx

variable {env : Environment} {args : List String} {inv : Invocation} {ctx : Context}
  {settings : Settings} {notice : String}

theorem Context.of_make (h : Context.make env inv settings = .ok ctx) :
    ctx.settings = settings ∧ ctx.filter = Context.filterOf inv settings := by
  obtain ⟨extraVars, -, hctx⟩ := Except.bind_eq_ok_iff.mp h
  obtain rfl := Except.ok.inj hctx
  exact ⟨rfl, rfl⟩

/-- Only extra variables can keep settings from a command. -/
theorem exists_reaches (hparse : Invocation.parse args = .ok inv)
    (hsettings : settingsOf env inv = .ok (settings, notice)) (hextra : inv.extraVars = []) :
    ∃ ctx, Reaches env args inv ctx ∧ ctx.settings = settings ∧
      ctx.filter = Context.filterOf inv settings := by
  have hvars : extraVariables env inv.extraVars = .ok [] := by
    rw [hextra]
    rfl
  have hmake : ∃ ctx, Context.make env inv settings = .ok ctx := by
    rw [Context.make, hvars]
    exact ⟨_, rfl⟩
  obtain ⟨ctx, hctx⟩ := hmake
  exact ⟨ctx, ⟨hparse, settings, notice, hsettings, hctx⟩, Context.of_make hctx⟩

theorem Reaches.eq_of_make {found : Context} (h : Reaches env args inv found)
    (hsettings : settingsOf env inv = .ok (settings, notice))
    (hmake : Context.make env inv settings = .ok ctx) : found = ctx := by
  obtain ⟨settings', notice', hsettings', hmake'⟩ := h.context
  obtain ⟨rfl, -⟩ := Prod.mk.inj (Except.ok.inj (hsettings.symm.trans hsettings'))
  exact Except.ok.inj (hmake'.symm.trans hmake)

/-- What an invocation leaves behind is what its program prints, and the error that it ends with. -/
theorem Invocation.run_of_does {result : Except Error Unit} {printed : Printed} :
    (inv.program env).Does result printed → inv.run env = match result with
      | .ok () => ⟨0, printed.stdout, printed.stderr⟩
      | .error e => ⟨e.exitCode, printed.stdout, printed.stderr ++ errorLine env inv e⟩ := by
  intro h
  rw [Invocation.run, h.start]
  cases result <;> rfl

/-! ## Settings that are not asked for -/

theorem settingsOf_of_load (h : Settings.load env inv.config = .ok settings) :
    settingsOf env inv = .ok (settings, "") := by
  rw [settingsOf, h]

/-- In the place of settings that do not load, and are not asked for, the defaults count. -/
theorem eq_default_of_load_error {e : Error} (hconfig : inv.config = none)
    (hload : Settings.load env none = .error e) (h : settingsOf env inv = .ok (settings, notice)) :
    settings = Settings.default := by
  rw [settingsOf, hconfig, hload] at h
  exact (Prod.mk.inj (Except.ok.inj h)).1.symm

theorem settings_of_reaches (h : Reaches env args inv ctx) (hconfig : inv.config = none) :
    ctx.filter = Context.filterOf inv ctx.settings ∧
      ((Settings.Readable env none ∧ Settings.InRange env none →
          ∀ (β : Type) (key : SettingKey β), ctx.settings.get? key = key.final? env none) ∧
        (¬ (Settings.Readable env none ∧ Settings.InRange env none) →
          ctx.settings = Settings.default)) := by
  obtain ⟨settings, notice, hsettings, hmake⟩ := h.context
  obtain ⟨rfl, hfilter⟩ := Context.of_make hmake
  refine ⟨hfilter, fun hloads => ?_, fun hfails => ?_⟩
  · obtain ⟨s, hload⟩ := Settings.load_succeeds_iff.mpr hloads
    rw [settingsOf_of_load (hconfig ▸ hload)] at hsettings
    obtain rfl := (Prod.mk.inj (Except.ok.inj hsettings)).1
    exact (Settings.load_eq_ok_iff.mp hload).2.2
  · cases hload : Settings.load env none with
    | ok s => exact absurd (Settings.load_succeeds_iff.mp ⟨s, hload⟩) hfails
    | error e => exact eq_default_of_load_error hconfig hload hsettings

/-- A filter that only a variable gives is the one in effect, whatever files give, as long as the
settings load. Where they do not, no filter is in effect but that of the command line. -/
theorem filter_of_variables (h : Reaches env args inv ctx) (hconfig : inv.config = none) :
    (Settings.Readable env none ∧ Settings.InRange env none →
      (inv.skipTags = [] → ∀ s, env.value? "RUSTIBLE_TAGS_SKIP" = some s →
        ctx.filter.skip = TagSet.ofValues [s]) ∧
      (inv.tags = [] → ∀ r, env.value? "RUSTIBLE_TAGS_RUN" = some r →
        ctx.filter.only = TagSet.ofValues [r])) ∧
    (¬ (Settings.Readable env none ∧ Settings.InRange env none) →
      (inv.skipTags = [] → ctx.filter.skip = ∅) ∧ (inv.tags = [] → ctx.filter.only = ∅)) := by
  obtain ⟨hfilter, hfinal, hdefault⟩ := settings_of_reaches h hconfig
  have hskip : inv.skipTags = [] → ctx.filter.skip = TagSet.ofValues ctx.settings.skip := by
    intro hnone
    rw [hfilter, Context.filterOf, hnone]
    rfl
  have honly : inv.tags = [] → ctx.filter.only = TagSet.ofValues ctx.settings.run := by
    intro hnone
    rw [hfilter, Context.filterOf, hnone]
    rfl
  constructor
  · intro hloads
    constructor
    · intro hnone s hvariable
      have hgiven : SettingKey.skip.ofVariable? env = some (Text.commaPieces s) := by
        rw [SettingKey.ofVariable?, hvariable, Option.map_some]
      have hvalue := (hfinal hloads _ .skip).trans (SettingKey.final?_of_variable hgiven)
      rw [hskip hnone, Option.some.inj hvalue, TagSet.ofValues_commaPieces]
    · intro hnone r hvariable
      have hgiven : SettingKey.run.ofVariable? env = some (Text.commaPieces r) := by
        rw [SettingKey.ofVariable?, hvariable, Option.map_some]
      have hvalue := (hfinal hloads _ .run).trans (SettingKey.final?_of_variable hgiven)
      rw [honly hnone, Option.some.inj hvalue, TagSet.ofValues_commaPieces]
  · intro hfails
    rw [hdefault hfails] at hskip honly
    exact ⟨hskip, honly⟩

def filteredProject : Environment :=
  (FileTree.ofList [("rustible-tags.cfg", "[tags]\nrun = [\"db\"]\nskip = [\"never\"]\n")]).environment
    [("RUSTIBLE_TAGS_SKIP", "slow, ,db"), ("RUSTIBLE_TAGS_RUN", "web")] false

theorem filter_of_variables_filteredProject :
    ∃ inv ctx, Reaches filteredProject ["check", "web"] inv ctx ∧ inv.config = none ∧
      inv.skipTags = [] ∧ inv.tags = [] ∧ ctx.filter.skip = TagSet.ofValues ["slow, ,db"] ∧
      ctx.filter.only = TagSet.ofValues ["web"] := by
  let inv : Invocation := ⟨.check ["web"], [], [], [], 0, false, false, false, none, false⟩
  let settings := { Settings.default with run := ["web"], skip := ["slow", "db"] }
  have hparse : Invocation.parse ["check", "web"] = .ok inv := by decide +kernel
  have hload : Settings.load filteredProject none = .ok settings := by decide +kernel
  obtain ⟨ctx, hreaches, -⟩ := exists_reaches hparse (settingsOf_of_load hload) rfl
  have hloads := Settings.load_succeeds_iff.mp ⟨settings, hload⟩
  have hfilter := (filter_of_variables hreaches rfl).1 hloads
  exact ⟨inv, ctx, hreaches, rfl, rfl, rfl, hfilter.1 rfl "slow, ,db" (by decide +kernel),
    hfilter.2 rfl "web" (by decide +kernel)⟩

/-- No file, a variable for the tags to skip, and one for a verbosity out of its range. -/
def verboseSystem : Environment :=
  (FileTree.ofList []).environment [("RUSTIBLE_TAGS_SKIP", "slow"), ("RUSTIBLE_VERBOSITY", "9")]
    false

/-- A variable alone does not give the filter in effect: another variable can keep the settings from
loading. -/
theorem filter_lost_verboseSystem :
    verboseSystem.value? "RUSTIBLE_TAGS_SKIP" = some "slow" ∧
      (∃ inv ctx, Reaches verboseSystem ["check", "slow"] inv ctx ∧ inv.config = none ∧
        inv.skipTags = [] ∧ ctx.filter.skip ≠ TagSet.ofValues ["slow"]) ∧
      run verboseSystem ["check", "slow"] = ⟨0, "run\n", ""⟩ := by
  let inv : Invocation := ⟨.check ["slow"], [], [], [], 0, false, false, false, none, false⟩
  have hparse : Invocation.parse ["check", "slow"] = .ok inv := by decide +kernel
  have hsettings : settingsOf verboseSystem inv = .ok (Settings.default, "") := by decide +kernel
  obtain ⟨ctx, hreaches, -, hfilter⟩ := exists_reaches hparse hsettings rfl
  refine ⟨by decide +kernel, ⟨inv, ctx, hreaches, rfl, rfl, ?_⟩, by decide +kernel⟩
  rw [hfilter]
  decide +kernel

/-! ## Settings that are asked for -/

def emptySystem : Environment :=
  (FileTree.ofList []).environment [] false

theorem exitCode_ne_zero (e : Error) : e.exitCode ≠ 0 := by
  cases e <;> simp [Error.exitCode]

theorem load_of_reaches {path : String} (h : Reaches env args inv ctx)
    (hconfig : inv.config = some path) :
    Settings.load env (some path) = .ok ctx.settings := by
  obtain ⟨settings, notice, hsettings, hmake⟩ := h.context
  obtain ⟨rfl, -⟩ := Context.of_make hmake
  cases hload : Settings.load env (some path) with
  | ok s =>
      rw [settingsOf_of_load (hconfig ▸ hload)] at hsettings
      rw [(Prod.mk.inj (Except.ok.inj hsettings)).1]
  | error e =>
      rw [settingsOf, hconfig, hload] at hsettings
      cases hsettings

theorem run_of_load_error {path : String} {e : Error} (hparse : Invocation.parse args = .ok inv)
    (hconfig : inv.config = some path) (hload : Settings.load env (some path) = .error e) :
    run env args = ⟨e.exitCode, "", errorLine env inv e⟩ := by
  have hsettings : settingsOf env inv = .error e := by
    rw [settingsOf, hconfig, hload]
    rfl
  have hprogram : (inv.program env).Does (.error e) .empty := by
    rw [Invocation.program, hsettings]
    exact (Console.does_lift _).bind_error
  have hrun : run env args = inv.run env := by
    rw [run, hparse]
  rw [hrun, Invocation.run_of_does hprogram]
  exact congrArg (Outcome.mk _ _) (String.empty_append)

/-- A file that is asked for decides alone over the settings, under the variables. If it exists it
must be a layer, and a command is reached with no other settings. Where there is none, the variables
and the defaults count. -/
theorem explicit_file_decides (env : Environment) (path : String) :
    (∀ s, Settings.load env (some path) = .ok s ↔ s.verbosity ≤ 4 ∧
      if (env.files path).isPresent then
        ∃ text, env.files path = .file text ∧
          (SettingsLayer.parse? (SettingsLayer.extensionOf path) text).isSome ∧
          ∀ (β : Type) (key : SettingKey β), s.get? key = (key.ofVariable? env).or
            ((key.inText? (SettingsLayer.extensionOf path) text).or key.default?)
      else
        ∀ (β : Type) (key : SettingKey β), s.get? key = (key.ofVariable? env).or key.default?) ∧
    ∀ args inv, Invocation.parse args = .ok inv → inv.config = some path →
      (∀ ctx, Reaches env args inv ctx → Settings.load env (some path) = .ok ctx.settings) ∧
      ∀ e, Settings.load env (some path) = .error e →
        (run env args).exitCode ≠ 0 ∧ (run env args).stdout = "" := by
  constructor
  · intro s
    exact Settings.load_explicit_iff
  · intro args inv hparse hconfig
    constructor
    · intro ctx hreaches
      exact load_of_reaches hreaches hconfig
    · intro e hload
      rw [run_of_load_error hparse hconfig hload]
      exact ⟨exitCode_ne_zero e, rfl⟩

/-- What is asked for need not exist: without a file the defaults load, and a command runs on
them. -/
theorem load_missing_file :
    (emptySystem.files "missing.toml").isPresent = false ∧
      Settings.load emptySystem (some "missing.toml") = .ok Settings.default ∧
      run emptySystem ["--config", "missing.toml", "check", "web"] = ⟨0, "run\n", ""⟩ := by
  decide +kernel

end TaskTags.CommandLine
