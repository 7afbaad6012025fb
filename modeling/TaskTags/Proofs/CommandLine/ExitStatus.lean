import TaskTags.Proofs.CommandLine.Output
import TaskTags.Proofs.Playbook.Place

/-!
# Exit statuses

Settings that are asked for fail with a status of their own only where a file was read and a value
is out of its range; a file that cannot be read, or not as settings, has the common status. Playbooks
fail with the status of playbooks but for variables under keys that JSON cannot hold.
-/

namespace TaskTags

open Yaml (Value)

/-- Only variables under keys that JSON cannot hold have the common status. -/
theorem Place.exitCode_of_not_fits {place : Place} (hfits : place.fits = false) :
    place.error.exitCode = 4 ∨
      ∃ owner entries, place = .vars owner (.map entries) ∧ Value.entriesFitJson entries = false ∧
        place.error = .json := by
  cases place with
  | vars owner v =>
      cases v with
      | map entries => exact .inr ⟨owner, entries, rfl, hfits, rfl⟩
      | _ => exact .inl rfl
  | _ => exact .inl rfl

namespace CommandLine

variable {env : Environment} {args : List String} {inv : Invocation} {path : String} {e : Error}

theorem errorLine_plain (hjson : inv.json = false) (hpiped : env.isTerminal = false) :
    errorLine env inv e = "ERROR: " ++ e.report ++ env.remark e ++ "\n" := by
  have hplain : (allowsColor env && !inv.noColor) = false := by
    rw [allowsColor, hpiped, Bool.false_and, Bool.false_and, Bool.false_and]
  have hlabel : "ERROR:" ++ " " = "ERROR: " := by decide
  rw [errorLine, if_neg (ne_true_of_eq_false hjson), hplain, Text.paint, if_neg Bool.false_ne_true,
    hlabel, Environment.report, ← String.append_assoc]

/-- Settings that are asked for and do not load end the run with nothing printed but an error. The
status is 1 where the file is there and cannot be read as settings, whatever is wrong with it, and 5
where the verbosity that counts in the end is out of its range. -/
theorem status_of_failed_settings (hparse : Invocation.parse args = .ok inv)
    (hconfig : inv.config = some path) (hload : Settings.load env (some path) = .error e) :
    run env args = ⟨e.exitCode, "", errorLine env inv e⟩ ∧
      ((¬ Settings.Readable env (some path) ∧ (∃ fault, e = .file .settings path fault) ∧
          e.exitCode = 1) ∨
        (Settings.Readable env (some path) ∧
          (∃ level, SettingKey.verbosity.final? env (some path) = some level ∧ 4 < level ∧
            e = .setting (.verbosity level)) ∧
          e.exitCode = 5)) := by
  refine ⟨run_of_load_error hparse hconfig hload, ?_⟩
  obtain ⟨hreadable, path', hmem, fault, rfl⟩ | ⟨hreadable, level, hfinal, hrange, rfl⟩ :=
    Settings.load_error_cases hload
  · obtain rfl := List.mem_singleton.mp hmem
    exact .inl ⟨hreadable, ⟨fault, rfl⟩, rfl⟩
  · exact .inr ⟨hreadable, ⟨level, hfinal, hrange, rfl⟩, rfl⟩

def loudSystem : Environment :=
  (FileTree.ofList [("loud.toml", "[output]\nverbosity = 300\n")]).environment [] false

theorem load_loudSystem :
    (∃ inv, Invocation.parse ["--config", "loud.toml", "check", "web"] = .ok inv ∧
      inv.config = some "loud.toml" ∧ inv.json = false) ∧
    Settings.load loudSystem (some "loud.toml")
      = .error (.file .settings "loud.toml" .malformed) := by
  have hparse : Invocation.parse ["--config", "loud.toml", "check", "web"] = .ok
      ⟨.check ["web"], [], [], [], 0, false, false, false, some "loud.toml", false⟩ := by
    decide +kernel
  refine ⟨⟨_, hparse, rfl, rfl⟩, ?_⟩
  decide +kernel

theorem status_of_failed_settings_loudSystem :
    ¬ Settings.Readable loudSystem (some "loud.toml") ∧
      (run loudSystem ["--config", "loud.toml", "check", "web"]).exitCode = 1 := by
  obtain ⟨⟨inv, hparse, hconfig, -⟩, hload⟩ := load_loudSystem
  obtain ⟨hrun, ⟨hreadable, -, hstatus⟩ | ⟨-, ⟨level, -, -, hlevel⟩, -⟩⟩ :=
    status_of_failed_settings hparse hconfig hload
  · rw [hrun]
    exact ⟨hreadable, hstatus⟩
  · cases hlevel

/-- A verbosity out of range does not have the status of settings: it is refused as the file is
read, whatever the reader says of it. -/
theorem common_status_loudSystem :
    (∃ inv, Invocation.parse ["--config", "loud.toml", "check", "web"] = .ok inv ∧
      inv.config = some "loud.toml") ∧
    (∃ e, Settings.load loudSystem (some "loud.toml") = .error e) ∧
    ∀ remark, run { loudSystem with remark } ["--config", "loud.toml", "check", "web"]
      = ⟨1, "", "ERROR: Failed to parse config file: loud.toml" ++
          remark (.file .settings "loud.toml" .malformed) ++ "\n"⟩ := by
  obtain ⟨⟨inv, hparse, hconfig, hjson⟩, hload⟩ := load_loudSystem
  refine ⟨⟨inv, hparse, hconfig⟩, ⟨_, hload⟩, fun remark => ?_⟩
  have hload' : Settings.load { loudSystem with remark } (some "loud.toml")
      = .error (.file .settings "loud.toml" .malformed) := hload
  rw [run_of_load_error hparse hconfig hload', errorLine_plain hjson rfl]
  rfl

/-! ## Playbooks -/

namespace Context

theorem readPlaybook_of_file {text : String} (hfile : env.files path = .file text) :
    readPlaybook env path = match Value.parse? text with
      | none => .error (.playbookFile path .malformed)
      | some v => Playbook.ofValue v := by
  rw [readPlaybook, hfile]
  rfl

theorem readPlaybook_error_cases (h : readPlaybook env path = .error e) :
    (∃ fault, e = .playbookFile path fault) ∨
      ∃ text v, env.files path = .file text ∧ Value.parse? text = some v ∧
        Playbook.ofValue v = .error e := by
  cases hfile : env.files path with
  | file text =>
      rw [readPlaybook_of_file hfile] at h
      cases hparse : Value.parse? text with
      | none =>
          rw [hparse] at h
          exact .inl ⟨.malformed, (Except.error.inj h).symm⟩
      | some v =>
          rw [hparse] at h
          exact .inr ⟨text, v, rfl, hparse, h⟩
  | _ =>
      rw [readPlaybook, hfile] at h
      exact .inl ⟨_, (Except.error.inj h).symm⟩

end Context

/-- A playbook that does not load has the status 4, whether its file is not read, its text is not
YAML or a place of the document does not fit. It has the status 1 exactly if the first place that
does not fit holds variables under keys that JSON cannot hold. -/
theorem status_of_failed_playbook (h : Context.readPlaybook env path = .error e) :
    (e.exitCode = 4 ∨ e.exitCode = 1) ∧
      (e.exitCode = 1 ↔ ∃ text v before owner entries after, env.files path = .file text ∧
        Value.parse? text = some v ∧
        Playbook.places v = before ++ .vars owner (.map entries) :: after ∧
        Value.entriesFitJson entries = false ∧ ∀ earlier ∈ before, earlier.fits = true) := by
  constructor
  · obtain ⟨fault, rfl⟩ | ⟨text, v, -, -, hvalue⟩ := Context.readPlaybook_error_cases h
    · exact .inl rfl
    · obtain ⟨before, place, after, -, hfits, rfl, -⟩ := (Playbook.checks v).fails_iff.mp hvalue
      obtain hfour | ⟨owner, entries, -, -, hjson⟩ := Place.exitCode_of_not_fits hfits
      · exact .inl hfour
      · exact .inr (congrArg Error.exitCode hjson)
  constructor
  · intro hone
    obtain ⟨fault, rfl⟩ | ⟨text, v, hfile, hparse, hvalue⟩ := Context.readPlaybook_error_cases h
    · cases hone
    · obtain ⟨before, place, after, hplaces, hfits, rfl, hbefore⟩ :=
        (Playbook.checks v).fails_iff.mp hvalue
      obtain hfour | ⟨owner, entries, rfl, hkeys, -⟩ := Place.exitCode_of_not_fits hfits
      · rw [hfour] at hone
        cases hone
      · exact ⟨text, v, before, owner, entries, after, hfile, hparse, hplaces, hkeys, hbefore⟩
  · rintro ⟨text, v, before, owner, entries, after, hfile, hparse, hplaces, hkeys, hbefore⟩
    have hvalue : Playbook.ofValue v = .error .json :=
      (Playbook.checks v).fails_iff.mpr ⟨before, _, after, hplaces, hkeys, rfl, hbefore⟩
    rw [Context.readPlaybook_of_file hfile, hparse] at h
    obtain rfl := Except.error.inj (hvalue.symm.trans h)
    rfl

/-- Variables of a play under a list as their key. -/
def keyedSystem : Environment :=
  (FileTree.ofList [("keyed.yml", "- vars:\n    ? [a]\n    : 1\n")]).environment [] false

theorem readPlaybook_keyedSystem :
    Context.readPlaybook keyedSystem "keyed.yml" = .error .json := by
  rw [← Except.error?_eq_some_iff]
  decide +kernel

theorem status_of_failed_playbook_keyedSystem :
    ∃ text v before owner entries after, keyedSystem.files "keyed.yml" = .file text ∧
      Value.parse? text = some v ∧
      Playbook.places v = before ++ .vars owner (.map entries) :: after ∧
      Value.entriesFitJson entries = false ∧ ∀ earlier ∈ before, earlier.fits = true :=
  (status_of_failed_playbook readPlaybook_keyedSystem).2.mp rfl

/-- The error of a playbook may have the common status, and so does the run, whatever is said of
the error. -/
theorem common_status_keyedSystem :
    (∃ e, Context.readPlaybook keyedSystem "keyed.yml" = .error e ∧ e.exitCode = 1) ∧
      ∀ remark, run { keyedSystem with remark } ["list-tags", "keyed.yml"]
        = ⟨1, "", "ERROR: JSON parse error" ++ remark .json ++ "\n"⟩ := by
  refine ⟨⟨.json, readPlaybook_keyedSystem, rfl⟩, fun remark => ?_⟩
  let env : Environment := { keyedSystem with remark }
  let inv : Invocation := ⟨.listTags "keyed.yml", [], [], [], 0, false, false, false, none, false⟩
  have hparse : Invocation.parse ["list-tags", "keyed.yml"] = .ok inv := by decide +kernel
  have hload : Settings.load keyedSystem none = .ok Settings.default := by decide +kernel
  have hsettings : settingsOf env inv = .ok (Settings.default, "") := settingsOf_of_load hload
  have hread : Context.readPlaybook env "keyed.yml" = .error .json := readPlaybook_keyedSystem
  obtain ⟨ctx, hmake⟩ : ∃ ctx, Context.make env inv Settings.default = .ok ctx := ⟨_, rfl⟩
  have hfails : (ctx.execute env inv.command).Does (.error .json) .empty := by
    rw [Context.execute, hread]
    exact (Console.does_lift _).bind_error
  have hrun := run_of_execute_error hparse hsettings hmake hfails
  rw [errorLine_plain rfl rfl] at hrun
  exact hrun

end CommandLine
end TaskTags
