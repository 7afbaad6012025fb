import TaskTags.Proofs.Except
import TaskTags.Proofs.Settings.Key

/-!
# Precedence of settings

Each setting is decided on its own: by its variable, else by the last file that gives it, else by
its default. Settings load if all files that exist are layers and the verbosity so decided is in its
range.
-/

namespace TaskTags

variable {β : Type}

namespace SettingKey

/-- The value that a variable gives, if it can be read. -/
def ofVariable? (env : Environment) : SettingKey β → Option β
  | run => (env.value? "RUSTIBLE_TAGS_RUN").map Text.commaPieces
  | skip => (env.value? "RUSTIBLE_TAGS_SKIP").map Text.commaPieces
  | verbosity => (env.value? "RUSTIBLE_VERBOSITY").bind verbosityOf?
  | logLevel => (env.value? "RUSTIBLE_LOG_LEVEL").bind fun s => (LogLevel.parse s).toOption
  | color => if env.isSet "NO_COLOR" then some false else none
  | inherit | diff | logFormat | logFile => none

def inFile? (key : SettingKey β) (env : Environment) (path : String) : Option β :=
  match env.files path with
  | .file text => key.inText? (SettingsLayer.extensionOf path) text
  | _ => none

def default? : SettingKey β → Option β
  | run | skip => some []
  | inherit => some true
  | verbosity => some 0
  | diff => some false
  | color => some true
  | logLevel => some .warn
  | logFormat => some .compact
  | logFile => none

/-- The value that counts. -/
def final? (key : SettingKey β) (env : Environment) (explicit : Option String) : Option β :=
  (key.ofVariable? env).or
    (((Settings.paths env explicit).filterMap (key.inFile? env)).getLast?.or key.default?)

theorem final?_of_variable {key : SettingKey β} {env : Environment} {explicit : Option String}
    {value : β} (h : key.ofVariable? env = some value) :
    key.final? env explicit = some value := by
  rw [final?, h, Option.some_or]

/-- A file that is asked for is the only one. -/
theorem final?_explicit (key : SettingKey β) (env : Environment) (path : String) :
    key.final? env (some path)
      = (key.ofVariable? env).or ((key.inFile? env path).or key.default?) := by
  rw [final?, Settings.paths, List.filterMap_cons, List.filterMap_nil]
  cases key.inFile? env path <;> rfl

/-- If no file is asked for, the file that a variable names comes first, then those of the project,
of the user and of the system. -/
theorem final?_implicit (key : SettingKey β) (env : Environment) :
    key.final? env none
      = (key.ofVariable? env).or
          (((env.value? "RUSTIBLE_TAGS_CONFIG").bind (key.inFile? env)).or
            ((key.inFile? env "rustible-tags.cfg").or
              ((env.homeDirectory?.bind fun home =>
                  key.inFile? env (Settings.joinPath home ".rustible-tags.cfg")).or
                ((key.inFile? env "/etc/rustible/rustible-tags.cfg").or key.default?)))) := by
  have hsingle : ∀ path, ([path].filterMap (key.inFile? env)).getLast? = key.inFile? env path := by
    intro path
    cases hvalue : key.inFile? env path <;> simp [hvalue]
  have hoption : ∀ path? : Option String,
      (path?.toList.filterMap (key.inFile? env)).getLast? = path?.bind (key.inFile? env) := by
    rintro (_ | path)
    · rfl
    · exact hsingle path
  simp only [final?, Settings.paths, List.filterMap_append, List.getLast?_append, hsingle, hoption,
    Option.bind_map, Option.or_assoc]
  rfl

end SettingKey

namespace Settings

/-- Whether every file that exists can be read and is a layer in its format. -/
def Readable (env : Environment) (explicit : Option String) : Prop :=
  ∀ path ∈ paths env explicit, (env.files path).isPresent = true → ∃ text layer,
    env.files path = .file text ∧
      SettingsLayer.parse? (SettingsLayer.extensionOf path) text = some layer

/-- Whether the verbosity that counts is one. -/
def InRange (env : Environment) (explicit : Option String) : Prop :=
  ∃ level, SettingKey.verbosity.final? env explicit = some level ∧ level ≤ 4

variable {s t : Settings} {env : Environment} {explicit : Option String}

theorem get?_override (s : Settings) (layer : SettingsLayer) (key : SettingKey β) :
    (s.override layer).get? key = (layer.get? key).or (s.get? key) := by
  have hgetD : ∀ {γ : Type} (value : Option γ) (d : γ),
      some (value.getD d) = value.or (some d) := by
    intro γ value d
    cases value <;> rfl
  cases key with
  | run => exact hgetD layer.run s.run
  | skip => exact hgetD layer.skip s.skip
  | inherit => exact hgetD layer.inherit s.inherit
  | verbosity => exact hgetD layer.verbosity s.verbosity
  | diff => exact hgetD layer.diff s.diff
  | color => exact hgetD layer.color s.color
  | logLevel => exact hgetD layer.logLevel s.logLevel
  | logFormat => exact hgetD layer.logFormat s.logFormat
  | logFile => rfl

/-- Of several layers the last one that gives a setting decides it. -/
theorem get?_foldl_override (s : Settings) (layers : List SettingsLayer) (key : SettingKey β) :
    (layers.foldl override s).get? key
      = (layers.filterMap (·.get? key)).getLast?.or (s.get? key) := by
  induction layers generalizing s with
  | nil => rfl
  | cons layer rest ih =>
      -- The first layer counts where no later one gives the setting.
      rw [List.foldl_cons, ih, get?_override, ← Option.or_assoc, List.filterMap_cons]
      cases layer.get? key with
      | none => rw [Option.or_none]
      | some value =>
          rw [List.getLast?_cons]
          cases (rest.filterMap (·.get? key)).getLast? <;> rfl

theorem get?_default (key : SettingKey β) : default.get? key = key.default? := by
  cases key <;> rfl

theorem get?_ofVariables (env : Environment) (key : SettingKey β) :
    (SettingsLayer.ofVariables env).get? key = key.ofVariable? env := by
  cases key <;> rfl

theorem check_eq_ok_iff : s.check = .ok t ↔ s.verbosity ≤ 4 ∧ t = s := by
  rw [check]
  by_cases hrange : s.verbosity ≤ Variable.maxVerbosity
  · rw [if_pos hrange, Except.ok.injEq]
    exact ⟨fun h => ⟨hrange, h.symm⟩, fun h => h.2.symm⟩
  · rw [if_neg hrange]
    exact ⟨nofun, fun h => absurd h.1 hrange⟩

/-! ## Files -/

theorem ofFile_eq_ok_iff {path : String} {layer : SettingsLayer} :
    SettingsLayer.ofFile env path = .ok layer ↔ ∃ text, env.files path = .file text ∧
      SettingsLayer.parse? (SettingsLayer.extensionOf path) text = some layer := by
  rw [SettingsLayer.ofFile]
  cases hfile : env.files path with
  | file text =>
      have hread : (PathState.file text).read.mapError (Error.file .settings path) = .ok text := rfl
      rw [hread, Except.ok_bind]
      cases hlayer : SettingsLayer.parse? (SettingsLayer.extensionOf path) text <;>
        simp [hlayer]
  | missing => simp [PathState.read, Except.mapError]
  | blocked => simp [PathState.read, Except.mapError]
  | directory => simp [PathState.read, Except.mapError]
  | unreadable reason => simp [PathState.read, Except.mapError]

theorem ofFile_error {path : String} {e : Error} (h : SettingsLayer.ofFile env path = .error e) :
    ∃ fault, e = .file .settings path fault := by
  rw [SettingsLayer.ofFile] at h
  cases hread : (env.files path).read with
  | error fault =>
      rw [hread] at h
      exact ⟨fault, (Except.error.inj h).symm⟩
  | ok text =>
      have hmapped : (Except.ok text : Except FileFault String).mapError (Error.file .settings path)
          = .ok text := rfl
      rw [hread, hmapped, Except.ok_bind] at h
      cases hparse : SettingsLayer.parse? (SettingsLayer.extensionOf path) text with
      | some layer =>
          rw [hparse] at h
          cases h
      | none =>
          rw [hparse] at h
          exact ⟨.malformed, (Except.error.inj h).symm⟩

theorem get?_of_ofFile {path : String} {layer : SettingsLayer}
    (h : SettingsLayer.ofFile env path = .ok layer) (key : SettingKey β) :
    layer.get? key = key.inFile? env path := by
  obtain ⟨text, hfile, hlayer⟩ := ofFile_eq_ok_iff.mp h
  rw [SettingKey.inFile?, hfile]
  exact SettingsLayer.get?_of_parse? hlayer key

theorem inFile?_of_not_present {path : String} (h : (env.files path).isPresent = false)
    (key : SettingKey β) : key.inFile? env path = none := by
  rw [SettingKey.inFile?]
  cases hfile : env.files path <;> simp_all [PathState.isPresent]

/-- The layers of files give a setting as often and in the order in which the files do. -/
theorem filterMap_inFile? {ps : List String} {layers : List SettingsLayer}
    (h : (ps.filter fun path => (env.files path).isPresent).mapM (SettingsLayer.ofFile env)
      = .ok layers) (key : SettingKey β) :
    ps.filterMap (key.inFile? env) = layers.filterMap (·.get? key) := by
  induction ps generalizing layers with
  | nil =>
      obtain rfl : layers = [] := (Except.ok.inj h).symm
      rfl
  | cons path rest ih =>
      cases hpresent : (env.files path).isPresent with
      | false =>
          rw [List.filter_cons_of_neg (by simp [hpresent])] at h
          rw [List.filterMap_cons_none (inFile?_of_not_present hpresent key), ih h]
      | true =>
          rw [List.filter_cons_of_pos (by simp [hpresent]), List.mapM_cons] at h
          obtain ⟨layer, hlayer, hrest⟩ := Except.bind_eq_ok_iff.mp h
          obtain ⟨layers', hlayers', heq⟩ := Except.bind_eq_ok_iff.mp hrest
          obtain rfl : layer :: layers' = layers := Except.ok.inj heq
          rw [List.filterMap_cons, List.filterMap_cons, ← get?_of_ofFile hlayer key, ih hlayers']

theorem readable_iff :
    Readable env explicit ↔ ∃ layers, fileLayers env explicit = .ok layers := by
  rw [fileLayers, Except.mapM_succeeds_iff, Readable]
  constructor
  · intro h path hpath
    obtain ⟨hmem, hpresent⟩ := List.mem_filter.mp hpath
    obtain ⟨text, layer, hfile, hlayer⟩ := h path hmem hpresent
    exact ⟨layer, ofFile_eq_ok_iff.mpr ⟨text, hfile, hlayer⟩⟩
  · intro h path hmem hpresent
    obtain ⟨layer, hlayer⟩ := h path (List.mem_filter.mpr ⟨hmem, hpresent⟩)
    obtain ⟨text, hfile, hparse⟩ := ofFile_eq_ok_iff.mp hlayer
    exact ⟨text, layer, hfile, hparse⟩

/-! ## Loading -/

theorem readable_of_load (h : load env explicit = .ok s) : Readable env explicit := by
  obtain ⟨layers, hlayers, -⟩ := Except.bind_eq_ok_iff.mp h
  exact readable_iff.mpr ⟨layers, hlayers⟩

/-- With all files read, what is checked has the value that counts of every setting. -/
theorem exists_load_eq_check (h : Readable env explicit) :
    ∃ s : Settings, load env explicit = s.check ∧
      ∀ (β : Type) (key : SettingKey β), s.get? key = key.final? env explicit := by
  obtain ⟨layers, hlayers⟩ := readable_iff.mp h
  refine ⟨(layers.foldl override default).override (.ofVariables env), ?_, ?_⟩
  · rw [load, hlayers]
    rfl
  · intro β key
    rw [get?_override, get?_ofVariables, get?_foldl_override, get?_default, SettingKey.final?,
      filterMap_inFile? hlayers key]

theorem load_eq_ok_iff :
    load env explicit = .ok s ↔ Readable env explicit ∧ s.verbosity ≤ 4 ∧
      ∀ (β : Type) (key : SettingKey β), s.get? key = key.final? env explicit := by
  constructor
  · intro h
    obtain ⟨t, hload, hfinal⟩ := exists_load_eq_check (readable_of_load h)
    obtain ⟨hrange, rfl⟩ := check_eq_ok_iff.mp (hload.symm.trans h)
    exact ⟨readable_of_load h, hrange, hfinal⟩
  · rintro ⟨hreadable, hrange, hvalues⟩
    obtain ⟨t, hload, hfinal⟩ := exists_load_eq_check hreadable
    obtain rfl : s = t := eq_of_get? fun β key => (hvalues β key).trans (hfinal β key).symm
    exact hload.trans (check_eq_ok_iff.mpr ⟨hrange, rfl⟩)

theorem load_succeeds_iff :
    (∃ s, load env explicit = .ok s) ↔ Readable env explicit ∧ InRange env explicit := by
  constructor
  · rintro ⟨s, hload⟩
    obtain ⟨hreadable, hrange, hfinal⟩ := load_eq_ok_iff.mp hload
    exact ⟨hreadable, s.verbosity, (hfinal Nat .verbosity).symm, hrange⟩
  · rintro ⟨hreadable, level, hlevel, hrange⟩
    obtain ⟨s, hload, hfinal⟩ := exists_load_eq_check hreadable
    have hverbosity : s.verbosity = level := Option.some.inj ((hfinal Nat .verbosity).trans hlevel)
    exact ⟨s, hload.trans (check_eq_ok_iff.mpr ⟨hverbosity ▸ hrange, rfl⟩)⟩

/-- Settings fail for a file, or, with all files read, for the verbosity that counts. -/
theorem load_error_cases {e : Error} (h : load env explicit = .error e) :
    (¬ Readable env explicit ∧ ∃ path ∈ paths env explicit, ∃ fault,
      e = .file .settings path fault) ∨
    (Readable env explicit ∧ ∃ level, SettingKey.verbosity.final? env explicit = some level ∧
      4 < level ∧ e = .setting (.verbosity level)) := by
  by_cases hreadable : Readable env explicit
  · right
    obtain ⟨s, hload, hfinal⟩ := exists_load_eq_check hreadable
    rw [hload, check] at h
    by_cases hrange : s.verbosity ≤ Variable.maxVerbosity
    · rw [if_pos hrange] at h
      cases h
    · rw [if_neg hrange] at h
      exact ⟨hreadable, s.verbosity, (hfinal Nat .verbosity).symm, Nat.lt_of_not_le hrange,
        (Except.error.inj h).symm⟩
  · left
    refine ⟨hreadable, ?_⟩
    cases hlayers : fileLayers env explicit with
    | ok layers => exact absurd (readable_iff.mpr ⟨layers, hlayers⟩) hreadable
    | error e' =>
        rw [load, hlayers, Except.error_bind] at h
        obtain rfl := Except.error.inj h
        obtain ⟨before, path, after, hpaths, hfile, -⟩ := Except.mapM_eq_error_iff.mp hlayers
        have hmem : path ∈ (paths env explicit).filter fun path => (env.files path).isPresent := by
          rw [hpaths]
          exact List.mem_append_right before List.mem_cons_self
        exact ⟨path, List.mem_of_mem_filter hmem, ofFile_error hfile⟩

/-- A file that is asked for may be missing, but is a layer if it exists. -/
theorem load_explicit_iff {path : String} :
    load env (some path) = .ok s ↔ s.verbosity ≤ 4 ∧
      if (env.files path).isPresent then
        ∃ text, env.files path = .file text ∧
          (SettingsLayer.parse? (SettingsLayer.extensionOf path) text).isSome ∧
          ∀ (β : Type) (key : SettingKey β), s.get? key = (key.ofVariable? env).or
            ((key.inText? (SettingsLayer.extensionOf path) text).or key.default?)
      else
        ∀ (β : Type) (key : SettingKey β), s.get? key = (key.ofVariable? env).or key.default? := by
  rw [load_eq_ok_iff, Readable, paths, List.forall_mem_singleton]
  simp only [SettingKey.final?_explicit]
  cases hpresent : (env.files path).isPresent with
  | false =>
      simp only [inFile?_of_not_present hpresent, Option.none_or]
      simp
  | true =>
      simp only [SettingKey.inFile?]
      constructor
      · rintro ⟨hread, hrange, hvalues⟩
        obtain ⟨text, layer, hfile, hlayer⟩ := hread trivial
        simp only [hfile] at hvalues
        exact ⟨hrange, text, hfile, by rw [hlayer]; rfl, hvalues⟩
      · rintro ⟨hrange, text, hfile, hparse, hvalues⟩
        obtain ⟨layer, hlayer⟩ := Option.isSome_iff_exists.mp hparse
        simp only [hfile]
        exact ⟨fun _ => ⟨text, layer, rfl, hlayer⟩, hrange, hvalues⟩

/-- Settings load exactly if all files that exist are layers and the verbosity that counts is in its
range, and then every setting has the value that counts. -/
theorem load_decides_each_setting (env : Environment) (explicit : Option String) :
    ((∃ s, load env explicit = .ok s) ↔ Readable env explicit ∧
        ∃ level, SettingKey.verbosity.final? env explicit = some level ∧ level ≤ 4) ∧
      ∀ s, load env explicit = .ok s →
        ∀ (β : Type) (key : SettingKey β), s.get? key = key.final? env explicit := by
  constructor
  · exact load_succeeds_iff
  · intro s hload
    exact (load_eq_ok_iff.mp hload).2.2

/-- The file of the user is under that of a variable, which puts its verbosity right and restores a
default. -/
example :
    let files : String → PathState
      | "/home/.rustible-tags.cfg" => .file "[tags]\ninherit = false\n[output]\nverbosity = 9\n"
      | "site.json" =>
        .file "\x7b\"tags\": \x7b\"inherit\": true\x7d, \"output\": \x7b\"verbosity\": 2\x7d\x7d"
      | _ => .missing
    let vars := [("RUSTIBLE_TAGS_CONFIG", "site.json")]
    load ⟨vars, files, fun _ => true, some "/home", false, fun _ => ""⟩ none
      = .ok { default with verbosity := 2 } := by
  decide +kernel

end Settings
end TaskTags
