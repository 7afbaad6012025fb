import TaskTags.Settings.Load

/-!
# Settings one by one

A layer holds of each setting what its document gives: the value of the key, unless the key is left
out or null.
-/

namespace TaskTags

/-- The keys of the settings, each with the type of its values. -/
inductive SettingKey : Type → Type 1
  | run : SettingKey (List String)
  | skip : SettingKey (List String)
  | inherit : SettingKey Bool
  | verbosity : SettingKey Nat
  | diff : SettingKey Bool
  | color : SettingKey Bool
  | logLevel : SettingKey LogLevel
  | logFormat : SettingKey LogFormat
  | logFile : SettingKey String

variable {α β : Type}

namespace SettingKey

def «section» : SettingKey β → String
  | run | skip | inherit => "tags"
  | verbosity | diff | color => "output"
  | logLevel | logFormat | logFile => "logging"

def name : SettingKey β → String
  | run => "run"
  | skip => "skip"
  | inherit => "inherit"
  | verbosity => "verbosity"
  | diff => "diff"
  | color => "color"
  | logLevel => "level"
  | logFormat => "format"
  | logFile => "file"

/-- The names of the keys of a section, in the order of their values where these are a list. -/
def siblings : SettingKey β → List String
  | run | skip | inherit => ["run", "skip", "inherit"]
  | verbosity | diff | color => ["verbosity", "diff", "color"]
  | logLevel | logFormat | logFile => ["level", "format", "file"]

def read (reader : ValueReader α) : SettingKey β → α → Option β
  | run, v | skip, v => reader.texts? v
  | inherit, v | diff, v | color, v => reader.bool? v
  | verbosity, v => reader.byte? v
  | logLevel, v => reader.constant? v >>= LogLevel.ofName?
  | logFormat, v => reader.constant? v >>= LogFormat.ofName?
  | logFile, v => reader.text? v

/-- The value that a document gives, if it is not null. -/
def inDocument? (key : SettingKey β) (reader : ValueReader α) (root : α) : Option β := do
  let sections ← reader.members? ["tags", "output", "logging"] root
  let members ← reader.members? key.siblings (← sections.lookup key.section)
  let v ← members.lookup key.name
  if reader.isNull v then none else key.read reader v

def inYaml? (key : SettingKey β) (text : String) : Option β := do
  let document ← Yaml.Document.parse? text
  key.inDocument? (Yaml.Node.settingsReader document.anchors) (← document.root)

def inJson? (key : SettingKey β) (text : String) : Option β := do
  key.inDocument? Json.settingsReader (← Json.parse? text)

def inToml? (key : SettingKey β) (text : String) : Option β := do
  key.inDocument? Toml.settingsReader (.table .headed (← Toml.parse? text))

/-- The value that a text gives, in the format of its ending. Any other ending stands for TOML, or
for YAML where the text is no layer in TOML. -/
def inText? (key : SettingKey β) (ending text : String) : Option β :=
  if ending = "yml" ∨ ending = "yaml" then key.inYaml? text
  else if ending = "json" then key.inJson? text
  else if ending = "toml" ∨ (SettingsLayer.ofToml? text).isSome then key.inToml? text
  else key.inYaml? text

end SettingKey

def SettingsLayer.get? (layer : SettingsLayer) : SettingKey β → Option β
  | .run => layer.run
  | .skip => layer.skip
  | .inherit => layer.inherit
  | .verbosity => layer.verbosity
  | .diff => layer.diff
  | .color => layer.color
  | .logLevel => layer.logLevel
  | .logFormat => layer.logFormat
  | .logFile => layer.logFile

/-- Only the file of log lines may have no value. -/
def Settings.get? (s : Settings) : SettingKey β → Option β
  | .run => some s.run
  | .skip => some s.skip
  | .inherit => some s.inherit
  | .verbosity => some s.verbosity
  | .diff => some s.diff
  | .color => some s.color
  | .logLevel => some s.logLevel
  | .logFormat => some s.logFormat
  | .logFile => s.logFile

theorem Settings.eq_of_get? {s t : Settings}
    (h : ∀ (β : Type) (key : SettingKey β), s.get? key = t.get? key) : s = t := by
  have hrun : s.run = t.run := Option.some.inj (h _ .run)
  have hskip : s.skip = t.skip := Option.some.inj (h _ .skip)
  have hinherit : s.inherit = t.inherit := Option.some.inj (h _ .inherit)
  have hverbosity : s.verbosity = t.verbosity := Option.some.inj (h _ .verbosity)
  have hdiff : s.diff = t.diff := Option.some.inj (h _ .diff)
  have hcolor : s.color = t.color := Option.some.inj (h _ .color)
  have hlevel : s.logLevel = t.logLevel := Option.some.inj (h _ .logLevel)
  have hformat : s.logFormat = t.logFormat := Option.some.inj (h _ .logFormat)
  have hfile : s.logFile = t.logFile := h _ .logFile
  cases s
  cases t
  simp_all

/-! ## Layers and their documents -/

section Document

variable {reader : ValueReader α}

/-- A setting that is read has the value of its key, if the section and the key are there and the
value is not null. -/
theorem ValueReader.setting_eq {sections members : List (String × α)} {sectionName name : String}
    {keys : List String} {decode : α → Option β} {value : Option β}
    (hmembers : reader.section? keys (sections.lookup sectionName) = some members)
    (hvalue : reader.setting? decode members name = some value) :
    value = (do
      let members ← reader.members? keys (← sections.lookup sectionName)
      let v ← members.lookup name
      if reader.isNull v then none else decode v) := by
  have hlookup : value = (members.lookup name).bind fun v =>
      if reader.isNull v then none else decode v := by
    rw [setting?] at hvalue
    cases hv : members.lookup name with
    | none =>
        rw [hv] at hvalue
        exact (Option.some.inj hvalue).symm
    | some v =>
        simp only [hv] at hvalue
        rw [Option.bind_some]
        by_cases hnull : reader.isNull v = true
        · rw [if_pos hnull] at hvalue ⊢
          exact (Option.some.inj hvalue).symm
        · rw [if_neg hnull] at hvalue ⊢
          obtain ⟨w, hw, rfl⟩ := Option.map_eq_some_iff.mp hvalue
          exact hw.symm
  cases hsection : sections.lookup sectionName with
  | none =>
      rw [hsection, section?] at hmembers
      rw [hlookup, ← Option.some.inj hmembers]
      rfl
  | some v =>
      rw [hsection, section?] at hmembers
      rw [hlookup]
      simp [hmembers]

/-- A layer holds what its document gives. -/
theorem SettingsLayer.get?_of_layer? {root : α} {layer : SettingsLayer}
    (h : reader.layer? root = some layer) (key : SettingKey β) :
    layer.get? key = key.inDocument? reader root := by
  obtain ⟨sections, hsections, h⟩ := Option.bind_eq_some_iff.mp h
  obtain ⟨tags, htags, h⟩ := Option.bind_eq_some_iff.mp h
  obtain ⟨output, houtput, h⟩ := Option.bind_eq_some_iff.mp h
  obtain ⟨logging, hlogging, h⟩ := Option.bind_eq_some_iff.mp h
  obtain ⟨run, hrun, h⟩ := Option.bind_eq_some_iff.mp h
  obtain ⟨skip, hskip, h⟩ := Option.bind_eq_some_iff.mp h
  obtain ⟨inherit, hinherit, h⟩ := Option.bind_eq_some_iff.mp h
  obtain ⟨verbosity, hverbosity, h⟩ := Option.bind_eq_some_iff.mp h
  obtain ⟨diff, hdiff, h⟩ := Option.bind_eq_some_iff.mp h
  obtain ⟨color, hcolor, h⟩ := Option.bind_eq_some_iff.mp h
  obtain ⟨level, hlevel, h⟩ := Option.bind_eq_some_iff.mp h
  obtain ⟨format, hformat, h⟩ := Option.bind_eq_some_iff.mp h
  obtain ⟨file, hfile, h⟩ := Option.bind_eq_some_iff.mp h
  obtain rfl := Option.some.inj h
  rw [SettingKey.inDocument?, hsections]
  cases key with
  | run => exact ValueReader.setting_eq htags hrun
  | skip => exact ValueReader.setting_eq htags hskip
  | inherit => exact ValueReader.setting_eq htags hinherit
  | verbosity => exact ValueReader.setting_eq houtput hverbosity
  | diff => exact ValueReader.setting_eq houtput hdiff
  | color => exact ValueReader.setting_eq houtput hcolor
  | logLevel => exact ValueReader.setting_eq hlogging hlevel
  | logFormat => exact ValueReader.setting_eq hlogging hformat
  | logFile => exact ValueReader.setting_eq hlogging hfile

end Document

namespace SettingsLayer

variable {ending text : String} {layer : SettingsLayer}

theorem get?_of_ofYaml? (h : ofYaml? text = some layer) (key : SettingKey β) :
    layer.get? key = key.inYaml? text := by
  obtain ⟨document, hdocument, hlayer⟩ := Option.bind_eq_some_iff.mp h
  rw [SettingKey.inYaml?, hdocument]
  cases hroot : document.root with
  | none =>
      simp only [hroot] at hlayer
      obtain rfl := Option.some.inj hlayer
      simp only [Option.bind_eq_bind, Option.bind_some, hroot, Option.bind_none]
      cases key <;> rfl
  | some root =>
      simp only [hroot] at hlayer
      simp only [Option.bind_eq_bind, Option.bind_some, hroot]
      exact get?_of_layer? hlayer key

theorem get?_of_ofJson? (h : ofJson? text = some layer) (key : SettingKey β) :
    layer.get? key = key.inJson? text := by
  obtain ⟨root, hroot, hlayer⟩ := Option.bind_eq_some_iff.mp h
  rw [SettingKey.inJson?, hroot]
  exact get?_of_layer? hlayer key

theorem get?_of_ofToml? (h : ofToml? text = some layer) (key : SettingKey β) :
    layer.get? key = key.inToml? text := by
  obtain ⟨entries, hentries, hlayer⟩ := Option.bind_eq_some_iff.mp h
  rw [SettingKey.inToml?, hentries]
  exact get?_of_layer? hlayer key

theorem get?_of_parse? (h : parse? ending text = some layer) (key : SettingKey β) :
    layer.get? key = key.inText? ending text := by
  rw [parse?] at h
  rw [SettingKey.inText?]
  by_cases hyaml : ending = "yml" ∨ ending = "yaml"
  · rw [if_pos (by simpa using hyaml)] at h
    rw [if_pos hyaml]
    exact get?_of_ofYaml? h key
  rw [if_neg (by simpa using hyaml)] at h
  rw [if_neg hyaml]
  by_cases hjson : ending = "json"
  · rw [if_pos hjson] at h ⊢
    exact get?_of_ofJson? h key
  rw [if_neg hjson] at h ⊢
  by_cases htoml : ending = "toml"
  · rw [if_pos htoml] at h
    rw [if_pos (.inl htoml)]
    exact get?_of_ofToml? h key
  rw [if_neg htoml] at h
  cases htext : ofToml? text with
  | none =>
      rw [htext, Option.none_or] at h
      rw [if_neg (by simp [htoml])]
      exact get?_of_ofYaml? h key
  | some fromToml =>
      rw [htext, Option.some_or] at h
      rw [if_pos (.inr rfl)]
      exact get?_of_ofToml? (htext.trans h) key

end SettingsLayer
end TaskTags
