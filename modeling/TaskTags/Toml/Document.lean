import TaskTags.Toml.Line

/-!
The table of a TOML document, built line by line.
-/

namespace TaskTags.Toml

/-- The entries of a document so far, and the path of the last header. -/
structure Building where
  entries : Entries
  heading : List String
deriving Inhabited

def Building.take? (b : Building) : Line → Option Building
  | .header key => do
    let entries ← b.entries.change? (Entries.openTable? key.name) key.path
    return ⟨entries, key.path ++ [key.name]⟩
  | .itemHeader key => do
    let entries ← b.entries.change? (Entries.openItem? key.name) key.path
    return ⟨entries, key.path ++ [key.name]⟩
  | .assign key v => do
    let entries ← b.entries.change? (Entries.assign? key.name v key.path) b.heading
    return { b with entries }

def parse? (text : String) : Option Entries := do
  let lines ← Line.all? text
  let built ← lines.foldlM Building.take? ⟨[], []⟩
  return built.entries

end TaskTags.Toml
