import TaskTags.FileTree
import TaskTags.Proofs.Decimal.Digits
import TaskTags.Proofs.Settings.Precedence

/-!
# The range of the verbosity

A variable that holds a number decides over the verbosity if the number is at most 255, and is then
refused above 4. A greater one is not a number to the variable's reader: it decides nothing, and the
verbosity of the files counts.
-/

namespace TaskTags

theorem verbosityOf?_digits (n : Nat) :
    verbosityOf? (String.ofList (Decimal.digits n)) = if n < 256 then some n else none := by
  have hall : (Decimal.digits n).all Decimal.isDigit = true :=
    List.all_eq_true.mpr fun _ => Decimal.isDigit_of_mem_digits
  have hdigits : ¬ ((Decimal.digits n).isEmpty || !(Decimal.digits n).all Decimal.isDigit) = true := by
    simp [hall, Decimal.digits_ne_nil]
  rw [verbosityOf?, String.toList_ofList]
  split
  next ds rest hsign =>
    have hplus : '+' ∈ Decimal.digits n := hsign ▸ List.mem_cons_self
    exact absurd hplus (Decimal.not_mem_digits rfl n)
  next =>
    rw [if_neg hdigits, Decimal.natOf_digits, Option.filter_some]
    simp only [decide_eq_true_eq]

namespace Settings

def fileVerbosity (env : Environment) (explicit : Option String) : Nat :=
  (((paths env explicit).filterMap (SettingKey.verbosity.inFile? env)).getLast?).getD 0

variable {env : Environment} {explicit : Option String} {level n : Nat}

theorem load_of_level (hreadable : Readable env explicit)
    (hlevel : SettingKey.verbosity.final? env explicit = some level) :
    ((∃ s, load env explicit = .ok s) ↔ level ≤ 4) ∧
      (∀ s, load env explicit = .ok s → s.verbosity = level) ∧
      (4 < level → load env explicit = .error (.setting (.verbosity level))) := by
  obtain ⟨s, hload, hvalues⟩ := exists_load_eq_check hreadable
  obtain rfl : s.verbosity = level := Option.some.inj ((hvalues Nat .verbosity).trans hlevel)
  refine ⟨?_, ?_, ?_⟩
  · rw [hload]
    constructor
    · rintro ⟨t, ht⟩
      exact (check_eq_ok_iff.mp ht).1
    · intro hrange
      exact ⟨s, check_eq_ok_iff.mpr ⟨hrange, rfl⟩⟩
  · intro t ht
    rw [hload] at ht
    rw [(check_eq_ok_iff.mp ht).2]
  · intro hrange
    have hout : ¬ s.verbosity ≤ Variable.maxVerbosity := Nat.not_le.mpr hrange
    rw [hload, check, if_neg hout]

theorem final?_verbosity_of_numeral
    (hvariable : env.value? "RUSTIBLE_VERBOSITY" = some (String.ofList (Decimal.digits n))) :
    SettingKey.verbosity.final? env explicit
      = some (if n < 256 then n else fileVerbosity env explicit) := by
  have hgiven : SettingKey.verbosity.ofVariable? env = if n < 256 then some n else none := by
    rw [SettingKey.ofVariable?, hvariable, Option.bind_some, verbosityOf?_digits]
  rw [SettingKey.final?, hgiven]
  by_cases hbyte : n < 256
  · rw [if_pos hbyte, if_pos hbyte, Option.some_or]
  · rw [if_neg hbyte, if_neg hbyte, Option.none_or, fileVerbosity]
    cases ((paths env explicit).filterMap (SettingKey.verbosity.inFile? env)).getLast? <;> rfl

/-- With all files read, a number of at most 255 in the variable is the verbosity, and the loading
fails with it above 4. A greater number leaves the verbosity to the files, as if it were not there. -/
theorem load_of_numeral (hreadable : Readable env explicit)
    (hvariable : env.value? "RUSTIBLE_VERBOSITY" = some (String.ofList (Decimal.digits n))) :
    (n < 256 → ((∃ s, load env explicit = .ok s) ↔ n ≤ 4) ∧
      (∀ s, load env explicit = .ok s → s.verbosity = n) ∧
      (4 < n → load env explicit = .error (.setting (.verbosity n)))) ∧
    (256 ≤ n → ((∃ s, load env explicit = .ok s) ↔ fileVerbosity env explicit ≤ 4) ∧
      ∀ s, load env explicit = .ok s → s.verbosity = fileVerbosity env explicit) := by
  have hlevel := load_of_level hreadable (final?_verbosity_of_numeral hvariable)
  constructor
  · intro hbyte
    rwa [if_pos hbyte] at hlevel
  · intro hgreat
    rw [if_neg (Nat.not_lt.mpr hgreat)] at hlevel
    exact ⟨hlevel.1, hlevel.2.1⟩

/-- A file that gives a verbosity, and a number in the variable that no byte holds. -/
def overflowingSystem : Environment :=
  (FileTree.ofList [("rustible-tags.cfg", "[output]\nverbosity = 2\n")]).environment
    [("RUSTIBLE_VERBOSITY", "256")] false

theorem load_overflowingSystem :
    load overflowingSystem none = .ok { default with verbosity := 2 } := by
  decide +kernel

theorem load_of_numeral_overflowingSystem :
    Readable overflowingSystem none ∧
      overflowingSystem.value? "RUSTIBLE_VERBOSITY" = some (String.ofList (Decimal.digits 256)) ∧
      (∃ s, load overflowingSystem none = .ok s) ∧
      ∀ s, load overflowingSystem none = .ok s → s.verbosity = 2 := by
  have hreadable : Readable overflowingSystem none := readable_of_load load_overflowingSystem
  have hvariable : overflowingSystem.value? "RUSTIBLE_VERBOSITY"
      = some (String.ofList (Decimal.digits 256)) := by decide +kernel
  have hfile : fileVerbosity overflowingSystem none = 2 := by decide +kernel
  obtain ⟨hloads, hlevel⟩ := (load_of_numeral hreadable hvariable).2 (Nat.le_refl 256)
  rw [hfile] at hloads hlevel
  exact ⟨hreadable, hvariable, hloads.mpr (by decide), hlevel⟩

/-- A number that is out of the range does not keep the settings from loading: 256 is passed over,
and the verbosity is that of the file. -/
theorem out_of_range_overflowingSystem :
    Readable overflowingSystem none ∧
      overflowingSystem.value? "RUSTIBLE_VERBOSITY" = some (String.ofList (Decimal.digits 256)) ∧
      ¬ 256 ≤ 4 ∧ load overflowingSystem none = .ok { default with verbosity := 2 } := by
  refine ⟨readable_of_load load_overflowingSystem, by decide +kernel, by decide, ?_⟩
  exact load_overflowingSystem

end Settings
end TaskTags
