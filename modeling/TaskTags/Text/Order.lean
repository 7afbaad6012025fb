/-!
The order of texts by their characters. It is a strict total order, and the order of the bytes that
the characters are encoded in.
-/

namespace TaskTags.Text

/-- The first different character decides; a text comes before those that it starts. -/
def precedesChars : List Char → List Char → Bool
  | _, [] => false
  | [], _ :: _ => true
  | c :: cs, d :: ds => c.toNat < d.toNat || (c.toNat == d.toNat && precedesChars cs ds)

def precedes (s t : String) : Bool :=
  precedesChars s.toList t.toList

def order (s t : String) : Ordering :=
  if precedes s t then .lt else if precedes t s then .gt else .eq

theorem precedesChars_irrefl (cs : List Char) : precedesChars cs cs = false := by
  induction cs with
  | nil => rfl
  | cons c cs ih => simp [precedesChars, ih]

theorem precedesChars_trans {as bs cs : List Char} (hab : precedesChars as bs = true)
    (hbc : precedesChars bs cs = true) : precedesChars as cs = true := by
  induction as generalizing bs cs with
  | nil => cases bs <;> cases cs <;> simp_all [precedesChars]
  | cons a as ih =>
    cases bs with
    | nil => simp [precedesChars] at hab
    | cons b bs =>
      cases cs with
      | nil => simp [precedesChars] at hbc
      | cons c cs =>
        simp only [precedesChars, Bool.or_eq_true, Bool.and_eq_true, decide_eq_true_eq,
          beq_iff_eq] at *
        rcases hab with hab | ⟨hab, htail⟩
        · left
          omega
        · rcases hbc with hbc | ⟨hbc, htail'⟩
          · left
            omega
          · exact Or.inr ⟨by omega, ih htail htail'⟩

theorem eq_of_toNat_eq {c d : Char} (h : c.toNat = d.toNat) : c = d :=
  Char.ext (UInt32.toNat_inj.1 h)

theorem precedesChars_trichotomy (cs ds : List Char) :
    precedesChars cs ds = true ∨ cs = ds ∨ precedesChars ds cs = true := by
  induction cs generalizing ds with
  | nil => cases ds <;> simp [precedesChars]
  | cons c cs ih =>
    cases ds with
    | nil => simp [precedesChars]
    | cons d ds =>
      simp only [precedesChars, Bool.or_eq_true, Bool.and_eq_true, decide_eq_true_eq, beq_iff_eq]
      rcases Nat.lt_trichotomy c.toNat d.toNat with h | h | h
      · exact Or.inl (Or.inl h)
      · have := ih ds
        have := eq_of_toNat_eq h
        grind
      · exact Or.inr (Or.inr (Or.inl h))

theorem precedes_irrefl (s : String) : precedes s s = false :=
  precedesChars_irrefl _

theorem precedes_trans {s t u : String} (hst : precedes s t = true) (htu : precedes t u = true) :
    precedes s u = true :=
  precedesChars_trans hst htu

theorem precedes_trichotomy (s t : String) :
    precedes s t = true ∨ s = t ∨ precedes t s = true := by
  have h := precedesChars_trichotomy s.toList t.toList
  rwa [String.toList_inj] at h

end TaskTags.Text
