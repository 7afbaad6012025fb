import TaskTags.Decimal.Digits

/-!
# Decimal digits

The digits of a number, and the number that they stand for.
-/

namespace TaskTags.Decimal

theorem isDigit_eq_isDigit (c : Char) : isDigit c = c.isDigit := rfl

theorem isDigit_of_mem_digits {n : Nat} {c : Char} (h : c ∈ digits n) : isDigit c = true := by
  rw [isDigit_eq_isDigit]
  exact Nat.isDigit_of_mem_toDigits (by decide) (by decide) h

theorem digits_ne_nil (n : Nat) : digits n ≠ [] :=
  Nat.toDigits_ne_nil

theorem exists_digits_eq_cons (n : Nat) : ∃ c cs, digits n = c :: cs ∧ isDigit c = true := by
  obtain ⟨c, cs, hcs⟩ := List.exists_cons_of_ne_nil (digits_ne_nil n)
  exact ⟨c, cs, hcs, isDigit_of_mem_digits (hcs ▸ List.mem_cons_self)⟩

theorem not_mem_digits {c : Char} (hc : isDigit c = false) (n : Nat) : c ∉ digits n := by
  intro hmem
  rw [isDigit_of_mem_digits hmem] at hc
  cases hc

theorem natOf_eq_ofDigitChars (cs : List Char) : natOf cs = Nat.ofDigitChars 10 cs 0 := by
  rw [natOf, ofDigits, Nat.ofDigitChars_eq_foldl]
  simp only [digitValue, Nat.mul_comm]

@[simp]
theorem natOf_digits (n : Nat) : natOf (digits n) = n := by
  rw [natOf_eq_ofDigitChars, digits, Nat.ofDigitChars_ten_toDigits]

/-- Only the digits of zero start with a zero. -/
theorem head?_digits_ne_zero {n : Nat} (h : n ≠ 0) : (digits n).head? ≠ some '0' := by
  induction n using Nat.strongRecOn with
  | ind n ih =>
      rw [digits, Nat.toDigits_eq_if (by decide)]
      by_cases hlt : n < 10
      · rw [if_pos hlt, List.head?_cons]
        intro hzero
        exact h (Nat.digitChar_eq_zero.mp (Option.some.inj hzero))
      · have hrest := ih (n / 10) (by omega) (by omega)
        obtain ⟨c, cs, hcs⟩ := List.exists_cons_of_ne_nil (digits_ne_nil (n / 10))
        rw [digits] at hcs hrest
        rw [hcs, List.head?_cons] at hrest
        rwa [if_neg hlt, hcs, List.cons_append, List.head?_cons]

theorem digits_inj {m n : Nat} : digits m = digits n ↔ m = n := by
  refine ⟨fun h => ?_, congrArg digits⟩
  rw [← natOf_digits m, h, natOf_digits]

/-- Different integers have different texts. -/
theorem intText_inj {m n : Int} : intText m = intText n ↔ m = n := by
  have hminus : ∀ k : Nat, '-' ∉ digits k := not_mem_digits rfl
  refine ⟨fun h => ?_, congrArg intText⟩
  unfold intText at h
  by_cases hm : m < 0
  · by_cases hn : n < 0
    · rw [if_pos hm, if_pos hn, String.ofList_inj, List.cons.injEq, digits_inj] at h
      omega
    · rw [if_pos hm, if_neg hn, String.ofList_inj] at h
      exact absurd (h ▸ List.mem_cons_self) (hminus n.natAbs)
  · by_cases hn : n < 0
    · rw [if_neg hm, if_pos hn, String.ofList_inj] at h
      exact absurd (h ▸ List.mem_cons_self) (hminus m.natAbs)
    · rw [if_neg hm, if_neg hn, String.ofList_inj, digits_inj] at h
      omega

end TaskTags.Decimal
