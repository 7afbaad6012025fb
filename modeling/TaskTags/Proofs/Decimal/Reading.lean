import TaskTags.Proofs.Json.Number

/-!
# Decimal texts

A text that is read as a number does not end with a sign.
-/

namespace TaskTags.Decimal

variable {c d : Char} {cs : List Char}

def IsSign (c : Char) : Prop := c = '-' ∨ c = '+'

theorem IsSign.isDigit (h : IsSign c) : isDigit c = false := by
  rcases h with rfl | rfl <;> decide

theorem getLast?_dropWhile {p : Char → Bool} (h : cs.getLast? = some c) (hc : p c = false) :
    (cs.dropWhile p).getLast? = some c := by
  obtain ⟨init, rfl⟩ := List.getLast?_eq_some_iff.mp h
  rw [List.dropWhile_append]
  split <;> simp [hc]

theorem getLast?_tail (h : (d :: cs).getLast? = some c) (hne : d ≠ c) : cs.getLast? = some c := by
  rw [List.getLast?_cons, Option.some.injEq] at h
  cases hcs : cs.getLast? with
  | none => simp [hcs, hne] at h
  | some e => simpa [hcs] using h

theorem getLast?_drop_one (h : cs.getLast? = some c) {n : Nat} (hn : n ≤ 1) :
    cs.drop n = [] ∨ (cs.drop n).getLast? = some c := by
  cases cs with
  | nil => cases h
  | cons d cs =>
      obtain rfl | rfl : n = 0 ∨ n = 1 := by omega
      · exact .inr h
      · cases cs with
        | nil => exact .inl rfl
        | cons e cs => exact .inr (by simpa using h)

theorem getLast?_splitSign (h : cs.getLast? = some c) :
    (splitSign cs).2 = [] ∨ (splitSign cs).2.getLast? = some c := by
  unfold splitSign
  split
  · exact getLast?_drop_one h (Nat.le_refl 1)
  · exact getLast?_drop_one h (Nat.le_refl 1)
  · exact .inr h

/-- An exponent ends with a digit, so that a sign at the end of a text is behind it. -/
theorem exponent?_of_getLast? (h : cs.getLast? = some c) (hc : IsSign c) {e : Option Int}
    {rest : List Char} (hexponent : exponent? cs = some (e, rest)) : rest ≠ [] := by
  cases cs with
  | nil => cases h
  | cons d cs =>
      by_cases hd : (d == 'e' || d == 'E') = true
      · have hne : d ≠ c := by
          rintro rfl
          rcases hc with rfl | rfl <;> cases hd
        have hcs := getLast?_tail h hne
        obtain ⟨s, tail, rfl⟩ :=
          List.exists_cons_of_ne_nil (List.ne_nil_of_mem (List.mem_of_getLast? hcs))
        obtain ⟨negative, signs, hsigns, hread⟩ := Json.exponent?_cons hd s
        rw [hread, Json.leadingDigits?] at hexponent
        rcases getLast?_drop_one hcs hsigns with hdrop | hdrop
        · rw [hdrop] at hexponent
          cases hexponent
        · split at hexponent
          · cases hexponent
          · cases hexponent
            exact List.ne_nil_of_mem (List.mem_of_getLast? (getLast?_dropWhile hdrop hc.isDigit))
      · rw [Bool.not_eq_true] at hd
        simp only [exponent?, hd, Bool.false_eq_true, if_false] at hexponent
        cases hexponent
        exact List.cons_ne_nil _ _

/-- A number ends with a digit or with its point. -/
theorem float?_of_getLast? (h : cs.getLast? = some c) (hc : IsSign c) : float? cs = none := by
  have hdigit := hc.isDigit
  have hdot : '.' ≠ c := by rcases hc with rfl | rfl <;> decide
  simp only [float?]
  rcases getLast?_splitSign h with hnil | hnumber
  · rw [hnil]
    rfl
  · have hrest := getLast?_dropWhile hnumber hdigit
    have hrest' : (splitFraction ((splitSign cs).2.dropWhile isDigit)).2.getLast? = some c := by
      generalize (splitSign cs).2.dropWhile isDigit = rest at hrest
      unfold splitFraction
      split
      · exact getLast?_dropWhile (getLast?_tail hrest hdot) hdigit
      · exact hrest
    split
    · rfl
    · cases hexponent : exponent? (splitFraction ((splitSign cs).2.dropWhile isDigit)).2 with
      | none => rfl
      | some p =>
          have hne := exponent?_of_getLast? hrest' hc hexponent
          simp [hne]

end TaskTags.Decimal
