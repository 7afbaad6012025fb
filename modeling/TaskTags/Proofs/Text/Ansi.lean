import TaskTags.Decimal.Digits
import TaskTags.Text.Ansi

/-!
# Text without its styles

The codes that switch styles on and off can be deleted from a text. What is left of painted text is
what is left of the text itself, wherever it stands.
-/

namespace TaskTags.Text

/-- The characters between the start of a code and its end. -/
def isCodeChar (c : Char) : Bool :=
  Decimal.isDigit c || c = ';'

def startsCode : List Char → Bool
  | x :: y :: rest => x = escape && y = '[' && (rest.dropWhile isCodeChar).head? = some 'm'
  | _ => false

/-- The characters outside of codes, where `inCode` says whether a code is open. -/
def outsideCodes (inCode : Bool) : List Char → List Char
  | [] => []
  | c :: rest =>
    if inCode then outsideCodes (c != 'm') rest
    else if startsCode (c :: rest) then outsideCodes true rest
    else c :: outsideCodes false rest

/-- What is left of a text when the codes are deleted. -/
def unstyled (s : String) : List Char :=
  outsideCodes false s.toList

/-- Whether a character may belong to a code that starts in front of it. -/
def goesOn (c : Char) : Bool :=
  c = '[' || c = 'm' || isCodeChar c

/-- No code that starts in front of a text reaches into it. -/
def Apart (cs : List Char) : Prop :=
  ∀ c ∈ cs.head?, goesOn c = false

variable {style : Style} {inCode : Bool} {xs ys : List Char}

theorem Apart.head {y : Char} (h : Apart (y :: ys)) :
    y ≠ '[' ∧ y ≠ 'm' ∧ isCodeChar y = false := by
  have hy := h y rfl
  simpa [goesOn, and_assoc] using hy

theorem head?_dropWhile_append (hys : Apart ys) :
    ((xs ++ ys).dropWhile isCodeChar).head? = some 'm' ↔
      (xs.dropWhile isCodeChar).head? = some 'm' := by
  induction xs with
  | nil =>
      cases ys with
      | nil => rfl
      | cons y ys => simp [hys.head]
  | cons x xs ih =>
      by_cases hx : isCodeChar x = true
      · simpa [hx] using ih
      · simp [hx]

theorem startsCode_append (x : Char) (hys : Apart ys) :
    startsCode (x :: xs ++ ys) = startsCode (x :: xs) := by
  cases xs with
  | nil =>
      cases ys with
      | nil => rfl
      | cons y ys => simp [startsCode, hys.head]
  | cons y xs =>
      simp [startsCode, head?_dropWhile_append hys]

theorem mem_of_startsCode {x : Char} (h : startsCode (x :: xs) = true) : 'm' ∈ xs := by
  cases xs with
  | nil => simp [startsCode] at h
  | cons y rest =>
      have hhead : (rest.dropWhile isCodeChar).head? = some 'm' := by
        simp only [startsCode, Bool.and_eq_true, decide_eq_true_eq] at h
        exact h.2
      exact List.mem_cons_of_mem y
        ((List.dropWhile_sublist isCodeChar).subset (List.mem_of_mem_head? hhead))

/-- A text is cut in front of a part that no code reaches into. -/
theorem outsideCodes_append (hys : Apart ys) (hxs : inCode = true → 'm' ∈ xs) :
    outsideCodes inCode (xs ++ ys) = outsideCodes inCode xs ++ outsideCodes false ys := by
  -- On the front part. A code that is open in it ends in it.
  induction xs generalizing inCode with
  | nil =>
      cases inCode with
      | false => rfl
      | true => cases hxs rfl
  | cons x xs ih =>
      cases inCode with
      | true =>
          have hrest : (x != 'm') = true → 'm' ∈ xs := by
            intro hx
            rcases List.mem_cons.mp (hxs rfl) with rfl | hmem
            · simp at hx
            · exact hmem
          simpa [outsideCodes] using ih hrest
      | false =>
          rw [List.cons_append, outsideCodes, outsideCodes, ← List.cons_append,
            startsCode_append x hys]
          by_cases hstarts : startsCode (x :: xs) = true
          · simpa [hstarts] using ih fun _ => mem_of_startsCode hstarts
          · have hclosed : false = true → 'm' ∈ xs := nofun
            simpa [hstarts] using ih hclosed

theorem outsideCodes_false_append (hys : Apart ys) :
    outsideCodes false (xs ++ ys) = outsideCodes false xs ++ outsideCodes false ys :=
  outsideCodes_append hys nofun

theorem outsideCodes_append_of_not_mem (h : escape ∉ xs) :
    outsideCodes false (xs ++ ys) = xs ++ outsideCodes false ys := by
  induction xs with
  | nil => rfl
  | cons x xs ih =>
      rw [List.mem_cons, not_or] at h
      have hstarts : startsCode (x :: (xs ++ ys)) = false := by
        cases xs ++ ys with
        | nil => rfl
        | cons y rest => simp [startsCode, Ne.symm h.1]
      rw [List.cons_append, outsideCodes, hstarts, ih h.2]
      rfl

/-! ## Painted text -/

theorem outsideCodes_styleOn (inCode : Bool) (style : Style) (xs : List Char) :
    outsideCodes inCode (styleOn style ++ xs) = outsideCodes false xs := by
  cases style <;> cases inCode <;> rfl

theorem outsideCodes_styleOff (inCode : Bool) (xs : List Char) :
    outsideCodes inCode (styleOff ++ xs) = outsideCodes false xs := by
  cases inCode <;> rfl

theorem head?_dropWhile_resume :
    ((resume style xs).dropWhile isCodeChar).head? = (xs.dropWhile isCodeChar).head? := by
  fun_induction resume style xs with
  | case1 rest ih => rfl
  | case2 c rest _ ih =>
      by_cases hc : isCodeChar c = true
      · simpa [hc] using ih
      · simp [hc]
  | case3 => rfl

theorem startsCode_resume (x : Char) :
    startsCode (x :: resume style xs) = startsCode (x :: xs) := by
  fun_cases resume style xs with
  | case1 rest => simp [startsCode, styleOff, escape]
  | case2 c rest =>
      simp [startsCode, head?_dropWhile_resume]
  | case3 => rfl

theorem outsideCodes_resume (inCode : Bool) :
    outsideCodes inCode (resume style xs) = outsideCodes inCode xs := by
  fun_induction resume style xs generalizing inCode with
  | case1 rest ih =>
      have hoff : outsideCodes inCode ('\x1b' :: '[' :: '0' :: 'm' :: rest)
          = outsideCodes false rest := outsideCodes_styleOff inCode rest
      rw [List.append_assoc, outsideCodes_styleOff, outsideCodes_styleOn, ih, hoff]
  | case2 c rest _ ih =>
      rw [outsideCodes, outsideCodes, startsCode_resume, ih, ih, ih]
  | case3 => rfl

/-! ## Text that ends outside of codes -/

/-- No code that starts in a text reaches beyond its end, so the rest can be read on its own. -/
def Closed (s : String) : Prop :=
  ∀ rest, unstyled (s ++ rest) = unstyled s ++ unstyled rest

/-- No code reaches into a text from the front, and none starts in it. -/
def Separates (s : String) : Prop :=
  s.toList.head?.any (!goesOn ·) = true ∧ escape ∉ s.toList

instance (s : String) : Decidable (Separates s) :=
  inferInstanceAs (Decidable (_ ∧ _))

@[simp]
theorem unstyled_empty : unstyled "" = [] := rfl

theorem unstyled_append_of_not_mem {s : String} (h : escape ∉ s.toList) (rest : String) :
    unstyled (s ++ rest) = s.toList ++ unstyled rest := by
  rw [unstyled, String.toList_append]
  exact outsideCodes_append_of_not_mem h

theorem unstyled_of_not_mem {s : String} (h : escape ∉ s.toList) : unstyled s = s.toList := by
  simpa using unstyled_append_of_not_mem h ""

theorem Separates.unstyled_append {t : String} (ht : Separates t) (s rest : String) :
    unstyled (s ++ (t ++ rest)) = unstyled s ++ unstyled (t ++ rest) := by
  obtain ⟨c, hc, hgoesOn⟩ := (Option.any_eq_true _ _).mp ht.1
  rw [unstyled, String.toList_append]
  apply outsideCodes_false_append
  intro d hd
  rw [String.toList_append, List.head?_append, hc] at hd
  obtain rfl := Option.some.inj hd
  simpa using hgoesOn

namespace Closed

variable {s t : String}

theorem append (hs : Closed s) (ht : Closed t) : Closed (s ++ t) := by
  intro rest
  rw [String.append_assoc, hs, ht, hs, List.append_assoc]

theorem of_not_mem (h : escape ∉ s.toList) : Closed s := by
  intro rest
  rw [unstyled_append_of_not_mem h, unstyled_of_not_mem h]

/-- Any text is closed by one that separates it from the rest. -/
theorem of_separates (s : String) (ht : Separates t) : Closed (s ++ t) := by
  intro rest
  rw [String.append_assoc, ht.unstyled_append, unstyled_append_of_not_mem ht.2]
  have hs := ht.unstyled_append s ""
  rw [String.append_empty, unstyled_of_not_mem ht.2] at hs
  rw [hs, List.append_assoc]

end Closed

theorem unstyled_paint_append (style : Style) (s rest : String) :
    unstyled (paint true style s ++ rest) = unstyled s ++ unstyled rest := by
  have hchars : (paint true style s ++ rest).toList
      = styleOn style ++ (resume style s.toList ++ (styleOff ++ rest.toList)) := by
    rw [String.toList_append, paint, if_pos rfl, String.toList_ofList, List.append_assoc,
      List.append_assoc]
  have hoff : Apart (styleOff ++ rest.toList) := by
    rintro c ⟨⟩
    decide
  rw [unstyled, hchars, outsideCodes_styleOn, outsideCodes_false_append hoff, outsideCodes_resume,
    outsideCodes_styleOff]
  rfl

theorem unstyled_paint (style : Style) (s : String) :
    unstyled (paint true style s) = unstyled s := by
  have h := unstyled_paint_append style s ""
  rwa [String.append_empty, unstyled_empty, List.append_nil] at h

/-- Painted text ends with a code, whatever the text itself ends with. -/
theorem closed_paint (style : Style) (s : String) : Closed (paint true style s) := by
  intro rest
  rw [unstyled_paint_append, unstyled_paint]

end TaskTags.Text
