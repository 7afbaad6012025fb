import TaskTags.Proofs.Decimal.Reading
import TaskTags.Template.Token

/-!
# Single tokens

What a token is read from ends before the blanks and the mark that end its block, and a token that
ends with a sign is that sign.
-/

namespace TaskTags.Template

open Decimal (IsSign)

/-! ## Characters -/

theorem isBlank_bounds {c : Char} (h : Text.isBlank c = true) : c.toNat < 33 ∨ 126 < c.toNat := by
  simp only [Text.isBlank, Bool.or_eq_true, Bool.and_eq_true, decide_eq_true_eq, beq_iff_eq] at h
  omega

theorem isDigit_bounds {c : Char} (h : Decimal.isDigit c = true) :
    48 ≤ c.toNat ∧ c.toNat ≤ 57 := by
  simpa [Decimal.isDigit, Char.le_def, UInt32.le_iff_toNat_le] using h

theorem isNameChar_bounds {c : Char} (h : isNameChar c = true) : 48 ≤ c.toNat ∧ c.toNat ≤ 122 := by
  have hletter : c.isAlpha = (decide (65 ≤ c.val ∧ c.val ≤ 90) ||
      (decide (97 ≤ c.val) && decide (c.val ≤ 122))) := rfl
  simp only [isNameChar, Char.isAlphanum, Char.isDigit, hletter, Bool.or_eq_true, Bool.and_eq_true,
    decide_eq_true_eq, beq_iff_eq, UInt32.le_iff_toNat_le] at h
  rcases h with h | rfl
  · simp at h
    omega
  · decide

theorem hexValue?_bounds {c : Char} (h : (Decimal.hexValue? c).isSome = true) :
    48 ≤ c.toNat ∧ c.toNat ≤ 122 := by
  rw [Decimal.hexValue?] at h
  split at h
  · have := isDigit_bounds ‹_›
    omega
  · split at h
    · have hrange := ‹(decide ('a' ≤ c) && decide (c ≤ 'f')) = true›
      simp [Char.le_def, UInt32.le_iff_toNat_le] at hrange
      omega
    · split at h
      · have hrange := ‹(decide ('A' ≤ c) && decide (c ≤ 'F')) = true›
        simp [Char.le_def, UInt32.le_iff_toNat_le] at hrange
        omega
      · cases h

/-- A character that can stand behind the last token of a block, and that no token goes on with. -/
def IsStop (c : Char) : Prop := c = '}' ∨ Text.isBlank c = true

namespace IsStop

variable {c : Char}

theorem not_bounds (h : IsStop c) : ¬ (33 ≤ c.toNat ∧ c.toNat ≤ 122) := by
  rcases h with rfl | h
  · decide
  · have := isBlank_bounds h
    omega

theorem isDigit (h : IsStop c) : Decimal.isDigit c = false := by
  rw [Bool.eq_false_iff]
  intro hdigit
  have := isDigit_bounds hdigit
  exact h.not_bounds (by omega)

theorem isNameChar (h : IsStop c) : isNameChar c = false := by
  rw [Bool.eq_false_iff]
  intro hname
  have := isNameChar_bounds hname
  exact h.not_bounds (by omega)

theorem hexValue? (h : IsStop c) : (Decimal.hexValue? c).isSome = false := by
  rw [Bool.eq_false_iff]
  intro hhex
  have := hexValue?_bounds hhex
  exact h.not_bounds (by omega)

theorem ne (h : IsStop c) {d : Char} (hd : 33 ≤ d.toNat ∧ d.toNat ≤ 122) : c ≠ d := by
  rintro rfl
  exact h.not_bounds hd

end IsStop

/-! ## Tokens in front of the end of a block -/

section

variable {tail : List Char}

theorem numberChars_stop (htail : ∀ c ∈ tail, IsStop c) (base : Nat) (phase : NumberPhase) :
    numberChars base phase tail = ([], decide (phase ≠ .digits), tail) := by
  cases tail with
  | nil => rfl
  | cons c rest =>
      have hc := htail c List.mem_cons_self
      have hne : ∀ d : Char, 33 ≤ d.toNat ∧ d.toNat ≤ 122 → (c == d) = false := fun d hd =>
        beq_eq_false_iff_ne.mpr (hc.ne hd)
      simp [numberChars, hne, hc.isDigit, hc.hexValue?]

theorem numberChars_append (htail : ∀ c ∈ tail, IsStop c) (base : Nat) (phase : NumberPhase)
    (cs : List Char) :
    numberChars base phase (cs ++ tail) = ((numberChars base phase cs).1,
      (numberChars base phase cs).2.1, (numberChars base phase cs).2.2 ++ tail) := by
  induction cs generalizing phase with
  | nil => exact numberChars_stop htail base phase
  | cons c cs ih =>
      simp only [List.cons_append, numberChars]
      split
      · rfl
      · rw [ih]

/-- What a scan finds in front of more characters, it finds on its own, unless that is bad. -/
def FoundAlone (tail : List Char) (found alone : Token × List Char) : Prop :=
  (∃ fault, found = (.bad fault, [])) ∨
    found = (alone.1, alone.2 ++ tail) ∧ ∀ fault, alone.1 ≠ .bad fault

theorem numberBase_append (htail : ∀ c ∈ tail, IsStop c) (c : Char) (cs : List Char) :
    numberBase (c :: cs ++ tail)
      = ((numberBase (c :: cs)).1, (numberBase (c :: cs)).2 ++ tail) := by
  cases cs with
  | nil =>
      cases tail with
      | nil => simp
      | cons d tail =>
          have hd := htail d List.mem_cons_self
          have hne : ∀ e : Char, 33 ≤ e.toNat ∧ e.toNat ≤ 122 → d ≠ e := fun e he => hd.ne he
          simp [numberBase, hne]
  | cons d cs =>
    rw [List.cons_append, List.cons_append]
    unfold numberBase
    split <;> simp_all

def Token.IsNumber (t : Token) : Prop := (∃ n, t = .int n) ∨ ∃ x, t = .float x

theorem Token.IsNumber.ne_bad {t : Token} (h : t.IsNumber) (fault : Fault) : t ≠ .bad fault := by
  rcases h with ⟨n, rfl⟩ | ⟨x, rfl⟩ <;> simp

theorem Token.IsNumber.ne_exprEnd {t : Token} (h : t.IsNumber) : t ≠ .exprEnd := by
  rcases h with ⟨n, rfl⟩ | ⟨x, rfl⟩ <;> simp

theorem isNumber_of_numberToken? {base : Nat} {isFloat : Bool} {text : List Char} {t : Token}
    (h : numberToken? base isFloat text = some t) : t.IsNumber := by
  simp only [numberToken?] at h
  split at h
  · cases h
  · split at h
    · obtain ⟨x, -, rfl⟩ := Option.map_eq_some_iff.mp h
      exact .inr ⟨x, rfl⟩
    · obtain ⟨n, -, hn⟩ := Option.bind_eq_some_iff.mp h
      split at hn <;> cases hn
      exact .inl ⟨n, rfl⟩

theorem scanNumber_append (htail : ∀ c ∈ tail, IsStop c) (c : Char) (cs : List Char) :
    FoundAlone tail (scanNumber (c :: cs ++ tail)) (scanNumber (c :: cs)) := by
  simp only [scanNumber, numberBase_append htail, numberChars_append htail]
  generalize numberChars (numberBase (c :: cs)).1 .digits (numberBase (c :: cs)).2 = scanned
  cases ht : numberToken? (numberBase (c :: cs)).1 scanned.2.1 scanned.1 with
  | none => exact .inl ⟨.syntaxError, rfl⟩
  | some t => exact .inr ⟨rfl, (isNumber_of_numberToken? ht).ne_bad⟩

theorem quotedPart?_eq_none {quote : Char} {cs : List Char} (h : quote ∉ cs) :
    quotedPart? quote cs = none := by
  fun_induction quotedPart? quote cs with
  | case1 => rfl
  | case2 c rest ih => rw [ih fun hmem => h (by simp [hmem]), Option.map_none]
  | case3 c rest _ hq => exact absurd (beq_iff_eq.mp hq) fun heq => h (by simp [heq])
  | case4 c rest _ _ ih => rw [ih fun hmem => h (by simp [hmem]), Option.map_none]

theorem quotedPart?_cons {quote c : Char} (hc : c ≠ '\\') (cs : List Char) :
    quotedPart? quote (c :: cs)
      = if c == quote then some ([], cs)
        else (quotedPart? quote cs).map fun (part, rest) => (c :: part, rest) := by
  rw [quotedPart?]
  rintro d rest rfl
  exact absurd rfl hc

theorem quotedPart?_append {quote : Char} (hquote : quote ≠ '\\') (h : quote ∉ tail)
    (cs : List Char) :
    quotedPart? quote (cs ++ tail)
      = (quotedPart? quote cs).map fun (part, rest) => (part, rest ++ tail) := by
  fun_induction quotedPart? quote cs with
  | case1 => exact quotedPart?_eq_none h
  | case2 c rest ih =>
      rw [List.cons_append, List.cons_append, quotedPart?, ih, Option.map_map, Option.map_map]
      rfl
  | case3 c rest _ hq =>
      have hc : c ≠ '\\' := by
        rintro rfl
        exact hquote (beq_iff_eq.mp hq).symm
      rw [List.cons_append, quotedPart?_cons hc, if_pos hq, Option.map_some]
  | case4 c rest hpair hq ih =>
      by_cases hc : c = '\\'
      · subst hc
        cases rest with
        | nil =>
            have hmem : quote ∉ '\\' :: tail := by simp [hquote, h]
            rw [List.singleton_append, quotedPart?_eq_none hmem]
            rfl
        | cons d rest => exact absurd rfl (hpair d rest rfl)
      · rw [List.cons_append, quotedPart?_cons hc, if_neg hq, ih, Option.map_map, Option.map_map]
        rfl

theorem scanString_append (htail : ∀ c ∈ tail, IsStop c) {quote : Char}
    (hquote : quote ∈ ['\'', '"']) (cs : List Char) :
    FoundAlone tail (scanString quote (cs ++ tail)) (scanString quote cs) := by
  have hbounds : 33 ≤ quote.toNat ∧ quote.toNat ≤ 122 := by
    simp only [List.mem_cons, List.not_mem_nil, or_false] at hquote
    rcases hquote with rfl | rfl <;> decide
  have hmem : quote ∉ tail := fun hmem => (htail quote hmem).ne hbounds rfl
  rw [scanString, scanString, quotedPart?_append (by rintro rfl; simp at hquote) hmem]
  cases quotedPart? quote cs with
  | none => exact .inl ⟨.syntaxError, rfl⟩
  | some p =>
      dsimp only [Option.map_some]
      cases unescape? none p.1 with
      | none => exact .inl ⟨.badEscape, rfl⟩
      | some text => exact .inr ⟨rfl, by simp⟩

theorem span_append {p : Char → Bool} (h : ∀ c ∈ tail, p c = false) (cs : List Char) :
    (cs ++ tail).takeWhile p = cs.takeWhile p ∧
      (cs ++ tail).dropWhile p = cs.dropWhile p ++ tail := by
  induction cs with
  | nil =>
      cases tail with
      | nil => exact ⟨rfl, rfl⟩
      | cons c tail => simp [h c List.mem_cons_self]
  | cons c cs ih => cases hc : p c <;> simp [hc, ih]

theorem chars_of_longMark {c : Char} {rest : List Char}
    (h : longMarks.contains (String.ofList (c :: rest)) = true) :
    c ∈ ['/', '*', '=', '!', '>', '<'] ∧ ∃ d ∈ ['/', '*', '='], rest = [d] := by
  have hmark : ∀ m ∈ longMarks, ∃ a ∈ ['/', '*', '=', '!', '>', '<'], ∃ d ∈ ['/', '*', '='],
      m.toList = [a, d] := by
    intro m hm
    simp only [longMarks, List.mem_cons, List.not_mem_nil, or_false] at hm
    rcases hm with rfl | rfl | rfl | rfl | rfl | rfl <;> exact ⟨_, by decide, _, by decide, rfl⟩
  obtain ⟨a, ha, d, hd, heq⟩ := hmark _ (List.contains_iff_mem.mp h)
  rw [String.toList_ofList, List.cons.injEq] at heq
  obtain ⟨rfl, hrest⟩ := heq
  exact ⟨ha, d, hd, hrest⟩

/-- A mark of two characters does not reach behind the text in front of the end. -/
theorem longMarks_append (htail : ∀ c ∈ tail, IsStop c) (c : Char) (cs : List Char) :
    longMarks.contains (String.ofList (c :: (cs ++ tail).take 1))
      = longMarks.contains (String.ofList (c :: cs.take 1)) := by
  cases cs with
  | cons d cs => rfl
  | nil =>
      rw [Bool.eq_iff_iff]
      constructor
      · intro h
        obtain ⟨-, d, hd, hrest⟩ := chars_of_longMark h
        have hmem : d ∈ tail := List.mem_of_mem_take (hrest ▸ List.mem_singleton_self d)
        have hbounds : ∀ d ∈ ['/', '*', '='], 33 ≤ d.toNat ∧ d.toNat ≤ 122 := by simp
        exact absurd rfl ((htail d hmem).ne (hbounds d hd))
      · intro h
        obtain ⟨-, d, -, hrest⟩ := chars_of_longMark h
        cases hrest

/-- The token in front of the end of a block is the one that is found without it. -/
theorem scanInner_append (htail : ∀ c ∈ tail, IsStop c) (c : Char) (cs : List Char) :
    FoundAlone tail (scanInner c (cs ++ tail)) (scanInner c cs) := by
  rw [scanInner, scanInner, longMarks_append htail]
  split
  · have hlong := ‹longMarks.contains _ = true›
    obtain ⟨-, d, -, hrest⟩ := chars_of_longMark hlong
    cases cs with
    | nil => cases hrest
    | cons e cs => exact .inr ⟨rfl, by simp⟩
  · split
    · exact .inr ⟨rfl, by simp⟩
    · split
      · exact scanString_append htail (by simp_all) cs
      · split
        · exact scanNumber_append htail c cs
        · split
          · have hname : ∀ d ∈ tail, isNameChar d = false := fun d hd => (htail d hd).isNameChar
            rw [← List.cons_append, (span_append hname (c :: cs)).1, (span_append hname cs).2]
            exact .inr ⟨rfl, by simp⟩
          · exact .inl ⟨.syntaxError, rfl⟩

end

/-! ## What a token takes -/

theorem numberChars_split (base : Nat) (phase : NumberPhase) (cs : List Char) :
    (numberChars base phase cs).1 ++ (numberChars base phase cs).2.2 = cs := by
  induction cs generalizing phase with
  | nil => rfl
  | cons c cs ih =>
      simp only [numberChars]
      split
      · rfl
      · simpa using ih _

theorem numberChars_suffix (base : Nat) (phase : NumberPhase) (cs : List Char) :
    (numberChars base phase cs).2.2 <:+ cs :=
  ⟨_, numberChars_split base phase cs⟩

theorem numberBase_eq_or_suffix (c : Char) (cs : List Char) :
    numberBase (c :: cs) = (10, c :: cs) ∨ (numberBase (c :: cs)).2 <:+ cs := by
  unfold numberBase
  split <;> simp_all

theorem digitsIn?_of_mem {base : Nat} {cs : List Char} {c : Char} (h : c ∈ cs)
    (hc : Decimal.hexValue? c = none) : digitsIn? base cs = none := by
  have hnone : cs.mapM (fun c => (Decimal.hexValue? c).filter (· < base)) = none := by
    obtain ⟨before, after, rfl⟩ := List.append_of_mem h
    rw [List.mapM_append, List.mapM_cons, hc]
    cases before.mapM (fun c => (Decimal.hexValue? c).filter (· < base)) <;> rfl
  simp only [digitsIn?, hnone]
  split <;> rfl

/-- A sign at the end of a number belongs to an exponent without digits. -/
theorem numberToken?_of_getLast? {base : Nat} {isFloat : Bool} {text : List Char} {c : Char}
    (h : text.getLast? = some c) (hc : IsSign c) : numberToken? base isFloat text = none := by
  have hplain : (text.filter (· ≠ '_')).getLast? = some c := by
    obtain ⟨init, rfl⟩ := List.getLast?_eq_some_iff.mp h
    rcases hc with rfl | rfl <;> simp
  have hhex : Decimal.hexValue? c = none := by rcases hc with rfl | rfl <;> decide
  simp only [numberToken?]
  split
  · rfl
  · split
    · rw [Decimal.float?_of_getLast? hplain hc, Option.map_none]
    · rw [digitsIn?_of_mem (List.mem_of_getLast? hplain) hhex, Option.bind_none]

theorem numberToken?_nil (base : Nat) (isFloat : Bool) : numberToken? base isFloat [] = none := by
  cases isFloat <;> rfl

/-- What is found at the front of a text, by the kinds of tokens. -/
inductive Scanned (c : Char) (cs : List Char) : Token × List Char → Prop
  | longMark {d : Char} {rest : List Char} (hd : ¬ IsSign d) (h : cs = d :: rest) :
      Scanned c cs (.mark (String.ofList [c, d]), rest)
  | mark : Scanned c cs (.mark (String.ofList [c]), cs)
  | str {used rest : List Char} (text : String) (hc : ¬ IsSign c) (h : cs = used ++ c :: rest) :
      Scanned c cs (.str text, rest)
  | number {t : Token} {rest : List Char} (ht : t.IsNumber) (hrest : rest <:+ cs)
      (hlast : rest = [] → ∀ d, (c :: cs).getLast? = some d → ¬ IsSign d) : Scanned c cs (t, rest)
  | name (hc : isNameChar c = true) :
      Scanned c cs (.name (String.ofList ((c :: cs).takeWhile isNameChar)), cs.dropWhile isNameChar)
  | bad (fault : Fault) : Scanned c cs (.bad fault, [])

theorem scanned_number {c : Char} (hc : Decimal.isDigit c = true) (cs : List Char) :
    Scanned c cs (scanNumber (c :: cs)) := by
  have hsplit := numberChars_split (numberBase (c :: cs)).1 .digits (numberBase (c :: cs)).2
  have hsuffix :
      (numberChars (numberBase (c :: cs)).1 .digits (numberBase (c :: cs)).2).2.2 <:+ cs := by
    rcases numberBase_eq_or_suffix c cs with hbase | hbase
    · have hbounds := isDigit_bounds hc
      have hne : ∀ d : Char, d.toNat < 48 ∨ 57 < d.toNat → (c == d) = false := by
        intro d hd
        rw [beq_eq_false_iff_ne]
        rintro rfl
        omega
      rw [hbase]
      simp only [numberChars]
      simp [hne, hc, numberChars_suffix]
    · exact (numberChars_suffix _ _ _).trans hbase
  have hbase : (numberBase (c :: cs)).2 <:+ c :: cs := by
    rcases numberBase_eq_or_suffix c cs with hbase | hbase
    · exact hbase ▸ List.suffix_rfl
    · exact hbase.trans (List.suffix_cons c cs)
  simp only [scanNumber]
  generalize numberChars (numberBase (c :: cs)).1 .digits (numberBase (c :: cs)).2 = scanned at *
  cases ht : numberToken? (numberBase (c :: cs)).1 scanned.2.1 scanned.1 with
  | none => exact .bad .syntaxError
  | some t =>
      refine .number (isNumber_of_numberToken? ht) hsuffix ?_
      intro hrest d hlast hd
      rw [hrest, List.append_nil] at hsplit
      obtain ⟨used, hused⟩ := hbase
      rw [← hused, ← hsplit, List.getLast?_append] at hlast
      cases htext : scanned.1.getLast? with
      | none =>
          rw [List.getLast?_eq_none_iff.mp htext, numberToken?_nil] at ht
          cases ht
      | some e =>
          rw [htext] at hlast
          cases hlast
          rw [numberToken?_of_getLast? htext hd] at ht
          cases ht

theorem quotedPart?_split {quote : Char} {cs part rest : List Char}
    (h : quotedPart? quote cs = some (part, rest)) : ∃ used, cs = used ++ quote :: rest := by
  fun_induction quotedPart? quote cs generalizing part with
  | case1 => cases h
  | case2 c cs ih =>
      obtain ⟨⟨part', rest'⟩, hpart, heq⟩ := Option.map_eq_some_iff.mp h
      cases heq
      obtain ⟨used, rfl⟩ := ih hpart
      exact ⟨'\\' :: c :: used, rfl⟩
  | case3 c cs _ hq =>
      cases h
      exact ⟨[], by rw [beq_iff_eq.mp hq, List.nil_append]⟩
  | case4 c cs _ _ ih =>
      obtain ⟨⟨part', rest'⟩, hpart, heq⟩ := Option.map_eq_some_iff.mp h
      cases heq
      obtain ⟨used, rfl⟩ := ih hpart
      exact ⟨c :: used, rfl⟩

theorem scanned_string {c : Char} (hc : c ∈ ['\'', '"']) (cs : List Char) :
    Scanned c cs (scanString c cs) := by
  have hsign : ¬ IsSign c := by
    rintro (rfl | rfl) <;> simp at hc
  rw [scanString]
  split
  · exact .bad .syntaxError
  · next part rest hpart =>
      obtain ⟨used, hused⟩ := quotedPart?_split hpart
      split
      · exact .str _ hsign hused
      · exact .bad .badEscape

theorem scanned (c : Char) (cs : List Char) : Scanned c cs (scanInner c cs) := by
  rw [scanInner]
  split
  · obtain ⟨-, d, hd, hrest⟩ := chars_of_longMark ‹longMarks.contains _ = true›
    have hsign : ¬ IsSign d := by
      rintro (rfl | rfl) <;> simp at hd
    rw [hrest]
    exact .longMark hsign (by rw [← List.singleton_append, ← hrest, List.take_append_drop])
  · split
    · exact .mark
    · split
      · exact scanned_string (by simp_all) cs
      · split
        · exact scanned_number ‹_› cs
        · split
          · have hstart := ‹isNameStart c = true›
            simp only [isNameStart, Bool.or_eq_true] at hstart
            refine .name ?_
            rcases hstart with halpha | hline
            · simp [isNameChar, Char.isAlphanum, halpha]
            · simp [isNameChar, hline]
          · exact .bad .syntaxError

namespace Scanned

variable {c : Char} {cs : List Char} {p : Token × List Char}

theorem suffix (h : Scanned c cs p) : p.2 <:+ cs := by
  cases h with
  | longMark _ h => exact h ▸ List.suffix_cons _ _
  | mark => exact List.suffix_rfl
  | str _ _ h => exact h ▸ (List.suffix_cons _ _).trans (List.suffix_append _ _)
  | number _ hrest => exact hrest
  | name => exact List.dropWhile_suffix _
  | bad => exact List.nil_suffix

theorem ne_exprEnd (h : Scanned c cs p) : p.1 ≠ .exprEnd := by
  cases h with
  | number ht => exact ht.ne_exprEnd
  | _ => simp

/-- Of the tokens only a sign ends with a sign. -/
theorem eq_sign (h : Scanned c cs p) (hrest : p.2 = []) (hgood : ∀ fault, p.1 ≠ .bad fault)
    {d : Char} (hlast : (c :: cs).getLast? = some d) (hd : IsSign d) :
    cs = [] ∧ p.1 = .mark (String.ofList [c]) := by
  cases h with
  | @longMark e _ hsign h =>
      subst h hrest
      have heq : e = d := by simpa using hlast
      exact absurd (heq ▸ hd) hsign
  | mark => exact ⟨hrest, rfl⟩
  | str _ hsign h =>
      subst h hrest
      have heq : c = d := by simpa [List.getLast?_cons] using hlast
      exact absurd (heq ▸ hd) hsign
  | number _ _ hsign => exact absurd hd (hsign hrest d hlast)
  | name hc =>
      have hname : isNameChar d = true := by
        rcases List.mem_cons.mp (List.mem_of_getLast? hlast) with rfl | hmem
        · exact hc
        · exact List.dropWhile_eq_nil_iff.mp hrest d hmem
      rcases hd with rfl | rfl <;> cases hname
  | bad fault => exact absurd rfl (hgood fault)

end Scanned

theorem scanInner_blank {c : Char} (hc : Text.isBlank c = true) (cs : List Char) :
    scanInner c cs = (.bad .syntaxError, []) := by
  have hbounds := isBlank_bounds hc
  have hne : ∀ d : Char, 33 ≤ d.toNat ∧ d.toNat ≤ 126 → c ≠ d := by
    rintro d hd rfl
    omega
  have hstop : IsStop c := .inr hc
  have hlong : longMarks.contains (String.ofList (c :: cs.take 1)) = false := by
    rw [Bool.eq_false_iff]
    intro hmark
    have hchars : ∀ d ∈ ['/', '*', '=', '!', '>', '<'], 33 ≤ d.toNat ∧ d.toNat ≤ 126 := by simp
    exact hne c (hchars c (chars_of_longMark hmark).1) rfl
  have hmark : isMark c = false := by
    rw [Bool.eq_false_iff, isMark, ne_eq, List.contains_iff_mem]
    intro hmem
    have hchars : ∀ d ∈ "+-*/%.,:~|=><()[]\x7b\x7d".toList, 33 ≤ d.toNat ∧ d.toNat ≤ 126 := by
      simp
    exact hne c (hchars c hmem) rfl
  have hquote : (c == '\'' || c == '"') = false := by
    simp [hne '\'' (by decide), hne '"' (by decide)]
  have hstart : isNameStart c = false := by
    have hname := hstop.isNameChar
    rw [isNameChar, Char.isAlphanum, Bool.or_assoc, Bool.or_eq_false_iff] at hname
    simp_all [isNameStart]
  simp only [scanInner, hlong, hmark, hquote, hstop.isDigit, hstart, Bool.false_eq_true, if_false]

end TaskTags.Template
