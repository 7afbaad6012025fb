import Mathlib.Data.List.TakeWhile
import TaskTags.Json.Printer
import TaskTags.Json.Token
import TaskTags.Proofs.Decimal.Digits

/-!
# Numbers in a text

A number in front of a text is the same with more text behind it, as long as the number does not go
on. Integers of 64 bits are read from their texts.
-/

namespace TaskTags.Json

def goesOn (c : Char) : Bool :=
  Decimal.isDigit c || c == '.' || c == 'e' || c == 'E'

/-- A text that no number in front of it goes on with. -/
def Stops (rest : List Char) : Prop :=
  ∀ c ∈ rest.head?, goesOn c = false

theorem stops_nil : Stops [] := nofun

theorem stops_cons {c : Char} {rest : List Char} (h : goesOn c = false) : Stops (c :: rest) := by
  rintro _ ⟨⟩
  exact h

variable {cs rest r : List Char}

theorem Stops.head {c : Char} (h : Stops (c :: rest)) :
    Decimal.isDigit c = false ∧ c ≠ '.' ∧ (c == 'e' || c == 'E') = false := by
  have hc : goesOn c = false := h c rfl
  simp only [goesOn, Bool.or_eq_false_iff, beq_eq_false_iff_ne] at hc
  simp only [Bool.or_eq_false_iff, beq_eq_false_iff_ne]
  exact ⟨hc.1.1.1, hc.1.1.2, hc.1.2, hc.2⟩

theorem takeWhile_isDigit_append (h : Stops rest) :
    (cs ++ rest).takeWhile Decimal.isDigit = cs.takeWhile Decimal.isDigit := by
  induction cs with
  | nil =>
      cases rest with
      | nil => rfl
      | cons c rest => rw [List.nil_append, List.takeWhile_cons, h.head.1]; rfl
  | cons c cs ih => rw [List.cons_append, List.takeWhile_cons, List.takeWhile_cons, ih]

theorem dropWhile_isDigit_append (h : Stops rest) :
    (cs ++ rest).dropWhile Decimal.isDigit = cs.dropWhile Decimal.isDigit ++ rest := by
  have hsplit : (cs ++ rest).takeWhile Decimal.isDigit ++ (cs ++ rest).dropWhile Decimal.isDigit
      = cs.takeWhile Decimal.isDigit ++ (cs.dropWhile Decimal.isDigit ++ rest) := by
    rw [List.takeWhile_append_dropWhile, ← List.append_assoc, List.takeWhile_append_dropWhile]
  rw [takeWhile_isDigit_append h] at hsplit
  exact List.append_cancel_left hsplit

/-- The digits that a text starts with, with what is made of them; nothing if there are none. -/
def leadingDigits? {α : Type} (f : List Char → α) (cs : List Char) : Option (α × List Char) :=
  let ds := cs.takeWhile Decimal.isDigit
  if ds.isEmpty then none else some (f ds, cs.dropWhile Decimal.isDigit)

theorem leadingDigits?_append {α : Type} {f : List Char → α} {x : α}
    (h : leadingDigits? f cs = some (x, r)) (hstop : Stops rest) :
    leadingDigits? f (cs ++ rest) = some (x, r ++ rest) := by
  unfold leadingDigits? at h ⊢
  rw [takeWhile_isDigit_append hstop, dropWhile_isDigit_append hstop]
  by_cases hempty : (cs.takeWhile Decimal.isDigit).isEmpty = true
  · rw [if_pos hempty] at h
    cases h
  · rw [if_neg hempty] at h ⊢
    cases h
    rfl

theorem fraction?_append {ds : List Char} (h : fraction? cs = some (ds, r)) (hstop : Stops rest) :
    fraction? (cs ++ rest) = some (ds, r ++ rest) := by
  have hpoint : ∀ tail, fraction? ('.' :: tail) = leadingDigits? id tail := fun _ => rfl
  have hother : ∀ c tail, c ≠ '.' → fraction? (c :: tail) = some ([], c :: tail) := by
    intro c tail hc
    rw [fraction?]
    exact fun _ heq => hc (List.cons.inj heq).1
  cases cs with
  | nil =>
      cases h
      cases rest with
      | nil => rfl
      | cons c rest => exact hother c rest hstop.head.2.1
  | cons c cs =>
      by_cases hc : c = '.'
      · subst hc
        rw [hpoint] at h
        exact leadingDigits?_append h hstop
      · rw [hother c cs hc] at h
        cases h
        exact hother c _ hc

/-- What follows the letter of an exponent: perhaps a sign, and digits. -/
theorem exponent?_cons {c : Char} (hc : (c == 'e' || c == 'E') = true) (s : Char) :
    ∃ (negative : Bool) (signs : Nat), signs ≤ 1 ∧ ∀ tail, Decimal.exponent? (c :: s :: tail)
      = leadingDigits? (some ∘ Decimal.exponentOf negative) ((s :: tail).drop signs) := by
  by_cases hplus : s = '+'
  · subst hplus
    refine ⟨false, 1, Nat.le_refl 1, fun tail => ?_⟩
    rw [Decimal.exponent?, if_pos hc]
    rfl
  by_cases hminus : s = '-'
  · subst hminus
    refine ⟨true, 1, Nat.le_refl 1, fun tail => ?_⟩
    rw [Decimal.exponent?, if_pos hc]
    rfl
  · refine ⟨false, 0, Nat.zero_le 1, fun tail => ?_⟩
    rw [Decimal.exponent?, if_pos hc]
    · rfl
    · exact fun r heq => hplus (List.cons.inj heq).1
    · exact fun r heq => hminus (List.cons.inj heq).1

theorem exponent?_append {e : Option Int} (h : Decimal.exponent? cs = some (e, r))
    (hstop : Stops rest) : Decimal.exponent? (cs ++ rest) = some (e, r ++ rest) := by
  have hother : ∀ c tail, (c == 'e' || c == 'E') = false →
      Decimal.exponent? (c :: tail) = some (none, c :: tail) := by
    intro c tail hc
    simp only [Decimal.exponent?, hc]
    rfl
  cases cs with
  | nil =>
      cases h
      cases rest with
      | nil => rfl
      | cons c rest => exact hother c rest hstop.head.2.2
  | cons c cs =>
      by_cases hc : (c == 'e' || c == 'E') = true
      · cases cs with
        | nil =>
            rw [Decimal.exponent?, if_pos hc] at h
            · cases h
            · exact nofun
            · exact nofun
        | cons s cs =>
            obtain ⟨negative, signs, hsigns, hread⟩ := exponent?_cons hc s
            have hdrop : (s :: (cs ++ rest)).drop signs = (s :: cs).drop signs ++ rest := by
              rw [← List.cons_append, List.drop_append_of_le_length]
              rw [List.length_cons]
              omega
            rw [hread] at h
            calc Decimal.exponent? (c :: s :: (cs ++ rest))
                = leadingDigits? _ ((s :: cs).drop signs ++ rest) := by rw [hread, hdrop]
              _ = some (e, r ++ rest) := leadingDigits?_append h hstop
      · rw [Bool.not_eq_true] at hc
        rw [hother c cs hc] at h
        cases h
        exact hother c _ hc

def IsWhole (ds : List Char) : Prop :=
  ds ≠ [] ∧ (ds.head? = some '0' → ds.length = 1)

theorem unsigned?_eq_some_iff {negative : Bool} {n : Number} :
    unsigned? negative cs = some (n, r) ↔
      IsWhole (cs.takeWhile Decimal.isDigit) ∧
        ∃ fraction behind e, fraction? (cs.dropWhile Decimal.isDigit) = some (fraction, behind) ∧
          Decimal.exponent? behind = some (e, r) ∧
          number? negative (cs.takeWhile Decimal.isDigit) fraction e = some n := by
  generalize hwhole : cs.takeWhile Decimal.isDigit = whole
  have hcheck : (whole.isEmpty || (whole.head? == some '0' && decide (whole.length ≠ 1))) = false
      ↔ IsWhole whole := by
    simp [IsWhole]
  simp only [unsigned?, hwhole]
  by_cases hok : IsWhole whole
  · simp only [hcheck.mpr hok, Bool.false_eq_true, if_false, hok, true_and, Option.bind_eq_bind,
      Option.bind_eq_some_iff, Option.pure_def, Option.some.injEq, Prod.mk.injEq, Prod.exists]
    constructor
    · rintro ⟨fraction, behind, hfraction, e, _, hexponent, _, hnumber, rfl, rfl⟩
      exact ⟨fraction, behind, e, hfraction, hexponent, hnumber⟩
    · rintro ⟨fraction, behind, e, hfraction, hexponent, hnumber⟩
      exact ⟨fraction, behind, hfraction, e, r, hexponent, n, hnumber, rfl, rfl⟩
  · have hbad := Bool.not_eq_false _ ▸ mt hcheck.mp hok
    simp only [hbad, if_true, hok, false_and, iff_false]
    exact nofun

theorem unsigned?_append {negative : Bool} {n : Number} (h : unsigned? negative cs = some (n, r))
    (hstop : Stops rest) : unsigned? negative (cs ++ rest) = some (n, r ++ rest) := by
  obtain ⟨hwhole, fraction, behind, e, hfraction, hexponent, hnumber⟩ := unsigned?_eq_some_iff.mp h
  rw [unsigned?_eq_some_iff, takeWhile_isDigit_append hstop, dropWhile_isDigit_append hstop]
  exact ⟨hwhole, fraction, behind ++ rest, e, fraction?_append hfraction hstop,
    exponent?_append hexponent hstop, hnumber⟩

theorem first?_minus (cs : List Char) :
    Token.first? ('-' :: cs) = (unsigned? true cs).map fun (n, r) => (.scalar (.num n), r) := rfl

theorem first?_of_isDigit {c : Char} (h : Decimal.isDigit c = true) (cs : List Char) :
    Token.first? (c :: cs)
      = (unsigned? false (c :: cs)).map fun (n, r) => (.scalar (.num n), r) := by
  unfold Token.first?
  split
  case h_12 => rfl
  all_goals
    next heq =>
      obtain ⟨rfl, -⟩ := List.cons.inj heq
      exact absurd h (by decide)

theorem isDigit_of_unsigned? {negative : Bool} {c : Char} {n : Number}
    (h : unsigned? negative (c :: cs) = some (n, r)) : Decimal.isDigit c = true := by
  obtain ⟨⟨hne, -⟩, -⟩ := unsigned?_eq_some_iff.mp h
  cases hc : Decimal.isDigit c with
  | true => rfl
  | false =>
      rw [List.takeWhile_cons_of_neg (Bool.not_eq_true _ ▸ hc)] at hne
      exact absurd rfl hne

/-- A number in front of a text has no other sign than a minus. -/
theorem unsigned?_of_first? {c : Char} {n : Number}
    (h : Token.first? (c :: cs) = some (.scalar (.num n), r)) (hc : c ≠ '-') :
    unsigned? false (c :: cs) = some (n, r) := by
  unfold Token.first? at h
  split at h
  case h_8 heq => exact absurd (List.cons.inj heq).1 hc
  case h_12 =>
    obtain ⟨⟨m, behind⟩, hm, heq⟩ := Option.map_eq_some_iff.mp h
    cases heq
    exact hm
  all_goals
    simp [Option.map_eq_some_iff] at h

theorem first?_number_append {n : Number} (h : Token.first? cs = some (.scalar (.num n), r))
    (hstop : Stops rest) : Token.first? (cs ++ rest) = some (.scalar (.num n), r ++ rest) := by
  cases cs with
  | nil => cases h
  | cons c cs =>
      by_cases hc : c = '-'
      · subst hc
        rw [first?_minus] at h
        obtain ⟨⟨m, behind⟩, hm, heq⟩ := Option.map_eq_some_iff.mp h
        cases heq
        rw [List.cons_append, first?_minus, unsigned?_append hm hstop]
        rfl
      · have hread := unsigned?_of_first? h hc
        rw [List.cons_append, first?_of_isDigit (isDigit_of_unsigned? hread), ← List.cons_append,
          unsigned?_append hread hstop]
        rfl

/-! ## Integers -/

theorem le_foldl_digits (n : Nat) (ds : List Char) :
    n ≤ ds.foldl (fun n c => n * 10 + Decimal.digitValue c) n := by
  induction ds generalizing n with
  | nil => exact Nat.le_refl n
  | cons d ds ih =>
      have hstep : n ≤ n * 10 + Decimal.digitValue d := by omega
      exact Nat.le_trans hstep (ih _)

theorem takeSignificand_eq (n : Nat) (ds : List Char)
    (h : ds.foldl (fun n c => n * 10 + Decimal.digitValue c) n < Decimal.pow2 64) :
    takeSignificand n ds = (ds.foldl (fun n c => n * 10 + Decimal.digitValue c) n, []) := by
  induction ds generalizing n with
  | nil => rfl
  | cons d ds ih =>
      have hfits : n * 10 + Decimal.digitValue d < Decimal.pow2 64 :=
        Nat.lt_of_le_of_lt (le_foldl_digits _ ds) h
      rw [takeSignificand, List.foldl_cons, if_pos hfits, ih _ h]

theorem takeSignificand_digits {n : Nat} (h : n < Decimal.pow2 64) :
    takeSignificand 0 (Decimal.digits n) = (n, []) := by
  have hvalue : (Decimal.digits n).foldl (fun n c => n * 10 + Decimal.digitValue c) 0 = n :=
    Decimal.natOf_digits n
  rw [takeSignificand_eq 0 _ (by rwa [hvalue]), hvalue]

theorem isWhole_digits (n : Nat) : IsWhole (Decimal.digits n) := by
  refine ⟨Decimal.digits_ne_nil n, fun hzero => ?_⟩
  by_cases hn : n = 0
  · rw [hn]
    rfl
  · exact absurd hzero (Decimal.head?_digits_ne_zero hn)

theorem takeWhile_digits (n : Nat) :
    (Decimal.digits n).takeWhile Decimal.isDigit = Decimal.digits n :=
  List.takeWhile_eq_self_iff.mpr fun _ => Decimal.isDigit_of_mem_digits

theorem unsigned?_digits {negative : Bool} {n : Nat} {m : Number}
    (h : number? negative (Decimal.digits n) [] none = some m) :
    unsigned? negative (Decimal.digits n) = some (m, []) := by
  have hdrop : (Decimal.digits n).dropWhile Decimal.isDigit = [] :=
    List.dropWhile_eq_nil_iff.mpr fun _ => Decimal.isDigit_of_mem_digits
  rw [unsigned?_eq_some_iff, takeWhile_digits, hdrop]
  exact ⟨isWhole_digits n, [], [], none, rfl, rfl, h⟩

/-- A number that is read from its own text. -/
def Number.Exact (n : Number) : Prop :=
  Token.first? n.text.toList = some (.scalar (.num n), [])

example : (Number.float (Binary64.ofScientific false 15 (-1))).Exact := rfl

/-- A negative integer needs a sign, and is one of those with sign. -/
theorem natAbs_of_inIntRange {n : Int} (h : inIntRange n = true) :
    n.natAbs < Decimal.pow2 64 ∧ (n < 0 → n.natAbs ≤ Decimal.pow2 63) := by
  have hpow : Decimal.pow2 63 < Decimal.pow2 64 := by decide
  simp only [inIntRange, Decimal.fitsSigned, Decimal.fitsUnsigned, Bool.or_eq_true,
    Bool.and_eq_true, decide_eq_true_eq, Nat.reduceSub] at h
  by_cases hn : n < 0
  · have hneg : ¬ 0 ≤ n := by omega
    have habs : n.natAbs ≤ Decimal.pow2 63 := by simpa [hneg] using h
    exact ⟨Nat.lt_of_le_of_lt habs hpow, fun _ => habs⟩
  · have hpos : 0 ≤ n := by omega
    have habs : n.natAbs = n.toNat := by omega
    simp only [hpos, true_and, if_true, decide_eq_true_eq] at h
    refine ⟨?_, fun hneg => absurd hneg hn⟩
    omega

theorem Number.toList_text_int (n : Int) : (Number.int n).text.toList
    = if n < 0 then '-' :: Decimal.digits n.natAbs else Decimal.digits n.natAbs := by
  rw [Number.text, Decimal.intText]
  split <;> exact String.toList_ofList

theorem Number.exact_int {n : Int} (h : inIntRange n = true) : (Number.int n).Exact := by
  obtain ⟨hfits, hsigned⟩ := natAbs_of_inIntRange h
  rw [Number.Exact, Number.toList_text_int]
  by_cases hn : n < 0
  · have hread : number? true (Decimal.digits n.natAbs) [] none = some (.int n) := by
      have hsmall : ¬ (decide (n.natAbs = 0) || decide (Decimal.pow2 63 < n.natAbs)) = true := by
        have hle := hsigned hn
        simp only [Bool.or_eq_true, decide_eq_true_eq]
        omega
      have hvalue : -(n.natAbs : Int) = n := by omega
      simp only [number?, takeSignificand_digits hfits, hsmall, hvalue]
      rfl
    rw [if_pos hn, first?_minus, unsigned?_digits hread]
    rfl
  · have hread : number? false (Decimal.digits n.natAbs) [] none = some (.int n) := by
      have hvalue : (n.natAbs : Int) = n := by omega
      simp only [number?, takeSignificand_digits hfits, hvalue]
      rfl
    obtain ⟨c, cs, hcs, hc⟩ := Decimal.exists_digits_eq_cons n.natAbs
    rw [if_neg hn, hcs, first?_of_isDigit hc, ← hcs, unsigned?_digits hread]
    rfl

end TaskTags.Json
