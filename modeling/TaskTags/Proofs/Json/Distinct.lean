import TaskTags.Proofs.Json.ReadBack

/-!
# Different values have different texts

The text of a value without floating point numbers tells the value, whatever stands behind it that a
number does not go on with. The size of its integers and the depth of its nesting do not matter.
-/

namespace TaskTags.Json

/-- Values without floating point numbers. -/
inductive FloatFree : Json → Prop where
  | null : FloatFree .null
  | bool (b : Bool) : FloatFree (.bool b)
  | int (n : Int) : FloatFree (.num (.int n))
  | str (s : String) : FloatFree (.str s)
  | arr {items : List Json} (h : ∀ v ∈ items, FloatFree v) : FloatFree (.arr items)
  | obj {fields : List (String × Json)} (h : ∀ field ∈ fields, FloatFree field.2) :
      FloatFree (.obj fields)

variable {v w : Json} {items : List Json} {fields : List (String × Json)}
  {r r' cs : List Char} {width level : Nat}

/-! ## Sameness -/

theorem sameItems_self (h : ∀ v ∈ items, v.same v = true) : sameItems items items = true := by
  induction items with
  | nil => rfl
  | cons v rest ih =>
      obtain ⟨hv, hrest⟩ := List.forall_mem_cons.mp h
      rw [sameItems, hv, ih hrest]
      rfl

theorem sameFields_self (h : ∀ field ∈ fields, field.2.same field.2 = true) :
    sameFields fields fields = true := by
  induction fields with
  | nil => rfl
  | cons field rest ih =>
      obtain ⟨hfield, hrest⟩ := List.forall_mem_cons.mp h
      rw [sameFields, beq_self_eq_true, hfield, ih hrest]
      rfl

/-- A value without floating point numbers is the same as itself. -/
theorem FloatFree.beq_self (h : FloatFree v) : (v == v) = true := by
  show v.same v = true
  induction h with
  | null => rfl
  | bool b => exact beq_self_eq_true b
  | int n => exact beq_self_eq_true n
  | str s => exact beq_self_eq_true s
  | arr _ ih => exact sameItems_self ih
  | obj _ ih => exact sameFields_self ih

/-! ## The parts of a text -/

theorem digits_append_inj {m n : Nat} (hr : Stops r) (hr' : Stops r')
    (h : Decimal.digits m ++ r = Decimal.digits n ++ r') : m = n ∧ r = r' := by
  have hdigits := congrArg (List.takeWhile Decimal.isDigit) h
  rw [takeWhile_isDigit_append hr, takeWhile_isDigit_append hr', takeWhile_digits,
    takeWhile_digits] at hdigits
  rw [hdigits] at h
  exact ⟨Decimal.digits_inj.mp hdigits, List.append_cancel_left h⟩

theorem minus_cons_ne_digits (cs r : List Char) (n : Nat) : '-' :: cs ≠ Decimal.digits n ++ r := by
  intro h
  obtain ⟨d, ds, hds, hd⟩ := Decimal.exists_digits_eq_cons n
  rw [hds, List.cons_append] at h
  rw [← (List.cons.inj h).1] at hd
  exact absurd hd (by decide)

theorem text_int_append_inj {m n : Int} (hr : Stops r) (hr' : Stops r')
    (h : (Number.int m).text.toList ++ r = (Number.int n).text.toList ++ r') : m = n ∧ r = r' := by
  rw [Number.toList_text_int, Number.toList_text_int] at h
  by_cases hm : m < 0
  · by_cases hn : n < 0
    · rw [if_pos hm, if_pos hn, List.cons_append, List.cons_append] at h
      obtain ⟨habs, htail⟩ := digits_append_inj hr hr' (List.cons.inj h).2
      exact ⟨by omega, htail⟩
    · rw [if_pos hm, if_neg hn, List.cons_append] at h
      exact absurd h (minus_cons_ne_digits _ _ _)
  · by_cases hn : n < 0
    · rw [if_neg hm, if_pos hn, List.cons_append] at h
      exact absurd h.symm (minus_cons_ne_digits _ _ _)
    · rw [if_neg hm, if_neg hn] at h
      obtain ⟨habs, htail⟩ := digits_append_inj hr hr' h
      exact ⟨by omega, htail⟩

/-- A string is read up to its closing quote. -/
theorem quote_append_inj {s t : String} (h : quote s ++ r = quote t ++ r') : s = t ∧ r = r' := by
  simp only [quote, quoteChars, List.cons_append, List.append_assoc, List.cons.injEq, true_and,
    List.nil_append] at h
  have hbody := congrArg stringBody? h
  rw [stringBody?_flatMap, stringBody?_flatMap] at hbody
  obtain ⟨hs, htail⟩ := Prod.mk.inj (Option.some.inj hbody)
  exact ⟨String.toList_inj.mp hs, htail⟩

/-! ## Kinds of values -/

inductive Kind where
  | null
  | bool
  | number
  | string
  | array
  | object
deriving DecidableEq

def kind : Json → Kind
  | .null => .null
  | .bool _ => .bool
  | .num _ => .number
  | .str _ => .string
  | .arr _ => .array
  | .obj _ => .object

/-- The kind of value that a text starts with, by the first character. -/
def Kind.ofChars : List Char → Kind
  | 'n' :: _ => .null
  | 't' :: _ => .bool
  | 'f' :: _ => .bool
  | '"' :: _ => .string
  | '[' :: _ => .array
  | '{' :: _ => .object
  | _ => .number

theorem Kind.ofChars_of_isDigit {c : Char} (h : Decimal.isDigit c = true) (cs : List Char) :
    ofChars (c :: cs) = .number := by
  unfold ofChars
  split
  case h_7 => rfl
  all_goals
    next heq =>
      obtain ⟨rfl, -⟩ := List.cons.inj heq
      exact absurd h (by decide)

theorem Kind.ofChars_int (n : Int) (r : List Char) :
    ofChars ((Number.int n).text.toList ++ r) = .number := by
  obtain ⟨d, ds, hds, hd⟩ := Decimal.exists_digits_eq_cons n.natAbs
  rw [Number.toList_text_int]
  split
  · rfl
  · rw [hds]
    exact ofChars_of_isDigit hd _

theorem FloatFree.kind_eq (h : FloatFree v) (width level : Nat) (r : List Char) :
    Kind.ofChars (v.prettyChars width level ++ r) = v.kind := by
  cases h with
  | null =>
      rw [prettyChars]
      rfl
  | bool b =>
      rw [prettyChars]
      cases b <;> rfl
  | int n =>
      rw [prettyChars]
      exact Kind.ofChars_int n r
  | str s =>
      rw [prettyChars]
      rfl
  | @arr items _ =>
      cases items <;> rw [prettyChars] <;> rfl
  | @obj fields _ =>
      cases fields <;> rw [prettyChars] <;> rfl

/-! ## Texts that tell their values -/

/-- The text of a value tells it from all others without floating point numbers. -/
def Told (width : Nat) (v : Json) : Prop :=
  ∀ level w r r', FloatFree w → Stops r → Stops r' →
    v.prettyChars width level ++ r = w.prettyChars width level ++ r' → v = w ∧ r = r'

/-- Items that end with their line. -/
theorem told_items {others : List Json} (h : ∀ v ∈ items, Told width v)
    (hothers : ∀ w ∈ others, FloatFree w) {cs cs' : List Char}
    (heq : prettyItems width level items ++ '\n' :: cs
      = prettyItems width level others ++ '\n' :: cs') : items = others ∧ cs = cs' := by
  induction items generalizing others with
  | nil =>
      cases others with
      | nil =>
          rw [prettyItems] at heq
          exact ⟨rfl, (List.cons.inj heq).2⟩
      | cons w others =>
          rw [prettyItems, prettyItems] at heq
          exact absurd (List.cons.inj heq).1 (by decide)
  | cons v rest ih =>
      cases others with
      | nil =>
          rw [prettyItems, prettyItems] at heq
          exact absurd (List.cons.inj heq).1 (by decide)
      | cons w others =>
          obtain ⟨hv, hrest⟩ := List.forall_mem_cons.mp h
          obtain ⟨hw, hlater⟩ := List.forall_mem_cons.mp hothers
          rw [prettyItems, prettyItems] at heq
          simp only [List.cons_append, List.append_assoc, List.cons.injEq, true_and,
            List.append_cancel_left_eq] at heq
          obtain ⟨rfl, hbehind⟩ := hv level w _ _ hw (stops_prettyItems.append (stops_cons rfl))
            (stops_prettyItems.append (stops_cons rfl)) heq
          obtain ⟨rfl, hend⟩ := ih hrest hlater hbehind
          exact ⟨rfl, hend⟩

/-- A field with its value and what stands behind it. -/
theorem told_field {k l : String} (hv : Told width v) (hw : FloatFree w) (hr : Stops r)
    (hr' : Stops r')
    (heq : quote k ++ ':' :: ' ' :: (v.prettyChars width level ++ r)
      = quote l ++ ':' :: ' ' :: (w.prettyChars width level ++ r')) :
    (k, v) = (l, w) ∧ r = r' := by
  obtain ⟨rfl, hbehind⟩ := quote_append_inj heq
  obtain ⟨rfl, hend⟩ := hv level w r r' hw hr hr' (List.cons.inj (List.cons.inj hbehind).2).2
  exact ⟨rfl, hend⟩

theorem told_fields {others : List (String × Json)} (h : ∀ field ∈ fields, Told width field.2)
    (hothers : ∀ field ∈ others, FloatFree field.2) {cs cs' : List Char}
    (heq : prettyFields width level fields ++ '\n' :: cs
      = prettyFields width level others ++ '\n' :: cs') : fields = others ∧ cs = cs' := by
  induction fields generalizing others with
  | nil =>
      cases others with
      | nil =>
          rw [prettyFields] at heq
          exact ⟨rfl, (List.cons.inj heq).2⟩
      | cons field others =>
          rw [prettyFields, prettyFields] at heq
          exact absurd (List.cons.inj heq).1 (by decide)
  | cons field rest ih =>
      obtain ⟨k, v⟩ := field
      cases others with
      | nil =>
          rw [prettyFields, prettyFields] at heq
          exact absurd (List.cons.inj heq).1 (by decide)
      | cons field others =>
          obtain ⟨l, w⟩ := field
          obtain ⟨hv, hrest⟩ := List.forall_mem_cons.mp h
          obtain ⟨hw, hlater⟩ := List.forall_mem_cons.mp hothers
          rw [prettyFields, prettyFields] at heq
          simp only [List.cons_append, List.append_assoc, List.cons.injEq, true_and,
            List.append_cancel_left_eq] at heq
          obtain ⟨hfield, hbehind⟩ := told_field hv hw
            (stops_prettyFields.append (stops_cons rfl))
            (stops_prettyFields.append (stops_cons rfl)) heq
          obtain ⟨rfl, hend⟩ := ih hrest hlater hbehind
          exact ⟨by rw [hfield], hend⟩

/-- It is enough that the text tells a value from those of its own kind. -/
theorem FloatFree.told_of_kind (h : FloatFree v)
    (hkind : ∀ level w r r', FloatFree w → v.kind = w.kind → Stops r → Stops r' →
      v.prettyChars width level ++ r = w.prettyChars width level ++ r' → v = w ∧ r = r') :
    Told width v := by
  intro level w r r' hw hr hr' heq
  refine hkind level w r r' hw ?_ hr hr' heq
  rw [← h.kind_eq width level r, heq, hw.kind_eq]

theorem told_arr (hitems : FloatFree (.arr items)) (h : ∀ v ∈ items, Told width v) :
    Told width (.arr items) := by
  refine hitems.told_of_kind fun level w r r' hw hkind hr hr' heq => ?_
  cases hw with
  | @arr others hothers =>
      cases items with
      | nil =>
          cases others with
          | nil =>
              rw [prettyChars] at heq
              exact ⟨rfl, List.append_cancel_left heq⟩
          | cons w others =>
              rw [prettyChars, prettyChars] at heq
              exact absurd (List.cons.inj (List.cons.inj heq).2).1 (by decide)
      | cons v rest =>
          cases others with
          | nil =>
              rw [prettyChars, prettyChars] at heq
              exact absurd (List.cons.inj (List.cons.inj heq).2).1 (by decide)
          | cons w others =>
              obtain ⟨hv, hrest⟩ := List.forall_mem_cons.mp h
              obtain ⟨hw, hlater⟩ := List.forall_mem_cons.mp hothers
              rw [prettyChars, prettyChars] at heq
              simp only [List.cons_append, List.append_assoc, List.cons.injEq, true_and,
                List.append_cancel_left_eq] at heq
              obtain ⟨rfl, hbehind⟩ := hv (level + 1) w _ _ hw
                (stops_prettyItems.append stops_newline) (stops_prettyItems.append stops_newline)
                heq
              obtain ⟨rfl, hend⟩ := told_items hrest hlater hbehind
              exact ⟨rfl, by simpa using hend⟩
  | _ => cases hkind

theorem told_obj (hfields : FloatFree (.obj fields)) (h : ∀ field ∈ fields, Told width field.2) :
    Told width (.obj fields) := by
  refine hfields.told_of_kind fun level w r r' hw hkind hr hr' heq => ?_
  cases hw with
  | @obj others hothers =>
      cases fields with
      | nil =>
          cases others with
          | nil =>
              rw [prettyChars] at heq
              exact ⟨rfl, List.append_cancel_left heq⟩
          | cons field others =>
              rw [prettyChars, prettyChars] at heq
              exact absurd (List.cons.inj (List.cons.inj heq).2).1 (by decide)
      | cons field rest =>
          obtain ⟨k, v⟩ := field
          cases others with
          | nil =>
              rw [prettyChars, prettyChars] at heq
              exact absurd (List.cons.inj (List.cons.inj heq).2).1 (by decide)
          | cons field others =>
              obtain ⟨l, w⟩ := field
              obtain ⟨hv, hrest⟩ := List.forall_mem_cons.mp h
              obtain ⟨hw, hlater⟩ := List.forall_mem_cons.mp hothers
              rw [prettyChars, prettyChars] at heq
              simp only [List.cons_append, List.append_assoc, List.cons.injEq, true_and,
                List.append_cancel_left_eq] at heq
              obtain ⟨hfield, hbehind⟩ := told_field hv hw
                (stops_prettyFields.append stops_newline) (stops_prettyFields.append stops_newline)
                heq
              obtain ⟨rfl, hend⟩ := told_fields hrest hlater hbehind
              exact ⟨by rw [hfield], by simpa using hend⟩
  | _ => cases hkind

theorem FloatFree.told (h : FloatFree v) (width : Nat) : Told width v := by
  induction h with
  | null =>
      refine FloatFree.null.told_of_kind fun level w r r' hw hkind hr hr' heq => ?_
      cases hw with
      | null =>
          rw [prettyChars] at heq
          exact ⟨rfl, List.append_cancel_left heq⟩
      | _ => cases hkind
  | bool b =>
      refine (FloatFree.bool b).told_of_kind fun level w r r' hw hkind hr hr' heq => ?_
      cases hw with
      | bool b' =>
          rw [prettyChars, prettyChars] at heq
          cases b <;> cases b'
          · exact ⟨rfl, List.append_cancel_left heq⟩
          · exact absurd (List.cons.inj heq).1 (by decide)
          · exact absurd (List.cons.inj heq).1 (by decide)
          · exact ⟨rfl, List.append_cancel_left heq⟩
      | _ => cases hkind
  | int n =>
      refine (FloatFree.int n).told_of_kind fun level w r r' hw hkind hr hr' heq => ?_
      cases hw with
      | int m =>
          rw [prettyChars, prettyChars] at heq
          obtain ⟨rfl, hend⟩ := text_int_append_inj hr hr' heq
          exact ⟨rfl, hend⟩
      | _ => cases hkind
  | str s =>
      refine (FloatFree.str s).told_of_kind fun level w r r' hw hkind hr hr' heq => ?_
      cases hw with
      | str t =>
          rw [prettyChars, prettyChars] at heq
          obtain ⟨rfl, hend⟩ := quote_append_inj heq
          exact ⟨rfl, hend⟩
      | _ => cases hkind
  | arr hitems ih => exact told_arr (.arr hitems) ih
  | obj hfields ih => exact told_obj (.obj hfields) ih

/-- Different values without floating point numbers have different texts. -/
theorem FloatFree.pretty_inj (hv : FloatFree v) (hw : FloatFree w) (h : v.pretty = w.pretty) :
    v = w := by
  have hchars : v.prettyChars 2 0 ++ [] = w.prettyChars 2 0 ++ [] := by
    rw [List.append_nil, List.append_nil, ← String.ofList_inj]
    exact h
  exact (hv.told 2 0 w [] [] hw stops_nil stops_nil hchars).1

end TaskTags.Json
