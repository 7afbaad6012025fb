import TaskTags.Proofs.Json.Number

/-!
# Tokens of a text in parts

The tokens of texts, one after the other, are those of the first and then those of the next.
-/

namespace TaskTags.Json

variable {cs rest r text more : List Char} {t : Token} {ts us : List Token}

theorem not_isSpace_of_first? {c : Char} (h : Token.first? (c :: cs) = some (t, r)) :
    isSpace c = false := by
  cases hc : isSpace c with
  | false => rfl
  | true =>
      simp only [isSpace, Bool.or_eq_true, beq_iff_eq] at hc
      obtain ((rfl | rfl) | rfl) | rfl := hc <;> cases h

theorem all?_of_first? (h : Token.first? cs = some (t, r)) (hlen : r.length < cs.length)
    (hr : Token.all? r = some ts) : Token.all? cs = some (t :: ts) := by
  cases cs with
  | nil => cases h
  | cons c cs =>
      have hspace : ¬ isSpace c = true := Bool.not_eq_true _ ▸ not_isSpace_of_first? h
      rw [Token.all?, List.dropWhile_cons_of_neg hspace]
      simp only [h, hlen, if_true, hr, Option.map_some]

theorem all?_cons_of_isSpace {c : Char} (hc : isSpace c = true) (h : Token.all? cs = some ts) :
    Token.all? (c :: cs) = some ts := by
  rw [Token.all?] at h ⊢
  rw [List.dropWhile_cons_of_pos hc]
  split at h
  · exact h
  · next d tail hdrop =>
      split at h
      · cases h
      · next t r hfirst =>
        split at h
        · next hlen =>
          have hlen' : r.length < (c :: cs).length := Nat.lt_succ_of_lt hlen
          simp only [hlen', if_true]
          exact h
        · cases h

/-- A text that stands for tokens in front of every text that it cannot go on with. -/
def Spells (text : List Char) (tokens : List Token) : Prop :=
  ∀ rest more, Stops rest → Token.all? rest = some more →
    Token.all? (text ++ rest) = some (tokens ++ more)

theorem spells_nil : Spells [] [] := fun _ _ _ h => h

theorem Stops.append (h : Stops cs) (hrest : Stops rest) : Stops (cs ++ rest) := by
  cases cs with
  | nil => exact hrest
  | cons c cs => exact stops_cons (h c rfl)

namespace Spells

theorem of_first? (hne : text ≠ [])
    (h : ∀ rest, Stops rest → Token.first? (text ++ rest) = some (t, rest)) : Spells text [t] := by
  intro rest more hstop hrest
  refine all?_of_first? (h rest hstop) ?_ hrest
  have hpos := List.length_pos_iff.mpr hne
  rw [List.length_append]
  omega

theorem append (h : Spells cs ts) (hrest : Spells rest us) (hstop : Stops rest) :
    Spells (cs ++ rest) (ts ++ us) := by
  intro behind more hbehind hmore
  rw [List.append_assoc, List.append_assoc]
  exact h _ _ (hstop.append hbehind) (hrest _ _ hbehind hmore)

theorem cons {c : Char} (hc : ∀ rest, Token.first? (c :: rest) = some (t, rest))
    (h : Spells cs ts) : Spells (c :: cs) (t :: ts) := by
  intro rest more hstop hmore
  exact all?_of_first? (hc _) (Nat.lt_succ_self _) (h rest more hstop hmore)

theorem cons_space {c : Char} (hc : isSpace c = true) (h : Spells cs ts) : Spells (c :: cs) ts :=
  fun rest more hstop hmore => all?_cons_of_isSpace hc (h rest more hstop hmore)

theorem all? (h : Spells cs ts) : Token.all? cs = some ts := by
  have hnil : Token.all? [] = some [] := by rw [Token.all?]; rfl
  have htext := h [] [] stops_nil hnil
  rwa [List.append_nil, List.append_nil] at htext

theorem null : Spells "null".toList [.scalar .null] :=
  of_first? (by decide) fun _ _ => rfl

theorem bool (b : Bool) :
    Spells (if b then "true" else "false").toList [.scalar (.bool b)] := by
  cases b
  · exact of_first? (by decide) fun _ _ => rfl
  · exact of_first? (by decide) fun _ _ => rfl

theorem number {n : Number} (h : n.Exact) : Spells n.text.toList [.scalar (.num n)] := by
  refine of_first? (fun hnil => ?_) fun rest hstop => ?_
  · rw [Number.Exact, hnil] at h
    cases h
  · exact first?_number_append h hstop

end Spells

/-! ## Strings -/

theorem hexValue?_hexDigit : ∀ n < 16, Decimal.hexValue? (hexDigit n) = some n := by decide

theorem codeUnit?_control {n : Nat} (h : n < 32) :
    codeUnit? '0' '0' (hexDigit (n / 16)) (hexDigit (n % 16)) = some n := by
  have hzero : Decimal.hexValue? '0' = some 0 := rfl
  have hhigh := hexValue?_hexDigit (n / 16) (by omega)
  have hlow := hexValue?_hexDigit (n % 16) (by omega)
  rw [codeUnit?, hzero, hhigh, hlow]
  simp only [Option.bind_eq_bind, Option.bind_some, Option.pure_def, Option.some.injEq]
  omega

theorem stringBody?_short (e : Char) {c : Char} (h : shortEscape? e = some c) (cs : List Char) :
    stringBody? ('\\' :: e :: cs) = (stringBody? cs).map fun (body, r) => (c :: body, r) := by
  rw [stringBody?, h]
  rintro _ _ _ _ _ rfl
  cases h

theorem stringBody?_control {c : Char} (h : c.toNat < 32) (cs : List Char) :
    stringBody? ('\\' :: 'u' :: '0' :: '0' ::
        hexDigit (c.toNat / 16) :: hexDigit (c.toNat % 16) :: cs)
      = (stringBody? cs).map fun (body, r) => (c :: body, r) := by
  have htrailing : isTrailing c.toNat = false := by
    simp only [isTrailing, Bool.and_eq_false_iff, decide_eq_false_iff_not]
    omega
  have hleading : isLeading c.toNat = false := by
    simp only [isLeading, Bool.and_eq_false_iff, decide_eq_false_iff_not]
    omega
  rw [stringBody?, codeUnit?_control h]
  simp only [htrailing, hleading, Bool.false_eq_true, if_false, Char.ofNat_toNat]

theorem stringBody?_plain {c : Char} (hquote : c ≠ '"') (hslash : c ≠ '\\') (h : ¬ c.toNat < 32)
    (cs : List Char) :
    stringBody? (c :: cs) = (stringBody? cs).map fun (body, r) => (c :: body, r) := by
  rw [stringBody?]
  · simp only [h, hslash, decide_false, Bool.false_or, beq_iff_eq, if_false]
  · exact hquote
  · exact fun _ _ _ _ _ heq => absurd heq hslash
  · exact fun _ _ heq => absurd heq hslash

/-- An escaped character is read as the character. -/
theorem stringBody?_escapeChar (c : Char) (cs : List Char) :
    stringBody? (escapeChar c ++ cs) = (stringBody? cs).map fun (body, r) => (c :: body, r) := by
  have hcode : ∀ e n, c.toNat = n → shortEscape? e = some (Char.ofNat n) →
      stringBody? ('\\' :: e :: cs) = (stringBody? cs).map fun (body, r) => (c :: body, r) := by
    rintro e _ rfl he
    rw [Char.ofNat_toNat] at he
    exact stringBody?_short e he cs
  unfold escapeChar
  split
  · next h => exact h ▸ stringBody?_short '"' rfl cs
  split
  · next h => exact h ▸ stringBody?_short '\\' rfl cs
  split
  · next h => exact hcode 'b' 8 h rfl
  split
  · next h => exact hcode 't' 9 h rfl
  split
  · next h => exact hcode 'n' 10 h rfl
  split
  · next h => exact hcode 'f' 12 h rfl
  split
  · next h => exact hcode 'r' 13 h rfl
  split
  · next h => exact stringBody?_control h cs
  · next hquote hslash _ _ _ _ _ h => exact stringBody?_plain hquote hslash h cs

theorem stringBody?_flatMap (cs rest : List Char) :
    stringBody? (cs.flatMap escapeChar ++ '"' :: rest) = some (cs, rest) := by
  induction cs with
  | nil => rfl
  | cons c cs ih =>
      rw [List.flatMap_cons, List.append_assoc, stringBody?_escapeChar, ih]
      rfl

theorem Spells.quote (s : String) : Spells (quote s) [.scalar (.str s)] := by
  refine of_first? (fun hnil => by cases hnil) fun rest _ => ?_
  have hbody := stringBody?_flatMap s.toList rest
  rw [Json.quote, quoteChars, List.cons_append, List.append_assoc, List.singleton_append,
    Token.first?, hbody]
  simp

end TaskTags.Json
