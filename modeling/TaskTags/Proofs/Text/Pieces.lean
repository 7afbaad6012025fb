import Mathlib.Data.List.DropRight
import TaskTags.Tag.Set

/-!
# Comma separated pieces

A piece of a text is a text of one piece, itself.
-/

namespace TaskTags.Text

theorem not_mem_of_mem_splitOn {c : Char} {cs chunk : List Char} (h : chunk ∈ cs.splitOn c) :
    c ∉ chunk := by
  rw [List.splitOn_eq_splitOnP] at h
  induction cs generalizing chunk with
  | nil =>
      obtain rfl : chunk = [] := by simpa using h
      exact List.not_mem_nil
  | cons x xs ih =>
      rw [List.splitOnP_cons_eq_if_modifyHead] at h
      by_cases hx : (x == c) = true
      · rw [if_pos hx] at h
        rcases List.mem_cons.mp h with rfl | h
        · exact List.not_mem_nil
        · exact ih h
      · rw [if_neg hx] at h
        obtain ⟨first, rest, hsplit⟩ :=
          List.exists_cons_of_ne_nil (List.splitOnP_ne_nil (· == c) xs)
        rw [hsplit, List.modifyHead_cons] at h
        rw [hsplit] at ih
        rcases List.mem_cons.mp h with rfl | h
        · have hfirst : c ∉ first := ih List.mem_cons_self
          intro hmem
          rcases List.mem_cons.mp hmem with rfl | hmem
          · exact hx (by simp)
          · exact hfirst hmem
        · exact ih (List.mem_cons_of_mem _ h)

theorem infix_trimChars (cs : List Char) : trimChars cs <:+: cs :=
  (List.rdropWhile_prefix isBlank (trimStart cs)).isInfix.trans
    (List.dropWhile_suffix isBlank).isInfix

theorem trimChars_sublist (cs : List Char) : (trimChars cs).Sublist cs :=
  (infix_trimChars cs).sublist

/-- The first character of a trimmed text is not blank, so trimming it again finds nothing. -/
theorem trimChars_trimChars (cs : List Char) : trimChars (trimChars cs) = trimChars cs := by
  have hstart : trimStart (trimChars cs) = trimChars cs := by
    apply List.dropWhile_eq_self_iff.mpr
    intro hlength
    have hfront : trimChars cs <+: trimStart cs := List.rdropWhile_prefix isBlank (trimStart cs)
    have hlength' : 0 < (trimStart cs).length := hlength.trans_le hfront.length_le
    rw [hfront.getElem hlength]
    exact List.dropWhile_get_zero_not isBlank cs hlength'
  have hend : trimEnd (trimChars cs) = trimChars cs :=
    List.rdropWhile_idempotent isBlank (trimStart cs)
  rw [trimChars, hstart, hend]

/-- A text is a trimmed one between blanks. -/
theorem exists_append_trimChars (cs : List Char) :
    ∃ front back, cs = front ++ (trimChars cs ++ back) ∧ (∀ c ∈ front, isBlank c = true) ∧
      ∀ c ∈ back, isBlank c = true := by
  refine ⟨cs.takeWhile isBlank, (trimStart cs).rtakeWhile isBlank, ?_, ?_, ?_⟩
  · calc cs = cs.takeWhile isBlank ++ trimStart cs := List.takeWhile_append_dropWhile.symm
      _ = _ := by rw [trimChars, trimEnd, ← List.rdropWhile, List.rdropWhile_append_rtakeWhile]
  · exact fun c hc => List.mem_takeWhile_imp hc
  · exact fun c hc => List.mem_rtakeWhile_imp hc

theorem not_isBlank_of_getLast?_trimChars {cs : List Char} {c : Char}
    (h : (trimChars cs).getLast? = some c) : isBlank c = false := by
  have hne : trimChars cs ≠ [] := by
    intro hnil
    rw [hnil] at h
    cases h
  obtain rfl : (trimChars cs).getLast hne = c :=
    Option.some.inj ((List.getLast?_eq_some_getLast hne).symm.trans h)
  exact Bool.eq_false_iff.mpr (List.rdropWhile_last_not isBlank (trimStart cs) hne)

theorem trimChars_between {front back : List Char} (hfront : ∀ c ∈ front, isBlank c = true)
    (hback : ∀ c ∈ back, isBlank c = true) (cs : List Char) :
    trimChars (front ++ (cs ++ back)) = trimChars cs := by
  have hend : ∀ xs, trimEnd (xs ++ back) = trimEnd xs := fun xs => by
    have hback' : ∀ c ∈ back.reverse, isBlank c = true := fun c hc =>
      hback c (List.mem_reverse.mp hc)
    rw [trimEnd, List.reverse_append, List.dropWhile_append_of_pos hback', trimEnd]
  rw [trimChars, trimStart, List.dropWhile_append_of_pos hfront, List.dropWhile_append]
  cases hcs : (cs.dropWhile isBlank).isEmpty with
  | true =>
      have hblank : back.dropWhile isBlank = [] := List.dropWhile_eq_nil_iff.mpr hback
      rw [if_pos rfl, hblank, trimChars, trimStart, List.isEmpty_iff.mp hcs]
  | false => rw [if_neg Bool.false_ne_true, hend, trimChars, trimStart]

theorem commaPieces_of_mem {s piece : String} (h : piece ∈ commaPieces s) :
    commaPieces piece = [piece] := by
  obtain ⟨cs, hcs, rfl⟩ := List.mem_map.mp h
  obtain ⟨htrimmed, hne⟩ := List.mem_filter.mp hcs
  obtain ⟨chunk, hchunk, rfl⟩ := List.mem_map.mp htrimmed
  have hcomma : ',' ∉ trimChars chunk := fun hmem =>
    not_mem_of_mem_splitOn hchunk ((trimChars_sublist chunk).subset hmem)
  rw [commaPieces, String.toList_ofList, List.splitOn_eq_singleton hcomma, List.map_singleton,
    trimChars_trimChars, List.filter_singleton, hne]
  rfl

end TaskTags.Text

/-- The tags of the pieces of a text are those of the text. -/
theorem TaskTags.TagSet.ofValues_commaPieces (s : String) :
    ofValues (Text.commaPieces s) = ofValues [s] := by
  have hpieces : (Text.commaPieces s).flatMap Text.commaPieces = Text.commaPieces s := by
    rw [List.flatMap_congr fun piece hpiece => Text.commaPieces_of_mem hpiece,
      List.flatMap_singleton']
  rw [ofValues, ofValues, hpieces, List.flatMap_singleton]
