import Mathlib.Data.List.DropRight
import TaskTags.Proofs.Template.InStep
import TaskTags.Proofs.Template.Scan

/-!
# The tokens of a block

The inside of an expression block, read up to the mark that ends the block, has the tokens that it
has on its own. Where a sign or a brace in front of that mark ends the block too early, these are
left of it on their own.
-/

namespace TaskTags.Template

open Decimal (IsSign)

/-- The place in an expression with some brackets open. -/
def Place.inExpr (depth : Int) : Place := ⟨.expr, depth, false, false⟩

def depthBehind (depth : Int) : Token → Int
  | .mark m => depth + nesting m
  | _ => depth

theorem list_inExpr (n : Nat) (depth : Int) (cs : List Char) :
    Token.list (n + 1) (.inExpr depth) cs =
      match cs.dropWhile isInnerBlank with
      | [] => []
      | c :: rest =>
        match (if depth = 0 then closing? .expr (c :: rest) else none) with
        | some (behind, trim) =>
          .exprEnd :: Token.list n ⟨.text, 0, trim == .all, false⟩ behind
        | none =>
          let found := scanInner c rest
          found.1 :: Token.list n (.inExpr (depthBehind depth found.1)) found.2 := by
  cases hcs : cs.dropWhile isInnerBlank with
  | nil => simp only [Token.list, Place.inExpr, hcs]
  | cons c rest =>
      simp only [Token.list, Place.inExpr, hcs, beq_iff_eq]
      cases (if depth = 0 then closing? .expr (c :: rest) else none) with
      | some found => simp [Place.afterTag]
      | none => rfl

theorem exists_of_closing? {cs behind : List Char} {trim : Trim}
    (h : closing? .expr cs = some (behind, trim)) :
    ∃ sign ∈ [[], ['-'], ['+']], cs = sign ++ '}' :: '}' :: behind := by
  simp only [closing?, BEq.rfl, if_true] at h
  split at h
  · next c rest hdrop =>
      split at h
      · next hc =>
          cases h
          obtain rfl : c = '}' := beq_iff_eq.mp hc
          cases cs with
          | nil => simp at hdrop
          | cons s cs =>
              by_cases hs : s = '-' ∨ s = '+'
              · have hwidth : (Trim.ofChar? (s :: cs).head?).width = 1 := by
                  rcases hs with rfl | rfl <;> rfl
                rw [hwidth, List.drop_one, List.tail_cons] at hdrop
                exact ⟨[s], by simpa using hs, by rw [hdrop, List.singleton_append]⟩
              · have hwidth : (Trim.ofChar? (s :: cs).head?).width = 0 := by
                  simp [Trim.ofChar?]
                  split <;> simp_all [Trim.width]
                rw [hwidth, List.drop_zero] at hdrop
                exact ⟨[], by simp, hdrop⟩
      · cases h
  · cases h

theorem closing?_eq_none {cs : List Char} (hpair : ¬ ['}', '}'] <:+: cs) :
    closing? .expr cs = none := by
  cases h : closing? .expr cs with
  | none => rfl
  | some p =>
      obtain ⟨sign, -, rfl⟩ := exists_of_closing? h
      exact absurd ⟨sign, p.1, by simp⟩ hpair

/-- Where a block ends too early, no more than one brace of its mark belongs to what is in front of
it. -/
theorem closing?_append {cs blanks : List Char} (hne : cs ≠ []) (hpair : ¬ ['}', '}'] <:+: cs)
    (hblanks : ∀ c ∈ blanks, Text.isBlank c = true) :
    closing? .expr (cs ++ (blanks ++ ['}', '}'])) = none ∨
      blanks = [] ∧ cs ∈ [['-'], ['+'], ['}'], ['-', '}'], ['+', '}']] := by
  cases h : closing? .expr (cs ++ (blanks ++ ['}', '}'])) with
  | none => exact .inl rfl
  | some p =>
      have hblank : ∀ rest, blanks ++ ['}', '}'] = '}' :: rest → blanks = [] := by
        intro rest heq
        cases blanks with
        | nil => rfl
        | cons b blanks =>
            obtain ⟨rfl, -⟩ := List.cons.inj heq
            exact absurd (hblanks '}' List.mem_cons_self) (by decide)
      obtain ⟨sign, hsign, heq⟩ := exists_of_closing? h
      refine .inr ?_
      rcases List.append_eq_append_iff.mp heq with ⟨a, rfl, htail⟩ | ⟨a, rfl, htail⟩
      · -- Nothing but the sign of the mark stands in front of it.
        obtain ⟨s, cs, rfl⟩ := List.exists_cons_of_ne_nil hne
        have hshort : (s = '-' ∨ s = '+') ∧ cs = [] ∧ a = [] := by
          rw [or_and_right]
          simpa using hsign
        obtain ⟨hs, rfl, rfl⟩ := hshort
        refine ⟨hblank _ htail, ?_⟩
        rcases hs with rfl | rfl <;> simp
      · simp only [List.mem_cons, List.not_mem_nil, or_false] at hsign
        rcases a with _ | ⟨b, _ | ⟨b', a⟩⟩
        · refine ⟨hblank _ htail.symm, ?_⟩
          rw [List.append_nil] at hne ⊢
          rcases hsign with rfl | rfl | rfl
          · exact absurd rfl hne
          · simp
          · simp
        · simp only [List.cons_append, List.nil_append, List.cons.injEq] at htail
          obtain ⟨rfl, htail⟩ := htail
          refine ⟨hblank _ htail.symm, ?_⟩
          rcases hsign with rfl | rfl | rfl <;> simp
        · simp only [List.cons_append, List.cons.injEq] at htail
          obtain ⟨rfl, rfl, -⟩ := htail
          exact absurd ⟨sign, a, by simp⟩ hpair

def EndsInSign (cs : List Char) : Prop := ∃ c, cs.getLast? = some c ∧ IsSign c

/-- The tokens of a block with what follows it, and those of its characters alone: where the block
ends, they are the same up to there, and behind them stands what is left of a longer mark. -/
def InParallel (cs : List Char) (whole alone : List Token) : Prop :=
  .exprEnd ∈ whole → ∃ ts behind extra, whole = ts ++ .exprEnd :: behind ∧ alone = ts ++ extra ∧
    .exprEnd ∉ ts ∧ extra ∈ strays ∧
    (behind = [] ∨ behind = [.text "\x7d"] ∧ cs.getLast? = some '}') ∧
    (extra = [] ↔ behind = [] ∧ ¬ EndsInSign cs)

namespace InParallel

variable {cs cs' : List Char} {whole alone : List Token} {t : Token}

theorem of_not_mem (h : .exprEnd ∉ whole) : InParallel cs whole alone := fun hmem => absurd hmem h

theorem congr (h : InParallel cs whole alone) (hlast : cs.getLast? = cs'.getLast?) :
    InParallel cs' whole alone := by
  unfold InParallel EndsInSign at h ⊢
  rwa [← hlast]

theorem of_nil (h : InParallel [] whole alone) (hsign : ¬ EndsInSign cs) :
    InParallel cs whole alone := by
  intro hmem
  obtain ⟨ts, behind, extra, hwhole, halone, hts, hextra, hbehind, hiff⟩ := h hmem
  have hnil : ¬ EndsInSign [] := by simp [EndsInSign]
  refine ⟨ts, behind, extra, hwhole, halone, hts, hextra, .inl ?_, ?_⟩
  · exact hbehind.resolve_right (by simp)
  · rw [hiff, iff_of_false hnil hsign]

theorem cons (h : InParallel cs whole alone) (ht : t ≠ .exprEnd) :
    InParallel cs (t :: whole) (t :: alone) := by
  intro hmem
  obtain ⟨ts, behind, extra, rfl, rfl, hts, hextra, hbehind, hiff⟩ :=
    h ((List.mem_cons.mp hmem).resolve_left ht.symm)
  refine ⟨t :: ts, behind, extra, rfl, rfl, ?_, hextra, hbehind, hiff⟩
  simp [ht.symm, hts]

end InParallel

theorem list_inExpr_nil (n : Nat) (depth : Int) : Token.list (n + 1) (.inExpr depth) [] = [] := rfl

/-- A character that no mark of two characters starts with is a mark of its own. -/
theorem scanInner_mark {c : Char} (hmark : isMark c = true)
    (hlong : c ∉ ['/', '*', '=', '!', '>', '<']) (cs : List Char) :
    scanInner c cs = (.mark (String.ofList [c]), cs) := by
  have hlong' : longMarks.contains (String.ofList (c :: cs.take 1)) = false := by
    rw [Bool.eq_false_iff]
    exact fun h => hlong (chars_of_longMark h).1
  simp only [scanInner, hlong', hmark, Bool.false_eq_true, if_false, if_true]

theorem list_dropBlanks (n : Nat) (depth : Int) (cs : List Char) :
    Token.list (n + 1) (.inExpr depth) cs
      = Token.list (n + 1) (.inExpr depth) (cs.dropWhile isInnerBlank) := by
  rw [list_inExpr, list_inExpr, List.dropWhile_idempotent]

theorem list_scanned {c : Char} {cs : List Char} {depth : Int} (hc : isInnerBlank c = false)
    (hclosing : depth = 0 → closing? .expr (c :: cs) = none) (n : Nat) :
    Token.list (n + 1) (.inExpr depth) (c :: cs) = (scanInner c cs).1 ::
      Token.list n (.inExpr (depthBehind depth (scanInner c cs).1)) (scanInner c cs).2 := by
  have hnone : (if depth = 0 then closing? .expr (c :: cs) else none) = none := by
    split
    · exact hclosing ‹_›
    · rfl
  rw [list_inExpr, List.dropWhile_cons_of_neg (by simp [hc])]
  simp only [hnone]

theorem isInnerBlank_of_dropWhile {cs rest : List Char} {c : Char}
    (h : cs.dropWhile isInnerBlank = c :: rest) : isInnerBlank c = false := by
  have hhead := List.dropWhile_get_zero_not isInnerBlank cs (by simp [h])
  simpa [h] using hhead

theorem closing?_blank {b : Char} (hb : Text.isBlank b = true) (cs : List Char) :
    closing? .expr (b :: cs) = none := by
  cases h : closing? .expr (b :: cs) with
  | none => rfl
  | some p =>
      obtain ⟨sign, hsign, heq⟩ := exists_of_closing? h
      simp only [List.mem_cons, List.not_mem_nil, or_false] at hsign
      rcases hsign with rfl | rfl | rfl <;> obtain ⟨rfl, -⟩ := List.cons.inj heq <;> cases hb

/-- Blanks in front are left out, unless there is one that cannot be read. -/
theorem list_front {front : List Char} (hfront : ∀ c ∈ front, Text.isBlank c = true) (n : Nat)
    (depth : Int) (cs : List Char) :
    Token.list (n + 2) (.inExpr depth) (front ++ cs) = Token.list (n + 2) (.inExpr depth) cs ∨
      .exprEnd ∉ Token.list (n + 2) (.inExpr depth) (front ++ cs) := by
  rw [list_dropBlanks, List.dropWhile_append]
  cases hrest : front.dropWhile isInnerBlank with
  | nil => exact .inl (list_dropBlanks (n + 1) depth cs).symm
  | cons b rest =>
      refine .inr ?_
      have hb : Text.isBlank b = true := by
        have hmem : b ∈ front.dropWhile isInnerBlank := by simp [hrest]
        exact hfront b ((List.dropWhile_sublist _).subset hmem)
      rw [List.isEmpty_cons, if_neg Bool.false_ne_true, List.cons_append,
        list_scanned (isInnerBlank_of_dropWhile hrest) fun _ => closing?_blank hb _,
        scanInner_blank hb, list_inExpr_nil]
      simp

/-- Behind blanks stands the end of the block, unless there are open brackets. -/
theorem list_blanks {blanks : List Char} (hblanks : ∀ c ∈ blanks, Text.isBlank c = true) (n : Nat)
    (depth : Int) :
    depth = 0 ∧ Token.list (n + 4) (.inExpr depth) (blanks ++ ['}', '}']) = [.exprEnd] ∨
      .exprEnd ∉ Token.list (n + 4) (.inExpr depth) (blanks ++ ['}', '}']) := by
  rcases list_front hblanks (n + 2) depth ['}', '}'] with hlist | hlist
  · rw [hlist]
    by_cases hdepth : depth = 0
    · subst hdepth
      exact .inl ⟨rfl, rfl⟩
    · refine .inr ?_
      have hbrace : ∀ cs, scanInner '}' cs = (.mark "\x7d", cs) :=
        scanInner_mark (by decide) (by decide)
      rw [list_scanned (by decide) fun h => absurd h hdepth, hbrace,
        list_scanned (by decide) fun _ => rfl, hbrace, list_inExpr_nil]
      simp
  · exact .inr hlist

/-- What a block comes to that is ended by a brace, or a sign, of its inside. -/
theorem list_early {cs : List Char} (hcs : cs ∈ [['-'], ['+'], ['}'], ['-', '}'], ['+', '}']])
    {n m : Nat} (hn : 4 ≤ n) (hm : cs.length + 1 ≤ m) :
    InParallel cs (Token.list n (.inExpr 0) (cs ++ ['}', '}'])) (Token.list m (.inExpr 0) cs) := by
  obtain ⟨n, rfl⟩ : ∃ k, n = k + 4 := ⟨n - 4, by omega⟩
  obtain ⟨m, rfl⟩ : ∃ k, m = k + (cs.length + 1) := ⟨m - (cs.length + 1), by omega⟩
  have hends : EndsInSign ['-'] ∧ EndsInSign ['+'] := ⟨⟨'-', rfl, .inl rfl⟩, ⟨'+', rfl, .inr rfl⟩⟩
  simp only [List.mem_cons, List.not_mem_nil, or_false] at hcs
  rcases hcs with rfl | rfl | rfl | rfl | rfl
  · exact fun _ => ⟨[], [], [.mark "-"], rfl, rfl, by simp, by decide, .inl rfl, by simp [hends]⟩
  · exact fun _ => ⟨[], [], [.mark "+"], rfl, rfl, by simp, by decide, .inl rfl, by simp [hends]⟩
  · exact fun _ => ⟨[], [.text "\x7d"], [.mark "\x7d"], rfl, rfl, by simp, by decide,
      .inr ⟨rfl, rfl⟩, by simp⟩
  · exact fun _ => ⟨[], [.text "\x7d"], [.mark "-", .mark "\x7d"], rfl, rfl, by simp, by decide,
      .inr ⟨rfl, rfl⟩, by simp⟩
  · exact fun _ => ⟨[], [.text "\x7d"], [.mark "+", .mark "\x7d"], rfl, rfl, by simp, by decide,
      .inr ⟨rfl, rfl⟩, by simp⟩

theorem not_endsInSign_of_blank {blanks : List Char} (h : ∀ c ∈ blanks, Text.isBlank c = true) :
    ¬ EndsInSign blanks := by
  rintro ⟨c, hc, rfl | rfl⟩ <;> exact absurd (h _ (List.mem_of_getLast? hc)) (by decide)

theorem isBlank_of_isInnerBlank {c : Char} (h : isInnerBlank c = true) : Text.isBlank c = true := by
  simp only [isInnerBlank, Bool.or_eq_true, beq_iff_eq] at h
  rcases h with (((rfl | rfl) | rfl) | rfl) | h
  · decide
  · decide
  · decide
  · decide
  · simp [Text.isBlank, h]

/-- With blanks between them and the mark that ends a block, characters are read as they are
alone. -/
def ReadsAlone (blanks cs : List Char) : Prop :=
  ∀ (n m : Nat) (depth : Int), cs.length + 4 ≤ n → cs.length + 1 ≤ m →
    InParallel (cs ++ blanks) (Token.list n (.inExpr depth) (cs ++ (blanks ++ ['}', '}'])))
      (Token.list m (.inExpr depth) cs)

/-- A sign in front of the mark that ends a block is part of it, unless brackets are open. -/
theorem list_lastSign {c : Char} (hsign : IsSign c) {n : Nat} (hn : 4 ≤ n) {depth : Int}
    (hclosing : depth = 0 → closing? .expr [c, '}', '}'] = none) :
    .exprEnd ∉
      Token.list n (.inExpr (depthBehind depth (.mark (String.ofList [c])))) ['}', '}'] := by
  obtain ⟨n, rfl⟩ : ∃ k, n = k + 4 := ⟨n - 4, by omega⟩
  have hbehind : depthBehind depth (.mark (String.ofList [c])) = depth := by
    rcases hsign with rfl | rfl <;> exact Int.add_zero depth
  rw [hbehind]
  rcases @list_blanks [] nofun n depth with ⟨rfl, -⟩ | hlist
  · rcases hsign with rfl | rfl <;> cases hclosing rfl
  · exact hlist

/-- Behind a token, the same end is in front, unless the token is a sign that belongs to it. -/
theorem ReadsAlone.behind {blanks : List Char} {c : Char} {rest : List Char}
    (h : ReadsAlone blanks (scanInner c rest).2)
    (hgood : ∀ fault, (scanInner c rest).1 ≠ .bad fault) {n m : Nat} {depth : Int}
    (hn : rest.length + 4 ≤ n) (hm : rest.length + 1 ≤ m)
    (hclosing : depth = 0 → closing? .expr (c :: (rest ++ (blanks ++ ['}', '}']))) = none) :
    let place := Place.inExpr (depthBehind depth (scanInner c rest).1)
    InParallel (c :: rest ++ blanks)
      (Token.list n place ((scanInner c rest).2 ++ (blanks ++ ['}', '}'])))
      (Token.list m place (scanInner c rest).2) := by
  have hlength := (scanned c rest).suffix.length_le
  have hparallel := h n m (depthBehind depth (scanInner c rest).1) (by omega) (by omega)
  by_cases hend : (scanInner c rest).2 ++ blanks = []
  · obtain ⟨hrest, rfl⟩ := List.append_eq_nil_iff.mp hend
    by_cases hsign : EndsInSign (c :: rest)
    · obtain ⟨d, hlast, hd⟩ := hsign
      obtain ⟨rfl, ht⟩ := (scanned c rest).eq_sign hrest hgood hlast hd
      obtain rfl : c = d := by simpa using hlast
      simp only [ht, hrest]
      exact .of_not_mem (list_lastSign hd (by omega) hclosing)
    · rw [List.append_nil]
      exact (hend ▸ hparallel).of_nil hsign
  · refine hparallel.congr ?_
    obtain ⟨used, hused⟩ := (scanned c rest).suffix
    have hsplit : c :: rest ++ blanks = (c :: used) ++ ((scanInner c rest).2 ++ blanks) :=
      calc c :: rest ++ blanks = c :: (used ++ (scanInner c rest).2) ++ blanks := by rw [hused]
        _ = (c :: used) ++ ((scanInner c rest).2 ++ blanks) := by simp
    rw [hsplit]
    exact (List.getLast?_append_of_ne_nil _ hend).symm

section

variable {blanks : List Char} (hblanks : ∀ c ∈ blanks, Text.isBlank c = true)

include hblanks

theorem readsAlone_nil : ReadsAlone blanks [] := by
  intro n m depth hn hm
  obtain ⟨n, rfl⟩ : ∃ k, n = k + 4 := ⟨n - 4, by simp at hn; omega⟩
  obtain ⟨m, rfl⟩ : ∃ k, m = k + 1 := ⟨m - 1, by simp at hm; omega⟩
  rcases list_blanks hblanks n depth with ⟨rfl, hlist⟩ | hlist
  · have hsign := not_endsInSign_of_blank hblanks
    exact fun _ => ⟨[], [], [], hlist, rfl, by simp, by decide, .inl rfl, by simp [hsign]⟩
  · exact .of_not_mem hlist

/-- A character that is read, with what its token leaves. -/
theorem readsAlone_cons {c : Char} {rest : List Char} (hinner : isInnerBlank c = false)
    (hpair : ¬ ['}', '}'] <:+: c :: rest) (h : ReadsAlone blanks (scanInner c rest).2) :
    ReadsAlone blanks (c :: rest) := by
  have htail : ∀ c ∈ blanks ++ ['}', '}'], IsStop c := by
    intro c hc
    rcases List.mem_append.mp hc with hc | hc
    · exact .inr (hblanks c hc)
    · exact .inl (by simpa using hc)
  intro n m depth hn hm
  obtain ⟨n, rfl⟩ : ∃ k, n = k + 1 := ⟨n - 1, by omega⟩
  obtain ⟨m, rfl⟩ : ∃ k, m = k + 1 := ⟨m - 1, by omega⟩
  rw [List.length_cons] at hn hm
  by_cases hearly : depth = 0 ∧ blanks = [] ∧
      c :: rest ∈ [['-'], ['+'], ['}'], ['-', '}'], ['+', '}']]
  · obtain ⟨rfl, rfl, hmem⟩ := hearly
    rw [List.append_nil]
    exact list_early hmem (by omega) (by simp; omega)
  · have hclosing : depth = 0 → closing? .expr (c :: (rest ++ (blanks ++ ['}', '}']))) = none := by
      intro hdepth
      rcases closing?_append (List.cons_ne_nil c rest) hpair hblanks with hnone | hmem
      · exact hnone
      · exact absurd ⟨hdepth, hmem⟩ hearly
    have hwhole : c :: rest ++ (blanks ++ ['}', '}']) = c :: (rest ++ (blanks ++ ['}', '}'])) :=
      List.cons_append
    rw [hwhole, list_scanned hinner hclosing, list_scanned hinner fun _ => closing?_eq_none hpair]
    rcases scanInner_append htail c rest with ⟨fault, hbad⟩ | ⟨hfound, hgood⟩
    · refine .of_not_mem ?_
      obtain ⟨n, rfl⟩ : ∃ k, n = k + 1 := ⟨n - 1, by omega⟩
      rw [hbad, list_inExpr_nil]
      simp
    · rw [hfound]
      exact (h.behind hgood (by omega) (by omega) hclosing).cons (scanned c rest).ne_exprEnd

/-- The characters of a block are read as they are alone, by induction on how many are left behind a
token. -/
theorem readsAlone {cs : List Char} (hpair : ¬ ['}', '}'] <:+: cs)
    (hlast : ∀ c ∈ cs.getLast?, Text.isBlank c = false) : ReadsAlone blanks cs := by
  induction hlength : cs.length using Nat.strongRecOn generalizing cs with
  | ind k ih =>
  by_cases hnil : cs = []
  · subst hnil
    exact readsAlone_nil hblanks
  · have hdrop : cs.dropWhile isInnerBlank ≠ [] := by
      intro hdrop
      have hblank := isBlank_of_isInnerBlank
        (List.dropWhile_eq_nil_iff.mp hdrop _ (List.getLast_mem hnil))
      rw [hlast _ (List.getLast?_eq_getLast_of_ne_nil hnil)] at hblank
      cases hblank
    obtain ⟨c, rest, hcs⟩ := List.exists_cons_of_ne_nil hdrop
    have hinner := isInnerBlank_of_dropWhile hcs
    have hsuffix : c :: rest <:+ cs := hcs ▸ List.dropWhile_suffix _
    have hshorter := hsuffix.length_le
    have hpair' : ¬ ['}', '}'] <:+: c :: rest := fun h => hpair (h.trans hsuffix.isInfix)
    have hrest := (scanned c rest).suffix
    have hcons : ReadsAlone blanks (c :: rest) := by
      refine readsAlone_cons hblanks hinner hpair' (ih _ ?_ ?_ ?_ rfl)
      · have := hrest.length_le
        rw [List.length_cons] at hshorter
        omega
      · exact fun h => hpair' (h.trans (hrest.trans (List.suffix_cons c rest)).isInfix)
      · obtain ⟨lead, hlead⟩ := hrest.trans ((List.suffix_cons c rest).trans hsuffix)
        intro d hd
        refine hlast d ?_
        rw [← hlead, List.getLast?_append, Option.mem_def.mp hd]
        rfl
    intro n m depth hn hm
    obtain ⟨n, rfl⟩ : ∃ k, n = k + 1 := ⟨n - 1, by omega⟩
    obtain ⟨m, rfl⟩ : ∃ k, m = k + 1 := ⟨m - 1, by omega⟩
    have hwhole : (cs ++ (blanks ++ ['}', '}'])).dropWhile isInnerBlank
        = c :: rest ++ (blanks ++ ['}', '}']) := by
      rw [List.dropWhile_append, hcs]
      rfl
    have hends : (c :: rest ++ blanks).getLast? = (cs ++ blanks).getLast? := by
      obtain ⟨lead, rfl⟩ := hsuffix
      rw [List.append_assoc]
      exact (List.getLast?_append_of_ne_nil _ (by simp)).symm
    rw [list_dropBlanks n, list_dropBlanks m, hwhole, hcs]
    exact (hcons _ _ depth (by omega) (by omega)).congr hends

end

end TaskTags.Template
