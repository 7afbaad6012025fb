import TaskTags.Proofs.Template.Block
import TaskTags.Proofs.Template.Escape
import TaskTags.Proofs.Template.Lockstep
import TaskTags.Proofs.Text.Pieces

/-!
# A template that is one block

What stands between the marks of a block is read in the template as it is on its own, unless a sign
or a brace beside the marks belongs to them. The block then has the value of that expression, and
the template is rendered to the text of the value.
-/

namespace TaskTags.Template

open Decimal (IsSign)

/-! ## Tokens -/

theorem dropLastBreak_eq_self {cs : List Char} (h : ∀ c ∈ cs.getLast?, isLineEnd c = false) :
    dropLastBreak cs = cs := by
  rw [← List.head?_reverse] at h
  unfold dropLastBreak
  split
  · next heq => exact absurd (h '\n' (by rw [heq]; rfl)) (by decide)
  · next heq => exact absurd (h '\n' (by rw [heq]; rfl)) (by decide)
  · next heq => exact absurd (h '\r' (by rw [heq]; rfl)) (by decide)
  · rfl

theorem width_eq_zero {cs : List Char} (h : ∀ c ∈ cs.head?, ¬ IsSign c) :
    (Trim.ofChar? cs.head?).width = 0 := by
  unfold Trim.ofChar?
  split
  · next heq => exact absurd (.inl rfl) (h '-' heq)
  · next heq => exact absurd (.inr rfl) (h '+' heq)
  · rfl

theorem list_exprStart (n : Nat) (cs : List Char) :
    Token.list (n + 1) ⟨.text, 0, false, true⟩ ('{' :: '{' :: cs) =
      .exprStart :: Token.list n (.inExpr 0) (cs.drop (Trim.ofChar? cs.head?).width) := rfl

/-- The tokens of a template that starts with a block whose first mark has no sign. -/
theorem ofTemplate_block {inside : List Char} (h : ∀ c ∈ inside.head?, ¬ IsSign c) :
    Token.ofTemplate (String.ofList (['{', '{'] ++ inside ++ ['}', '}'])) =
      .exprStart :: Token.list (2 * inside.length + 9) (.inExpr 0) (inside ++ ['}', '}']) := by
  have hwidth : (Trim.ofChar? (inside ++ ['}', '}']).head?).width = 0 := by
    refine width_eq_zero fun c hc => ?_
    cases inside with
    | nil =>
        obtain rfl : '}' = c := by simpa using hc
        simp [IsSign]
    | cons => exact h c hc
  have hbreak : dropLastBreak (['{', '{'] ++ inside ++ ['}', '}'])
      = '{' :: '{' :: (inside ++ ['}', '}']) := by
    refine dropLastBreak_eq_self fun c hc => ?_
    rw [List.getLast?_append] at hc
    obtain rfl : '}' = c := by simpa using hc
    rfl
  have hlength : 2 * ('{' :: '{' :: (inside ++ ['}', '}'])).length + 2
      = 2 * inside.length + 10 := by
    simp
    omega
  rw [Token.ofTemplate, String.toList_ofList, hbreak, hlength, list_exprStart, hwidth,
    List.drop_zero]

theorem isBlank_of_isLineEnd {c : Char} (h : isLineEnd c = true) : Text.isBlank c = true := by
  simp only [isLineEnd, Bool.or_eq_true, beq_iff_eq] at h
  rcases h with rfl | rfl <;> decide

theorem ofExpression_trim (inside : List Char) :
    Token.ofExpression (Text.trim (String.ofList inside)) =
      Token.list (2 * (Text.trimChars inside).length + 2) (.inExpr 0) (Text.trimChars inside) := by
  have hbreak : dropLastBreak (Text.trimChars inside) = Text.trimChars inside := by
    refine dropLastBreak_eq_self fun c hc => ?_
    have hblank := Text.not_isBlank_of_getLast?_trimChars hc
    exact Bool.eq_false_iff.mpr fun hend => by simp [isBlank_of_isLineEnd hend] at hblank
  rw [Token.ofExpression, Text.trim, String.toList_ofList, String.toList_ofList, hbreak]
  rfl

/-- A block has the tokens of the expression that is left without its marks, with or without blanks
around it. -/
theorem inParallel_block {inside : List Char} (hpair : ¬ ['}', '}'] <:+: inside) {n : Nat}
    (hn : inside.length + 4 ≤ n) :
    InParallel inside (Token.list n (.inExpr 0) (inside ++ ['}', '}']))
      (Token.ofExpression (Text.trim (String.ofList inside))) := by
  obtain ⟨n, rfl⟩ : ∃ k, n = k + 2 := ⟨n - 2, by omega⟩
  obtain ⟨front, back, hinside, hfront, hback⟩ := Text.exists_append_trimChars inside
  rw [ofExpression_trim]
  have hlast : ∀ c ∈ (Text.trimChars inside).getLast?, Text.isBlank c = false :=
    fun _ => Text.not_isBlank_of_getLast?_trimChars
  have hcore := Text.infix_trimChars inside
  generalize Text.trimChars inside = core at hinside hlast hcore ⊢
  have hpair' : ¬ ['}', '}'] <:+: core := fun h => hpair (h.trans hcore)
  have hwhole : inside ++ ['}', '}'] = front ++ (core ++ (back ++ ['}', '}'])) := by
    simp [hinside]
  rw [hwhole]
  rcases list_front hfront n 0 (core ++ (back ++ ['}', '}'])) with heq | hbad
  · rw [heq]
    have hlength := hcore.length_le
    have hparallel := readsAlone hback hpair' hlast (n + 2) (2 * core.length + 2) 0 (by omega)
      (by omega)
    by_cases hnil : core ++ back = []
    · rw [hnil] at hparallel
      refine hparallel.of_nil ?_
      rw [hinside, hnil, List.append_nil]
      exact not_endsInSign_of_blank hfront
    · refine hparallel.congr ?_
      rw [hinside, List.getLast?_append_of_ne_nil _ hnil]
  · exact .of_not_mem hbad

/-! ## Readings -/

theorem readBody_exprStart (n : Nat) (ends : List String) (ts : List Token) :
    (readBody (n + 1) ends).run (.exprStart :: ts) =
      (do
        let e ← readExpr n
        Read.expect .exprEnd
        return Stmt.emit e :: (← readBody n ends)).run ts := by
  rw [readBody]
  rfl

theorem eq_cons_of_expect_exprEnd {ts left : List Token}
    (h : (Read.expect .exprEnd).run ts = .ok ((), left)) : ts = .exprEnd :: left := by
  cases ts with
  | nil => cases h
  | cons t rest =>
      cases t <;> cases h
      rfl

/-- A template that starts with a block has the expression of the block as its first statement. -/
theorem exists_emit_of_parse {source : String} {whole : List Token} {body : List Stmt}
    (htokens : Token.ofTemplate source = .exprStart :: whole) (hparse : parse source = .ok body) :
    ∃ n e left rest, body = .emit e :: rest ∧
      (readExpr (n + 2)).run whole = .ok (e, .exprEnd :: left) ∧
      (readBody (n + 2) []).run left = .ok (rest, []) := by
  rw [parse, htokens, readAll, Except.bind_eq_ok_iff] at hparse
  obtain ⟨⟨result, final⟩, hbody, hfinal⟩ := hparse
  have hdone : result = body ∧ final = [] := by
    rcases final with _ | ⟨t, final⟩
    · exact ⟨Except.ok.inj hfinal, rfl⟩
    · cases t <;> cases hfinal
  obtain ⟨rfl, rfl⟩ := hdone
  obtain ⟨n, hn⟩ : ∃ n, 32 * (Token.exprStart :: whole).length + 64 = n + 3 :=
    ⟨32 * (Token.exprStart :: whole).length + 61, rfl⟩
  rw [hn, readBody_exprStart, StateT.run_bind, Except.bind_eq_ok_iff] at hbody
  obtain ⟨⟨e, left⟩, hexpr, hbody⟩ := hbody
  rw [StateT.run_bind, Except.bind_eq_ok_iff] at hbody
  obtain ⟨⟨⟨⟩, behind⟩, hexpect, hbody⟩ := hbody
  rw [StateT.run_bind, Except.bind_eq_ok_iff] at hbody
  obtain ⟨⟨rest, final⟩, hrest, hbody⟩ := hbody
  obtain ⟨rfl, rfl⟩ := Prod.mk.inj (Except.ok.inj hbody)
  obtain rfl := eq_cons_of_expect_exprEnd hexpect
  exact ⟨n, e, behind, rest, rfl, hexpr, hrest⟩

/-- An expression in front of the end of a block is read alike on its own, and fails where something
is left of the marks of the block. -/
theorem InParallel.readAll {cs : List Char} {whole alone : List Token}
    (h : InParallel cs whole alone) {n : Nat} {e : Expr} {left : List Token}
    (hwhole : (readExpr n).run whole = .ok (e, .exprEnd :: left)) :
    (left = [] ∨ left = [.text "\x7d"] ∧ cs.getLast? = some '}') ∧
      (left = [] ∧ ¬ EndsInSign cs → Template.readAll alone readExpr = .ok e) ∧
      (¬ (left = [] ∧ ¬ EndsInSign cs) →
        Template.readAll alone readExpr = .error .syntaxError) := by
  -- What the expression leaves are tokens of the block, the mark of its end among them.
  have hmem : .exprEnd ∈ whole := by
    obtain ⟨behind, hleft, hsuffix, -⟩ :=
      (Lockstep.of_tails ⟨.inl rfl, List.mem_cons_self⟩ n).expr (Nat.le_refl _) e _
        ((List.append_nil whole).symm ▸ hwhole)
    rw [List.append_nil] at hleft
    exact hsuffix.subset (hleft ▸ List.mem_cons_self)
  obtain ⟨ts, behind, extra, rfl, rfl, hts, hextra, hbehind, hiff⟩ := h hmem
  obtain ⟨front, hleft, hsuffix, -, hrun⟩ :=
    (Lockstep.of_tails ⟨.inr ⟨behind, rfl⟩, hextra⟩ n).expr
      (m := 32 * (ts ++ extra).length + 64) (by simp; omega) e _ hwhole
  -- No other such mark stands in front of it, so that the expression is all that stands there.
  obtain rfl : front = [] := by
    cases front with
    | nil => rfl
    | cons t front =>
        obtain ⟨rfl, -⟩ := List.cons.inj hleft
        exact absurd (hsuffix.subset List.mem_cons_self) hts
  obtain ⟨-, rfl⟩ := List.cons.inj hleft
  refine ⟨hbehind, ?_, ?_⟩
  · intro hbare
    obtain rfl := hiff.mpr hbare
    rcases hrun with hrun | ⟨hextra', -⟩
    · rw [Template.readAll, hrun]
      rfl
    · exact absurd rfl hextra'
  · intro hmarked
    have hextra' : extra ≠ [] := fun hnil => hmarked (hiff.mp hnil)
    rcases hrun with hrun | ⟨-, hrun⟩
    · rw [Template.readAll, hrun]
      simp only [strays, List.mem_cons, List.not_mem_nil, or_false] at hextra
      rcases hextra with rfl | rfl | rfl | rfl | rfl | rfl
      · exact absurd rfl hextra'
      all_goals rfl
    · rw [Template.readAll, hrun]
      rfl

/-- Where a block can be read, so can its expression on its own, unless a sign or a brace is left of
the marks of the block. -/
theorem parse_block {inside : List Char} (hfront : ∀ c ∈ inside.head?, ¬ IsSign c)
    (hpair : ¬ ['}', '}'] <:+: inside) {body : List Stmt}
    (hparse : parse (String.ofList (['{', '{'] ++ inside ++ ['}', '}'])) = .ok body) :
    ∃ e rest, body = .emit e :: rest ∧ (rest = [] ∨ inside.getLast? = some '}') ∧
      (rest = [] ∧ ¬ EndsInSign inside →
        Expr.parse (Text.trim (String.ofList inside)) = .ok e) ∧
      (¬ (rest = [] ∧ ¬ EndsInSign inside) →
        Expr.parse (Text.trim (String.ofList inside)) = .error .syntaxError) := by
  obtain ⟨n, e, left, rest, rfl, hexpr, hrest⟩ :=
    exists_emit_of_parse (ofTemplate_block hfront) hparse
  obtain ⟨hleft, hbare, hmarked⟩ := (inParallel_block hpair (by omega)).readAll hexpr
  have hiff : rest = [] ↔ left = [] := by
    rcases hleft with rfl | ⟨rfl, -⟩ <;> cases hrest <;> simp
  refine ⟨e, rest, rfl, ?_, ?_, ?_⟩
  · exact hleft.imp hiff.mpr And.right
  · rwa [hiff]
  · rwa [hiff]

/-- A plus in front of an expression is none of its parts. -/
theorem parse_plus {inside : List Char} (hfront : inside.head? = some '+')
    (hpair : ¬ ['}', '}'] <:+: inside) :
    Expr.parse (Text.trim (String.ofList inside)) = .error .syntaxError := by
  obtain ⟨rest, rfl⟩ := List.head?_eq_some_iff.mp hfront
  obtain ⟨core, hcore⟩ : ∃ core, Text.trimChars ('+' :: rest) = '+' :: core := by
    have hprefix : Text.trimChars ('+' :: rest) <+: '+' :: rest := List.rdropWhile_prefix _ _
    rcases List.prefix_cons_iff.mp hprefix with hnil | ⟨core, hcore, -⟩
    · have hblank := List.rdropWhile_eq_nil_iff.mp hnil '+' List.mem_cons_self
      exact absurd hblank (by decide)
    · exact ⟨core, hcore⟩
  have hpair' : ¬ ['}', '}'] <:+: '+' :: core := fun h =>
    hpair (h.trans (hcore ▸ Text.infix_trimChars _))
  have htokens : ∃ ts, Token.ofExpression (Text.trim (String.ofList ('+' :: rest)))
      = .mark "+" :: ts := by
    rw [ofExpression_trim, hcore, list_scanned (by decide) fun _ => closing?_eq_none hpair',
      scanInner_mark (by decide) (by decide)]
    exact ⟨_, rfl⟩
  obtain ⟨ts, hts⟩ := htokens
  rw [Expr.parse, hts, readAll, (Barren.plus ts).readExpr_fails]
  rfl

/-! ## Values -/

/-- The statements of a template that is one block. -/
def isBlock : List Stmt → Bool
  | [.emit _] => true
  | _ => false

theorem isBlock_iff {body : List Stmt} : isBlock body = true ↔ ∃ e, body = [.emit e] := by
  constructor
  · intro h
    rcases body with _ | ⟨s, _ | ⟨t, rest⟩⟩
    · cases h
    · cases s with
      | emit e => exact ⟨e, rfl⟩
      | _ => cases h
    · cases s <;> cases h
  · rintro ⟨e, rfl⟩
    rfl

/-- The value of the block that a template starts with. -/
def blockValue (source : String) (vars : Bindings) : Except Fault Value := do
  let body ← parse source
  match body.head? with
  | some (.emit e) => (e.eval (callNested maxCalls)).run' (stateOf vars (Stmt.blocksOf body))
  | _ => throw .syntaxError

theorem write_of_run_print {v : Value} {st st' : State} {text : String}
    (h : (Eval.print v).run st = .ok (text, st')) : st.escape.write v = .ok text := by
  rw [Eval.print] at h
  split at h
  · cases h
  · cases hwrite : st.escape.write v with
    | error fault => simp [hwrite] at h
    | ok s =>
      have hs : s = text ∧ st = st' := by simpa [hwrite, pure, Except.pure] using h
      rw [hs.1]

/-- A template that is one block is rendered to the text of the value of the block. -/
theorem write_of_render {source text : String} {e : Expr} {v : Value} {vars : Bindings}
    (hparse : parse source = .ok [.emit e]) (hvalue : blockValue source vars = .ok v)
    (hrender : render source vars = .ok text) : Escape.none.write v = .ok text := by
  rw [blockValue, hparse] at hvalue
  rw [render, hparse] at hrender
  change Prod.fst <$> (e.eval (callNested maxCalls)).run (stateOf vars []) = _ at hvalue
  change Prod.fst <$> (do
    let s ← (do Eval.print (← e.eval (callNested maxCalls)))
    return s ++ "").run (stateOf vars []) = _ at hrender
  obtain ⟨⟨value, st⟩, hrun, rfl⟩ := Except.map_eq_ok_iff.mp hvalue
  obtain ⟨⟨output, st'⟩, houtput, rfl⟩ := Except.map_eq_ok_iff.mp hrender
  have hescape : st.escape = .none := Keeps.eval (Keeps.callNested maxCalls) e _ value st hrun
  rw [StateT.run_bind, StateT.run_bind, hrun, Except.ok_bind, Except.bind_eq_ok_iff] at houtput
  obtain ⟨⟨s, between⟩, hprint, hreturn⟩ := houtput
  obtain ⟨rfl, -⟩ := Prod.mk.inj (Except.ok.inj hreturn)
  rw [String.append_empty, ← hescape]
  exact write_of_run_print hprint

end TaskTags.Template

