import TaskTags.Proofs.Template.InStep

/-!
# Expressions in lockstep

All parts of an expression are read in step: by induction on the depth of the first reading, with a
rule for each kind of part. The second reading needs no more depth than its tokens give it.
-/

namespace TaskTags.Template

open Read

/-! ## Tokens that no expression starts with -/

/-- Tokens that no expression starts with. -/
def Barren (ts : List Token) : Prop :=
  ts = [] ∨ ∃ m ∈ ["\x7d", "+"], ∃ rest, ts = .mark m :: rest

namespace Barren

variable {ts : List Token}

theorem nil : Barren [] := .inl rfl

theorem brace (rest : List Token) : Barren (.mark "\x7d" :: rest) :=
  .inr ⟨"\x7d", by simp, rest, rfl⟩

theorem plus (rest : List Token) : Barren (.mark "+" :: rest) := .inr ⟨"+", by simp, rest, rfl⟩

@[elab_as_elim]
theorem elim {motive : List Token → Prop} (h : Barren ts) (nil : motive [])
    (brace : ∀ rest, motive (.mark "\x7d" :: rest)) (plus : ∀ rest, motive (.mark "+" :: rest)) :
    motive ts := by
  rcases h with rfl | ⟨m, hm, rest, rfl⟩
  · exact nil
  · simp only [List.mem_cons, List.not_mem_nil, or_false] at hm
    rcases hm with rfl | rfl
    · exact brace rest
    · exact plus rest

theorem readPrimary_fails (h : Barren ts) (n : Nat) :
    (readPrimary n).run ts = .error .syntaxError := by
  cases n with
  | zero => rfl
  | succ n => exact h.elim rfl (fun _ => rfl) fun _ => rfl

theorem readSign_fails (h : Barren ts) (n : Nat) : (readSign n).run ts = .error .syntaxError := by
  cases n with
  | zero => rfl
  | succ n =>
      have hsign : (readSign (n + 1)).run ts = (readPrimary n).run ts := by
        rw [readSign]
        exact h.elim rfl (fun _ => rfl) fun _ => rfl
      rw [hsign, h.readPrimary_fails]

theorem readSigned_fails (h : Barren ts) (n : Nat) :
    (readSigned n).run ts = .error .syntaxError := by
  cases n with
  | zero => rfl
  | succ n => rw [readSigned, StateT.run_bind, h.readSign_fails, Except.error_bind]

theorem readBinary_fails (h : Barren ts) (n level : Nat) :
    (readBinary n level).run ts = .error .syntaxError := by
  induction n generalizing level with
  | zero => rfl
  | succ n ih =>
      rw [readBinary]
      split
      · rw [← ih 3]
        exact h.elim rfl (fun _ => rfl) fun _ => rfl
      · split
        · exact h.readSigned_fails n
        · rw [StateT.run_bind, ih, Except.error_bind]

theorem readExpr_fails (h : Barren ts) (n : Nat) : (readExpr n).run ts = .error .syntaxError := by
  cases n with
  | zero => rfl
  | succ n => rw [readExpr, StateT.run_bind, h.readBinary_fails, Except.error_bind]

end Barren

/-- A stray stands for nothing or a brace, behind a sign or not. -/
theorem stray_cases {extra : List Token} (h : extra ∈ strays) :
    (extra = [] ∨ extra = [.mark "\x7d"]) ∨
      ∃ sign ∈ ["-", "+"], ∃ rest, Barren rest ∧ extra = .mark sign :: rest := by
  simp only [strays, List.mem_cons, List.not_mem_nil, or_false] at h
  rcases h with rfl | rfl | rfl | rfl | rfl | rfl
  · exact .inl (.inl rfl)
  · exact .inr ⟨"-", by simp, [], .nil, rfl⟩
  · exact .inr ⟨"+", by simp, [], .nil, rfl⟩
  · exact .inl (.inr rfl)
  · exact .inr ⟨"-", by simp, _, .brace [], rfl⟩
  · exact .inr ⟨"+", by simp, _, .brace [], rfl⟩

/-- Behind a stray operator no second operand stands. -/
theorem run_stray_operand {α : Type} {extra : List Token} (hextra : extra ∈ strays) {t : Token}
    (ht : extra.head? = some t) (hbrace : t ≠ .mark "\x7d") (n level : Nat) (f : Expr → Read α) :
    (next >>= fun _ => readBinary n level >>= f).run extra = .error .syntaxError := by
  rcases stray_cases hextra with (rfl | rfl) | ⟨sign, -, rest, hrest, rfl⟩
  · cases ht
  · cases ht
    exact absurd rfl hbrace
  · have hnext : next.run (.mark sign :: rest) = .ok (.mark sign, rest) := rfl
    rw [StateT.run_bind, hnext, Except.ok_bind, StateT.run_bind, hrest.readBinary_fails,
      Except.error_bind]

theorem readSign_stray {extra : List Token} (hextra : extra ∈ strays) (n : Nat) :
    (readSign n).run extra = .error .syntaxError := by
  rcases stray_cases hextra with (rfl | rfl) | ⟨sign, hsign, rest, hrest, rfl⟩
  · exact Barren.nil.readSign_fails n
  · exact (Barren.brace []).readSign_fails n
  · cases n with
    | zero => rfl
    | succ n =>
        simp only [List.mem_cons, List.not_mem_nil, or_false] at hsign
        rcases hsign with rfl | rfl
        · change (readSign n >>= fun e => pure (Expr.unary .neg e)).run rest = _
          rw [StateT.run_bind, hrest.readSign_fails, Except.error_bind]
        · exact (Barren.plus rest).readSign_fails (n + 1)

/-! ## The parts of expressions -/

/-- Each reading of a part at a depth `n` is in step with the one at any depth that the tokens of
the part cannot use up. -/
structure Lockstep (stop extra : List Token) (n : Nat) : Prop where
  expr {m : Nat} {ts : List Token} (h : 32 * ts.length + 13 ≤ m) :
    InStep stop extra (readExpr n) (readExpr m) ts ts.length
  conditions {m : Nat} {ts : List Token} (e : Expr) (h : 32 * ts.length + 1 ≤ m) :
    InStep stop extra (readConditions n e) (readConditions m e) ts (ts.length + 1)
  binary {m level : Nat} {ts : List Token} (hlevel : level ≤ 8)
    (h : 32 * ts.length + 12 ≤ m + level) :
    InStep stop extra (readBinary n level) (readBinary m level) ts ts.length
  operators {m level : Nat} {ts : List Token} (e : Expr) (hlevel : level < 8)
    (h : 32 * ts.length + 1 ≤ m) :
    InStep stop extra (readOperators n level e) (readOperators m level e) ts (ts.length + 1)
  signed {m : Nat} {ts : List Token} (h : 32 * ts.length + 3 ≤ m) :
    InStep stop extra (readSigned n) (readSigned m) ts ts.length
  sign {m : Nat} {ts : List Token} (h : 32 * ts.length + 2 ≤ m) :
    InStep stop extra (readSign n) (readSign m) ts ts.length
  primary {m : Nat} {ts : List Token} (h : 32 * ts.length + 1 ≤ m) :
    InStep stop extra (readPrimary n) (readPrimary m) ts ts.length
  tuple {m : Nat} {ts : List Token} (h : 32 * ts.length + 14 ≤ m) :
    InStep stop extra (readTuple n) (readTuple m) ts ts.length
  items {m : Nat} {ts : List Token} (close : String) (isFirst : Bool)
      (h : 32 * ts.length + 14 ≤ m) :
    InStep stop extra (readItems n close isFirst) (readItems m close isFirst) ts ts.length
  entries {m : Nat} {ts : List Token} (isFirst : Bool) (h : 32 * ts.length + 14 ≤ m) :
    InStep stop extra (readEntries n isFirst) (readEntries m isFirst) ts ts.length
  subscripts {m : Nat} {ts : List Token} (e : Expr) (h : 32 * ts.length + 2 ≤ m) :
    InStep stop extra (readSubscripts n e) (readSubscripts m e) ts (ts.length + 1)
  subscript {m : Nat} {ts : List Token} (e : Expr) (h : 32 * ts.length + 15 ≤ m) :
    InStep stop extra (readSubscript n e) (readSubscript m e) ts ts.length
  bound {m : Nat} {ts : List Token} (ends : List String) (h : 32 * ts.length + 14 ≤ m) :
    InStep stop extra (readBound n ends) (readBound m ends) ts (ts.length + 1)
  args {m : Nat} {ts : List Token} (h : 32 * ts.length + 1 ≤ m) :
    InStep stop extra (readArgs n) (readArgs m) ts ts.length
  argList {m : Nat} {ts : List Token} (isFirst hasNamed : Bool) (h : 32 * ts.length + 15 ≤ m) :
    InStep stop extra (readArgList n isFirst hasNamed) (readArgList m isFirst hasNamed) ts ts.length
  arg {m : Nat} {ts : List Token} (h : 32 * ts.length + 14 ≤ m) :
    InStep stop extra (readArg n) (readArg m) ts ts.length
  filters {m : Nat} {ts : List Token} (e : Expr) (h : 32 * ts.length + 1 ≤ m) :
    InStep stop extra (readFilters n e) (readFilters m e) ts (ts.length + 1)
  testArgs {m : Nat} {ts : List Token} (h : 32 * ts.length + 3 ≤ m) :
    InStep stop extra (readTestArgs n) (readTestArgs m) ts (ts.length + 1)
  filterCall {m : Nat} {ts : List Token} (h : 32 * ts.length + 1 ≤ m) :
    InStep stop extra (readFilterCall n) (readFilterCall m) ts ts.length

namespace Lockstep

variable {stop extra ts : List Token} {n m : Nat}

theorem zero (stop extra : List Token) : Lockstep stop extra 0 := by
  constructor <;> intros <;> exact .of_fails fun x left hrun => by cases hrun

theorem readExpr_succ (ih : Lockstep stop extra n) (h : 32 * ts.length + 13 ≤ m) :
    InStep stop extra (readExpr (n + 1)) (readExpr m) ts ts.length := by
  obtain ⟨m, rfl⟩ : ∃ k, m = k + 1 := ⟨m - 1, by omega⟩
  rw [readExpr, readExpr]
  refine (ih.binary (by decide) (by omega)).bind fun e rest hrest => ?_
  exact (ih.conditions e (by omega)).mono hrest

theorem readConditions_succ (tails : Tails stop extra) (ih : Lockstep stop extra n) (e : Expr)
    (h : 32 * ts.length + 1 ≤ m) :
    InStep stop extra (readConditions (n + 1) e) (readConditions m e) ts (ts.length + 1) := by
  obtain ⟨m, rfl⟩ : ∃ k, m = k + 1 := ⟨m - 1, by omega⟩
  rw [readConditions, readConditions]
  refine .take_bind tails (by decide) (fun _ => by decide) ?_ (.pure e (by omega))
  rintro rest rfl
  rw [List.length_cons] at h ⊢
  refine (ih.binary (by decide) (by omega)).bind fun test rest' hrest' => ?_
  refine .take_bind tails (by decide) (fun _ => by decide) ?_ ?_
  · rintro rest'' rfl
    rw [List.length_cons] at hrest'
    refine (ih.expr (by omega)).bind fun other left hleft => ?_
    exact (ih.conditions _ (by omega)).mono (by omega)
  · exact (ih.conditions _ (by omega)).mono (by omega)

theorem readBinary_succ (tails : Tails stop extra) (ih : Lockstep stop extra n) {level : Nat}
    (hlevel : level ≤ 8) (h : 32 * ts.length + 12 ≤ m + level) :
    InStep stop extra (readBinary (n + 1) level) (readBinary m level) ts ts.length := by
  obtain ⟨m, rfl⟩ : ∃ k, m = k + 1 := ⟨m - 1, by omega⟩
  rw [readBinary, readBinary]
  split
  · obtain rfl := beq_iff_eq.mp ‹_›
    refine .take_bind tails (by decide) (fun _ => by decide) ?_
      (ih.binary (by decide) (by omega))
    rintro rest rfl
    rw [List.length_cons] at h ⊢
    refine (ih.binary hlevel (by omega)).bind fun e left hleft => ?_
    exact .pure _ (by omega)
  · split
    · exact ih.signed (by omega)
    · have hne : level ≠ 8 := by simpa [signLevel] using ‹¬(level == signLevel) = true›
      have hlt : level < 8 := Nat.lt_of_le_of_ne hlevel hne
      refine (ih.binary hlt (by omega)).bind fun left rest hrest => ?_
      exact (ih.operators left hlt (by omega)).mono (by omega)

theorem readOperators_succ (tails : Tails stop extra) (ih : Lockstep stop extra n) {level : Nat}
    (e : Expr) (hlevel : level < 8) (h : 32 * ts.length + 1 ≤ m) :
    InStep stop extra (readOperators (n + 1) level e) (readOperators m level e) ts
      (ts.length + 1) := by
  obtain ⟨m, rfl⟩ : ∃ k, m = k + 1 := ⟨m - 1, by omega⟩
  rw [readOperators, readOperators]
  refine .peek?_bind tails ?_ ?_
  · rintro t rest rfl
    rw [List.length_cons] at h ⊢
    dsimp only
    split
    · refine .next_cons (.expect_bind tails (by decide) ?_)
      rintro rest' rfl
      rw [List.length_cons] at h ⊢
      refine (ih.binary hlevel (by omega)).bind fun right left hleft => ?_
      exact (ih.operators _ hlevel (by omega)).mono (by omega)
    · split
      · exact .pure _ (by simp)
      · refine .next_cons ?_
        refine (ih.binary hlevel (by omega)).bind fun right left hleft => ?_
        exact (ih.operators _ hlevel (by omega)).mono (by omega)
  · -- No tokens are left. A stray sign is an operator here, and no second operand stands behind it.
    rintro rfl
    have hnone : ∀ t ∈ [Token.exprEnd, .mark "\x7d"], BinaryOp.ofToken? level t = none := by
      intro t ht
      simp only [List.mem_cons, List.not_mem_nil, or_false] at ht
      unfold BinaryOp.ofToken?
      rcases ht with rfl | rfl <;> split <;> simp_all
    refine .of_stray (x := e) ?_ ?_
    · rcases tails.stop with rfl | ⟨more, rfl⟩
      · rfl
      · simp [hnone]
        rfl
    · have hnot : extra.head? ≠ some (.name "not") :=
        (by decide : ∀ tail ∈ strays, tail.head? ≠ some (.name "not")) extra tails.extra
      cases hhead : extra.head? with
      | none => exact .inl rfl
      | some t =>
          have hname : (level == 3 && t == .name "not") = false := by
            have hne : t ≠ .name "not" := fun heq => hnot (heq ▸ hhead)
            simp [hne]
          simp only [hname, Bool.false_eq_true, if_false]
          cases hop : BinaryOp.ofToken? level t with
          | none => exact .inl rfl
          | some op =>
              refine .inr ⟨List.ne_nil_of_mem (List.mem_of_mem_head? hhead), ?_⟩
              refine run_stray_operand tails.extra hhead ?_ m (level + 1) _
              rintro rfl
              rw [hnone _ (by simp)] at hop
              cases hop

theorem readSigned_succ (ih : Lockstep stop extra n) (h : 32 * ts.length + 3 ≤ m) :
    InStep stop extra (readSigned (n + 1)) (readSigned m) ts ts.length := by
  obtain ⟨m, rfl⟩ : ∃ k, m = k + 1 := ⟨m - 1, by omega⟩
  rw [readSigned, readSigned]
  refine (ih.sign (by omega)).bind fun e rest hrest => ?_
  refine (ih.subscripts e (by omega)).bind fun e rest' hrest' => ?_
  exact (ih.filters e (by omega)).mono (by omega)

theorem readSign_succ (tails : Tails stop extra) (ih : Lockstep stop extra n)
    (h : 32 * ts.length + 2 ≤ m) :
    InStep stop extra (readSign (n + 1)) (readSign m) ts ts.length := by
  obtain ⟨m, rfl⟩ : ∃ k, m = k + 1 := ⟨m - 1, by omega⟩
  rw [readSign, readSign]
  refine .take_bind_of_needed tails (by decide) ?_ (ih.primary (by omega))
  rintro rest rfl
  rw [List.length_cons] at h ⊢
  exact (ih.sign (by omega)).bind fun e left hleft => .pure _ (by omega)

theorem readPrimary_succ (tails : Tails stop extra) (ih : Lockstep stop extra n)
    (h : 32 * ts.length + 1 ≤ m) :
    InStep stop extra (readPrimary (n + 1)) (readPrimary m) ts ts.length := by
  obtain ⟨m, rfl⟩ : ∃ k, m = k + 1 := ⟨m - 1, by omega⟩
  rw [readPrimary, readPrimary]
  refine .next_bind tails ?_ ?_
  · rintro t rest rfl
    rw [List.length_cons] at h ⊢
    split
    any_goals exact .pure _ (by omega)
    · exact (ih.tuple (by omega)).mono (by omega)
    · exact (ih.items _ true (by omega)).bind fun _ _ _ => .pure _ (by omega)
    · exact (ih.entries true (by omega)).bind fun _ _ _ => .pure _ (by omega)
    · exact .of_fails fun x left hrun => by cases hrun
  · intro tokens y hrun
    cases hrun

theorem readTuple_succ (tails : Tails stop extra) (ih : Lockstep stop extra n)
    (h : 32 * ts.length + 14 ≤ m) :
    InStep stop extra (readTuple (n + 1)) (readTuple m) ts ts.length := by
  obtain ⟨m, rfl⟩ : ∃ k, m = k + 1 := ⟨m - 1, by omega⟩
  rw [readTuple, readTuple]
  refine .take_bind tails (by decide) (fun _ => by decide) ?_ ?_
  · rintro rest rfl
    exact .pure _ (by simp)
  · refine (ih.expr (by omega)).bind fun e left hleft => ?_
    refine .looksAt_bind tails (by decide) (fun _ => by decide) ?_ ?_
    · rintro rest rfl
      exact (ih.items _ false (by omega)).bind fun _ _ _ => .pure _ (by omega)
    · refine .expect_bind tails (by decide) ?_
      rintro rest rfl
      rw [List.length_cons] at hleft
      exact .pure _ (by omega)

theorem readItems_succ (tails : Tails stop extra) (ih : Lockstep stop extra n) (close : String)
    (isFirst : Bool) (h : 32 * ts.length + 14 ≤ m) :
    InStep stop extra (readItems (n + 1) close isFirst) (readItems m close isFirst) ts
      ts.length := by
  obtain ⟨m, rfl⟩ : ∃ k, m = k + 1 := ⟨m - 1, by omega⟩
  rw [readItems, readItems]
  refine .separated tails close isFirst [] fun rest hrest => ?_
  refine (ih.expr (by omega)).bind fun e left hleft => ?_
  exact (ih.items close false (by omega)).bind fun es left' hleft' => .pure _ (by omega)

theorem readEntries_succ (tails : Tails stop extra) (ih : Lockstep stop extra n)
    (isFirst : Bool) (h : 32 * ts.length + 14 ≤ m) :
    InStep stop extra (readEntries (n + 1) isFirst) (readEntries m isFirst) ts
      ts.length := by
  obtain ⟨m, rfl⟩ : ∃ k, m = k + 1 := ⟨m - 1, by omega⟩
  rw [readEntries, readEntries]
  refine .separated tails "\x7d" isFirst [] fun rest hrest => ?_
  refine (ih.expr (by omega)).bind fun k left hleft => ?_
  refine .expect_bind tails (by decide) ?_
  rintro left' rfl
  rw [List.length_cons] at hleft
  refine (ih.expr (by omega)).bind fun v left'' hleft'' => ?_
  exact (ih.entries false (by omega)).bind fun es left' hleft' => .pure _ (by omega)

theorem readSubscripts_succ (tails : Tails stop extra) (ih : Lockstep stop extra n) (e : Expr)
    (h : 32 * ts.length + 2 ≤ m) :
    InStep stop extra (readSubscripts (n + 1) e) (readSubscripts m e) ts (ts.length + 1) := by
  obtain ⟨m, rfl⟩ : ∃ k, m = k + 1 := ⟨m - 1, by omega⟩
  rw [readSubscripts, readSubscripts]
  refine .peek?_bind tails ?_ ?_
  · rintro t rest rfl
    rw [List.length_cons] at h ⊢
    split
    · refine .next_cons (.next_bind tails ?_ ?_)
      · rintro t rest' rfl
        rw [List.length_cons] at h ⊢
        split
        · exact (ih.subscripts _ (by omega)).mono (by omega)
        · exact (ih.subscripts _ (by omega)).mono (by omega)
        · exact .of_fails fun x left hrun => by cases hrun
      · intro tokens y hrun
        cases hrun
    · refine .next_cons ((ih.subscript e (by omega)).bind fun e' left hleft => ?_)
      exact (ih.subscripts e' (by omega)).mono (by omega)
    · refine (ih.args (by simp; omega)).bind fun ⟨passing, args⟩ left hleft => ?_
      rw [List.length_cons] at hleft
      exact (ih.subscripts _ (by omega)).mono (by omega)
    · exact .pure _ (by simp)
  · rintro rfl
    have hsign : ∀ sign ∈ ["-", "+"], sign ≠ "." ∧ sign ≠ "[" ∧ sign ≠ "(" := by decide
    refine .of_stray (x := e) ?_ ?_
    · rcases tails.stop with rfl | ⟨more, rfl⟩ <;> rfl
    · rcases stray_cases tails.extra with (rfl | rfl) | ⟨sign, hmem, rest, -, rfl⟩
      · exact .inl rfl
      · exact .inl rfl
      · obtain ⟨hdot, hitem, hcall⟩ := hsign sign hmem
        simp [hdot, hitem, hcall]
        exact .inl rfl

theorem readSubscript_succ (tails : Tails stop extra) (ih : Lockstep stop extra n) (e : Expr)
    (h : 32 * ts.length + 15 ≤ m) :
    InStep stop extra (readSubscript (n + 1) e) (readSubscript m e) ts ts.length := by
  have hclose : ∀ (e' : Expr) (rest : List Token), rest.length ≤ ts.length →
      InStep stop extra (do expectMark "]"; return e') (do expectMark "]"; return e') rest
        ts.length := by
    intro e' rest hrest
    refine .expect_bind tails (by decide) ?_
    rintro rest' rfl
    rw [List.length_cons] at hrest
    exact .pure _ hrest
  obtain ⟨m, rfl⟩ : ∃ k, m = k + 1 := ⟨m - 1, by omega⟩
  rw [readSubscript, readSubscript]
  refine (ih.bound _ (by omega)).bind fun start rest hrest => ?_
  refine .take_bind tails (by decide) (fun _ => by decide) ?_ (hclose _ rest (by omega))
  rintro rest rfl
  rw [List.length_cons] at hrest
  refine (ih.bound _ (by omega)).bind fun stop' rest' hrest' => ?_
  refine .take_bind tails (by decide) (fun _ => by decide) ?_ (hclose _ rest' (by omega))
  rintro rest'' rfl
  rw [List.length_cons] at hrest'
  exact (ih.bound _ (by omega)).bind fun step left hleft => hclose _ left (by omega)

theorem readBound_succ (tails : Tails stop extra) (ih : Lockstep stop extra n) (ends : List String)
    (h : 32 * ts.length + 14 ≤ m) :
    InStep stop extra (readBound (n + 1) ends) (readBound m ends) ts (ts.length + 1) := by
  obtain ⟨m, rfl⟩ : ∃ k, m = k + 1 := ⟨m - 1, by omega⟩
  rw [readBound, readBound]
  refine .peek?_bind tails ?_ ?_
  · rintro t rest rfl
    have hexpr : InStep stop extra (readExpr n) (readExpr m) (t :: rest) ((t :: rest).length + 1) :=
      (ih.expr (by omega)).mono (Nat.le_succ _)
    split
    · split
      · exact .pure _ (by simp)
      · exact hexpr
    · exact hexpr
  · rintro rfl
    have hexpr : InStep stop extra (readExpr n) (readExpr m) [] 0 := ih.expr (by omega)
    rcases tails.stop with rfl | ⟨more, rfl⟩ <;> exact (hexpr.of_nil _).mono (Nat.zero_le _)

theorem readArgs_succ (tails : Tails stop extra) (ih : Lockstep stop extra n)
    (h : 32 * ts.length + 1 ≤ m) :
    InStep stop extra (readArgs (n + 1)) (readArgs m) ts ts.length := by
  obtain ⟨m, rfl⟩ : ∃ k, m = k + 1 := ⟨m - 1, by omega⟩
  rw [readArgs, readArgs]
  refine .expect_bind tails (by decide) ?_
  rintro rest rfl
  rw [List.length_cons] at h ⊢
  exact (ih.argList true false (by omega)).mono (by omega)

theorem readArgList_succ (tails : Tails stop extra) (ih : Lockstep stop extra n)
    (isFirst hasNamed : Bool) (h : 32 * ts.length + 15 ≤ m) :
    InStep stop extra (readArgList (n + 1) isFirst hasNamed) (readArgList m isFirst hasNamed)
      ts ts.length := by
  obtain ⟨m, rfl⟩ : ∃ k, m = k + 1 := ⟨m - 1, by omega⟩
  rw [readArgList, readArgList]
  refine .separated tails ")" isFirst ([], []) fun rest hrest => ?_
  refine (ih.arg (by omega)).bind fun ⟨p, e⟩ left hleft => ?_
  dsimp only
  split
  · exact .of_fails fun x left hrun => by cases hrun
  · exact (ih.argList false _ (by omega)).bind fun _ left' hleft' => .pure _ (by omega)

theorem readArg_succ (tails : Tails stop extra) (ih : Lockstep stop extra n)
    (h : 32 * ts.length + 14 ≤ m) :
    InStep stop extra (readArg (n + 1)) (readArg m) ts ts.length := by
  obtain ⟨m, rfl⟩ : ∃ k, m = k + 1 := ⟨m - 1, by omega⟩
  rw [readArg, readArg]
  refine .take_bind_of_needed tails (by decide) ?_ (.take_bind_of_needed tails (by decide) ?_ ?_)
  · rintro rest rfl
    rw [List.length_cons] at h ⊢
    exact (ih.expr (by omega)).bind fun e left hleft => .pure _ (by omega)
  · rintro rest rfl
    rw [List.length_cons] at h ⊢
    exact (ih.expr (by omega)).bind fun e left hleft => .pure _ (by omega)
  · refine (ih.expr (by omega)).bind fun e rest hrest => ?_
    split
    · refine .take_bind tails (by decide) (fun _ => by decide) ?_ (.pure _ hrest)
      rintro rest' rfl
      rw [List.length_cons] at hrest
      exact (ih.binary (by decide) (by omega)).bind fun e left hleft => .pure _ (by omega)
    · exact .pure _ hrest

theorem readFilters_succ (tails : Tails stop extra) (ih : Lockstep stop extra n) (e : Expr)
    (h : 32 * ts.length + 1 ≤ m) :
    InStep stop extra (readFilters (n + 1) e) (readFilters m e) ts (ts.length + 1) := by
  obtain ⟨m, rfl⟩ : ∃ k, m = k + 1 := ⟨m - 1, by omega⟩
  rw [readFilters, readFilters]
  refine .take_bind tails (by decide) (fun _ => by decide) ?_ ?_
  · rintro rest rfl
    rw [List.length_cons] at h ⊢
    refine (ih.filterCall (by omega)).bind fun f left hleft => ?_
    exact (ih.filters _ (by omega)).mono (by omega)
  · refine .take_bind tails (by decide) (fun _ => by decide) ?_ (.pure _ (by omega))
    rintro rest rfl
    rw [List.length_cons] at h ⊢
    have htest : ∀ (isNegated : Bool) (left : List Token), left.length ≤ rest.length →
        InStep stop extra
          (do
            let name ← name
            let found ← readTestArgs n
            let test : Expr := .test name e found.1 found.2
            readFilters n (if isNegated then .unary .not test else test))
          (do
            let name ← name
            let found ← readTestArgs m
            let test : Expr := .test name e found.1 found.2
            readFilters m (if isNegated then .unary .not test else test)) left
          (rest.length + 1 + 1) := by
      intro isNegated left hleft
      refine .name_bind tails ?_
      rintro s left' rfl
      rw [List.length_cons] at hleft
      refine (ih.testArgs (by omega)).bind fun _ left'' hleft'' => ?_
      exact (ih.filters _ (by omega)).mono (by omega)
    refine .take_bind tails (by decide) (fun _ => by decide) ?_ (htest _ _ (by simp))
    rintro left rfl
    exact htest _ _ (by simp)

theorem readTestArgs_succ (tails : Tails stop extra) (ih : Lockstep stop extra n)
    (h : 32 * ts.length + 3 ≤ m) :
    InStep stop extra (readTestArgs (n + 1)) (readTestArgs m) ts (ts.length + 1) := by
  obtain ⟨m, rfl⟩ : ∃ k, m = k + 1 := ⟨m - 1, by omega⟩
  rw [readTestArgs, readTestArgs]
  refine .peek?_bind tails ?_ ?_
  · rintro t rest rfl
    dsimp only
    split
    · exact (ih.args (by omega)).mono (by omega)
    · split
      · refine (ih.sign (by omega)).bind fun e left hleft => ?_
        exact (ih.subscripts e (by omega)).bind fun _ _ _ => .pure _ (by omega)
      · exact .pure _ (by simp)
  · rintro rfl
    refine .of_stray (x := ([], [])) ?_ ?_
    · rcases tails.stop with rfl | ⟨more, rfl⟩ <;> rfl
    · cases hhead : extra.head? with
      | none => exact .inl rfl
      | some t =>
          have hbracket : (t == .mark "(") = false := by
            have hstray : ∀ tail ∈ strays, tail.head? ≠ some (.mark "(") := by decide
            exact beq_eq_false_iff_ne.mpr fun heq => hstray extra tails.extra (heq ▸ hhead)
          simp only [hbracket, Bool.false_eq_true, if_false]
          split
          · refine .inr ⟨List.ne_nil_of_mem (List.mem_of_mem_head? hhead), ?_⟩
            rw [StateT.run_bind, readSign_stray tails.extra, Except.error_bind]
          · exact .inl rfl

theorem readFilterCall_succ (tails : Tails stop extra) (ih : Lockstep stop extra n)
    (h : 32 * ts.length + 1 ≤ m) :
    InStep stop extra (readFilterCall (n + 1)) (readFilterCall m) ts ts.length := by
  obtain ⟨m, rfl⟩ : ∃ k, m = k + 1 := ⟨m - 1, by omega⟩
  rw [readFilterCall, readFilterCall]
  refine .name_bind tails ?_
  rintro s rest rfl
  rw [List.length_cons] at h ⊢
  refine .looksAt_bind tails (by decide) (fun _ => by decide) ?_ (.pure _ (by simp))
  rintro rest' rfl
  exact (ih.args (by omega)).bind fun _ left hleft => .pure _ (by omega)

theorem of_tails (tails : Tails stop extra) (n : Nat) : Lockstep stop extra n := by
  induction n with
  | zero => exact .zero stop extra
  | succ n ih =>
      exact {
        expr := readExpr_succ ih
        conditions := readConditions_succ tails ih
        binary := readBinary_succ tails ih
        operators := readOperators_succ tails ih
        signed := readSigned_succ ih
        sign := readSign_succ tails ih
        primary := readPrimary_succ tails ih
        tuple := readTuple_succ tails ih
        items := readItems_succ tails ih
        entries := readEntries_succ tails ih
        subscripts := readSubscripts_succ tails ih
        subscript := readSubscript_succ tails ih
        bound := readBound_succ tails ih
        args := readArgs_succ tails ih
        argList := readArgList_succ tails ih
        arg := readArg_succ tails ih
        filters := readFilters_succ tails ih
        testArgs := readTestArgs_succ tails ih
        filterCall := readFilterCall_succ tails ih }

end Lockstep
end TaskTags.Template
