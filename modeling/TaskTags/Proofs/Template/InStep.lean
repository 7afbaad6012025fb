import TaskTags.Proofs.Except
import TaskTags.Template.Grammar

/-!
# Readings in step

An expression is read in a template, in front of the end of its block, and on its own, in front of
what the cutting off of the marks of the block has left. Both readings make the same of the tokens
that they share. Each rule extends this by one step of a reading.
-/

namespace TaskTags.Template

open Read

/-- What can be left of the end of a block: the sign of its mark, and a brace that stands in front
of the last two. -/
def strays : List (List Token) :=
  [[], [.mark "-"], [.mark "+"], [.mark "\x7d"], [.mark "-", .mark "\x7d"],
    [.mark "+", .mark "\x7d"]]

/-- What follows the tokens of an expression in a template, and what follows them on their own. -/
structure Tails (stop extra : List Token) : Prop where
  stop : stop = [] ∨ ∃ more, stop = .exprEnd :: more
  extra : extra ∈ strays

namespace Tails

variable {stop extra : List Token} {u : Token}

theorem run_peek?_stop (tails : Tails stop extra) : peek?.run stop = .ok (stop.head?, stop) := by
  rcases tails.stop with rfl | ⟨more, rfl⟩ <;> rfl

theorem run_peek?_extra (tails : Tails stop extra) :
    peek?.run extra = .ok (extra.head?, extra) := by
  have hextra := tails.extra
  simp only [strays, List.mem_cons, List.not_mem_nil, or_false] at hextra
  rcases hextra with rfl | rfl | rfl | rfl | rfl | rfl <;> rfl

theorem head?_stop (tails : Tails stop extra) (hend : u ≠ .exprEnd) :
    (stop.head? == some u) = false := by
  rcases tails.stop with rfl | ⟨more, rfl⟩
  · rfl
  · simpa using hend.symm

theorem head?_extra (tails : Tails stop extra) (hstray : ∀ tail ∈ strays, tail.head? ≠ some u) :
    (extra.head? == some u) = false :=
  beq_eq_false_iff_ne.mpr (hstray extra tails.extra)

end Tails

/-- What the first reading makes of tokens in front of the end of a block, the second one makes of
them in front of strays, unless it fails on these. Fewer than `bound` of the tokens are left. -/
def InStep {α : Type} (stop extra : List Token) (f g : Read α) (ts : List Token) (bound : Nat) :
    Prop :=
  ∀ x left, f.run (ts ++ stop) = .ok (x, left) →
    ∃ rest, left = rest ++ stop ∧ rest <:+ ts ∧ rest.length < bound ∧
      (g.run (ts ++ extra) = .ok (x, rest ++ extra) ∨
        extra ≠ [] ∧ g.run (ts ++ extra) = .error .syntaxError)

namespace InStep

variable {α β : Type} {stop extra ts : List Token} {f g : Read α} {bound middle : Nat}

theorem of_fails (h : ∀ x left, f.run (ts ++ stop) ≠ .ok (x, left)) :
    InStep stop extra f g ts bound :=
  fun x left hrun => absurd hrun (h x left)

/-- A reading that takes more tokens than there are fails. -/
theorem of_nil (h : InStep stop extra f g [] 0) (g' : Read α) : InStep stop extra f g' [] 0 := by
  refine of_fails fun x left hrun => ?_
  obtain ⟨rest, -, -, hlength, -⟩ := h x left hrun
  exact Nat.not_lt_zero _ hlength

theorem of_stray {x : α} (hf : f.run stop = .ok (x, stop))
    (hg : g.run extra = .ok (x, extra) ∨ extra ≠ [] ∧ g.run extra = .error .syntaxError) :
    InStep stop extra f g [] 1 := by
  intro y left hrun
  obtain ⟨rfl, rfl⟩ := Prod.mk.inj (Except.ok.inj (hf.symm.trans hrun))
  exact ⟨[], rfl, List.suffix_rfl, Nat.zero_lt_one, hg⟩

theorem mono (h : InStep stop extra f g ts middle) (hle : middle ≤ bound) :
    InStep stop extra f g ts bound := by
  intro x left hrun
  obtain ⟨rest, hleft, hsuffix, hlength, hg⟩ := h x left hrun
  exact ⟨rest, hleft, hsuffix, Nat.lt_of_lt_of_le hlength hle, hg⟩

theorem pure (x : α) (h : ts.length < bound) : InStep stop extra (pure x) (pure x) ts bound := by
  intro y left hrun
  obtain ⟨rfl, rfl⟩ := Prod.mk.inj (Except.ok.inj hrun)
  exact ⟨ts, rfl, List.suffix_rfl, h, .inl rfl⟩

theorem bind {f' g' : α → Read β} (h : InStep stop extra f g ts middle)
    (h' : ∀ x rest, rest.length < middle → InStep stop extra (f' x) (g' x) rest bound) :
    InStep stop extra (f >>= f') (g >>= g') ts bound := by
  intro y left hrun
  rw [StateT.run_bind, Except.bind_eq_ok_iff] at hrun
  obtain ⟨⟨x, between⟩, hf, hf'⟩ := hrun
  obtain ⟨rest, rfl, hsuffix, hlength, hg⟩ := h x between hf
  obtain ⟨rest', rfl, hsuffix', hlength', hg'⟩ := h' x rest hlength y left hf'
  refine ⟨rest', rfl, hsuffix'.trans hsuffix, hlength', ?_⟩
  rcases hg with hg | ⟨hextra, hg⟩
  · simpa only [StateT.run_bind, hg, Except.ok_bind] using hg'
  · exact .inr ⟨hextra, by simp only [StateT.run_bind, hg, Except.error_bind]⟩

/-- Steps may be taken apart by what they come to. -/
theorem of_run {f' g' : Read α} {rest : List Token} (h : InStep stop extra f' g' rest bound)
    (hrest : rest <:+ ts) (hf : f.run (ts ++ stop) = f'.run (rest ++ stop))
    (hg : g.run (ts ++ extra) = g'.run (rest ++ extra)) : InStep stop extra f g ts bound := by
  intro x left hrun
  obtain ⟨rest', hleft, hsuffix, hlength, hg'⟩ := h x left (hf ▸ hrun)
  exact ⟨rest', hleft, hsuffix.trans hrest, hlength, hg ▸ hg'⟩

/-! ## Single tokens -/

theorem peek?_bind (tails : Tails stop extra) {f' g' : Option Token → Read β}
    (hcons : ∀ t rest, ts = t :: rest →
      InStep stop extra (f' (some t)) (g' (some t)) (t :: rest) bound)
    (hnil : ts = [] → InStep stop extra (f' stop.head?) (g' extra.head?) [] bound) :
    InStep stop extra (peek? >>= f') (peek? >>= g') ts bound := by
  cases ts with
  | nil =>
      refine (hnil rfl).of_run List.suffix_rfl ?_ ?_
      · rw [List.nil_append, StateT.run_bind, tails.run_peek?_stop, Except.ok_bind]
      · rw [List.nil_append, StateT.run_bind, tails.run_peek?_extra, Except.ok_bind]
  | cons t rest =>
      cases t with
      | bad fault => exact of_fails fun x left hrun => by cases hrun
      | _ => exact (hcons _ rest rfl).of_run List.suffix_rfl rfl rfl

theorem tail_bind {f g : Read β} {t : Token} {rest : List Token}
    (h : InStep stop extra f g rest bound) :
    InStep stop extra (do modify List.tail; f) (do modify List.tail; g) (t :: rest) bound :=
  h.of_run (List.suffix_cons t rest) rfl rfl

theorem next_cons {t : Token} {rest : List Token} {f' g' : Token → Read β}
    (h : InStep stop extra (f' t) (g' t) rest bound) :
    InStep stop extra (next >>= f') (next >>= g') (t :: rest) bound := by
  cases t with
  | bad fault => exact of_fails fun x left hrun => by cases hrun
  | _ => exact h.of_run (List.suffix_cons _ rest) rfl rfl

theorem next_bind (tails : Tails stop extra) {f' g' : Token → Read β}
    (h : ∀ t rest, ts = t :: rest → InStep stop extra (f' t) (g' t) rest bound)
    (hend : ∀ tokens y, (f' .exprEnd).run tokens ≠ .ok y) :
    InStep stop extra (next >>= f') (next >>= g') ts bound := by
  rw [next, bind_assoc, bind_assoc]
  refine peek?_bind tails ?_ ?_
  · intro t rest hts
    exact tail_bind (h t rest hts)
  · rintro -
    refine of_fails fun x left hrun => ?_
    rcases tails.stop with rfl | ⟨more, rfl⟩
    · cases hrun
    · exact hend _ _ hrun

theorem looksAt_bind (tails : Tails stop extra) {u : Token} {f' g' : Bool → Read β}
    (hend : u ≠ .exprEnd) (hstray : ts = [] → ∀ tail ∈ strays, tail.head? ≠ some u)
    (hyes : ∀ rest, ts = u :: rest → InStep stop extra (f' true) (g' true) (u :: rest) bound)
    (hno : InStep stop extra (f' false) (g' false) ts bound) :
    InStep stop extra (looksAt u >>= f') (looksAt u >>= g') ts bound := by
  rw [looksAt, bind_assoc, bind_assoc]
  refine peek?_bind tails ?_ ?_
  · rintro t rest rfl
    by_cases hu : t = u
    · subst hu
      simpa using hyes rest rfl
    · have hne : (some t == some u) = false := by simpa using hu
      simpa only [pure_bind, hne] using hno
  · rintro rfl
    simpa only [pure_bind, tails.head?_stop hend, tails.head?_extra (hstray rfl)] using hno

theorem take_bind (tails : Tails stop extra) {u : Token} {f' g' : Bool → Read β}
    (hend : u ≠ .exprEnd) (hstray : ts = [] → ∀ tail ∈ strays, tail.head? ≠ some u)
    (hyes : ∀ rest, ts = u :: rest → InStep stop extra (f' true) (g' true) rest bound)
    (hno : InStep stop extra (f' false) (g' false) ts bound) :
    InStep stop extra (take u >>= f') (take u >>= g') ts bound := by
  rw [take, bind_assoc, bind_assoc]
  refine looksAt_bind tails hend hstray ?_ hno
  rintro rest rfl
  exact tail_bind (hyes rest rfl)

/-- In front of a part that needs a token, a stray can be taken for nothing. -/
theorem take_bind_of_needed (tails : Tails stop extra) {u : Token} {f' g' : Bool → Read β}
    (hend : u ≠ .exprEnd)
    (hyes : ∀ rest, ts = u :: rest → InStep stop extra (f' true) (g' true) rest ts.length)
    (hno : InStep stop extra (f' false) (g' false) ts ts.length) :
    InStep stop extra (take u >>= f') (take u >>= g') ts ts.length := by
  cases ts with
  | cons t rest => exact take_bind tails hend nofun hyes hno
  | nil =>
      have htake : (take u).run stop = .ok (false, stop) := by
        rw [take, looksAt, StateT.run_bind, StateT.run_bind, tails.run_peek?_stop]
        simp only [Except.ok_bind, StateT.run_pure, tails.head?_stop hend]
        rfl
      have hfails : InStep stop extra (take u >>= f') (g' false) [] 0 :=
        hno.of_run List.suffix_rfl (by rw [List.nil_append, StateT.run_bind, htake]; rfl) rfl
      exact hfails.of_nil _

theorem expect_bind (tails : Tails stop extra) {u : Token} {f' g' : Unit → Read β}
    (hend : u ≠ .exprEnd)
    (h : ∀ rest, ts = u :: rest → InStep stop extra (f' ()) (g' ()) rest bound) :
    InStep stop extra (expect u >>= f') (expect u >>= g') ts bound := by
  simp only [expect, take, looksAt, bind_assoc]
  refine peek?_bind tails ?_ ?_
  · rintro t rest rfl
    by_cases hu : t = u
    · subst hu
      simp only [pure_bind, BEq.rfl]
      exact tail_bind (h rest rfl)
    · have hne : (some t == some u) = false := by simpa using hu
      simp only [pure_bind, hne]
      exact of_fails fun x left hrun => by cases hrun
  · rintro -
    simp only [pure_bind, tails.head?_stop hend]
    exact of_fails fun x left hrun => by cases hrun

theorem name_bind (tails : Tails stop extra) {f' g' : String → Read β}
    (h : ∀ s rest, ts = .name s :: rest → InStep stop extra (f' s) (g' s) rest bound) :
    InStep stop extra (name >>= f') (name >>= g') ts bound := by
  rw [name, bind_assoc, bind_assoc]
  refine next_bind tails ?_ fun tokens y hrun => by cases hrun
  rintro t rest rfl
  cases t with
  | name s => exact h s rest rfl
  | _ => exact of_fails fun x left hrun => by cases hrun

/-- Parts with commas between them, up to their closing bracket. -/
theorem separated (tails : Tails stop extra) (close : String) (isFirst : Bool) (x : α)
    (h : ∀ rest : List Token, rest.length ≤ ts.length → InStep stop extra f g rest rest.length) :
    InStep stop extra
      (do
        if ← takeMark close then return x
        if !isFirst then
          expectMark ","
          if ← takeMark close then return x
        f)
      (do
        if ← takeMark close then return x
        if !isFirst then
          expectMark ","
          if ← takeMark close then return x
        g) ts ts.length := by
  refine take_bind_of_needed tails nofun ?_ ?_
  · rintro rest rfl
    exact .pure _ (by simp)
  · cases isFirst with
    | true => exact h ts (Nat.le_refl _)
    | false =>
        refine .expect_bind tails nofun ?_
        rintro rest rfl
        have hpart : InStep stop extra (do if ← takeMark close then return x else f)
            (do if ← takeMark close then return x else g) rest rest.length := by
          refine take_bind_of_needed tails nofun ?_ (h rest (by simp))
          rintro rest' rfl
          exact .pure _ (by simp)
        exact hpart.mono (by simp)

end InStep
end TaskTags.Template
