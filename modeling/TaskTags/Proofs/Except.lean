import Mathlib.Data.List.Forall2

/-!
# Results of fallible steps

A chain of steps succeeds when each step does; a list of steps fails with the first failure in it.
-/

namespace Except

variable {ε α β : Type}

@[simp]
theorem ok_bind (a : α) (f : α → Except ε β) : (Except.ok a >>= f) = f a := rfl

@[simp]
theorem error_bind (e : ε) (f : α → Except ε β) : (Except.error e >>= f) = .error e := rfl

@[simp]
theorem ok_map (f : α → β) (a : α) : (Except.ok a : Except ε α).map f = .ok (f a) := rfl

@[simp]
theorem error_map (f : α → β) (e : ε) : (Except.error e : Except ε α).map f = .error e := rfl

theorem bind_eq_ok_iff {x : Except ε α} {f : α → Except ε β} {b : β} :
    (x >>= f) = .ok b ↔ ∃ a, x = .ok a ∧ f a = .ok b := by
  cases x <;> simp

theorem map_eq_ok_iff {x : Except ε α} {f : α → β} {b : β} :
    x.map f = .ok b ↔ ∃ a, x = .ok a ∧ f a = b := by
  cases x <;> simp

theorem map_eq_error_iff {x : Except ε α} {f : α → β} {e : ε} :
    x.map f = .error e ↔ x = .error e := by
  cases x <;> simp

theorem toOption_eq_some_iff {x : Except ε α} {a : α} : x.toOption = some a ↔ x = .ok a := by
  cases x <;> simp [Except.toOption]

theorem mapM_eq_ok_iff {f : α → Except ε β} {xs : List α} {ys : List β} :
    xs.mapM f = .ok ys ↔ List.Forall₂ (fun x y => f x = .ok y) xs ys := by
  induction xs generalizing ys with
  | nil =>
      rw [List.mapM_nil, List.forall₂_nil_left_iff]
      exact ⟨fun h => (Except.ok.inj h).symm, fun h => h ▸ rfl⟩
  | cons x xs ih =>
      rw [List.mapM_cons, bind_eq_ok_iff, List.forall₂_cons_left_iff]
      constructor
      · rintro ⟨y, hy, hrest⟩
        obtain ⟨zs, hzs, heq⟩ := bind_eq_ok_iff.mp hrest
        exact ⟨y, zs, hy, ih.mp hzs, (Except.ok.inj heq).symm⟩
      · rintro ⟨y, zs, hy, hzs, rfl⟩
        exact ⟨y, hy, bind_eq_ok_iff.mpr ⟨zs, ih.mpr hzs, rfl⟩⟩

theorem mapM_congr {f g : α → Except ε β} {xs : List α} (h : ∀ x ∈ xs, f x = g x) :
    xs.mapM f = xs.mapM g := by
  induction xs with
  | nil => rfl
  | cons x xs ih =>
      rw [List.mapM_cons, List.mapM_cons, h x List.mem_cons_self,
        ih fun x' hx' => h x' (List.mem_cons_of_mem x hx')]

theorem mapM_map {γ : Type} (f : α → Except ε β) (g : β → γ) (xs : List α) :
    xs.mapM (fun x => (f x).map g) = (xs.mapM f).map (List.map g) := by
  induction xs with
  | nil => rfl
  | cons x xs ih =>
      rw [List.mapM_cons, List.mapM_cons, ih]
      cases f x with
      | error e => rfl
      | ok y => cases xs.mapM f <;> rfl

/-- Groups of steps give, put together, what all their steps in turn give. -/
theorem map_flatMap_mapM {γ δ : Type} {steps : α → List β} {f : β → Except ε (List γ)}
    {g : α → Except ε δ} {part : δ → List γ}
    (h : ∀ x, (g x).map part = ((steps x).mapM f).map List.flatten) (xs : List α) :
    (xs.mapM g).map (List.flatMap part) = ((xs.flatMap steps).mapM f).map List.flatten := by
  induction xs with
  | nil => rfl
  | cons x xs ih =>
      rw [List.mapM_cons, List.flatMap_cons, List.mapM_append]
      have hx := h x
      cases hg : g x <;> cases hf : (steps x).mapM f <;> rw [hg, hf] at hx
      · simpa using hx
      · simp at hx
      · simp at hx
      · simp only [ok_map, ok.injEq] at hx
        simp only [ok_bind]
        cases hgs : xs.mapM g <;> cases hfs : (xs.flatMap steps).mapM f <;> rw [hgs, hfs] at ih
        · simpa using ih
        · simp at ih
        · simp at ih
        · simp only [ok_map, ok.injEq] at ih
          simp [pure, Except.pure, hx, ih]

theorem exists_ok_of_mapM {f : α → Except ε β} {xs : List α} {ys : List β}
    (h : xs.mapM f = .ok ys) {x : α} (hx : x ∈ xs) : ∃ y, f x = .ok y := by
  rw [mapM_eq_ok_iff] at h
  induction h with
  | nil => cases hx
  | cons hy _ ih =>
      rcases List.mem_cons.mp hx with rfl | hx
      · exact ⟨_, hy⟩
      · exact ih hx

/-- What a list of steps gives is what its steps give. -/
theorem mem_of_mapM {f : α → Except ε β} {xs : List α} {ys : List β} (h : xs.mapM f = .ok ys)
    {y : β} : y ∈ ys ↔ ∃ x ∈ xs, f x = .ok y := by
  rw [mapM_eq_ok_iff] at h
  induction h with
  | nil => simp
  | @cons x z xs zs hz _ ih =>
      have hhead : f x = .ok y ↔ y = z := by
        rw [hz, ok.injEq, eq_comm]
      rw [List.mem_cons, ih, List.exists_mem_cons_iff, hhead]

/-- A list of steps fails with the failure of a step in front of which all succeed. -/
theorem mapM_eq_error_iff {f : α → Except ε β} {xs : List α} {e : ε} :
    xs.mapM f = .error e ↔
      ∃ before x after, xs = before ++ x :: after ∧ f x = .error e ∧
        ∀ x' ∈ before, ∃ y, f x' = .ok y := by
  induction xs with
  | nil => simp [pure, Except.pure]
  | cons x xs ih =>
      rw [List.mapM_cons]
      cases hx : f x with
      | error e' =>
          rw [error_bind, Except.error.injEq]
          constructor
          · rintro rfl
            exact ⟨[], x, xs, rfl, hx, by simp⟩
          · rintro ⟨before, x', after, hxs, hx', hbefore⟩
            cases before with
            | nil =>
                obtain ⟨rfl, rfl⟩ := List.cons.inj hxs
                exact Except.error.inj (hx.symm.trans hx')
            | cons y before =>
                obtain ⟨rfl, rfl⟩ := List.cons.inj hxs
                obtain ⟨z, hz⟩ := hbefore x (by simp)
                exact absurd (hx.symm.trans hz) (by simp)
      | ok y =>
          have htail : (Except.ok y >>= fun z => xs.mapM f >>= fun zs => pure (z :: zs))
              = Except.error e ↔ xs.mapM f = .error e := by
            cases xs.mapM f <;> simp [pure, Except.pure]
          rw [htail, ih]
          constructor
          · rintro ⟨before, x', after, rfl, hx', hbefore⟩
            refine ⟨x :: before, x', after, rfl, hx', fun z hz => ?_⟩
            rcases List.mem_cons.mp hz with rfl | hz
            · exact ⟨y, hx⟩
            · exact hbefore z hz
          · rintro ⟨before, x', after, hxs, hx', hbefore⟩
            cases before with
            | nil =>
                obtain ⟨rfl, rfl⟩ := List.cons.inj hxs
                exact absurd (hx.symm.trans hx') (by simp)
            | cons z before =>
                obtain ⟨rfl, rfl⟩ := List.cons.inj hxs
                exact ⟨before, x', after, rfl, hx', fun w hw => hbefore w (by simp [hw])⟩

/-- Groups of steps fail as all their steps in turn do. -/
theorem mapM_eq_error_iff_flatMap {γ δ : Type} {steps : α → List β} {f : β → Except ε γ}
    {g : α → Except ε δ} {e : ε} (h : ∀ x e, g x = .error e ↔ (steps x).mapM f = .error e)
    (xs : List α) : xs.mapM g = .error e ↔ (xs.flatMap steps).mapM f = .error e := by
  induction xs with
  | nil => simp [pure, Except.pure]
  | cons x xs ih =>
      rw [List.mapM_cons, List.flatMap_cons, List.mapM_append]
      cases hf : (steps x).mapM f with
      | error e' => rw [(h x e').mpr hf, error_bind, error_bind, error.injEq, error.injEq]
      | ok ys =>
          cases hg : g x with
          | error e' => exact absurd ((h x e').mp hg) (by simp [hf])
          | ok z =>
              rw [ok_bind, ok_bind]
              cases hgs : xs.mapM g <;> cases hfs : (xs.flatMap steps).mapM f <;>
                simp_all [pure, Except.pure]

/-! ## The error of a step -/

def error? : Except ε α → Option ε
  | .ok _ => none
  | .error e => some e

theorem error?_eq_some_iff {x : Except ε α} {e : ε} : x.error? = some e ↔ x = .error e := by
  cases x <;> simp [error?]

theorem error?_eq_none_iff {x : Except ε α} : x.error? = none ↔ ∃ a, x = .ok a := by
  cases x <;> simp [error?]

@[simp]
theorem error?_map (x : Except ε α) (f : α → β) : (x.map f).error? = x.error? := by
  cases x <;> rfl

/-- Where a later step fails alike after everything that an earlier one gives, the earlier error
comes first. -/
theorem error?_bind {x : Except ε α} {f : α → Except ε β} {later : Option ε}
    (h : ∀ a, (f a).error? = later) : (x >>= f).error? = x.error?.or later := by
  cases x with
  | error e => rfl
  | ok a => exact h a

theorem error?_bind_pure (x : Except ε α) (f : α → β) :
    (x >>= fun a => (pure (f a) : Except ε β)).error? = x.error? := by
  cases x <;> rfl

theorem error?_mapM (f : α → Except ε β) (xs : List α) :
    (xs.mapM f).error? = xs.findSome? fun x => (f x).error? := by
  induction xs with
  | nil => rfl
  | cons x xs ih =>
      rw [List.mapM_cons, error?_bind fun y => error?_bind_pure (xs.mapM f) (y :: ·), ih,
        List.findSome?_cons]
      cases (f x).error? <;> rfl

theorem mapM_succeeds_iff {f : α → Except ε β} {xs : List α} :
    (∃ ys, xs.mapM f = .ok ys) ↔ ∀ x ∈ xs, ∃ y, f x = .ok y := by
  rw [← error?_eq_none_iff, error?_mapM, List.findSome?_eq_none_iff]
  simp only [error?_eq_none_iff]

/-- If each step fails with the error of the first bad one of its parts, then so do all steps with
the first bad one of all parts. -/
theorem error?_mapM_of_find? {γ : Type} {f : α → Except ε β} {parts : α → List γ}
    {isBad : γ → Bool} {errorOf : γ → ε} {xs : List α}
    (h : ∀ x ∈ xs, (f x).error? = ((parts x).find? isBad).map errorOf) :
    (xs.mapM f).error? = ((xs.flatMap parts).find? isBad).map errorOf := by
  rw [error?_mapM]
  induction xs with
  | nil => rfl
  | cons x xs ih =>
      have hrest := ih fun x' hx' => h x' (List.mem_cons_of_mem x hx')
      rw [List.findSome?_cons, List.flatMap_cons, List.find?_append, h x List.mem_cons_self, hrest]
      cases (parts x).find? isBad <;> rfl

/-- The error of the first bad part: it is bad, and everything in front of it is good. -/
theorem map_find?_eq_some_iff {p : α → Bool} {errorOf : α → ε} {xs : List α} {e : ε} :
    (xs.find? (!p ·)).map errorOf = some e ↔
      ∃ before x after, xs = before ++ x :: after ∧ p x = false ∧ errorOf x = e ∧
        ∀ x' ∈ before, p x' = true := by
  rw [Option.map_eq_some_iff]
  simp only [List.find?_eq_some_iff_append, Bool.not_eq_true', Bool.not_not]
  constructor
  · rintro ⟨x, ⟨hx, before, after, hxs, hbefore⟩, herror⟩
    exact ⟨before, x, after, hxs, hx, herror, hbefore⟩
  · rintro ⟨before, x, after, hxs, hx, herror, hbefore⟩
    exact ⟨x, ⟨hx, before, after, hxs, hbefore⟩, herror⟩

end Except
