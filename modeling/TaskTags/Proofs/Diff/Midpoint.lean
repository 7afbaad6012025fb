import TaskTags.Proofs.Diff.Script

/-!
# The cut makes both halves smaller

Where the ends of two texts differ, the two searches meet at a point that is neither the start nor
the end of both texts. Up to the round in which they meet, the points near the opposite search lie
inside of both texts, and no point is farther outside of a text than there are differences on the
way to it. So the texts get smaller with every cut, and no edit of the script is without lines.
-/

namespace TaskTags.Diff

/-! ## Frontiers -/

namespace Frontier

/-- A frontier with room for the diagonals up to a bound. -/
structure Sized (f : Frontier) (bound : Nat) : Prop where
  offset : f.offset = bound + 1
  size : f.reach.size = 2 * bound + 3

variable {f : Frontier} {bound : Nat} {j k : Int}

theorem sized_start (bound : Nat) : (start bound).Sized bound :=
  ⟨rfl, Array.size_replicate⟩

theorem get_start (bound : Nat) (k : Int) : (start bound).get k = 0 := by
  simp only [get, start, Array.getD_eq_getD_getElem?, Array.getElem?_replicate]
  split <;> rfl

theorem Sized.set (h : f.Sized bound) (k : Int) (x : Nat) : (f.set k x).Sized bound :=
  ⟨h.offset, by rw [Frontier.set, Array.size_setIfInBounds, h.size]⟩

theorem get_set_self (h : f.Sized bound) (hk : k.natAbs ≤ bound) (x : Nat) :
    (f.set k x).get k = x := by
  have hindex : (k + f.offset).toNat < f.reach.size := by
    rw [h.offset, h.size]
    omega
  simp [get, Frontier.set, Array.getD_eq_getD_getElem?, hindex]

theorem get_set_of_ne (h : f.Sized bound) (hk : k.natAbs ≤ bound) (hj : j.natAbs ≤ bound + 1)
    (hne : j ≠ k) (x : Nat) : (f.set k x).get j = f.get j := by
  have hindex : (k + f.offset).toNat ≠ (j + f.offset).toNat := by
    rw [h.offset]
    omega
  simp [get, Frontier.set, Array.getD_eq_getD_getElem?, Array.getElem?_setIfInBounds_ne hindex]

end Frontier

theorem mem_diagonals_iff {d : Nat} {k : Int} :
    k ∈ diagonals d ↔ -d ≤ k ∧ k ≤ d ∧ (d - k) % 2 = 0 := by
  simp only [diagonals, List.mem_map, List.mem_range]
  constructor
  · rintro ⟨i, hi, rfl⟩
    omega
  · rintro ⟨hlower, hupper, hparity⟩
    exact ⟨((d - k) / 2).toNat, by omega, by omega⟩

theorem pairwise_diagonals (d : Nat) : (diagonals d).Pairwise fun k j => j + 1 < k := by
  rw [diagonals, List.pairwise_map]
  refine List.pairwise_lt_range.imp fun hlt => ?_
  omega

namespace Direction

variable {dir : Direction} {opposite f : Frontier} {bound d : Nat} {k : Int}

/-! ## One sweep -/

/-- The farthest point on a diagonal is where the opposite search has been. -/
def Met (dir : Direction) (opposite : Frontier) (d : Nat) (k : Int) (x : Nat) : Prop :=
  ∃ far, dir.meets d k = some far ∧ dir.xs.length ≤ x + opposite.get far

theorem advance_set (hf : f.Sized bound) {j : Int} (hk : k.natAbs ≤ bound) (hj : j.natAbs ≤ bound)
    (hlt : j + 1 < k) (x : Nat) : dir.advance (f.set k x) d j = dir.advance f d j := by
  have hbelow : (f.set k x).get (j - 1) = f.get (j - 1) :=
    Frontier.get_set_of_ne hf hk (by omega) (by omega) x
  have habove : (f.set k x).get (j + 1) = f.get (j + 1) :=
    Frontier.get_set_of_ne hf hk (by omega) (by omega) x
  simp only [advance, Frontier.entry, hbelow, habove]

/-- What a sweep over diagonals does to a frontier, and the point at which it stops, if it does. -/
structure Sweeps (dir : Direction) (opposite : Frontier) (d : Nat) (ks : List Int) (f g : Frontier)
    (met : Option (Int × Nat × Nat)) (bound : Nat) : Prop where
  sized : g.Sized bound
  kept : ∀ k, k.natAbs ≤ bound → (∀ j ∈ ks, j < k) → g.get k = f.get k
  passed : met = none → ∀ k ∈ ks, g.get k = (dir.advance f d k).2 ∧
    ¬ dir.Met opposite d k (dir.advance f d k).2
  stopped : ∀ k x₀ x, met = some (k, x₀, x) →
    k ∈ ks ∧ dir.advance f d k = (x₀, x) ∧ dir.Met opposite d k x

/-- A diagonal on which the opposite search is not met is passed with its farthest point. -/
theorem Sweeps.pass {ks : List Int} {x₀ x : Nat} {g : Frontier} {met : Option (Int × Nat × Nat)}
    (hf : f.Sized bound) (hks : ∀ j ∈ k :: ks, j.natAbs ≤ bound)
    (hpairwise : (k :: ks).Pairwise fun k j => j + 1 < k) (hadvance : dir.advance f d k = (x₀, x))
    (hmet : ¬ dir.Met opposite d k x) (h : dir.Sweeps opposite d ks (f.set k x) g met bound) :
    dir.Sweeps opposite d (k :: ks) f g met bound := by
  have hk : k.natAbs ≤ bound := hks k List.mem_cons_self
  have hlt : ∀ j ∈ ks, j + 1 < k := (List.pairwise_cons.mp hpairwise).1
  have hrest : ∀ j ∈ ks, dir.advance (f.set k x) d j = dir.advance f d j := fun j hj =>
    advance_set hf hk (hks j (List.mem_cons_of_mem k hj)) (hlt j hj) x
  refine ⟨h.sized, fun j hj hbelow => ?_, fun hnone j hj => ?_, fun j y₀ y hsome => ?_⟩
  · have hkj : k < j := hbelow k List.mem_cons_self
    rw [h.kept j hj fun i hi => hbelow i (List.mem_cons_of_mem k hi)]
    exact Frontier.get_set_of_ne hf hk (by omega) (by omega) x
  · obtain rfl | hj := List.mem_cons.mp hj
    · rw [h.kept j hk fun i hi => by have := hlt i hi; omega, Frontier.get_set_self hf hk, hadvance]
      exact ⟨rfl, hmet⟩
    · rw [← hrest j hj]
      exact h.passed hnone j hj
  · obtain ⟨hj, hstop⟩ := h.stopped j y₀ y hsome
    rw [hrest j hj] at hstop
    exact ⟨List.mem_cons_of_mem k hj, hstop⟩

theorem sweeps {ks : List Int} (hf : f.Sized bound) (hks : ∀ k ∈ ks, k.natAbs ≤ bound)
    (hpairwise : ks.Pairwise fun k j => j + 1 < k) :
    dir.Sweeps opposite d ks f (dir.sweep opposite d ks f).1 (dir.sweep opposite d ks f).2
      bound := by
  fun_induction sweep dir opposite d ks f with
  | case1 f => exact ⟨hf, fun _ _ _ => rfl, fun _ => nofun, nofun⟩
  | case2 k rest f x₀ x hadvance g far hmeets hlength =>
      refine ⟨hf.set k x, fun j hj hbelow => ?_, nofun, fun j y₀ y hsome => ?_⟩
      · have hkj : k < j := hbelow k List.mem_cons_self
        exact Frontier.get_set_of_ne hf (hks k List.mem_cons_self) (by omega) (by omega) x
      · obtain ⟨rfl, rfl, rfl⟩ : k = j ∧ x₀ = y₀ ∧ x = y := by simpa using hsome
        exact ⟨List.mem_cons_self, hadvance, far, hmeets, hlength⟩
  | case3 k rest f x₀ x hadvance g far hmeets hlength ih =>
      refine .pass hf hks hpairwise hadvance ?_ (ih (hf.set k x)
        (fun j hj => hks j (List.mem_cons_of_mem k hj)) (List.pairwise_cons.mp hpairwise).2)
      rintro ⟨far', hfar, hreach⟩
      obtain rfl : far = far' := Option.some.inj (hmeets.symm.trans hfar)
      exact hlength hreach
  | case4 k rest f x₀ x hadvance g hmeets ih =>
      refine .pass hf hks hpairwise hadvance ?_ (ih (hf.set k x)
        (fun j hj => hks j (List.mem_cons_of_mem k hj)) (List.pairwise_cons.mp hpairwise).2)
      rintro ⟨far, hfar, -⟩
      rw [hmeets] at hfar
      cases hfar

/-! ## The points of a round -/

def delta (dir : Direction) : Int := dir.xs.length - dir.ys.length

/-- Near the end, a search can meet the opposite one if the lengths have the parity for it. The
search that goes first in a round meets what the opposite one has reached a round ago. -/
structure Searches (dir : Direction) (lag : Nat) : Prop where
  lag_le : lag ≤ 1
  apart : Apart dir.xs dir.ys
  meets_iff : ∀ (d : Nat) k far, dir.meets d k = some far ↔
    dir.delta % 2 = lag ∧ (k - dir.delta).natAbs + lag ≤ d ∧ far = dir.delta - k

/-- What holds of a point on a diagonal that is reached with a number of differences: it is outside
of a text by less than that number, and near the end it is inside of one of the texts. -/
structure At (dir : Direction) (lag d : Nat) (k : Int) (x : Nat) : Prop where
  diagonal : k ≤ x
  left : x < dir.xs.length + d
  right : x - k < dir.ys.length + d
  moved : d = 0 ∨ 0 < x ∨ k < 0
  short : dir.delta % 2 = lag → (k - dir.delta).natAbs + lag ≤ d →
    x < dir.xs.length ∨ x - k < dir.ys.length

/-- A frontier as a round leaves it that does not meet the opposite search. -/
structure Reached (dir : Direction) (lag bound d : Nat) (f : Frontier) : Prop where
  sized : f.Sized bound
  points : ∀ k ∈ diagonals d, dir.At lag d k (f.get k)
  inside : dir.delta % 2 = lag → ∀ k ∈ diagonals d, (k - dir.delta).natAbs + lag ≤ d →
    f.get k < dir.xs.length ∧ f.get k - k < dir.ys.length

variable {lag : Nat}

theorem entry_cases (hk : k ∈ diagonals (d + 1)) : ∃ j ∈ diagonals d,
    (j = k + 1 ∧ f.entry (d + 1 : Nat) k = f.get j) ∨
      (j = k - 1 ∧ f.entry (d + 1 : Nat) k = f.get j + 1) := by
  simp only [mem_diagonals_iff] at hk ⊢
  rw [Frontier.entry]
  split
  · next habove =>
      refine ⟨k + 1, ?_, .inl ⟨rfl, rfl⟩⟩
      simp only [Bool.or_eq_true, Bool.and_eq_true, beq_iff_eq, bne_iff_ne] at habove
      omega
  · next hbelow =>
      refine ⟨k - 1, ?_, .inr ⟨rfl, rfl⟩⟩
      simp only [Bool.or_eq_true, beq_iff_eq, not_or] at hbelow
      omega

/-- One more difference leads at most one line farther out of a text. A point near the end was inside
of both texts before, so it is still inside of one. -/
theorem Reached.entry (h : dir.Searches lag) (hf : dir.Reached lag bound d f)
    (hk : k ∈ diagonals (d + 1)) : dir.At lag (d + 1) k (f.entry (d + 1 : Nat) k) := by
  have hlag := h.lag_le
  have hdelta : dir.delta = dir.xs.length - dir.ys.length := rfl
  obtain ⟨j, hj, hstep⟩ := entry_cases (f := f) hk
  obtain ⟨hdiagonal, hleft, hright, -, -⟩ := hf.points j hj
  have hinside := fun hparity => hf.inside hparity j hj
  rw [mem_diagonals_iff] at hk hj
  refine ⟨by omega, by omega, by omega, by omega, fun hparity hnear => ?_⟩
  have hinside := hinside hparity
  omega

/-- Equal lines do not lead to the end of both texts, since the last lines differ. -/
theorem At.extend (h : dir.Searches lag) (hd : 0 < d) {x : Nat} (hx : dir.At lag d k x) :
    dir.At lag d k (x + commonPrefix (dir.xs.drop x) (dir.ys.drop (x - k : Int).toNat)) := by
  have hleft : commonPrefix (dir.xs.drop x) (dir.ys.drop (x - k : Int).toNat)
      ≤ (dir.xs.drop x).length := commonPrefix_le_left
  have hright : commonPrefix (dir.xs.drop x) (dir.ys.drop (x - k : Int).toNat)
      ≤ (dir.ys.drop (x - k : Int).toNat).length := commonPrefix_le_right
  have htake := @take_commonPrefix (dir.xs.drop x) (dir.ys.drop (x - k : Int).toNat)
  generalize commonPrefix (dir.xs.drop x) (dir.ys.drop (x - k : Int).toNat) = c at *
  obtain rfl | hc := Nat.eq_zero_or_pos c
  · exact hx
  -- With a line in common the point is where both texts have lines, so only their ends are in doubt.
  obtain ⟨hdiagonal, hleft', hright', hmoved, -⟩ := hx
  have hends : ¬ ((dir.xs.drop x).length ≤ c ∧ (dir.ys.drop (x - k : Int).toNat).length ≤ c) := by
    rintro ⟨hxs, hys⟩
    rw [List.take_of_length_le hxs, List.take_of_length_le hys] at htake
    have hne : dir.xs.drop x ≠ [] := List.ne_nil_of_length_pos (by omega)
    exact (Nat.ne_of_gt (commonSuffix_pos hne htake)) h.apart.last
  rw [List.length_drop] at hleft hright hends
  rw [List.length_drop] at hends
  exact ⟨by omega, by omega, by omega, by omega, by omega⟩

/-- The frontier with which a search goes into a round. -/
inductive Ready (dir : Direction) (lag bound : Nat) : Nat → Frontier → Prop
  | start : Ready dir lag bound 0 (Frontier.start bound)
  | next {d : Nat} {f : Frontier} (h : dir.Reached lag bound d f) : Ready dir lag bound (d + 1) f

theorem Ready.sized (hf : dir.Ready lag bound d f) : f.Sized bound := by
  cases hf with
  | start => exact Frontier.sized_start bound
  | next hf => exact hf.sized

theorem advance_start (h : dir.Searches lag) :
    dir.advance (Frontier.start bound) (0 : Nat) 0 = (0, 0) := by
  have hentry : (Frontier.start bound).entry (0 : Nat) 0 = 0 := by
    rw [Frontier.entry, Frontier.get_start, Frontier.get_start]
    rfl
  rw [advance, hentry]
  exact Prod.ext rfl ((Nat.zero_add _).trans h.apart.first)

theorem at_start (h : dir.Searches lag) : dir.At lag 0 0 0 := by
  have hxs := List.length_pos_of_ne_nil h.apart.left
  have hys := List.length_pos_of_ne_nil h.apart.right
  exact ⟨by omega, by omega, by omega, by omega, by omega⟩

theorem Ready.advance (h : dir.Searches lag) (hf : dir.Ready lag bound d f) (hk : k ∈ diagonals d) :
    dir.At lag d k (dir.advance f d k).1 ∧ dir.At lag d k (dir.advance f d k).2 := by
  cases hf with
  | start =>
      have hk' := mem_diagonals_iff.mp hk
      obtain rfl : k = 0 := by omega
      rw [advance_start h]
      exact ⟨at_start h, at_start h⟩
  | next hf =>
      have hentry := hf.entry h hk
      exact ⟨hentry, hentry.extend h (Nat.succ_pos _)⟩

theorem Ready.sweeps (hf : dir.Ready lag bound d f) (hd : d ≤ bound) (opposite : Frontier) :
    dir.Sweeps opposite d (diagonals d) f (dir.sweep opposite d (diagonals d) f).1
      (dir.sweep opposite d (diagonals d) f).2 bound := by
  refine Direction.sweeps hf.sized (fun k hk => ?_) (pairwise_diagonals d)
  have hk := mem_diagonals_iff.mp hk
  omega

theorem Ready.le_get (hf : dir.Ready lag bound (d + 1) f) (hk : k ∈ diagonals d) : k ≤ f.get k := by
  cases hf with
  | next hf => exact (hf.points k hk).diagonal

/-- Where the opposite search is not met, the points near the end are inside of both texts. -/
theorem Ready.reached {opposite g : Frontier} (h : dir.Searches lag) (hf : dir.Ready lag bound d f)
    (hd : d ≤ bound) (hsweep : dir.sweep opposite d (diagonals d) f = (g, none))
    (hopposite : dir.delta % 2 = lag → ∀ k ∈ diagonals d, (k - dir.delta).natAbs + lag ≤ d →
      dir.delta - k ≤ opposite.get (dir.delta - k)) :
    dir.Reached lag bound d g := by
  have hsweeps := hf.sweeps hd opposite
  rw [hsweep] at hsweeps
  refine ⟨hsweeps.sized, fun k hk => ?_, fun hparity k hk hnear => ?_⟩
  · rw [(hsweeps.passed rfl k hk).1]
    exact (hf.advance h hk).2
  · obtain ⟨hget, hmet⟩ := hsweeps.passed rfl k hk
    have hfar := (h.meets_iff d k _).mpr ⟨hparity, hnear, rfl⟩
    have hbehind : ¬ dir.xs.length ≤ (dir.advance f d k).2 + opposite.get (dir.delta - k) :=
      fun hle => hmet ⟨_, hfar, hle⟩
    -- Both searches together do not cover the first text, and the diagonal says the same of the
    -- second one.
    have hreach := hopposite hparity k hk hnear
    have hdelta : dir.delta = dir.xs.length - dir.ys.length := rfl
    rw [hget]
    omega

/-- Where the opposite search is met, it is near the end. -/
structure Meeting (dir : Direction) (lag : Nat) (opposite : Frontier) (d : Nat) (k : Int)
    (x₀ x : Nat) : Prop where
  parity : dir.delta % 2 = lag
  near : (k - dir.delta).natAbs + lag ≤ d
  entry : dir.At lag d k x₀
  farthest : dir.At lag d k x
  start : d = 0 → x = 0
  covers : dir.xs.length ≤ x + opposite.get (dir.delta - k)

theorem Ready.meeting {opposite g : Frontier} {x₀ x : Nat} (h : dir.Searches lag)
    (hf : dir.Ready lag bound d f) (hd : d ≤ bound)
    (hsweep : dir.sweep opposite d (diagonals d) f = (g, some (k, x₀, x))) :
    dir.Meeting lag opposite d k x₀ x := by
  have hsweeps := hf.sweeps hd opposite
  rw [hsweep] at hsweeps
  obtain ⟨hk, hadvance, far, hmeets, hcovers⟩ := hsweeps.stopped k x₀ x rfl
  obtain ⟨hparity, hnear, rfl⟩ := (h.meets_iff d k far).mp hmeets
  obtain ⟨hentry, hfarthest⟩ := hf.advance h hk
  rw [hadvance] at hentry hfarthest
  refine ⟨hparity, hnear, hentry, hfarthest, fun hzero => ?_, hcovers⟩
  subst hzero
  cases hf
  have hk' := mem_diagonals_iff.mp hk
  obtain rfl : k = 0 := by omega
  exact (Prod.ext_iff.mp (hadvance.symm.trans (advance_start h))).2

end Direction

/-! ## Both searches -/

/-- A point that is neither the start nor the end of both texts. -/
structure Cuts (xs ys : List String) (x y : Nat) : Prop where
  front : 0 < x ∨ 0 < y
  back : x < xs.length ∨ y < ys.length

namespace Direction

variable {xs ys : List String} {dir forward backward : Direction} {opposite ahead back g : Frontier}
  {lag bound rounds d x₀ x y : Nat} {k : Int}

/-- The search from the start enters a diagonal of a later round at a point that cuts the texts. -/
theorem Meeting.cuts_entry (h : dir.Meeting 1 opposite d k x₀ x) :
    Cuts dir.xs dir.ys x₀ (x₀ - k : Int).toNat := by
  have hnear := h.near
  have hdiagonal := h.entry.diagonal
  have hmoved := h.entry.moved
  have hshort := h.entry.short h.parity h.near
  exact ⟨by omega, by omega⟩

/-- The search from the end is met at a point that cuts the texts, counted from their ends. -/
theorem Meeting.cuts_farthest (hdir : dir.Searches 0) (h : dir.Meeting 0 opposite d k x₀ x)
    (hopposite : d = 0 → opposite.get 0 < dir.xs.length) :
    Cuts dir.xs dir.ys (dir.xs.length - x) (dir.ys.length - (x - k : Int).toNat) := by
  have hdiagonal := h.farthest.diagonal
  -- Without differences there is no meeting: the other search has not gone through the first text.
  have hmoved : 0 < x ∨ k < 0 := by
    refine h.farthest.moved.resolve_left fun hzero => ?_
    have hnear := h.near
    have hcovers := h.covers
    have hk : dir.delta - k = 0 := by omega
    rw [h.start hzero, hk, Nat.zero_add] at hcovers
    exact absurd (hopposite hzero) (Nat.not_lt.mpr hcovers)
  have hshort := h.farthest.short h.parity h.near
  have hxs := List.length_pos_of_ne_nil hdir.apart.left
  have hys := List.length_pos_of_ne_nil hdir.apart.right
  exact ⟨by omega, by omega⟩

/-- The search from the start knows the points near the end of the search from the end as that one
has left them a round ago. -/
theorem Ready.reached_ahead (hforward : forward.Searches 1)
    (hahead : forward.Ready 1 bound d ahead) (hback : backward.Ready 0 bound d back)
    (hd : d ≤ bound)
    (hsweep : forward.sweep back d (diagonals d) ahead = (g, none)) :
    forward.Reached 1 bound d g := by
  refine hahead.reached hforward hd hsweep fun hparity k hk hnear => ?_
  cases d with
  | zero => omega
  | succ d =>
      rw [mem_diagonals_iff] at hk
      exact hback.le_get (mem_diagonals_iff.mpr (by omega))

theorem Reached.reached_back (hbackward : backward.Searches 0)
    (hahead : forward.Reached 1 bound d ahead) (hback : backward.Ready 0 bound d back)
    (hd : d ≤ bound)
    (hsweep : backward.sweep ahead d (diagonals d) back = (g, none)) :
    backward.Reached 0 bound d g := by
  refine hback.reached hbackward hd hsweep fun hparity k hk hnear => ?_
  rw [mem_diagonals_iff] at hk
  exact (hahead.points _ (mem_diagonals_iff.mpr (by omega))).diagonal

theorem search_cuts (hforward : forward.Searches 1) (hbackward : backward.Searches 0)
    (hxs : backward.xs.length = forward.xs.length) (hys : backward.ys.length = forward.ys.length)
    (hahead : forward.Ready 1 bound d ahead) (hback : backward.Ready 0 bound d back)
    (hrounds : rounds + d = bound)
    (h : midpoint?.search forward.xs.length forward.ys.length forward backward rounds d ahead back
      = some (x, y)) :
    Cuts forward.xs forward.ys x y := by
  fun_induction midpoint?.search forward.xs.length forward.ys.length forward backward rounds d ahead
    back with
  | case1 => cases h
  | case2 d ahead back rounds ahead' k x₀ x' hsweep =>
      obtain ⟨rfl, rfl⟩ := h
      exact (hahead.meeting hforward (by omega) hsweep).cuts_entry
  | case3 d ahead back rounds ahead' back' k x₀ x' hsweep hsweep' =>
      obtain ⟨rfl, rfl⟩ := h
      have hd : d ≤ bound := by omega
      have hreached := hahead.reached_ahead hforward hback hd hsweep
      have hstart : d = 0 → ahead'.get 0 < backward.xs.length := by
        rintro rfl
        rw [hxs]
        exact (hreached.points 0 (mem_diagonals_iff.mpr (by decide))).left
      obtain ⟨hfront, hend⟩ := (hback.meeting hbackward hd hsweep').cuts_farthest hbackward hstart
      rw [hxs, hys] at hfront hend
      exact ⟨hfront, hend⟩
  | case4 d ahead back rounds ahead' back' hsweep hsweep' ih =>
      have hd : d ≤ bound := by omega
      have hreached := hahead.reached_ahead hforward hback hd hsweep
      have hreached' := hreached.reached_back hbackward hback hd hsweep'
      exact ih (.next hreached) (.next hreached') (by omega) h

end Direction

/-! ## The cut of two texts -/

variable {xs ys : List String}

theorem Apart.reverse (h : Apart xs ys) : Apart xs.reverse ys.reverse where
  left := mt List.reverse_eq_nil_iff.mp h.left
  right := mt List.reverse_eq_nil_iff.mp h.right
  first := h.last
  last := by rw [commonSuffix, List.reverse_reverse, List.reverse_reverse, h.first]

/-- The search from the start of both texts. It meets the opposite one if the lengths of the texts
differ by an odd number. -/
def fromStart (xs ys : List String) : Direction :=
  let delta : Int := xs.length - ys.length
  ⟨xs, ys, fun d k =>
    if delta % 2 != 0 && decide ((k - delta).natAbs ≤ d - 1) then some (delta - k) else none⟩

/-- The search from the end of both texts. It meets the opposite one if the lengths of the texts
differ by an even number. -/
def fromEnd (xs ys : List String) : Direction :=
  let delta : Int := xs.length - ys.length
  ⟨xs.reverse, ys.reverse, fun d k =>
    if !(delta % 2 != 0) && decide ((k - delta).natAbs ≤ d) then some (delta - k) else none⟩

theorem searches_fromStart (h : Apart xs ys) : (fromStart xs ys).Searches 1 where
  lag_le := Nat.le_refl 1
  apart := h
  meets_iff d k far := by
    simp only [fromStart, Direction.delta, Option.ite_none_right_eq_some, Bool.and_eq_true,
      bne_iff_ne, decide_eq_true_eq, Option.some.injEq]
    omega

theorem searches_fromEnd (h : Apart xs ys) : (fromEnd xs ys).Searches 0 where
  lag_le := Nat.zero_le 1
  apart := h.reverse
  meets_iff d k far := by
    simp only [fromEnd, Direction.delta, List.length_reverse, Option.ite_none_right_eq_some,
      Bool.and_eq_true, Bool.not_eq_true', bne_eq_false_iff_eq, decide_eq_true_eq,
      Option.some.injEq]
    omega

/-- Texts whose ends differ are cut neither at the start nor at the end of both. -/
theorem midpoint_cuts {x y : Nat} (h : Apart xs ys) (hsome : midpoint? xs ys = some (x, y)) :
    Cuts xs ys x y :=
  Direction.search_cuts (searches_fromStart h) (searches_fromEnd h) List.length_reverse
    List.length_reverse .start .start (Nat.add_zero _) hsome

/-! ## Scripts without empty edits -/

theorem full_middle {fuel : Nat}
    (hconquer : ∀ us vs, us.length + vs.length < fuel → (conquer fuel us vs).Full)
    (hapart : xs ≠ [] → ys ≠ [] → Apart xs ys) (hfuel : xs.length + ys.length ≤ fuel) :
    (middle fuel xs ys).Full := by
  have hdelete : xs ≠ [] → Script.Full [.delete xs] := fun hxs =>
    Script.full_cons.mpr ⟨hxs, Script.full_nil⟩
  have hinsert : ys ≠ [] → Script.Full [.insert ys] := fun hys =>
    Script.full_cons.mpr ⟨hys, Script.full_nil⟩
  rw [middle]
  split
  · exact Script.full_nil
  next hempty =>
  simp only [Bool.and_eq_true, List.isEmpty_iff, not_and] at hempty
  split
  · next hys => exact hdelete fun hxs => hempty hxs (List.isEmpty_iff.mp hys)
  next hys =>
  rw [List.isEmpty_iff] at hys
  split
  · exact hinsert hys
  next hxs =>
  rw [List.isEmpty_iff] at hxs
  split
  · next x y hsome =>
      obtain ⟨hfront, hback⟩ := midpoint_cuts (hapart hxs hys) hsome
      have hxs := List.length_pos_of_ne_nil hxs
      have hys := List.length_pos_of_ne_nil hys
      refine Script.full_append.mpr ⟨hconquer _ _ ?_, hconquer _ _ ?_⟩
      · rw [List.length_take, List.length_take]
        omega
      · rw [List.length_drop, List.length_drop]
        omega
  · exact Script.full_append.mpr ⟨hdelete hxs, hinsert hys⟩

theorem full_conquer {fuel : Nat} (hfuel : xs.length + ys.length < fuel) :
    (conquer fuel xs ys).Full := by
  induction fuel generalizing xs ys with
  | zero => exact absurd hfuel (Nat.not_lt_zero _)
  | succ fuel ih =>
      have hleft : (trim xs ys).left.length ≤ xs.length := by
        conv_rhs => rw [← append_trim_left xs ys]
        simp only [List.length_append]
        omega
      have hright : (trim xs ys).right.length ≤ ys.length := by
        conv_rhs => rw [← append_trim_right xs ys]
        simp only [List.length_append]
        omega
      have hmiddle : (middle fuel (trim xs ys).left (trim xs ys).right).Full :=
        full_middle (fun _ _ => ih) apart_trim (by omega)
      rw [conquer_succ]
      exact Script.full_append.mpr
        ⟨Script.full_append.mpr ⟨full_keepIfAny _, hmiddle⟩, full_keepIfAny _⟩

/-- All edits of a shortest script have lines. -/
theorem full_shortestScript (xs ys : List String) : (shortestScript xs ys).Full :=
  full_conquer (Nat.lt_succ_self _)

end TaskTags.Diff
