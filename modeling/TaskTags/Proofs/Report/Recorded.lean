import Mathlib.Data.List.Forall2
import Mathlib.Data.List.Nodup
import TaskTags.Report

/-!
# What diagnostics are taken

Diagnostics are recorded by calls and taken by others, as such or with a report. Cut at the calls
that take, a run of calls gives one by one what is taken: of what each part records, everything
once, in the order of the first recording.
-/

namespace TaskTags

inductive DiagnosticsCall where
  | warn (message : String)
  | noteDeprecation (deprecation : Deprecation)
  | drain
  | report (store : VariableStore) (options : ReportOptions)

namespace DiagnosticsCall

def takes : DiagnosticsCall → Bool
  | warn _ | noteDeprecation _ => false
  | drain | report _ _ => true

def warning? : DiagnosticsCall → Option String
  | warn message => some message
  | _ => none

def deprecation? : DiagnosticsCall → Option Deprecation
  | noteDeprecation deprecation => some deprecation
  | _ => none

/-- What a call takes, if it takes anything, and what it leaves. -/
def run (d : Diagnostics) : DiagnosticsCall → Option Diagnostics × Diagnostics
  | warn message => (none, d.warn message)
  | noteDeprecation deprecation => (none, d.noteDeprecation deprecation)
  | drain => (some d.drain.1, d.drain.2)
  | report store options =>
    let (r, rest) := Report.ofStore store options d
    (some r.diagnostics, rest)

/-- What calls take one after another, and what is left behind them. -/
def runAll (d : Diagnostics) : List DiagnosticsCall → List Diagnostics × Diagnostics
  | [] => ([], d)
  | call :: rest =>
    let later := runAll (call.run d).2 rest
    ((call.run d).1.toList ++ later.1, later.2)

end DiagnosticsCall

/-- Of recorded values each one is kept once, in the order in which they were recorded first. -/
structure FirstsOf {α : Type} [DecidableEq α] (recorded kept : List α) : Prop where
  mem_iff : ∀ x, x ∈ kept ↔ x ∈ recorded
  distinct : kept.Nodup
  order : kept.Pairwise fun x y => recorded.idxOf x < recorded.idxOf y

/-- Two notices are the same if they agree in everything. -/
def Deprecation.Agrees (a b : Deprecation) : Prop :=
  a.message = b.message ∧ a.version = b.version ∧ a.date = b.date ∧ a.collection = b.collection

/-- The diagnostics are those that calls record. -/
structure Diagnostics.Sums (calls : List DiagnosticsCall) (d : Diagnostics) : Prop where
  warnings : FirstsOf (calls.filterMap (·.warning?)) d.warnings
  deprecations : FirstsOf (calls.filterMap (·.deprecation?)) d.deprecations
  apart : d.deprecations.Pairwise fun a b => ¬ a.Agrees b

namespace FirstsOf

variable {α : Type} [DecidableEq α] {recorded kept : List α}

theorem of_order (mem_iff : ∀ x, x ∈ kept ↔ x ∈ recorded)
    (order : kept.Pairwise fun x y => recorded.idxOf x < recorded.idxOf y) :
    FirstsOf recorded kept := by
  refine ⟨mem_iff, order.imp ?_, order⟩
  rintro x y hlt rfl
  exact Nat.lt_irrefl _ hlt

theorem nil : FirstsOf ([] : List α) [] :=
  of_order (fun _ => Iff.rfl) .nil

/-- A value that is recorded once more stays where it is, and a new one comes last. -/
theorem record (h : FirstsOf recorded kept) (x : α) :
    FirstsOf (recorded ++ [x]) (Diagnostics.record x kept) := by
  -- What is kept has been recorded before, so its first place is where it was.
  have hplace : ∀ y ∈ kept, (recorded ++ [x]).idxOf y = recorded.idxOf y := by
    intro y hy
    exact List.idxOf_append_of_mem ((h.mem_iff y).mp hy)
  have horder : kept.Pairwise fun y z =>
      (recorded ++ [x]).idxOf y < (recorded ++ [x]).idxOf z := by
    apply h.order.imp_of_mem
    intro y z hy hz hlt
    rwa [hplace y hy, hplace z hz]
  rw [Diagnostics.record]
  by_cases hx : x ∈ kept
  · rw [if_pos hx]
    refine of_order (fun y => ?_) horder
    rw [List.mem_append, List.mem_singleton, ← h.mem_iff]
    constructor
    · exact .inl
    · rintro (hy | rfl)
      · exact hy
      · exact hx
  · rw [if_neg hx]
    have hnew : x ∉ recorded := fun hmem => hx ((h.mem_iff x).mpr hmem)
    refine of_order (fun y => ?_) ?_
    · rw [List.mem_append, List.mem_append, h.mem_iff]
    · rw [List.pairwise_append]
      refine ⟨horder, List.pairwise_singleton _ _, fun y hy z hz => ?_⟩
      obtain rfl := List.mem_singleton.mp hz
      have hlast : (recorded ++ [z]).idxOf z = recorded.length := by
        rw [List.idxOf_append_of_notMem hnew, List.idxOf_cons_self, Nat.add_zero]
      rw [hplace y hy, hlast]
      exact List.idxOf_lt_length_of_mem ((h.mem_iff y).mp hy)

end FirstsOf

theorem Deprecation.agrees_iff {a b : Deprecation} : a.Agrees b ↔ a = b := by
  rw [Agrees, Deprecation.mk.injEq]

namespace Diagnostics

open DiagnosticsCall (runAll)

variable {before calls : List DiagnosticsCall} {call : DiagnosticsCall} {d : Diagnostics}

theorem modifyHead_nil_append (parts : List (List DiagnosticsCall)) :
    parts.modifyHead ([] ++ ·) = parts := by
  cases parts <;> rfl

theorem Sums.of_firstsOf (hwarnings : FirstsOf (calls.filterMap (·.warning?)) d.warnings)
    (hdeprecations : FirstsOf (calls.filterMap (·.deprecation?)) d.deprecations) :
    d.Sums calls := by
  refine ⟨hwarnings, hdeprecations, hdeprecations.distinct.imp ?_⟩
  intro a b hne hagree
  exact hne (Deprecation.agrees_iff.mp hagree)

theorem sums_empty : empty.Sums [] :=
  .of_firstsOf .nil .nil

/-- A call that takes nothing adds what it records. -/
theorem Sums.record (h : d.Sums calls) (hcall : call.takes = false) :
    (call.run d).1 = none ∧ (call.run d).2.Sums (calls ++ [call]) := by
  cases call with
  | warn message =>
      have hnone : [DiagnosticsCall.warn message].filterMap (·.deprecation?) = [] := rfl
      refine ⟨rfl, .of_firstsOf ?_ ?_⟩
      · rw [List.filterMap_append]
        exact h.warnings.record message
      · rw [List.filterMap_append, hnone, List.append_nil]
        exact h.deprecations
  | noteDeprecation deprecation =>
      have hnone : [DiagnosticsCall.noteDeprecation deprecation].filterMap (·.warning?) = [] := rfl
      refine ⟨rfl, .of_firstsOf ?_ ?_⟩
      · rw [List.filterMap_append, hnone, List.append_nil]
        exact h.warnings
      · rw [List.filterMap_append]
        exact h.deprecations.record deprecation
  | drain => cases hcall
  | report store options => cases hcall

theorem run_of_takes (hcall : call.takes = true) : call.run d = (some d, empty) := by
  cases call with
  | warn message => cases hcall
  | noteDeprecation deprecation => cases hcall
  | drain => rfl
  | report store options => rfl

theorem runAll_cons_of_takes (hcall : call.takes = true) (rest : List DiagnosticsCall) :
    runAll d (call :: rest) = (d :: (runAll empty rest).1, (runAll empty rest).2) := by
  rw [runAll, run_of_takes hcall]
  rfl

theorem runAll_cons_of_none (hcall : (call.run d).1 = none) (rest : List DiagnosticsCall) :
    runAll d (call :: rest) = runAll (call.run d).2 rest := by
  rw [runAll, hcall]
  rfl

/-- What is taken behind a call that takes is what it finds, and nothing is left. -/
theorem runAll_append_of_takes (hcall : call.takes = true) (calls : List DiagnosticsCall) :
    runAll d (calls ++ [call]) = ((runAll d calls).1 ++ [(runAll d calls).2], empty) := by
  induction calls generalizing d with
  | nil => exact runAll_cons_of_takes hcall []
  | cons first rest ih => simp only [List.cons_append, runAll, ih, List.append_assoc]

theorem sums_runAll (h : d.Sums before) (calls : List DiagnosticsCall) :
    List.Forall₂ (fun part d => d.Sums part)
      ((calls.splitOnP (·.takes)).modifyHead (before ++ ·))
      ((runAll d calls).1 ++ [(runAll d calls).2]) := by
  induction calls generalizing before d with
  | nil =>
      rw [List.splitOnP_nil, List.modifyHead_cons, List.append_nil]
      exact .cons h .nil
  | cons call rest ih =>
      rw [List.splitOnP_cons_eq_if_modifyHead]
      cases hcall : call.takes with
      | true =>
          rw [if_pos rfl, List.modifyHead_cons, List.append_nil, runAll_cons_of_takes hcall]
          refine .cons h ?_
          have hrest := ih sums_empty
          rwa [modifyHead_nil_append] at hrest
      | false =>
          obtain ⟨hnone, hsums⟩ := h.record hcall
          have hshift : (before ++ ·) ∘ List.cons call = (before ++ [call] ++ ·) := by
            funext part
            exact (List.append_assoc before [call] part).symm
          rw [if_neg Bool.false_ne_true, List.modifyHead_modifyHead, runAll_cons_of_none hnone,
            hshift]
          exact ih hsums

/-- Cut at the calls that take, calls give one by one what is taken, and at last what is left. A
call that takes finds what is left and leaves nothing. -/
theorem taken_since_last (calls : List DiagnosticsCall) :
    List.Forall₂ (fun part d => d.Sums part) (calls.splitOnP (·.takes))
      ((runAll empty calls).1 ++ [(runAll empty calls).2]) ∧
    ∀ call : DiagnosticsCall, call.takes = true →
      runAll empty (calls ++ [call]) = ((runAll empty calls).1 ++ [(runAll empty calls).2], empty) := by
  constructor
  · have hparts := sums_runAll sums_empty calls
    rwa [modifyHead_nil_append] at hparts
  · intro call hcall
    exact runAll_append_of_takes hcall calls

/-- What is recorded again behind a call that takes is taken again. -/
example :
    runAll empty [.warn "slow", .warn "old", .warn "slow", .drain, .warn "old"]
      = ([⟨["slow", "old"], []⟩], ⟨["old"], []⟩) := by
  decide

end Diagnostics
end TaskTags
