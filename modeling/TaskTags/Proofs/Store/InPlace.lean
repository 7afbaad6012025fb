import TaskTags.Proofs.Store.History

/-!
# Calls that change a store in place

A call works on the store step by step, and what a step has written stays, also where a later step
fails. Each call makes its checks in front of its first step that writes: a call that fails leaves
the store as it was, and one that succeeds leaves the store that it gives.
-/

namespace TaskTags

/-- Steps that change a state. What a step has written stays when a later one fails. -/
abbrev InPlace (σ : Type) := ExceptT Error (StateM σ)

namespace InPlace

section Steps

variable {σ : Type} {s s' : σ} {e : Error} {first second : InPlace σ Unit}

def runOn (s : σ) (steps : InPlace σ Unit) : Except Error Unit × σ :=
  steps.run.run s

theorem runOn_bind_of_ok (h : runOn s first = (.ok (), s')) :
    runOn s (do first; second) = runOn s' second := by
  simp only [runOn, ExceptT.run_bind, StateT.run_bind] at h ⊢
  rw [h]
  rfl

theorem runOn_bind_of_error (h : runOn s first = (.error e, s')) :
    runOn s (do first; second) = (.error e, s') := by
  simp only [runOn, ExceptT.run_bind, StateT.run_bind] at h ⊢
  rw [h]
  rfl

end Steps

/-! ## Steps on a variable -/

/-- The level that options give has to be in range. -/
def checkLevel (options : VariableOptions) : Except Error Unit :=
  match options.verbosity.filter (Variable.maxVerbosity < ·) with
  | some level => .error (.invalidVerbosity level)
  | none => .ok ()

def configureVariable (options : VariableOptions) : InPlace Variable Unit := do
  checkLevel options
  modify fun v => { v with output := options.output.getD v.output }
  modify fun v => { v with change := options.change.or v.change }
  modify fun v => { v with diff := options.diff.getD v.diff }
  modify fun v => { v with fact := options.fact.getD v.fact }
  modify fun v => { v with
    initial := options.initial.getD v.initial
    recorded := v.recorded || options.initial.isSome }
  modify fun v => { v with verbosity := options.verbosity.getD v.verbosity }

/-- Assigns a value to a variable, and records it in front of that if it is the first one. -/
def assignVariable (value : Json) : InPlace Variable Unit := do
  if !(← get).recorded then
    modify fun v => { v with initial := value, recorded := true }
  modify fun v => { v with value }

def fillVariable (options : VariableOptions) (value : Json) : InPlace Variable Unit := do
  configureVariable options
  assignVariable value

section Variables

variable (v : Variable) (options : VariableOptions) (value : Json)

theorem runOn_configureVariable :
    runOn v (configureVariable options) =
      match v.configure options with
      | .ok v' => (.ok (), v')
      | .error e => (.error e, v) := by
  unfold configureVariable checkLevel Variable.configure
  cases options.verbosity.filter (Variable.maxVerbosity < ·) <;> rfl

theorem runOn_assignVariable : runOn v (assignVariable value) = (.ok (), v.assign value) := by
  obtain ⟨_, _, recorded, _, _, _, _, _⟩ := v
  cases recorded <;> rfl

theorem runOn_fillVariable :
    runOn v (fillVariable options value) =
      match v.configure options with
      | .ok v' => (.ok (), v'.assign value)
      | .error e => (.error e, v) := by
  have hconfigure := runOn_configureVariable v options
  cases h : v.configure options with
  | ok v' =>
      rw [h] at hconfigure
      rw [fillVariable, runOn_bind_of_ok hconfigure, runOn_assignVariable]
  | error e =>
      rw [h] at hconfigure
      exact runOn_bind_of_error hconfigure

end Variables

/-! ## Steps on a store -/

/-- Changes a variable where it stands in the store. Also where the steps fail, the store has what
they have made of the variable by then. -/
def change (name : String) (v : Variable) (steps : InPlace Variable Unit) :
    InPlace VariableStore Unit := do
  let (result, v) := runOn v steps
  modify (·.put name v)
  result

def add (name : String) (steps : InPlace Variable Unit) : InPlace VariableStore Unit := do
  let (result, v) := runOn Variable.blank steps
  result
  modify (·.put name v)

def setWith (name : String) (value : Json) (options : VariableOptions) :
    InPlace VariableStore Unit := do
  if VariableStore.isReserved name then
    throw (.reservedName name)
  match (← get).find? name with
  | some v => change name v (fillVariable options value)
  | none => add name (fillVariable options value)

def configure (name : String) (options : VariableOptions) : InPlace VariableStore Unit := do
  match (← get).find? name with
  | some v => change name v (configureVariable options)
  | none => throw (.variableNotFound name)

end InPlace

/-- A call as steps on a store. -/
def StoreCall.steps : StoreCall → InPlace VariableStore Unit
  | set name value => InPlace.setWith name value .none
  | setWith name value options => InPlace.setWith name value options
  | configure name options => InPlace.configure name options

/-- The store that calls fill from the empty one in place. -/
def VariableStore.filledBy (calls : List StoreCall) : VariableStore :=
  calls.foldl (fun s call => (InPlace.runOn s call.steps).2) empty

namespace InPlace

variable {s : VariableStore} {name : String} {v : Variable} {value : Json}
  {options : VariableOptions}

theorem runOn_change (steps : InPlace Variable Unit) :
    runOn s (change name v steps) = ((runOn v steps).1, s.put name (runOn v steps).2) := by
  unfold change
  generalize runOn v steps = outcome
  obtain ⟨_ | _, _⟩ := outcome <;> rfl

theorem runOn_add (steps : InPlace Variable Unit) :
    runOn s (add name steps) =
      match runOn .blank steps with
      | (.ok (), v) => (.ok (), s.put name v)
      | (.error e, _) => (.error e, s) := by
  unfold add
  generalize runOn .blank steps = outcome
  obtain ⟨_ | _, _⟩ := outcome <;> rfl

theorem runOn_setWith_of_free (h : VariableStore.isReserved name = false) :
    runOn s (setWith name value options) =
      runOn s
        (match s.find? name with
        | some v => change name v (fillVariable options value)
        | none => add name (fillVariable options value)) := by
  rw [setWith, if_neg (by simp [h])]
  rfl

theorem runOn_setWith (h : s.names.Nodup) :
    runOn s (setWith name value options) =
      match s.setWith name value options with
      | .ok s' => (.ok (), s')
      | .error e => (.error e, s) := by
  cases hreserved : VariableStore.isReserved name with
  | true =>
      simp only [setWith, VariableStore.setWith, hreserved]
      rfl
  | false =>
      rw [runOn_setWith_of_free hreserved]
      simp only [VariableStore.setWith, hreserved]
      cases hfind : s.find? name with
      | none =>
          simp only [runOn_add, runOn_fillVariable, Option.getD_none, Bool.false_eq_true, if_false]
          cases Variable.blank.configure options <;> rfl
      | some v =>
          simp only [runOn_change, runOn_fillVariable, Option.getD_some]
          cases v.configure options with
          | ok v' => rfl
          | error e => exact congrArg (Except.error e, ·) (VariableStore.put_of_find? h hfind)

theorem runOn_configure (h : s.names.Nodup) :
    runOn s (configure name options) =
      match s.configure name options with
      | .ok s' => (.ok (), s')
      | .error e => (.error e, s) := by
  have hsteps : runOn s (configure name options) =
      runOn s
        (match s.find? name with
        | some v => change name v (configureVariable options)
        | none => throw (.variableNotFound name)) := rfl
  rw [hsteps, VariableStore.configure, VariableStore.lookup]
  cases hfind : s.find? name with
  | none => rfl
  | some v =>
      simp only [runOn_change, runOn_configureVariable]
      cases hv : v.configure options with
      | ok v' => simp [hv, pure, Except.pure]
      | error e =>
          simp only [hv, Except.ok_bind, Except.error_bind]
          exact congrArg (Except.error e, ·) (VariableStore.put_of_find? h hfind)

/-- A call ends as its result says. It leaves the store of its result, or the store as it was. -/
theorem runOn_steps (h : s.names.Nodup) (call : StoreCall) :
    runOn s call.steps =
      match call.run s with
      | .ok s' => (.ok (), s')
      | .error e => (.error e, s) := by
  cases call with
  | set name value => exact runOn_setWith h
  | setWith name value options => exact runOn_setWith h
  | configure name options => exact runOn_configure h

end InPlace

/-! ## Failures -/

theorem Variable.configure_eq_error_iff {v : Variable} {options : VariableOptions} {e : Error} :
    v.configure options = .error e ↔
      ∃ level, options.verbosity = some level ∧ maxVerbosity < level ∧
        e = .invalidVerbosity level := by
  unfold configure
  cases hlevel : options.verbosity.filter (maxVerbosity < ·) with
  | none =>
      have hrange := Option.filter_eq_none_iff.mp hlevel
      simp only [reduceCtorEq, false_iff, not_exists, not_and]
      intro level hgiven habove
      exact absurd habove (by simpa using hrange level hgiven)
  | some level =>
      obtain ⟨hgiven, habove⟩ := Option.filter_eq_some_iff.mp hlevel
      simp only [Except.error.injEq, hgiven, Option.some.injEq, exists_eq_left']
      simp only [decide_eq_true_eq] at habove
      simp [habove, eq_comm]

theorem Variable.of_configure {v w : Variable} {options : VariableOptions}
    (h : v.configure options = .ok w) :
    (v.verbosity ≤ maxVerbosity → w.verbosity ≤ maxVerbosity) ∧
      (v.recorded = true → w.recorded = true) := by
  unfold configure at h
  cases hlevel : options.verbosity.filter (maxVerbosity < ·) with
  | some level => simp [hlevel] at h
  | none =>
      simp only [hlevel, Except.ok.injEq] at h
      subst h
      refine ⟨fun hv => ?_, fun hv => by simp [hv]⟩
      cases hgiven : options.verbosity with
      | none => exact hv
      | some level => simpa using Option.filter_eq_none_iff.mp hlevel level hgiven

namespace VariableStore

variable {s : VariableStore} {name : String} {v : Variable} {value : Json}
  {options : VariableOptions} {e : Error}

theorem setWith_eq_error_iff :
    s.setWith name value options = .error e ↔
      (isReserved name = true ∧ e = .reservedName name) ∨
        (isReserved name = false ∧ ∃ level, options.verbosity = some level ∧
          Variable.maxVerbosity < level ∧ e = .invalidVerbosity level) := by
  unfold setWith
  cases hreserved : isReserved name with
  | true => simp [throw, throwThe, MonadExceptOf.throw, eq_comm]
  | false =>
      simp only [Bool.false_eq_true, if_false, false_and, false_or, true_and]
      rw [← Variable.configure_eq_error_iff (v := (s.find? name).getD .blank)]
      cases ((s.find? name).getD .blank).configure options <;> simp [pure, Except.pure]

theorem configure_eq_error_iff :
    s.configure name options = .error e ↔
      (name ∉ s.names ∧ e = .variableNotFound name) ∨
        (name ∈ s.names ∧ ∃ level, options.verbosity = some level ∧
          Variable.maxVerbosity < level ∧ e = .invalidVerbosity level) := by
  unfold configure lookup
  cases hfind : s.find? name with
  | none => simp [find?_eq_none_iff.mp hfind, eq_comm]
  | some v =>
      simp only [mem_names_of_find? hfind, not_true_eq_false, false_and, false_or, true_and,
        Except.ok_bind]
      rw [← Variable.configure_eq_error_iff (v := v)]
      cases v.configure options <;> simp [pure, Except.pure]

theorem mem_entries_put {entry : String × Variable} (h : entry ∈ (s.put name v).entries) :
    entry ∈ s.entries ∨ entry = (name, v) := by
  unfold put at h
  split at h
  · obtain ⟨old, hold, rfl⟩ := List.mem_map.mp h
    split
    · exact .inr rfl
    · exact .inl hold
  · simpa using h

/-- The variables of a store have names of their own, none of them reserved, levels in range and a
recorded initial value. -/
structure WellFormed (s : VariableStore) : Prop where
  free : ∀ name ∈ s.names, isReserved name = false
  nodup : s.names.Nodup
  inRange : ∀ entry ∈ s.entries, entry.2.verbosity ≤ Variable.maxVerbosity
  recorded : ∀ entry ∈ s.entries, entry.2.recorded = true

theorem wellFormed_empty : empty.WellFormed := ⟨nofun, .nil, nofun, nofun⟩

end VariableStore

/-- A call keeps the level of its variable in range, and has its initial value recorded by the time
that it assigns a value. -/
theorem StoreCall.of_update {call : StoreCall} {v w : Variable} (h : call.update v = .ok w) :
    (v.verbosity ≤ Variable.maxVerbosity → w.verbosity ≤ Variable.maxVerbosity) ∧
      ((call.value? = none → v.recorded = true) → w.recorded = true) := by
  obtain ⟨configured, hconfigured, rfl⟩ := Except.map_eq_ok_iff.mp h
  obtain ⟨hlevel, hrecorded⟩ := Variable.of_configure hconfigured
  cases call.value? with
  | none => exact ⟨hlevel, fun hv => hrecorded (hv rfl)⟩
  | some value => exact ⟨hlevel, fun _ => rfl⟩

namespace VariableStore

variable {s s' : VariableStore} {call : StoreCall}

theorem WellFormed.step (h : s.WellFormed) (hrun : call.run s = .ok s') : s'.WellFormed := by
  obtain ⟨v, hv, rfl, hnew⟩ := StoreCall.exists_of_run hrun
  obtain ⟨hlevel, hrecorded⟩ := StoreCall.of_update hv
  have hold : ∀ w, s.find? call.name = some w → (call.name, w) ∈ s.entries := fun w hw =>
    (find?_eq_some_iff h.nodup).mp hw
  refine ⟨?_, nodup_names_put h.nodup, ?_, ?_⟩
  · intro name hname
    by_cases hmem : name ∈ s.names
    · exact h.free name hmem
    · obtain rfl : name = call.name := (mem_names_put.mp hname).resolve_left hmem
      exact (hnew hmem).1
  · intro entry hentry
    rcases mem_entries_put hentry with hentry | rfl
    · exact h.inRange entry hentry
    · apply hlevel
      cases hfind : s.find? call.name with
      | none => exact Nat.zero_le _
      | some w => exact h.inRange _ (hold w hfind)
  · intro entry hentry
    rcases mem_entries_put hentry with hentry | rfl
    · exact h.recorded entry hentry
    · refine hrecorded fun hvalue => ?_
      cases hfind : s.find? call.name with
      | none => exact absurd hvalue (hnew (find?_eq_none_iff.mp hfind)).2
      | some w => exact h.recorded _ (hold w hfind)

theorem WellFormed.apply (h : s.WellFormed) (call : StoreCall) : (call.apply s).WellFormed := by
  unfold StoreCall.apply
  cases hrun : call.run s with
  | ok s' => exact h.step hrun
  | error e => exact h

theorem WellFormed.runOn_steps (h : s.WellFormed) (call : StoreCall) :
    (InPlace.runOn s call.steps).2 = call.apply s := by
  rw [InPlace.runOn_steps h.nodup, StoreCall.apply]
  cases call.run s <;> rfl

/-- Calls in place fill the store that their results say. -/
theorem WellFormed.foldl_steps (h : s.WellFormed) (calls : List StoreCall) :
    calls.foldl (fun s call => (InPlace.runOn s call.steps).2) s = calls.foldl StoreCall.apply s ∧
      (calls.foldl StoreCall.apply s).WellFormed := by
  induction calls generalizing s with
  | nil => exact ⟨rfl, h⟩
  | cons call rest ih =>
      rw [List.foldl_cons, List.foldl_cons, h.runOn_steps]
      exact ih (h.apply call)

/-- Whatever calls have filled a store in place, each further one fails exactly with a name that it
may not have or with a level out of range, the name first. A call that fails leaves the whole store
as it was, so that no store is ever reached whose variables are not well-formed. -/
theorem failing_calls_write_nothing (calls : List StoreCall) :
    let s := filledBy calls
    s = after calls ∧
      (∀ name value e, s.set name value = .error e ↔
        isReserved name = true ∧ e = .reservedName name) ∧
      (∀ name value options e, s.setWith name value options = .error e ↔
        (isReserved name = true ∧ e = .reservedName name) ∨
          (isReserved name = false ∧ ∃ level, options.verbosity = some level ∧
            Variable.maxVerbosity < level ∧ e = .invalidVerbosity level)) ∧
      (∀ name options e, s.configure name options = .error e ↔
        (name ∉ s.names ∧ e = .variableNotFound name) ∨
          (name ∈ s.names ∧ ∃ level, options.verbosity = some level ∧
            Variable.maxVerbosity < level ∧ e = .invalidVerbosity level)) ∧
      (∀ call : StoreCall, InPlace.runOn s call.steps =
        match call.run s with
        | .ok s' => (.ok (), s')
        | .error e => (.error e, s)) ∧
      s.WellFormed := by
  intro s
  obtain ⟨hafter, hwell⟩ := wellFormed_empty.foldl_steps calls
  have hs : (filledBy calls).WellFormed := by
    rw [filledBy, hafter]
    exact hwell
  refine ⟨hafter, ?_, ?_, ?_, ?_, hs⟩
  · intro name value e
    rw [set, setWith_eq_error_iff]
    simp [VariableOptions.none]
  · intro name value options e
    exact setWith_eq_error_iff
  · intro name options e
    exact configure_eq_error_iff
  · intro call
    exact InPlace.runOn_steps hs.nodup call

end VariableStore
end TaskTags
