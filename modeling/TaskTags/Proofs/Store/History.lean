import TaskTags.Proofs.Except
import TaskTags.Proofs.Store.Lookup

/-!
# Stores by their histories

A store is filled by calls, of which some fail. What it holds under a name follows from the calls on
that name that succeed: each option stands as the last call that gives it says, the value as it was
set last.
-/

namespace TaskTags

/-- A call that may change a store. -/
inductive StoreCall where
  | set (name : String) (value : Json)
  | setWith (name : String) (value : Json) (options : VariableOptions)
  | configure (name : String) (options : VariableOptions)

namespace StoreCall

def name : StoreCall → String
  | set name _ | setWith name _ _ | configure name _ => name

def value? : StoreCall → Option Json
  | set _ value | setWith _ value _ => some value
  | configure _ _ => none

def options : StoreCall → VariableOptions
  | set _ _ => .none
  | setWith _ _ options | configure _ options => options

def run (s : VariableStore) : StoreCall → Except Error VariableStore
  | set name value => s.set name value
  | setWith name value options => s.setWith name value options
  | configure name options => s.configure name options

/-- The store after a call; one that fails changes nothing. -/
def apply (s : VariableStore) (call : StoreCall) : VariableStore :=
  match call.run s with
  | .ok s' => s'
  | .error _ => s

/-- The calls that succeed when calls are made one after another. -/
def succeeding (s : VariableStore) : List StoreCall → List StoreCall
  | [] => []
  | call :: rest =>
    match call.run s with
    | .ok s' => call :: succeeding s' rest
    | .error _ => succeeding s rest

def on (name : String) (calls : List StoreCall) : List StoreCall :=
  calls.filter (·.name = name)

def values (calls : List StoreCall) : List Json :=
  calls.filterMap value?

/-- An option as the last call that gives it says. -/
def lastGiven {α : Type} (option : VariableOptions → Option α) (calls : List StoreCall) : Option α :=
  (calls.filterMap fun call => option call.options).getLast?

/-- The names that calls assign values to, each once, in the order of the first assignments. -/
def namesSet (calls : List StoreCall) : List String :=
  ((calls.filter (·.value?.isSome)).map name).eraseDups

end StoreCall

/-- The store that calls make of the empty one. -/
def VariableStore.after (calls : List StoreCall) : VariableStore :=
  calls.foldl StoreCall.apply VariableStore.empty

/-- The variable that successful calls on one name make. -/
def Variable.ofCalls (calls : List StoreCall) : Variable where
  value := (StoreCall.values calls).getLast?.getD .null
  initial := (StoreCall.lastGiven (·.initial) calls).getD ((StoreCall.values calls).head?.getD .null)
  recorded := (StoreCall.lastGiven (·.initial) calls).isSome || !(StoreCall.values calls).isEmpty
  diff := (StoreCall.lastGiven (·.diff) calls).getD false
  output := (StoreCall.lastGiven (·.output) calls).getD true
  change := StoreCall.lastGiven (·.change) calls
  fact := (StoreCall.lastGiven (·.fact) calls).getD false
  verbosity := (StoreCall.lastGiven (·.verbosity) calls).getD 0

theorem VariableStore.exists_of_setWith {s s' : VariableStore} {name : String} {value : Json}
    {options : VariableOptions} (h : s.setWith name value options = .ok s') :
    ∃ v, ((s.find? name).getD .blank).configure options = .ok v ∧ s' = s.put name (v.assign value) ∧
      isReserved name = false := by
  unfold setWith at h
  by_cases hreserved : isReserved name = true
  · simp [hreserved, throw, throwThe, MonadExceptOf.throw] at h
  · simp only [hreserved] at h
    obtain ⟨v, hv, hput⟩ := Except.bind_eq_ok_iff.mp h
    exact ⟨v, hv, (Except.ok.inj hput).symm, by simpa using hreserved⟩

namespace StoreCall

variable {s s' : VariableStore} {call : StoreCall} {calls : List StoreCall}

theorem values_append_singleton : values (calls ++ [call]) = values calls ++ call.value?.toList := by
  rw [values, List.filterMap_append]
  cases h : call.value? <;> simp [h, values]

theorem lastGiven_append_singleton {α : Type} (option : VariableOptions → Option α) :
    lastGiven option (calls ++ [call]) = (option call.options).or (lastGiven option calls) := by
  rw [lastGiven, List.filterMap_append, List.getLast?_append]
  cases h : option call.options <;> simp [h, lastGiven]

theorem on_append_self : on call.name (calls ++ [call]) = on call.name calls ++ [call] := by
  simp [on]

theorem on_append_of_ne {name : String} (h : call.name ≠ name) :
    on name (calls ++ [call]) = on name calls := by
  simp [on, h]

theorem namesSet_append_of_none (h : call.value? = none) :
    namesSet (calls ++ [call]) = namesSet calls := by
  simp [namesSet, h]

theorem namesSet_append_of_some {value : Json} (h : call.value? = some value) :
    namesSet (calls ++ [call])
      = if call.name ∈ namesSet calls then namesSet calls else namesSet calls ++ [call.name] := by
  have hset : (calls ++ [call]).filter (·.value?.isSome)
      = calls.filter (·.value?.isSome) ++ [call] := by
    simp [h]
  have happend : namesSet (calls ++ [call]) = namesSet calls
      ++ ([call.name].removeAll ((calls.filter (·.value?.isSome)).map name)).eraseDups := by
    rw [namesSet, hset, List.map_append, List.eraseDups_append]
    rfl
  rw [happend, List.removeAll, List.filter_singleton]
  by_cases hmem : call.name ∈ namesSet calls
  · have hset : call.name ∈ (calls.filter (·.value?.isSome)).map name := List.mem_eraseDups.mp hmem
    simp [hmem, hset]
  · have hset : call.name ∉ (calls.filter (·.value?.isSome)).map name :=
      fun h => hmem (List.mem_eraseDups.mpr h)
    simp [hmem, hset, List.eraseDups_cons]

def update (call : StoreCall) (v : Variable) : Except Error Variable :=
  (v.configure call.options).map fun v =>
    match call.value? with
    | some value => v.assign value
    | none => v

/-- A call that succeeds puts the variable of its name as it updates it. A name that is new is not
reserved, and it comes with a value. -/
theorem exists_of_run (h : call.run s = .ok s') :
    ∃ v, call.update ((s.find? call.name).getD .blank) = .ok v ∧ s' = s.put call.name v ∧
      (call.name ∉ s.names → VariableStore.isReserved call.name = false ∧ call.value? ≠ none) := by
  cases call with
  | set name value =>
      obtain ⟨v, hv, rfl, hfree⟩ := VariableStore.exists_of_setWith h
      refine ⟨v.assign value, ?_, rfl, fun _ => ⟨hfree, nofun⟩⟩
      rw [update, options, StoreCall.name, hv]
      rfl
  | setWith name value options =>
      obtain ⟨v, hv, rfl, hfree⟩ := VariableStore.exists_of_setWith h
      refine ⟨v.assign value, ?_, rfl, fun _ => ⟨hfree, nofun⟩⟩
      rw [update, StoreCall.options, StoreCall.name, hv]
      rfl
  | configure name options =>
      obtain ⟨v, hv, hrun⟩ := Except.bind_eq_ok_iff.mp h
      obtain ⟨w, hw, hput⟩ := Except.bind_eq_ok_iff.mp hrun
      have hfind := VariableStore.lookup_eq_ok_iff.mp hv
      refine ⟨w, ?_, (Except.ok.inj hput).symm, fun hnew => ?_⟩
      · rw [update, StoreCall.options, StoreCall.name, hfind, Option.getD_some, hw]
        rfl
      · exact absurd (VariableStore.mem_names_of_find? hfind) hnew

end StoreCall

namespace Variable

variable {call : StoreCall} {calls : List StoreCall} {v : Variable}

/-- Only the first of the values counts as initial one, and only if none has been given by then. -/
theorem initial_of_values (given last : Option Json) (values : List Json) (value : Json) :
    (if (last.isSome || !values.isEmpty) || given.isSome then
        given.getD (last.getD (values.head?.getD .null))
      else value)
      = (given.or last).getD ((values ++ [value]).head?.getD .null) := by
  cases given <;> cases last <;> cases values <;> simp

/-- One more successful call updates the variable that the calls before it make. -/
theorem ofCalls_append (h : call.update (ofCalls calls) = .ok v) :
    v = ofCalls (calls ++ [call]) := by
  obtain ⟨w, hw, rfl⟩ := Except.map_eq_ok_iff.mp h
  unfold configure at hw
  split at hw
  · cases hw
  · cases hw
    cases hvalue : call.value? with
    | none =>
        have hrecorded : ((ofCalls calls).recorded || call.options.initial.isSome)
            = (ofCalls (calls ++ [call])).recorded := by
          simp only [ofCalls, StoreCall.lastGiven_append_singleton,
            StoreCall.values_append_singleton, hvalue, Option.isSome_or, Option.toList_none,
            List.append_nil]
          rw [Bool.or_comm, Bool.or_assoc]
        simp only [hrecorded]
        simp [ofCalls, StoreCall.lastGiven_append_singleton, StoreCall.values_append_singleton,
          hvalue]
    | some value =>
        have hinitial : (if (ofCalls calls).recorded || call.options.initial.isSome then
              call.options.initial.getD (ofCalls calls).initial else value)
            = (ofCalls (calls ++ [call])).initial := by
          simp only [ofCalls, StoreCall.lastGiven_append_singleton,
            StoreCall.values_append_singleton, hvalue]
          exact initial_of_values _ _ _ _
        simp only [assign, hinitial]
        simp [ofCalls, StoreCall.lastGiven_append_singleton, StoreCall.values_append_singleton,
          hvalue]

end Variable

namespace VariableStore

/-- A store holds what the successful calls that have been made come to. -/
structure Recounts (s : VariableStore) (calls : List StoreCall) : Prop where
  names : s.names = StoreCall.namesSet calls
  nodup : s.names.Nodup
  free : ∀ name ∈ s.names, isReserved name = false
  called : ∀ call ∈ calls, call.name ∈ s.names
  found : ∀ name ∈ s.names, s.find? name = some (.ofCalls (StoreCall.on name calls))

variable {s s' : VariableStore} {call : StoreCall} {calls : List StoreCall}

theorem recounts_nil : empty.Recounts [] where
  names := rfl
  nodup := .nil
  free := nofun
  called := nofun
  found := nofun

namespace Recounts

/-- The variable that a call is on is what the calls on its name have made, if any were. -/
theorem getD_find? (h : s.Recounts calls) (name : String) :
    (s.find? name).getD .blank = .ofCalls (StoreCall.on name calls) := by
  by_cases hmem : name ∈ s.names
  · rw [h.found name hmem, Option.getD_some]
  · have hnone : StoreCall.on name calls = [] := by
      refine List.filter_eq_nil_iff.mpr fun call hcall hname => hmem ?_
      have heq : call.name = name := by simpa using hname
      exact heq ▸ h.called call hcall
    rw [find?_eq_none_iff.mpr hmem, hnone]
    rfl

theorem names_step {v : Variable} (h : s.Recounts calls)
    (hnew : call.name ∉ s.names → call.value? ≠ none) :
    (s.put call.name v).names = StoreCall.namesSet (calls ++ [call]) := by
  rw [names_put]
  cases hvalue : call.value? with
  | none =>
      have hmem : call.name ∈ s.names := by
        by_contra hmem
        exact hnew hmem hvalue
      rw [if_pos hmem, StoreCall.namesSet_append_of_none hvalue]
      exact h.names
  | some value => rw [StoreCall.namesSet_append_of_some hvalue, ← h.names]

theorem step (h : s.Recounts calls) (hrun : call.run s = .ok s') :
    s'.Recounts (calls ++ [call]) := by
  obtain ⟨v, hv, rfl, hnew⟩ := StoreCall.exists_of_run hrun
  have hself : v = .ofCalls (StoreCall.on call.name (calls ++ [call])) := by
    rw [StoreCall.on_append_self]
    rw [h.getD_find?] at hv
    exact Variable.ofCalls_append hv
  refine ⟨h.names_step fun hmem => (hnew hmem).2, nodup_names_put h.nodup, ?_, ?_, ?_⟩
  · intro name hname
    by_cases hmem : name ∈ s.names
    · exact h.free name hmem
    · obtain rfl : name = call.name := (mem_names_put.mp hname).resolve_left hmem
      exact (hnew hmem).1
  · intro other hother
    rw [mem_names_put]
    rcases List.mem_append.mp hother with hother | hother
    · exact .inl (h.called other hother)
    · exact .inr (congrArg StoreCall.name (List.mem_singleton.mp hother))
  · intro name hname
    by_cases heq : call.name = name
    · subst heq
      rw [find?_put_self, hself]
    · have hmem : name ∈ s.names := (mem_names_put.mp hname).resolve_right (Ne.symm heq)
      rw [find?_put_of_ne (Ne.symm heq), StoreCall.on_append_of_ne heq, h.found name hmem]

theorem run {final : VariableStore} (h : s.Recounts calls) {later : List StoreCall}
    (hrun : later.foldlM StoreCall.run s = .ok final) : final.Recounts (calls ++ later) := by
  induction later generalizing s calls with
  | nil =>
      cases hrun
      rwa [List.append_nil]
  | cons call rest ih =>
      obtain ⟨s', hs', hrest⟩ := Except.bind_eq_ok_iff.mp hrun
      rw [← List.singleton_append, ← List.append_assoc]
      exact ih (h.step hs') hrest

end Recounts

/-- Making the calls that succeed, and no others, gives the same store. -/
theorem foldlM_succeeding (s : VariableStore) (calls : List StoreCall) :
    (StoreCall.succeeding s calls).foldlM StoreCall.run s = .ok (calls.foldl StoreCall.apply s) := by
  induction calls generalizing s with
  | nil => rfl
  | cons call rest ih =>
      rw [StoreCall.succeeding, List.foldl_cons, StoreCall.apply]
      cases hrun : call.run s with
      | error e => exact ih s
      | ok s' =>
          simp only [List.foldlM_cons, hrun, Except.ok_bind]
          exact ih s'

theorem recounts_after (calls : List StoreCall) :
    (after calls).Recounts (StoreCall.succeeding empty calls) :=
  recounts_nil.run (foldlM_succeeding empty calls)

end VariableStore

/-- A variable is as calls on its name say. -/
structure Variable.Recounts (v : Variable) (calls : List StoreCall) : Prop where
  value : some v.value = (StoreCall.values calls).getLast?
  initial : some v.initial = (StoreCall.lastGiven (·.initial) calls).or (StoreCall.values calls).head?
  diff : v.diff = (StoreCall.lastGiven (·.diff) calls).getD false
  output : v.output = (StoreCall.lastGiven (·.output) calls).getD true
  fact : v.fact = (StoreCall.lastGiven (·.fact) calls).getD false
  verbosity : v.verbosity = (StoreCall.lastGiven (·.verbosity) calls).getD 0
  change : v.tracksChange = (StoreCall.lastGiven (·.change) calls).getD v.diff
  hasChanged : v.hasChanged = (v.tracksChange && !(v.initial == v.value))

theorem Variable.recounts_ofCalls {calls : List StoreCall} (h : StoreCall.values calls ≠ []) :
    (Variable.ofCalls calls).Recounts calls := by
  obtain ⟨first, rest, hvalues⟩ := List.exists_cons_of_ne_nil h
  refine ⟨?_, ?_, rfl, rfl, rfl, rfl, rfl, rfl⟩
  · rw [ofCalls, hvalues, List.getLast?_cons, Option.getD_some]
  · rw [ofCalls, hvalues, List.head?_cons]
    cases StoreCall.lastGiven (·.initial) calls <;> rfl

/-- To a name that is set belong the values that it is set to. -/
theorem StoreCall.values_on_ne_nil {calls : List StoreCall} {name : String}
    (h : name ∈ namesSet calls) : values (on name calls) ≠ [] := by
  obtain ⟨call, hcall, rfl⟩ := List.mem_map.mp (List.mem_eraseDups.mp h)
  obtain ⟨hmem, hset⟩ := List.mem_filter.mp hcall
  obtain ⟨value, hvalue⟩ := Option.isSome_iff_exists.mp hset
  have hon : call ∈ on call.name calls := List.mem_filter.mpr ⟨hmem, by simp⟩
  exact List.ne_nil_of_mem (List.mem_filterMap.mpr ⟨call, hon, hvalue⟩)

namespace StoreCall

def given (calls : List StoreCall) : List Json :=
  values calls ++ calls.filterMap (·.options.initial)

theorem mem_of_mem_succeeding {s : VariableStore} {call : StoreCall} {calls : List StoreCall}
    (h : call ∈ succeeding s calls) : call ∈ calls := by
  induction calls generalizing s with
  | nil => exact h
  | cons first rest ih =>
      rw [succeeding] at h
      cases hrun : first.run s with
      | error e =>
          rw [hrun] at h
          exact List.mem_cons_of_mem first (ih h)
      | ok s' =>
          rw [hrun] at h
          obtain rfl | h := List.mem_cons.mp h
          · exact List.mem_cons_self
          · exact List.mem_cons_of_mem first (ih h)

theorem given_subset (s : VariableStore) (name : String) (calls : List StoreCall) :
    given (on name (succeeding s calls)) ⊆ given calls := by
  have hcalls : on name (succeeding s calls) ⊆ calls := fun _ hcall =>
    mem_of_mem_succeeding (List.mem_of_mem_filter hcall)
  exact List.append_subset.mpr
    ⟨List.subset_append_of_subset_left _ (List.filterMap_subset _ hcalls),
      List.subset_append_of_subset_right _ (List.filterMap_subset _ hcalls)⟩

end StoreCall

/-- A store holds no values but those that are given. -/
theorem VariableStore.given_of_mem_after {calls : List StoreCall} {entry : String × Variable}
    (h : entry ∈ (after calls).entries) :
    entry.2.value ∈ StoreCall.given calls ∧ entry.2.initial ∈ StoreCall.given calls := by
  have hrecounts := recounts_after calls
  have hname : entry.1 ∈ (after calls).names := List.mem_map_of_mem h
  have hfound := hrecounts.found entry.1 hname
  rw [(find?_eq_some_iff hrecounts.nodup).mpr h] at hfound
  have hvariable := Variable.recounts_ofCalls (StoreCall.values_on_ne_nil (hrecounts.names ▸ hname))
  rw [← Option.some.inj hfound] at hvariable
  have hsubset := StoreCall.given_subset empty entry.1 calls
  refine ⟨hsubset (List.mem_append_left _ (List.mem_of_getLast? hvariable.value.symm)), hsubset ?_⟩
  have hinitial := hvariable.initial
  generalize StoreCall.on entry.1 (StoreCall.succeeding empty calls) = onEntry at hinitial ⊢
  cases hlast : StoreCall.lastGiven (·.initial) onEntry with
  | none =>
      rw [hlast, Option.none_or] at hinitial
      exact List.mem_append_left _ (List.mem_of_head? hinitial.symm)
  | some initial =>
      rw [hlast, Option.some_or] at hinitial
      rw [Option.some.inj hinitial]
      exact List.mem_append_right _ (List.mem_of_getLast? hlast)

/-- Whatever calls are made, the store is what the successful ones come to. Its names are those that
they set, in the order in which they first do, and each variable is as the calls on its name say.
The store has changed if one of its variables has. -/
theorem VariableStore.after_recounts_calls (calls : List StoreCall) :
    (StoreCall.succeeding empty calls).foldlM StoreCall.run empty = .ok (after calls) ∧
      (after calls).names = StoreCall.namesSet (StoreCall.succeeding empty calls) ∧
      (after calls).names.Nodup ∧
      (∀ name ∈ (after calls).names, ∃ v, (after calls).lookup name = .ok v ∧
        v.Recounts (StoreCall.on name (StoreCall.succeeding empty calls))) ∧
      ((after calls).hasChanged = true ↔
        ∃ name v, (after calls).lookup name = .ok v ∧ v.hasChanged = true) := by
  have hrecounts := recounts_after calls
  refine ⟨foldlM_succeeding empty calls, hrecounts.names, hrecounts.nodup, fun name hname => ?_, ?_⟩
  · have hvalues := StoreCall.values_on_ne_nil (hrecounts.names ▸ hname)
    refine ⟨_, ?_, Variable.recounts_ofCalls hvalues⟩
    exact lookup_eq_ok_iff.mpr (hrecounts.found name hname)
  · rw [hasChanged_iff hrecounts.nodup]
    simp only [lookup_eq_ok_iff]

end TaskTags
