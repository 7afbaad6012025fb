import TaskTags.CommandLine.Run
import TaskTags.Proofs.Except
import TaskTags.Proofs.Store.Lookup

/-!
# What a command assigns

Behind the filters a command assigns variables of other names, each of them once, so that these
cannot have changed and stand under keys of their own in the report.
-/

namespace TaskTags.CommandLine

namespace Assignment

/-- The entry of a variable that is assigned once. -/
def entry (a : Assignment) : String × Variable :=
  (a.name, { Variable.blank with
    value := a.value, initial := a.value, recorded := true, verbosity := a.verbosity.getD 0 })

def InRange (a : Assignment) : Prop :=
  ∀ level ∈ a.verbosity, level ≤ Variable.maxVerbosity

variable {a : Assignment}

theorem hasChanged_entry (a : Assignment) : a.entry.2.hasChanged = false := rfl

theorem configure_blank (hrange : a.InRange) :
    Variable.blank.configure a.options
      = .ok { Variable.blank with verbosity := a.verbosity.getD 0 } := by
  have hlevel : a.options.verbosity.filter (Variable.maxVerbosity < ·) = none := by
    rw [Option.filter_eq_none_iff]
    intro level hmem
    have hle := hrange level hmem
    simpa using hle
  rw [Variable.configure, hlevel]
  rfl

theorem setWith_new {s : VariableStore} (hreserved : a.name ∉ VariableStore.reservedNames)
    (hnew : a.name ∉ s.names) (hrange : a.InRange) :
    s.setWith a.name a.value a.options = .ok ⟨s.entries ++ [a.entry]⟩ := by
  have hfree : VariableStore.isReserved a.name = false := by
    rw [VariableStore.isReserved, List.contains_eq_mem]
    exact decide_eq_false hreserved
  have hblank : (s.find? a.name).getD Variable.blank = Variable.blank := by
    rw [VariableStore.find?_eq_none_iff.mpr hnew]
    rfl
  rw [VariableStore.setWith, hfree, hblank, configure_blank hrange]
  -- The name is not there, so the variable is put behind the others.
  show Except.ok (s.put a.name _) = _
  rw [VariableStore.put, if_neg hnew]
  rfl

end Assignment

def filterNames : List String := ["only_tags", "skip_tags"]

def fieldNames : List String := ["changed", "msg", "ansible_facts", "warnings", "deprecations"]

namespace Finding

def names (finding : Finding) : List String :=
  finding.assigned.map (·.name)

/-- Together with the filters, variables of different names, under which nothing else stands. -/
structure Sound (finding : Finding) : Prop where
  nodup : (filterNames ++ finding.names).Nodup
  free : ∀ name ∈ filterNames ++ finding.names,
    name ∉ VariableStore.reservedNames ∧ name ∉ fieldNames
  inRange : ∀ a ∈ finding.assigned, a.InRange

end Finding

/-- What a command finds where it does not fail. -/
inductive Context.Finds (env : Environment) (ctx : Context) : Command → Finding → Prop where
  | check (args : List String) : ctx.Finds env (.check args)
      (checked (TagSet.ofValues args) (ctx.filter.runs (TagSet.ofValues args)))
  | listTags {path : String} {playbook : Playbook} (read : readPlaybook env path = .ok playbook) :
      ctx.Finds env (.listTags path) (listedTags playbook.collect)
  | listTasks {path : String} {playbook : Playbook} {plays : List PlaySelection}
      (showSkipped : Bool) (read : readPlaybook env path = .ok playbook)
      (selected : playbook.select ctx.selectionRules = .ok plays) :
      ctx.Finds env (.listTasks path showSkipped) (ctx.listedTasks plays)

namespace Context

variable {env : Environment} {ctx : Context} {command : Command} {finding : Finding}

theorem Finds.sound (h : ctx.Finds env command finding) : finding.Sound := by
  cases h with
  | check args =>
      refine ⟨?_, ?_, fun a ha => ?_⟩
      · show (filterNames ++ ["tags", "run"]).Nodup
        decide
      · show ∀ name ∈ filterNames ++ ["tags", "run"], _
        decide
      · obtain rfl | rfl := List.mem_pair.mp ha <;> exact nofun
  | listTags read =>
      refine ⟨?_, ?_, fun a ha => ?_⟩
      · show (filterNames ++ ["tags", "tag_tasks"]).Nodup
        decide
      · show ∀ name ∈ filterNames ++ ["tags", "tag_tasks"], _
        decide
      · obtain rfl | rfl := List.mem_pair.mp ha <;> exact nofun
  | listTasks showSkipped read selected =>
      refine ⟨?_, ?_, fun a ha => ?_⟩
      · show (filterNames ++ ["plays", "selected", "skipped", "inherit"]).Nodup
        decide
      · show ∀ name ∈ filterNames ++ ["plays", "selected", "skipped", "inherit"], _
        decide
      · simp only [listedTasks, List.mem_cons, List.not_mem_nil, or_false] at ha
        obtain rfl | rfl | rfl | rfl := ha
        · exact nofun
        · exact nofun
        · exact nofun
        · rintro level ⟨⟩
          decide

/-! ## The store of a command -/

/-- A filter as a variable, first as it is configured and then as it is in effect. -/
def filterVariable (configured effective : TagSet) : Variable :=
  { Variable.blank with
    value := .str effective.display, initial := .str configured.display, recorded := true,
    diff := true }

def filterEntries (ctx : Context) : List (String × Variable) :=
  [("only_tags", filterVariable ctx.settings.filter.only ctx.filter.only),
    ("skip_tags", filterVariable ctx.settings.filter.skip ctx.filter.skip)]

/-- The filters and the variables behind them. -/
def assignedStore (ctx : Context) (assigned : List Assignment) : VariableStore :=
  ⟨ctx.filterEntries ++ assigned.map Assignment.entry⟩

theorem filterVars_eq (ctx : Context) : ctx.filterVars = .ok (ctx.assignedStore []) := rfl

theorem names_assignedStore (ctx : Context) (assigned : List Assignment) :
    (ctx.assignedStore assigned).names = filterNames ++ assigned.map (·.name) := by
  rw [assignedStore, VariableStore.names, List.map_append, List.map_map]
  rfl

theorem foldlM_setWith {assigned rest : List Assignment}
    (hnodup : (filterNames ++ (assigned ++ rest).map (·.name)).Nodup)
    (hfree : ∀ a ∈ rest, a.name ∉ VariableStore.reservedNames) (hrange : ∀ a ∈ rest, a.InRange) :
    rest.foldlM (fun s a => s.setWith a.name a.value a.options) (ctx.assignedStore assigned)
      = .ok (ctx.assignedStore (assigned ++ rest)) := by
  -- On what is left to assign; what is assigned already is in the store, each name once.
  induction rest generalizing assigned with
  | nil =>
      rw [List.append_nil]
      rfl
  | cons a rest ih =>
      have hnew : a.name ∉ (ctx.assignedStore assigned).names := by
        rw [List.map_append, ← List.append_assoc, ← names_assignedStore ctx] at hnodup
        intro hmem
        exact (List.nodup_append.mp hnodup).2.2 _ hmem _ List.mem_cons_self rfl
      have hset := Assignment.setWith_new (hfree a List.mem_cons_self) hnew
        (hrange a List.mem_cons_self)
      have hstore : VariableStore.mk ((ctx.assignedStore assigned).entries ++ [a.entry])
          = ctx.assignedStore (assigned ++ [a]) := by
        rw [assignedStore, assignedStore, List.map_append, List.append_assoc]
        rfl
      have happend : assigned ++ a :: rest = assigned ++ [a] ++ rest := by
        rw [List.append_assoc, List.singleton_append]
      rw [happend] at hnodup ⊢
      rw [List.foldlM_cons, hset, hstore, Except.ok_bind]
      apply ih hnodup
      · exact fun b hb => hfree b (List.mem_cons_of_mem a hb)
      · exact fun b hb => hrange b (List.mem_cons_of_mem a hb)

theorem assign_eq (ctx : Context) (h : finding.Sound) :
    ctx.assign finding.assigned = .ok (ctx.assignedStore finding.assigned) := by
  have hfree : ∀ a ∈ finding.assigned, a.name ∉ VariableStore.reservedNames := by
    intro a ha
    exact (h.free a.name (List.mem_append_right _ (List.mem_map_of_mem ha))).1
  rw [assign, filterVars_eq, Except.ok_bind]
  exact foldlM_setWith h.nodup hfree h.inRange

end Context
end TaskTags.CommandLine
