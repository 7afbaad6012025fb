import TaskTags.Playbook.Basic
import TaskTags.Tag.Declaration

/-!
Playbooks from YAML values. The first offending place in the order of the document decides the
error: in a play its tags, its variables and then its sections, in a block its tags, its variables
and then its parts.
-/

namespace TaskTags

open Yaml (Value)

/-- The keys of a task that name no module. -/
def Task.keywords : List String :=
  ["name", "tags", "when", "vars", "register", "notify", "listen", "become", "become_user",
    "become_method", "loop", "loop_control", "with_items", "with_dict", "with_fileglob",
    "delegate_to", "delegate_facts", "run_once", "ignore_errors", "ignore_unreachable",
    "changed_when", "failed_when", "no_log", "environment", "args", "until", "retries", "delay",
    "check_mode", "diff", "any_errors_fatal", "timeout", "throttle", "collections",
    "module_defaults", "debugger", "block", "rescue", "always"]

/-- The module of a task: its first text key that is no keyword. -/
def Task.actionOf (entries : List (Value × Value)) : Option String :=
  (entries.filterMap fun (k, _) => k.asStr?).find? fun key => !Task.keywords.contains key

/-- The value of a key, null without one. -/
def fieldOf (entries : List (Value × Value)) (key : String) : Value :=
  (Value.field? entries key).getD .null

def hasKey (entries : List (Value × Value)) (key : String) : Bool :=
  (Value.field? entries key).isSome

/-- The variables of an owner: nothing, or a mapping. -/
def bindingsOf (owner : String) : Value → Except Error Bindings
  | .null => .ok []
  | .map entries =>
    match Value.toJsonFields entries with
    | .ok fields => .ok (Json.sortFields fields)
    | .error _ => .error .json
  | _ => .error (.playbook (.varsNotMapping owner))

def Declared.ofFields (name : String) (entries : List (Value × Value)) : Except Error Declared := do
  let tags ← TagEntry.ofDeclaration name (fieldOf entries "tags")
  let vars ← bindingsOf name (fieldOf entries "vars")
  return ⟨name, tags, vars⟩

theorem sizeOf_fieldOf_lt (entries : List (Value × Value)) (key : String) :
    sizeOf (fieldOf entries key) < sizeOf (Value.map entries) := by
  unfold fieldOf Value.field?
  cases h : entries.find? _ with
  | none =>
    have : 0 < sizeOf entries := by cases entries <;> simp +arith
    simp [this]
  | some e =>
    have := List.sizeOf_lt_of_mem (List.mem_of_find?_eq_some h)
    obtain ⟨k, v⟩ := e
    simp at this ⊢
    omega

theorem sizeOf_untagged_le (v : Value) : sizeOf v.untagged ≤ sizeOf v := by
  fun_induction Value.untagged v with
  | case1 _ _ ih => simp; omega
  | case2 => exact Nat.le_refl _

theorem sizeOf_lt_of_asMap?_eq {v : Value} {entries : List (Value × Value)}
    (h : v.asMap? = some entries) (key : String) : sizeOf (fieldOf entries key) < sizeOf v := by
  have hle := sizeOf_untagged_le v
  have hlt := sizeOf_fieldOf_lt entries key
  unfold Value.asMap? at h
  split at h
  · next heq => simp_all; omega
  · cases h

mutual
def TaskNode.ofValue (owner : String) (v : Value) : Except Error TaskNode :=
  match _h : v.asMap? with
  | none => .error (.playbook (.taskNotMapping owner))
  | some entries => do
    let given := (fieldOf entries "name").asStr?
    if hasKey entries "block" then
      let name := given.getD "block"
      let declared ← Declared.ofFields name entries
      let body ← TaskNode.listOfValue name (fieldOf entries "block")
      let rescue ← TaskNode.listOfValue name (fieldOf entries "rescue")
      let always ← TaskNode.listOfValue name (fieldOf entries "always")
      return .block declared body rescue always
    else
      let action := Task.actionOf entries
      let name := (given <|> action).getD "Unnamed task"
      return .task (← Declared.ofFields name entries) action
termination_by sizeOf v
decreasing_by all_goals exact sizeOf_lt_of_asMap?_eq _h _

/-- The nodes of a task list: nothing, or a list of nodes. -/
def TaskNode.listOfValue (owner : String) (v : Value) : Except Error (List TaskNode) :=
  match v with
  | .null => .ok []
  | .list items => items.attach.mapM fun ⟨item, _⟩ => TaskNode.ofValue owner item
  | _ => .error (.playbook (.tasksNotList owner))
termination_by sizeOf v
decreasing_by
  have := List.sizeOf_lt_of_mem ‹item ∈ items›
  simp
  omega
end

/-- The play of a value; plays are counted from one. -/
def Play.ofValue (number : Nat) (v : Value) : Except Error Play :=
  match v.asMap? with
  | none => .error (.playbook (.playNotMapping number))
  | some entries => do
    let name := (fieldOf entries "name").asStr?.getD ("Play #" ++ toString number)
    let declared ← Declared.ofFields name entries
    let preTasks ← TaskNode.listOfValue name (fieldOf entries Section.preTasks.key)
    let tasks ← TaskNode.listOfValue name (fieldOf entries Section.tasks.key)
    let postTasks ← TaskNode.listOfValue name (fieldOf entries Section.postTasks.key)
    let handlers ← TaskNode.listOfValue name (fieldOf entries Section.handlers.key)
    return ⟨declared, (fieldOf entries "hosts").asStr?, preTasks, tasks, postTasks, handlers⟩

namespace Playbook

def ofPlays (number : Nat) : List Value → Except Error Playbook
  | [] => .ok []
  | v :: rest => do
    let play ← Play.ofValue number v
    return play :: (← ofPlays (number + 1) rest)

/-- The playbook of a document: nothing, or a list of plays. -/
def ofValue : Value → Except Error Playbook
  | .null => .ok []
  | .list items => ofPlays 1 items
  | _ => .error (.playbook .notAList)

def parse (text : String) : Except Error Playbook :=
  match Value.parse? text with
  | none => .error .yaml
  | some v => ofValue v

end Playbook
end TaskTags
