import TaskTags.Proofs.CommandLine.Output
import TaskTags.Proofs.Decimal.Digits
import TaskTags.Proofs.Json.Field
import TaskTags.Proofs.Playbook.Collect

/-!
# Listed tags as JSON

The report on a listing has the tasks of each tag under the text of the tag. An integer has one text
with the text that spells it, and of both the latter is the greater one, whose tasks stay.
-/

namespace TaskTags

theorem Tag.of_lt_of_display_eq {tag other : Tag} (hlt : tag < other)
    (h : other.display = tag.display) : (∃ n, tag = .int n) ∧ other = .str tag.display := by
  cases tag with
  | int n =>
      cases other with
      | int m =>
          rw [show m = n from Decimal.intText_inj.mp h] at hlt
          exact absurd hlt (lt_irrefl _)
      | str s => exact ⟨⟨n, rfl⟩, congrArg Tag.str h⟩
  | str s =>
      cases other with
      | int m => exact absurd hlt not_str_lt_int
      | str s' =>
          rw [show s' = s from h] at hlt
          exact absurd hlt (lt_irrefl _)

theorem TagCollector.mem_tasks_of_tasksOf? {c : TagCollector} {tag : Tag} {names : List String}
    (h : c.tasksOf? tag = some names) : (tag, names) ∈ c.tasks := by
  obtain ⟨entry, hentry, rfl⟩ := Option.map_eq_some_iff.mp h
  have htag : entry.1 = tag := by simpa using List.find?_some hentry
  rw [← htag]
  exact List.mem_of_find?_eq_some hentry

namespace CommandLine

namespace Context

open TagCollector (Table)

variable {c : TagCollector} {tag : Tag} {names : List String}

/-- What is stored under the text of a tag if no greater tag has this text. -/
theorem field?_tasksByText_of_mem (htable : Table c.tasks) (hmem : (tag, names) ∈ c.tasks)
    (hlast : ∀ entry ∈ c.tasks, tag < entry.1 → entry.1.display ≠ tag.display) :
    Json.field? (tasksByText c) tag.display = some (Json.ofStrings names) := by
  obtain ⟨front, back, htasks⟩ := List.append_of_mem hmem
  have hincreasing := htable.increasing
  rw [tasksByText, Json.field?_sortFields, htasks, List.map_append, List.map_cons]
  apply Json.field?_of_last
  intro hkey
  rw [List.map_map, List.mem_map] at hkey
  obtain ⟨entry, hentry, hdisplay⟩ := hkey
  rw [htasks, List.pairwise_append, List.pairwise_cons] at hincreasing
  have hin : entry ∈ c.tasks := htasks ▸ List.mem_append_right _ (List.mem_cons_of_mem _ hentry)
  exact hlast entry hin (hincreasing.2.1.1 entry hentry) hdisplay

/-- The tasks of the text that spells a tag are stored, and those of the tag if there are none. -/
theorem field?_tasksByText (htable : Table c.tasks) (hnames : c.tasksOf? tag = some names) :
    Json.field? (tasksByText c) tag.display
      = some (Json.ofStrings ((c.tasksOf? (.str tag.display)).getD names)) := by
  cases htext : c.tasksOf? (.str tag.display) with
  | some others =>
      have hmem := TagCollector.mem_tasks_of_tasksOf? htext
      apply field?_tasksByText_of_mem htable hmem
      -- A tag with a greater one of its text is an integer, and this one is a text.
      intro entry hentry hlt hdisplay
      obtain ⟨⟨n, hint⟩, -⟩ := Tag.of_lt_of_display_eq hlt hdisplay
      cases hint
  | none =>
      apply field?_tasksByText_of_mem htable (TagCollector.mem_tasks_of_tasksOf? hnames)
      -- The only greater tag of this text has no tasks.
      rintro ⟨other, others⟩ hentry hlt hdisplay
      obtain ⟨-, rfl⟩ := Tag.of_lt_of_display_eq hlt hdisplay
      rw [TagCollector.tasksOf?, Option.map_eq_none_iff, List.find?_eq_none] at htext
      exact htext _ hentry (beq_self_eq_true _)

end Context

variable {env : Environment} {args : List String} {inv : Invocation} {ctx : Context}
  {path : String} {playbook : Playbook}

/-- A listing that is reached succeeds, and the object that it prints has the table of its tasks. -/
theorem run_listTags (hreaches : Reaches env args inv ctx) (hcommand : inv.command = .listTags path)
    (hread : Context.readPlaybook env path = .ok playbook) (hjson : inv.json = true) :
    (run env args).exitCode = 0 ∧ ∃ object, (run env args).stdout = Json.pretty object ++ "\n" ∧
      Json.parse? (run env args).stdout = some object ∧
      object.get? "tag_tasks" = some (.obj (Context.tasksByText playbook.collect)) := by
  have hfinds : ctx.Finds env inv.command (Context.listedTags playbook.collect) := by
    rw [hcommand]
    exact .listTags hread
  have hreports : ctx.Reports (ctx.execute env inv.command)
      (Context.listedTags playbook.collect) := by
    rw [hcommand, Context.execute, hread, Console.lift_ok_bind]
    exact Context.reports_listTags hread
  obtain ⟨s, stdout, stderr, hassign, hrun, hstdout⟩ := run_of_reports hreaches hreports
  have hcounts : ∀ a ∈ (Context.listedTags playbook.collect).assigned, ∀ count,
      a.value = Json.ofNat count → count < 2 ^ 64 := by
    intro a ha count hcount
    obtain rfl | rfl := List.mem_pair.mp ha <;> cases hcount
  rw [hrun]
  refine ⟨rfl, _, hstdout hjson, ?_, ?_⟩
  · show Json.parse? stdout = _
    rw [hstdout hjson]
    exact parse?_report_line hfinds hassign hcounts
  · have ha : (⟨"tag_tasks", .obj (Context.tasksByText playbook.collect), none⟩ : Assignment)
        ∈ (Context.listedTags playbook.collect).assigned :=
      List.mem_cons_of_mem _ List.mem_cons_self
    have hfound := Context.get?_report hfinds.sound hassign ha (Nat.zero_le _)
    exact hfound

/-- In the object that a listing prints the tasks of each tag stand under its text, those of the
text in the place of those of an integer. -/
theorem listed_tasks_by_text (hreaches : Reaches env args inv ctx)
    (hcommand : inv.command = .listTags path) (hread : Context.readPlaybook env path = .ok playbook)
    (hjson : inv.json = true) :
    (run env args).exitCode = 0 ∧ ∃ object stored,
      (run env args).stdout = Json.pretty object ++ "\n" ∧
      Json.parse? (run env args).stdout = some object ∧
      object.get? "tag_tasks" = some (.obj stored) ∧
      ∀ tag names, playbook.collect.tasksOf? tag = some names →
        Json.field? stored tag.display
          = some (Json.ofStrings ((playbook.collect.tasksOf? (.str tag.display)).getD names)) := by
  obtain ⟨hzero, object, hstdout, hparse, hstored⟩ := run_listTags hreaches hcommand hread hjson
  have htable := playbook.adds_collect.table TagCollector.Table.nil
  exact ⟨hzero, object, _, hstdout, hparse, hstored, fun tag names hnames =>
    Context.field?_tasksByText htable hnames⟩

/-- Two tasks, one with the integer 1 as its tag and one with the text that spells it. -/
def twoOnes : Environment :=
  (FileTree.ofList [("site.yml",
    "- name: site\n  tasks:\n    - name: a\n      tags: [1]\n    - name: b\n      tags: ['1']\n")]
    ).environment [] false

theorem exists_playbook_twoOnes :
    ∃ playbook, Context.readPlaybook twoOnes "site.yml" = .ok playbook ∧
      playbook.collect.tasksOf? (.int 1) = some ["a"] ∧
      playbook.collect.tasksOf? (.str "1") = some ["b"] := by
  have hread : (Context.readPlaybook twoOnes "site.yml").toOption.map (fun playbook =>
      (playbook.collect.tasksOf? (.int 1), playbook.collect.tasksOf? (.str "1")))
        = some (some ["a"], some ["b"]) := by
    decide +kernel
  obtain ⟨playbook, hplaybook, htasks⟩ := Option.map_eq_some_iff.mp hread
  obtain ⟨hint, hstr⟩ := Prod.mk.inj htasks
  exact ⟨playbook, Except.toOption_eq_some_iff.mp hplaybook, hint, hstr⟩

theorem reaches_twoOnes :
    ∃ inv ctx, Reaches twoOnes ["--output", "json", "list-tags", "site.yml"] inv ctx ∧
      inv.command = .listTags "site.yml" ∧ inv.json = true := by
  let inv : Invocation := ⟨.listTags "site.yml", [], [], [], 0, false, false, true, none, false⟩
  have hparse : Invocation.parse ["--output", "json", "list-tags", "site.yml"] = .ok inv := by
    decide +kernel
  have hsettings : settingsOf twoOnes inv = .ok (Settings.default, "") := by decide +kernel
  obtain ⟨ctx, hreaches, -⟩ := exists_reaches hparse hsettings rfl
  exact ⟨inv, ctx, hreaches, rfl, rfl⟩

theorem listed_tasks_by_text_twoOnes :
    ∃ object stored,
      Json.parse? (run twoOnes ["--output", "json", "list-tags", "site.yml"]).stdout
        = some object ∧
      object.get? "tag_tasks" = some (.obj stored) ∧
      Json.field? stored "1" = some (Json.ofStrings ["b"]) := by
  obtain ⟨playbook, hread, -, hstr⟩ := exists_playbook_twoOnes
  obtain ⟨inv, ctx, hreaches, hcommand, hjson⟩ := reaches_twoOnes
  obtain ⟨-, object, stored, -, hparse, hstored, htasks⟩ :=
    listed_tasks_by_text hreaches hcommand hread hjson
  refine ⟨object, stored, hparse, hstored, ?_⟩
  have hone := htasks (.str "1") ["b"] hstr
  rwa [show Tag.display (.str "1") = "1" from rfl, hstr] at hone

/-- The task of the integer is lost: it is recorded, and what is stored is the other one. -/
theorem listed_task_lost_twoOnes :
    ∃ playbook object stored,
      Context.readPlaybook twoOnes "site.yml" = .ok playbook ∧
      playbook.collect.tasksOf? (.int 1) = some ["a"] ∧
      (run twoOnes ["--output", "json", "list-tags", "site.yml"]).stdout
        = Json.pretty object ++ "\n" ∧
      object.get? "tag_tasks" = some (.obj stored) ∧
      Json.field? stored (Tag.display (.int 1)) = some (Json.ofStrings ["b"]) := by
  obtain ⟨playbook, hread, hint, hstr⟩ := exists_playbook_twoOnes
  obtain ⟨inv, ctx, hreaches, hcommand, hjson⟩ := reaches_twoOnes
  obtain ⟨-, object, hstdout, -, hstored⟩ := run_listTags hreaches hcommand hread hjson
  have htable := playbook.adds_collect.table TagCollector.Table.nil
  have hone := Context.field?_tasksByText htable hint
  have htext : Tag.display (.int 1) = "1" := by decide
  refine ⟨playbook, object, _, hread, hint, hstdout, hstored, ?_⟩
  rw [hone, htext, hstr]
  rfl

end CommandLine
end TaskTags
