import TaskTags.Proofs.CommandLine.Assigned
import TaskTags.Proofs.Json.Field
import TaskTags.Proofs.Json.ReadBack
import TaskTags.Proofs.Playbook.Range

/-!
# Findings that are read again

The tags in what a command finds are in range, as they come from a playbook that is loaded, and at
most five arrays and objects stand in each other. Up to its counts every finding is read again from
its text.
-/

namespace TaskTags

open Json (Readable)

namespace Json

theorem readable_ofNat {depth n : Nat} (h : n < 2 ^ 64) : Readable depth (ofNat n) := by
  refine .scalar (.int ?_)
  have hfits : Decimal.fitsUnsigned 64 n = true := by
    rw [Decimal.fitsUnsigned, Bool.and_eq_true, decide_eq_true_iff, decide_eq_true_iff]
    exact ⟨Int.natCast_nonneg n, h⟩
  rw [inIntRange, hfits, Bool.or_true]

end Json

namespace CommandLine.Context

/-! ## Selections -/

theorem readable_tags {tags : TagSet} (h : ∀ tag ∈ tags, tag.InRange) :
    Readable 1 tags.toJson := by
  refine .arr fun v hv => ?_
  obtain ⟨tag, htag, rfl⟩ := List.mem_map.mp hv
  have hrange := h tag htag
  cases tag with
  | int n =>
      have hfits : Decimal.fitsSigned 64 n = true := hrange
      refine .scalar (.int ?_)
      rw [Json.inIntRange, hfits, Bool.true_or]
  | str s => exact .scalar (.str s)

theorem readable_task {t : TaskSelection} (h : ∀ tag ∈ t.tags, tag.InRange) :
    Readable 2 t.toJson := by
  refine .obj fun field hfield => ?_
  obtain hfield | hfield := List.mem_append.mp hfield
  · obtain haction | hblocks := List.mem_append.mp hfield
    · obtain ⟨action, -, rfl⟩ := List.mem_map.mp haction
      exact .scalar (.str action)
    · split at hblocks
      · cases hblocks
      · obtain rfl := List.mem_singleton.mp hblocks
        exact Json.readable_ofStrings 0 t.blocks
  · simp only [List.mem_cons, List.not_mem_nil, or_false] at hfield
    obtain rfl | rfl | rfl | rfl := hfield
    · exact .scalar (.str _)
    · exact .scalar (.str _)
    · exact .scalar (.bool _)
    · exact readable_tags h

theorem readable_play {p : PlaySelection} (htags : ∀ tag ∈ p.tags, tag.InRange)
    (htasks : ∀ t ∈ p.tasks, ∀ tag ∈ t.tags, tag.InRange) : Readable 4 p.toJson := by
  refine .obj fun field hfield => ?_
  simp only [List.mem_cons, List.not_mem_nil, or_false] at hfield
  obtain rfl | rfl | rfl := hfield
  · exact .scalar (.str _)
  · exact (readable_tags htags).mono (by decide)
  · refine .arr fun v hv => ?_
    obtain ⟨t, ht, rfl⟩ := List.mem_map.mp hv
    exact readable_task (htasks t ht)

theorem inRange_of_readPlaybook {env : Environment} {path : String} {playbook : Playbook}
    (h : readPlaybook env path = .ok playbook) : ∀ play ∈ playbook, play.InRange := by
  obtain ⟨text, -, h⟩ := Except.bind_eq_ok_iff.mp h
  split at h
  · cases h
  · exact Playbook.inRange_of_ofValue h

theorem readable_plays {env : Environment} {path : String} {playbook : Playbook}
    {rules : SelectionRules} {plays : List PlaySelection} (hon : rules.templater = Templater.on)
    (hread : readPlaybook env path = .ok playbook) (hselect : playbook.select rules = .ok plays) :
    Readable 5 (.arr (plays.map PlaySelection.toJson)) := by
  refine .arr fun v hv => ?_
  obtain ⟨p, hp, rfl⟩ := List.mem_map.mp hv
  obtain ⟨play, hplay, hselected⟩ := (Except.mem_of_mapM hselect).mp hp
  obtain ⟨htags, htasks⟩ := (inRange_of_readPlaybook hread play hplay).select hon hselected
  exact readable_play htags htasks

/-! ## Findings -/

theorem readable_listedTags (c : TagCollector) :
    ∀ a ∈ (listedTags c).assigned, Readable 2 a.value := by
  intro a ha
  obtain rfl | rfl := List.mem_pair.mp ha
  · exact Json.readable_ofStrings 1 _
  · apply Readable.obj
    intro field hfield
    obtain ⟨entry, -, rfl⟩ := List.mem_map.mp (Json.mem_of_mem_sortFields hfield)
    exact Json.readable_ofStrings 0 _

/-- Of what a command finds only a count can be too large to be read again. -/
theorem Finds.readable {env : Environment} {ctx : Context} {command : Command} {finding : Finding}
    (hfinds : ctx.Finds env command finding)
    (hcounts : ∀ a ∈ finding.assigned, ∀ count, a.value = Json.ofNat count → count < 2 ^ 64) :
    ∀ a ∈ finding.assigned, Readable 5 a.value := by
  cases hfinds with
  | check args =>
      intro a ha
      obtain rfl | rfl := List.mem_pair.mp ha
      · exact .scalar (.str _)
      · exact .scalar (.bool _)
  | listTags hread => exact fun a ha => (readable_listedTags _ a ha).mono (by decide)
  | @listTasks path playbook plays _ hread hselect =>
      simp only [listedTasks, List.forall_mem_cons] at hcounts ⊢
      obtain ⟨-, hselected, hskipped, -⟩ := hcounts
      exact ⟨readable_plays rfl hread hselect, Json.readable_ofNat (hselected _ rfl),
        Json.readable_ofNat (hskipped _ rfl), .scalar (.bool _), List.forall_mem_nil _⟩

end CommandLine.Context
end TaskTags
