import TaskTags.CommandLine.Console

/-!
# Programs that print

What a program comes to and what it prints do not depend on what has been printed before, so they
follow from those of its steps.
-/

namespace TaskTags.CommandLine

namespace Printed

@[simp]
theorem append_empty (p : Printed) : p ++ empty = p := by
  show Printed.mk (p.stdout ++ "") (p.stderr ++ "") = p
  rw [String.append_empty, String.append_empty]

@[simp]
theorem empty_append (p : Printed) : empty ++ p = p := by
  show Printed.mk ("" ++ p.stdout) ("" ++ p.stderr) = p
  rw [String.empty_append, String.empty_append]

theorem append_assoc (p q r : Printed) : p ++ q ++ r = p ++ (q ++ r) := by
  show Printed.mk (p.stdout ++ q.stdout ++ r.stdout) (p.stderr ++ q.stderr ++ r.stderr)
    = Printed.mk (p.stdout ++ (q.stdout ++ r.stdout)) (p.stderr ++ (q.stderr ++ r.stderr))
  rw [String.append_assoc, String.append_assoc]

@[simp]
theorem stdout_append (p q : Printed) : (p ++ q).stdout = p.stdout ++ q.stdout := rfl

@[simp]
theorem stderr_append (p q : Printed) : (p ++ q).stderr = p.stderr ++ q.stderr := rfl

end Printed

namespace Console

variable {α β : Type}

/-- Wherever it starts, a program comes to a result and prints more behind what is printed. -/
def Does (p : Console α) (result : Except Error α) (more : Printed) : Prop :=
  ∀ printed, p.run.run printed = (result, printed ++ more)

variable {p : Console α} {f : α → Console β} {more : Printed}

theorem does_pure (a : α) : Does (pure a) (.ok a) .empty := by
  intro printed
  rw [Printed.append_empty]
  rfl

theorem does_print (text : String) : Does (print text) (.ok ()) ⟨text, ""⟩ :=
  fun _ => rfl

theorem does_printError (text : String) : Does (printError text) (.ok ()) ⟨"", text⟩ :=
  fun _ => rfl

/-- A step that only may fail prints nothing. -/
theorem does_lift (x : Except Error α) : Does (liftM x) x .empty := by
  intro printed
  rw [Printed.append_empty]
  rfl

theorem lift_ok_bind (a : α) (f : α → Console β) :
    (liftM (Except.ok a : Except Error α) >>= f) = f a := rfl

namespace Does

theorem bind {a : α} {result : Except Error β} {later : Printed} (hp : Does p (.ok a) more)
    (hf : Does (f a) result later) : Does (p >>= f) result (more ++ later) := by
  intro printed
  have hstep : (p >>= f).run.run printed = (f a).run.run (printed ++ more) := by
    rw [ExceptT.run_bind, StateT.run_bind, hp printed]
    rfl
  rw [hstep, hf, Printed.append_assoc]

theorem bind_error {e : Error} (hp : Does p (.error e) more) : Does (p >>= f) (.error e) more := by
  intro printed
  rw [ExceptT.run_bind, StateT.run_bind, hp printed]
  rfl

/-- A list of steps that succeed, with what every one of them prints. -/
theorem forM {xs : List α} {f : α → Console PUnit} (P : Printed → Prop) (hempty : P .empty)
    (happend : ∀ printed more, P printed → P more → P (printed ++ more))
    (h : ∀ x ∈ xs, ∃ more, Does (f x) (.ok ()) more ∧ P more) :
    ∃ more, Does (xs.forM f) (.ok ()) more ∧ P more := by
  induction xs with
  | nil => exact ⟨.empty, does_pure (), hempty⟩
  | cons x xs ih =>
      obtain ⟨first, hfirst, hP⟩ := h x List.mem_cons_self
      obtain ⟨more, hmore, hmoreP⟩ := ih fun y hy => h y (List.mem_cons_of_mem x hy)
      exact ⟨first ++ more, hfirst.bind hmore, happend first more hP hmoreP⟩

theorem start {result : Except Error α} (hp : Does p result more) : p.start = (result, more) := by
  rw [Console.start, hp, Printed.empty_append]

end Does
end Console
end TaskTags.CommandLine
