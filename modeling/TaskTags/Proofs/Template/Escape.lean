import TaskTags.Proofs.Except
import TaskTags.Template.Render

/-!
# The format of the output

Only an `autoescape` block has a format of its own, and it ends with the block. So the evaluation of
an expression, calls included, leaves the format of the output as it is, and its value is written in
the format in front of it.
-/

namespace TaskTags.Template

/-- A step that, if it succeeds, leaves the format of the output as it is. -/
def Keeps {α : Type} (m : Eval α) : Prop :=
  ∀ st x st', m.run st = .ok (x, st') → st'.escape = st.escape

namespace Keeps

variable {α β : Type} {m : Eval α} {call : Caller}

@[simp]
theorem pure (x : α) : Keeps (Pure.pure x) := by
  intro st y st' h
  cases h
  rfl

@[simp]
theorem throw (fault : Fault) : Keeps (MonadExcept.throw fault : Eval α) := by
  intro st y st' h
  cases h

theorem throw_bind (fault : Fault) (f : α → Eval β) :
    Keeps (MonadExcept.throw fault >>= f) := by
  intro st y st' h
  cases h

theorem bind {f : α → Eval β} (hm : Keeps m) (hf : ∀ x, Keeps (f x)) : Keeps (m >>= f) := by
  intro st y st' h
  rw [StateT.run_bind, Except.bind_eq_ok_iff] at h
  obtain ⟨⟨x, between⟩, hx, hy⟩ := h
  rw [hf x between y st' hy, hm st x between hx]

@[simp]
theorem get : Keeps (MonadState.get : Eval State) := by
  intro st y st' h
  cases h
  rfl

theorem update {f : State → State} (h : ∀ st, (f st).escape = st.escape) :
    Keeps (modify f : Eval PUnit) := by
  intro st y st' hrun
  cases hrun
  exact h st

@[simp]
theorem lift (x : Except Fault α) : Keeps (liftM x : Eval α) := by
  intro st y st' h
  cases x with
  | error fault => cases h
  | ok a =>
      cases h
      rfl

theorem filterM {f : β → Eval Bool} (xs : List β) (h : ∀ x, Keeps (f x)) :
    Keeps (xs.filterM f) := by
  have haux : ∀ found : List β, Keeps (xs.filterAuxM f found) := by
    induction xs with
    | nil => exact fun found => pure found
    | cons x xs ih => exact fun found => bind (h x) fun b => ih _
  exact bind (haux []) fun found => pure _

theorem forIn {f : β → α → Eval (ForInStep α)} (xs : List β) (init : α) (h : ∀ x y, Keeps (f x y)) :
    Keeps (ForIn.forIn xs init f) := by
  induction xs generalizing init with
  | nil => exact pure init
  | cons x xs ih =>
      rw [List.forIn_cons]
      refine bind (h x init) fun step => ?_
      cases step with
      | done y => exact pure y
      | yield y => exact ih y

/-! ## Names and scopes -/

theorem find? (name : String) : Keeps (Eval.find? name) := by
  rw [Eval.find?]
  refine bind get fun st => ?_
  split
  · exact pure _
  · split <;> exact pure _

theorem push (s : Scope) : Keeps (Eval.push s) := update fun _ => rfl

theorem pop : Keeps Eval.pop := update fun _ => rfl

theorem setVar (name : String) (v : Value) : Keeps (Eval.setVar name v) := by
  refine update fun st => ?_
  split <;> rfl

theorem within (s : Scope) (h : Keeps m) : Keeps (Eval.within s m) :=
  bind (push s) fun _ => bind h fun _ => bind pop fun _ => pure _

theorem loop? : Keeps Eval.loop? := bind get fun _ => pure _

theorem setLoop (loop : LoopScope) : Keeps (Eval.setLoop loop) := update fun _ => rfl

theorem print (v : Value) : Keeps (Eval.print v) := by
  rw [Eval.print]
  split
  · exact throw_bind _ _
  · exact bind get fun _ => lift _

theorem captured (s : String) : Keeps (Eval.captured s) := bind get fun _ => pure _

mutual
theorem assign (target : Target) (v : Value) : Keeps (Template.assign target v) := by
  cases target with
  | var name => exact setVar name v
  | field name path =>
      intro st x st' h
      rw [Template.assign, StateT.run_bind, Except.bind_eq_ok_iff] at h
      obtain ⟨_, hget, hset⟩ := h
      cases hget
      dsimp only at hset
      split at hset
      · cases hset
        rfl
      · cases hset
  | list targets =>
      cases v with
      | list | map | named | nameSpace => exact assignAll targets _
      | _ => exact throw _

theorem assignAll (targets : List Target) (vs : List Value) :
    Keeps (Template.assignAll targets vs) := by
  cases targets with
  | nil =>
      cases vs with
      | nil => exact pure _
      | cons => exact throw _
  | cons t ts =>
      cases vs with
      | nil => exact throw _
      | cons v vs => exact bind (assign t v) fun _ => assignAll ts vs
end

/-! ## Expressions -/

/-- Calls that leave the format as it is. -/
def Calls (call : Caller) : Prop := ∀ callee args, Keeps (call callee args)

theorem invoke (hcall : Calls call) (callee : Value) (args : List Value) :
    Keeps (Template.invoke call callee args) := by
  cases callee with
  | function name => exact lift _
  | callable => exact hcall _ _
  | _ => exact throw _

theorem invokeName (hcall : Calls call) (name : String) (args : List Value) :
    Keeps (Template.invokeName call name args) := by
  unfold Template.invokeName
  dsimp only
  split
  · exact throw_bind _ _
  · split
    · refine bind loop? fun loop => ?_
      split
      · exact hcall _ _
      · exact throw _
    · refine bind (find? name) fun v => ?_
      split
      · split
        · exact throw _
        · exact invoke hcall _ args
      · exact throw _

theorem loopChanged (args : List Value) : Keeps (Template.loopChanged args) := by
  refine bind loop? fun loop => ?_
  split
  · exact bind (setLoop _) fun _ => pure _
  · exact throw _

theorem invokeMethod (hcall : Calls call) (v : Value) (name : String) (args : List Value) :
    Keeps (Template.invokeMethod call v name args) := by
  unfold Template.invokeMethod
  split
  · split
    · exact pure _
    · exact throw _
  · exact loopChanged args
  · split
    · exact invoke hcall _ args
    · exact throw _
  · split
    · exact invoke hcall _ args
    · exact throw _
  · split
    · exact invoke hcall _ args
    · exact throw _
  · exact throw _

mutual
theorem eval (hcall : Calls call) (e : Expr) : Keeps (e.eval call) := by
  cases e with
  | lit l => exact pure _
  | var name => exact bind (find? name) fun _ => pure _
  | list items => exact bind (evalAll hcall items) fun _ => pure _
  | map parts => exact bind (evalAll hcall parts) fun _ => pure _
  | unary op e =>
      cases op with
      | not => exact bind (eval hcall e) fun _ => bind (lift _) fun _ => pure _
      | neg => exact bind (eval hcall e) fun _ => lift _
  | binary op l r =>
      have hboth : Keeps (do let v ← l.eval call; let w ← r.eval call; op.apply v w) :=
        bind (eval hcall l) fun _ => bind (eval hcall r) fun _ => lift _
      cases op with
      | and | or =>
          refine bind (eval hcall l) fun v => bind (lift _) fun b => ?_
          cases b <;> first | exact eval hcall r | exact pure _
      | _ => exact hboth
  | ifThen cond body =>
      refine bind (eval hcall cond) fun v => bind (lift _) fun b => ?_
      cases b
      · exact pure _
      · exact eval hcall body
  | ifElse cond body other =>
      refine bind (eval hcall cond) fun v => bind (lift _) fun b => ?_
      cases b
      · exact eval hcall other
      · exact eval hcall body
  | attr base name => exact bind (eval hcall base) fun _ => lift _
  | item base key => exact bind (eval hcall base) fun _ => bind (eval hcall key) fun _ => lift _
  | slice base start stop step =>
      exact bind (eval hcall base) fun _ => bind (eval hcall start) fun _ =>
        bind (eval hcall stop) fun _ => bind (eval hcall step) fun _ => lift _
  | callName name passing args =>
      exact bind (evalAll hcall args) fun _ => bind (lift _) fun _ => invokeName hcall _ _
  | callMethod base name passing args =>
      exact bind (eval hcall base) fun _ => bind (evalAll hcall args) fun _ =>
        bind (lift _) fun _ => invokeMethod hcall _ _ _
  | callValue callee passing args =>
      exact bind (eval hcall callee) fun _ => bind (evalAll hcall args) fun _ =>
        bind (lift _) fun _ => invoke hcall _ _
  | callBlock name =>
      refine bind get fun st => ?_
      split
      · exact hcall _ _
      · exact throw _
  | filter name operand passing args =>
      exact bind (eval hcall operand) fun _ => bind (evalAll hcall args) fun _ =>
        bind (lift _) fun _ => bind get fun _ => lift _
  | test name operand passing args =>
      exact bind (eval hcall operand) fun _ => bind (evalAll hcall args) fun _ =>
        bind (lift _) fun _ => bind (lift _) fun _ => pure _

theorem evalAll (hcall : Calls call) (es : List Expr) : Keeps (Expr.evalAll call es) := by
  cases es with
  | nil => exact pure _
  | cons e es => exact bind (eval hcall e) fun _ => bind (evalAll hcall es) fun _ => pure _
end

/-! ## Statements -/

/-- A format of its own holds up to the end of what it is set for. -/
theorem restored (f : State → State) (m : Eval α) :
    Keeps (do
      let before := (← MonadState.get).escape
      modify f
      let output ← m
      modify fun st => { st with escape := before }
      return output) := by
  intro st x st' h
  simp only [StateT.run_bind, Except.bind_eq_ok_iff] at h
  obtain ⟨_, hget, _, hmodify, ⟨output, between⟩, hm, _, hrestore, hreturn⟩ := h
  cases hget
  cases hrestore
  cases hreturn
  rfl

theorem applyFilters (hcall : Calls call) (filters : List FilterCall) (v : Value) :
    Keeps (Template.applyFilters call filters v) := by
  induction filters generalizing v with
  | nil => exact pure v
  | cons f rest ih =>
      exact bind (evalAll hcall f.args) fun _ => bind (lift _) fun _ => bind get fun _ =>
        bind (lift _) fun v => ih v

theorem filterItems (hcall : Calls call) (target : Target) (filter : Option Expr)
    (items : List Value) : Keeps (Template.filterItems call target filter items) := by
  cases filter with
  | none => exact pure items
  | some test =>
      exact within _ (filterM items fun item => bind (assign target item) fun _ =>
        bind (eval hcall test) fun _ => lift _)

theorem renderLoop (target : Target) (again : Option Again) {body other : Eval String}
    (hbody : Keeps body) (hother : Keeps other) (items : List Value) :
    Keeps (Template.renderLoop target again body other items) := by
  unfold Template.renderLoop
  split
  · exact hother
  · refine bind get fun st => within _ (bind (forIn _ _ fun item output => ?_) fun _ => pure _)
    refine bind get fun st => bind (update fun st => ?_) fun _ => bind (assign target _) fun _ =>
      bind hbody fun _ => pure _
    split <;> rfl

theorem bindDefaults (hcall : Calls call) (defaults : List (String × Expr)) :
    Keeps (Template.bindDefaults call defaults) := by
  induction defaults with
  | nil => exact pure _
  | cons p rest ih =>
      obtain ⟨name, e⟩ := p
      refine bind (find? name) fun v => ?_
      dsimp only
      split
      · exact bind (eval hcall e) fun _ => bind (setVar name _) fun _ => ih
      · exact ih

theorem inOuterScopes (count : Nat) (scope : Scope) (h : Keeps m) :
    Keeps (Template.inOuterScopes count scope m) :=
  bind get fun _ => bind (update fun _ => rfl) fun _ => bind h fun _ =>
    bind (update fun _ => rfl) fun _ => pure _

mutual
theorem render (hcall : Calls call) (s : Stmt) : Keeps (s.render call) := by
  cases s with
  | text s => exact pure s
  | emit e => exact bind (eval hcall e) fun v => print v
  | ifElse test body other =>
      refine bind (eval hcall test) fun _ => bind (lift _) fun b => ?_
      cases b
      · exact renderAll hcall other
      · exact renderAll hcall body
  | forLoop target source filter isRecursive body other =>
      exact bind (eval hcall source) fun _ => bind (lift _) fun items =>
        bind (filterItems hcall target filter items) fun items =>
          renderLoop target _ (renderAll hcall body) (renderAll hcall other) items
  | withBlock assignments body =>
      refine within _ (bind (forIn _ _ fun p _ => ?_) fun _ => renderAll hcall body)
      exact bind (eval hcall p.2) fun v => bind (assign p.1 v) fun _ => pure _
  | set target e => exact bind (eval hcall e) fun v => bind (assign target v) fun _ => pure _
  | setBlock target filters body =>
      exact bind (renderAll hcall body) fun s => bind (captured s) fun v =>
        bind (applyFilters hcall filters v) fun v => bind (assign target v) fun _ => pure _
  | autoEscape e body =>
      exact bind (eval hcall e) fun _ => bind (lift _) fun escape => restored _ _
  | filterBlock filters body =>
      exact bind (renderAll hcall body) fun s => bind (captured s) fun v =>
        bind (applyFilters hcall filters v) fun v => print v
  | block name body => exact within _ (renderAll hcall body)
  | macroDef name params defaults body =>
      exact bind get fun st => bind (setVar name _) fun _ => pure _
  | callBody e params defaults body =>
      refine bind get fun st => ?_
      -- The three kinds of calls get the body as one more argument.
      split
      · exact bind (evalAll hcall _) fun _ => bind (lift _) fun _ =>
          bind (invokeName hcall _ _) fun v => print v
      · exact bind (eval hcall _) fun _ => bind (evalAll hcall _) fun _ => bind (lift _) fun _ =>
          bind (invokeMethod hcall _ _ _) fun v => print v
      · exact bind (eval hcall _) fun _ => bind (evalAll hcall _) fun _ => bind (lift _) fun _ =>
          bind (invoke hcall _ _) fun v => print v
      · exact bind (eval hcall _) fun v => print v
  | run e => exact bind (eval hcall e) fun _ => pure _
  | «include» e mayMiss => exact bind (eval hcall e) fun _ => bind (lift _) fun _ => pure _
  | extend e =>
      refine bind (eval hcall e) fun v => ?_
      split <;> exact throw _

theorem renderAll (hcall : Calls call) (body : List Stmt) : Keeps (Stmt.renderAll call body) := by
  cases body with
  | nil => exact pure _
  | cons s rest => exact bind (render hcall s) fun _ => bind (renderAll hcall rest) fun _ => pure _
end

/-- Calls that are nested keep the format, by induction on how deep they may be. -/
theorem callNested (depth : Nat) : Calls (Template.callNested depth) := by
  induction depth with
  | zero => exact fun callee args => throw _
  | succ depth ih =>
      intro callee args
      cases callee with
      | definition params defaults body scopes =>
          exact bind (lift _) fun values => inOuterScopes scopes _
            (bind (bindDefaults ih _) fun _ => bind (renderAll ih body) fun s => captured s)
      | loop again =>
          match args with
          | [v] =>
              exact bind (lift _) fun items =>
                bind (renderLoop _ _ (renderAll ih _) (renderAll ih _) items) fun s => captured s
          | [] | _ :: _ :: _ => exact throw _
      | block body => exact bind (within _ (renderAll ih body)) fun s => captured s

end Keeps

end TaskTags.Template
