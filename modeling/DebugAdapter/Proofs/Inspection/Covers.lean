import DebugAdapter.Proofs.Interpreter.Answers
import DebugAdapter.Session.Request

/-!
# Interpreters that know more

An interpreter may keep more in its states than another and answer alike; one that records its calls
does. Whatever is asked of the two then comes to the same, and the states stay related: `Covers`
carries that through a computation, up to the answer to a whole question.
-/

namespace DebugAdapter

-- ---------------------------------------------------------------------------
-- Computations
-- ---------------------------------------------------------------------------

section Covers

variable {S T α β : Type} {π : S → T}

/-- A computation does what another one does, whose states are seen through `π`. -/
def Covers (π : S → T) (m : ExceptT Fault (StateM S) α) (n : ExceptT Fault (StateM T) α) : Prop :=
  ∀ s, n (π s) = ((m s).1, π (m s).2)

theorem Covers.pure (a : α) : Covers π (Pure.pure a) (Pure.pure a) := fun _ => rfl

theorem Covers.bind {m : ExceptT Fault (StateM S) α} {n : ExceptT Fault (StateM T) α}
    {f : α → ExceptT Fault (StateM S) β} {f' : α → ExceptT Fault (StateM T) β}
    (hm : Covers π m n) (hf : ∀ a, Covers π (f a) (f' a)) : Covers π (m >>= f) (n >>= f') := by
  intro s
  rw [bind_run, bind_run, hm s]
  cases hr : m s with
  | mk r s' =>
    cases r with
    | ok a => exact hf a s'
    | error fault => rfl

end Covers

-- ---------------------------------------------------------------------------
-- Interpreters
-- ---------------------------------------------------------------------------

namespace Interpreter

variable {ρ σ : Type} {π : ρ → σ} {it' : Interpreter ρ} {it : Interpreter σ}

/-- An interpreter answers every call like another one, whose states are seen through `π`. -/
def Covers (it' : Interpreter ρ) (π : ρ → σ) (it : Interpreter σ) : Prop :=
  ∀ call, DebugAdapter.Covers π (it'.ask call) (it.ask call)

theorem covers_recording (it : Interpreter σ) : it.recording.Covers Prod.fst it :=
  fun _ _ => rfl

theorem Covers.after (h : it'.Covers π it) (calls : List Call) (s : ρ) :
    it.after calls (π s) = π (it'.after calls s) := by
  induction calls generalizing s with
  | nil => rfl
  | cons call calls ih =>
    have hs : (it.answer call (π s)).2 = π (it'.answer call s).2 := congrArg Prod.snd (h call s)
    show it.after calls (it.answer call (π s)).2 = _
    rw [hs]
    exact ih _

theorem Covers.returns (h : it'.Covers π it) {s : ρ} (hs : it.Returns (π s)) : it'.Returns s := by
  intro calls call
  obtain ⟨a, ha⟩ := hs calls call
  rw [h.after] at ha
  exact ⟨a, (congrArg Prod.fst (h call (it'.after calls s))).symm.trans ha⟩

theorem Covers.framesFrom (h : it'.Covers π it) (steps : Nat) (level : UInt32) :
    DebugAdapter.Covers π (it'.framesFrom steps level) (it.framesFrom steps level) := by
  induction steps generalizing level with
  | zero => exact .pure []
  | succ steps ih =>
    refine (h (.frame level)).bind fun info => ?_
    cases info with
    | none => exact .pure []
    | some info => exact (ih (level + 1)).bind fun outer => .pure (info :: outer)

theorem Covers.frames (h : it'.Covers π it) : DebugAdapter.Covers π it'.frames it.frames :=
  h.framesFrom _ _

theorem Covers.depth (h : it'.Covers π it) : DebugAdapter.Covers π it'.depth it.depth :=
  h.frames.bind fun _ => .pure _

theorem Covers.read (h : it'.Covers π it) (place : Place) :
    DebugAdapter.Covers π (it'.read place) (it.read place) := by
  refine (h (.resolve place)).bind fun value => ?_
  split
  · exact .pure _
  · exact (h (.entries place)).bind fun _ => .pure _
  · exact .pure _

theorem Covers.stepStop (h : it'.Covers π it) (goal : Option StepGoal) (e : ExecutionEvent) :
    DebugAdapter.Covers π (Debugger.stepStop it' goal e) (Debugger.stepStop it goal e) := by
  unfold Debugger.stepStop
  split
  · exact h.depth.bind fun _ => .pure _
  · exact .pure _

theorem Covers.goalAfter (h : it'.Covers π it) (decision : Decision) (e : ExecutionEvent) :
    DebugAdapter.Covers π (Debugger.goalAfter it' decision e)
      (Debugger.goalAfter it decision e) := by
  cases decision with
  | run | detach => exact .pure none
  | stepOver | stepIn | stepOut => exact h.depth.bind fun _ => .pure _

end Interpreter

-- ---------------------------------------------------------------------------
-- Questions
-- ---------------------------------------------------------------------------

def beneath {ρ σ : Type} (π : ρ → σ) : StackGraph × ρ → StackGraph × σ := Prod.map id π

namespace StackGraph

variable {ρ σ α : Type} {π : ρ → σ} {it' : Interpreter ρ} {it : Interpreter σ}

theorem covers_probe {m : Probe ρ α} {n : Probe σ α} (h : Covers π m n) :
    Covers (beneath π) (Inspect.probe m) (Inspect.probe n) := by
  rintro ⟨g, s⟩
  show ((n (π s)).1, g, (n (π s)).2) = _
  rw [h s]
  rfl

theorem covers_graph : Covers (beneath π) Inspect.graph Inspect.graph := fun _ => rfl

theorem covers_revise (f : StackGraph → α × StackGraph) :
    Covers (beneath π) (Inspect.revise f) (Inspect.revise f) := fun _ => rfl

theorem covers_enumerate (h : it'.Covers π it) (steps : Nat) (level : UInt32) :
    Covers (beneath π) (enumerate it' steps level) (enumerate it steps level) := by
  induction steps generalizing level with
  | zero => exact .pure []
  | succ steps ih =>
    refine (covers_probe (h (.frame level))).bind fun info => ?_
    cases info with
    | none => exact .pure []
    | some info =>
      exact (covers_revise _).bind fun entry => (ih (level + 1)).bind fun outer =>
        .pure (entry :: outer)

theorem covers_ensureFrames (h : it'.Covers π it) :
    Covers (beneath π) (ensureFrames it') (ensureFrames it) := by
  refine covers_graph.bind fun g => ?_
  cases g.frames with
  | some entries => exact .pure entries
  | none => exact (covers_enumerate h _ 0).bind fun _ => covers_revise _

theorem covers_stackTrace (h : it'.Covers π it) (args : Protocol.StackTraceArguments) :
    Covers (beneath π) (stackTrace it' args) (stackTrace it args) :=
  (covers_ensureFrames h).bind fun _ => .pure _

theorem covers_scopes (h : it'.Covers π it) (frameId : UInt32) :
    Covers (beneath π) (scopes it' frameId) (scopes it frameId) := by
  refine covers_graph.bind fun g => ?_
  cases g.frame? frameId with
  | none => exact .pure _
  | some entry =>
    cases hl : entry.locals with
    | some root =>
      simp only [hl]
      exact .pure _
    | none =>
      simp only [hl]
      refine (covers_probe (h (.locals entry.level))).bind fun names => ?_
      cases names with
      | none => exact .pure _
      | some names => exact (covers_revise _).bind fun _ => .pure _

theorem covers_resolve (h : it'.Covers π it) (id : UInt32) :
    Covers (beneath π) (resolve it' id) (resolve it id) := by
  refine covers_graph.bind fun g => ?_
  cases g.arena[id]? with
  | none => exact fun _ => rfl
  | some entry =>
    cases hr : entry.resolved with
    | some record =>
      simp only [hr]
      exact .pure _
    | none =>
      simp only [hr]
      cases g.place? id with
      | none => exact (Covers.pure Reading.nowhere).bind fun _ => covers_revise _
      | some place => exact (covers_probe (h.read place)).bind fun _ => covers_revise _

theorem covers_resolveAll (h : it'.Covers π it) (ids : List UInt32) :
    Covers (beneath π) (resolveAll it' ids) (resolveAll it ids) := by
  induction ids with
  | nil => exact .pure []
  | cons id ids ih =>
    exact (covers_resolve h id).bind fun record => ih.bind fun records => .pure (record :: records)

theorem covers_variablesOf (h : it'.Covers π it) (args : Protocol.VariablesArguments) :
    Covers (beneath π) (variablesOf it' args) (variablesOf it args) := by
  refine covers_graph.bind fun g => ?_
  cases g.arena[args.variablesReference]? with
  | none => exact .pure _
  | some entry =>
    refine (covers_resolve h _).bind fun _ => covers_graph.bind fun g => ?_
    exact (covers_resolveAll h _).bind fun _ => .pure _

end StackGraph

theorem Question.covers_answer {ρ σ : Type} {π : ρ → σ} {it' : Interpreter ρ} {it : Interpreter σ}
    (h : it'.Covers π it) (question : Question) :
    Covers (beneath π) (question.answer it') (question.answer it) := by
  cases question with
  | stackTrace args => exact (StackGraph.covers_stackTrace h args).bind fun _ => .pure _
  | scopes args => exact (StackGraph.covers_scopes h args.frameId).bind fun _ => .pure _
  | values args => exact (StackGraph.covers_variablesOf h args).bind fun _ => .pure _

end DebugAdapter
