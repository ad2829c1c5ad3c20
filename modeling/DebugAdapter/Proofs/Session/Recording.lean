import DebugAdapter.Proofs.Inspection.Covers
import DebugAdapter.Proofs.Session.Keeping

/-!
# Runs with another interpreter

If an interpreter covers another one, a run with the first is a run with the second: each step leads
to the same system, up to what the states of the interpreter hold. So one may let the interpreter
record what it is asked, and learn the calls that the thread makes in a run.
-/

namespace DebugAdapter

open Protocol

-- ---------------------------------------------------------------------------
-- Other states of the interpreter
-- ---------------------------------------------------------------------------

section Map

variable {ρ σ τ : Type}

def Item.map (f : ρ → σ) : Item ρ → Item σ
  | .event e s => .event e (f s)
  | .stop body s => .stop body (f s)

def Thread.Phase.map (f : ρ → σ) : Thread.Phase ρ → Thread.Phase σ
  | .idle => .idle
  | .hooked e s => .hooked e (f s)
  | .matching e goal s => .matching e goal (f s)
  | .disarming e body s => .disarming e body (f s)
  | .installing origin body g s => .installing origin body g (f s)
  | .announcing origin body stop g s => .announcing origin body stop g (f s)
  | .serving origin stop batch g s => .serving origin stop batch g (f s)
  | .leaving origin stop s => .leaving origin stop (f s)
  | .resumed origin decision s => .resumed origin decision (f s)
  | .dead s => .dead (f s)

def Thread.map (f : ρ → σ) (t : Thread ρ) : Thread σ where
  phase := t.phase.map f
  program := t.program.map (Item.map f)
  past := t.past.map f
  returned := t.returned
  references := t.references

def System.map (f : ρ → σ) (sys : System ρ τ) : System σ τ := sys.withThread (sys.thread.map f)

def Journal.map (f : ρ → σ) (c : Journal ρ τ) : Journal σ τ := ⟨c.sys.map f, c.entries⟩

end Map

def Journal.recording {σ τ : Type} (c : Journal σ τ) : Journal (σ × List Call) τ := c.map (·, [])

/-- A host for the same target, whose interpreter covers that of another host. -/
structure Host.Covers {ρ σ τ : Type} (host' : Host ρ τ) (π : ρ → σ) (host : Host σ τ) : Prop where
  interpreter : host'.interpreter.Covers π host.interpreter
  start : host'.start = host.start

def Host.recording {σ τ : Type} (host : Host σ τ) : Host (σ × List Call) τ :=
  { host with interpreter := host.interpreter.recording }

theorem Host.covers_recording {σ τ : Type} (host : Host σ τ) :
    host.recording.Covers Prod.fst host :=
  ⟨host.interpreter.covers_recording, rfl⟩

-- ---------------------------------------------------------------------------
-- Steps
-- ---------------------------------------------------------------------------

variable {ρ σ τ : Type} {π : ρ → σ} {host' : Host ρ τ} {host : Host σ τ}

namespace System

theorem handle_map (sys : System ρ τ) : (sys.map π).handle = sys.handle := rfl

theorem debugger_map (sys : System ρ τ) : (sys.map π).debugger = sys.debugger := rfl

theorem map_finish (sys : System ρ τ) (s : ρ) :
    (sys.finish s).map π = (sys.map π).finish (π s) := by
  have hpast : (sys.thread.past ++ [s]).map π = sys.thread.past.map π ++ [π s] := by simp
  simp only [finish, map, withThread, Thread.map, Thread.Phase.map, hpast]

theorem map_serve (h : host'.Covers π host) (sys : System ρ τ) (origin : Origin) (stop : Nat)
    (question : Question) (batch : List Question) (g : StackGraph) (s : ρ) :
    (sys.serve host' origin stop question batch g s).map π =
      (sys.map π).serve host origin stop question batch g (π s) := by
  have hanswer : question.answer host.interpreter (g, π s) = _ :=
    Question.covers_answer h.interpreter question (g, s)
  unfold serve
  rw [hanswer]
  obtain ⟨r, g', s'⟩ := question.answer host'.interpreter (g, s)
  cases r with
  | ok reply => rfl
  | error fault =>
    cases origin <;> rfl

theorem stepThread_map (h : host'.Covers π host) (sys : System ρ τ) :
    (sys.map π).stepThread host = (sys.stepThread host').map (System.map π) := by
  have hphase : (sys.map π).thread.phase = sys.thread.phase.map π := rfl
  cases hp : sys.thread.phase with
  | idle =>
    have hprogram : (sys.map π).thread.program = sys.thread.program.map (Item.map π) := rfl
    cases hpr : sys.thread.program with
    | nil =>
      simp only [stepThread, hphase, hprogram, hp, hpr, Thread.Phase.map, List.map_nil,
        Option.map_none]
    | cons item program =>
      simp only [stepThread, hphase, hprogram, hp, hpr, Thread.Phase.map, List.map_cons]
      cases item <;> rfl
  | hooked e s =>
    by_cases hd : sys.debugger.terminated = true
    · simp only [stepThread, hphase, hp, Thread.Phase.map, debugger_map, hd, if_true,
        Option.map_some, map_finish]
    · simp only [stepThread, hphase, hp, Thread.Phase.map, debugger_map, hd]
      rfl
  | matching e goal s =>
    have hstep : Debugger.stepStop host.interpreter goal e (π s) = _ :=
      h.interpreter.stepStop goal e s
    simp only [stepThread, hphase, hp, Thread.Phase.map, debugger_map, hstep]
    split
    · rfl
    · obtain ⟨r, s'⟩ := Debugger.stepStop host'.interpreter goal e s
      cases r with
      | ok found =>
        cases found with
        | some body => rfl
        | none =>
          dsimp only
          rw [Option.map_some, map_finish]
      | error fault => rfl
  | disarming e body s =>
    simp only [stepThread, hphase, hp, Thread.Phase.map]
    rfl
  | installing origin body g s =>
    simp only [stepThread, hphase, hp, Thread.Phase.map, handle_map]
    split <;> rfl
  | announcing origin body stop g s =>
    simp only [stepThread, hphase, hp, Thread.Phase.map]
    rfl
  | serving origin stop batch g s =>
    cases batch with
    | cons question batch =>
      simp only [stepThread, hphase, hp, Thread.Phase.map, Option.map_some, map_serve h]
    | nil =>
      simp only [stepThread, hphase, hp, Thread.Phase.map, handle_map]
      split
      · rfl
      · rfl
      · cases origin <;> rfl
  | leaving origin stop s =>
    simp only [stepThread, hphase, hp, Thread.Phase.map]
    rfl
  | resumed origin decision s =>
    cases origin with
    | direct =>
      simp only [stepThread, hphase, hp, Thread.Phase.map]
      rw [Option.map_some, map_finish]
      rfl
    | debugger e =>
      have hgoal : Debugger.goalAfter host.interpreter decision e (π s) = _ :=
        h.interpreter.goalAfter decision e s
      simp only [stepThread, hphase, hp, Thread.Phase.map, hgoal]
      obtain ⟨r, s'⟩ := Debugger.goalAfter host'.interpreter decision e s
      cases r with
      | ok goal =>
        dsimp only
        rw [Option.map_some, map_finish]
        rfl
      | error fault => rfl
  | dead s =>
    simp only [stepThread, hphase, hp, Thread.Phase.map, Option.map_none]

theorem stepSession_map (h : host'.Covers π host) (sys : System ρ τ) :
    (sys.map π).stepSession host = (sys.stepSession host').map (System.map π) := by
  have hstep : (sys.withThread (sys.thread.map π)).stepSession host =
      (sys.stepSession host').map (·.withThread (sys.thread.map π)) :=
    stepSession_withThread h.start.symm sys _
  rw [map, hstep]
  cases hnext : sys.stepSession host' with
  | none => rfl
  | some next =>
    rw [Option.map_some, Option.map_some, map, (sessionStep_of_step hnext).thread_eq]

theorem step_map (h : host'.Covers π host) (side : Side) (sys : System ρ τ) :
    (sys.map π).step host side = (sys.step host' side).map (System.map π) := by
  cases side with
  | session => exact stepSession_map h sys
  | thread => exact stepThread_map h sys

theorem play_map (h : host'.Covers π host) (move : Move) (sys : System ρ τ) :
    (sys.map π).play host move = (sys.play host' move).map π := by
  cases move with
  | step side =>
    simp only [play, step_map h]
    cases sys.step host' side <;> rfl
  | arrive arrivals =>
    simp only [play]
    change (if sys.session.reader.ended then _ else _) = _
    split <;> rfl
  | hangUp => rfl

theorem threadEntries_map (sys sys' : System ρ τ) :
    (sys.map π).threadEntries (sys'.map π) = sys.threadEntries sys' := by
  obtain ⟨handle, debugger, target, session, ⟨phase, program, past, returned, references⟩, reply⟩ :=
    sys
  obtain ⟨handle', _, _, _, ⟨phase', _, _, _, _⟩, reply'⟩ := sys'
  cases phase with
  | serving origin stop batch g s => cases batch <;> cases phase' <;> rfl
  | _ => cases phase' <;> rfl

theorem parkedAt?_map (f : ρ → σ) (phase : Thread.Phase ρ) :
    (phase.map f).parkedAt? = phase.parkedAt? := by
  cases phase <;> rfl

theorem Kept.map {sys : System ρ τ} {J : List Entry} (f : ρ → σ) (h : sys.Kept J) :
    (sys.map f).Kept J where
  regular := h.regular
  depicts := h.depicts
  session := h.session
  thread := by
    have hthread := h.thread
    change (sys.thread.phase.map f).Agrees J
    cases hp : sys.thread.phase <;> rw [hp] at hthread <;> exact hthread
  reply := h.reply
  asked stop q hq := by
    refine h.asked stop q (hq.imp id ?_)
    rintro ⟨batch, hat, hmem⟩
    exact ⟨batch, (parkedAt?_map f _).symm.trans hat, hmem⟩
  load := by
    have hbatch : (sys.thread.phase.map f).batch = sys.thread.phase.batch := by
      rw [Thread.Phase.batch, parkedAt?_map, Thread.Phase.batch]
    change sys.handle.queued + (sys.thread.phase.map f).batch.length ≤ 1
    rw [hbatch]
    exact h.load

end System

namespace Journal

theorem play_map (h : host'.Covers π host) (move : Move) (c : Journal ρ τ) :
    (c.map π).play host move = (c.play host' move).map π := by
  have hsys : ((c.map π).play host move).sys = ((c.play host' move).map π).sys :=
    System.play_map h move c.sys
  have hentries : ((c.map π).play host move).entries = ((c.play host' move).map π).entries := by
    cases move with
    | step side =>
      cases side with
      | session => rfl
      | thread =>
        have hthread : (c.sys.map π).threadEntries ((c.sys.play host' (.step .thread)).map π) =
            c.sys.threadEntries (c.sys.play host' (.step .thread)) :=
          System.threadEntries_map c.sys _
        rw [← System.play_map h] at hthread
        exact congrArg (c.entries ++ ·) hthread
    | arrive | hangUp => rfl
  generalize (c.map π).play host move = d at hsys hentries
  obtain ⟨sys, entries⟩ := d
  cases hsys
  cases hentries
  rfl

/-- A run with an interpreter that covers another one is a run with the other one. -/
theorem run_map (h : host'.Covers π host) (moves : List Move) (c : Journal ρ τ) :
    (c.map π).run host moves = (c.run host' moves).map π := by
  refine (recorder host).run_related (recorder host') (Q := (· = map π ·)) ?_ rfl moves
  rintro _ c move rfl
  exact play_map h move c

theorem map_recording (c : Journal σ τ) : c.recording.map Prod.fst = c := by
  obtain ⟨⟨handle, debugger, target, session, ⟨phase, program, past, returned, references⟩, reply⟩,
    entries⟩ := c
  have hphase : (phase.map (·, ([] : List Call))).map Prod.fst = phase := by cases phase <;> rfl
  have hitem : ∀ item : Item σ, (item.map (·, ([] : List Call))).map Prod.fst = item := by
    rintro (_ | _) <;> rfl
  have hprogram : (program.map (Item.map (·, ([] : List Call)))).map (Item.map Prod.fst) =
      program := by
    rw [List.map_map]
    exact (List.map_congr_left fun item _ => hitem item).trans (List.map_id program)
  have hpast : (past.map (·, ([] : List Call))).map Prod.fst = past := by
    rw [List.map_map]
    exact List.map_id past
  simp only [recording, map, System.map, System.withThread, Thread.map, hphase, hprogram, hpast]

theorem run_recording (host : Host σ τ) (moves : List Move) (c : Journal σ τ) :
    (c.recording.run host.recording moves).map Prod.fst = c.run host moves := by
  rw [← run_map host.covers_recording, map_recording]

end Journal

end DebugAdapter
