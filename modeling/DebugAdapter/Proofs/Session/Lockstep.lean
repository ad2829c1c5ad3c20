import DebugAdapter.Proofs.Session.Keeping
import DebugAdapter.Session.Lockstep

/-!
# Rest in lockstep

In lockstep each side moves until it waits. What it does until then is a run of single steps, and
the steps that it is allowed are enough, because the thread has one question at a time in its hands.
So a connection comes to rest after every move of the client: `Connection.rest_rests`.
-/

namespace DebugAdapter

open Protocol

variable {σ τ : Type} {host : Host σ τ} {sys sys' : System σ τ}

def Session.Phase.events : Session.Phase → List Event
  | .answering o => o.events
  | .following events _ _ => events
  | _ => []

namespace System

-- ---------------------------------------------------------------------------
-- Runs
-- ---------------------------------------------------------------------------

theorem run_step (side : Side) (h : sys.step host side = some sys') (moves : List Move) :
    sys.run host (.step side :: moves) = sys'.run host moves := by
  rw [run, List.foldl_cons, play_step h, run]

theorem runSession_eq_run (host : Host σ τ) (fuel : Nat) (sys : System σ τ) :
    ∃ sides : List Side, sys.runSession host fuel = sys.run host (sides.map .step) := by
  induction fuel generalizing sys with
  | zero => exact ⟨[], rfl⟩
  | succ fuel ih =>
    rw [runSession]
    cases hsession : sys.stepSession host with
    | some next =>
      obtain ⟨sides, hrun⟩ := ih next
      exact ⟨.session :: sides, hrun.trans (run_step .session hsession _).symm⟩
    | none =>
      dsimp only
      split
      · cases hthread : sys.stepThread host with
        | none => exact ⟨[], rfl⟩
        | some next =>
          obtain ⟨sides, hrun⟩ := ih next
          exact ⟨.thread :: sides, hrun.trans (run_step .thread hthread _).symm⟩
      · exact ⟨[], rfl⟩

theorem runThread_eq_run (host : Host σ τ) (fuel : Nat) (sys : System σ τ) :
    ∃ sides : List Side, sys.runThread host fuel = sys.run host (sides.map .step) := by
  induction fuel generalizing sys with
  | zero => exact ⟨[], rfl⟩
  | succ fuel ih =>
    rw [runThread]
    cases hthread : sys.stepThread host with
    | none => exact ⟨[], rfl⟩
    | some next =>
      obtain ⟨sides, hrun⟩ := ih next
      exact ⟨.thread :: sides, hrun.trans (run_step .thread hthread _).symm⟩

theorem restSession_eq_run (host : Host σ τ) (sys : System σ τ) :
    ∃ sides : List Side, sys.restSession host = sys.run host (sides.map .step) :=
  runSession_eq_run host _ sys

theorem restThread_eq_run (host : Host σ τ) (sys : System σ τ) :
    ∃ sides : List Side, sys.restThread host = sys.run host (sides.map .step) := by
  rw [restThread]
  split
  · exact runThread_eq_run host _ sys
  · exact ⟨[], rfl⟩

-- ---------------------------------------------------------------------------
-- Enough steps
-- ---------------------------------------------------------------------------

@[simp] theorem events_closed (result : Option (Except AdapterError Unit)) :
    (sys.closed result).session.phase.events = [] := by cases result <;> rfl

theorem TakenUp.events_le {r : Request} {phase : Session.Phase} (h : TakenUp r phase) :
    phase.events.length ≤ 1 := by
  cases h with
  | granted _ he =>
    obtain rfl | rfl := he
    · exact Nat.zero_le 1
    · exact Nat.le_refl 1
  | refused | unknown | inspect | resume => exact Nat.zero_le 1

theorem SessionStep.events_le (h : SessionStep host sys sys')
    (hle : sys.session.phase.events.length ≤ 1) : sys'.session.phase.events.length ≤ 1 := by
  cases h with
  | takeUp hp =>
    obtain ⟨debugger, target, disconnected, phase, heq, -, hphase⟩ := takeUp_cases host sys _
    rw [heq]
    exact hphase.events_le
  | answer hp =>
    rw [hp] at hle
    exact hle
  | follow hp =>
    rw [hp] at hle
    exact Nat.le_of_succ_le hle
  | vacant | release => rw [events_closed]; exact Nat.zero_le 1
  | skip => exact hle
  | _ => exact Nat.zero_le 1

theorem sessionCost_le (bytes : Nat) (phase : Session.Phase) :
    sessionCost bytes phase ≤ 16 * bytes + 19 + phase.events.length := by
  cases phase with
  | answering o =>
    have := Option.length_toList_le (o := o.release)
    simp only [sessionCost, Session.Phase.events]
    omega
  | following events release closes =>
    have := Option.length_toList_le (o := release)
    simp only [sessionCost, Session.Phase.events]
    omega
  | closing step result =>
    cases step with
    | mark | vacate | settle | release => cases result <;> simp only [sessionCost] <;> omega
  | reading | handling | asking | scheduling | awaiting | resuming | deciding | disconnecting
    | finishing | ended =>
    simp only [sessionCost]
    omega

theorem threadCost_le (items : Nat) (phase : Thread.Phase σ) :
    9 * items ≤ threadCost items phase ∧
      threadCost items phase ≤ 9 * items + 8 + phase.batch.length := by
  cases phase with
  | serving =>
    simp only [threadCost, Thread.Phase.batch, Thread.Phase.parkedAt?, Option.map_some,
      Option.getD_some]
    omega
  | _ =>
    simp only [threadCost]
    omega

/-- Where a session may wait in lockstep: for the client, or for a reply that never comes. -/
structure Waits (host : Host σ τ) (sys : System σ τ) : Prop where
  session : sys.stepSession host = none
  thread : ∀ r, sys.session.phase = .awaiting r → sys.stepThread host = none

/-- The thread of a session that waits for a reply is at the stop that was asked about, so it takes
no more of its program. -/
theorem Parked.program_eq (h : sys.Parked) {r : Request} (hp : sys.session.phase = .awaiting r)
    (hr : sys.reply = none) (hstep : ThreadStep host sys sys') :
    sys'.thread.program = sys.thread.program := by
  obtain ⟨i, batch, hat, -⟩ := h.owing r hp hr
  cases hstep with
  | event hp | stop hp =>
    rw [hp] at hat
    cases hat
  | serveFault | depart => simp [move]
  | _ => rfl

theorem runSession_waits (hparked : (∀ s, sys.thread.phase ≠ .dead s) → sys.Parked) {fuel : Nat}
    (hfuel : sys.cost < fuel + 9 * sys.thread.program.length) :
    (sys.runSession host fuel).Waits host := by
  induction fuel generalizing sys with
  | zero =>
    have := (threadCost_le sys.thread.program.length sys.thread.phase).1
    rw [cost] at hfuel
    omega
  | succ fuel ih =>
    rw [runSession]
    cases hsession : sys.stepSession host with
    | some next =>
      have hstep := sessionStep_of_step hsession
      have hlt := cost_lt_of_sessionStep hstep
      have hthread := hstep.thread_eq
      refine ih (fun halive => (hparked (hthread ▸ halive)).session hstep) ?_
      rw [hthread]
      omega
    | none =>
      dsimp only
      split
      case h_2 hne => exact ⟨hsession, fun r hp => absurd hp (hne r)⟩
      case h_1 r hp =>
        cases hthread : sys.stepThread host with
        | none => exact ⟨hsession, fun _ _ => hthread⟩
        | some next =>
          have hstep := threadStep_of_step hthread
          have hlt := cost_lt_of_threadStep hstep
          have hpark := hparked hstep.alive
          have hreply : sys.reply = none := by
            obtain ⟨reader, hp', -⟩ | ⟨r', -, hr⟩ | ⟨result, hp'⟩ := waiting_of_stepSession hsession
            · cases hp.symm.trans hp'
            · exact hr
            · cases hp.symm.trans hp'
          refine ih (hpark.thread_of_alive hstep) ?_
          rw [hpark.program_eq hp hreply hstep]
          omega

theorem runThread_waits {fuel : Nat}
    (hfuel : sys.cost < fuel + sessionCost sys.session.reader.size sys.session.phase) :
    (sys.runThread host fuel).stepThread host = none := by
  induction fuel generalizing sys with
  | zero =>
    rw [cost] at hfuel
    omega
  | succ fuel ih =>
    rw [runThread]
    cases hthread : sys.stepThread host with
    | none => exact hthread
    | some next =>
      have hstep := threadStep_of_step hthread
      have hlt := cost_lt_of_threadStep hstep
      refine ih ?_
      rw [hstep.outside.1]
      omega

-- ---------------------------------------------------------------------------
-- Sessions that have run
-- ---------------------------------------------------------------------------

/-- The system that a new session has come to by some moves. -/
def Reached (host : Host σ τ) (sys : System σ τ) : Prop :=
  ∃ debugger target program moves, (start debugger target program).run host moves = sys

theorem Reached.run (h : sys.Reached host) (moves : List Move) :
    (sys.run host moves).Reached host := by
  obtain ⟨debugger, target, program, before, rfl⟩ := h
  exact ⟨debugger, target, program, before ++ moves, run_append _ before moves⟩

theorem Reached.parked (h : sys.Reached host) (halive : ∀ s, sys.thread.phase ≠ .dead s) :
    sys.Parked := by
  obtain ⟨debugger, target, program, moves, rfl⟩ := h
  exact parked_of_alive host debugger target program moves halive

theorem Reached.load (h : sys.Reached host) : sys.load ≤ 1 := by
  obtain ⟨debugger, target, program, moves, rfl⟩ := h
  have h := (Journal.kept host debugger target program moves).load
  rwa [Journal.sys_run] at h

theorem Reached.events (h : sys.Reached host) : sys.session.phase.events.length ≤ 1 := by
  obtain ⟨debugger, target, program, moves, rfl⟩ := h
  refine (recorder host).run_keeps (P := fun sys => sys.session.phase.events.length ≤ 1) ?arrive
    (fun h => h) (fun h hstep => hstep.events_le h) ?thread ?start moves
  case start => exact Nat.zero_le 1
  case arrive =>
    intro sys arrivals h
    show (sys.play host (.arrive arrivals)).session.phase.events.length ≤ 1
    rwa [play_arrive]
  case thread =>
    intro sys h hstep
    have hsession : ((recorder host).play sys (.step .thread)).session = sys.session :=
      hstep.outside.1
    rwa [hsession]

/-- The steps that the session is allowed are enough. -/
theorem Reached.restSession_waits (h : sys.Reached host) : (sys.restSession host).Waits host := by
  have hload := h.load
  have hevents := h.events
  have hsession := sessionCost_le sys.session.reader.size sys.session.phase
  have hthread := (threadCost_le sys.thread.program.length sys.thread.phase).2
  refine runSession_waits h.parked ?_
  simp only [System.load, cost, enoughForSession] at *
  omega

theorem Reached.restThread_waits (h : sys.Reached host)
    (hrunning : host.isRunning sys.target = true) :
    (sys.restThread host).stepThread host = none := by
  have hload := h.load
  have hthread := (threadCost_le sys.thread.program.length sys.thread.phase).2
  rw [restThread, if_pos hrunning]
  refine runThread_waits ?_
  simp only [System.load, cost, enoughForThread] at *
  omega

theorem Waits.step_thread (h : sys.Waits host) (hstep : sys.stepThread host = some sys') :
    sys'.Waits host := by
  obtain ⟨hsession, hthread⟩ := h
  obtain ⟨hsame, hclosed, -⟩ := (threadStep_of_step hstep).outside
  obtain ⟨reader, hp, hread⟩ | ⟨r, hp, -⟩ | ⟨result, hp⟩ := waiting_of_stepSession hsession
  · have hopen : sys.handle.closed = false := by
      cases hc : sys.handle.closed with
      | false => rfl
      | true => simp [stepSession, hp, read, hc] at hsession
    refine ⟨?_, fun r hp' => ?_⟩
    · simp [stepSession, hsame, hp, read, hclosed, hopen, hread]
    · rw [hsame, hp] at hp'
      cases hp'
  · cases (hthread r hp).symm.trans hstep
  · refine ⟨?_, fun r hp' => ?_⟩
    · simp only [stepSession, hsame, hp]
    · rw [hsame, hp] at hp'
      cases hp'

theorem Waits.runThread (h : sys.Waits host) (fuel : Nat) :
    (sys.runThread host fuel).Waits host := by
  induction fuel generalizing sys with
  | zero => exact h
  | succ fuel ih =>
    rw [System.runThread]
    cases hthread : sys.stepThread host with
    | none => exact h
    | some next => exact ih (h.step_thread hthread)

theorem Waits.restThread (h : sys.Waits host) : (sys.restThread host).Waits host := by
  rw [System.restThread]
  split
  · exact h.runThread _
  · exact h

theorem target_runThread (host : Host σ τ) (fuel : Nat) (sys : System σ τ) :
    (sys.runThread host fuel).target = sys.target := by
  induction fuel generalizing sys with
  | zero => rfl
  | succ fuel ih =>
    rw [runThread]
    cases hthread : sys.stepThread host with
    | none => rfl
    | some next => exact (ih next).trans (threadStep_of_step hthread).target_eq

theorem target_restThread (host : Host σ τ) (sys : System σ τ) :
    (sys.restThread host).target = sys.target := by
  rw [restThread]
  split
  · exact target_runThread host _ sys
  · rfl

/-- Once the thread has come to rest beside a session that waits, both are at rest. -/
theorem Reached.resting (h : sys.Reached host) (hwaits : sys.Waits host)
    (hrunning : host.isRunning (sys.restThread host).target = true) :
    (sys.restThread host).Resting host := by
  rw [target_restThread] at hrunning
  rintro (_ | _)
  · exact hwaits.restThread.session
  · exact h.restThread_waits hrunning

end System

-- ---------------------------------------------------------------------------
-- Connections
-- ---------------------------------------------------------------------------

namespace Connection

variable {c : Connection σ τ} {impatient : Bool}

/-- One system comes from another by moves between which nothing arrives. -/
def Goes (host : Host σ τ) (sys sys' : System σ τ) : Prop :=
  ∃ moves, (∀ arrivals, Move.arrive arrivals ∉ moves) ∧ sys.run host moves = sys'

theorem Goes.trans {sys'' : System σ τ} (h : Goes host sys sys') (h' : Goes host sys' sys'') :
    Goes host sys sys'' := by
  obtain ⟨moves, hquiet, rfl⟩ := h
  obtain ⟨more, hquiet', rfl⟩ := h'
  exact ⟨moves ++ more, fun arrivals hmem =>
    (List.mem_append.1 hmem).elim (hquiet arrivals) (hquiet' arrivals), System.run_append ..⟩

theorem goes_of_steps {sides : List Side} (h : sys' = sys.run host (sides.map .step)) :
    Goes host sys sys' :=
  ⟨sides.map .step, by simp, h.symm⟩

theorem Goes.reached (h : Goes host sys sys') (hreached : sys.Reached host) :
    sys'.Reached host := by
  obtain ⟨moves, -, rfl⟩ := h
  exact hreached.run moves

theorem goes_restSession (host : Host σ τ) (sys : System σ τ) :
    Goes host sys (sys.restSession host) :=
  goes_of_steps (System.restSession_eq_run host sys).choose_spec

theorem goes_restThread (host : Host σ τ) (sys : System σ τ) :
    Goes host sys (sys.restThread host) :=
  goes_of_steps (System.restThread_eq_run host sys).choose_spec

theorem goes_endInput (host : Host σ τ) (sys : System σ τ) : Goes host sys sys.endInput :=
  ⟨[.hangUp], by simp, rfl⟩

theorem stage_flush_onSession (h : c.stage = .running sys) (f : System σ τ → System σ τ) :
    ((c.onSession f).flush).stage = .running (f sys) := by
  simp [onSession, flush, h]

theorem hangUpIfDeaf_rests (impatient : Bool) (h : c.stage = .running sys)
    (hreached : sys.Reached host) (hwaits : sys.Waits host) :
    ∃ sys', (c.hangUpIfDeaf host impatient).stage = .running sys' ∧ Goes host sys sys' ∧
      sys'.Waits host := by
  unfold hangUpIfDeaf
  split
  · have hends := goes_endInput host sys
    refine ⟨_, ?_, hends.trans (goes_restSession host _),
      (hends.reached hreached).restSession_waits⟩
    simp [hangUp, revise, greet, onSession, flush, h]
  · exact ⟨sys, h, ⟨[], by simp, rfl⟩, hwaits⟩

/-- Coming to rest in lockstep is a run. At its end the session waits, and if the target runs, both
sides are at rest. -/
theorem rest_rests (h : c.stage = .running sys) (hreached : sys.Reached host) :
    ∃ sys', (c.rest host impatient).stage = .running sys' ∧ Goes host sys sys' ∧
      sys'.Waits host ∧ (host.isRunning sys'.target = true → sys'.Resting host) := by
  have hgreet : c.greet = c := by simp [greet, h]
  have hgo := goes_restSession host sys
  obtain ⟨sys₁, hstage₁, hgo₁, hwaits₁⟩ := hangUpIfDeaf_rests impatient
    (stage_flush_onSession (hgreet.symm ▸ h) (·.restSession host)) (hgo.reached hreached)
    hreached.restSession_waits
  have hgo₁ := hgo.trans (hgo₁.trans (goes_restThread host sys₁))
  obtain ⟨sys₂, hstage₂, hgo₂, hwaits₂⟩ := hangUpIfDeaf_rests impatient
    (stage_flush_onSession hstage₁ (·.restThread host)) (hgo₁.reached hreached) hwaits₁.restThread
  have hgo₂ := hgo₁.trans hgo₂
  exact ⟨_, stage_flush_onSession hstage₂ _, hgo₂.trans (goes_restThread host sys₂),
    hwaits₂.restThread, (hgo₂.reached hreached).resting hwaits₂⟩

theorem receive_rests (h : c.stage = .running sys) (hreached : sys.Reached host)
    (hopen : sys.session.reader.ended = false) (arrivals : List Packet.Arrival) :
    ∃ sys', (c.receive host impatient arrivals).stage = .running sys' ∧
      Goes host (sys.play host (.arrive arrivals)) sys' ∧ sys'.Waits host ∧
      (host.isRunning sys'.target = true → sys'.Resting host) := by
  have hfeed : sys.feed arrivals = sys.play host (.arrive arrivals) := by
    simp [System.play, hopen]
  exact hfeed ▸ rest_rests (by simp [revise, h]) (hfeed ▸ hreached.run [.arrive arrivals])

theorem finish_rests (h : c.stage = .running sys) (hreached : sys.Reached host) :
    ∃ sys', (c.finish host impatient).stage = .running sys' ∧
      Goes host (sys.play host .hangUp) sys' ∧ sys'.Waits host ∧
      (host.isRunning sys'.target = true → sys'.Resting host) :=
  rest_rests (by simp [revise, h, System.play]) (hreached.run [.hangUp])

end Connection

end DebugAdapter
