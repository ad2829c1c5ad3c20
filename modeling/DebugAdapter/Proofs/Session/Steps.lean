import DebugAdapter.Session.System

/-!
# What a step can do

All that one step of the session or of the interpreter's thread can do, case by case. `SessionStep`
and `ThreadStep` say what holds of a system before the step and what the step leaves behind; every
invariant of a running session is proved over these cases.
-/

namespace DebugAdapter.System

open Protocol

variable {σ τ : Type} {host : Host σ τ} {sys sys' : System σ τ}

-- ---------------------------------------------------------------------------
-- The session
-- ---------------------------------------------------------------------------

theorem command_of_disconnect {r : Request} {demand : Demand}
    (h : Demand.of? r = some (.ok demand)) : r.command = "disconnect" ↔ demand = .disconnect := by
  unfold Demand.of? at h
  split at h
  case h_17 => cases h
  all_goals
    rename_i hc
    rw [hc]
    simp only [Option.some.injEq, map_eq_ok, Except.ok.injEq] at h
    obtain ⟨a, -, rfl⟩ := h
    simp

inductive TakenUp (r : Request) : Session.Phase → Prop
  | granted {body : Option Json} {events : List Event} {closes : Bool} :
      (closes = true ↔ r.command = "disconnect") →
      events = [] ∨ events = [.named "initialized" none] →
      TakenUp r (.answering { response := r.accept body, events := events, closes := closes })
  | refused (e : AdapterError) :
      TakenUp r (.answering { response := r.refuse e.message, closes := !e.isContractViolation })
  | unknown : Demand.of? r = none →
      TakenUp r (.answering { response := r.refuse "unsupported command" })
  | inspect {question : Question} : r.command ≠ "disconnect" → TakenUp r (.asking r question)
  | resume {decision : Decision} : r.command ≠ "disconnect" → TakenUp r (.resuming r decision)

/-- A request is taken up at once: what it does to the debugger, and what becomes of it. -/
theorem takeUp_cases (host : Host σ τ) (sys : System σ τ) (r : Request) :
    ∃ debugger target disconnected phase,
      sys.takeUp host r = { sys with
        debugger := debugger
        target := target
        session := { sys.session with disconnected := disconnected, phase := phase } } ∧
      (Demand.of? r ≠ some (.ok .disconnect) ∧ debugger.goal = sys.debugger.goal ∧
          debugger.terminated = sys.debugger.terminated ∨
        Demand.of? r = some (.ok .disconnect) ∧ debugger = sys.debugger.disconnect) ∧
      TakenUp r phase := by
  unfold takeUp
  split
  · rename_i hd
    exact ⟨_, _, _, _, rfl, .inl ⟨by simp [hd], rfl, rfl⟩, .unknown hd⟩
  · rename_i e hd
    exact ⟨_, _, _, _, rfl, .inl ⟨by simp [hd], rfl, rfl⟩, .refused e⟩
  · rename_i demand hd
    have hdisc := command_of_disconnect hd
    have hkeep (h : demand ≠ .disconnect) : Demand.of? r ≠ some (.ok .disconnect) := by
      rw [hd]
      simpa using h
    cases demand with
    | capabilities =>
      exact ⟨_, _, _, _, rfl, .inl ⟨hkeep nofun, rfl, rfl⟩, .granted (by simp [hdisc]) (by simp)⟩
    | chooseStart mode =>
      simp only [fulfil, Debugger.chooseStart]
      split
      · rename_i d hd
        split at hd
        · cases hd
        · cases hd
          exact ⟨_, _, _, _, rfl, .inl ⟨hkeep nofun, rfl, rfl⟩,
            .granted (by simp [hdisc]) (by simp)⟩
      · exact ⟨_, _, _, _, rfl, .inl ⟨hkeep nofun, rfl, rfl⟩, .refused _⟩
    | start =>
      simp only [fulfil]
      split
      · exact ⟨_, _, _, _, rfl, .inl ⟨hkeep nofun, rfl, rfl⟩, .refused _⟩
      · split
        · exact ⟨_, _, _, _, rfl, .inl ⟨hkeep nofun, rfl, rfl⟩,
            .granted (by simp [hdisc]) (by simp)⟩
        · exact ⟨_, _, _, _, rfl, .inl ⟨hkeep nofun, rfl, rfl⟩, .refused _⟩
    | disconnect =>
      exact ⟨_, _, _, _, rfl, .inr ⟨hd, rfl⟩, .granted (by simp [hdisc]) (by simp)⟩
    | setLines args =>
      exact ⟨_, _, _, _, rfl, .inl ⟨hkeep nofun, rfl, rfl⟩, .granted (by simp [hdisc]) (by simp)⟩
    | setCalls args =>
      exact ⟨_, _, _, _, rfl, .inl ⟨hkeep nofun, rfl, rfl⟩, .granted (by simp [hdisc]) (by simp)⟩
    | threads =>
      exact ⟨_, _, _, _, rfl, .inl ⟨hkeep nofun, rfl, rfl⟩, .granted (by simp [hdisc]) (by simp)⟩
    | inspect question =>
      exact ⟨_, _, _, _, rfl, .inl ⟨hkeep nofun, rfl, rfl⟩, .inspect (by simp [hdisc])⟩
    | pause =>
      exact ⟨_, _, _, _, rfl, .inl ⟨hkeep nofun, rfl, rfl⟩, .granted (by simp [hdisc]) (by simp)⟩
    | resume decision =>
      exact ⟨_, _, _, _, rfl, .inl ⟨hkeep nofun, rfl, rfl⟩, .resume (by simp [hdisc])⟩

/-- A read that ends the session, and with which result. -/
def endOf? : Packet.Read Json → Option (Except AdapterError Unit)
  | .ended => some (.ok ())
  | .failed text => some (.error (.transport text))
  | .malformed e => some (.error (.framing e.reason))
  | .item _ | .blocked => none

def withReader (sys : System σ τ) (reader : Packet.Reader) : System σ τ :=
  { sys with session := { sys.session with reader := reader } }

inductive SessionStep (host : Host σ τ) (sys : System σ τ) : System σ τ → Prop
  | shut : sys.session.phase = .reading → sys.handle.closed = true →
      SessionStep host sys (sys.enter (.closing .mark (some (.ok ()))))
  | quit {read : Packet.Read Json} {reader : Packet.Reader} {result : Except AdapterError Unit} :
      sys.session.phase = .reading → sys.handle.closed = false →
      sys.session.reader.readMessage = (read, reader) → endOf? read = some result →
      SessionStep host sys ((sys.withReader reader).enter (.closing .mark (some result)))
  | skip {message : Json} {reader : Packet.Reader} : sys.session.phase = .reading →
      sys.handle.closed = false → sys.session.reader.readMessage = (.item message, reader) →
      requestOf? message = none → SessionStep host sys (sys.withReader reader)
  | begin {message : Json} {reader : Packet.Reader} {r : Request} :
      sys.session.phase = .reading → sys.handle.closed = false →
      sys.session.reader.readMessage = (.item message, reader) → requestOf? message = some r →
      SessionStep host sys ((sys.withReader reader).enter (.handling r))
  | takeUp {r : Request} : sys.session.phase = .handling r →
      SessionStep host sys (sys.takeUp host r)
  | ask {r : Request} {question : Question} {stop : Nat} :
      sys.session.phase = .asking r question → sys.handle.current = .ok stop →
      SessionStep host sys (sys.enter (.scheduling r question stop))
  | askInVain {r : Request} {question : Question} {e : AdapterError} :
      sys.session.phase = .asking r question → sys.handle.current = .error e →
      SessionStep host sys (sys.refuse r e)
  | schedule {r : Request} {question : Question} {stop : Nat} {h : Handle} :
      sys.session.phase = .scheduling r question stop → sys.handle.schedule stop question = .ok h →
      SessionStep host sys ({ sys with handle := h }.enter (.awaiting r))
  | scheduleInVain {r : Request} {question : Question} {stop : Nat} {e : AdapterError} :
      sys.session.phase = .scheduling r question stop →
      sys.handle.schedule stop question = .error e → SessionStep host sys (sys.refuse r e)
  | pass {r : Request} {body : Json} : sys.session.phase = .awaiting r →
      sys.reply = some (.ok body) →
      SessionStep host sys ({ sys with reply := none }.grant r (some body))
  | passError {r : Request} {e : AdapterError} : sys.session.phase = .awaiting r →
      sys.reply = some (.error e) → SessionStep host sys ({ sys with reply := none }.refuse r e)
  | resume {r : Request} {decision : Decision} {stop : Nat} :
      sys.session.phase = .resuming r decision → sys.handle.current = .ok stop →
      SessionStep host sys (sys.enter (.deciding r decision stop))
  | resumeInVain {r : Request} {decision : Decision} {e : AdapterError} :
      sys.session.phase = .resuming r decision → sys.handle.current = .error e →
      SessionStep host sys (sys.refuse r e)
  | decide {r : Request} {decision : Decision} {stop : Nat} {h : Handle} :
      sys.session.phase = .deciding r decision stop → sys.handle.decide stop decision = .ok h →
      SessionStep host sys ({ sys with handle := h }.enter (.answering
        { response := r.accept (resumeBody decision), release := some stop }))
  | decideInVain {r : Request} {decision : Decision} {stop : Nat} {e : AdapterError} :
      sys.session.phase = .deciding r decision stop →
      sys.handle.decide stop decision = .error e → SessionStep host sys (sys.refuse r e)
  | answer {o : Outcome} : sys.session.phase = .answering o →
      SessionStep host sys ({ sys with handle := sys.handle.post (.response o.response) }.enter
        (.following o.events o.release o.closes))
  | follow {e : Event} {events : List Event} {stop : Option Nat} {closes : Bool} :
      sys.session.phase = .following (e :: events) stop closes →
      SessionStep host sys ({ sys with handle := sys.handle.post (.event e) }.enter
        (.following events stop closes))
  | letGo {stop : Nat} {closes : Bool} : sys.session.phase = .following [] (some stop) closes →
      SessionStep host sys ({ sys with handle := sys.handle.release stop }.enter
        (.following [] none closes))
  | close : sys.session.phase = .following [] none true →
      SessionStep host sys (sys.enter (.closing .mark none))
  | goOn : sys.session.phase = .following [] none false →
      SessionStep host sys (sys.enter .reading)
  | mark {result : Option (Except AdapterError Unit)} :
      sys.session.phase = .closing .mark result →
      SessionStep host sys ({ sys with handle := sys.handle.markClosed }.enter
        (.closing .vacate result))
  | vacate {stop : Nat} {h : Handle} {result : Option (Except AdapterError Unit)} :
      sys.session.phase = .closing .vacate result → sys.handle.vacate = (some stop, h) →
      SessionStep host sys ({ sys with handle := h }.enter (.closing (.settle stop) result))
  | vacant {h : Handle} {result : Option (Except AdapterError Unit)} :
      sys.session.phase = .closing .vacate result → sys.handle.vacate = (none, h) →
      SessionStep host sys ({ sys with handle := h }.closed result)
  | settle {stop : Nat} {result : Option (Except AdapterError Unit)} :
      sys.session.phase = .closing (.settle stop) result →
      SessionStep host sys ({ sys with handle := sys.handle.settle stop }.enter
        (.closing (.release stop) result))
  | release {stop : Nat} {result : Option (Except AdapterError Unit)} :
      sys.session.phase = .closing (.release stop) result →
      SessionStep host sys ({ sys with handle := sys.handle.release stop }.closed result)
  | disconnect {result : Except AdapterError Unit} :
      sys.session.phase = .disconnecting result →
      SessionStep host sys ({ sys with debugger :=
        if sys.session.disconnected then sys.debugger else sys.debugger.disconnect }.enter
          (.finishing result))
  | finish {result : Except AdapterError Unit} : sys.session.phase = .finishing result →
      SessionStep host sys ({ sys with handle := sys.handle.post .close }.enter (.ended result))

theorem sessionStep_of_read (hp : sys.session.phase = .reading) (h : sys.read = some sys') :
    SessionStep host sys sys' := by
  rw [read] at h
  split at h
  · cases h
    exact .shut hp ‹_›
  · rename_i hc
    have hc := Bool.eq_false_iff.2 hc
    cases hr : sys.session.reader.readMessage with
    | mk found reader =>
      simp only [hr] at h
      cases found with
      | blocked => cases h
      | ended => cases h; exact .quit hp hc hr rfl
      | failed text => cases h; exact .quit hp hc hr rfl
      | malformed e => cases h; exact .quit hp hc hr rfl
      | item message =>
        cases hreq : requestOf? message with
        | none =>
          simp only [hreq] at h
          cases h
          exact .skip hp hc hr hreq
        | some r =>
          simp only [hreq] at h
          cases h
          exact .begin hp hc hr hreq

theorem sessionStep_of_step (h : sys.stepSession host = some sys') : SessionStep host sys sys' := by
  cases hp : sys.session.phase with
  | reading =>
    simp only [stepSession, hp] at h
    exact sessionStep_of_read hp h
  | handling r =>
    simp only [stepSession, hp] at h
    cases h
    exact .takeUp hp
  | asking r question =>
    simp only [stepSession, hp] at h
    split at h
    · cases h; exact .ask hp ‹_›
    · cases h; exact .askInVain hp ‹_›
  | scheduling r question stop =>
    simp only [stepSession, hp] at h
    split at h
    · cases h; exact .schedule hp ‹_›
    · cases h; exact .scheduleInVain hp ‹_›
  | awaiting r =>
    simp only [stepSession, hp] at h
    split at h
    · cases h
    · cases h; exact .pass hp ‹_›
    · cases h; exact .passError hp ‹_›
  | resuming r decision =>
    simp only [stepSession, hp] at h
    split at h
    · cases h; exact .resume hp ‹_›
    · cases h; exact .resumeInVain hp ‹_›
  | deciding r decision stop =>
    simp only [stepSession, hp] at h
    split at h
    · cases h; exact .decide hp ‹_›
    · cases h; exact .decideInVain hp ‹_›
  | answering o =>
    simp only [stepSession, hp] at h
    cases h
    exact .answer hp
  | following events release closes =>
    cases events with
    | cons e events =>
      simp only [stepSession, hp] at h
      cases h
      exact .follow hp
    | nil =>
      cases release with
      | some stop =>
        simp only [stepSession, hp] at h
        cases h
        exact .letGo hp
      | none =>
        cases closes with
        | true =>
          simp only [stepSession, hp] at h
          cases h
          exact .close hp
        | false =>
          simp only [stepSession, hp] at h
          cases h
          exact .goOn hp
  | closing step result =>
    cases step with
    | mark =>
      simp only [stepSession, hp] at h
      cases h
      exact .mark hp
    | vacate =>
      simp only [stepSession, hp] at h
      split at h
      · cases h; exact .vacate hp ‹_›
      · cases h; exact .vacant hp ‹_›
    | settle stop =>
      simp only [stepSession, hp] at h
      cases h
      exact .settle hp
    | release stop =>
      simp only [stepSession, hp] at h
      cases h
      exact .release hp
  | disconnecting result =>
    simp only [stepSession, hp] at h
    cases h
    exact .disconnect hp
  | finishing result =>
    simp only [stepSession, hp] at h
    cases h
    exact .finish hp
  | ended result =>
    simp only [stepSession, hp] at h
    cases h

/-- The session waits for more of the stream or for a reply, or it is over. -/
theorem waiting_of_stepSession (h : sys.stepSession host = none) :
    (∃ reader, sys.session.phase = .reading ∧ sys.session.reader.readMessage = (.blocked, reader)) ∨
      (∃ r, sys.session.phase = .awaiting r ∧ sys.reply = none) ∨
      ∃ result, sys.session.phase = .ended result := by
  cases hp : sys.session.phase with
  | reading =>
    simp only [stepSession, hp, read] at h
    split at h
    · cases h
    · cases hr : sys.session.reader.readMessage with
      | mk found reader =>
        simp only [hr] at h
        cases found with
        | blocked => exact .inl ⟨reader, rfl, rfl⟩
        | item message => cases hreq : requestOf? message <;> simp only [hreq] at h <;> cases h
        | ended | failed | malformed => cases h
  | awaiting r =>
    simp only [stepSession, hp] at h
    split at h
    · exact .inr (.inl ⟨r, rfl, ‹_›⟩)
    · cases h
    · cases h
  | ended result => exact .inr (.inr ⟨result, rfl⟩)
  | asking | scheduling | resuming | deciding =>
    simp only [stepSession, hp] at h
    split at h <;> cases h
  | handling | answering | disconnecting | finishing =>
    simp only [stepSession, hp] at h
    cases h
  | following events release closes =>
    cases events with
    | cons e events =>
      simp only [stepSession, hp] at h
      cases h
    | nil => cases release <;> cases closes <;> simp only [stepSession, hp] at h <;> cases h
  | closing step result =>
    cases step with
    | vacate =>
      simp only [stepSession, hp] at h
      split at h <;> cases h
    | mark | settle | release =>
      simp only [stepSession, hp] at h
      cases h

-- ---------------------------------------------------------------------------
-- The thread
-- ---------------------------------------------------------------------------

def stoppedEvent (body : StoppedBody) : Event :=
  .named "stopped" (some (stoppedBody.encode body))

def withProgram (sys : System σ τ) (program : List (Item σ)) : System σ τ :=
  { sys with thread := { sys.thread with program := program } }

inductive ThreadStep (host : Host σ τ) (sys : System σ τ) : System σ τ → Prop
  | event {e : ExecutionEvent} {s : σ} {program : List (Item σ)} : sys.thread.phase = .idle →
      sys.thread.program = .event e s :: program →
      ThreadStep host sys ((sys.withProgram program).move (.hooked e s))
  | stop {body : StoppedBody} {s : σ} {program : List (Item σ)} : sys.thread.phase = .idle →
      sys.thread.program = .stop body s :: program →
      ThreadStep host sys ((sys.withProgram program).move
        (.installing .direct body { minted := sys.thread.references } s))
  | free {e : ExecutionEvent} {s : σ} : sys.thread.phase = .hooked e s →
      sys.debugger.terminated = true → ThreadStep host sys (sys.finish s)
  | look {e : ExecutionEvent} {s : σ} : sys.thread.phase = .hooked e s →
      sys.debugger.terminated = false →
      ThreadStep host sys (sys.move (.matching e sys.debugger.goal s))
  | hit {e : ExecutionEvent} {goal : Option StepGoal} {s : σ} {body : StoppedBody} :
      sys.thread.phase = .matching e goal s → sys.debugger.breakpointStop e = some body →
      ThreadStep host sys (sys.move (.disarming e body s))
  | meet {e : ExecutionEvent} {goal : Option StepGoal} {s s' : σ} {body : StoppedBody} :
      sys.thread.phase = .matching e goal s → sys.debugger.breakpointStop e = none →
      Debugger.stepStop host.interpreter goal e s = (.ok (some body), s') →
      ThreadStep host sys (sys.move (.disarming e body s'))
  | miss {e : ExecutionEvent} {goal : Option StepGoal} {s s' : σ} :
      sys.thread.phase = .matching e goal s → sys.debugger.breakpointStop e = none →
      Debugger.stepStop host.interpreter goal e s = (.ok none, s') →
      ThreadStep host sys (sys.finish s')
  | matchFault {e : ExecutionEvent} {goal : Option StepGoal} {s s' : σ} {fault : Fault} :
      sys.thread.phase = .matching e goal s →
      Debugger.stepStop host.interpreter goal e s = (.error fault, s') →
      ThreadStep host sys (sys.move (.dead s'))
  | disarm {e : ExecutionEvent} {body : StoppedBody} {s : σ} :
      sys.thread.phase = .disarming e body s →
      ThreadStep host sys ({ sys with debugger := sys.debugger.disarm }.move
        (.installing (.debugger e) body { minted := sys.debugger.references } s))
  | turnAway {origin : Origin} {body : StoppedBody} {g : StackGraph} {s : σ} :
      sys.thread.phase = .installing origin body g s → sys.handle.install = none →
      ThreadStep host sys (sys.move (.resumed origin .detach s))
  | install {origin : Origin} {body : StoppedBody} {g : StackGraph} {s : σ} {stop : Nat}
      {h : Handle} : sys.thread.phase = .installing origin body g s →
      sys.handle.install = some (stop, h) →
      ThreadStep host sys ({ sys with handle := h }.move (.announcing origin body stop g s))
  | announce {origin : Origin} {body : StoppedBody} {stop : Nat} {g : StackGraph} {s : σ} :
      sys.thread.phase = .announcing origin body stop g s →
      ThreadStep host sys ({ sys with handle := sys.handle.post (.event (stoppedEvent body)) }.move
        (.serving origin stop [] g s))
  | reply {origin : Origin} {stop : Nat} {question : Question} {batch : List Question}
      {g g' : StackGraph} {s s' : σ} {r : Except AdapterError Json} :
      sys.thread.phase = .serving origin stop (question :: batch) g s →
      question.answer host.interpreter (g, s) = (.ok r, g', s') →
      ThreadStep host sys ({ sys with reply := some r }.move (.serving origin stop batch g' s'))
  | serveFault {origin : Origin} {stop : Nat} {question : Question} {batch : List Question}
      {g g' : StackGraph} {s s' : σ} {fault : Fault} :
      sys.thread.phase = .serving origin stop (question :: batch) g s →
      question.answer host.interpreter (g, s) = (.error fault, g', s') →
      ThreadStep host sys (({ sys with reply := some (.error .stopEnded) }.handBack origin g').move
        (.dead s'))
  | take {origin : Origin} {stop : Nat} {g : StackGraph} {s : σ} {batch : List Question}
      {h : Handle} : sys.thread.phase = .serving origin stop [] g s →
      sys.handle.take stop = (.work batch, h) →
      ThreadStep host sys ({ sys with handle := h }.move (.serving origin stop batch g s))
  | depart {origin : Origin} {stop : Nat} {g : StackGraph} {s : σ} {h : Handle} :
      sys.thread.phase = .serving origin stop [] g s → sys.handle.take stop = (.leave, h) →
      ThreadStep host sys (({ sys with handle := h }.handBack origin g).move
        (.leaving origin stop s))
  | leave {origin : Origin} {stop : Nat} {s : σ} {decision : Decision} {h : Handle} :
      sys.thread.phase = .leaving origin stop s → sys.handle.leave stop = (decision, h) →
      ThreadStep host sys ({ sys with handle := h }.move (.resumed origin decision s))
  | hand {decision : Decision} {s : σ} : sys.thread.phase = .resumed .direct decision s →
      ThreadStep host sys ({ sys with
        thread := { sys.thread with returned := sys.thread.returned ++ [decision] } }.finish s)
  | resume {e : ExecutionEvent} {decision : Decision} {goal : Option StepGoal} {s s' : σ} :
      sys.thread.phase = .resumed (.debugger e) decision s →
      Debugger.goalAfter host.interpreter decision e s = (.ok goal, s') →
      ThreadStep host sys ({ sys with debugger := sys.debugger.resume decision goal }.finish s')
  | resumeFault {e : ExecutionEvent} {decision : Decision} {s s' : σ} {fault : Fault} :
      sys.thread.phase = .resumed (.debugger e) decision s →
      Debugger.goalAfter host.interpreter decision e s = (.error fault, s') →
      ThreadStep host sys (sys.move (.dead s'))

theorem threadStep_of_step (h : sys.stepThread host = some sys') : ThreadStep host sys sys' := by
  cases hp : sys.thread.phase with
  | idle =>
    cases hprogram : sys.thread.program with
    | nil =>
      simp only [stepThread, hp, hprogram] at h
      cases h
    | cons item program =>
      cases item with
      | event e s =>
        simp only [stepThread, hp, hprogram] at h
        cases h
        exact .event hp hprogram
      | stop body s =>
        simp only [stepThread, hp, hprogram] at h
        cases h
        exact .stop hp hprogram
  | hooked e s =>
    simp only [stepThread, hp] at h
    split at h
    · cases h; exact .free hp ‹_›
    · cases h; exact .look hp (Bool.eq_false_iff.2 ‹_›)
  | matching e goal s =>
    simp only [stepThread, hp] at h
    split at h
    · cases h; exact .hit hp ‹_›
    · split at h
      · cases h; exact .meet hp ‹_› ‹_›
      · cases h; exact .miss hp ‹_› ‹_›
      · cases h; exact .matchFault hp ‹_›
  | disarming e body s =>
    simp only [stepThread, hp] at h
    cases h
    exact .disarm hp
  | installing origin body g s =>
    simp only [stepThread, hp] at h
    split at h
    · cases h; exact .turnAway hp ‹_›
    · cases h; exact .install hp ‹_›
  | announcing origin body stop g s =>
    simp only [stepThread, hp] at h
    cases h
    exact .announce hp
  | serving origin stop batch g s =>
    cases batch with
    | cons question batch =>
      simp only [stepThread, hp, serve] at h
      split at h
      · cases h; exact .reply hp ‹_›
      · cases h; exact .serveFault hp ‹_›
    | nil =>
      simp only [stepThread, hp] at h
      split at h
      · cases h
      · cases h; exact .take hp ‹_›
      · cases h; exact .depart hp ‹_›
  | leaving origin stop s =>
    simp only [stepThread, hp] at h
    cases h
    exact .leave hp rfl
  | resumed origin decision s =>
    cases origin with
    | direct =>
      simp only [stepThread, hp] at h
      cases h
      exact .hand hp
    | debugger e =>
      simp only [stepThread, hp] at h
      split at h
      · cases h; exact .resume hp ‹_›
      · cases h; exact .resumeFault hp ‹_›
  | dead s =>
    simp only [stepThread, hp] at h
    cases h

/-- The thread has come to the end of its program, waits at a stop, or is dead. -/
theorem waiting_of_stepThread (h : sys.stepThread host = none) :
    sys.thread.phase = .idle ∨ (∃ origin stop g s, sys.thread.phase = .serving origin stop [] g s) ∨
      ∃ s, sys.thread.phase = .dead s := by
  cases hp : sys.thread.phase with
  | idle => exact .inl rfl
  | dead s => exact .inr (.inr ⟨s, rfl⟩)
  | serving origin stop batch g s =>
    cases batch with
    | nil => exact .inr (.inl ⟨origin, stop, g, s, rfl⟩)
    | cons question batch =>
      simp only [stepThread, hp] at h
      cases h
  | hooked | matching | installing =>
    simp only [stepThread, hp] at h
    split at h
    · cases h
    · first
        | cases h
        | split at h <;> cases h
  | disarming | announcing | leaving =>
    simp only [stepThread, hp] at h
    cases h
  | resumed origin =>
    cases origin with
    | direct =>
      simp only [stepThread, hp] at h
      cases h
    | debugger e =>
      simp only [stepThread, hp] at h
      split at h <;> cases h

end DebugAdapter.System
