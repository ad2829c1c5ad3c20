import DebugAdapter.Proofs.Session.Deeds
import DebugAdapter.Proofs.Session.Journal
import DebugAdapter.Session.Writer
import Mathlib.Logic.Relation

/-!
# Services

A service is a session with the writer of its outbox and a record of what the session has done. The
two sides and the writer are agents that take steps in any order, while the client's stream arrives.
`works_of_run` brings a run into a normal form: first the whole stream arrives, then only the steps
are taken that found something to do. Nothing changes by that, since what is read once would have
been read as well had more of the stream been there.
-/

namespace DebugAdapter

open Protocol

variable {σ τ : Type} {host : Host σ τ}

-- ---------------------------------------------------------------------------
-- Readers
-- ---------------------------------------------------------------------------

/-- The demands that are passed on to the controller. -/
def Demand.isCall : Demand → Bool
  | chooseStart _ | start | disconnect | setLines _ | setCalls _ | threads => true
  | capabilities | inspect _ | pause | resume _ => false

namespace System

variable {sys sys' : System σ τ}

/-- What the next step of the session asks of the controller. -/
def call? (sys : System σ τ) : Option Demand :=
  match sys.session.phase with
  | .handling r =>
    match Demand.of? r with
    | some (.ok demand) => if demand.isCall then some demand else none
    | _ => none
  | .disconnecting _ => if sys.session.disconnected then none else some .disconnect
  | .reading | .asking .. | .scheduling .. | .awaiting _ | .resuming .. | .deciding ..
  | .answering _ | .following .. | .closing .. | .finishing _ | .ended _ => none

def Looks (sys : System σ τ) : Prop := sys.session.phase = .reading ∧ sys.handle.closed = false

theorem takeUp_withReader (sys : System σ τ) (reader : Packet.Reader) (r : Request) :
    (sys.withReader reader).takeUp host r = (sys.takeUp host r).withReader reader := by
  unfold takeUp
  split
  · rfl
  · rfl
  · rename_i demand _
    cases demand with
    | chooseStart mode =>
      simp only [fulfil, withReader]
      split <;> rfl
    | start =>
      simp only [fulfil, withReader]
      split
      · rfl
      · split <;> rfl
    | _ => rfl

theorem stepSession_withReader (h : ¬ sys.Looks) (reader : Packet.Reader) :
    (sys.withReader reader).stepSession host =
      (sys.stepSession host).map (·.withReader reader) := by
  unfold stepSession
  dsimp only [withReader]
  cases hp : sys.session.phase with
  | reading =>
    have hc : sys.handle.closed = true := by
      by_contra hc
      exact h ⟨hp, Bool.eq_false_iff.2 hc⟩
    simp only [read, hc, if_true]
    rfl
  | handling r => exact congrArg some (takeUp_withReader sys reader r)
  | asking | scheduling | resuming | deciding | awaiting =>
    dsimp only
    split <;> rfl
  | following events release closes =>
    cases events with
    | cons => rfl
    | nil =>
      cases release with
      | some => rfl
      | none => cases closes <;> rfl
  | closing step result =>
    cases step with
    | vacate =>
      dsimp only
      split
      · rfl
      · cases result <;> rfl
    | release stop => cases result <;> rfl
    | mark | settle => rfl
  | _ => rfl

theorem stepThread_withReader (sys : System σ τ) (reader : Packet.Reader) :
    (sys.withReader reader).stepThread host =
      (sys.stepThread host).map (·.withReader reader) := by
  unfold stepThread
  dsimp only [withReader]
  cases hp : sys.thread.phase with
  | idle =>
    dsimp only
    split
    · rfl
    · split <;> rfl
  | hooked e s => by_cases ht : sys.debugger.terminated = true <;> simp only [ht] <;> rfl
  | installing =>
    dsimp only
    split <;> rfl
  | matching e goal s =>
    dsimp only
    split
    · rfl
    · split <;> rfl
  | serving origin stop batch g s =>
    cases batch with
    | nil =>
      dsimp only
      split
      · rfl
      · rfl
      · cases origin <;> rfl
    | cons question batch =>
      dsimp only [serve]
      split
      · rfl
      · cases origin <;> rfl
  | resumed origin decision s =>
    cases origin with
    | direct => rfl
    | debugger e =>
      dsimp only
      split <;> rfl
  | _ => rfl

theorem deed?_withReader (h : ¬ sys.Looks) (reader : Packet.Reader) :
    (sys.withReader reader).deed? = sys.deed? := by
  unfold deed?
  dsimp only [withReader]
  cases hp : sys.session.phase with
  | reading =>
    have hc : sys.handle.closed = true := by
      by_contra hc
      exact h ⟨hp, Bool.eq_false_iff.2 hc⟩
    simp only [hc, if_true]
  | _ => rfl

theorem stepSession_of_junk {message : Json} {reader : Packet.Reader} (hl : sys.Looks)
    (hread : sys.session.reader.readMessage = (.item message, reader))
    (hr : requestOf? message = none) :
    sys.stepSession host = some (sys.withReader reader) := by
  simp only [stepSession, hl.1, read, hl.2, hread, hr, Bool.false_eq_true, if_false, withReader]

end System

-- ---------------------------------------------------------------------------
-- Services
-- ---------------------------------------------------------------------------

inductive Agent where
  | side (side : Side)
  | writer

structure Service (σ τ : Type) where
  sys : System σ τ
  writer : Writer
  deeds : List Deed := []
  entries : List Entry := []
  calls : List Demand := []

inductive Act where
  | step (agent : Agent)
  | arrive (arrivals : List Packet.Arrival)
  | hangUp

namespace Act

/-- The stream that is left where nothing is read of it. -/
def receive (stream : Packet.Reader) : Act → Packet.Reader
  | step _ => stream
  | arrive arrivals => stream.later arrivals false
  | hangUp => stream.finish

def received (stream : Packet.Reader) (acts : List Act) : Packet.Reader :=
  acts.foldl receive stream

/-- The acts deliver just these arrivals, and the end of the stream if it has ended. -/
def Deliver (acts : List Act) (arrivals : List Packet.Arrival) (ended : Bool) : Prop :=
  received {} acts = { arrivals := arrivals, ended := ended }

def delivery (arrivals : List Packet.Arrival) (ended : Bool) : List Act :=
  .arrive arrivals :: if ended then [.hangUp] else []

theorem received_steps (agents : List Agent) (stream : Packet.Reader) :
    received stream (agents.map step) = stream := by
  induction agents with
  | nil => rfl
  | cons agent agents ih => exact ih

theorem deliver_delivery_steps (arrivals : List Packet.Arrival) (ended : Bool)
    (agents : List Agent) :
    Deliver (delivery arrivals ended ++ agents.map step) arrivals ended := by
  rw [Deliver, received, List.foldl_append]
  refine (received_steps agents _).trans ?_
  cases ended <;> rfl

theorem exists_received (acts : List Act) :
    ∃ more ended, ∀ r, received r acts = r.later more ended := by
  induction acts with
  | nil => exact ⟨[], false, fun r => r.later_nil.symm⟩
  | cons act acts ih =>
    obtain ⟨more, ended, h⟩ := ih
    cases act with
    | step agent => exact ⟨more, ended, h⟩
    | arrive arrivals =>
      exact ⟨arrivals ++ more, ended, fun r => (h _).trans (r.later_feed arrivals more ended)⟩
    | hangUp => exact ⟨[], true, fun r => (h _).trans (r.later_finish more ended)⟩

end Act

/-- A writer that has written nothing, for a client that takes so many bytes. -/
def Writer.fresh (endpoint : String) (room : Option Nat) : Writer :=
  { endpoint := endpoint, sink := { room := room } }

namespace Service

variable {s s' : Service σ τ}

def start (endpoint : String) (room : Option Nat) (debugger : Debugger) (target : τ)
    (program : List (Item σ)) : Service σ τ where
  sys := .start debugger target program
  writer := .fresh endpoint room

def reader (s : Service σ τ) : Packet.Reader := s.sys.session.reader

def withReader (s : Service σ τ) (reader : Packet.Reader) : Service σ τ :=
  { s with sys := s.sys.withReader reader }

def result? (s : Service σ τ) : Option (Except AdapterError Unit) :=
  match s.sys.session.phase with
  | .ended result => some result
  | _ => none

/-- One step of one agent. The writer takes up one message at a time. -/
def step (host : Host σ τ) : Agent → Service σ τ → Option (Service σ τ)
  | .side .session, s => (s.sys.stepSession host).map fun sys =>
      { s with
        sys := sys
        deeds := s.deeds ++ s.sys.deed?.toList
        entries := s.entries ++ s.sys.sessionEntries
        calls := s.calls ++ s.sys.call?.toList }
  | .side .thread, s => (s.sys.stepThread host).map fun sys =>
      { s with sys := sys, entries := s.entries ++ s.sys.threadEntries sys }
  | .writer, s =>
      if s.writer.state = .writing then
        s.sys.handle.outbox[s.writer.taken]?.map fun m => { s with writer := s.writer.deliver m }
      else none

def play (host : Host σ τ) (s : Service σ τ) : Act → Service σ τ
  | .step agent => (s.step host agent).getD s
  | .arrive arrivals => s.withReader (s.reader.later arrivals false)
  | .hangUp => s.withReader s.reader.finish

def run (host : Host σ τ) (acts : List Act) (s : Service σ τ) : Service σ τ :=
  acts.foldl (play host) s

def Resting (host : Host σ τ) (s : Service σ τ) : Prop := ∀ agent, s.step host agent = none

/-- Some steps of the agents lead from one service to the other. -/
def Works (host : Host σ τ) : Service σ τ → Service σ τ → Prop :=
  Relation.ReflTransGen fun s s' => ∃ agent, s.step host agent = some s'

theorem Works.single {agent : Agent} (h : s.step host agent = some s') : Works host s s' :=
  Relation.ReflTransGen.single ⟨agent, h⟩

-- ---------------------------------------------------------------------------
-- Steps that read
-- ---------------------------------------------------------------------------

def dispatch (s : Service σ τ) (r : Request) : Service σ τ :=
  { s with sys := s.sys.enter (.handling r), deeds := s.deeds ++ [.dispatched r] }

def quit (s : Service σ τ) (found : Packet.Read Json) (result : Except AdapterError Unit) :
    Service σ τ :=
  { s with
    sys := s.sys.enter (.closing .mark (some result))
    deeds := s.deeds ++ (Deed.ofRead found).toList }

section

variable {found : Packet.Read Json} {message : Json} {after : Packet.Reader}

theorem step_of_request {r : Request} (hl : s.sys.Looks)
    (hread : s.reader.readMessage = (.item message, after))
    (hr : System.requestOf? message = some r) :
    s.step host (.side .session) = some ((s.withReader after).dispatch r) := by
  simp [step, System.stepSession_of_request hl.1 hl.2 hread hr, System.deed?_read hl.1 hl.2 hread,
    Deed.ofRead, hr, System.sessionEntries, System.call?, hl.1, dispatch, withReader]

theorem step_of_junk (hl : s.sys.Looks) (hread : s.reader.readMessage = (.item message, after))
    (hr : System.requestOf? message = none) :
    s.step host (.side .session) = some (s.withReader after) := by
  simp [step, System.stepSession_of_junk hl hread hr, System.deed?_read hl.1 hl.2 hread,
    Deed.ofRead, hr, System.sessionEntries, System.call?, hl.1, withReader]

theorem step_of_end {result : Except AdapterError Unit} (hl : s.sys.Looks)
    (hread : s.reader.readMessage = (found, after)) (hend : System.endOf? found = some result) :
    s.step host (.side .session) = some ((s.withReader after).quit found result) := by
  simp [step, System.stepSession_of_end hl.1 hl.2 hread hend, System.deed?_read hl.1 hl.2 hread,
    System.sessionEntries, System.call?, hl.1, quit, withReader]

theorem step_of_blocked (hl : s.sys.Looks) (hread : s.reader.readMessage = (.blocked, after)) :
    s.step host (.side .session) = none := by
  have hread : s.sys.session.reader.readMessage = (.blocked, after) := hread
  simp [step, System.stepSession, hl.1, System.read, hl.2, hread]

end

inductive Finds (r : Packet.Reader) : Prop
  | request {message : Json} {after : Packet.Reader} {q : Request} :
      r.readMessage = (.item message, after) → System.requestOf? message = some q → Finds r
  | junk {message : Json} {after : Packet.Reader} :
      r.readMessage = (.item message, after) → System.requestOf? message = none → Finds r
  | last {found : Packet.Read Json} {after : Packet.Reader} {result : Except AdapterError Unit} :
      r.readMessage = (found, after) → System.endOf? found = some result → Finds r
  | blocked {after : Packet.Reader} : r.readMessage = (.blocked, after) → Finds r

theorem finds (r : Packet.Reader) : Finds r := by
  obtain ⟨found, after, h⟩ : ∃ found after, r.readMessage = (found, after) := ⟨_, _, rfl⟩
  cases found with
  | item message =>
    cases hr : System.requestOf? message with
    | some q => exact .request h hr
    | none => exact .junk h hr
  | malformed e => exact .last h rfl
  | failed text => exact .last h rfl
  | ended => exact .last h rfl
  | blocked => exact .blocked h

theorem ne_blocked_of_end {found : Packet.Read Json} {result : Except AdapterError Unit}
    (h : System.endOf? found = some result) : found ≠ .blocked := by
  rintro rfl
  cases h

theorem ne_item_of_end {found : Packet.Read Json} {result : Except AdapterError Unit}
    (h : System.endOf? found = some result) (j : Json) : found ≠ .item j := by
  rintro rfl
  cases h

-- ---------------------------------------------------------------------------
-- Steps that do not read
-- ---------------------------------------------------------------------------

/-- Whether the next step of an agent depends on the reader. -/
def Reads (s : Service σ τ) (agent : Agent) : Prop := agent = .side .session ∧ s.sys.Looks

theorem step_withReader {agent : Agent} (h : ¬ s.Reads agent) (reader : Packet.Reader) :
    (s.withReader reader).step host agent = (s.step host agent).map (·.withReader reader) := by
  match agent with
  | .side .session =>
    have hl : ¬ s.sys.Looks := fun hl => h ⟨rfl, hl⟩
    simp only [step, withReader, System.stepSession_withReader hl, System.deed?_withReader hl,
      Option.map_map]
    rfl
  | .side .thread =>
    simp only [step, withReader, System.stepThread_withReader, Option.map_map]
    rfl
  | .writer =>
    by_cases hw : s.writer.state = .writing
    · simp only [step, withReader, System.withReader, hw, if_true, Option.map_map]
      rfl
    · simp only [step, withReader, hw, if_false, Option.map_none]

theorem reader_of_step {agent : Agent} (h : ¬ s.Reads agent) (hstep : s.step host agent = some s') :
    s'.reader = s.reader := by
  have hsame : s.step host agent = (s.step host agent).map (·.withReader s.reader) :=
    step_withReader h s.reader
  rw [hstep, Option.map_some, Option.some.injEq] at hsame
  rw [hsame]
  rfl

theorem step_later {agent : Agent} (hstep : s.step host agent = some s')
    (more : List Packet.Arrival) (ended : Bool) :
    (s.withReader (s.reader.later more ended)).step host agent =
      some (s'.withReader (s'.reader.later more ended)) := by
  by_cases h : s.Reads agent
  · obtain ⟨rfl, hl⟩ := h
    have hl' : (s.withReader (s.reader.later more ended)).sys.Looks := hl
    cases finds s.reader with
    | request hread hr =>
      cases (step_of_request hl hread hr).symm.trans hstep
      exact step_of_request hl' (Packet.Reader.readMessage_later hread nofun more ended) hr
    | junk hread hr =>
      cases (step_of_junk hl hread hr).symm.trans hstep
      exact step_of_junk hl' (Packet.Reader.readMessage_later hread nofun more ended) hr
    | last hread hend =>
      cases (step_of_end hl hread hend).symm.trans hstep
      exact step_of_end hl'
        (Packet.Reader.readMessage_later hread (ne_blocked_of_end hend) more ended) hend
    | blocked hread => cases (step_of_blocked hl hread).symm.trans hstep
  · rw [step_withReader h, hstep, reader_of_step h hstep]
    rfl

-- ---------------------------------------------------------------------------
-- Runs
-- ---------------------------------------------------------------------------

theorem run_append (acts more : List Act) (s : Service σ τ) :
    s.run host (acts ++ more) = (s.run host acts).run host more :=
  List.foldl_append

/-- A run takes steps on the stream as it is after the run. -/
theorem works_of_run (host : Host σ τ) (acts : List Act) (s : Service σ τ) :
    Works host (s.withReader (Act.received s.reader acts)) (s.run host acts) := by
  induction acts generalizing s with
  | nil => exact .refl
  | cons act acts ih =>
    cases act with
    | arrive arrivals => exact ih (s.withReader (s.reader.later arrivals false))
    | hangUp => exact ih (s.withReader s.reader.finish)
    | step agent =>
      change Works host (s.withReader (Act.received s.reader acts))
        (((s.step host agent).getD s).run host acts)
      cases hstep : s.step host agent with
      | none => exact ih s
      | some s' =>
        obtain ⟨more, ended, hlater⟩ := Act.exists_received acts
        have hfirst := step_later hstep more ended
        rw [← hlater, ← hlater] at hfirst
        exact .head ⟨agent, hfirst⟩ (ih s')

theorem run_of_works (h : Works host s s') :
    ∃ agents : List Agent, s.run host (agents.map .step) = s' := by
  induction h with
  | refl => exact ⟨[], rfl⟩
  | tail _ hstep ih =>
    obtain ⟨agents, rfl⟩ := ih
    obtain ⟨agent, hstep⟩ := hstep
    refine ⟨agents ++ [agent], ?_⟩
    rw [List.map_append, run_append]
    change (step host agent _).getD _ = _
    rw [hstep, Option.getD_some]

end Service

end DebugAdapter
