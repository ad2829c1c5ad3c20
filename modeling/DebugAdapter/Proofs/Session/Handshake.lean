import DebugAdapter.Proofs.Session.Akin
import DebugAdapter.Session.Connection

/-!
# A handshake, then a session

A connection answers the first packet and hands its reader and its writer over to a session. Nothing
is lost by that and nothing read twice: `handshake_then_session` says that behind the answer the
connection can do just what a session can that has the rest of the stream for its own. Where no
first packet is complete there is no answer and no session.
-/

namespace DebugAdapter

open Protocol

variable {σ τ : Type} {host : Host σ τ}

-- ---------------------------------------------------------------------------
-- First packets
-- ---------------------------------------------------------------------------

namespace Packet

/-- How a connection ends that cannot read its first packet. -/
def Read.result? : Read Bytes → Option (Except AdapterError Unit)
  | .ended => some (.ok ())
  | .failed text => some (.error (.transport text))
  | .malformed e => some (.error (.framing e.reason))
  | .item _ | .blocked => none

end Packet

-- ---------------------------------------------------------------------------
-- Connections that run
-- ---------------------------------------------------------------------------

inductive Connection.Act where
  | greet
  | serve (act : DebugAdapter.Act)

def Connection.Act.served? : Connection.Act → Option DebugAdapter.Act
  | greet => none
  | serve act => some act

namespace Connection

variable {directory : Directory} {endpoint : String} {sys : System σ τ}

def ofService (s : Service σ τ) : Connection σ τ := ⟨.running s.sys, s.writer⟩

/-- Before there is a session, and where there is none, only the stream arrives. -/
def play (host : Host σ τ) (c : Connection σ τ) : Connection.Act → Connection σ τ
  | .greet => c.greet
  | .serve act =>
    match c.stage with
    | .running sys => ofService (({ sys := sys, writer := c.writer } : Service σ τ).play host act)
    | .greeting .. | .over .. => c.revise fun sys => sys.withReader (act.receive sys.session.reader)

def run (host : Host σ τ) (acts : List Connection.Act) (c : Connection σ τ) : Connection σ τ :=
  acts.foldl (play host) c

def Deliver (acts : List Connection.Act) (arrivals : List Packet.Arrival) (ended : Bool) : Prop :=
  DebugAdapter.Act.Deliver (acts.filterMap Act.served?) arrivals ended

def Resting (host : Host σ τ) (c : Connection σ τ) : Prop :=
  match c.stage with
  | .greeting _ sys => sys.session.reader.readPacket.1 = .blocked
  | .running sys => ({ sys := sys, writer := c.writer } : Service σ τ).Resting host
  | .over .. => True

/-- A new connection to a target, on a stream that takes all that is written. -/
def opened (endpoint description : String) (paths : PathCase) (target : τ)
    (program : List (Item σ)) : Connection σ τ where
  stage := .greeting (.single description) (.start (.fresh paths) target program)
  writer := .fresh endpoint none

end Connection

def Directory.answer (directory : Directory) (endpoint : String) : Bytes :=
  Packet.ofJson endpoint (handshakeResponse.encode ⟨true, directory.locations⟩)

-- ---------------------------------------------------------------------------
-- Behind the answer
-- ---------------------------------------------------------------------------

def Writer.behind (front : Bytes) (w : Writer) : Writer :=
  { w with sink := { w.sink with accepted := front ++ w.sink.accepted } }

theorem Writer.deliver_behind (front : Bytes) (w : Writer) (m : Outgoing) :
    (w.behind front).deliver m = (w.deliver m).behind front := by
  obtain ⟨endpoint, ⟨accepted, room, shut⟩, number, taken, state⟩ := w
  cases state with
  | failed | finished => rfl
  | writing =>
    simp only [deliver, behind]
    cases m.json? number with
    | none => rfl
    | some message => cases room <;> simp [write, Packet.Sink.write]

namespace Service

def behind (front : Bytes) (s : Service σ τ) : Service σ τ :=
  { s with writer := s.writer.behind front }

variable {s : Service σ τ}

theorem step_behind (front : Bytes) (s : Service σ τ) (agent : Agent) :
    (s.behind front).step host agent = (s.step host agent).map (·.behind front) := by
  match agent with
  | .side .session =>
    simp only [step, behind, Option.map_map]
    rfl
  | .side .thread =>
    simp only [step, behind, Option.map_map]
    rfl
  | .writer =>
    by_cases hw : s.writer.state = .writing
    · simp only [step, behind, show (s.writer.behind front).state = .writing from hw, hw, if_true,
        Writer.deliver_behind, Option.map_map]
      rfl
    · simp only [step, behind, show (s.writer.behind front).state ≠ .writing from hw, hw, if_false,
        Option.map_none]

theorem play_behind (front : Bytes) (s : Service σ τ) (act : Act) :
    (s.behind front).play host act = (s.play host act).behind front := by
  cases act with
  | arrive arrivals => rfl
  | hangUp => rfl
  | step agent =>
    simp only [play, step_behind]
    cases s.step host agent <;> rfl

theorem run_behind (front : Bytes) (acts : List Act) (s : Service σ τ) :
    (s.behind front).run host acts = (s.run host acts).behind front := by
  induction acts generalizing s with
  | nil => rfl
  | cons act acts ih =>
    rw [run, List.foldl_cons, play_behind]
    exact ih _

theorem resting_behind (front : Bytes) (s : Service σ τ) :
    (s.behind front).Resting host ↔ s.Resting host := by
  simp only [Resting, step_behind, Option.map_eq_none_iff]

/-- What the agents do depends on the system and the writer, and not on the record. -/
theorem step_of_eq (host : Host σ τ) {t : Service σ τ} (hsys : s.sys = t.sys)
    (hw : s.writer = t.writer) (agent : Agent) :
    (s.step host agent).map (fun s => (s.sys, s.writer)) =
      (t.step host agent).map fun s => (s.sys, s.writer) := by
  match agent with
  | .side .session | .side .thread =>
    simp only [step, hsys, hw, Option.map_map]
    rfl
  | .writer =>
    simp only [step, hsys, hw]
    split
    · simp only [Option.map_map]
      rfl
    · rfl

end Service

namespace Connection

theorem play_ofService (s : Service σ τ) (act : DebugAdapter.Act) :
    (ofService s).play host (.serve act) = ofService (s.play host act) := by
  change ofService (({ sys := s.sys, writer := s.writer } : Service σ τ).play host act) = _
  cases act with
  | arrive arrivals => rfl
  | hangUp => rfl
  | step agent =>
    have h := Service.step_of_eq host (s := { sys := s.sys, writer := s.writer }) (t := s)
      rfl rfl agent
    simp only [Service.play]
    cases hs : s.step host agent with
    | none =>
      rw [hs, Option.map_none, Option.map_eq_none_iff] at h
      rw [h]
      rfl
    | some s' =>
      rw [hs, Option.map_some, Option.map_eq_some_iff] at h
      obtain ⟨t, ht, heq⟩ := h
      rw [ht]
      simp only [Prod.mk.injEq] at heq
      simp only [ofService, Option.getD_some, heq]

theorem run_ofService (s : Service σ τ) (acts : List Connection.Act) :
    (ofService s).run host acts = ofService (s.run host (acts.filterMap Act.served?)) := by
  induction acts generalizing s with
  | nil => rfl
  | cons act acts ih =>
    cases act with
    | greet => exact ih s
    | serve act =>
      rw [run, List.foldl_cons, play_ofService]
      exact ih _

theorem resting_ofService (s : Service σ τ) :
    (ofService s).Resting host ↔ s.Resting host := by
  refine forall_congr' fun agent => ?_
  have h := Service.step_of_eq host (s := { sys := s.sys, writer := s.writer }) (t := s)
    rfl rfl agent
  have hnone := congrArg (· = none) h
  simp only [Option.map_eq_none_iff] at hnone
  exact iff_of_eq hnone

-- ---------------------------------------------------------------------------
-- The first packet
-- ---------------------------------------------------------------------------

def begun (endpoint : String) (sys : System σ τ) : Service σ τ where
  sys := sys
  writer := .fresh endpoint none

section

variable {after : Packet.Reader} {body : Bytes}

def greeting (directory : Directory) (endpoint : String) (sys : System σ τ) : Connection σ τ :=
  ⟨.greeting directory sys, .fresh endpoint none⟩

theorem greet_of_item (hd : directory.serves defaultLocation = true)
    (h : sys.session.reader.readPacket = (.item body, after)) :
    (greeting directory endpoint sys).greet =
      ofService ((begun endpoint (sys.withReader after)).behind (directory.answer endpoint)) := by
  simp only [greeting, greet, h, Writer.write, Writer.fresh, Packet.Sink.write, hd, if_true,
    reduceCtorEq, if_false]
  simp [ofService, begun, Service.behind, Writer.behind, Writer.fresh, Directory.answer,
    System.withReader]

theorem greet_of_blocked (h : sys.session.reader.readPacket = (.blocked, after)) :
    (greeting directory endpoint sys).greet =
      greeting directory endpoint (sys.withReader after) := by
  simp only [greeting, greet, h]
  rfl

theorem greet_of_last {found : Packet.Read Bytes} {result : Except AdapterError Unit}
    (h : sys.session.reader.readPacket = (found, after)) (hr : found.result? = some result) :
    (greeting directory endpoint sys).greet =
      ⟨.over (sys.withReader after) result, .fresh endpoint none⟩ := by
  cases found with
  | item | blocked => cases hr
  | ended | failed | malformed =>
    cases hr
    simp only [greeting, greet, h]
    rfl

end

/-- The stream that some acts leave, where nothing is read of it. -/
def received (stream : Packet.Reader) (acts : List Connection.Act) : Packet.Reader :=
  DebugAdapter.Act.received stream (acts.filterMap Act.served?)

theorem run_over (result : Except AdapterError Unit) (w : Writer) (acts : List Connection.Act)
    (sys : System σ τ) :
    (⟨.over sys result, w⟩ : Connection σ τ).run host acts =
      ⟨.over (sys.withReader (received sys.session.reader acts)) result, w⟩ := by
  induction acts generalizing sys with
  | nil => rfl
  | cons act acts ih =>
    cases act with
    | greet => exact ih sys
    | serve act => exact ih (sys.withReader (act.receive sys.session.reader))

theorem run_served (acts : List DebugAdapter.Act) (sys : System σ τ) :
    (greeting directory endpoint sys).run host (acts.map .serve) =
      greeting directory endpoint
        (sys.withReader (DebugAdapter.Act.received sys.session.reader acts)) := by
  induction acts generalizing sys with
  | nil => rfl
  | cons act acts ih => exact ih (sys.withReader (act.receive sys.session.reader))

theorem run_delivery (hs : sys.session.reader = {}) (arrivals : List Packet.Arrival)
    (ended : Bool) :
    (greeting directory endpoint sys).run host
        ((DebugAdapter.Act.delivery arrivals ended).map .serve) =
      greeting directory endpoint (sys.withReader { arrivals := arrivals, ended := ended }) := by
  rw [run_served, hs]
  cases ended <;> rfl

/-- What becomes of a connection is decided by the content of its whole stream. -/
inductive Becomes (host : Host σ τ) (directory : Directory) (endpoint : String) (sys : System σ τ)
    (total : Packet.Content) (c : Connection σ τ) : Prop
  | waits (reader : Packet.Reader) : c = greeting directory endpoint (sys.withReader reader) →
      reader.content = total → Becomes host directory endpoint sys total c
  | serves (body : Bytes) (reader : Packet.Reader) (s : Service σ τ) :
      total.readPacket = (.item body, reader.content) →
      Service.Works host (begun endpoint (sys.withReader reader)) s →
      c = ofService (s.behind (directory.answer endpoint)) →
      Becomes host directory endpoint sys total c
  | ends (reader : Packet.Reader) (result : Except AdapterError Unit) :
      total.readPacket.1.result? = some result →
      c = ⟨.over (sys.withReader reader) result, .fresh endpoint none⟩ →
      Becomes host directory endpoint sys total c

theorem Becomes.of_withReader {total : Packet.Content} {c : Connection σ τ}
    {reader : Packet.Reader}
    (h : Becomes host directory endpoint (sys.withReader reader) total c) :
    Becomes host directory endpoint sys total c := by
  cases h with
  | waits next h hc => exact .waits next h hc
  | serves body next s hc hworks h => exact .serves body next s hc hworks h
  | ends next result hc h => exact .ends next result hc h

theorem becomes_of_run (host : Host σ τ) (hd : directory.serves defaultLocation = true)
    (acts : List Connection.Act) (sys : System σ τ) :
    Becomes host directory endpoint sys (received sys.session.reader acts).content
      ((greeting directory endpoint sys).run host acts) := by
  induction acts generalizing sys with
  | nil => exact .waits sys.session.reader rfl rfl
  | cons act acts ih =>
    cases act with
    | serve act =>
      exact (ih (sys.withReader (act.receive sys.session.reader))).of_withReader
    | greet =>
      obtain ⟨more, ended, hlater⟩ :=
        DebugAdapter.Act.exists_received (acts.filterMap Act.served?)
      obtain ⟨found, after, hread⟩ :
          ∃ found after, sys.session.reader.readPacket = (found, after) := ⟨_, _, rfl⟩
      change Becomes host directory endpoint sys (received sys.session.reader acts).content
        ((greeting directory endpoint sys).greet.run host acts)
      by_cases hb : found = .blocked
      · subst hb
        obtain ⟨hlimit, hsame⟩ := Packet.Reader.content_of_blocked hread
        -- What the read took into the buffer is still there.
        have hc : (received after acts).content = (received sys.session.reader acts).content := by
          rw [received, received, hlater, hlater, Packet.Reader.content_later hlimit,
            Packet.Reader.content_later (hsame ▸ hlimit), hsame]
        rw [greet_of_blocked hread, ← hc]
        exact (ih (sys.withReader after)).of_withReader
      · have htotal := Packet.Reader.readPacket_later hread hb more ended
        rw [← hlater, ← hlater] at htotal
        obtain ⟨hfound, hleft⟩ := Packet.Reader.readPacket_content htotal
        cases hr : found.result? with
        | some result =>
          rw [greet_of_last hread hr, run_over]
          exact .ends _ result (hfound ▸ hr) rfl
        | none =>
          cases found with
          | ended | failed | malformed => cases hr
          | blocked => exact absurd rfl hb
          | item body =>
            rw [greet_of_item hd hread, run_ofService, Service.run_behind]
            exact .serves body _ _ (Prod.ext hfound.symm (hleft nofun).symm)
              (Service.works_of_run host _ (begun endpoint (sys.withReader after))) rfl

theorem Becomes.of_packet {frame : Packet.Frame} {rest : Packet.Content} {c : Connection σ τ}
    (h : Becomes host directory endpoint sys (rest.behind frame.bytes) c) :
    (∃ reader, c = greeting directory endpoint (sys.withReader reader) ∧
      reader.content = rest.behind frame.bytes) ∨
    ∃ reader s, reader.content = rest ∧
      Service.Works host (begun endpoint (sys.withReader reader)) s ∧
      c = ofService (s.behind (directory.answer endpoint)) := by
  cases h with
  | waits reader h hc => exact .inl ⟨reader, h, hc⟩
  | serves body reader s hc hworks h =>
    rw [Packet.Content.readPacket_behind] at hc
    exact .inr ⟨reader, s, (congrArg Prod.snd hc).symm, hworks, h⟩
  | ends reader result hc h =>
    rw [Packet.Content.readPacket_behind] at hc
    cases hc

theorem exists_run (hd : directory.serves defaultLocation = true) {arrivals : List Packet.Arrival}
    {ended : Bool} {body : Bytes} {after : Packet.Reader} (hs : sys.session.reader = {})
    (hread : Packet.Reader.readPacket { arrivals := arrivals, ended := ended } =
      (.item body, after))
    {s : Service σ τ} (hworks : Service.Works host (begun endpoint (sys.withReader after)) s) :
    ∃ acts, Deliver acts arrivals ended ∧
      (greeting directory endpoint sys).run host acts =
        ofService (s.behind (directory.answer endpoint)) := by
  have served (acts : List DebugAdapter.Act) :
      (acts.map Connection.Act.serve).filterMap Act.served? = acts := by
    rw [List.filterMap_map]
    exact List.filterMap_some
  obtain ⟨agents, rfl⟩ := Service.run_of_works hworks
  refine ⟨(DebugAdapter.Act.delivery arrivals ended).map .serve ++
    .greet :: (agents.map .step).map .serve, ?_, ?_⟩
  · rw [Deliver, List.filterMap_append, List.filterMap_cons_none rfl, served, served]
    exact DebugAdapter.Act.deliver_delivery_steps arrivals ended agents
  · have hgreet : (greeting directory endpoint
        (sys.withReader { arrivals := arrivals, ended := ended })).greet =
          ofService ((begun endpoint (sys.withReader after)).behind (directory.answer endpoint)) :=
      greet_of_item hd hread
    rw [run, List.foldl_append]
    change (((greeting directory endpoint sys).run host
      ((DebugAdapter.Act.delivery arrivals ended).map .serve)).greet).run host _ = _
    rw [run_delivery hs, hgreet, run_ofService, served, Service.run_behind]

-- ---------------------------------------------------------------------------
-- Connections and services
-- ---------------------------------------------------------------------------

/-- Nothing has happened yet, except that the stream arrives. -/
structure Waits (opened c : Connection σ τ) : Prop where
  stage : ∃ directory sys, c.stage = .greeting directory sys ∧
    sys.withReader {} = opened.system.withReader {}
  writer : c.writer = opened.writer

/-- The connection has answered, and looks like a session that has not: what it shows, what it has
written behind the answer, and how it has ended. -/
structure LooksLike (answer : Bytes) (v : Service σ τ) (c : Connection σ τ) : Prop where
  stage : ∃ sys, c.stage = .running sys ∧ sys.withReader {} = v.sys
  writer : c.writer = v.writer.behind answer
  result : c.result? = v.result?

theorem looksLike_ofService (answer : Bytes) (s : Service σ τ) :
    LooksLike answer s.view (ofService (s.behind answer)) where
  stage := ⟨s.sys, rfl, rfl⟩
  writer := rfl
  result := rfl

/-- Behind an answer, a connection on one stream is a session on another one: it shows the same on
its way and at rest. -/
structure ServesAs (host : Host σ τ) (answer : Bytes) (opened : Connection σ τ)
    (arrivals : List Packet.Arrival) (ended : Bool) (s : Service σ τ)
    (arrivals' : List Packet.Arrival) (ended' : Bool) : Prop where
  shows {acts : List Connection.Act} : Deliver acts arrivals ended →
    Waits opened (opened.run host acts) ∨
      ∃ v, s.Shows host arrivals' ended' v ∧ LooksLike answer v (opened.run host acts)
  settles {acts : List Connection.Act} : Deliver acts arrivals ended →
    (opened.run host acts).Resting host →
      ∃ v, s.Settles host arrivals' ended' v ∧ LooksLike answer v (opened.run host acts)
  shown {v : Service σ τ} : s.Shows host arrivals' ended' v →
    ∃ acts, Deliver acts arrivals ended ∧ LooksLike answer v (opened.run host acts)
  settled {v : Service σ τ} : s.Settles host arrivals' ended' v →
    ∃ acts, Deliver acts arrivals ended ∧ (opened.run host acts).Resting host ∧
      LooksLike answer v (opened.run host acts)

/-- A connection without a session: nothing is written, and nothing happens to the target. -/
structure Unserved (host : Host σ τ) (found : Packet.Read Bytes) (opened c : Connection σ τ) :
    Prop where
  stage : ∀ sys, c.stage ≠ .running sys
  system : c.system.withReader {} = opened.system.withReader {}
  writer : c.writer = opened.writer
  result : c.result? = none ∨ c.result? = found.result?
  rest : c.Resting host → c.result? = found.result?

section

variable {arrivals arrivals' : List Packet.Arrival} {ended ended' : Bool}

theorem becomes_of_deliver (host : Host σ τ) (hd : directory.serves defaultLocation = true)
    (hs : sys.session.reader = {}) {acts : List Connection.Act}
    (hdeliver : Deliver acts arrivals ended) :
    Becomes host directory endpoint sys (Packet.Content.ofArrivals ended arrivals)
      ((greeting directory endpoint sys).run host acts) := by
  have h : Becomes host directory endpoint sys (received sys.session.reader acts).content _ :=
    becomes_of_run host hd acts sys
  rw [received, hs, hdeliver] at h
  exact h

theorem servesAs_of_content (hd : directory.serves defaultLocation = true)
    (hs : sys.session.reader = {}) {frame : Packet.Frame} {rest : Packet.Content}
    (stream : Packet.Content.ofArrivals ended arrivals = rest.behind frame.bytes)
    (stream' : Packet.Content.ofArrivals ended' arrivals' = rest) :
    ServesAs host (directory.answer endpoint) (greeting directory endpoint sys) arrivals ended
      (begun endpoint sys) arrivals' ended' := by
  have hreader : (begun endpoint sys).reader = {} := hs
  have hakin {reader : Packet.Reader} (h : reader.content = rest) :
      reader.Akin { arrivals := arrivals', ended := ended' } :=
    Packet.Reader.akin_of_content (h.trans stream'.symm)
  obtain ⟨after, hread, hafter⟩ := Packet.Reader.exists_readPacket
    (r := { arrivals := arrivals, ended := ended }) stream
  have hbecomes {acts : List Connection.Act} (hdeliver : Deliver acts arrivals ended) :
      Becomes host directory endpoint sys (rest.behind frame.bytes)
        ((greeting directory endpoint sys).run host acts) :=
    stream ▸ becomes_of_deliver host hd hs hdeliver
  refine ⟨fun hdeliver => ?_, fun hdeliver hrest => ?_, fun hv => ?_, fun hv => ?_⟩
  · obtain ⟨reader, h, -⟩ | ⟨reader, s, hc, hworks, h⟩ := (hbecomes hdeliver).of_packet
    · rw [h]
      exact .inl ⟨⟨_, _, rfl, rfl⟩, rfl⟩
    · rw [h]
      exact .inr ⟨s.view, Service.shows_of_works hreader (hakin hc) hworks,
        looksLike_ofService _ s⟩
  · obtain ⟨reader, h, hc⟩ | ⟨reader, s, hc, hworks, h⟩ := (hbecomes hdeliver).of_packet
    · rw [h] at hrest
      obtain ⟨after, hread, -⟩ := Packet.Reader.exists_readPacket hc
      cases (congrArg Prod.fst hread).symm.trans hrest
    · rw [h, resting_ofService, Service.resting_behind] at hrest
      rw [h]
      exact ⟨s.view, Service.settles_of_works hreader (hakin hc) hworks hrest,
        looksLike_ofService _ s⟩
  · obtain ⟨t, hworks, rfl⟩ := Service.works_of_shows hreader (hakin hafter).symm hv
    obtain ⟨acts, hdeliver, hrun⟩ := exists_run hd hs hread hworks
    refine ⟨acts, hdeliver, ?_⟩
    rw [hrun]
    exact looksLike_ofService _ t
  · obtain ⟨t, hworks, hrest, rfl⟩ := Service.works_of_settles hreader (hakin hafter).symm hv
    obtain ⟨acts, hdeliver, hrun⟩ := exists_run hd hs hread hworks
    refine ⟨acts, hdeliver, ?_, ?_⟩
    · rw [hrun, resting_ofService, Service.resting_behind]
      exact hrest
    · rw [hrun]
      exact looksLike_ofService _ t

theorem unserved_of_content (hd : directory.serves defaultLocation = true)
    (hs : sys.session.reader = {}) {found : Packet.Read Bytes}
    (nothing : (Packet.Content.ofArrivals ended arrivals).readPacket.1 = found)
    (hi : ∀ body, found ≠ .item body) {acts : List Connection.Act}
    (hdeliver : Deliver acts arrivals ended) :
    Unserved host found (greeting directory endpoint sys)
      ((greeting directory endpoint sys).run host acts) := by
  subst nothing
  obtain ⟨reader, h, hc⟩ | ⟨body, reader, s, hc, hworks, h⟩ | ⟨reader, result, hc, h⟩ :=
    becomes_of_deliver host hd hs hdeliver
  · rw [h]
    refine ⟨fun _ => (nomatch ·), rfl, rfl, .inl rfl, fun hrest => ?_⟩
    have hread : reader.readPacket = (.blocked, reader.readPacket.2) := Prod.ext hrest rfl
    rw [← hc, ← (Packet.Reader.readPacket_content hread).1]
    rfl
  · exact absurd (congrArg Prod.fst hc) (hi body)
  · rw [h]
    exact ⟨fun _ => (nomatch ·), rfl, rfl, .inr hc.symm, fun _ => hc.symm⟩

end

/-- The first packet may have any body, and what arrives may be cut into chunks anywhere; it may end
in a failure, or be still open. -/
theorem handshake_then_session (host : Host σ τ) (endpoint description : String) (paths : PathCase)
    (target : τ) (program : List (Item σ)) (arrivals : List Packet.Arrival) (ended : Bool) :
    (∀ {frame : Packet.Frame} {rest : Packet.Content} {arrivals' : List Packet.Arrival}
        {ended' : Bool},
      Packet.Content.ofArrivals ended arrivals = rest.behind frame.bytes →
      Packet.Content.ofArrivals ended' arrivals' = rest →
        ServesAs host ((Directory.single description).answer endpoint)
          (opened endpoint description paths target program) arrivals ended
          (.start endpoint none (.fresh paths) target program) arrivals' ended') ∧
      ∀ {found : Packet.Read Bytes},
        (Packet.Content.ofArrivals ended arrivals).readPacket.1 = found →
        (∀ body, found ≠ .item body) →
        ∀ {acts : List Connection.Act}, Deliver acts arrivals ended →
          Unserved host found (opened endpoint description paths target program)
            ((opened endpoint description paths target program).run host acts) :=
  ⟨servesAs_of_content rfl rfl, unserved_of_content rfl rfl⟩

def helloFrame : Packet.Frame := .ofText "hello" (by decide +kernel)

def threadsFrame : Packet.Frame :=
  .ofText "\x7b\"seq\":1,\"type\":\"request\",\"command\":\"threads\"\x7d" (by decide +kernel)

/-- The client greets with no JSON, and sends a request with the end of that. -/
def helloArrivals : List Packet.Arrival :=
  [.chunk (helloFrame.bytes.take 9), .chunk (helloFrame.bytes.drop 9 ++ threadsFrame.bytes)]

def demoOpened : Connection Scripted.Stack OneShot :=
  opened "/dap" "demo" .sensitive {} [.stop { reason := "pause" } tableStack]

/-- The other client hangs up within its first header. -/
theorem handshake_then_session_hello :
    Packet.Content.ofArrivals true helloArrivals =
        Packet.Content.behind helloFrame.bytes ⟨threadsFrame.bytes, .done⟩ ∧
      ServesAs scriptedHost ((Directory.single "demo").answer "/dap") demoOpened helloArrivals true
        (.start "/dap" none (.fresh .sensitive) {} [.stop { reason := "pause" } tableStack])
        [.chunk threadsFrame.bytes] true ∧
      Unserved scriptedHost .ended demoOpened
        (demoOpened.run scriptedHost [.serve (.arrive [.chunk "Content-Len".toUTF8.toList]),
          .greet, .serve .hangUp, .greet]) := by
  have stream : Packet.Content.ofArrivals true helloArrivals =
      Packet.Content.behind helloFrame.bytes ⟨threadsFrame.bytes, .done⟩ := by
    simp only [helloArrivals, Packet.Content.ofArrivals, Packet.Content.behind, if_true,
      List.append_nil]
    rw [← List.append_assoc, List.take_append_drop]
  have rest : Packet.Content.ofArrivals true [.chunk threadsFrame.bytes] =
      ⟨threadsFrame.bytes, .done⟩ := by
    simp [Packet.Content.ofArrivals, Packet.Content.behind]
  have nothing : (Packet.Content.ofArrivals true
      [.chunk "Content-Len".toUTF8.toList]).readPacket.1 = .ended := by decide +kernel
  refine ⟨stream, (handshake_then_session scriptedHost "/dap" "demo" .sensitive {} _ _ true).1
    stream rest, ?_⟩
  exact (handshake_then_session scriptedHost "/dap" "demo" .sensitive {} _ _ true).2
    nothing (by simp) rfl

end Connection

end DebugAdapter
