import DebugAdapter.Proofs.Interpreter.Scripted
import DebugAdapter.Proofs.Session.Parking

/-!
# One response to each request

The client's stream holds requests and other things. However the session, the thread of the
interpreter and the client interleave, the responses that are sent belong to the first requests of
the stream, one to each and in order, and when nothing moves any more none is owed: either all
requests are answered, or the last one that was has closed the session.
-/

namespace DebugAdapter

open Protocol

variable {σ τ : Type} {host : Host σ τ}

-- ---------------------------------------------------------------------------
-- Requests
-- ---------------------------------------------------------------------------

def Packet.Reader.requests (r : Packet.Reader) : List Request :=
  r.messages.filterMap System.requestOf?

-- ---------------------------------------------------------------------------
-- Replies
-- ---------------------------------------------------------------------------

/-- An outcome that answers a request. It closes the session where the client asked to disconnect
or an error is more than a violation of the contract. -/
structure Replies (q : Request) (o : Outcome) : Prop where
  kind : o.response.kind = .response
  requestSeq : o.response.requestSeq = q.seq
  command : o.response.command = q.command
  success : o.response.success = true →
    o.response.message = none ∧ (o.closes = true ↔ q.command = "disconnect")
  failure : o.response.success = false → o.response.body = none ∧
    (Demand.of? q = none ∧ o.response.message = some "unsupported command" ∧ o.closes = false ∨
      ∃ e : AdapterError, o.response.message = some e.message ∧ o.closes = !e.isContractViolation)

theorem replies_accept {q : Request} {body : Option Json} {events : List Event}
    {release : Option Nat} {closes : Bool} (h : closes = true ↔ q.command = "disconnect") :
    Replies q { response := q.accept body, events := events, release := release,
                closes := closes } where
  kind := rfl
  requestSeq := rfl
  command := rfl
  success _ := ⟨rfl, h⟩
  failure := nofun

theorem replies_refuse (q : Request) (e : AdapterError) :
    Replies q { response := q.refuse e.message, closes := !e.isContractViolation } where
  kind := rfl
  requestSeq := rfl
  command := rfl
  success := nofun
  failure _ := ⟨rfl, .inr ⟨e, rfl, rfl⟩⟩

theorem replies_unknown {q : Request} (h : Demand.of? q = none) :
    Replies q { response := q.refuse "unsupported command" } where
  kind := rfl
  requestSeq := rfl
  command := rfl
  success := nofun
  failure _ := ⟨rfl, .inl ⟨h, rfl, rfl⟩⟩

-- ---------------------------------------------------------------------------
-- Traces
-- ---------------------------------------------------------------------------

def System.outcome? (sys : System σ τ) : Move → Option Outcome
  | .step .session =>
    match sys.session.phase with
    | .answering o => some o
    | _ => none
  | .step .thread | .arrive _ | .hangUp => none

/-- The stream that a move leaves where nothing is read of it. -/
def Move.receive (stream : Packet.Reader) : Move → Packet.Reader
  | .step _ => stream
  | .arrive arrivals => stream.later arrivals false
  | .hangUp => stream.finish

/-- A system that runs, all that has arrived for it, and the outcomes that it sent. -/
structure Trace (σ τ : Type) where
  sys : System σ τ
  inbound : Packet.Reader := {}
  outcomes : List Outcome := []

namespace Trace

def play (host : Host σ τ) (t : Trace σ τ) (move : Move) : Trace σ τ where
  sys := t.sys.play host move
  inbound := move.receive t.inbound
  outcomes := t.outcomes ++ (t.sys.outcome? move).toList

theorem outcome?_eq_none {sys : System σ τ} (h : ∀ o, sys.session.phase ≠ .answering o) :
    sys.outcome? (.step .session) = none := by
  cases hp : sys.session.phase with
  | answering o => exact absurd hp (h o)
  | _ => simp only [System.outcome?, hp]

theorem outcome?_of_waiting {sys : System σ τ} {side : Side} (h : sys.step host side = none) :
    sys.outcome? (.step side) = none := by
  cases side with
  | thread => rfl
  | session =>
    refine outcome?_eq_none fun o ho => ?_
    simp only [System.step, System.stepSession, ho] at h
    cases h

def later (t : Trace σ τ) (as : List Packet.Arrival) (ended : Bool) : Trace σ τ where
  sys := t.sys.withReader (t.sys.session.reader.later as ended)
  inbound := t.inbound.later as ended
  outcomes := t.outcomes

theorem play_arrive (host : Host σ τ) (t : Trace σ τ) (arrivals : List Packet.Arrival) :
    t.play host (.arrive arrivals) = t.later arrivals false := by
  simp only [play, later, System.play_arrive, Move.receive, System.outcome?, Option.toList_none,
    List.append_nil]

theorem play_hangUp (host : Host σ τ) (t : Trace σ τ) :
    t.play host .hangUp = t.later [] true := by
  simp only [play, later, System.play_hangUp, Move.receive, System.outcome?, Option.toList_none,
    List.append_nil, Packet.Reader.finish_eq_later]

theorem play_thread (t : Trace σ τ) :
    t.play host (.step .thread) = { t with sys := t.sys.play host (.step .thread) } :=
  congrArg (Trace.mk _ _) (List.append_nil _)

def recorder (host : Host σ τ) : Recorder host (Trace σ τ) where
  sys := Trace.sys
  play := play host
  sys_play _ _ := rfl
  play_waiting h := by
    simp only [play, System.play_waiting h, Move.receive, outcome?_of_waiting h,
      Option.toList_none, List.append_nil]

def run (host : Host σ τ) (moves : List Move) (t : Trace σ τ) : Trace σ τ :=
  (recorder host).run moves t

-- ---------------------------------------------------------------------------
-- What is owed
-- ---------------------------------------------------------------------------

def Open (outcomes : List Outcome) : Prop := ∀ o ∈ outcomes, o.closes = false

/-- The last outcome has closed the session, and no other. -/
def Shut (outcomes : List Outcome) : Prop :=
  ∃ before o, outcomes = before ++ [o] ∧ Open before ∧ o.closes = true

/-- Some requests were read, and the others are still in the reader, whatever arrives later. -/
def Unread (t : Trace σ τ) (taken : List Request) : Prop :=
  ∀ more ended, (t.inbound.later more ended).requests =
    taken ++ (t.sys.session.reader.later more ended).requests

def Spent (t : Trace σ τ) (taken : List Request) : Prop :=
  ∀ more ended, (t.inbound.later more ended).requests = taken

/-- How the answered requests stand to the stream and the outcomes in each phase. -/
def Standing (t : Trace σ τ) (answered : List Request) : Session.Phase → Prop
  | .reading => (if t.sys.handle.closed then Shut t.outcomes else Open t.outcomes) ∧
      t.Unread answered
  | .handling r => t.sys.handle.closed = false ∧ Open t.outcomes ∧ t.Unread (answered ++ [r])
  | .asking r _ | .scheduling r _ _ | .awaiting r | .resuming r _ | .deciding r _ _ =>
    r.command ≠ "disconnect" ∧ t.sys.handle.closed = false ∧ Open t.outcomes ∧
      t.Unread (answered ++ [r])
  | .answering o => ∃ r, Replies r o ∧ t.sys.handle.closed = false ∧ Open t.outcomes ∧
      t.Unread (answered ++ [r])
  | .following _ _ closes => t.sys.handle.closed = false ∧
      (if closes then Shut t.outcomes else Open t.outcomes) ∧ t.Unread answered
  | .closing step none => (step = .mark ∨ t.sys.handle.closed = true) ∧ Shut t.outcomes ∧
      t.Unread answered
  | .closing _ (some _) | .disconnecting _ | .finishing _ | .ended _ =>
    Shut t.outcomes ∧ t.Unread answered ∨ Open t.outcomes ∧ t.Spent answered

structure Ledger (t : Trace σ τ) : Prop where
  sent : t.sys.handle.responses = t.outcomes.map (·.response)
  standing : ∃ answered, List.Forall₂ Replies answered t.outcomes ∧
    t.Standing answered t.sys.session.phase

variable {t : Trace σ τ}

theorem ledger_start (debugger : Debugger) (target : τ) (program : List (Item σ)) :
    Ledger { sys := .start debugger target program : Trace σ τ } where
  sent := rfl
  standing := ⟨[], .nil, ⟨nofun, fun _ _ => rfl⟩⟩

theorem Standing.mono {t' : Trace σ τ} (ho : t'.outcomes = t.outcomes)
    (hc : t'.sys.handle.closed = t.sys.handle.closed)
    (hu : ∀ taken, t.Unread taken → t'.Unread taken) (hs : ∀ taken, t.Spent taken → t'.Spent taken)
    {answered : List Request} {phase : Session.Phase} (h : t.Standing answered phase) :
    t'.Standing answered phase := by
  cases phase with
  | reading =>
    obtain ⟨h, hr⟩ := h
    exact ⟨by rw [hc, ho]; exact h, hu _ hr⟩
  | handling r =>
    obtain ⟨hcl, hop, hr⟩ := h
    exact ⟨hc.trans hcl, ho ▸ hop, hu _ hr⟩
  | asking r | scheduling r | awaiting r | resuming r | deciding r =>
    obtain ⟨hcmd, hcl, hop, hr⟩ := h
    exact ⟨hcmd, hc.trans hcl, ho ▸ hop, hu _ hr⟩
  | answering o =>
    obtain ⟨r, hreply, hcl, hop, hr⟩ := h
    exact ⟨r, hreply, hc.trans hcl, ho ▸ hop, hu _ hr⟩
  | following events release closes =>
    obtain ⟨hcl, h, hr⟩ := h
    exact ⟨hc.trans hcl, by rw [ho]; exact h, hu _ hr⟩
  | closing step result =>
    cases result with
    | none =>
      obtain ⟨h, hsh, hr⟩ := h
      exact ⟨by rw [hc]; exact h, ho ▸ hsh, hu _ hr⟩
    | some result => exact h.imp (fun h => ⟨ho ▸ h.1, hu _ h.2⟩) fun h => ⟨ho ▸ h.1, hs _ h.2⟩
  | disconnecting | finishing | ended =>
    exact h.imp (fun h => ⟨ho ▸ h.1, hu _ h.2⟩) fun h => ⟨ho ▸ h.1, hs _ h.2⟩

-- ---------------------------------------------------------------------------
-- The stream and the thread
-- ---------------------------------------------------------------------------

theorem Ledger.later (h : t.Ledger) (as : List Packet.Arrival) (ended : Bool) :
    (t.later as ended).Ledger := by
  obtain ⟨hsent, answered, hall, hst⟩ := h
  refine ⟨hsent, answered, hall, ?_⟩
  show (t.later as ended).Standing answered t.sys.session.phase
  refine Standing.mono (t := t) ?sent ?closed ?unread ?spent hst
  case sent | closed => rfl
  all_goals
    intro taken h more next
    obtain ⟨more', next', hlater⟩ := Packet.Reader.exists_later as more ended next
  case unread =>
    rw [Trace.later, hlater]
    exact (h more' next').trans (by rw [← hlater]; rfl)
  case spent =>
    rw [Trace.later, hlater]
    exact h more' next'

theorem Ledger.thread {sys : System σ τ} (h : t.Ledger) (hstep : System.ThreadStep host t.sys sys) :
    ({ t with sys := sys } : Trace σ τ).Ledger := by
  obtain ⟨hsent, answered, hall, hst⟩ := h
  obtain ⟨hsession, hclosed, -⟩ := hstep.outside
  refine ⟨hstep.responses_eq.trans hsent, answered, hall, ?_⟩
  rw [hsession]
  refine Standing.mono (t := t) ?sent ?closed ?unread ?spent hst
  case sent => rfl
  case closed => exact hclosed
  case unread =>
    intro taken hu more ended
    rw [hsession]
    exact hu more ended
  case spent => exact fun _ hs => hs

-- ---------------------------------------------------------------------------
-- The session
-- ---------------------------------------------------------------------------

theorem Unread.spent {taken : List Request} (h : t.Unread taken) {found : Packet.Read Json}
    {reader : Packet.Reader} {result : Except AdapterError Unit}
    (hread : t.sys.session.reader.readMessage = (found, reader))
    (hend : System.endOf? found = some result) : t.Spent taken := by
  intro more ended
  have hb : found ≠ .blocked := by rintro rfl; cases hend
  have hi (j : Json) : found ≠ .item j := by rintro rfl; cases hend
  rw [h more ended, Packet.Reader.requests, Packet.Reader.messages_of_end hread hb hi]
  exact List.append_nil _

theorem Unread.skip {taken : List Request} (h : t.Unread taken) {message : Json}
    {reader : Packet.Reader} (hread : t.sys.session.reader.readMessage = (.item message, reader))
    (hreq : System.requestOf? message = none) :
    ({ t with sys := t.sys.withReader reader } : Trace σ τ).Unread taken := by
  intro more ended
  refine (h more ended).trans ?_
  rw [Packet.Reader.requests, Packet.Reader.messages_of_item hread, List.filterMap_cons_none hreq]
  rfl

theorem Unread.begin {taken : List Request} (h : t.Unread taken) {message : Json}
    {reader : Packet.Reader} {r : Request}
    (hread : t.sys.session.reader.readMessage = (.item message, reader))
    (hreq : System.requestOf? message = some r) :
    ({ t with sys := t.sys.withReader reader } : Trace σ τ).Unread (taken ++ [r]) := by
  intro more ended
  refine (h more ended).trans ?_
  rw [Packet.Reader.requests, Packet.Reader.messages_of_item hread, List.filterMap_cons_some hreq,
    List.append_assoc]
  rfl

theorem shut_or_open {outcomes : List Outcome} (h : Open outcomes) (o : Outcome) :
    if o.closes then Shut (outcomes ++ [o]) else Open (outcomes ++ [o]) := by
  split
  · exact ⟨outcomes, o, rfl, h, ‹_›⟩
  · intro o' ho'
    obtain ho' | ho' := List.mem_append.1 ho'
    · exact h o' ho'
    · rw [List.mem_singleton.1 ho']
      exact Bool.eq_false_iff.2 ‹_›

section

variable {sys : System σ τ} {r : Request} {result : Option (Except AdapterError Unit)} {h' : Handle}

theorem Ledger.quiet (h : t.Ledger) (hsent : sys.handle.responses = t.sys.handle.responses)
    (hstanding : ∀ answered, t.Standing answered t.sys.session.phase →
      ({ t with sys := sys } : Trace σ τ).Standing answered sys.session.phase) :
    ({ t with sys := sys } : Trace σ τ).Ledger := by
  obtain ⟨hsent', answered, hall, hst⟩ := h
  exact ⟨hsent.trans hsent', answered, hall, hstanding answered hst⟩

theorem Ledger.shut (h : t.Ledger) (hp : t.sys.session.phase = .reading)
    (hc : t.sys.handle.closed = true) :
    Ledger { t with sys := t.sys.enter (.closing .mark (some (.ok ()))) } := by
  refine h.quiet rfl fun answered hst => ?_
  rw [hp] at hst
  obtain ⟨hshut, hunread⟩ := hst
  rw [hc] at hshut
  exact .inl ⟨hshut, hunread⟩

theorem Ledger.quit {found : Packet.Read Json} {reader : Packet.Reader}
    {result : Except AdapterError Unit} (h : t.Ledger) (hp : t.sys.session.phase = .reading)
    (hc : t.sys.handle.closed = false) (hread : t.sys.session.reader.readMessage = (found, reader))
    (hend : System.endOf? found = some result) :
    Ledger { t with sys := (t.sys.withReader reader).enter (.closing .mark (some result)) } := by
  refine h.quiet rfl fun answered hst => ?_
  rw [hp] at hst
  obtain ⟨hopen, hunread⟩ := hst
  rw [hc] at hopen
  exact .inr ⟨hopen, hunread.spent hread hend⟩

theorem Ledger.skip {message : Json} {reader : Packet.Reader} (h : t.Ledger)
    (hp : t.sys.session.phase = .reading)
    (hread : t.sys.session.reader.readMessage = (.item message, reader))
    (hreq : System.requestOf? message = none) :
    Ledger { t with sys := t.sys.withReader reader } := by
  refine h.quiet rfl fun answered hst => ?_
  rw [hp] at hst
  obtain ⟨hopen, hunread⟩ := hst
  show Standing _ _ t.sys.session.phase
  rw [hp]
  exact ⟨hopen, hunread.skip hread hreq⟩

theorem Ledger.begin {message : Json} {reader : Packet.Reader} (h : t.Ledger)
    (hp : t.sys.session.phase = .reading) (hc : t.sys.handle.closed = false)
    (hread : t.sys.session.reader.readMessage = (.item message, reader))
    (hreq : System.requestOf? message = some r) :
    Ledger { t with sys := (t.sys.withReader reader).enter (.handling r) } := by
  refine h.quiet rfl fun answered hst => ?_
  rw [hp] at hst
  obtain ⟨hopen, hunread⟩ := hst
  rw [hc] at hopen
  exact ⟨hc, hopen, hunread.begin hread hreq⟩

theorem Ledger.takeUp (h : t.Ledger) (hp : t.sys.session.phase = .handling r) :
    Ledger { t with sys := t.sys.takeUp host r } := by
  obtain ⟨debugger, target, disconnected, phase, heq, -, hphase⟩ := System.takeUp_cases host t.sys r
  rw [heq]
  refine h.quiet rfl fun answered hst => ?_
  rw [hp] at hst
  cases hphase with
  | granted hcloses => exact ⟨r, replies_accept hcloses, hst⟩
  | refused e => exact ⟨r, replies_refuse r e, hst⟩
  | unknown hd => exact ⟨r, replies_unknown hd, hst⟩
  | inspect hne => exact ⟨hne, hst⟩
  | resume hne => exact ⟨hne, hst⟩

theorem Ledger.conclude {o : Outcome} (h : t.Ledger)
    (hp : ∀ answered, t.Standing answered t.sys.session.phase → r.command ≠ "disconnect" ∧
      t.sys.handle.closed = false ∧ Open t.outcomes ∧ t.Unread (answered ++ [r]))
    (hsent : h'.responses = t.sys.handle.responses) (hclosed : h'.closed = t.sys.handle.closed)
    (reply : Option (Except AdapterError Json)) (ho : r.command ≠ "disconnect" → Replies r o) :
    Ledger { t with
      sys := { t.sys with handle := h', reply := reply }.enter (.answering o) } := by
  refine h.quiet hsent fun answered hst => ?_
  obtain ⟨hne, hc, hst⟩ := hp answered hst
  exact ⟨r, ho hne, hclosed.trans hc, hst⟩

theorem Ledger.answer {o : Outcome} (h : t.Ledger) (hp : t.sys.session.phase = .answering o) :
    Ledger { t with
      sys := { t.sys with handle := t.sys.handle.post (.response o.response) }.enter
        (.following o.events o.release o.closes)
      outcomes := t.outcomes ++ [o] } := by
  obtain ⟨hsent, answered, hall, hst⟩ := h
  rw [hp] at hst
  obtain ⟨r, hreply, hc, hopen, hunread⟩ := hst
  refine ⟨?_, answered ++ [r], ?_, hc, shut_or_open hopen o, hunread⟩
  · simp [System.enter, hsent]
  · exact List.rel_append hall (.cons hreply .nil)

theorem Ledger.closing {step next : Closing} (h : t.Ledger)
    (hp : t.sys.session.phase = .closing step result)
    (hsent : h'.responses = t.sys.handle.responses)
    (hclosed : step = .mark ∨ t.sys.handle.closed = true → h'.closed = true) :
    Ledger { t with sys := { t.sys with handle := h' }.enter (.closing next result) } := by
  refine h.quiet hsent fun answered hst => ?_
  rw [hp] at hst
  cases result with
  | none =>
    obtain ⟨hc, hst⟩ := hst
    exact ⟨.inr (hclosed hc), hst⟩
  | some result => exact hst

theorem Ledger.closed {step : Closing} (h : t.Ledger)
    (hp : t.sys.session.phase = .closing step result)
    (hsent : h'.responses = t.sys.handle.responses)
    (hclosed : step = .mark ∨ t.sys.handle.closed = true → h'.closed = true) :
    Ledger { t with sys := { t.sys with handle := h' }.closed result } := by
  cases result with
  | none =>
    refine h.quiet hsent fun answered hst => ?_
    rw [hp] at hst
    obtain ⟨hc, hshut, hunread⟩ := hst
    refine ⟨?_, hunread⟩
    show if h'.closed then _ else _
    rw [hclosed hc]
    exact hshut
  | some result =>
    refine h.quiet hsent fun answered hst => ?_
    rw [hp] at hst
    exact hst

theorem Ledger.session_quiet (h : t.Ledger) (hstep : System.SessionStep host t.sys sys)
    (hans : ∀ o, t.sys.session.phase ≠ .answering o) : Ledger { t with sys := sys } := by
  cases hstep with
  | shut hp hc => exact h.shut hp hc
  | quit hp hc hread hend => exact h.quit hp hc hread hend
  | skip hp hc hread hreq => exact h.skip hp hread hreq
  | begin hp hc hread hreq => exact h.begin hp hc hread hreq
  | takeUp hp => exact h.takeUp hp
  | ask hp | resume hp | letGo hp | disconnect hp =>
    refine h.quiet rfl fun answered hst => ?_
    rw [hp] at hst
    exact hst
  | schedule hp hs =>
    obtain ⟨hcs, hrs⟩ := Handle.schedule_outside hs
    refine h.quiet (Handle.responses_congr hrs) fun answered hst => ?_
    rw [hp] at hst
    obtain ⟨hne, hc, hst⟩ := hst
    exact ⟨hne, hcs.trans hc, hst⟩
  | askInVain hp | scheduleInVain hp | passError hp | resumeInVain hp | decideInVain hp =>
    exact h.conclude (fun answered hst => by rwa [hp] at hst) rfl rfl _ fun _ => replies_refuse _ _
  | pass hp =>
    exact h.conclude (fun answered hst => by rwa [hp] at hst) rfl rfl _ fun hne =>
      replies_accept (by simp [hne])
  | decide hp hd =>
    obtain ⟨hcd, hrd⟩ := Handle.decide_outside hd
    exact h.conclude (fun answered hst => by rwa [hp] at hst) (Handle.responses_congr hrd) hcd _
      fun hne => replies_accept (by simp [hne])
  | answer hp => exact absurd hp (hans _)
  | follow hp =>
    refine h.quiet (Handle.responses_post_event _) fun answered hst => ?_
    rw [hp] at hst
    exact hst
  | close hp =>
    refine h.quiet rfl fun answered hst => ?_
    rw [hp] at hst
    obtain ⟨-, hshut, hunread⟩ := hst
    exact ⟨.inl rfl, hshut, hunread⟩
  | goOn hp =>
    refine h.quiet rfl fun answered hst => ?_
    rw [hp] at hst
    obtain ⟨hc, hopen, hunread⟩ := hst
    refine ⟨?_, hunread⟩
    show if t.sys.handle.closed then _ else _
    rw [hc]
    exact hopen
  | mark hp => exact h.closing hp rfl fun _ => rfl
  | vacate hp hv =>
    obtain ⟨hcv, hrv⟩ := Handle.vacate_outside hv
    exact h.closing hp (Handle.responses_congr hrv) fun hc => hcv.trans (hc.resolve_left (by simp))
  | vacant hp hv =>
    obtain ⟨hcv, hrv⟩ := Handle.vacate_outside hv
    exact h.closed hp (Handle.responses_congr hrv) fun hc => hcv.trans (hc.resolve_left (by simp))
  | settle hp => exact h.closing hp rfl fun hc => hc.resolve_left (by simp)
  | release hp => exact h.closed hp rfl fun hc => hc.resolve_left (by simp)
  | finish hp =>
    refine h.quiet Handle.responses_post_close fun answered hst => ?_
    rw [hp] at hst
    exact hst

theorem Ledger.session (h : t.Ledger) (hstep : System.SessionStep host t.sys sys) :
    Ledger { t with
      sys := sys
      outcomes := t.outcomes ++ (t.sys.outcome? (.step .session)).toList } := by
  by_cases hans : ∃ o, t.sys.session.phase = .answering o
  · obtain ⟨o, ho⟩ := hans
    have hout : t.sys.outcome? (.step .session) = some o := by simp only [System.outcome?, ho]
    rw [hout]
    cases hstep with
    | answer hp =>
      cases ho.symm.trans hp
      exact h.answer ho
    | takeUp hp => cases ho.symm.trans hp
    | _ => simp_all
  · rw [outcome?_eq_none fun o ho => hans ⟨o, ho⟩, Option.toList_none, List.append_nil]
    exact h.session_quiet hstep fun o ho => hans ⟨o, ho⟩

end

-- ---------------------------------------------------------------------------
-- Runs
-- ---------------------------------------------------------------------------

theorem sys_run (host : Host σ τ) (moves : List Move) (t : Trace σ τ) :
    (t.run host moves).sys = t.sys.run host moves :=
  (recorder host).sys_run moves t

theorem ledger_run (host : Host σ τ) (debugger : Debugger) (target : τ) (program : List (Item σ))
    (moves : List Move) :
    Ledger (.run host moves { sys := .start debugger target program } : Trace σ τ) := by
  refine (recorder host).run_keeps (P := Ledger) (fun {t} arrivals h => ?arrive)
    (fun {t} h => ?hangUp) (fun h hstep => h.session hstep) (fun {t} h hstep => ?thread)
    (ledger_start debugger target program) moves
  case arrive =>
    show (t.play host (.arrive arrivals)).Ledger
    rw [play_arrive]
    exact h.later arrivals false
  case hangUp =>
    show (t.play host .hangUp).Ledger
    rw [play_hangUp]
    exact h.later [] true
  case thread =>
    show (t.play host (.step .thread)).Ledger
    rw [play_thread]
    exact h.thread hstep

-- ---------------------------------------------------------------------------
-- At rest
-- ---------------------------------------------------------------------------

theorem Unread.requests_eq {taken : List Request} (h : t.Unread taken) :
    t.inbound.requests = taken ++ t.sys.session.reader.requests := by
  simpa only [Packet.Reader.later_nil] using h [] false

theorem Spent.requests_eq {taken : List Request} (h : t.Spent taken) :
    t.inbound.requests = taken := by
  simpa only [Packet.Reader.later_nil] using h [] false

theorem Standing.first {answered : List Request} {phase : Session.Phase}
    (h : t.Standing answered phase) :
    answered <+: t.inbound.requests ∧ (Open t.outcomes ∨ Shut t.outcomes) := by
  have hunread {taken : List Request} (hu : t.Unread taken) : taken <+: t.inbound.requests :=
    ⟨_, hu.requests_eq.symm⟩
  have hdone {taken : List Request} (hu : t.Unread (answered ++ taken)) :
      answered <+: t.inbound.requests := (List.prefix_append _ _).trans (hunread hu)
  have hsplit {c : Bool} (h : if c then Shut t.outcomes else Open t.outcomes) :
      Open t.outcomes ∨ Shut t.outcomes := by
    cases c with
    | true => exact .inr h
    | false => exact .inl h
  cases phase with
  | reading => exact ⟨hunread h.2, hsplit h.1⟩
  | handling r => exact ⟨hdone h.2.2, .inl h.2.1⟩
  | asking r | scheduling r | awaiting r | resuming r | deciding r =>
    exact ⟨hdone h.2.2.2, .inl h.2.2.1⟩
  | answering o =>
    obtain ⟨r, -, -, hopen, hu⟩ := h
    exact ⟨hdone hu, .inl hopen⟩
  | following events release closes => exact ⟨hunread h.2.2, hsplit h.2.1⟩
  | closing step result =>
    cases result with
    | none => exact ⟨hunread h.2.2, .inr h.2.1⟩
    | some result =>
      obtain ⟨hshut, hu⟩ | ⟨hopen, hs⟩ := h
      · exact ⟨hunread hu, .inr hshut⟩
      · exact ⟨hs.requests_eq ▸ List.prefix_refl _, .inl hopen⟩
  | disconnecting | finishing | ended =>
    obtain ⟨hshut, hu⟩ | ⟨hopen, hs⟩ := h
    · exact ⟨hunread hu, .inr hshut⟩
    · exact ⟨hs.requests_eq ▸ List.prefix_refl _, .inl hopen⟩

theorem Standing.settled_or_awaiting {answered : List Request}
    (h : t.Standing answered t.sys.session.phase) (hrest : t.sys.Resting host) :
    answered = t.inbound.requests ∨ Shut t.outcomes ∨
      ∃ r, t.sys.session.phase = .awaiting r ∧ t.sys.reply = none := by
  obtain ⟨reader, hp, hread⟩ | ⟨r, hp, hr⟩ | ⟨result, hp⟩ :=
    System.waiting_of_stepSession (hrest .session)
  · rw [hp] at h
    refine .inl (h.2.requests_eq.trans ?_).symm
    rw [Packet.Reader.requests, Packet.Reader.messages_of_blocked hread]
    exact List.append_nil _
  · exact .inr (.inr ⟨r, hp, hr⟩)
  · rw [hp] at h
    obtain ⟨hshut, -⟩ | ⟨-, hs⟩ := h
    · exact .inr (.inl hshut)
    · exact .inl hs.requests_eq.symm

theorem Standing.settled {answered : List Request}
    (h : t.Standing answered t.sys.session.phase) (hpark : t.sys.Parked)
    (hrest : t.sys.Resting host) : answered = t.inbound.requests ∨ Shut t.outcomes := by
  obtain hall | hshut | ⟨r, hp, hr⟩ := h.settled_or_awaiting hrest
  · exact .inl hall
  · exact .inr hshut
  · exact absurd (hrest .thread) (hpark.not_resting hp hr)

end Trace

-- ---------------------------------------------------------------------------
-- Every run
-- ---------------------------------------------------------------------------

/-- Whatever arrives and whoever moves, each request is answered once, in order, up to the one that
closes the session. No order of steps goes on for ever, and where it ends all requests are
answered that had arrived. -/
theorem one_response_per_request (debugger : Debugger) (target : τ) {program : List (Item σ)}
    (hreturns : ∀ item ∈ program, host.interpreter.Returns item.state) (moves : List Move) :
    let t : Trace σ τ := .run host moves { sys := .start debugger target program }
    t.sys.handle.responses = t.outcomes.map (·.response) ∧
      (Trace.Open t.outcomes ∨ Trace.Shut t.outcomes) ∧
      (∃ answered, answered <+: t.inbound.requests ∧
        List.Forall₂ Replies answered t.outcomes ∧
        (t.sys.Resting host → answered = t.inbound.requests ∨ Trace.Shut t.outcomes)) ∧
      t.sys.Settles host := by
  intro t
  obtain ⟨hsent, answered, hall, hst⟩ := Trace.ledger_run host debugger target program moves
  have hpark : t.sys.Parked := by
    rw [Trace.sys_run]
    exact System.parked_run hreturns debugger target moves
  obtain ⟨hfirst, hends⟩ := hst.first
  exact ⟨hsent, hends, ⟨answered, hfirst, hall, fun hrest => hst.settled hpark hrest⟩,
    t.sys.settles host⟩

def scriptedHost : Host Scripted.Stack OneShot where
  interpreter := Scripted.interpreter
  start := OneShot.start
  isRunning := OneShot.running

/-- The thread stops at a table, and the client asks for the stack and hangs up. The thread answers,
and then both sides go to their end. -/
def tableMoves : List Move :=
  [.step .thread, .step .thread, .step .thread,
    .arrive [.chunk "Content-Length: 49\r\n\r\n".toUTF8.toList],
    .arrive [.chunk
      "\x7b\"seq\":1,\"type\":\"request\",\"command\":\"stackTrace\"\x7d".toUTF8.toList],
    .step .session, .step .session, .step .session, .step .session, .hangUp, .step .thread,
    .step .thread] ++ List.replicate 10 (.step .session) ++ List.replicate 3 (.step .thread)

theorem one_response_per_request_table :
    let t : Trace Scripted.Stack OneShot := .run scriptedHost tableMoves
      { sys := .start (.fresh .sensitive) {} [.stop { reason := "pause" } tableStack] }
    t.sys.Resting scriptedHost ∧
      t.sys.handle.responses.map (fun r => (r.requestSeq, r.success)) = [(1, true)] ∧
      t.sys.handle.responses = t.outcomes.map (·.response) ∧
      (Trace.Open t.outcomes ∨ Trace.Shut t.outcomes) ∧
      (∃ answered, answered <+: t.inbound.requests ∧
        List.Forall₂ Replies answered t.outcomes ∧
        (t.sys.Resting scriptedHost →
          answered = t.inbound.requests ∨ Trace.Shut t.outcomes)) ∧
      t.sys.Settles scriptedHost := by
  intro t
  have hreturns : ∀ item ∈ [Item.stop { reason := "pause" } tableStack],
      scriptedHost.interpreter.Returns item.state := by
    intro item h
    rw [List.mem_singleton.1 h]
    exact (Scripted.Stack.steady (by decide)).returns
  refine ⟨?resting, by decide +kernel,
    one_response_per_request (.fresh .sensitive) ({} : OneShot) hreturns tableMoves⟩
  case resting =>
    rintro (_ | _)
    · exact Option.isNone_iff_eq_none.1 (by decide +kernel)
    · exact Option.isNone_iff_eq_none.1 (by decide +kernel)

end DebugAdapter
