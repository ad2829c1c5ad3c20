import DebugAdapter.Proofs.Session.Responses

/-!
# What others see of a session

A session takes requests off the stream, answers them, tells the debugger that the client has gone,
fails to read on, and ends. `System.deed?` says which of this the next step does. Each request is
dispatched before it is answered, the debugger is told once, and the session ends as its last read
did.
-/

namespace DebugAdapter

open Protocol

variable {σ τ : Type} {host : Host σ τ} {sys sys' : System σ τ}

-- ---------------------------------------------------------------------------
-- Deeds
-- ---------------------------------------------------------------------------

/-- What others see a session do. -/
inductive Deed where
  | dispatched (r : Request)
  | answered (o : Outcome)
  /-- The debugger is told that the client has gone. -/
  | disconnected
  | failed (e : AdapterError)
  | ended (result : Except AdapterError Unit)

namespace Deed

def request? : Deed → Option Request
  | dispatched r => some r
  | answered _ | disconnected | failed _ | ended _ => none

def answer? : Deed → Option Outcome
  | answered o => some o
  | dispatched _ | disconnected | failed _ | ended _ => none

def ofRead : Packet.Read Json → Option Deed
  | .item message => (System.requestOf? message).map dispatched
  | .failed text => some (failed (.transport text))
  | .malformed e => some (failed (.framing e.reason))
  | .ended | .blocked => none

def isDisconnect : Deed → Bool
  | disconnected => true
  | dispatched _ | answered _ | failed _ | ended _ => false

end Deed

def dispatchedIn (deeds : List Deed) : List Request := deeds.filterMap Deed.request?

def answersIn (deeds : List Deed) : List Outcome := deeds.filterMap Deed.answer?

def disconnectsIn (deeds : List Deed) : Nat := deeds.countP Deed.isDisconnect

namespace System

def deed? (sys : System σ τ) : Option Deed :=
  match sys.session.phase with
  | .reading =>
    if sys.handle.closed then none else Deed.ofRead sys.session.reader.readMessage.1
  | .handling r =>
    match Demand.of? r with
    | some (.ok .disconnect) => some .disconnected
    | _ => none
  | .answering o => some (.answered o)
  | .disconnecting _ => if sys.session.disconnected then none else some .disconnected
  | .finishing result => some (.ended result)
  | .asking .. | .scheduling .. | .awaiting _ | .resuming .. | .deciding .. | .following ..
  | .closing .. | .ended _ => none

def deedOf? (sys : System σ τ) : Move → Option Deed
  | .step .session => sys.deed?
  | .step .thread | .arrive _ | .hangUp => none

theorem deed?_of_waiting (h : sys.stepSession host = none) : sys.deed? = none := by
  obtain ⟨reader, hp, hread⟩ | ⟨r, hp, -⟩ | ⟨result, hp⟩ := waiting_of_stepSession h
  · simp [deed?, hp, hread, Deed.ofRead]
  · simp only [deed?, hp]
  · simp only [deed?, hp]

end System

namespace Session.Phase

/-- The requests that are dispatched and not answered yet. -/
def inHand : Session.Phase → Nat
  | handling _ | asking .. | scheduling .. | awaiting _ | resuming .. | deciding ..
  | answering _ => 1
  | reading | following .. | closing .. | disconnecting _ | finishing _ | ended _ => 0

/-- How the session is going to end, once that is settled. -/
def result? : Session.Phase → Option (Except AdapterError Unit)
  | closing _ result => result
  | disconnecting result | finishing result | ended result => some result
  | reading | handling _ | asking .. | scheduling .. | awaiting _ | resuming .. | deciding ..
  | answering _ | following .. => none

def hasLeft : Session.Phase → Bool
  | finishing _ | ended _ => true
  | reading | handling _ | asking .. | scheduling .. | awaiting _ | resuming .. | deciding ..
  | answering _ | following .. | closing .. | disconnecting _ => false

end Session.Phase

namespace System

theorem deed?_read (hp : sys.session.phase = .reading) (hc : sys.handle.closed = false)
    {found : Packet.Read Json} {reader : Packet.Reader}
    (hread : sys.session.reader.readMessage = (found, reader)) :
    sys.deed? = Deed.ofRead found := by
  simp only [deed?, hp, hc, hread, Bool.false_eq_true, if_false]

theorem answersIn_deed? (sys : System σ τ) :
    answersIn sys.deed?.toList = (sys.outcome? (.step .session)).toList := by
  cases hp : sys.session.phase with
  | reading =>
    simp only [deed?, outcome?, hp]
    split
    · rfl
    · cases sys.session.reader.readMessage.1 with
      | item message =>
        cases hreq : requestOf? message <;> simp [Deed.ofRead, hreq, answersIn, Deed.answer?]
      | _ => rfl
  | handling r =>
    simp only [deed?, outcome?, hp]
    split <;> rfl
  | disconnecting result =>
    simp only [deed?, outcome?, hp]
    split <;> rfl
  | _ =>
    simp only [deed?, outcome?, hp]
    rfl

theorem dispatchedIn_deed? (sys : System σ τ) :
    dispatchedIn sys.deed?.toList = [] ∨ ∃ message r, sys.session.phase = .reading ∧
      sys.handle.closed = false ∧ sys.session.reader.readMessage.1 = .item message ∧
      requestOf? message = some r ∧ dispatchedIn sys.deed?.toList = [r] := by
  cases hp : sys.session.phase with
  | reading =>
    cases hc : sys.handle.closed with
    | true => simp [deed?, hp, hc, dispatchedIn]
    | false =>
      rw [deed?_read hp hc rfl]
      cases sys.session.reader.readMessage.1 with
      | item message =>
        cases hreq : requestOf? message with
        | none => simp [Deed.ofRead, hreq, dispatchedIn]
        | some r => exact .inr ⟨message, r, rfl, rfl, rfl, hreq, by rw [Deed.ofRead, hreq]; rfl⟩
      | _ => exact .inl rfl
  | handling r =>
    simp only [deed?, hp]
    split <;> exact .inl rfl
  | disconnecting result =>
    simp only [deed?, hp]
    split <;> exact .inl rfl
  | _ =>
    simp only [deed?, hp]
    exact .inl rfl

theorem deed?_takeUp (host : Host σ τ) {r : Request} (hp : sys.session.phase = .handling r) :
    sys.deed? = none ∧ (sys.takeUp host r).session.disconnected = sys.session.disconnected ∨
      sys.deed? = some .disconnected ∧ (sys.takeUp host r).session.disconnected = true ∧
        ∃ o, (sys.takeUp host r).session.phase = .answering o ∧ o.closes = true := by
  simp only [deed?, hp, takeUp]
  split
  · rename_i hd
    rw [hd]
    exact .inr ⟨rfl, rfl, _, rfl, rfl⟩
  · rename_i hne
    refine .inl ⟨rfl, ?_⟩
    split
    · rfl
    · rfl
    · rename_i demand hd
      cases demand with
      | disconnect => exact absurd hd hne
      | chooseStart mode =>
        simp only [fulfil]
        split <;> rfl
      | start =>
        simp only [fulfil]
        split
        · rfl
        · split <;> rfl
      | capabilities | setLines | setCalls | threads | inspect | pause | resume => rfl

theorem closed_inHand (result : Option (Except AdapterError Unit)) :
    (sys.closed result).session.phase.inHand = 0 := by
  cases result <;> rfl

theorem SessionStep.inHand (h : SessionStep host sys sys') :
    sys.session.phase.inHand + (dispatchedIn sys.deed?.toList).length =
      sys'.session.phase.inHand + (answersIn sys.deed?.toList).length := by
  cases h with
  | begin hp hc hread hreq =>
    rw [deed?_read hp hc hread, hp, Deed.ofRead, hreq]
    rfl
  | shut hp hc =>
    simp only [deed?, hp, hc]
    rfl
  | quit hp hc hread hend =>
    rename_i found reader result
    rw [deed?_read hp hc hread, hp]
    cases found <;> cases hend <;> rfl
  | skip hp hc hread hreq =>
    rw [deed?_read hp hc hread, Deed.ofRead, hreq]
    rfl
  | takeUp hp =>
    rename_i r
    obtain ⟨debugger, target, disconnected, phase, heq, -, hphase⟩ := takeUp_cases host sys r
    have hphase : (sys.takeUp host r).session.phase.inHand = 1 := by
      rw [heq]
      cases hphase <;> rfl
    rw [hphase, hp]
    obtain ⟨hd, -⟩ | ⟨hd, -⟩ := deed?_takeUp host hp
    · rw [hd]
      rfl
    · rw [hd]
      rfl
  | ask hp | askInVain hp | schedule hp | scheduleInVain hp | pass hp | passError hp | resume hp
  | resumeInVain hp | decide hp | decideInVain hp | answer hp | follow hp | letGo hp | close hp
  | goOn hp | mark hp | vacate hp | settle hp | finish hp =>
    simp only [deed?, hp]
    rfl
  | vacant hp | release hp =>
    simp only [deed?, hp, closed_inHand]
    rfl
  | disconnect hp =>
    simp only [deed?, hp]
    split <;> rfl

theorem closed_disconnected (result : Option (Except AdapterError Unit)) :
    (sys.closed result).session.disconnected = sys.session.disconnected := by
  cases result <;> rfl

theorem SessionStep.disconnected (h : SessionStep host sys sys')
    (hp : ∀ r, sys.session.phase ≠ .handling r) :
    sys'.session.disconnected = sys.session.disconnected := by
  cases h with
  | takeUp hp' => exact absurd hp' (hp _)
  | vacant | release => exact closed_disconnected _
  | _ => rfl

/-- The debugger has been told that the client has gone. -/
def told (sys : System σ τ) : Bool := sys.session.phase.hasLeft || sys.session.disconnected

theorem told_eq (h : sys.session.phase.hasLeft = false) :
    sys.told = sys.session.disconnected := by
  rw [told, h, Bool.false_or]

theorem closed_told (result : Option (Except AdapterError Unit)) :
    (sys.closed result).told = sys.session.disconnected := by
  cases result <;> rfl

/-- The debugger is told once, unless a second request to disconnect is taken up. -/
theorem SessionStep.told (h : SessionStep host sys sys')
    (honce : ∀ r, sys.session.phase = .handling r → sys.session.disconnected = false) :
    sys'.told.toNat = sys.told.toNat + disconnectsIn sys.deed?.toList := by
  cases h with
  | begin hp hc hread hreq =>
    rw [deed?_read hp hc hread, Deed.ofRead, hreq, @told_eq _ _ sys (by rw [hp]; rfl)]
    rfl
  | shut hp hc =>
    simp only [deed?, System.told, hp, hc]
    rfl
  | quit hp hc hread hend =>
    rename_i found reader result
    rw [deed?_read hp hc hread, @told_eq _ _ sys (by rw [hp]; rfl)]
    cases found <;> cases hend <;> rfl
  | skip hp hc hread hreq =>
    rw [deed?_read hp hc hread, Deed.ofRead, hreq]
    rfl
  | takeUp hp =>
    rename_i r
    have hbefore : sys.told = false := by
      rw [told_eq (by rw [hp]; rfl), honce r hp]
    obtain ⟨debugger, target, disconnected, phase, heq, -, hphase⟩ := takeUp_cases host sys r
    have hafter : (sys.takeUp host r).told = (sys.takeUp host r).session.disconnected := by
      rw [System.told, heq]
      cases hphase <;> rfl
    rw [hafter, hbefore]
    obtain ⟨hd, hdisc⟩ | ⟨hd, hdisc, -⟩ := deed?_takeUp host hp
    · rw [hd, hdisc, honce r hp]
      rfl
    · rw [hd, hdisc]
      rfl
  | ask hp | askInVain hp | schedule hp | scheduleInVain hp | pass hp | passError hp | resume hp
  | resumeInVain hp | decide hp | decideInVain hp | answer hp | follow hp | letGo hp | close hp
  | goOn hp | mark hp | vacate hp | settle hp | finish hp =>
    simp only [deed?, System.told, hp]
    rfl
  | vacant hp | release hp =>
    rw [closed_told, @told_eq _ _ sys (by rw [hp]; rfl), deed?, hp]
    rfl
  | disconnect hp =>
    simp only [deed?, System.told, hp]
    cases sys.session.disconnected <;> rfl

theorem SessionStep.debugger (h : SessionStep host sys sys') :
    sys.deed? = some .disconnected ∧ sys'.debugger = sys.debugger.disconnect ∨
      disconnectsIn sys.deed?.toList = 0 ∧ sys'.debugger.terminated = sys.debugger.terminated := by
  cases h with
  | begin hp hc hread hreq =>
    rw [deed?_read hp hc hread, Deed.ofRead, hreq]
    exact .inr ⟨rfl, rfl⟩
  | shut hp hc =>
    simp only [deed?, hp, hc]
    exact .inr ⟨rfl, rfl⟩
  | quit hp hc hread hend =>
    rename_i found reader result
    rw [deed?_read hp hc hread]
    refine .inr ⟨?_, rfl⟩
    cases found <;> cases hend <;> rfl
  | skip hp hc hread hreq =>
    rw [deed?_read hp hc hread, Deed.ofRead, hreq]
    exact .inr ⟨rfl, rfl⟩
  | takeUp hp =>
    rename_i r
    obtain ⟨debugger, target, disconnected, phase, heq, hdebugger, -⟩ := takeUp_cases host sys r
    rw [heq]
    obtain ⟨hd, -, ht⟩ | ⟨hd, hdebugger⟩ := hdebugger
    · refine .inr ⟨?_, ht⟩
      simp only [deed?, hp]
      rfl
    · exact .inl ⟨by simp only [deed?, hp, hd], hdebugger⟩
  | ask hp | askInVain hp | schedule hp | scheduleInVain hp | pass hp | passError hp | resume hp
  | resumeInVain hp | decide hp | decideInVain hp | answer hp | follow hp | letGo hp | close hp
  | goOn hp | mark hp | vacate hp | settle hp | finish hp =>
    simp only [deed?, hp]
    exact .inr ⟨rfl, rfl⟩
  | vacant hp | release hp =>
    rw [debugger_closed, deed?, hp]
    exact .inr ⟨rfl, rfl⟩
  | disconnect hp =>
    simp only [deed?, hp]
    cases sys.session.disconnected with
    | true => exact .inr ⟨rfl, rfl⟩
    | false => exact .inl ⟨rfl, rfl⟩

theorem ThreadStep.terminated (h : ThreadStep host sys sys')
    (ht : sys.debugger.terminated = true) : sys'.debugger.terminated = true := by
  cases h with
  | serveFault | depart => exact (terminated_handBack _ _).trans ht
  | resume =>
    show (sys.debugger.terminated || _) = true
    rw [ht, Bool.true_or]
  | event | stop | free | look | hit | meet | miss | matchFault | disarm | turnAway | install
  | announce | reply | take | leave | hand | resumeFault => exact ht

theorem closed_result? (result : Option (Except AdapterError Unit)) :
    (sys.closed result).session.phase.result? = result := by
  cases result <;> rfl

theorem takeUp_result? (host : Host σ τ) (sys : System σ τ) (r : Request) :
    (sys.takeUp host r).session.phase.result? = none := by
  obtain ⟨debugger, target, disconnected, phase, heq, -, hphase⟩ := takeUp_cases host sys r
  rw [heq]
  cases hphase <;> rfl

theorem closed_reader (result : Option (Except AdapterError Unit)) :
    (sys.closed result).session.reader = sys.session.reader := by
  cases result <;> rfl

theorem SessionStep.result? (h : SessionStep host sys sys') :
    sys'.session.phase.result? = sys.session.phase.result? ∧
        (sys.session.phase ≠ .reading ∧ sys'.session.reader = sys.session.reader ∨
          ∃ message, sys.session.reader.readMessage = (.item message, sys'.session.reader)) ∨
      sys.session.phase = .reading ∧ sys.handle.closed = true ∧
        sys'.session.phase.result? = some (.ok ()) ∨
      ∃ result, sys.session.phase = .reading ∧ sys.handle.closed = false ∧
        endOf? sys.session.reader.readMessage.1 = some result ∧
        sys'.session.phase.result? = some result := by
  cases h with
  | shut hp hc => exact .inr (.inl ⟨hp, hc, rfl⟩)
  | quit hp hc hread hend =>
    rw [hread]
    exact .inr (.inr ⟨_, hp, hc, hend, rfl⟩)
  | skip hp hc hread => exact .inl ⟨rfl, .inr ⟨_, hread⟩⟩
  | begin hp hc hread =>
    rw [hp]
    exact .inl ⟨rfl, .inr ⟨_, hread⟩⟩
  | takeUp hp =>
    rename_i r
    obtain ⟨debugger, target, disconnected, phase, heq, -, -⟩ := takeUp_cases host sys r
    rw [takeUp_result?, heq, hp]
    exact .inl ⟨rfl, .inl ⟨nofun, rfl⟩⟩
  | vacant hp | release hp =>
    rw [closed_result?, closed_reader, hp]
    exact .inl ⟨rfl, .inl ⟨nofun, rfl⟩⟩
  | ask hp | askInVain hp | schedule hp | scheduleInVain hp | pass hp | passError hp
  | resume hp | resumeInVain hp | decide hp | decideInVain hp | answer hp | follow hp | letGo hp
  | close hp | goOn hp | mark hp | vacate hp | settle hp | disconnect hp | finish hp =>
    rw [hp]
    exact .inl ⟨rfl, .inl ⟨nofun, rfl⟩⟩

theorem deed?_eq_failed {e : AdapterError} : sys.deed? = some (.failed e) ↔
    sys.session.phase = .reading ∧ sys.handle.closed = false ∧
      endOf? sys.session.reader.readMessage.1 = some (.error e) := by
  cases hp : sys.session.phase with
  | reading =>
    cases hc : sys.handle.closed with
    | true => simp [deed?, hp, hc]
    | false =>
      rw [deed?_read hp hc rfl]
      cases sys.session.reader.readMessage.1 <;> simp [Deed.ofRead, endOf?]
  | handling r =>
    simp only [deed?, hp]
    split <;> simp
  | disconnecting result =>
    simp only [deed?, hp]
    split <;> simp
  | asking | scheduling | awaiting | resuming | deciding | answering | following | closing
  | finishing | ended => simp [deed?, hp]

theorem deed?_eq_ended {result : Except AdapterError Unit} :
    sys.deed? = some (.ended result) ↔ sys.session.phase = .finishing result := by
  cases hp : sys.session.phase with
  | reading =>
    simp only [deed?, hp]
    split
    · simp
    · cases sys.session.reader.readMessage.1 <;> simp [Deed.ofRead]
  | handling r =>
    simp only [deed?, hp]
    split <;> simp
  | disconnecting result =>
    simp only [deed?, hp]
    split <;> simp
  | asking | scheduling | awaiting | resuming | deciding | answering | following | closing
  | finishing | ended => simp [deed?, hp]

theorem SessionStep.failed (h : SessionStep host sys sys') (e : AdapterError) :
    sys'.session.phase.result? = some (.error e) ↔
      sys.session.phase.result? = some (.error e) ∨ sys.deed? = some (.failed e) := by
  rw [deed?_eq_failed]
  obtain ⟨hsame, hread⟩ | ⟨hp, hc, hr⟩ | ⟨result, hp, hc, hend, hr⟩ := h.result?
  · rw [hsame, or_iff_left]
    rintro ⟨hp, -, hend⟩
    obtain ⟨hne, -⟩ | ⟨message, hm⟩ := hread
    · exact hne hp
    · rw [hm] at hend
      cases hend
  · rw [hr, hp, hc]
    simp [Session.Phase.result?]
  · rw [hr, hp, hc, hend]
    simp [Session.Phase.result?]

theorem closed_ne_ended (settled : Option (Except AdapterError Unit))
    (result : Except AdapterError Unit) : (sys.closed settled).session.phase ≠ .ended result := by
  cases settled <;> nofun

theorem takeUp_ne_ended (host : Host σ τ) (sys : System σ τ) (r : Request)
    (result : Except AdapterError Unit) :
    (sys.takeUp host r).session.phase ≠ .ended result := by
  obtain ⟨debugger, target, disconnected, phase, heq, -, hphase⟩ := takeUp_cases host sys r
  rw [heq]
  cases hphase <;> nofun

theorem SessionStep.outbox (h : SessionStep host sys sys') :
    (∃ result, sys.session.phase = .finishing result ∧ sys'.session.phase = .ended result ∧
        sys'.handle.outbox = sys.handle.outbox ++ [Outgoing.close]) ∨
      (∀ result, sys.session.phase ≠ .finishing result ∧ sys.session.phase ≠ .ended result ∧
        sys'.session.phase ≠ .ended result) ∧
      ∃ more, sys'.handle.outbox = sys.handle.outbox ++ more ∧ ∀ m ∈ more, m ≠ .close := by
  have hsame : ∃ more, sys.handle.outbox = sys.handle.outbox ++ more ∧ ∀ m ∈ more, m ≠ .close :=
    ⟨[], (List.append_nil _).symm, nofun⟩
  cases h with
  | finish hp => exact .inl ⟨_, hp, rfl, rfl⟩
  | takeUp hp =>
    rename_i r
    refine .inr ⟨fun result => ?_, ?_⟩
    · rw [hp]
      exact ⟨nofun, nofun, takeUp_ne_ended host sys r result⟩
    · obtain ⟨debugger, target, disconnected, phase, heq, -, -⟩ := takeUp_cases host sys r
      rw [heq]
      exact hsame
  | skip hp =>
    refine .inr ⟨fun result => ?_, hsame⟩
    show sys.session.phase ≠ _ ∧ sys.session.phase ≠ _ ∧ sys.session.phase ≠ _
    rw [hp]
    exact ⟨nofun, nofun, nofun⟩
  | vacant hp hv =>
    rw [hp, handle_closed, (Handle.vacate_outside hv).2]
    exact .inr ⟨fun result => ⟨nofun, nofun, closed_ne_ended _ result⟩, hsame⟩
  | release hp =>
    rw [hp, handle_closed]
    exact .inr ⟨fun result => ⟨nofun, nofun, closed_ne_ended _ result⟩, hsame⟩
  | answer hp | follow hp =>
    rw [hp]
    refine .inr ⟨fun result => ⟨nofun, nofun, nofun⟩, _, rfl, fun m hm => ?_⟩
    rw [List.mem_singleton.1 hm]
    nofun
  | schedule hp hs =>
    rw [hp]
    exact .inr ⟨fun result => ⟨nofun, nofun, nofun⟩, [],
      (Handle.schedule_outside hs).2.trans (List.append_nil _).symm, nofun⟩
  | decide hp hd =>
    rw [hp]
    exact .inr ⟨fun result => ⟨nofun, nofun, nofun⟩, [],
      (Handle.decide_outside hd).2.trans (List.append_nil _).symm, nofun⟩
  | vacate hp hv =>
    rw [hp]
    exact .inr ⟨fun result => ⟨nofun, nofun, nofun⟩, [],
      (Handle.vacate_outside hv).2.trans (List.append_nil _).symm, nofun⟩
  | shut hp | quit hp | begin hp | ask hp | askInVain hp | scheduleInVain hp | pass hp
  | passError hp | resume hp | resumeInVain hp | decideInVain hp | letGo hp | close hp | goOn hp
  | mark hp | settle hp | disconnect hp =>
    rw [hp]
    exact .inr ⟨fun result => ⟨nofun, nofun, nofun⟩, hsame⟩

theorem SessionStep.ended (h : SessionStep host sys sys') (result : Except AdapterError Unit) :
    sys'.session.phase = .ended result ↔
      sys.session.phase = .ended result ∨ sys.deed? = some (.ended result) := by
  rw [deed?_eq_ended]
  obtain ⟨result', hp, hp', -⟩ | ⟨hne, -⟩ := h.outbox
  · rw [hp, hp']
    simp
  · obtain ⟨h₁, h₂, h₃⟩ := hne result
    simp only [h₁, h₂, h₃, or_self]

end System

end DebugAdapter
