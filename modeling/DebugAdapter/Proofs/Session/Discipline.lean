import DebugAdapter.Proofs.Session.Deeds
import DebugAdapter.Proofs.Session.Outbox

/-!
# How a session ends

Annals keep the deeds of a session beside its run. Requests are taken and answered one by one
until an answer closes the session or the stream is over. Then nothing is read any more, the
debugger has been told once, and the stream to the client is shut down behind all that was queued.
-/

namespace DebugAdapter

open Protocol

variable {σ τ : Type} {host : Host σ τ} {sys : System σ τ}

-- ---------------------------------------------------------------------------
-- Errors by their texts
-- ---------------------------------------------------------------------------

theorem head?_append {text rest : String} (h : text ≠ "") :
    (text ++ rest).toList.head? = text.toList.head? := by
  rw [String.toList_append, List.head?_append_of_ne_nil _ (by simpa using h)]

/-- The first letter of its text tells whether an error is a violation of the contract. -/
theorem AdapterError.isContractViolation_eq_false_iff (e : AdapterError) :
    e.isContractViolation = false ↔ e.message.toList.head? ∈ [some 'i', some 'f', some 'l'] := by
  have hfirst (text rest : String) (hm : e.message = text ++ rest) (ht : text ≠ "")
      (he : e.isContractViolation = false ↔
        text.toList.head? ∈ [some 'i', some 'f', some 'l']) :
      e.isContractViolation = false ↔
        e.message.toList.head? ∈ [some 'i', some 'f', some 'l'] := by
    rw [he, hm, head?_append ht]
  cases e with
  | transport text =>
    exact hfirst "io error: " text rfl nofun (by rw [isContractViolation]; decide +kernel)
  | json text =>
    exact hfirst "invalid json: " text rfl nofun (by rw [isContractViolation]; decide +kernel)
  | framing reason =>
    exact hfirst "framing error: " reason rfl nofun (by rw [isContractViolation]; decide +kernel)
  | arguments command reason =>
    refine hfirst "invalid " (command ++ " args: " ++ reason) ?_ nofun
      (by rw [isContractViolation]; decide +kernel)
    show "invalid " ++ command ++ " args: " ++ reason = _
    rw [String.append_assoc, String.append_assoc, String.append_assoc]
  | startFailed reason =>
    exact hfirst "launch failed: " reason rfl nofun (by rw [isContractViolation]; decide +kernel)
  | settings reason =>
    exact hfirst "invalid config: " reason rfl nofun (by rw [isContractViolation]; decide +kernel)
  | unknownFrame id =>
    exact hfirst "unknown frame id " _ rfl nofun (by rw [isContractViolation]; decide +kernel)
  | unknownVariable id =>
    exact hfirst "unknown variables reference " _ rfl nofun
      (by rw [isContractViolation]; decide +kernel)
  | notStopped | stopEnded | alreadyResumed | startModeSet | startModeMissing =>
    rw [isContractViolation]
    decide +kernel

theorem Replies.closes_iff {q : Request} {o : Outcome} (h : Replies q o) :
    o.closes = true ↔ o.response.success = true ∧ q.command = "disconnect" ∨
      o.response.success = false ∧ ∃ e : AdapterError, o.response.message = some e.message ∧
        e.isContractViolation = false := by
  cases hs : o.response.success with
  | true => simp [(h.success hs).2]
  | false =>
    simp only [Bool.false_eq_true, false_and, false_or, true_and]
    obtain ⟨-, ⟨-, hm, hc⟩ | ⟨e, hm, hc⟩⟩ := h.failure hs
    · rw [hc, hm]
      constructor
      · nofun
      · rintro ⟨e, he, hv⟩
        rw [e.isContractViolation_eq_false_iff, ← Option.some.inj he] at hv
        exact absurd hv (by decide +kernel)
    · rw [hc, hm]
      constructor
      · intro hv
        exact ⟨e, rfl, by simpa using hv⟩
      · rintro ⟨e', he, hv⟩
        rw [e'.isContractViolation_eq_false_iff, ← Option.some.inj he,
          ← e.isContractViolation_eq_false_iff] at hv
        rw [hv]
        rfl

-- ---------------------------------------------------------------------------
-- Annals
-- ---------------------------------------------------------------------------

structure Annals (σ τ : Type) where
  trace : Trace σ τ
  deeds : List Deed := []

namespace Annals

def play (host : Host σ τ) (c : Annals σ τ) (move : Move) : Annals σ τ where
  trace := c.trace.play host move
  deeds := c.deeds ++ (c.trace.sys.deedOf? move).toList

def recorder (host : Host σ τ) : Recorder host (Annals σ τ) where
  sys c := c.trace.sys
  play := play host
  sys_play _ _ := rfl
  play_waiting {c side} h := by
    have hdeed : c.trace.sys.deedOf? (.step side) = none := by
      cases side with
      | session => exact System.deed?_of_waiting h
      | thread => rfl
    have htrace : c.trace.play host (.step side) = c.trace :=
      (Trace.recorder host).play_waiting h
    rw [play, htrace, hdeed, Option.toList_none, List.append_nil]

def run (host : Host σ τ) (moves : List Move) (c : Annals σ τ) : Annals σ τ :=
  (recorder host).run moves c

theorem sys_run (host : Host σ τ) (moves : List Move) (c : Annals σ τ) :
    (c.run host moves).trace.sys = c.trace.sys.run host moves :=
  (recorder host).sys_run moves c

theorem deeds_run (host : Host σ τ) (c : Annals σ τ) (moves : List Move) :
    ∃ more, (c.run host moves).deeds = c.deeds ++ more := by
  refine (recorder host).run_induction (P := fun c' => ∃ more, c'.deeds = c.deeds ++ more) ?_
    ⟨[], (List.append_nil _).symm⟩ moves
  rintro c' move ⟨more, hmore⟩
  refine ⟨more ++ (c'.trace.sys.deedOf? move).toList, ?_⟩
  rw [← List.append_assoc, ← hmore]
  rfl

theorem exists_move {c : Annals σ τ} {moves : List Move} {before after : List Deed} {d : Deed}
    (h : (c.run host moves).deeds = c.deeds ++ before ++ d :: after) :
    ∃ first move rest, moves = first ++ move :: rest ∧
      (c.run host first).deeds = c.deeds ++ before ∧
      (c.run host first).trace.sys.deedOf? move = some d := by
  induction moves generalizing c before with
  | nil =>
    have hlength : c.deeds.length = (c.deeds ++ before ++ d :: after).length :=
      congrArg List.length h
    simp at hlength
  | cons move moves ih =>
    obtain ⟨more, hmore⟩ := deeds_run host (c.play host move) moves
    have hrun : (c.run host (move :: moves)).deeds = (c.play host move).deeds ++ more := hmore
    have hplay : (c.play host move).deeds = c.deeds ++ (c.trace.sys.deedOf? move).toList := rfl
    cases hd : c.trace.sys.deedOf? move with
    | none =>
      rw [hd, Option.toList_none, List.append_nil] at hplay
      rw [← hplay] at h
      obtain ⟨first, next, rest, rfl, hfirst, hnext⟩ := ih h
      exact ⟨move :: first, next, rest, rfl, hplay ▸ hfirst, hnext⟩
    | some d' =>
      rw [hd, Option.toList_some] at hplay
      cases before with
      | nil =>
        rw [hrun, hplay, List.append_nil, List.append_assoc] at h
        obtain ⟨rfl, -⟩ := List.cons.inj (List.append_cancel_left h)
        exact ⟨[], move, moves, rfl, (List.append_nil _).symm, hd⟩
      | cons d'' before =>
        have heq := h
        rw [hrun, hplay, List.append_assoc, List.append_assoc] at heq
        obtain ⟨rfl, -⟩ := List.cons.inj (List.append_cancel_left heq)
        have hsplit : c.deeds ++ d' :: before = (c.play host move).deeds ++ before := by
          rw [hplay, List.append_assoc]
          rfl
        rw [hsplit] at h ⊢
        obtain ⟨first, next, rest, rfl, hfirst, hnext⟩ := ih h
        exact ⟨move :: first, next, rest, rfl, hfirst, hnext⟩

-- ---------------------------------------------------------------------------
-- What the annals say
-- ---------------------------------------------------------------------------

end Annals

namespace Trace

/-- How the session is going to end, as far as it is settled: an answer has closed it, or the stream
has come to its end. -/
def Outlook (t : Trace σ τ) : Prop :=
  match t.sys.session.phase.result? with
  | none => ∀ more ended,
      (t.inbound.later more ended).ending = (t.sys.session.reader.later more ended).ending
  | some result => Shut t.outcomes ∧ result = .ok () ∨
      Open t.outcomes ∧ ∀ more ended,
        System.endOf? (t.inbound.later more ended).ending = some result

/-- Once the session has ended the outbox holds the mark that nothing follows, and behind it only
what the thread has to say. -/
def Sealed (t : Trace σ τ) : Prop :=
  (∀ m ∈ t.sys.handle.outbox, m ≠ .close) ∧ (∀ result, t.sys.session.phase ≠ .ended result) ∨
  ∃ result queue behind, t.sys.session.phase = .ended result ∧
    t.sys.handle.outbox = queue ++ .close :: behind ∧ (∀ m ∈ queue, m ≠ .close) ∧
    ∀ m ∈ behind, ∃ e, m = .event e

theorem not_open_of_shut {outcomes : List Outcome} (h : Shut outcomes) : ¬ Open outcomes := by
  obtain ⟨before, o, rfl, -, hc⟩ := h
  intro hopen
  cases hc.symm.trans (hopen o (by simp))

variable {t : Trace σ τ}

theorem Standing.open_of_inHand {answered : List Request} {phase : Session.Phase}
    (h : t.Standing answered phase) (hp : phase.inHand = 1) : Open t.outcomes := by
  cases phase with
  | handling r => exact h.2.1
  | asking r | scheduling r | awaiting r | resuming r | deciding r => exact h.2.2.1
  | answering o =>
    obtain ⟨r, -, -, hopen, -⟩ := h
    exact hopen
  | reading | following | closing | disconnecting | finishing | ended => cases hp

theorem Outlook.session {sys : System σ τ} (h : t.Outlook) (hledger : t.Ledger)
    (hstep : System.SessionStep host t.sys sys) :
    Outlook { t with
      sys := sys
      outcomes := t.outcomes ++ (t.sys.outcome? (.step .session)).toList } := by
  have hquiet (hp : ∀ o, t.sys.session.phase ≠ .answering o) :
      t.outcomes ++ (t.sys.outcome? (.step .session)).toList = t.outcomes := by
    rw [outcome?_eq_none hp]
    exact List.append_nil _
  obtain ⟨-, answered, -, hst⟩ := hledger
  obtain ⟨hsame, hread⟩ | ⟨hp, hc, hr⟩ | ⟨result, hp, hc, hend, hr⟩ := hstep.result?
  · simp only [Outlook, hsame] at h ⊢
    split at h
    · intro more ended
      obtain ⟨-, hread⟩ | ⟨message, hread⟩ := hread
      · rw [hread]
        exact h more ended
      · rw [← Packet.Reader.ending_of_item hread]
        exact h more ended
    · rename_i result hr
      rw [hquiet (fun o hp => by rw [hp] at hr; cases hr)]
      exact h
  · rw [hp] at hst
    obtain ⟨hshut, -⟩ := hst
    rw [hc] at hshut
    rw [hquiet (by rw [hp]; nofun)]
    simp only [Outlook, hr]
    exact .inl ⟨hshut, trivial⟩
  · rw [hp] at hst
    obtain ⟨hopen, -⟩ := hst
    rw [hc] at hopen
    rw [hquiet (by rw [hp]; nofun)]
    simp only [Outlook, hr]
    refine .inr ⟨hopen, fun more ended => ?_⟩
    simp only [Outlook, hp, Session.Phase.result?] at h
    cases hread : t.sys.session.reader.readMessage with
    | mk found reader =>
      rw [hread] at hend
      rw [h, Packet.Reader.ending_of_end hread ?_ ?_]
      · exact hend
      · rintro rfl
        cases hend
      · rintro j rfl
        cases hend

theorem Outlook.later (h : t.Outlook) (as : List Packet.Arrival) (ended : Bool) :
    (t.later as ended).Outlook := by
  have hphase : (t.later as ended).sys.session.phase = t.sys.session.phase := rfl
  simp only [Outlook, hphase] at h ⊢
  split at h
  · intro bs ended'
    obtain ⟨more, e, hlater⟩ := Packet.Reader.exists_later as bs ended ended'
    rw [Trace.later, hlater, h]
    exact congrArg _ (hlater _).symm
  · obtain hshut | ⟨hopen, hend⟩ := h
    · exact .inl hshut
    · refine .inr ⟨hopen, fun bs ended' => ?_⟩
      obtain ⟨more, e, hlater⟩ := Packet.Reader.exists_later as bs ended ended'
      rw [Trace.later, hlater]
      exact hend more e

theorem Outlook.thread {sys : System σ τ} (h : t.Outlook)
    (hstep : System.ThreadStep host t.sys sys) : Outlook { t with sys := sys } := by
  simp only [Outlook, hstep.outside.1] at h ⊢
  exact h

theorem Sealed.session {sys : System σ τ} (h : t.Sealed)
    (hstep : System.SessionStep host t.sys sys) (outcomes : List Outcome) :
    Sealed { t with sys := sys, outcomes := outcomes } := by
  obtain ⟨result, hp, hp', ho⟩ | ⟨hne, more, ho, hmore⟩ := hstep.outbox
  · obtain ⟨hout, -⟩ | ⟨_, _, _, hp'', -⟩ := h
    · exact .inr ⟨result, _, [], hp', ho, hout, nofun⟩
    · cases hp.symm.trans hp''
  · obtain ⟨hout, -⟩ | ⟨result, _, _, hp, -⟩ := h
    · refine .inl ⟨fun m hm => ?_, fun result => (hne result).2.2⟩
      rw [ho] at hm
      exact (List.mem_append.1 hm).elim (hout m) (hmore m)
    · exact absurd hp (hne result).2.1

theorem Sealed.thread {sys : System σ τ} (h : t.Sealed)
    (hstep : System.ThreadStep host t.sys sys) : Sealed { t with sys := sys } := by
  obtain ⟨hsession, -, ho⟩ := hstep.outside
  have hmore : ∃ more, sys.handle.outbox = t.sys.handle.outbox ++ more ∧
      ∀ m ∈ more, ∃ e, m = .event e := by
    obtain ho | ⟨_, body, _, _, _, -, ho⟩ := ho
    · exact ⟨[], ho.trans (List.append_nil _).symm, nofun⟩
    · refine ⟨_, congrArg Handle.outbox ho, fun m hm => ?_⟩
      exact ⟨_, List.mem_singleton.1 hm⟩
  obtain ⟨more, ho, hmore⟩ := hmore
  simp only [Sealed, hsession, ho] at h ⊢
  obtain ⟨hout, hp⟩ | ⟨result, queue, behind, hp, hsplit, hq, hb⟩ := h
  · refine .inl ⟨fun m hm => ?_, hp⟩
    obtain hm | hm := List.mem_append.1 hm
    · exact hout m hm
    · obtain ⟨e, rfl⟩ := hmore m hm
      nofun
  · refine .inr ⟨result, queue, behind ++ more, hp, ?_, hq, fun m hm => ?_⟩
    · rw [hsplit, List.append_assoc]
      rfl
    · exact (List.mem_append.1 hm).elim (hb m) (hmore m)

end Trace

namespace Annals

structure Tallies (c : Annals σ τ) : Prop where
  ledger : c.trace.Ledger
  outlook : c.trace.Outlook
  sealed : c.trace.Sealed
  answers : c.trace.outcomes = answersIn c.deeds
  dispatched : dispatchedIn c.deeds <+: c.trace.inbound.requests
  inHand : (dispatchedIn c.deeds).length =
    c.trace.outcomes.length + c.trace.sys.session.phase.inHand
  told : disconnectsIn c.deeds = c.trace.sys.told.toNat
  silenced : c.trace.sys.told = true → c.trace.sys.debugger.terminated = true
  gone : c.trace.sys.session.disconnected = true →
    (∃ o, c.trace.sys.session.phase = .answering o ∧ o.closes = true) ∨
      Trace.Shut c.trace.outcomes
  failed : ∀ e, .failed e ∈ c.deeds ↔
    c.trace.sys.session.phase.result? = some (.error e)
  ended : ∀ result, .ended result ∈ c.deeds ↔ c.trace.sys.session.phase = .ended result

theorem tallies_start (debugger : Debugger) (target : τ) (program : List (Item σ)) :
    Tallies { trace := { sys := .start debugger target program } : Annals σ τ } where
  ledger := Trace.ledger_start debugger target program
  outlook := fun _ _ => rfl
  sealed := .inl ⟨nofun, nofun⟩
  answers := rfl
  dispatched := List.nil_prefix
  inHand := rfl
  told := rfl
  silenced := nofun
  gone := nofun
  failed e := by simp [System.start, Session.Phase.result?]
  ended result := by simp [System.start]

variable {c : Annals σ τ}

theorem Tallies.thread {sys : System σ τ} (h : c.Tallies)
    (hstep : System.ThreadStep host c.trace.sys sys) :
    Tallies { c with trace := { c.trace with sys := sys } } := by
  have hsession := hstep.outside.1
  exact {
    ledger := h.ledger.thread hstep
    outlook := h.outlook.thread hstep
    sealed := h.sealed.thread hstep
    answers := h.answers
    dispatched := h.dispatched
    inHand := by simpa only [hsession] using h.inHand
    told := by simpa only [System.told, hsession] using h.told
    silenced := fun ht => hstep.terminated (h.silenced (by
      simpa only [System.told, hsession] using ht))
    gone := by simpa only [hsession] using h.gone
    failed := by simpa only [hsession] using h.failed
    ended := by simpa only [hsession] using h.ended }

theorem Tallies.dispatched_eq (h : c.Tallies) {answered taken : List Request}
    (hall : List.Forall₂ Replies answered c.trace.outcomes)
    (htaken : (answered ++ taken) <+: c.trace.inbound.requests)
    (hlen : taken.length = c.trace.sys.session.phase.inHand) :
    dispatchedIn c.deeds = answered ++ taken := by
  have heq : (dispatchedIn c.deeds).length = (answered ++ taken).length := by
    rw [h.inHand, List.length_append, hall.length_eq, hlen]
  exact (List.prefix_of_prefix_length_le h.dispatched htaken heq.le).eq_of_length heq

theorem Tallies.disconnected_of_handling (h : c.Tallies) {r : Request}
    (hp : c.trace.sys.session.phase = .handling r) :
    c.trace.sys.session.disconnected = false := by
  rw [Bool.eq_false_iff]
  intro hd
  obtain ⟨answered, -, hst⟩ := h.ledger.standing
  obtain ⟨o, ho, -⟩ | hshut := h.gone hd
  · cases hp.symm.trans ho
  · exact Trace.not_open_of_shut hshut (hst.open_of_inHand (by rw [hp]; rfl))

theorem Tallies.gone_session {sys : System σ τ} (h : c.Tallies)
    (hstep : System.SessionStep host c.trace.sys sys) (hd : sys.session.disconnected = true) :
    (∃ o, sys.session.phase = .answering o ∧ o.closes = true) ∨
      Trace.Shut (c.trace.outcomes ++ (c.trace.sys.outcome? (.step .session)).toList) := by
  obtain ⟨answered, -, hst⟩ := h.ledger.standing
  by_cases hhand : ∃ r, c.trace.sys.session.phase = .handling r
  · obtain ⟨r, hp⟩ := hhand
    cases hstep with
    | takeUp hp' =>
      cases hp.symm.trans hp'
      obtain ⟨-, hsame⟩ | ⟨-, -, ho⟩ := System.deed?_takeUp host hp
      · rw [hsame, h.disconnected_of_handling hp] at hd
        cases hd
      · exact .inl ho
    | shut hp' | quit hp' | skip hp' | begin hp' | ask hp' | askInVain hp' | schedule hp'
      | scheduleInVain hp' | pass hp' | passError hp' | resume hp' | resumeInVain hp' | decide hp'
      | decideInVain hp' | answer hp' | follow hp' | letGo hp' | close hp' | goOn hp' | mark hp'
      | vacate hp' | vacant hp' | settle hp' | release hp' | disconnect hp' | finish hp' =>
      cases hp.symm.trans hp'
  · rw [hstep.disconnected fun r hp => hhand ⟨r, hp⟩] at hd
    by_cases hans : ∃ o, c.trace.sys.session.phase = .answering o
    · obtain ⟨o, hp⟩ := hans
      have hopen := hst.open_of_inHand (by rw [hp]; rfl)
      have hout : c.trace.sys.outcome? (.step .session) = some o := by
        simp only [System.outcome?, hp]
      obtain ⟨o', hp', hc⟩ | hshut := h.gone hd
      · cases hp.symm.trans hp'
        rw [hout]
        exact .inr ⟨c.trace.outcomes, o, rfl, hopen, hc⟩
      · exact absurd hopen (Trace.not_open_of_shut hshut)
    · rw [Trace.outcome?_eq_none fun o hp => hans ⟨o, hp⟩, Option.toList_none, List.append_nil]
      obtain ⟨o, hp, -⟩ | hshut := h.gone hd
      · exact absurd ⟨o, hp⟩ hans
      · exact .inr hshut

theorem Tallies.dispatched_session (h : c.Tallies) :
    dispatchedIn c.deeds ++ dispatchedIn c.trace.sys.deed?.toList <+:
      c.trace.inbound.requests := by
  obtain hnone | ⟨message, r, hp, hc, hread, hreq, hone⟩ :=
    System.dispatchedIn_deed? c.trace.sys
  · rw [hnone, List.append_nil]
    exact h.dispatched
  · obtain ⟨answered, hall, hst⟩ := h.ledger.standing
    rw [hp] at hst
    have hread : c.trace.sys.session.reader.readMessage =
        (.item message, c.trace.sys.session.reader.readMessage.2) := Prod.ext hread rfl
    have hnext := hst.2.begin hread hreq
    have htaken : answered ++ [] <+: c.trace.inbound.requests := by
      rw [List.append_nil]
      exact ⟨_, hst.2.requests_eq.symm⟩
    have hold := h.dispatched_eq hall htaken (by rw [hp]; rfl)
    rw [hold, List.append_nil, hone]
    exact ⟨_, hnext.requests_eq.symm⟩

theorem Tallies.session {sys : System σ τ} (h : c.Tallies)
    (hstep : System.SessionStep host c.trace.sys sys) :
    Tallies
      { trace := { c.trace with
          sys := sys
          outcomes := c.trace.outcomes ++ (c.trace.sys.outcome? (.step .session)).toList }
        deeds := c.deeds ++ c.trace.sys.deed?.toList } := by
  have hanswer := System.answersIn_deed? c.trace.sys
  exact {
    ledger := h.ledger.session hstep
    outlook := h.outlook.session h.ledger hstep
    sealed := h.sealed.session hstep _
    answers := by
      rw [answersIn, List.filterMap_append]
      exact congr (congrArg _ h.answers) hanswer.symm
    dispatched := by
      rw [dispatchedIn, List.filterMap_append]
      exact h.dispatched_session
    inHand := by
      have hcount := hstep.inHand
      have hnow := h.inHand
      rw [hanswer] at hcount
      rw [dispatchedIn, List.filterMap_append, List.length_append, List.length_append]
      show (dispatchedIn _).length + (dispatchedIn _).length = _ + sys.session.phase.inHand
      omega
    told := by
      rw [hstep.told fun r hp => h.disconnected_of_handling hp, ← h.told]
      exact List.countP_append
    silenced := fun ht => by
      obtain ⟨-, hd⟩ | ⟨hnone, hd⟩ := hstep.debugger
      · exact congrArg Debugger.terminated hd
      · have hsame := hstep.told fun r hp => h.disconnected_of_handling hp
        have ht : sys.told = true := ht
        rw [hnone, ht] at hsame
        refine hd.trans (h.silenced ?_)
        exact Bool.toNat_eq_one.1 hsame.symm
    gone := h.gone_session hstep
    failed := fun e => by
      rw [List.mem_append, h.failed, hstep.failed, Option.mem_toList]
    ended := fun result => by
      rw [List.mem_append, h.ended, hstep.ended, Option.mem_toList] }

theorem Tallies.later (h : c.Tallies) (as : List Packet.Arrival) (ended : Bool) :
    Tallies { c with trace := c.trace.later as ended } where
  ledger := h.ledger.later as ended
  outlook := h.outlook.later as ended
  sealed := h.sealed
  answers := h.answers
  dispatched := h.dispatched.trans
    ((Packet.Reader.messages_prefix _ as ended).filterMap System.requestOf?)
  inHand := h.inHand
  told := h.told
  silenced := h.silenced
  gone := h.gone
  failed := h.failed
  ended := h.ended

theorem tallies_run (host : Host σ τ) (debugger : Debugger) (target : τ)
    (program : List (Item σ)) (moves : List Move) :
    Tallies (.run host moves { trace := { sys := .start debugger target program } }) := by
  refine (recorder host).run_keeps (P := Tallies) (fun {c} arrivals h => ?arrive)
    (fun {c} h => ?hangUp) (fun h hstep => h.session hstep) (fun {c} h hstep => ?thread)
    (tallies_start debugger target program) moves
  all_goals have hquiet : c.deeds ++ [] = c.deeds := List.append_nil _
  case arrive =>
    show Tallies { trace := c.trace.play host (.arrive arrivals), deeds := c.deeds ++ [] }
    rw [Trace.play_arrive, hquiet]
    exact h.later arrivals false
  case hangUp =>
    show Tallies { trace := c.trace.play host .hangUp, deeds := c.deeds ++ [] }
    rw [Trace.play_hangUp, hquiet]
    exact h.later [] true
  case thread =>
    show Tallies { trace := c.trace.play host (.step .thread), deeds := c.deeds ++ [] }
    rw [Trace.play_thread, hquiet]
    exact h.thread hstep

-- ---------------------------------------------------------------------------
-- Requests and their answers
-- ---------------------------------------------------------------------------

theorem answering_of_deedOf? {move : Move} {o : Outcome}
    (h : sys.deedOf? move = some (.answered o)) : sys.session.phase = .answering o := by
  cases move with
  | arrive | hangUp => cases h
  | step side =>
    cases side with
    | thread => cases h
    | session =>
      have hdeed : sys.deed? = some (.answered o) := h
      have hout := System.answersIn_deed? sys
      by_cases hp : ∃ o', sys.session.phase = .answering o'
      · obtain ⟨o', hp⟩ := hp
        simp only [System.deed?, hp, Option.some.injEq, Deed.answered.injEq] at hdeed
        rw [hp, hdeed]
      · rw [hdeed, Trace.outcome?_eq_none fun o' hp' => hp ⟨o', hp'⟩] at hout
        cases hout

theorem Tallies.of_answering (h : c.Tallies) {o : Outcome}
    (hp : c.trace.sys.session.phase = .answering o) :
    ∃ earlier r, dispatchedIn c.deeds = earlier ++ [r] ∧
      earlier.length = c.trace.outcomes.length ∧ Replies r o ∧ Trace.Open c.trace.outcomes := by
  obtain ⟨answered, hall, hst⟩ := h.ledger.standing
  rw [hp] at hst
  obtain ⟨r, hreply, -, hopen, hunread⟩ := hst
  have heq := h.dispatched_eq hall ⟨_, hunread.requests_eq.symm⟩ (by rw [hp]; rfl)
  exact ⟨answered, r, heq, hall.length_eq, hreply, hopen⟩

variable {before after : List Deed} {o : Outcome}

theorem Tallies.outcomes_of_split (h : c.Tallies)
    (hsplit : c.deeds = before ++ .answered o :: after) :
    c.trace.outcomes = answersIn before ++ o :: answersIn after := by
  rw [h.answers, hsplit, answersIn, List.filterMap_append]
  rfl

theorem dispatchedIn_of_split (hsplit : c.deeds = before ++ .answered o :: after) :
    dispatchedIn c.deeds = dispatchedIn before ++ dispatchedIn after := by
  rw [hsplit, dispatchedIn, List.filterMap_append]
  rfl

theorem Tallies.length_of_split (h : c.Tallies) (hsplit : c.deeds = before ++ .answered o :: after)
    (hbefore : (dispatchedIn before).length = (answersIn before).length + 1) :
    (dispatchedIn after).length =
      (answersIn after).length + c.trace.sys.session.phase.inHand := by
  have hcount := h.inHand
  rw [dispatchedIn_of_split hsplit, h.outcomes_of_split hsplit, List.length_append,
    List.length_append, List.length_cons, hbefore] at hcount
  omega

theorem Tallies.stops_of_closes (h : c.Tallies) (hsplit : c.deeds = before ++ .answered o :: after)
    (hbefore : (dispatchedIn before).length = (answersIn before).length + 1)
    (hc : o.closes = true) : dispatchedIn after = [] := by
  obtain ⟨answered, -, hst⟩ := h.ledger.standing
  have hout := h.outcomes_of_split hsplit
  have hnot : ¬ Trace.Open c.trace.outcomes := by
    intro hopen
    cases hc.symm.trans (hopen o (by rw [hout]; simp))
  have hlast : answersIn after = [] := by
    obtain ⟨before', o', heq, hopen, -⟩ := hst.first.2.resolve_left hnot
    rw [hout] at heq
    obtain hnil | ⟨rest, last, hrest⟩ := List.eq_nil_or_concat (answersIn after)
    · exact hnil
    · rw [hrest, List.concat_eq_append, ← List.cons_append, ← List.append_assoc] at heq
      obtain ⟨rfl, -⟩ := List.append_inj' heq rfl
      cases hc.symm.trans (hopen o (by simp))
  have hhand : c.trace.sys.session.phase.inHand = 0 := by
    by_contra hne
    refine hnot (hst.open_of_inHand ?_)
    cases hp : c.trace.sys.session.phase <;> simp_all [Session.Phase.inHand]
  have hlen := h.length_of_split hsplit hbefore
  rw [hlast, hhand] at hlen
  exact List.eq_nil_of_length_eq_zero hlen

theorem Tallies.dispatched_all (h : c.Tallies) (hrest : c.trace.sys.stepSession host = none)
    (hhand : c.trace.sys.session.phase.inHand = 0) (hopen : Trace.Open c.trace.outcomes) :
    dispatchedIn c.deeds = c.trace.inbound.requests := by
  obtain ⟨answered, hall, hst⟩ := h.ledger.standing
  have hrequests : c.trace.inbound.requests = answered := by
    obtain ⟨reader, hp, hread⟩ | ⟨r, hp, -⟩ | ⟨result, hp⟩ := System.waiting_of_stepSession hrest
    · rw [hp] at hst
      rw [hst.2.requests_eq, Packet.Reader.requests, Packet.Reader.messages_of_blocked hread]
      exact List.append_nil _
    · rw [hp] at hhand
      cases hhand
    · rw [hp] at hst
      obtain ⟨hshut, -⟩ | ⟨-, hs⟩ := hst
      · exact absurd hopen (Trace.not_open_of_shut hshut)
      · exact hs.requests_eq
  have htaken : answered ++ [] <+: c.trace.inbound.requests :=
    ⟨[], by rw [List.append_nil, List.append_nil, hrequests]⟩
  have heq := h.dispatched_eq hall htaken (by rw [hhand]; rfl)
  rw [heq, List.append_nil, hrequests]

theorem Tallies.goesOn_of_open (h : c.Tallies) (hsplit : c.deeds = before ++ .answered o :: after)
    (hbefore : (dispatchedIn before).length = (answersIn before).length + 1)
    (hopen : Trace.Open (answersIn before)) (hc : o.closes = false)
    (hrest : c.trace.sys.stepSession host = none) :
    dispatchedIn after ≠ [] ∨ dispatchedIn before = c.trace.inbound.requests := by
  by_cases hafter : dispatchedIn after = []
  · have hlen := h.length_of_split hsplit hbefore
    rw [hafter, List.length_nil] at hlen
    have hlast : answersIn after = [] := List.eq_nil_of_length_eq_zero (by omega)
    have hout := h.outcomes_of_split hsplit
    have hall := h.dispatched_all hrest (by omega) (by
      rw [hout, hlast]
      intro o' ho'
      obtain ho' | ho' := List.mem_append.1 ho'
      · exact hopen o' ho'
      · rw [List.mem_singleton.1 ho']
        exact hc)
    rw [dispatchedIn_of_split hsplit, hafter, List.append_nil] at hall
    exact .inr hall
  · exact .inl hafter

theorem Tallies.once (h : c.Tallies) : disconnectsIn c.deeds ≤ 1 := by
  rw [h.told]
  exact Bool.toNat_le _

theorem Tallies.terminated (h : c.Tallies) (hmem : .disconnected ∈ c.deeds) :
    c.trace.sys.debugger.terminated = true := by
  have hpos : 0 < disconnectsIn c.deeds := List.countP_pos_iff.2 ⟨_, hmem, rfl⟩
  refine h.silenced ?_
  by_contra hnot
  rw [h.told, Bool.eq_false_iff.2 hnot] at hpos
  cases hpos

theorem Tallies.of_ended (h : c.Tallies) {result : Except AdapterError Unit}
    (hmem : .ended result ∈ c.deeds) :
    disconnectsIn c.deeds = 1 ∧ (∀ e, result = .error e ↔ .failed e ∈ c.deeds) ∧
      ((∃ o ∈ answersIn c.deeds, o.closes = true) ∧ result = .ok () ∨
        (∀ o ∈ answersIn c.deeds, o.closes = false) ∧
          System.endOf? c.trace.inbound.ending = some result) := by
  have hp := (h.ended result).1 hmem
  refine ⟨?told, fun e => ?failed, ?result⟩
  case told =>
    rw [h.told, System.told, hp]
    rfl
  case failed =>
    rw [h.failed e, hp, Session.Phase.result?, Option.some.injEq]
  case result =>
    have hout := h.outlook
    simp only [Trace.Outlook, hp, Session.Phase.result?] at hout
    rw [← h.answers]
    obtain ⟨⟨before, o, heq, -, hc⟩, hok⟩ | ⟨hopen, hend⟩ := hout
    · exact .inl ⟨⟨o, by rw [heq]; simp, hc⟩, hok⟩
    · refine .inr ⟨hopen, ?_⟩
      have := hend [] false
      rwa [Packet.Reader.later_nil] at this

theorem Tallies.at_rest (h : c.Tallies) (hrest : c.trace.sys.stepSession host = none) :
    (∃ result, .ended result ∈ c.deeds) ∨
      ((∀ o ∈ answersIn c.deeds, o.closes = false) ∧ c.trace.inbound.ending = .blocked ∧
        dispatchedIn c.deeds = c.trace.inbound.requests) ∨
      ∃ r, c.trace.sys.session.phase = .awaiting r ∧ c.trace.sys.reply = none := by
  obtain ⟨reader, hp, hread⟩ | hwait | ⟨result, hp⟩ := System.waiting_of_stepSession hrest
  · obtain ⟨answered, -, hst⟩ := h.ledger.standing
    rw [hp] at hst
    have hclosed : c.trace.sys.handle.closed = false := by
      rw [Bool.eq_false_iff]
      intro hc
      simp [System.stepSession, hp, System.read, hc] at hrest
    obtain ⟨hopen, -⟩ := hst
    rw [hclosed] at hopen
    refine .inr (.inl ⟨?_, ?_, h.dispatched_all hrest (by rw [hp]; rfl) hopen⟩)
    · rw [← h.answers]
      exact hopen
    · have hout := h.outlook
      simp only [Trace.Outlook, hp, Session.Phase.result?] at hout
      have := hout [] false
      rw [Packet.Reader.later_nil, Packet.Reader.later_nil] at this
      rw [this, Packet.Reader.ending_of_blocked hread]
  · exact .inr (.inr hwait)
  · exact .inl ⟨result, (h.ended result).2 hp⟩

-- ---------------------------------------------------------------------------
-- What is written
-- ---------------------------------------------------------------------------

theorem Tallies.written_of_shut (h : c.Tallies) {w : Writer} (hw : w.state = .writing)
    (ht : w.taken = 0) (hsink : w.sink.shut = false) {queue : List Outgoing}
    (hq : queue <+: c.trace.sys.handle.outbox) (hshut : (w.flush queue).sink.shut = true) :
    ∃ before behind, c.trace.sys.handle.outbox = before ++ Outgoing.close :: behind ∧
      (∀ m ∈ before, m ≠ .close) ∧ (∀ m ∈ behind, ∃ e, m = .event e) ∧
      (w.flush queue).sink.accepted =
        w.sink.accepted ++ Writer.wire w.endpoint w.number before := by
  have hnot (hopen : ∀ m ∈ queue, m ≠ .close) : False := by
    rw [(Writer.flush_of_open hopen hw ht).1, Packet.Sink.shut_write, hsink] at hshut
    cases hshut
  obtain ⟨hout, -⟩ | ⟨result, before, behind, -, heq, hbefore, hbehind⟩ := h.sealed
  · exact (hnot fun m hm => hout m (hq.subset hm)).elim
  · refine ⟨before, behind, heq, hbefore, hbehind, ?_⟩
    rw [heq] at hq
    obtain hshort | ⟨rest, rfl⟩ :
        queue <+: before ∨ ∃ rest, queue = before ++ Outgoing.close :: rest := by
      obtain hshort | ⟨rest, rfl⟩ :=
        List.prefix_or_prefix_of_prefix hq (List.prefix_append before _)
      · exact .inl hshort
      · cases rest with
        | nil => exact .inl ⟨[], by rw [List.append_nil, List.append_nil]⟩
        | cons m rest =>
          obtain ⟨rfl, -⟩ := List.cons_prefix_cons.1 ((List.prefix_append_right_inj before).1 hq)
          exact .inr ⟨rest, rfl⟩
    · exact (hnot fun m hm => hbefore m (hshort.subset hm)).elim
    · have hclosed := Writer.flush_of_closed rest hbefore hw ht
      split at hclosed
      · rename_i hok
        rw [hclosed.2]
        exact Packet.Sink.accepted_of_write hok
      · rw [hclosed.2, Packet.Sink.shut_write, hsink] at hshut
        cases hshut

theorem Tallies.shut_or_failed (h : c.Tallies) {result : Except AdapterError Unit}
    (hmem : .ended result ∈ c.deeds) {w : Writer} (hw : w.state = .writing) (ht : w.taken = 0) :
    (w.flush c.trace.sys.handle.outbox).sink.shut = true ∨
      (w.flush c.trace.sys.handle.outbox).state = .failed ∧ ∃ n before behind,
        w.sink.room = some n ∧ c.trace.sys.handle.outbox = before ++ .close :: behind ∧
        n < (Writer.wire w.endpoint w.number before).length := by
  have hp := (h.ended result).1 hmem
  obtain ⟨-, hne⟩ | ⟨-, before, behind, -, heq, hbefore, -⟩ := h.sealed
  · exact absurd hp (hne result)
  · have hclosed := Writer.flush_of_closed behind hbefore hw ht
    rw [heq]
    split at hclosed
    · rw [hclosed.2]
      exact .inl rfl
    · rename_i hno
      obtain ⟨n, hn, hlt⟩ := Packet.Sink.lt_of_write (Bool.eq_false_iff.2 hno)
      exact .inr ⟨hclosed.1, n, before, behind, hn, rfl, hlt⟩

/-- Closing follows these rules, where `host` says how a session may move on. -/
structure Disciplined (host : Host σ τ) (c : Annals σ τ) : Prop where
  dispatched : dispatchedIn c.deeds <+: c.trace.inbound.requests
  answered : c.trace.sys.handle.responses = (answersIn c.deeds).map (·.response)
  /-- Every answer is one to the request that was dispatched last. If it closes the session, that
  was the last request; if not, a session that comes to rest has dispatched another one, or there
  was none. -/
  handled : ∀ before o after, c.deeds = before ++ .answered o :: after →
    ∃ earlier r, dispatchedIn before = earlier ++ [r] ∧ earlier.length = (answersIn before).length ∧
      Replies r o ∧
      (o.closes = true ↔ o.response.success = true ∧ r.command = "disconnect" ∨
        o.response.success = false ∧ ∃ e : AdapterError, o.response.message = some e.message ∧
          e.isContractViolation = false) ∧
      (o.closes = true → dispatchedIn after = []) ∧
      (o.closes = false → c.trace.sys.stepSession host = none →
        dispatchedIn after ≠ [] ∨ dispatchedIn before = c.trace.inbound.requests)
  once : disconnectsIn c.deeds ≤ 1
  told : .disconnected ∈ c.deeds → c.trace.sys.debugger.terminated = true
  rests : c.trace.sys.Settles host
  /-- Where a session comes to rest it has ended, or waits for more of the stream or for a reply. -/
  ends : c.trace.sys.stepSession host = none → (∃ result, .ended result ∈ c.deeds) ∨
    ((∀ o ∈ answersIn c.deeds, o.closes = false) ∧ c.trace.inbound.ending = .blocked ∧
      dispatchedIn c.deeds = c.trace.inbound.requests) ∨
    ∃ r, c.trace.sys.session.phase = .awaiting r ∧ c.trace.sys.reply = none
  ended : ∀ result, .ended result ∈ c.deeds → disconnectsIn c.deeds = 1 ∧
    (∀ e, result = .error e ↔ .failed e ∈ c.deeds) ∧
    ((∃ o ∈ answersIn c.deeds, o.closes = true) ∧ result = .ok () ∨
      (∀ o ∈ answersIn c.deeds, o.closes = false) ∧
        System.endOf? c.trace.inbound.ending = some result)
  /-- However much of the outbox was written when the stream was shut down, it was all that had been
  queued before the end, the responses among it. -/
  written : ∀ endpoint accepted room queue, queue <+: c.trace.sys.handle.outbox →
    let w := ({ endpoint := endpoint, sink := { accepted := accepted, room := room } } :
      Writer).flush queue
    w.sink.shut = true → ∃ before behind, c.trace.sys.handle.outbox = before ++ .close :: behind ∧
      (∀ m ∈ before, m ≠ .close) ∧ (∀ m ∈ behind, ∃ e, m = .event e) ∧
      w.sink.accepted = accepted ++ Writer.wire endpoint 1 before
  /-- And it is shut down in the end, unless a write fails for want of room. -/
  shut : ∀ result, .ended result ∈ c.deeds → ∀ endpoint accepted room,
    let w := ({ endpoint := endpoint, sink := { accepted := accepted, room := room } } :
      Writer).flush c.trace.sys.handle.outbox
    w.sink.shut = true ∨ w.state = .failed ∧ ∃ n before behind, room = some n ∧
      c.trace.sys.handle.outbox = before ++ .close :: behind ∧
      n < (Writer.wire endpoint 1 before).length

/-- Whatever arrives, whatever the target does and whoever moves when, a session ends in order. -/
theorem session_ends_in_order (host : Host σ τ) (debugger : Debugger) (target : τ)
    (program : List (Item σ)) (moves : List Move) :
    Disciplined host (.run host moves { trace := { sys := .start debugger target program } }) := by
  have h := tallies_run host debugger target program moves
  refine ⟨h.dispatched, h.ledger.sent.trans (by rw [h.answers]), ?handled, h.once, h.terminated,
    System.settles host _, h.at_rest, fun result => h.of_ended, ?written, ?shut⟩
  case handled =>
    intro before o after hsplit
    obtain ⟨first, move, rest, rfl, hfirst, hmove⟩ :=
      @exists_move _ _ host { trace := { sys := .start debugger target program } } _ before _ _
        hsplit
    have hthen := tallies_run host debugger target program first
    obtain ⟨earlier, r, hdispatched, hlen, hreply, hopen⟩ :=
      hthen.of_answering (answering_of_deedOf? hmove)
    rw [hfirst, List.nil_append] at hdispatched
    rw [hthen.answers, hfirst, List.nil_append] at hlen hopen
    have hbefore : (dispatchedIn before).length = (answersIn before).length + 1 := by
      rw [hdispatched, List.length_append, hlen]
      rfl
    exact ⟨earlier, r, hdispatched, hlen, hreply, hreply.closes_iff,
      h.stops_of_closes hsplit hbefore, h.goesOn_of_open hsplit hbefore hopen⟩
  case written =>
    intro endpoint accepted room queue hq w hshut
    exact h.written_of_shut rfl rfl rfl hq hshut
  case shut =>
    intro result hmem endpoint accepted room
    exact h.shut_or_failed hmem rfl rfl

end Annals

end DebugAdapter
