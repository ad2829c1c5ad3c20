import DebugAdapter.Proofs.Session.Announcements

/-!
# When a question kills the thread

A question that kills the thread is refused, and the session stays open. The stop keeps its place,
though: it is still active, without a decision and not let go, and nobody is left to come back from
it. A request to resume is granted there. A question is accepted there and never answered, and
nothing behind it is answered either. Requests that look for no stop do not notice.
-/

namespace DebugAdapter

open Protocol Journal

variable {σ τ : Type} {host : Host σ τ} {sys : System σ τ} {J before after : List Entry}
  {r : Request} {q : Question} {stop : Nat} {o : Outcome}

namespace Journal

-- ---------------------------------------------------------------------------
-- The stop
-- ---------------------------------------------------------------------------

theorem Regular.active_of_asked (h : Regular J)
    (hl : lastOf .session J = some (.accepted r (.inspect q) stop)) :
    activeIn J = some stop ∧ decisionIn J stop = none := by
  have hnot := h.not_released hl
  constructor
  case left =>
    obtain ⟨place, hi⟩ := h.installed_of_lt (h.lt_stopsIn (mem_of_lastOf hl).1 rfl)
    obtain hr | ha | ⟨x, hl', hx⟩ := h.released_or_active hi
    · exact absurd hr hnot
    · exact ha
    · cases hl.symm.trans hl'
      cases hx
  case right =>
    cases hd : decisionIn J stop with
    | none => rfl
    | some d =>
      obtain hr | ⟨x, hl', hx⟩ := h.released_or_owes hd
      · exact absurd hr hnot
      · cases hl.symm.trans hl'
        cases hx

theorem Regular.asked_of_faulted (h : Regular (before ++ Entry.faulted stop q :: after)) :
    ∃ r, lastOf .session before = some (.accepted r (.inspect q) stop) ∧
      lastOf .session (before ++ [Entry.faulted stop q]) =
        some (.accepted r (.inspect q) stop) := by
  cases h.admits with
  | faulted _ hl => exact ⟨_, hl, by rw [lastOf_append, if_neg nofun, hl]⟩

/-- Without the thread, a stop is active until the session takes it away. -/
theorem Regular.active_of_silent (h : Regular (before ++ after))
    (hsilent : ∀ x ∈ after, x.side? ≠ some .thread) (ha : activeIn before = some stop) :
    activeIn (before ++ after) = some stop ∧ .vacated stop ∉ after ∨
      activeIn (before ++ after) = none ∧ .vacated stop ∈ after := by
  induction after using List.reverseRecOn with
  | nil => exact .inl ⟨by rwa [List.append_nil], List.not_mem_nil⟩
  | append_singleton after x ih =>
    rw [← List.append_assoc] at h ⊢
    have ih := ih h.prefix fun y hy => hsilent y (List.mem_append_left _ hy)
    have hside := hsilent x (by simp)
    rw [activeIn_append]
    cases h.admits_last with
    | vacated _ ha' =>
      obtain ⟨ha, -⟩ | ⟨ha, -⟩ := ih
      · cases ha.symm.trans ha'
        exact .inr ⟨rfl, by simp⟩
      · cases ha.symm.trans ha'
    | reported | installed | turnedAway | announced | served | faulted | returned =>
      exact absurd rfl hside
    | found | asked | askedLate | decided | decidedLate | answered | sent | letGo | marked | settled
      | disposed | closed => simpa [Entry.activeAfter] using ih

theorem Regular.resumed_of_silent (h : Regular (before ++ after))
    (hsilent : ∀ x ∈ after, x.side? ≠ some .thread)
    (hl : lastOf .session before = some (.accepted r (.inspect q) stop))
    (ha : activeIn (before ++ after) = some stop)
    (hd : decisionIn (before ++ after) stop ≠ none) :
    ∃ r' d', .accepted r' (.resume d') stop ∈ after := by
  obtain ⟨hactive, hnone⟩ := h.prefix.active_of_asked hl
  obtain ⟨d, hd⟩ := Option.ne_none_iff_exists'.1 hd
  rw [decisionIn, List.findSome?_append, ← decisionIn, hnone, Option.none_or] at hd
  obtain ⟨x, hx, hdx⟩ := List.exists_of_findSome?_eq_some hd
  obtain ⟨r', rfl⟩ | ⟨rfl, -⟩ := decides?_eq_some hdx
  · exact ⟨r', d, hx⟩
  · -- a stop that is settled was taken away before
    obtain ⟨as, bs, rfl⟩ := List.append_of_mem hx
    have hvacated : .vacated stop ∈ as := by
      rw [← List.append_assoc] at h
      cases h.admits with
      | settled hl' =>
        cases hlast : lastOf .session as with
        | none =>
          rw [lastOf_append_of_none hlast] at hl'
          cases hl.symm.trans hl'
        | some x =>
          cases (lastOf_append_of_some hlast).symm.trans hl'
          exact (mem_of_lastOf hlast).1
    obtain ⟨-, hnot⟩ | ⟨ha', -⟩ := h.active_of_silent hsilent hactive
    · exact absurd (List.mem_append_left _ hvacated) hnot
    · cases ha.symm.trans ha'

theorem Regular.active_of_faulted (h : Regular (before ++ Entry.faulted stop q :: after)) :
    activeIn (before ++ Entry.faulted stop q :: after) = some stop ∧ .vacated stop ∉ after ∨
      activeIn (before ++ Entry.faulted stop q :: after) = none ∧ .vacated stop ∈ after := by
  have hsilent := h.silent
  obtain ⟨r, -, hl⟩ := h.asked_of_faulted
  rw [List.append_cons] at h ⊢
  obtain ⟨ha, -⟩ := h.prefix.active_of_asked hl
  exact h.active_of_silent hsilent ha

theorem Regular.undecided_of_faulted (h : Regular (before ++ Entry.faulted stop q :: after))
    (ha : activeIn (before ++ Entry.faulted stop q :: after) = some stop)
    (hnone : ∀ r d, .accepted r (.resume d) stop ∉ after) :
    decisionIn (before ++ Entry.faulted stop q :: after) stop = none := by
  have hsilent := h.silent
  obtain ⟨r, -, hl⟩ := h.asked_of_faulted
  rw [List.append_cons] at h ha ⊢
  by_contra hd
  obtain ⟨r', d', ha'⟩ := h.resumed_of_silent hsilent hl ha hd
  exact hnone r' d' ha'

theorem Regular.not_released_of_faulted (h : Regular (before ++ Entry.faulted stop q :: after))
    (hr : .released stop ∉ after) : .released stop ∉ before ++ Entry.faulted stop q :: after := by
  obtain ⟨r, hl, -⟩ := h.asked_of_faulted
  have hbefore := h.prefix.not_released hl
  simpa using ⟨hbefore, hr⟩

-- ---------------------------------------------------------------------------
-- Replies
-- ---------------------------------------------------------------------------

theorem replyIn_of_silent (hsilent : ∀ x ∈ after, x.side? ≠ some .thread) :
    replyIn (before ++ after) =
      if (after.findSome? Entry.answer?).isSome then none else replyIn before := by
  induction after using List.reverseRecOn with
  | nil => rw [List.append_nil]; rfl
  | append_singleton after x ih =>
    rw [← List.append_assoc, replyIn_append, ih fun y hy => hsilent y (List.mem_append_left _ hy),
      List.findSome?_append]
    have hside := hsilent x (by simp)
    cases x with
    | answered o => cases after.findSome? Entry.answer? <;> rfl
    | reported | installed | announced | served | faulted | returned => exact absurd rfl hside
    | found | accepted | refused | sent | released | marked | vacated | settled | closed =>
      cases after.findSome? Entry.answer? <;> rfl

theorem Regular.replyIn_eq_none (h : Regular J) (hu : Unengaged (lastOf .session J)) :
    replyIn J = none := by
  cases hr : replyIn J with
  | none => rfl
  | some reply =>
    obtain ⟨r, q, stop, hl, -⟩ := h.reply hr
    rw [hl] at hu
    cases hu

theorem Regular.refused_of_faulted (h : Regular (before ++ Entry.faulted stop q :: after))
    (hl : lastOf .session before = some (.accepted r (.inspect q) stop))
    (ho : after.findSome? Entry.answer? = some o) : o = .refusal r .stopEnded := by
  obtain ⟨as, x, bs, rfl, hx, has⟩ := List.findSome?_eq_some_iff.1 ho
  cases x <;> cases hx
  have hsilent := h.silent
  rw [← List.cons_append, ← List.append_assoc] at h
  have hlast : lastOf .session (before ++ Entry.faulted stop q :: as) =
      some (.accepted r (.inspect q) stop) :=
    h.prefix.accepted_until_answered hl (by simpa [Entry.answer?] using has)
  obtain ⟨o, ⟨⟩, ho⟩ := after_accepted hlast h.admits rfl
  cases ho with
  | relayed _ hr =>
    rw [List.append_cons, replyIn_of_silent fun y hy => hsilent y (List.mem_append_left _ hy),
      List.findSome?_eq_none_iff.2 has, replyIn_append] at hr
    cases hr
    rfl

theorem Regular.unanswered_of_silent
    (h : Regular (before ++ Entry.found r (.inspect q) (some stop) :: after))
    (hr : .released stop ∉ before) (hsilent : ∀ x ∈ after, x.side? ≠ some .thread) :
    after.findSome? Entry.answer? = none ∧ ((∀ x ∈ after, x.side? ≠ some .session) ∨
      lastOf .session after = some (.accepted r (.inspect q) stop)) := by
  induction after using List.reverseRecOn with
  | nil => exact ⟨rfl, .inl fun x hx => absurd hx List.not_mem_nil⟩
  | append_singleton after x ih =>
    have hold (y : Entry) (hy : y ∈ after) := hsilent y (List.mem_append_left _ hy)
    rw [← List.cons_append, ← List.append_assoc] at h
    obtain ⟨hnone, hcase⟩ := ih h.prefix hold
    rw [List.findSome?_append, hnone, Option.none_or]
    by_cases hside : x.side? = some .session
    case neg =>
      refine ⟨by simp [answer?_of_others hside], ?_⟩
      obtain hn | hl := hcase
      · exact .inl (by simpa [hside, or_imp, forall_and] using hn)
      · exact .inr (by simpa [hside] using hl)
    case pos =>
      obtain hn | hl := hcase
      · cases h.admits_last.ensues (lastOf_split rfl hn) nofun hside with
        | asked => exact ⟨rfl, .inr (lastOf_append_own rfl)⟩
        | askedLate hr' =>
          rw [List.append_cons, released_of_others hn] at hr'
          exact absurd (by simpa using hr') hr
      · have hreply :
            replyIn (before ++ Entry.found r (.inspect q) (some stop) :: after) = none := by
          rw [replyIn_of_silent (by simpa [Entry.side?] using hold),
            h.prefix.prefix.replyIn_eq_none h.prefix.of_found.1, ite_self]
        have hlast := h.admits_last
        rw [List.append_cons] at hlast hreply
        obtain ⟨o, -, ho⟩ := after_accepted (lastOf_append_of_some hl) hlast hside
        cases ho with
        | relayed _ hr' => cases hreply.symm.trans hr'

end Journal

namespace System

theorem Kept.yields_of_faulted (h : sys.Kept (before ++ Entry.faulted stop q :: after))
    (hl : lastOf .session before = some (.accepted r (.inspect q) stop)) :
    Yields host sys after (.refusal r .stopEnded) where
  only o ho := h.regular.refused_of_faulted hl ho
  rests := sys.settles host
  atRest hrest := by
    cases ho : after.findSome? Entry.answer? with
    | some o => rw [h.regular.refused_of_faulted hl ho]
    | none =>
      have hnone : ∀ x ∈ after, x.answer? = none := List.findSome?_eq_none_iff.1 ho
      have hlast := h.regular.accepted_until_answered hl
        (by simpa [Entry.answer?] using hnone)
      obtain hu | ⟨r, q, stop, -, hreply⟩ := h.last_of_waiting (hrest .session)
      · rw [hlast] at hu
        cases hu
      · rw [List.append_cons, replyIn_of_silent h.regular.silent, ho, replyIn_append] at hreply
        cases hreply

/-- A question to a thread that is dead keeps the session waiting for ever. -/
theorem Kept.waits_of_faulted {rest : List Entry} {q' : Question}
    (h : sys.Kept (before ++ Entry.faulted stop q :: after ++
      Entry.found r (.inspect q') (some stop) :: rest)) (hr : .released stop ∉ after) :
    rest.findSome? Entry.answer? = none ∧
      (sys.Resting host → lastOf .session rest = some (.accepted r (.inspect q') stop)) := by
  have hsilent : ∀ x ∈ rest, x.side? ≠ some .thread := by
    have h := h.regular
    rw [List.append_assoc, List.cons_append] at h
    exact fun x hx => h.silent x (by simp [hx])
  have hnot := h.regular.prefix.not_released_of_faulted hr
  obtain ⟨hnone, -⟩ := h.regular.unanswered_of_silent hnot hsilent
  refine ⟨hnone, fun hrest => ?_⟩
  obtain ⟨o, ho⟩ | ⟨q, stop, ⟨⟩, ⟨⟩, -, hl⟩ := h.answered_of_resting (hrest .session)
  · cases hnone.symm.trans ho
  · exact hl

end System

-- ---------------------------------------------------------------------------
-- Other requests
-- ---------------------------------------------------------------------------

namespace System

theorem stepSession_thread (sys : System σ τ) (thread : Thread σ) :
    stepSession host { sys with thread := thread } =
      (sys.stepSession host).map fun next => { next with thread := thread } :=
  stepSession_withThread rfl sys thread

theorem answers_session (sys : System σ τ) :
    sys.sessionEntries.filterMap Entry.answer? = (sys.outcome? (Move.step .session)).toList := by
  unfold sessionEntries outcome?
  cases hp : sys.session.phase with
  | following events release closes => cases events <;> cases release <;> rfl
  | scheduling | deciding =>
    dsimp only
    split <;> rfl
  | closing step result =>
    cases step with
    | vacate => cases sys.handle.active <;> rfl
    | mark | settle | release => rfl
  | _ => rfl

theorem answers_thread (sys sys' : System σ τ) :
    (sys.threadEntries sys').filterMap Entry.answer? = [] := by
  unfold threadEntries
  split <;> simp [Entry.answer?]

end System

theorem Journal.run_trace (host : Host σ τ) (moves : List Move) {c : Journal σ τ} {t : Trace σ τ}
    (hsys : t.sys = c.sys) (ho : t.outcomes = c.entries.filterMap Entry.answer?) :
    (t.run host moves).sys = (c.run host moves).sys ∧
      (t.run host moves).outcomes = (c.run host moves).entries.filterMap Entry.answer? := by
  refine (Trace.recorder host).run_related (recorder host)
    (Q := fun t c => t.sys = c.sys ∧ t.outcomes = c.entries.filterMap Entry.answer?) ?_ ⟨hsys, ho⟩
    moves
  rintro t c move ⟨hsys, ho⟩
  have hnext : t.sys.play host move = c.sys.play host move :=
    congrArg (System.play host · move) hsys
  refine ⟨hnext, ?_⟩
  show t.outcomes ++ _ = (c.play host move).entries.filterMap Entry.answer?
  simp only [play, ho, hsys, List.filterMap_append]
  congr 1
  cases move with
  | step side =>
    cases side with
    | session => exact (System.answers_session c.sys).symm
    | thread => exact (System.answers_thread c.sys _).symm
  | arrive | hangUp => rfl

-- ---------------------------------------------------------------------------
-- Every run
-- ---------------------------------------------------------------------------

/-- What holds of a run in which a question has killed the thread. -/
structure AfterFault (host : Host σ τ) (c : Journal σ τ) (inbound : Packet.Reader) (stop : Nat)
    (q : Question) (before after : List Entry) : Prop where
  /-- The question is refused, and the session stays open. -/
  refused : ∃ r, lastOf .session before = some (.accepted r (.inspect q) stop) ∧
    Yields host c.sys after (.refusal r .stopEnded) ∧ (Outcome.refusal r .stopEnded).closes = false
  silent : ∀ x ∈ after, x.side? ≠ some .thread
  rests : c.sys.Settles host
  /-- The stop stays active until the session closes. -/
  active : c.sys.handle.active = some stop ∧ .vacated stop ∉ after ∨
    c.sys.handle.active = none ∧ .vacated stop ∈ after
  found : ∀ as r errand place bs, after = as ++ Entry.found r errand place :: bs →
    place = some stop ∧ .vacated stop ∉ as ∨
      place = none ∧ .vacated stop ∈ as ∧ Yields host c.sys bs (.refusal r .notStopped)
  /-- The first request to resume succeeds. -/
  resumed : ∀ as r d bs, after = as ++ Entry.found r (.resume d) (some stop) :: bs →
    (∀ r' d', .accepted r' (.resume d') stop ∉ as) → Yields host c.sys bs (.resumption r d stop)
  resumedAgain : ∀ as r d bs r' d', after = as ++ Entry.found r (.resume d) (some stop) :: bs →
    .accepted r' (.resume d') stop ∈ as → Yields host c.sys bs (.refusal r .alreadyResumed)
  /-- A question before that is accepted, and is the last request that the session takes up. -/
  asked : ∀ as r q' bs, after = as ++ Entry.found r (.inspect q') (some stop) :: bs →
    .released stop ∉ as → bs.findSome? Entry.answer? = none ∧
      (c.sys.Resting host → lastOf .session bs = some (.accepted r (.inspect q') stop))
  askedLate : ∀ as r q' bs, after = as ++ Entry.found r (.inspect q') (some stop) :: bs →
    .released stop ∈ as → Yields host c.sys bs (.refusal r .stopEnded)
  /-- What the session does is what it would do if the thread were alive. -/
  usual : ∀ thread, System.stepSession host { c.sys with thread := thread } =
    (c.sys.stepSession host).map fun next => { next with thread := thread }
  /-- Each request is answered, up to one that closes the session or a question at the stop. -/
  accounted : ∃ answered, answered <+: inbound.requests ∧
    List.Forall₂ Replies answered (c.entries.filterMap Entry.answer?) ∧
    (c.sys.Resting host → answered = inbound.requests ∨
      Trace.Shut (c.entries.filterMap Entry.answer?) ∨
      ∃ r q', lastOf .session c.entries = some (.accepted r (.inspect q') stop))

/-- A question that kills the thread leaves its stop active, with nobody there. -/
theorem fault_leaves_stop_active (debugger : Debugger) (target : τ) (program : List (Item σ))
    (moves : List Move)
    (h : (Journal.run host moves { sys := .start debugger target program }).entries =
      before ++ Entry.faulted stop q :: after) :
    AfterFault host (Journal.run host moves { sys := .start debugger target program })
      (Trace.run host moves { sys := .start debugger target program }).inbound stop q
      before after := by
  have hledger : (Trace.run host moves { sys := .start debugger target program }).Ledger :=
    Trace.ledger_run host debugger target program moves
  obtain ⟨hsys, houtcomes⟩ := Journal.run_trace host moves
    (c := { sys := .start debugger target program })
    (t := { sys := .start debugger target program }) rfl rfl
  have hkept := kept host debugger target program moves
  generalize Journal.run host moves { sys := .start debugger target program } = c
    at h hkept hsys houtcomes
  generalize Trace.run host moves { sys := .start debugger target program } = t
    at hledger hsys houtcomes
  rw [h] at hkept
  have hregular := hkept.regular
  obtain ⟨r, hl, -⟩ := hregular.asked_of_faulted
  have hfound {as bs : List Entry} {r' : Request} {errand : Errand} {place : Option Nat}
      (heq : after = as ++ Entry.found r' errand place :: bs) :
      c.sys.Kept (before ++ Entry.faulted stop q :: as ++ Entry.found r' errand place :: bs) := by
    rwa [heq, ← List.cons_append, ← List.append_assoc] at hkept
  exact {
    refused := ⟨r, hl, hkept.yields_of_faulted hl, rfl⟩
    silent := hregular.silent
    rests := c.sys.settles host
    active := by
      rw [hkept.depicts.active]
      exact hregular.active_of_faulted
    found := fun as r errand place bs heq => by
      have hkept := hfound heq
      have hplace := hkept.regular.of_found.2
      obtain ⟨ha, hnot⟩ | ⟨ha, hv⟩ := hkept.regular.prefix.active_of_faulted
      · exact .inl ⟨hplace.trans ha, hnot⟩
      · cases hplace.trans ha
        exact .inr ⟨rfl, hv, hkept.yields_notStopped⟩
    resumed := fun as r d bs heq hnone => by
      have hkept := hfound heq
      have ha := hkept.regular.of_found.2.symm
      have hd := hkept.regular.prefix.undecided_of_faulted ha hnone
      exact hkept.yields_resumption hd
    resumedAgain := fun as r d bs r' d' heq ha => by
      have hkept := hfound heq
      have hd := hkept.regular.prefix.decisionIn_of_accepted
        (List.mem_append_right _ (List.mem_cons_of_mem _ ha))
      exact hkept.yields_alreadyResumed (by rw [hd]; nofun)
    asked := fun as r q' bs heq hr => (hfound heq).waits_of_faulted hr
    askedLate := fun as r q' bs heq hr =>
      (hfound heq).yields_stopEnded (List.mem_append_right _ (List.mem_cons_of_mem _ hr))
    usual := c.sys.stepSession_thread
    accounted := by
      obtain ⟨-, answered, hall, hst⟩ := hledger
      rw [houtcomes] at hall
      refine ⟨answered, hst.first.1, hall, fun hrest => ?_⟩
      obtain hread | hshut | ⟨r', hp, -⟩ := hst.settled_or_awaiting (hsys ▸ hrest)
      · exact .inl hread
      · exact .inr (.inl (houtcomes ▸ hshut))
      · -- the session waits where the thread died
        rw [hsys] at hp
        have hagrees := hkept.session
        rw [hp] at hagrees
        obtain ⟨q', stop', hl'⟩ := hagrees
        have ha' := (hregular.active_of_asked hl').1
        obtain ⟨ha, -⟩ | ⟨ha, -⟩ := hregular.active_of_faulted
        · cases ha.symm.trans ha'
          rw [h]
          exact .inr (.inr ⟨r', q', hl'⟩)
        · cases ha.symm.trans ha' }

-- ---------------------------------------------------------------------------
-- A run
-- ---------------------------------------------------------------------------

/-- After a fault, a request that looks for a stop is refused until the next stop. -/
def RefusedAfterFault (J : List Entry) : Prop :=
  ∀ before stop q as r errand place bs o,
    J = before ++ Entry.faulted stop q :: as ++ Entry.found r errand place :: bs →
    (∀ i p, .installed i p ∉ as) → bs.findSome? Entry.answer? = some o →
    ∃ e : AdapterError, o = .refusal r e ∧ e.isContractViolation = true

/-- An interpreter that dies of every call. -/
def brokenHost : Host Unit OneShot where
  interpreter := { answer := fun _ s => (.error .died, s) }
  start := OneShot.start
  isRunning := OneShot.running

def stackTraceText : String := "\x7b\"seq\":1,\"type\":\"request\",\"command\":\"stackTrace\"\x7d"

theorem Packet.Reader.readMessage_stackTrace :
    ({ arrivals := [packetOf stackTraceText] } : Packet.Reader).readMessage =
      (.item (bareMessage "stackTrace"), {}) :=
  readMessage_of_text (by decide +kernel) (by with_unfolding_all rfl)

def parkedSystem : System Unit OneShot where
  handle :=
    { stops := [{}], active := some 0
      outbox := [.event (System.stoppedEvent { reason := "pause" })] }
  debugger := .fresh .sensitive
  target := {}
  thread := { phase := .serving .direct 0 [] {} () }

def orphanedSystem : System Unit OneShot :=
  { parkedSystem with
    handle :=
      parkedSystem.handle.post (.response ((bareRequest "stackTrace").refuse "stop has ended"))
    thread := { phase := .dead () } }

def faultMoves : List Move :=
  List.replicate 3 (Move.step .thread) ++
    (Move.arrive [packetOf stackTraceText] :: .step .session ::
      (List.replicate 3 (Move.step .session) ++ List.replicate 2 (Move.step .thread) ++
        List.replicate 3 (Move.step .session))) ++
    Move.arrive [packetOf continueText] :: .step .session :: List.replicate 6 (Move.step .session)

def faultRun : Journal Unit OneShot :=
  .run brokenHost faultMoves
    { sys := .start (.fresh .sensitive) {} [.stop { reason := "pause" } ()] }

def untilFault : List Entry :=
  [.reported, .installed 0 none, .announced 0 { reason := "pause" },
    .found (bareRequest "stackTrace") (.inspect (.stackTrace {})) (some 0),
    .accepted (bareRequest "stackTrace") (.inspect (.stackTrace {})) 0]

theorem faultRun_orphaned :
    run brokenHost
        (Move.arrive [packetOf stackTraceText] :: .step .session ::
          (List.replicate 3 (Move.step .session) ++ List.replicate 2 (Move.step .thread) ++
            List.replicate 3 (Move.step .session)))
        { sys := parkedSystem
          entries := [.reported, .installed 0 none, .announced 0 { reason := "pause" }] } =
      { sys := orphanedSystem
        entries := untilFault ++ Entry.faulted 0 (.stackTrace {}) ::
          [.answered (.refusal (bareRequest "stackTrace") .stopEnded)] } := by
  change run brokenHost (.step .session :: _)
    { sys := parkedSystem.feed [packetOf stackTraceText], entries := _ } = _
  rw [run_session _ (@System.stepSession_of_request _ _ _ _ _ _ (bareRequest "stackTrace") rfl rfl
    Packet.Reader.readMessage_stackTrace rfl)]
  rfl

theorem faultRun_eq :
    faultRun.entries =
      untilFault ++ Entry.faulted 0 (.stackTrace {}) ::
          [.answered (.refusal (bareRequest "stackTrace") .stopEnded)] ++
        Entry.found (bareRequest "continue") (.resume .run) (some 0) ::
          [.accepted (bareRequest "continue") (.resume .run) 0,
            .answered (.resumption (bareRequest "continue") .run 0), .released 0] ∧
    faultRun.sys.handle.outbox =
      [.event (System.stoppedEvent { reason := "pause" }),
        .response ((bareRequest "stackTrace").refuse "stop has ended"),
        .response ((bareRequest "continue").accept (resumeBody .run))] := by
  have hparked : run brokenHost (List.replicate 3 (Move.step .thread))
      { sys := .start (.fresh .sensitive) {} [.stop { reason := "pause" } ()] } =
      { sys := parkedSystem
        entries := [.reported, .installed 0 none, .announced 0 { reason := "pause" }] } := rfl
  rw [faultRun, faultMoves, run_append, run_append, hparked, faultRun_orphaned]
  change (run brokenHost (.step .session :: _)
    { sys := orphanedSystem.feed [packetOf continueText], entries := _ }).entries = _ ∧
      (run brokenHost (.step .session :: _)
        { sys := orphanedSystem.feed [packetOf continueText], entries := _ }).sys.handle.outbox = _
  rw [run_session _ (@System.stepSession_of_request _ _ _ _ _ _ (bareRequest "continue") rfl rfl
    Packet.Reader.readMessage_continue rfl)]
  exact ⟨rfl, rfl⟩

theorem fault_leaves_stop_active_stackTrace :
    faultRun.entries =
        untilFault ++ Entry.faulted 0 (.stackTrace {}) ::
          [.answered (.refusal (bareRequest "stackTrace") .stopEnded),
            .found (bareRequest "continue") (.resume .run) (some 0),
            .accepted (bareRequest "continue") (.resume .run) 0,
            .answered (.resumption (bareRequest "continue") .run 0), .released 0] ∧
      AfterFault brokenHost faultRun
        (Trace.run brokenHost faultMoves
          { sys := .start (.fresh .sensitive) {} [.stop { reason := "pause" } ()] }).inbound
        0 (.stackTrace {}) untilFault
        [.answered (.refusal (bareRequest "stackTrace") .stopEnded),
          .found (bareRequest "continue") (.resume .run) (some 0),
          .accepted (bareRequest "continue") (.resume .run) 0,
          .answered (.resumption (bareRequest "continue") .run 0), .released 0] :=
  ⟨faultRun_eq.1, fault_leaves_stop_active _ _ _ _ faultRun_eq.1⟩

/-- The client is told that it may go on, and nobody does. -/
theorem not_refusedAfterFault :
    faultRun.sys.handle.outbox =
        [.event (System.stoppedEvent { reason := "pause" }),
          .response ((bareRequest "stackTrace").refuse "stop has ended"),
          .response ((bareRequest "continue").accept (resumeBody .run))] ∧
      ¬ RefusedAfterFault faultRun.entries := by
  refine ⟨faultRun_eq.2, fun h => ?_⟩
  obtain ⟨e, he, -⟩ := h _ _ _ _ _ _ _ _ (.resumption (bareRequest "continue") .run 0)
    faultRun_eq.1 (by simp) rfl
  cases congrArg (·.response.success) he

end DebugAdapter
