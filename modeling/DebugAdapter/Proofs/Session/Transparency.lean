import DebugAdapter.Proofs.Session.Conversation
import DebugAdapter.Proofs.Session.Failures

/-!
# Inspection over the wire

A question at a stop takes a long way: the request is read, the question waits on a bridge, the
parked thread takes it up, and the reply goes back to the client. All the same the client is told
what it would be told in a conversation with the interpreter itself, begun with an empty graph, and
the interpreter is asked the same. Where no stop is active the request is refused, and nobody is
asked.
-/

namespace DebugAdapter

open Protocol Journal

variable {σ τ : Type} {host : Host σ τ} {sys sys' : System σ τ} {stop : Nat}

-- ---------------------------------------------------------------------------
-- Which requests look for a stop
-- ---------------------------------------------------------------------------

/-- What a request asks of a stop, if that is an inspection and its arguments can be read. -/
def Protocol.Request.inspection? (r : Request) : Option (Request × Question) :=
  match Demand.of? r with
  | some (.ok (.inspect q)) => some (r, q)
  | _ => none

def Entry.look? : Entry → Option (Request × Question)
  | found r (.inspect q) _ => some (r, q)
  | _ => none

def Journal.looksIn (J : List Entry) : List (Request × Question) := J.filterMap Entry.look?

def Session.Phase.looking : Session.Phase → List (Request × Question)
  | .handling r => r.inspection?.toList
  | .asking r q => [(r, q)]
  | _ => []

namespace System

theorem looking_takeUp (host : Host σ τ) (sys : System σ τ) (r : Request) :
    (sys.takeUp host r).session.phase.looking = r.inspection?.toList := by
  cases hd : Demand.of? r with
  | none =>
    simp only [takeUp, Request.inspection?, hd]
    rfl
  | some read =>
    cases read with
    | error e =>
      simp only [takeUp, Request.inspection?, hd]
      rfl
    | ok demand =>
      simp only [takeUp, Request.inspection?, hd]
      cases demand with
      | chooseStart =>
        simp only [fulfil]
        split <;> rfl
      | start =>
        simp only [fulfil]
        split
        · rfl
        · split <;> rfl
      | _ => rfl

theorem SessionStep.looks (h : SessionStep host sys sys') :
    sys.session.phase.looking ++
        (dispatchedIn sys.deed?.toList).filterMap Request.inspection? =
      looksIn sys.sessionEntries ++ sys'.session.phase.looking := by
  cases h with
  | shut hp hc =>
    simp only [deed?, sessionEntries, hp, hc, if_true]
    rfl
  | quit hp hc hread hend =>
    rename_i found reader result
    rw [deed?_read hp hc hread]
    simp only [sessionEntries, hp]
    cases found <;> cases hend <;> rfl
  | skip hp hc hread hreq =>
    rw [deed?_read hp hc hread]
    simp only [sessionEntries, hp, Deed.ofRead, hreq, withReader]
    rfl
  | @begin message reader r hp hc hread hreq =>
    rw [deed?_read hp hc hread]
    simp only [sessionEntries, hp, Deed.ofRead, hreq]
    cases hi : r.inspection? <;> simp [Session.Phase.looking, dispatchedIn, Deed.request?, hi,
      looksIn, enter]
  | @takeUp r hp =>
    rw [looking_takeUp]
    simp only [deed?, sessionEntries, hp]
    split <;> exact List.append_nil _
  | @vacant _ result hp hv =>
    obtain ⟨hnone, -⟩ := Handle.vacate_eq hv
    simp only [deed?, sessionEntries, hp, hnone]
    cases result <;> rfl
  | @release _ result hp =>
    simp only [deed?, sessionEntries, hp]
    cases result <;> rfl
  | vacate hp hv =>
    obtain ⟨hsome, -⟩ := Handle.vacate_eq hv
    simp only [deed?, sessionEntries, hp, hsome]
    rfl
  | disconnect hp =>
    simp only [deed?, sessionEntries, hp]
    split <;> rfl
  | schedule hp hs | scheduleInVain hp hs | decide hp hs | decideInVain hp hs =>
    simp only [deed?, sessionEntries, hp, hs]
    rfl
  | ask hp | askInVain hp | pass hp | passError hp | resume hp | resumeInVain hp
    | answer hp | follow hp | letGo hp | close hp | goOn hp | mark hp | settle hp | finish hp =>
    simp only [deed?, sessionEntries, hp]
    rfl

end System

theorem Journal.looksIn_append (J more : List Entry) :
    looksIn (J ++ more) = looksIn J ++ looksIn more :=
  List.filterMap_append

theorem Journal.looks_play (host : Host σ τ) (c : Journal σ τ) (move : Move) :
    looksIn c.entries ++ c.sys.session.phase.looking ++
        (dispatchedIn (c.sys.deedOf? move).toList).filterMap Request.inspection? =
      looksIn (c.play host move).entries ++ (c.play host move).sys.session.phase.looking := by
  cases move with
  | arrive arrivals =>
    simp only [play, System.play_arrive, List.append_nil]
    exact List.append_nil _
  | hangUp =>
    simp only [play, List.append_nil]
    exact List.append_nil _
  | step side =>
    cases side with
    | session =>
      cases hstep : c.sys.step host .session with
      | none =>
        simp only [play, System.play_waiting hstep, System.sessionEntries_of_waiting hstep,
          System.deedOf?, System.deed?_of_waiting hstep, List.append_nil]
        exact List.append_nil _
      | some sys' =>
        simp only [play, System.play_step hstep, System.deedOf?]
        rw [looksIn_append, List.append_assoc, List.append_assoc,
          (System.sessionStep_of_step hstep).looks]
    | thread =>
      have hthread (sys' : System σ τ) : looksIn (c.sys.threadEntries sys') = [] := by
        refine List.filterMap_eq_nil_iff.2 fun x hx => ?_
        cases x with
        | found => exact absurd hx System.not_found_of_thread
        | _ => rfl
      simp only [play, System.deedOf?]
      rw [looksIn_append, hthread, List.append_nil, System.session_play_thread]
      exact List.append_nil _

theorem Journal.looks_run (host : Host σ τ) (moves : List Move) {c : Journal σ τ} {a : Annals σ τ}
    (hsys : a.trace.sys = c.sys)
    (h : (dispatchedIn a.deeds).filterMap Request.inspection? =
      looksIn c.entries ++ c.sys.session.phase.looking) :
    (dispatchedIn (a.run host moves).deeds).filterMap Request.inspection? =
      looksIn (c.run host moves).entries ++ (c.run host moves).sys.session.phase.looking := by
  refine ((Annals.recorder host).run_related (recorder host) (Q := fun a c => a.trace.sys = c.sys ∧
    (dispatchedIn a.deeds).filterMap Request.inspection? =
      looksIn c.entries ++ c.sys.session.phase.looking) ?_ ⟨hsys, h⟩ moves).2
  rintro a c move ⟨hsys, h⟩
  refine ⟨congrArg (System.play host · move) hsys, ?_⟩
  have hdeeds : (a.play host move).deeds = a.deeds ++ (c.sys.deedOf? move).toList := by
    rw [← hsys]
    rfl
  show (dispatchedIn (a.play host move).deeds).filterMap Request.inspection? = _
  rw [hdeeds, dispatchedIn, List.filterMap_append, List.filterMap_append]
  exact (congrArg (· ++ _) h).trans (looks_play host c move)

theorem Session.Phase.length_looking_le (phase : Session.Phase) : phase.looking.length ≤ 1 := by
  cases phase with
  | handling r => exact Option.length_toList_le
  | asking => exact Nat.le_refl 1
  | _ => exact Nat.zero_le 1

theorem System.looking_of_waiting (hrest : sys.stepSession host = none) :
    sys.session.phase.looking = [] := by
  obtain ⟨reader, hp, -⟩ | ⟨r, hp, -⟩ | ⟨result, hp⟩ := waiting_of_stepSession hrest
  all_goals
    rw [hp]
    rfl

-- ---------------------------------------------------------------------------
-- The stops of a run
-- ---------------------------------------------------------------------------

theorem Journal.play_installed (host : Host σ τ) (stop : Nat) (c : Journal σ τ) (move : Move) :
    ∃ more, (c.play host move).entries = c.entries ++ more ∧
      ∀ place, .installed stop place ∈ more → more = [.installed stop place] := by
  cases move with
  | arrive | hangUp => exact ⟨[], rfl, fun place hmem => absurd hmem List.not_mem_nil⟩
  | step side =>
    cases side with
    | session =>
      refine ⟨_, rfl, fun place hmem => ?_⟩
      exact absurd rfl (System.side?_of_sessionEntries hmem)
    | thread =>
      refine ⟨_, rfl, fun place hmem => ?_⟩
      dsimp only [System.threadEntries] at hmem ⊢
      split at hmem
      case h_3 =>
        cases List.mem_singleton.1 hmem
        rfl
      all_goals simp at hmem

theorem Journal.exists_run_of_installed {host : Host σ τ} {start : System σ τ}
    {old new : List Entry} {place : Option Nat} {moves : List Move}
    (h : (run host moves { sys := start }).entries = old ++ Entry.installed stop place :: new) :
    ∃ first rest, moves = first ++ rest ∧
      (run host first { sys := start }).entries = old ++ [Entry.installed stop place] := by
  induction moves using List.reverseRecOn generalizing new with
  | nil =>
    have hnil : [] = old ++ Entry.installed stop place :: new := h
    simp at hnil
  | append_singleton moves move ih =>
    obtain ⟨more, hmore, hone⟩ := play_installed host stop (run host moves { sys := start }) move
    have hrun : (run host (moves ++ [move]) { sys := start }).entries =
        (run host moves { sys := start }).entries ++ more := by
      rw [run_append]
      exact hmore
    rw [hrun] at h
    have hself (hold : (run host moves { sys := start }).entries = old)
        (hmem : .installed stop place ∈ more) :
        ∃ first rest, moves ++ [move] = first ++ rest ∧
          (run host first { sys := start }).entries = old ++ [.installed stop place] := by
      refine ⟨moves ++ [move], [], (List.append_nil _).symm, ?_⟩
      rw [hrun, hold, hone place hmem]
    obtain ⟨as, rfl, hlast⟩ | ⟨as, hfirst, hlast⟩ := List.append_eq_append_iff.1 h
    · have hmem : .installed stop place ∈ more := by simp [hlast]
      rw [hone place hmem] at hlast
      obtain rfl : as = [] := by
        cases as with
        | nil => rfl
        | cons x as => simp at hlast
      exact hself (List.append_nil _).symm hmem
    · cases as with
      | nil =>
        rw [List.append_nil] at hfirst
        refine hself hfirst ?_
        rw [← List.nil_append more, ← hlast]
        exact List.mem_cons_self
      | cons x as =>
        obtain ⟨rfl, -⟩ := List.cons.inj hlast
        obtain ⟨first, rest, rfl, hentries⟩ := ih hfirst
        exact ⟨first, rest ++ [move], List.append_assoc _ _ _, hentries⟩

-- ---------------------------------------------------------------------------
-- Every run
-- ---------------------------------------------------------------------------

def Protocol.Request.tell (r : Request) : Except AdapterError Json → Response
  | .ok body => r.accept (some body)
  | .error e => r.refuse e.message

theorem Outcome.response_relay (r : Request) (reply : Except AdapterError Json) :
    (relay r reply).response = r.tell reply := by
  cases reply <;> rfl

/-- From the time when a stop has become active, the questions there are answered as in a
conversation with the interpreter. -/
structure Journal.Conveys (host : Host σ τ) (stop : Nat) (g : StackGraph) (s : σ)
    (c : Journal σ τ) (moves : List Move) : Prop where
  /-- Only the numbers that were given out before are left out. -/
  fresh : g = { minted := g.minted }
  answered : ∀ as r q place bs,
    (c.run host moves).entries = c.entries ++ as ++ .found r (.inspect q) place :: bs →
    Lasts stop as → place = some stop ∧ ∃ shown a st,
      converse host.interpreter (inquiriesIn stop as ++ [q]) (g, s) = (.ok (shown ++ [a]), st) ∧
        Yields host (c.run host moves).sys bs (.relay r a.encode) ∧
        (Outcome.relay r a.encode).response = r.tell a.encode ∧
        (Outcome.relay r a.encode).closes = false ∧ (Outcome.relay r a.encode).release = none
  active : ∀ new, (c.run host moves).entries = c.entries ++ new → Lasts stop new →
    (c.run host moves).sys.handle.active = some stop
  recorded : (c.recording.run host.recording moves).map Prod.fst = c.run host moves
  /-- The thread asks the interpreter what it would be asked in the conversation. -/
  calls : ∀ new, (c.run host moves).entries = c.entries ++ new → Lasts stop new →
    ∃ asked waiting g' s' calls, inquiriesIn stop new = asked ++ waiting ∧ waiting.length ≤ 1 ∧
      (Unengaged (lastOf .session (c.entries ++ new)) → waiting = []) ∧
      (converse host.interpreter.recording asked (g, s, [])).2 = (g', s', calls) ∧
      (c.recording.run host.recording moves).sys.thread.phase.Holds stop g' (s', calls)

/-- Whatever the session and the thread do, inspection is a conversation with the interpreter. -/
structure Transparent (host : Host σ τ) (start : System σ τ) (moves : List Move) : Prop where
  rests : (Journal.run host moves { sys := start }).sys.Settles host
  /-- The requests for inspection look for a stop in the order in which they are taken up. -/
  looked : ∃ onHand,
    (dispatchedIn (Annals.run host moves { trace := { sys := start } }).deeds).filterMap
        Request.inspection? =
      looksIn (Journal.run host moves { sys := start }).entries ++ onHand ∧
    onHand.length ≤ 1 ∧
    ((Journal.run host moves { sys := start }).sys.stepSession host = none → onHand = [])
  outbox : (Journal.run host moves { sys := start }).sys.handle.outbox =
    (Journal.run host moves { sys := start }).entries.filterMap Entry.sent?
  active : (Journal.run host moves { sys := start }).sys.handle.active =
    activeIn (Journal.run host moves { sys := start }).entries
  found : ∀ as r errand place bs,
    (Journal.run host moves { sys := start }).entries = as ++ .found r errand place :: bs →
    place = activeIn as
  /-- Where none is active they are refused, and nothing is asked of the thread before that. -/
  unstopped : ∀ as r q bs,
    (Journal.run host moves { sys := start }).entries =
      as ++ .found r (.inspect q) none :: bs →
    Yields host (Journal.run host moves { sys := start }).sys bs (.refusal r .notStopped) ∧
      (Outcome.refusal r .notStopped).response = r.refuse "not stopped" ∧
      ∀ mid, mid <+: bs → (∀ x ∈ mid, x.answer? = none) → ∀ x ∈ mid,
        (∀ i q' reply, x ≠ .served i q' reply) ∧ ∀ i q', x ≠ .faulted i q'
  /-- The session asks the interpreter nothing by itself. -/
  untouched : ∀ next, (Journal.run host moves { sys := start }).sys.stepSession host = some next →
    next.thread = (Journal.run host moves { sys := start }).sys.thread
  begun : ∀ old stop place new,
    (Journal.run host moves { sys := start }).entries = old ++ .installed stop place :: new →
    ∃ first rest, moves = first ++ rest ∧
      (Journal.run host first { sys := start }).entries = old ++ [.installed stop place]
  conveyed : ∀ first rest old stop place, moves = first ++ rest →
    (Journal.run host first { sys := start }).entries = old ++ [.installed stop place] →
    ∃ origin body g s,
      (Journal.run host first { sys := start }).sys.thread.phase =
        .announcing origin body stop g s ∧
      (host.interpreter.Returns s →
        Conveys host stop g s (.run host first { sys := start }) rest)

theorem Journal.Opens.conveys {c : Journal σ τ} {g : StackGraph} {s : σ} {moves : List Move}
    (h : c.Opens host stop (g, s)) (hfresh : g = { minted := g.minted })
    (hparked : (∀ s, (c.run host moves).sys.thread.phase ≠ .dead s) →
      (c.run host moves).sys.Parked) : Conveys host stop g s c moves where
  fresh := hfresh
  answered as r q place bs hfound hl := by
    obtain ⟨hplace, shown, a, st, hrun, hyields, hopen⟩ := h.answers hparked hfound hl
    exact ⟨hplace, shown, a, st, hrun, hyields, Outcome.response_relay r _, hopen,
      Outcome.release_relay r _⟩
  active new hnew hl := by
    have hkept := kept_run host h.kept moves
    rw [hkept.depicts.active]
    rw [hnew] at hkept ⊢
    exact h.active hkept.regular hl
  recorded := run_recording host moves c
  calls new hnew hl := by
    have hrecorded : (c.recording.run host.recording moves).entries = c.entries ++ new := by
      rw [← hnew, ← run_recording host moves c]
      rfl
    obtain ⟨asked, waiting, ⟨g', s', calls⟩, hquestions, hone, hnone, hcalls, hholds⟩ :=
      h.recording.holds_run hrecorded hl
    exact ⟨asked, waiting, g', s', calls, hquestions, hone, hnone, hcalls, hholds⟩

/-- In whatever order a session and a thread move, inspection is transparent. -/
theorem inspection_is_transparent (host : Host σ τ) (debugger : Debugger) (target : τ)
    (program : List (Item σ)) (moves : List Move) :
    Transparent host (.start debugger target program) moves := by
  have hkept := kept host debugger target program moves
  have hlooks := looks_run host moves (c := { sys := .start debugger target program })
    (a := { trace := { sys := .start debugger target program } }) rfl rfl
  constructor
  case rests => exact System.settles host _
  case looked =>
    exact ⟨_, hlooks, Session.Phase.length_looking_le _, System.looking_of_waiting⟩
  case outbox => exact hkept.depicts.outbox
  case active => exact hkept.depicts.active
  case found =>
    intro as r errand place bs hfound
    rw [hfound] at hkept
    exact hkept.regular.of_found.2
  case unstopped =>
    intro as r q bs hfound
    rw [hfound] at hkept
    refine ⟨hkept.yields_notStopped, rfl, ?_⟩
    rintro mid ⟨rest, rfl⟩ hnone x hx
    have hregular := hkept.regular
    rw [← List.cons_append, ← List.append_assoc] at hregular
    have hbefore := hregular.prefix
    exact (hbefore.unserved hnone x hx).2
  case untouched =>
    intro next hnext
    exact (System.sessionStep_of_step hnext).thread_eq
  case begun =>
    intro old stop place new hinstalled
    exact exists_run_of_installed hinstalled
  case conveyed =>
    rintro first rest old stop place rfl hentries
    have hfirst := kept host debugger target program first
    have hfresh := fresh_run host debugger target program first
    have hparked := System.parked_of_alive host debugger target program (first ++ rest)
    rw [← sys_run host (first ++ rest) { sys := .start debugger target program }, run_append]
      at hparked
    have hannouncing := hfirst
    rw [hentries] at hannouncing
    obtain ⟨origin, body, g, s, hp⟩ := hannouncing.announcing
    refine ⟨origin, body, g, s, hp, fun hs => ?_⟩
    rw [hp] at hfresh
    have hclosed : g.Closed := by
      rw [hfresh]
      exact StackGraph.closed_new
    have hopens : Journal.Opens host stop (g, s)
        (.run host first { sys := .start debugger target program }) := by
      refine ⟨hfirst, ⟨old, place, hentries⟩, ?_, hs, hclosed⟩
      rw [hp]
      exact .announcing origin body
    exact hopens.conveys hfresh hparked

def tableOpening : List Move := List.replicate 2 (.step .thread)

def tableQuestions : List Move :=
  Move.step .thread ::
    (Move.arrive [packetOf stackTraceText] :: Move.step .session ::
      (servedMoves ++ List.replicate 2 (Move.step .session)) ++
    Move.arrive [packetOf scopesText] :: Move.step .session ::
      (servedMoves ++ List.replicate 2 (Move.step .session)))

def tableRun (moves : List Move) : Journal Scripted.Stack OneShot :=
  .run scriptedHost moves
    { sys := .start (.fresh .sensitive) {} [.stop { reason := "pause" } tableStack] }

def tableState : Journal Scripted.Stack OneShot :=
  let ask (c : Journal Scripted.Stack OneShot) (r : Request) :=
    (c.dispatch r).run scriptedHost (servedMoves ++ List.replicate 2 (Move.step .session))
  ask (ask (tableRun (tableOpening ++ [Move.step .thread])) (bareRequest "stackTrace"))
    scopesRequest

theorem tableRun_eq : tableRun (tableOpening ++ tableQuestions) = tableState := by
  rw [tableQuestions, List.append_cons]
  simp only [tableRun, run, Recorder.run_append]
  rw [(overlooks _).run_read _ rfl rfl rfl Packet.Reader.readMessage_stackTrace rfl,
    (overlooks _).run_read _ rfl rfl rfl Packet.Reader.readMessage_scopes rfl]
  rfl

theorem inspection_is_transparent_table :
    ∃ new, (tableRun (tableOpening ++ tableQuestions)).entries =
        (tableRun tableOpening).entries ++ new ∧
      inquiriesIn 0 new = [.stackTrace {}, .scopes ⟨1⟩] ∧ Lasts 0 new ∧
      Conveys scriptedHost 0 {} tableStack (tableRun tableOpening) tableQuestions := by
  have hopening : (tableRun tableOpening).entries = [.reported] ++ [.installed 0 none] := rfl
  obtain ⟨origin, body, g, s, hp, hconveys⟩ :=
    (inspection_is_transparent scriptedHost (.fresh .sensitive) {}
      [.stop { reason := "pause" } tableStack] (tableOpening ++ tableQuestions)).conveyed
      tableOpening tableQuestions [.reported] 0 none rfl hopening
  have hphase : (tableRun tableOpening).sys.thread.phase =
      .announcing .direct { reason := "pause" } 0 {} tableStack := rfl
  cases hphase.symm.trans hp
  rw [tableRun_eq]
  refine ⟨[.announced 0 _, .found _ (.inspect (.stackTrace {})) (some 0),
    .accepted _ (.inspect (.stackTrace {})) 0, .served 0 _ _, .answered _,
    .found _ (.inspect (.scopes ⟨1⟩)) (some 0), .accepted _ (.inspect (.scopes ⟨1⟩)) 0,
    .served 0 _ _, .answered _], rfl, rfl, ⟨by simp, by simp⟩,
    hconveys (Scripted.Stack.steady (by decide)).returns⟩

end DebugAdapter
