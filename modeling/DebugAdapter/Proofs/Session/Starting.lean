import DebugAdapter.Proofs.Session.Failures

/-!
# How the target is started

The client chooses once in which mode the target is started, and the target is started in this mode
each time that the configuration is done. `starts_of_session` says so of every run of a session, by
a target that remembers how it was started. That there is a second start is kept away by nothing but
the target itself: the session only closes where a start fails.
-/

namespace DebugAdapter

open Protocol

variable {σ τ : Type} {host : Host σ τ}

-- ---------------------------------------------------------------------------
-- A target that remembers
-- ---------------------------------------------------------------------------

/-- A call that starts the target, and what comes of it. -/
structure Start where
  mode : StartMode
  result : Except AdapterError Unit

def Start.answer (start : Start) (r : Request) : Outcome :=
  match start.result with
  | .ok () => { response := r.accept none }
  | .error e => .refusal r e

/-- The host, but its target remembers how it was started, the last call at the end. -/
def Host.tallying (host : Host σ τ) : Host σ (τ × List Start) where
  interpreter := host.interpreter
  start mode t := ((host.start mode t.1).1, (host.start mode t.1).2,
    t.2 ++ [⟨mode, (host.start mode t.1).1⟩])
  isRunning t := host.isRunning t.1

namespace System

def untallied (sys : System σ (τ × List Start)) : System σ τ := { sys with target := sys.target.1 }

theorem takeUp_untallied (sys : System σ (τ × List Start)) (r : Request) :
    sys.untallied.takeUp host r = (sys.takeUp host.tallying r).untallied := by
  unfold takeUp
  split
  · rfl
  · rfl
  · rename_i demand _
    cases demand with
    | chooseStart mode =>
      simp only [fulfil, untallied]
      split <;> rfl
    | start =>
      simp only [fulfil, untallied, Host.tallying]
      split
      · rfl
      · obtain ⟨result, target⟩ := host.start _ _
        cases result <;> rfl
    | capabilities | disconnect | setLines | setCalls | threads | inspect | pause | resume => rfl

theorem read_untallied (sys : System σ (τ × List Start)) :
    sys.untallied.read = sys.read.map untallied := by
  cases hc : sys.handle.closed with
  | true =>
    simp only [read, untallied, hc, if_true]
    rfl
  | false =>
    cases hr : sys.session.reader.readMessage with
    | mk found reader =>
      simp only [read, untallied, hc, hr, Bool.false_eq_true, if_false]
      cases found with
      | item message =>
        dsimp only
        cases requestOf? message <;> rfl
      | blocked | ended | failed | malformed => rfl

theorem stepSession_untallied (sys : System σ (τ × List Start)) :
    sys.untallied.stepSession host = (sys.stepSession host.tallying).map untallied := by
  unfold stepSession
  dsimp only [untallied]
  cases hp : sys.session.phase with
  | reading => exact read_untallied sys
  | handling r => exact congrArg some (takeUp_untallied sys r)
  | asking | scheduling | awaiting | resuming | deciding =>
    dsimp only
    split <;> rfl
  | following events release closes =>
    cases events with
    | cons => rfl
    | nil =>
      cases release with
      | some => rfl
      | none => cases closes <;> rfl
  | closing step result =>
    cases step with
    | vacate =>
      dsimp only
      split
      · rfl
      · cases result <;> rfl
    | release stop => cases result <;> rfl
    | mark | settle => rfl
  | answering | disconnecting | finishing | ended => rfl

theorem serve_untallied (sys : System σ (τ × List Start)) (origin : Origin) (stop : Nat)
    (question : Question) (batch : List Question) (g : StackGraph) (s : σ) :
    sys.untallied.serve host origin stop question batch g s =
      (sys.serve host.tallying origin stop question batch g s).untallied := by
  unfold serve
  dsimp only [Host.tallying]
  split
  · rfl
  · cases origin <;> rfl

theorem stepThread_untallied (sys : System σ (τ × List Start)) :
    sys.untallied.stepThread host = (sys.stepThread host.tallying).map untallied := by
  unfold stepThread
  dsimp only [untallied, Host.tallying]
  cases hp : sys.thread.phase with
  | idle =>
    dsimp only
    split
    · rfl
    · split <;> rfl
  | hooked =>
    by_cases ht : sys.debugger.terminated = true
    · simp only [ht, if_true]
      rfl
    · simp only [ht]
      rfl
  | installing =>
    dsimp only
    split <;> rfl
  | matching =>
    dsimp only
    split
    · rfl
    · split <;> rfl
  | serving origin stop batch g s =>
    cases batch with
    | cons question batch => exact congrArg some (serve_untallied sys _ _ _ _ _ _)
    | nil =>
      dsimp only
      split
      · rfl
      · rfl
      · cases origin <;> rfl
  | resumed origin =>
    cases origin with
    | direct => rfl
    | debugger =>
      dsimp only
      split <;> rfl
  | disarming | announcing | leaving | dead => rfl

theorem play_untallied (sys : System σ (τ × List Start)) (move : Move) :
    sys.untallied.play host move = (sys.play host.tallying move).untallied := by
  cases move with
  | step side =>
    have hstep : sys.untallied.step host side = (sys.step host.tallying side).map untallied := by
      cases side with
      | session => exact stepSession_untallied sys
      | thread => exact stepThread_untallied sys
    rw [play, play, hstep]
    cases sys.step host.tallying side <;> rfl
  | arrive arrivals =>
    rw [play_arrive, play_arrive]
    rfl
  | hangUp => rfl

theorem run_untallied (sys : System σ (τ × List Start)) (moves : List Move) :
    sys.untallied.run host moves = (sys.run host.tallying moves).untallied := by
  refine (recorder host).run_related (recorder host.tallying) (Q := (· = untallied ·)) ?_ rfl moves
  rintro _ sys move rfl
  exact play_untallied sys move

end System

-- ---------------------------------------------------------------------------
-- Requests
-- ---------------------------------------------------------------------------

/-- The mode that a request chooses, if its arguments can be read. -/
def Protocol.Request.startMode? (r : Request) : Option StartMode :=
  match r.command with
  | "launch" => (r.read launchArguments).toOption.map fun _ => .launch
  | "attach" => (r.read attachArguments).toOption.map fun _ => .attach
  | _ => none

def startCommands : List String := ["launch", "attach", "configurationDone"]

theorem read_eq_error {α : Type} {r : Request} {c : Codec α} {e : AdapterError}
    (h : r.read c = .error e) : ∃ reason, e = .arguments r.command reason := by
  unfold Request.read at h
  cases hd : c.decode (r.arguments.getD (.obj [])) with
  | ok a =>
    rw [hd] at h
    cases h
  | error e' =>
    rw [hd] at h
    cases h
    exact ⟨_, rfl⟩

theorem demand_of_read {α : Type} {r : Request} {c : Codec α} {mode : StartMode}
    (hmode : r.startMode? = (r.read c).toOption.map fun _ => mode)
    (hd : Demand.of? r = some ((r.read c).map fun _ => .chooseStart mode)) :
    (∃ mode, r.startMode? = some mode ∧ Demand.of? r = some (.ok (.chooseStart mode))) ∨
      r.startMode? = none ∧
        ∃ reason, Demand.of? r = some (.error (.arguments r.command reason)) := by
  rw [hmode, hd]
  cases hread : r.read c with
  | ok args => exact .inl ⟨mode, rfl, rfl⟩
  | error e =>
    obtain ⟨reason, rfl⟩ := read_eq_error hread
    exact .inr ⟨rfl, reason, rfl⟩

theorem command_of_start {r : Request} {demand : Demand} (h : Demand.of? r = some (.ok demand)) :
    (demand = .start ∨ ∃ mode, demand = .chooseStart mode) ↔ r.command ∈ startCommands := by
  unfold Demand.of? at h
  split at h
  case h_17 => cases h
  all_goals
    rename_i hc
    rw [hc]
    simp only [Option.some.injEq, map_eq_ok, Except.ok.injEq] at h
    obtain ⟨a, -, rfl⟩ := h
    simp [startCommands]

theorem mem_startCommands {r : Request} (h : r.command = "launch" ∨ r.command = "attach") :
    r.command ∈ startCommands := by
  obtain h | h := h
  · simp [startCommands, h]
  · simp [startCommands, h]

theorem startMode?_eq_none {r : Request} (h : ¬ (r.command = "launch" ∨ r.command = "attach")) :
    r.startMode? = none := by
  unfold Request.startMode?
  split
  · exact absurd (.inl ‹_›) h
  · exact absurd (.inr ‹_›) h
  · rfl

theorem demand_cases (r : Request) :
    (∃ mode, r.startMode? = some mode ∧ Demand.of? r = some (.ok (.chooseStart mode))) ∨
      ((r.command = "launch" ∨ r.command = "attach") ∧ r.startMode? = none ∧
        ∃ reason, Demand.of? r = some (.error (.arguments r.command reason))) ∨
      (r.command = "configurationDone" ∧ r.startMode? = none ∧ Demand.of? r = some (.ok .start)) ∨
      (r.command ∉ startCommands ∧ r.startMode? = none ∧ Demand.of? r ≠ some (.ok .start) ∧
        ∀ mode, Demand.of? r ≠ some (.ok (.chooseStart mode))) := by
  by_cases hmem : r.command ∈ startCommands
  · simp only [startCommands, List.mem_cons, List.not_mem_nil, or_false] at hmem
    obtain hc | hc | hc := hmem
    · refine (@demand_of_read _ r launchArguments .launch ?_ ?_).imp_right fun h =>
        .inl ⟨.inl hc, h⟩
      · simp only [Request.startMode?, hc]
      · simp only [Demand.of?, hc]
    · refine (@demand_of_read _ r attachArguments .attach ?_ ?_).imp_right fun h =>
        .inl ⟨.inr hc, h⟩
      · simp only [Request.startMode?, hc]
      · simp only [Demand.of?, hc]
    · refine .inr (.inr (.inl ⟨hc, startMode?_eq_none (by simp [hc]), ?_⟩))
      simp only [Demand.of?, hc]
  · have hnone : r.startMode? = none := startMode?_eq_none fun hc => hmem (mem_startCommands hc)
    refine .inr (.inr (.inr ⟨hmem, hnone, fun hd => ?_, fun mode hd => ?_⟩))
    · exact hmem ((command_of_start hd).1 (.inl rfl))
    · exact hmem ((command_of_start hd).1 (.inr ⟨mode, rfl⟩))

-- ---------------------------------------------------------------------------
-- Taking up a request
-- ---------------------------------------------------------------------------

structure Uptake where
  request : Request
  /-- What it comes to, if that is known at once. -/
  outcome : Option Outcome
  starts : List Start

def Uptake.Closes (u : Uptake) : Prop := ∃ o, u.outcome = some o ∧ o.closes = true

/-- What becomes of a request, if the requests before it have chosen a mode, or none. -/
inductive Uptake.Proper (chosen : Option StartMode) : Uptake → Prop
  | choose {r : Request} {mode : StartMode} : r.startMode? = some mode → chosen = none →
      Proper chosen { request := r, outcome := some { response := r.accept none }, starts := [] }
  | late {r : Request} {mode mode' : StartMode} : r.startMode? = some mode → chosen = some mode' →
      Proper chosen { request := r, outcome := some (.refusal r .startModeSet), starts := [] }
  | unreadable {r : Request} (reason : String) : r.command = "launch" ∨ r.command = "attach" →
      r.startMode? = none → Proper chosen
        { request := r, outcome := some (.refusal r (.arguments r.command reason)), starts := [] }
  | early {r : Request} : r.command = "configurationDone" → chosen = none →
      Proper chosen { request := r, outcome := some (.refusal r .startModeMissing), starts := [] }
  | start {r : Request} (start : Start) : r.command = "configurationDone" →
      chosen = some start.mode →
      Proper chosen { request := r, outcome := some (start.answer r), starts := [start] }
  | other {r : Request} (outcome : Option Outcome) : r.command ∉ startCommands →
      Proper chosen { request := r, outcome := outcome, starts := [] }

theorem Uptake.Proper.of_start {chosen : Option StartMode} {u : Uptake} (h : u.Proper chosen)
    {start : Start} (hs : start ∈ u.starts) :
    u.starts = [start] ∧ u.request.command = "configurationDone" ∧ chosen = some start.mode ∧
      u.outcome = some (start.answer u.request) := by
  cases h with
  | start start' hc hchosen =>
    obtain rfl := List.mem_singleton.1 hs
    exact ⟨rfl, hc, hchosen, rfl⟩
  | choose | late | unreadable | early | other => cases hs

theorem Uptake.Proper.granted {u : Uptake} (h : u.Proper none) {mode : StartMode}
    (hm : u.request.startMode? = some mode) :
    u.outcome = some { response := u.request.accept none } := by
  cases h with
  | choose => rfl
  | late _ hchosen => cases hchosen
  | unreadable _ _ hnone => cases hnone.symm.trans hm
  | early hc | start _ hc => cases (startMode?_eq_none (by simp [hc])).symm.trans hm
  | other _ hc => cases (startMode?_eq_none fun h => hc (mem_startCommands h)).symm.trans hm

theorem Uptake.Proper.refused {chosen : Option StartMode} {u : Uptake} (h : u.Proper chosen)
    (hchosen : chosen ≠ none) (hc : u.request.command = "launch" ∨ u.request.command = "attach") :
    u.starts = [] ∧ ∃ e, u.outcome = some (.refusal u.request e) := by
  cases h with
  | choose _ hnone => exact absurd hnone hchosen
  | late => exact ⟨rfl, _, rfl⟩
  | unreadable => exact ⟨rfl, _, rfl⟩
  | early hc' | start _ hc' =>
    rw [hc'] at hc
    exact absurd hc (by decide)
  | other _ hc' => exact absurd (mem_startCommands hc) hc'

namespace System

def uptake (host : Host σ τ) (sys : System σ (τ × List Start)) (r : Request) : Uptake where
  request := r
  outcome := (sys.takeUp host.tallying r).outcome? (.step .session)
  starts := (sys.takeUp host.tallying r).target.2.drop sys.target.2.length

theorem takeUp_elsewhere (host : Host σ τ) (sys : System σ τ) {r : Request}
    (hstart : Demand.of? r ≠ some (.ok .start))
    (hchoose : ∀ mode, Demand.of? r ≠ some (.ok (.chooseStart mode))) :
    (sys.takeUp host r).target = sys.target ∧
      (sys.takeUp host r).debugger.startMode = sys.debugger.startMode := by
  unfold takeUp
  split
  · exact ⟨rfl, rfl⟩
  · exact ⟨rfl, rfl⟩
  · rename_i demand hd
    cases demand with
    | start => exact absurd hd hstart
    | chooseStart mode => exact absurd hd (hchoose mode)
    | capabilities | disconnect | setLines | setCalls | threads | inspect | pause | resume =>
      exact ⟨rfl, rfl⟩

theorem uptake_of_quiet {sys : System σ (τ × List Start)} {r : Request} {outcome : Option Outcome}
    (ho : (sys.takeUp host.tallying r).outcome? (.step .session) = outcome)
    (ht : (sys.takeUp host.tallying r).target = sys.target) :
    sys.uptake host r = { request := r, outcome := outcome, starts := [] } := by
  rw [uptake, ho, ht, List.drop_length]

theorem uptake_of_start {sys : System σ (τ × List Start)} {r : Request} {start : Start} {target : τ}
    (ho : (sys.takeUp host.tallying r).outcome? (.step .session) = some (start.answer r))
    (ht : (sys.takeUp host.tallying r).target = (target, sys.target.2 ++ [start])) :
    sys.uptake host r =
      { request := r, outcome := some (start.answer r), starts := [start] } := by
  rw [uptake, ho, ht, List.drop_left]

theorem takeUp_proper (host : Host σ τ) (sys : System σ (τ × List Start)) (r : Request) :
    (sys.uptake host r).Proper sys.debugger.startMode ∧
      ((sys.uptake host r).starts = [] ∧ (sys.takeUp host.tallying r).target = sys.target ∨
        ∃ start target, (sys.uptake host r).starts = [start] ∧
          host.start start.mode sys.target.1 = (start.result, target) ∧
          (sys.takeUp host.tallying r).target = (target, sys.target.2 ++ [start])) ∧
      (sys.takeUp host.tallying r).debugger.startMode = sys.debugger.startMode.or r.startMode? := by
  obtain ⟨mode, hmode, hd⟩ | ⟨hc, hmode, reason, hd⟩ | ⟨hc, hmode, hd⟩ |
    ⟨hc, hmode, hstart, hchoose⟩ := demand_cases r
  · cases hchosen : sys.debugger.startMode with
    | none =>
      have htake : sys.takeUp host.tallying r =
          { sys with debugger := { sys.debugger with startMode := some mode } }.grant r none := by
        simp only [takeUp, hd, fulfil, Debugger.chooseStart, hchosen]
      rw [uptake_of_quiet rfl (by rw [htake]; rfl), htake, hmode]
      exact ⟨.choose hmode rfl, .inl ⟨rfl, rfl⟩, rfl⟩
    | some mode' =>
      have htake : sys.takeUp host.tallying r = sys.refuse r .startModeSet := by
        simp only [takeUp, hd, fulfil, Debugger.chooseStart, hchosen]
      rw [uptake_of_quiet rfl (by rw [htake]; rfl), htake]
      exact ⟨.late hmode rfl, .inl ⟨rfl, rfl⟩, hchosen⟩
  · have htake : sys.takeUp host.tallying r = sys.refuse r (.arguments r.command reason) := by
      simp only [takeUp, hd]
    rw [uptake_of_quiet rfl (by rw [htake]; rfl), htake, hmode, Option.or_none]
    exact ⟨.unreadable reason hc hmode, .inl ⟨rfl, rfl⟩, rfl⟩
  · rw [hmode, Option.or_none]
    cases hchosen : sys.debugger.startMode with
    | none =>
      have htake : sys.takeUp host.tallying r = sys.refuse r .startModeMissing := by
        simp only [takeUp, hd, fulfil, Debugger.chosenStart, hchosen]
      rw [uptake_of_quiet rfl (by rw [htake]; rfl), htake]
      exact ⟨.early hc rfl, .inl ⟨rfl, rfl⟩, hchosen⟩
    | some mode =>
      -- The target is started; the result only tells the answer.
      cases hs : host.start mode sys.target.1 with
      | mk result target =>
        have htarget : (sys.takeUp host.tallying r).target =
            (target, sys.target.2 ++ [⟨mode, result⟩]) := by
          simp only [takeUp, hd, fulfil, Debugger.chosenStart, hchosen, Host.tallying, hs]
          cases result <;> rfl
        have ho : (sys.takeUp host.tallying r).outcome? (.step .session) =
            some (Start.answer ⟨mode, result⟩ r) := by
          simp only [takeUp, hd, fulfil, Debugger.chosenStart, hchosen, Host.tallying, hs]
          cases result <;> rfl
        have hsame : (sys.takeUp host.tallying r).debugger.startMode = some mode := by
          simp only [takeUp, hd, fulfil, Debugger.chosenStart, hchosen, Host.tallying, hs]
          cases result <;> exact hchosen
        rw [uptake_of_start ho htarget, hsame]
        exact ⟨.start _ hc rfl, .inr ⟨_, target, rfl, hs, htarget⟩, rfl⟩
  · obtain ⟨htarget, hsame⟩ := takeUp_elsewhere host.tallying sys hstart hchoose
    rw [uptake_of_quiet rfl htarget, htarget, hsame, hmode, Option.or_none]
    exact ⟨.other _ hc, .inl ⟨rfl, rfl⟩, rfl⟩

end System

-- ---------------------------------------------------------------------------
-- Steps
-- ---------------------------------------------------------------------------

namespace System

variable {sys sys' : System σ τ}

/-- The session closes, and takes up no request any more. -/
def Leaving (sys : System σ τ) : Prop :=
  match sys.session.phase with
  | .answering o => o.closes = true
  | .following _ _ closes => closes = true
  | .closing .mark _ | .closing _ (some _) => True
  | .closing _ none | .reading => sys.handle.closed = true
  | .disconnecting _ | .finishing _ | .ended _ => True
  | .handling _ | .asking .. | .scheduling .. | .awaiting _ | .resuming .. | .deciding .. => False

theorem answering_of_outcome? {o : Outcome} (h : sys.outcome? (.step .session) = some o) :
    sys.session.phase = .answering o := by
  unfold outcome? at h
  dsimp only at h
  split at h
  · rename_i hp
    rw [hp, Option.some.inj h]
  · cases h

theorem SessionStep.leaving (h : SessionStep host sys sys') (hl : sys.Leaving) :
    sys'.Leaving := by
  unfold Leaving at hl
  cases h with
  | shut | close | disconnect | finish => exact trivial
  | quit hp hc | skip hp hc | begin hp hc =>
    rw [hp] at hl
    cases hc.symm.trans hl
  | takeUp hp | ask hp | askInVain hp | schedule hp | scheduleInVain hp | pass hp | passError hp
  | resume hp | resumeInVain hp | decide hp | decideInVain hp =>
    rw [hp] at hl
    exact hl.elim
  | answer hp | follow hp | letGo hp =>
    rw [hp] at hl
    exact hl
  | goOn hp =>
    rw [hp] at hl
    cases hl
  | @mark result hp =>
    cases result with
    | none => exact rfl
    | some result => exact trivial
  | @vacate _ _ result hp hv | @vacant _ result hp hv =>
    rw [hp] at hl
    cases result with
    | none => exact (Handle.vacate_outside hv).1.trans hl
    | some result => exact trivial
  | @settle _ result hp | @release _ result hp =>
    rw [hp] at hl
    cases result with
    | none => exact hl
    | some result => exact trivial

theorem SessionStep.aloof (h : SessionStep host sys sys')
    (hp : ∀ r, sys.session.phase ≠ .handling r) :
    sys'.target = sys.target ∧ sys'.debugger.startMode = sys.debugger.startMode := by
  cases h with
  | takeUp hp' => exact absurd hp' (hp _)
  | @vacant _ result | @release _ result =>
    cases result <;> exact ⟨rfl, rfl⟩
  | disconnect =>
    refine ⟨rfl, ?_⟩
    show (if sys.session.disconnected then sys.debugger else _).startMode = _
    split <;> rfl
  | _ => exact ⟨rfl, rfl⟩

theorem ThreadStep.aloof (h : ThreadStep host sys sys') :
    sys'.target = sys.target ∧ sys'.debugger.startMode = sys.debugger.startMode ∧
      (sys.Leaving → sys'.Leaving) := by
  obtain ⟨hsession, hclosed, -⟩ := h.outside
  have hleaving : sys.Leaving → sys'.Leaving := by
    unfold Leaving
    rw [hsession, hclosed]
    exact id
  refine ⟨h.target_eq, ?_, hleaving⟩
  cases h with
  | @serveFault origin | @depart origin => cases origin <;> rfl
  | _ => rfl

end System

-- ---------------------------------------------------------------------------
-- Registers
-- ---------------------------------------------------------------------------

structure Register (σ τ : Type) where
  sys : System σ (τ × List Start)
  taken : List Uptake := []

def System.uptake? (host : Host σ τ) (sys : System σ (τ × List Start)) : Move → Option Uptake
  | .step .session =>
    match sys.session.phase with
    | .handling r => some (sys.uptake host r)
    | _ => none
  | .step .thread | .arrive _ | .hangUp => none

/-- The mode that the first request has chosen that could. -/
def chosenIn (taken : List Uptake) : Option StartMode := taken.findSome? (·.request.startMode?)

/-- The requests were taken up in order, and none behind one that closes the session. -/
structure Course (taken : List Uptake) : Prop where
  proper : ∀ before u after, taken = before ++ u :: after → u.Proper (chosenIn before)
  last : ∀ before u after, taken = before ++ u :: after → u.Closes → after = []

theorem course_nil : Course [] where
  proper _ _ _ h := by simp at h
  last _ _ _ h := by simp at h

theorem chosenIn_concat (taken : List Uptake) (u : Uptake) :
    chosenIn (taken ++ [u]) = (chosenIn taken).or u.request.startMode? := by
  rw [chosenIn, List.findSome?_append, List.findSome?_singleton]
  rfl

theorem Course.prefix {taken early : List Uptake} (h : Course taken) (hearly : early <+: taken) :
    Course early := by
  obtain ⟨late, rfl⟩ := hearly
  constructor
  case proper =>
    rintro before u after rfl
    exact h.proper before u (after ++ late) (by simp)
  case last =>
    rintro before u after rfl hu
    exact (List.append_eq_nil_iff.1 (h.last before u (after ++ late) (by simp) hu)).1

theorem Course.concat {taken : List Uptake} {u : Uptake} (h : Course taken)
    (hu : u.Proper (chosenIn taken)) (hopen : ∀ v ∈ taken, ¬ v.Closes) : Course (taken ++ [u]) := by
  -- A split of the longer list is at the new request or is one of the shorter list.
  have hcases {before : List Uptake} {v : Uptake} {after : List Uptake}
      (heq : taken ++ [u] = before ++ v :: after) :
      taken = before ∧ v = u ∧ after = [] ∨
        ∃ mid, after = mid ++ [u] ∧ taken = before ++ v :: mid := by
    obtain rfl | ⟨mid, w, rfl⟩ := after.eq_nil_or_concat'
    · obtain ⟨rfl, hv⟩ := List.append_inj' heq rfl
      exact .inl ⟨rfl, (List.singleton_inj.1 hv).symm, rfl⟩
    · rw [← List.cons_append, ← List.append_assoc] at heq
      obtain ⟨rfl, hw⟩ := List.append_inj' heq rfl
      exact .inr ⟨mid, by rw [List.singleton_inj.1 hw], rfl⟩
  constructor
  case proper =>
    intro before v after heq
    obtain ⟨rfl, rfl, -⟩ | ⟨mid, -, htaken⟩ := hcases heq
    · exact hu
    · exact h.proper _ _ _ htaken
  case last =>
    intro before v after heq hv
    obtain ⟨-, -, rfl⟩ | ⟨mid, -, rfl⟩ := hcases heq
    · rfl
    · exact absurd hv (hopen v (by simp))

namespace Register

def play (host : Host σ τ) (c : Register σ τ) (move : Move) : Register σ τ where
  sys := c.sys.play host.tallying move
  taken := c.taken ++ (c.sys.uptake? host move).toList

theorem uptake?_of_waiting {sys : System σ (τ × List Start)} {side : Side}
    (h : sys.step host.tallying side = none) : sys.uptake? host (.step side) = none := by
  cases side with
  | thread => rfl
  | session =>
    obtain ⟨reader, hp, -⟩ | ⟨r, hp, -⟩ | ⟨result, hp⟩ := System.waiting_of_stepSession h
    all_goals simp only [System.uptake?, hp]

def recorder (host : Host σ τ) : Recorder host.tallying (Register σ τ) where
  sys := Register.sys
  play := play host
  sys_play _ _ := rfl
  play_waiting h := by
    simp only [play, System.play_waiting h, uptake?_of_waiting h, Option.toList_none,
      List.append_nil]

def run (host : Host σ τ) (moves : List Move) (c : Register σ τ) : Register σ τ :=
  (recorder host).run moves c

theorem sys_run (host : Host σ τ) (moves : List Move) (c : Register σ τ) :
    (c.run host moves).sys = c.sys.run host.tallying moves :=
  (recorder host).sys_run moves c

end Register

def Host.Refuses (host : Host σ τ) (target : τ) : Prop :=
  ∀ mode, ∃ reason, (host.start mode target).1 = .error (.startFailed reason)

/-- A target that has been started refuses to start again. -/
def Host.StartsOnce (host : Host σ τ) : Prop :=
  ∀ mode target target', host.start mode target = (.ok (), target') → host.Refuses target'

theorem startsOnce_of_oneShot {host : Host σ OneShot} (h : host.start = OneShot.start) :
    host.StartsOnce := by
  intro mode target target' hs mode'
  rw [h, OneShot.start] at hs
  split at hs
  · cases hs
  · split at hs
    · cases hs
    · rename_i hmissing _
      cases hs
      exact ⟨"already started", by simp [h, OneShot.start, hmissing]⟩

def successes (starts : List Start) : Nat := starts.countP (·.result.isOk)

namespace Register

structure Faithful (host : Host σ τ) (c : Register σ τ) : Prop where
  starts : c.sys.target.2 = c.taken.flatMap (·.starts)
  mode : c.sys.debugger.startMode = chosenIn c.taken
  course : Course c.taken
  leaving : (∃ u ∈ c.taken, u.Closes) → c.sys.Leaving
  /-- The target that starts once was not started yet, or it would refuse, or it has refused. -/
  once : host.StartsOnce → successes c.sys.target.2 = 0 ∨ successes c.sys.target.2 = 1 ∧
    (host.Refuses c.sys.target.1 ∨ ∃ u ∈ c.taken, u.Closes)

variable {c : Register σ τ}

theorem faithful_start (host : Host σ τ) (paths : PathCase) (target : τ)
    (program : List (Item σ)) :
    Faithful host { sys := .start (.fresh paths) (target, []) program } where
  starts := rfl
  mode := rfl
  course := course_nil
  leaving := by simp
  once _ := .inl rfl

theorem Faithful.pass (h : c.Faithful host) {sys : System σ (τ × List Start)}
    (ht : sys.target = c.sys.target) (hm : sys.debugger.startMode = c.sys.debugger.startMode)
    (hl : c.sys.Leaving → sys.Leaving) : Faithful host { c with sys := sys } where
  starts := (congrArg Prod.snd ht).trans h.starts
  mode := hm.trans h.mode
  course := h.course
  leaving hu := hl (h.leaving hu)
  once honce := by
    show successes sys.target.2 = 0 ∨ successes sys.target.2 = 1 ∧ (host.Refuses sys.target.1 ∨ _)
    rw [ht]
    exact h.once honce

theorem Faithful.not_closes (h : c.Faithful host) {r : Request}
    (hp : c.sys.session.phase = .handling r) : ∀ u ∈ c.taken, ¬ u.Closes := by
  intro u hu hc
  have hl := h.leaving ⟨u, hu, hc⟩
  rw [System.Leaving, hp] at hl
  exact hl

theorem Faithful.once_takeUp (h : c.Faithful host) {r : Request}
    (hp : c.sys.session.phase = .handling r) (honce : host.StartsOnce) :
    successes (c.sys.takeUp host.tallying r).target.2 = 0 ∨
      successes (c.sys.takeUp host.tallying r).target.2 = 1 ∧
        (host.Refuses (c.sys.takeUp host.tallying r).target.1 ∨ (c.sys.uptake host r).Closes) := by
  have hbefore : successes c.sys.target.2 = 0 ∨
      successes c.sys.target.2 = 1 ∧ host.Refuses c.sys.target.1 := by
    refine (h.once honce).imp_right fun ⟨hone, hrest⟩ => ⟨hone, hrest.resolve_right ?_⟩
    rintro ⟨u, hu, hc⟩
    exact h.not_closes hp u hu hc
  obtain ⟨hproper, ⟨-, htarget⟩ | ⟨start, target, hstarts, hs, htarget⟩, -⟩ :=
    System.takeUp_proper host c.sys r
  · rw [htarget]
    exact hbefore.imp_right fun ⟨hone, hrefuses⟩ => ⟨hone, .inl hrefuses⟩
  · rw [htarget]
    dsimp only
    have hcount : successes (c.sys.target.2 ++ [start]) =
        successes c.sys.target.2 + if start.result.isOk then 1 else 0 := by
      rw [successes, List.countP_append, List.countP_singleton]
      rfl
    rw [hcount]
    cases hresult : start.result with
    | ok value =>
      obtain hzero | ⟨-, hrefuses⟩ := hbefore
      · refine .inr ⟨by rw [hzero]; rfl, .inl ?_⟩
        exact honce _ _ _ (hs.trans (by rw [hresult]))
      · obtain ⟨reason, hreason⟩ := hrefuses start.mode
        rw [hs, hresult] at hreason
        cases hreason
    | error e =>
      obtain hzero | ⟨hone, hrefuses⟩ := hbefore
      · exact .inl hzero
      · -- A second start is refused, so that the session closes, whatever the target does next.
        refine .inr ⟨hone, .inr ?_⟩
        obtain ⟨reason, hreason⟩ := hrefuses start.mode
        have hreason : start.result = .error (.startFailed reason) := by rwa [hs] at hreason
        obtain ⟨-, -, -, ho⟩ := hproper.of_start (hstarts ▸ List.mem_singleton_self start)
        refine ⟨_, ho, ?_⟩
        rw [Start.answer, hreason]
        rfl

theorem Faithful.takeUp (h : c.Faithful host) {r : Request}
    (hp : c.sys.session.phase = .handling r) :
    Faithful host
      { sys := c.sys.takeUp host.tallying r, taken := c.taken ++ [c.sys.uptake host r] } := by
  have hopen := h.not_closes hp
  obtain ⟨hproper, htarget, hmode⟩ := System.takeUp_proper host c.sys r
  rw [h.mode] at hproper hmode
  refine ⟨?starts, ?mode, h.course.concat hproper hopen, ?leaving, fun honce => ?once⟩
  case starts =>
    show (c.sys.takeUp host.tallying r).target.2 = _
    rw [List.flatMap_append, List.flatMap_singleton, ← h.starts]
    obtain ⟨hnone, htarget⟩ | ⟨start, target, hstarts, -, htarget⟩ := htarget
    · rw [hnone, htarget, List.append_nil]
    · rw [hstarts, htarget]
  case mode =>
    rw [chosenIn_concat]
    exact hmode
  case leaving =>
    rintro ⟨u, hu, o, ho, hc⟩
    obtain hu | hu := List.mem_append.1 hu
    · exact absurd ⟨o, ho, hc⟩ (hopen u hu)
    · obtain rfl := List.mem_singleton.1 hu
      have hphase : (c.sys.takeUp host.tallying r).session.phase = .answering o :=
        System.answering_of_outcome? ho
      show System.Leaving _
      rw [System.Leaving, hphase]
      exact hc
  case once =>
    refine (h.once_takeUp hp honce).imp_right fun ⟨hone, hrest⟩ => ⟨hone, hrest.imp_right ?_⟩
    exact fun hc => ⟨_, List.mem_append_right _ (List.mem_singleton_self _), hc⟩

theorem Faithful.session (h : c.Faithful host)
    (hstep : System.SessionStep host.tallying c.sys
      (c.play host (.step .session)).sys) : (c.play host (.step .session)).Faithful host := by
  by_cases hp : ∃ r, c.sys.session.phase = .handling r
  · obtain ⟨r, hp⟩ := hp
    have hsys : c.sys.play host.tallying (.step .session) = c.sys.takeUp host.tallying r :=
      System.play_step (by simp only [System.step, System.stepSession, hp])
    simp only [Register.play, hsys, System.uptake?, hp, Option.toList_some]
    exact h.takeUp hp
  · have hp : ∀ r, c.sys.session.phase ≠ .handling r := fun r hr => hp ⟨r, hr⟩
    have hnone : c.sys.uptake? host (.step .session) = none := by
      unfold System.uptake?
      dsimp only
      split
      · exact absurd ‹_› (hp _)
      · rfl
    rw [Register.play, hnone, Option.toList_none, List.append_nil]
    exact h.pass (hstep.aloof hp).1 (hstep.aloof hp).2 hstep.leaving

theorem Faithful.run (h : c.Faithful host) (moves : List Move) :
    (c.run host moves).Faithful host := by
  refine (recorder host).run_keeps (P := Faithful host) (fun {c} arrivals h => ?arrive)
    (fun {c} h => ?hangUp) (fun h hstep => h.session hstep) (fun {c} h hstep => ?thread) h moves
  all_goals have hquiet : c.taken ++ [] = c.taken := List.append_nil _
  case arrive =>
    show Faithful host ⟨c.sys.play host.tallying (.arrive arrivals), c.taken ++ []⟩
    rw [System.play_arrive, hquiet]
    exact h.pass rfl rfl id
  case hangUp =>
    show Faithful host ⟨c.sys.play host.tallying .hangUp, c.taken ++ []⟩
    rw [hquiet]
    exact h.pass rfl rfl id
  case thread =>
    show Faithful host ⟨_, c.taken ++ []⟩
    rw [hquiet]
    obtain ⟨ht, hm, hl⟩ := hstep.aloof
    exact h.pass ht hm hl

end Register

theorem Course.chosen {taken : List Uptake} (h : Course taken) {mode : StartMode}
    (hm : chosenIn taken = some mode) :
    ∃ before u after, taken = before ++ u :: after ∧ chosenIn before = none ∧
      u.request.startMode? = some mode ∧
      u.outcome = some { response := u.request.accept none } := by
  obtain ⟨before, u, after, rfl, hu, hnone⟩ := List.findSome?_eq_some_iff.1 hm
  have hnone : chosenIn before = none := List.findSome?_eq_none_iff.2 hnone
  refine ⟨before, u, after, rfl, hnone, hu, ?_⟩
  have hproper := h.proper _ _ _ rfl
  rw [hnone] at hproper
  exact hproper.granted hu

/-- Of every run of a new debugger in a session, by a target that remembers how it was started:
the target is started once for each `configurationDone` that comes behind a granted request to
launch or attach, and only then. The mode is that of the first request to launch or attach whose
arguments could be read; it was granted, all later ones are refused, and the mode stays. Where a
start fails with more than a violation of the contract, no other request is taken up. So a target
that refuses to start again has one success at most, while another one may be started many times. -/
theorem starts_of_session (host : Host σ τ) (paths : PathCase) (target : τ)
    (program : List (Item σ)) (moves : List Move) :
    let c : Register σ τ := .run host moves { sys := .start (.fresh paths) (target, []) program }
    c.sys.untallied = System.run host moves (.start (.fresh paths) target program) ∧
      c.sys.target.2 = c.taken.flatMap (·.starts) ∧
      c.sys.debugger.startMode = chosenIn c.taken ∧
      (∀ before u after, c.taken = before ++ u :: after →
        u.Proper (chosenIn before) ∧
        (∀ start ∈ u.starts, u.starts = [start] ∧ u.request.command = "configurationDone" ∧
          ∃ earlier first later, before = earlier ++ first :: later ∧ chosenIn earlier = none ∧
            first.request.startMode? = some start.mode ∧
            first.outcome = some { response := first.request.accept none }) ∧
        (chosenIn before ≠ none →
          u.request.command = "launch" ∨ u.request.command = "attach" →
          u.starts = [] ∧ ∃ e, u.outcome = some (.refusal u.request e)) ∧
        (u.Closes → after = [])) ∧
      (host.StartsOnce → successes c.sys.target.2 ≤ 1) := by
  intro c
  have h : c.Faithful host := (Register.faithful_start host paths target program).run moves
  refine ⟨?untallied, h.starts, h.mode, fun before u after htaken => ?taken, fun honce => ?once⟩
  case untallied =>
    have hsys : c.sys = System.run host.tallying moves _ := Register.sys_run host moves _
    rw [hsys, ← System.run_untallied]
    rfl
  case taken =>
    have hproper := h.course.proper before u after htaken
    refine ⟨hproper, fun start hs => ?_, hproper.refused, h.course.last before u after htaken⟩
    obtain ⟨hstarts, hc, hchosen, -⟩ := hproper.of_start hs
    have hbefore : Course before := h.course.prefix (htaken ▸ List.prefix_append _ _)
    exact ⟨hstarts, hc, hbefore.chosen hchosen⟩
  case once =>
    obtain hzero | ⟨hone, -⟩ := h.once honce
    · exact hzero.le.trans zero_le_one
    · exact hone.le

-- ---------------------------------------------------------------------------
-- Starting again
-- ---------------------------------------------------------------------------

def launchText : String := "\x7b\"seq\":1,\"type\":\"request\",\"command\":\"launch\"\x7d"

def configuredText : String :=
  "\x7b\"seq\":1,\"type\":\"request\",\"command\":\"configurationDone\"\x7d"

theorem Packet.Reader.readMessage_launch :
    ({ arrivals := [packetOf launchText] } : Packet.Reader).readMessage =
      (.item (bareMessage "launch"), {}) :=
  readMessage_of_text (by decide +kernel) (by with_unfolding_all rfl)

theorem Packet.Reader.readMessage_configured :
    ({ arrivals := [packetOf configuredText] } : Packet.Reader).readMessage =
      (.item (bareMessage "configurationDone"), {}) :=
  readMessage_of_text (by decide +kernel) (by with_unfolding_all rfl)

/-- A packet arrives, and the session reads the request in it and answers it. -/
def askMoves (text : String) : List Move :=
  .arrive [packetOf text] :: List.replicate 4 (.step .session)

namespace System

structure Ready (sys : System σ τ) (mode : StartMode) : Prop where
  reading : sys.session.phase = .reading
  opened : sys.handle.closed = false
  reader : sys.session.reader = {}
  chosen : sys.debugger.startMode = some mode

theorem run_ask {sys : System σ τ} {text : String} {message : Json} {r : Request}
    (hp : sys.session.phase = .reading) (hc : sys.handle.closed = false)
    (hr : sys.session.reader = {})
    (hread : ({ arrivals := [packetOf text] } : Packet.Reader).readMessage = (.item message, {}))
    (hreq : requestOf? message = some r) :
    sys.run host (askMoves text) =
      ((sys.enter (.handling r)).takeUp host r).run host (List.replicate 2 (.step .session)) := by
  obtain ⟨-, hplay⟩ := play_packet host hp hc hr hread hreq
  have htakeUp : (sys.enter (.handling r)).play host (.step .session) =
      (sys.enter (.handling r)).takeUp host r := rfl
  show (((sys.play host (.arrive [packetOf text])).play host (.step .session)).play host
    (.step .session)).run host (List.replicate 2 (.step .session)) = _
  rw [hplay, htakeUp]

theorem ready_launch (host : Host σ τ) (paths : PathCase) (target : τ) (program : List (Item σ)) :
    ((System.start (.fresh paths) target program).run host (askMoves launchText)).Ready .launch ∧
      ((System.start (.fresh paths) target program).run host (askMoves launchText)).target =
        target := by
  rw [run_ask (r := bareRequest "launch") rfl rfl rfl Packet.Reader.readMessage_launch rfl]
  exact ⟨⟨rfl, rfl, rfl, rfl⟩, rfl⟩

theorem Ready.configured {sys : System σ τ} {mode : StartMode} (h : sys.Ready mode) :
    (sys.run host (askMoves configuredText)).target = (host.start mode sys.target).2 ∧
      ((host.start mode sys.target).1 = .ok () →
        (sys.run host (askMoves configuredText)).Ready mode) := by
  let r := bareRequest "configurationDone"
  rw [run_ask (r := r) h.reading h.opened h.reader Packet.Reader.readMessage_configured rfl]
  have hd : Demand.of? r = some (.ok .start) := rfl
  have hchosen : (sys.enter (.handling r)).debugger.chosenStart = .ok mode := by
    show sys.debugger.chosenStart = _
    rw [Debugger.chosenStart, h.chosen]
  have htarget : (sys.enter (.handling r)).target = sys.target := rfl
  obtain ⟨hreading, hopened, hreader, hmode⟩ := h
  cases hs : host.start mode sys.target with
  | mk result target =>
    simp only [takeUp, hd, fulfil, hchosen, htarget, hs]
    cases result with
    | ok value => exact ⟨rfl, fun _ => ⟨rfl, hopened, hreader, hmode⟩⟩
    | error e =>
      refine ⟨?_, fun herror => by cases herror⟩
      simp only [refuse]
      cases e.isContractViolation <;> rfl

end System

def startMoves (n : Nat) : List Move :=
  askMoves launchText ++ (List.replicate n (askMoves configuredText)).flatten

theorem startMoves_succ (n : Nat) :
    startMoves (n + 1) = startMoves n ++ askMoves configuredText := by
  simp [startMoves, List.replicate_succ']

/-- A target that accepts every start is started as often as the configuration is done. -/
theorem started_each_time (host : Host σ τ) (paths : PathCase) (target : τ)
    (program : List (Item σ)) (haccepts : ∀ target, (host.start .launch target).1 = .ok ())
    (n : Nat) :
    let sys := System.run host.tallying (startMoves n) (.start (.fresh paths) (target, []) program)
    sys.Ready .launch ∧ sys.target.2 = List.replicate n ⟨.launch, .ok ()⟩ := by
  induction n with
  | zero =>
    rw [startMoves, List.replicate_zero, List.flatten_nil, List.append_nil]
    obtain ⟨hready, htarget⟩ := System.ready_launch host.tallying paths (target, []) program
    exact ⟨hready, by rw [htarget]; rfl⟩
  | succ n ih =>
    obtain ⟨hready, hlog⟩ := ih
    obtain ⟨htarget, hnext⟩ := @hready.configured _ _ host.tallying
    rw [startMoves_succ, System.run_append]
    refine ⟨hnext (haccepts _), ?_⟩
    rw [htarget, List.replicate_succ', ← hlog]
    simp [Host.tallying, haccepts]

theorem started_again (host : Host σ τ) (paths : PathCase) (target : τ) (program : List (Item σ))
    (hs : (host.start .launch target).1 = .ok ()) :
    (System.run host.tallying (startMoves 2)
        (.start (.fresh paths) (target, []) program)).target.2 =
      [⟨.launch, .ok ()⟩, ⟨.launch, (host.start .launch (host.start .launch target).2).1⟩] := by
  obtain ⟨hready, htarget⟩ := System.ready_launch host.tallying paths (target, []) program
  obtain ⟨hfirst, hnext⟩ := @hready.configured _ _ host.tallying
  rw [htarget] at hfirst hnext
  obtain ⟨hsecond, -⟩ := (hnext hs).configured
  rw [hfirst] at hsecond
  have hmoves : startMoves 2 =
      askMoves launchText ++ askMoves configuredText ++ askMoves configuredText := rfl
  rw [hmoves, System.run_append, System.run_append, hsecond]
  simp [Host.tallying, hs]

/-- A target that starts once has one success, though it is asked twice. -/
theorem starts_of_session_scripted :
    let c : Register Scripted.Stack OneShot :=
      .run scriptedHost (startMoves 2) { sys := .start (.fresh .sensitive) ({}, []) [] }
    scriptedHost.StartsOnce ∧
      c.sys.target.2 =
        [⟨.launch, .ok ()⟩, ⟨.launch, .error (.startFailed "already started")⟩] ∧
      successes c.sys.target.2 ≤ 1 := by
  intro c
  have honce : scriptedHost.StartsOnce := startsOnce_of_oneShot rfl
  obtain ⟨-, -, -, -, hsuccesses⟩ :=
    starts_of_session scriptedHost .sensitive {} [] (startMoves 2)
  refine ⟨honce, ?_, hsuccesses honce⟩
  have hsys : c.sys = System.run scriptedHost.tallying (startMoves 2) _ :=
    Register.sys_run scriptedHost (startMoves 2) _
  rw [hsys]
  exact started_again scriptedHost .sensitive {} [] rfl

/-- In one session the target is started once at most. -/
def Host.StartedOnce (host : Host σ τ) (paths : PathCase) (target : τ) : Prop :=
  ∀ program moves, (System.run host.tallying moves
    (.start (.fresh paths) (target, []) program)).target.2.length ≤ 1

def eagerHost : Host Unit Unit where
  interpreter := brokenHost.interpreter
  start _ _ := (.ok (), ())
  isRunning _ := true

/-- Whether a second start is refused is up to the target. -/
theorem not_startedOnce :
    (System.run scriptedHost.tallying (startMoves 2)
        (.start (.fresh .sensitive) ({}, []) [])).target.2 =
        [⟨.launch, .ok ()⟩, ⟨.launch, .error (.startFailed "already started")⟩] ∧
      (System.run eagerHost.tallying (startMoves 2)
        (.start (.fresh .sensitive) ((), []) [])).target.2 =
        [⟨.launch, .ok ()⟩, ⟨.launch, .ok ()⟩] ∧
      ¬ scriptedHost.StartedOnce .sensitive {} ∧ ¬ eagerHost.StartedOnce .sensitive () := by
  have hscripted := started_again scriptedHost .sensitive {} [] rfl
  have heager := (started_each_time eagerHost .sensitive () [] (fun _ => rfl) 2).2
  refine ⟨hscripted, heager, fun h => ?_, fun h => ?_⟩
  · have hlength := h [] (startMoves 2)
    rw [hscripted] at hlength
    exact absurd hlength (by decide)
  · have hlength := h [] (startMoves 2)
    rw [heager] at hlength
    exact absurd hlength (by decide)

end DebugAdapter
