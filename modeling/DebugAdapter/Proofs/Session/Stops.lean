import DebugAdapter.Proofs.Interpreter.Answers
import DebugAdapter.Proofs.Session.Recorder
import Mathlib.Data.List.Chain

/-!
# Where the target stops

A run leaves notes of what matters for stops: that the client has gone, that an event comes up, how
it is judged, that a stop is made known, and how a stopped event goes on. Over every run the verdict
on an event depends on nothing but these notes: the client has not gone before the event, and the
event hits a breakpoint or meets the goal with which the last stop was resumed (`Lawful`).
-/

namespace DebugAdapter

open Protocol

variable {σ τ : Type} {host : Host σ τ}

-- ---------------------------------------------------------------------------
-- Notes
-- ---------------------------------------------------------------------------

inductive Note (σ : Type) where
  | gone
  | event (e : ExecutionEvent)
  /-- The breakpoints at this time, the interpreter, and the stop if there is one. -/
  | verdict (e : ExecutionEvent) (breakpoints : Breakpoints) (s : σ) (stop : Option StoppedBody)
  | stopped (origin : Origin) (body : StoppedBody)
  | resumed (e : ExecutionEvent) (decision : Decision) (s : σ)

namespace Note

def own : Note σ → Bool
  | .event _ | .verdict .. | .stopped (.debugger _) _ | .resumed .. => true
  | .gone | .stopped .direct _ => false

/-- What may come right after what, in the notes on events. Only a session that is closed does not
make a stop known. -/
inductive Follows (closed : Bool) : Note σ → Note σ → Prop
  | judged (e : ExecutionEvent) (b : Breakpoints) (s : σ) (stop : Option StoppedBody) :
      Follows closed (.event e) (.verdict e b s stop)
  | passed (e : ExecutionEvent) (b : Breakpoints) (s : σ) (e' : ExecutionEvent) :
      Follows closed (.verdict e b s none) (.event e')
  | told (e : ExecutionEvent) (b : Breakpoints) (s : σ) (body : StoppedBody) :
      Follows closed (.verdict e b s (some body)) (.stopped (.debugger e) body)
  | turnedAway (e : ExecutionEvent) (b : Breakpoints) (s : σ) (body : StoppedBody) (s' : σ) :
      closed = true → Follows closed (.verdict e b s (some body)) (.resumed e .detach s')
  | decided (e : ExecutionEvent) (body : StoppedBody) (decision : Decision) (s : σ) :
      Follows closed (.stopped (.debugger e) body) (.resumed e decision s)
  | wentOn (e : ExecutionEvent) (decision : Decision) (s : σ) (e' : ExecutionEvent) :
      Follows closed (.resumed e decision s) (.event e')

def sent? : Note σ → Option Event
  | .stopped _ body => some (System.stoppedEvent body)
  | .gone | .event _ | .verdict .. | .resumed .. => none

def taken? : Note σ → Option ExecutionEvent
  | .event e => some e
  | .gone | .verdict .. | .stopped .. | .resumed .. => none

def resumption? : Note σ → Option (ExecutionEvent × Decision × σ)
  | .resumed e decision s => some (e, decision, s)
  | .gone | .event _ | .verdict .. | .stopped .. => none

end Note

-- ---------------------------------------------------------------------------
-- The law
-- ---------------------------------------------------------------------------

/-- The client has gone, or a stop ended in detachment. -/
def Gone (notes : List (Note σ)) : Prop :=
  .gone ∈ notes ∨ ∃ e s, .resumed e .detach s ∈ notes

/-- How the last stop was resumed, and in which state of the interpreter. -/
def lastResumed? (notes : List (Note σ)) : Option (ExecutionEvent × Decision × σ) :=
  (notes.filterMap Note.resumption?).getLast?

/-- Which stop an event has with the client there, after what was noted before. -/
inductive Stops (it : Interpreter σ) (before : List (Note σ)) (e : ExecutionEvent)
    (b : Breakpoints) (s : σ) : StoppedBody → Prop
  | line {line id : UInt32} : e.kind = .line → e.line = some line →
      b.matchLine e.source line = some id →
      Stops it before e b s (Debugger.stoppedBy "breakpoint" (some id))
  | call {function : String} {id : UInt32} : e.kind = .call → e.function = some function →
      b.matchCall function = some id →
      Stops it before e b s (Debugger.stoppedBy "function breakpoint" (some id))
  | step {line depth depth₀ : UInt32} {e₀ : ExecutionEvent} {decision : Decision} {s₀ : σ}
      {goal : StepGoal} : e.kind = .line → e.line = some line →
      b.matchLine e.source line = none → lastResumed? before = some (e₀, decision, s₀) →
      (it.depth s₀).1 = .ok depth₀ →
      StepGoal.of? decision (e₀.line.getD 0) depth₀ = some goal → (it.depth s).1 = .ok depth →
      goal.isMet .line line depth = true →
      Stops it before e b s (Debugger.stoppedBy "step" none)

/-- Each verdict is the one that the notes before its event call for. -/
def Lawful (it : Interpreter σ) (notes : List (Note σ)) : Prop :=
  ∀ before e between b s stop after,
    notes = before ++ .event e :: between ++ .verdict e b s stop :: after →
    (∀ n ∈ between, n.own = false) →
    ∀ body, stop = some body ↔ ¬ Gone before ∧ Stops it before e b s body

-- ---------------------------------------------------------------------------
-- One more note
-- ---------------------------------------------------------------------------

def lastOwn? (notes : List (Note σ)) : Option (Note σ) := (notes.filter Note.own).getLast?

section

variable {it : Interpreter σ} {notes before before' between between' : List (Note σ)}
  {n n' : Note σ} {e : ExecutionEvent} {b : Breakpoints} {s : σ} {stop : Option StoppedBody}
  {closed closed' : Bool}

theorem gone_append_resumed {decision : Decision} :
    Gone (notes ++ [.resumed e decision s]) ↔ Gone notes ∨ decision = .detach := by
  simp only [Gone, List.mem_append, List.mem_singleton, reduceCtorEq, or_false, Note.resumed.injEq]
  constructor
  · rintro (h | ⟨e', s', h | ⟨-, rfl, -⟩⟩)
    · exact .inl (.inl h)
    · exact .inl (.inr ⟨e', s', h⟩)
    · exact .inr rfl
  · rintro ((h | ⟨e', s', h⟩) | rfl)
    · exact .inl h
    · exact .inr ⟨e', s', .inl h⟩
    · exact .inr ⟨e, s, .inr ⟨rfl, rfl, rfl⟩⟩

theorem gone_append_other (hg : n ≠ .gone) (hr : n.resumption? = none) :
    Gone (notes ++ [n]) ↔ Gone notes := by
  have hne (e : ExecutionEvent) (s : σ) : .resumed e .detach s ≠ n := by
    rintro rfl
    cases hr
  simp [Gone, hg.symm, hne]

theorem lastOwn?_append (h : n.own = true) : lastOwn? (notes ++ [n]) = some n := by
  simp [lastOwn?, h]

theorem lastOwn?_append_other (h : n.own = false) : lastOwn? (notes ++ [n]) = lastOwn? notes := by
  simp [lastOwn?, h]

theorem lastResumed?_append_other (h : n.resumption? = none) :
    lastResumed? (notes ++ [n]) = lastResumed? notes := by
  simp [lastResumed?, h]

theorem lastResumed?_append {decision : Decision} :
    lastResumed? (notes ++ [Note.resumed e decision s]) = some (e, decision, s) := by
  simp [lastResumed?, Note.resumption?]

theorem Note.Follows.mono (h : Follows closed n n') (hc : closed = true → closed' = true) :
    Follows closed' n n' := by
  cases h with
  | judged e b s stop => exact .judged e b s stop
  | passed e b s e' => exact .passed e b s e'
  | told e b s body => exact .told e b s body
  | turnedAway e b s body s' h => exact .turnedAway e b s body s' (hc h)
  | decided e body decision s => exact .decided e body decision s
  | wentOn e decision s e' => exact .wentOn e decision s e'

theorem chain_append (h : (notes.filter Note.own).IsChain (Note.Follows closed))
    (hn : n.own = true → ∀ m ∈ lastOwn? notes, Note.Follows closed m n) :
    ((notes ++ [n]).filter Note.own).IsChain (Note.Follows closed) := by
  cases hown : n.own with
  | true =>
    simp only [List.filter_append, List.filter_cons, hown, if_true, List.filter_nil]
    refine List.isChain_append.2 ⟨h, List.isChain_singleton n, fun m hm m' hm' => ?_⟩
    cases hm'
    exact hn hown m hm
  | false => simpa [hown] using h

theorem split_unique (h : before ++ n :: between = before' ++ n' :: between') (hn : n.own = true)
    (hn' : n'.own = true) (hb : ∀ m ∈ between, m.own = false)
    (hb' : ∀ m ∈ between', m.own = false) : before = before' ∧ n = n' := by
  obtain ⟨as, rfl, has⟩ | ⟨as, rfl, has⟩ := List.append_eq_append_iff.1 h
  · cases as with
    | nil =>
      cases has
      exact ⟨(List.append_nil _).symm, rfl⟩
    | cons a as =>
      cases has
      have := hb n' (by simp)
      cases hn'.symm.trans this
  · cases as with
    | nil =>
      cases has
      exact ⟨List.append_nil _, rfl⟩
    | cons a as =>
      cases has
      have := hb' n (by simp)
      cases hn.symm.trans this

theorem lastOwn?_split (hn : n.own = true) (hb : ∀ m ∈ between, m.own = false) :
    lastOwn? (before ++ n :: between) = some n := by
  have : between.filter Note.own = [] := by simpa using hb
  simp [lastOwn?, hn, this]

theorem append_eq_split {as after : List (Note σ)} (h : notes ++ [n] = as ++ n' :: after) :
    (after = [] ∧ notes = as ∧ n = n') ∨ ∃ rest, notes = as ++ n' :: rest := by
  rcases after.eq_nil_or_concat with rfl | ⟨rest, m, rfl⟩
  · obtain ⟨rfl, hn⟩ := List.append_inj' h rfl
    cases hn
    exact .inl ⟨rfl, rfl, rfl⟩
  · rw [List.concat_eq_append, ← List.cons_append, ← List.append_assoc] at h
    exact .inr ⟨rest, (List.append_inj' h rfl).1⟩

theorem Lawful.append (h : Lawful it notes) (hn : ∀ e b s stop, n ≠ .verdict e b s stop) :
    Lawful it (notes ++ [n]) := by
  intro before e between b s stop after heq hb
  obtain ⟨-, -, rfl⟩ | ⟨rest, heq⟩ := append_eq_split heq
  · exact absurd rfl (hn e b s stop)
  · exact h before e between b s stop rest heq hb

theorem Lawful.append_verdict (h : Lawful it notes)
    (heq : notes = before ++ .event e :: between) (hb : ∀ n ∈ between, n.own = false)
    (hv : ∀ body, stop = some body ↔ ¬ Gone before ∧ Stops it before e b s body) :
    Lawful it (notes ++ [.verdict e b s stop]) := by
  intro before' e' between' b' s' stop' after heq' hb'
  obtain ⟨-, hnotes, hn⟩ | ⟨rest, hnotes⟩ := append_eq_split heq'
  · cases hn
    obtain ⟨rfl, -⟩ := split_unique (heq.symm.trans hnotes) rfl rfl hb hb'
    exact hv
  · exact h before' e' between' b' s' stop' rest hnotes hb'

end

-- ---------------------------------------------------------------------------
-- Chronicles
-- ---------------------------------------------------------------------------

def System.sessionNotes (sys : System σ τ) : List (Note σ) :=
  match sys.session.phase with
  | .handling r =>
    match Demand.of? r with
    | some (.ok .disconnect) => [.gone]
    | _ => []
  | .disconnecting _ => if sys.session.disconnected then [] else [.gone]
  | _ => []

def System.threadNotes (sys : System σ τ) (next : Thread.Phase σ) : List (Note σ) :=
  match sys.thread.phase with
  | .hooked e s =>
    match next with
    | .matching .. => [.event e]
    | .idle => [.event e, .verdict e sys.debugger.breakpoints s none]
    | _ => []
  | .matching e _ s =>
    match next with
    | .disarming _ body _ => [.verdict e sys.debugger.breakpoints s (some body)]
    | .idle => [.verdict e sys.debugger.breakpoints s none]
    | _ => []
  | .announcing origin body .. =>
    match next with
    | .serving .. => [.stopped origin body]
    | _ => []
  | .resumed (.debugger e) decision s =>
    match next with
    | .idle => [.resumed e decision s]
    | _ => []
  | _ => []

structure Chronicle (σ τ : Type) where
  sys : System σ τ
  notes : List (Note σ) := []

namespace Chronicle

def play (host : Host σ τ) (c : Chronicle σ τ) (move : Move) : Chronicle σ τ where
  sys := c.sys.play host move
  notes := c.notes ++ match move with
    | .step .session => c.sys.sessionNotes
    | .step .thread => c.sys.threadNotes (c.sys.play host move).thread.phase
    | .arrive _ | .hangUp => []

theorem sessionNotes_waiting {sys : System σ τ} (h : sys.stepSession host = none) :
    sys.sessionNotes = [] := by
  obtain ⟨reader, hp, -⟩ | ⟨r, hp, -⟩ | ⟨result, hp⟩ := System.waiting_of_stepSession h
  all_goals simp only [System.sessionNotes, hp]

theorem threadNotes_waiting {sys : System σ τ} (h : sys.stepThread host = none) :
    sys.threadNotes sys.thread.phase = [] := by
  obtain hp | ⟨origin, stop, g, s, hp⟩ | ⟨s, hp⟩ := System.waiting_of_stepThread h
  all_goals simp only [System.threadNotes, hp]

def recorder (host : Host σ τ) : Recorder host (Chronicle σ τ) where
  sys := Chronicle.sys
  play := play host
  sys_play _ _ := rfl
  play_waiting {c side} h := by
    cases side with
    | session => simp only [play, System.play_waiting h, sessionNotes_waiting h, List.append_nil]
    | thread => simp only [play, System.play_waiting h, threadNotes_waiting h, List.append_nil]

def run (host : Host σ τ) (moves : List Move) (c : Chronicle σ τ) : Chronicle σ τ :=
  (recorder host).run moves c

theorem run_append (c : Chronicle σ τ) (moves more : List Move) :
    c.run host (moves ++ more) = (c.run host moves).run host more :=
  (recorder host).run_append moves more c

end Chronicle

/-- The `stopped` events that were sent. -/
def Handle.news (h : Handle) : List Event :=
  h.outbox.filterMap fun
    | .event e => if e.name = "stopped" then some e else none
    | .response _ | .close => none

/-- The goal that the last resumed stop has left. -/
def goalOf (it : Interpreter σ) (notes : List (Note σ)) : Option StepGoal :=
  (lastResumed? notes).bind fun (e, decision, s) =>
    match (it.depth s).1 with
    | .ok depth => StepGoal.of? decision (e.line.getD 0) depth
    | .error _ => none

-- ---------------------------------------------------------------------------
-- Verdicts
-- ---------------------------------------------------------------------------

section

variable {it : Interpreter σ} {before : List (Note σ)} {e : ExecutionEvent} {b : Breakpoints}
  {s s' : σ} {d : Debugger} {stop : Option StoppedBody} {body : StoppedBody}

theorem breakpointStop_eq_some : d.breakpointStop e = some body ↔
    (∃ line id, e.kind = .line ∧ e.line = some line ∧
      d.breakpoints.matchLine e.source line = some id ∧
      Debugger.stoppedBy "breakpoint" (some id) = body) ∨
    ∃ function id, e.kind = .call ∧ e.function = some function ∧
      d.breakpoints.matchCall function = some id ∧
      Debugger.stoppedBy "function breakpoint" (some id) = body := by
  obtain ⟨kind, source, line, function⟩ := e
  cases kind <;> simp [Debugger.breakpointStop, Option.bind_eq_some_iff]

theorem stops_of_hit (h : d.breakpointStop e = some body) (body' : StoppedBody) :
    some body = some body' ↔ Stops it before e d.breakpoints s body' := by
  constructor
  · rintro ⟨⟩
    obtain ⟨line, id, hk, hl, hm, rfl⟩ | ⟨function, id, hk, hf, hm, rfl⟩ :=
      breakpointStop_eq_some.1 h
    · exact .line hk hl hm
    · exact .call hk hf hm
  · intro hstops
    rw [← h]
    cases hstops with
    | line hk hl hm => exact breakpointStop_eq_some.2 (.inl ⟨_, _, hk, hl, hm, rfl⟩)
    | call hk hf hm => exact breakpointStop_eq_some.2 (.inr ⟨_, _, hk, hf, hm, rfl⟩)
    | step hk hl hnone =>
      obtain ⟨line, id, -, hl', hm, -⟩ | ⟨function, id, hk', -⟩ := breakpointStop_eq_some.1 h
      · cases hl.symm.trans hl'
        cases hnone.symm.trans hm
      · cases hk.symm.trans hk'

theorem goalOf_eq_some {goal : StepGoal} : goalOf it before = some goal ↔
    ∃ e₀ decision s₀ depth₀, lastResumed? before = some (e₀, decision, s₀) ∧
      (it.depth s₀).1 = .ok depth₀ ∧
      StepGoal.of? decision (e₀.line.getD 0) depth₀ = some goal := by
  simp only [goalOf, Option.bind_eq_some_iff, Prod.exists]
  constructor
  · rintro ⟨e₀, decision, s₀, hlast, h⟩
    split at h
    · exact ⟨e₀, decision, s₀, _, hlast, ‹_›, h⟩
    · cases h
  · rintro ⟨e₀, decision, s₀, depth₀, hlast, hdepth, h⟩
    exact ⟨e₀, decision, s₀, hlast, by rw [hdepth]; exact h⟩

theorem stepStop_eq_some {goal : Option StepGoal}
    (h : Debugger.stepStop it goal e s = (.ok stop, s')) :
    stop = some body ↔ ∃ g line depth, goal = some g ∧ e.kind = .line ∧ e.line = some line ∧
      (it.depth s).1 = .ok depth ∧ g.isMet .line line depth = true ∧
      Debugger.stoppedBy "step" none = body := by
  obtain ⟨kind, source, line, function⟩ := e
  cases goal with
  | none =>
    cases h
    simp
  | some g =>
    cases kind with
    | call | ret =>
      cases h
      simp
    | line =>
      cases line with
      | none =>
        cases h
        simp
      | some line =>
        obtain ⟨depth, s₁, hdepth, h⟩ := bind_eq_ok.1 h
        cases h
        have hdepth : (it.depth s).1 = .ok depth := by rw [hdepth]
        simp [hdepth]

theorem stops_of_miss (h : d.breakpointStop e = none)
    (hs : Debugger.stepStop it (goalOf it before) e s = (.ok stop, s')) (body : StoppedBody) :
    stop = some body ↔ Stops it before e d.breakpoints s body := by
  rw [stepStop_eq_some hs]
  constructor
  · rintro ⟨goal, line, depth, hgoal, hk, hl, hdepth, hmet, rfl⟩
    obtain ⟨e₀, decision, s₀, depth₀, hlast, hdepth₀, hof⟩ := goalOf_eq_some.1 hgoal
    have hnone : d.breakpoints.matchLine e.source line = none := by
      cases hm : d.breakpoints.matchLine e.source line with
      | none => rfl
      | some id => cases h.symm.trans (breakpointStop_eq_some.2 (.inl ⟨_, _, hk, hl, hm, rfl⟩))
    exact .step hk hl hnone hlast hdepth₀ hof hdepth hmet
  · intro hstops
    cases hstops with
    | line hk hl hm => cases h.symm.trans (breakpointStop_eq_some.2 (.inl ⟨_, _, hk, hl, hm, rfl⟩))
    | call hk hf hm => cases h.symm.trans (breakpointStop_eq_some.2 (.inr ⟨_, _, hk, hf, hm, rfl⟩))
    | step hk hl _ hlast hdepth₀ hof hdepth hmet =>
      exact ⟨_, _, _, goalOf_eq_some.2 ⟨_, _, _, _, hlast, hdepth₀, hof⟩, hk, hl, hdepth, hmet, rfl⟩

end

-- ---------------------------------------------------------------------------
-- The session
-- ---------------------------------------------------------------------------

theorem Handle.news_congr {h h' : Handle} (ho : h'.outbox = h.outbox) : h'.news = h.news := by
  rw [news, ho, news]

theorem Handle.news_post (h : Handle) {e : Event} (hn : e.name = "stopped") :
    (h.post (.event e)).news = h.news ++ [e] := by
  simp [news, post, hn]

theorem Handle.news_post_other (h : Handle) {m : Outgoing}
    (hn : ∀ e, m = .event e → e.name ≠ "stopped") : (h.post m).news = h.news := by
  cases m with
  | event e => simp [news, post, hn e rfl]
  | response r | close => simp [news, post]

def Session.Phase.Quiet : Session.Phase → Prop
  | .answering o => ∀ e ∈ o.events, e.name ≠ "stopped"
  | .following events _ _ => ∀ e ∈ events, e.name ≠ "stopped"
  | _ => True

namespace System

variable {sys sys' : System σ τ}

theorem SessionStep.debugger_cases (h : SessionStep host sys sys') :
    (sys.sessionNotes = [] ∧ sys'.debugger.goal = sys.debugger.goal ∧
      sys'.debugger.terminated = sys.debugger.terminated) ∨
    sys.sessionNotes = [.gone] ∧ sys'.debugger = sys.debugger.disconnect := by
  cases h with
  | takeUp hp =>
    rename_i r
    obtain ⟨debugger, target, disconnected, phase, heq, hd, -⟩ := takeUp_cases host sys r
    rw [heq]
    simp only [sessionNotes, hp]
    obtain ⟨hne, hg, ht⟩ | ⟨heq, hd⟩ := hd
    · refine .inl ⟨?_, hg, ht⟩
      split
      · exact absurd ‹_› hne
      · rfl
    · exact .inr ⟨by rw [heq], hd⟩
  | disconnect hp =>
    simp only [sessionNotes, hp]
    cases sys.session.disconnected with
    | true => exact .inl ⟨rfl, rfl, rfl⟩
    | false => exact .inr ⟨rfl, rfl⟩
  | shut hp | quit hp | skip hp | begin hp | ask hp | askInVain hp | schedule hp | scheduleInVain hp
    | pass hp | passError hp | resume hp | resumeInVain hp | decide hp | decideInVain hp | answer hp
    | follow hp | letGo hp | close hp | goOn hp | mark hp | vacate hp | settle hp | finish hp =>
    exact .inl ⟨by simp only [sessionNotes, hp], rfl, rfl⟩
  | vacant hp | release hp =>
    exact .inl ⟨by simp only [sessionNotes, hp], by rw [debugger_closed], by rw [debugger_closed]⟩

theorem SessionStep.news_eq (h : SessionStep host sys sys') (hq : sys.session.phase.Quiet) :
    (sys.handle.closed = true → sys'.handle.closed = true) ∧
      sys'.handle.news = sys.handle.news ∧ sys'.session.phase.Quiet := by
  cases h with
  | takeUp hp =>
    obtain ⟨debugger, target, disconnected, phase, heq, -, hphase⟩ := takeUp_cases host sys _
    rw [heq]
    refine ⟨id, rfl, ?_⟩
    cases hphase with
    | granted _ he =>
      obtain rfl | rfl := he
      · exact nofun
      · simp [Session.Phase.Quiet, Event.named]
    | refused | unknown => exact nofun
    | inspect | resume => trivial
  | skip => exact ⟨id, rfl, hq⟩
  | shut | quit | begin | ask | resume | close | goOn | disconnect => exact ⟨id, rfl, trivial⟩
  | askInVain | scheduleInVain | pass | passError | resumeInVain | decideInVain =>
    exact ⟨id, rfl, nofun⟩
  | schedule _ hs =>
    obtain ⟨hc, ho⟩ := Handle.schedule_outside hs
    exact ⟨hc.trans, Handle.news_congr ho, trivial⟩
  | decide _ hd =>
    obtain ⟨hc, ho⟩ := Handle.decide_outside hd
    exact ⟨hc.trans, Handle.news_congr ho, nofun⟩
  | answer hp =>
    rw [hp] at hq
    exact ⟨id, Handle.news_post_other _ nofun, hq⟩
  | follow hp =>
    rw [hp] at hq
    refine ⟨id, Handle.news_post_other _ ?_, fun e he => hq e (List.mem_cons_of_mem _ he)⟩
    intro e he
    cases he
    exact hq _ List.mem_cons_self
  | letGo => exact ⟨id, rfl, nofun⟩
  | mark => exact ⟨fun _ => rfl, rfl, trivial⟩
  | vacate _ hv =>
    obtain ⟨hc, ho⟩ := Handle.vacate_outside hv
    exact ⟨hc.trans, Handle.news_congr ho, trivial⟩
  | vacant hp hv =>
    rename_i result
    obtain ⟨hc, ho⟩ := Handle.vacate_outside hv
    cases result <;> exact ⟨hc.trans, Handle.news_congr ho, trivial⟩
  | settle => exact ⟨id, rfl, trivial⟩
  | release hp =>
    rename_i result
    cases result <;> exact ⟨id, rfl, trivial⟩
  | finish => exact ⟨id, Handle.news_post_other _ nofun, trivial⟩

end System

-- ---------------------------------------------------------------------------
-- What the notes say of the thread
-- ---------------------------------------------------------------------------

/-- The next event may come up, and the goal is the one that the last resumed stop has left. -/
structure Calm (it : Interpreter σ) (notes : List (Note σ)) (closed : Bool) (d : Debugger) :
    Prop where
  follows : ∀ m ∈ lastOwn? notes, ∀ e, Note.Follows closed m (.event e)
  goal : d.terminated = false → d.goal = goalOf it notes

/-- How the notes on events end in each phase. -/
def Fits (it : Interpreter σ) (notes : List (Note σ)) (closed : Bool) (d : Debugger) :
    Thread.Phase σ → Prop
  | .idle | .hooked .. | .installing .direct .. | .announcing .direct .. | .serving .direct ..
  | .leaving .direct .. | .resumed .direct .. => Calm it notes closed d
  | .matching e goal _ => ∃ before between, notes = before ++ .event e :: between ∧
      (∀ n ∈ between, n.own = false) ∧ ¬ Gone before ∧ goal = goalOf it before ∧
      (d.terminated = false → d.goal = goalOf it notes)
  | .disarming e body _ | .installing (.debugger e) body .. | .announcing (.debugger e) body .. =>
    ∃ b s, lastOwn? notes = some (.verdict e b s (some body))
  | .serving (.debugger e) .. | .leaving (.debugger e) .. =>
    ∃ body, lastOwn? notes = some (.stopped (.debugger e) body)
  | .resumed (.debugger e) decision _ =>
    ∀ m ∈ lastOwn? notes, ∀ s, Note.Follows closed m (.resumed e decision s)
  | .dead _ => True

section

variable {it : Interpreter σ} {notes : List (Note σ)} {closed closed' : Bool} {d d' : Debugger}
  {n : Note σ} {phase : Thread.Phase σ}

theorem goalOf_append_other (h : n.resumption? = none) :
    goalOf it (notes ++ [n]) = goalOf it notes := by
  rw [goalOf, lastResumed?_append_other h, goalOf]

theorem Calm.mono (h : Calm it notes closed d) (hc : closed = true → closed' = true)
    (hg : d'.goal = d.goal) (ht : d'.terminated = d.terminated) : Calm it notes closed' d' where
  follows m hm e := (h.follows m hm e).mono hc
  goal hd := hg.trans (h.goal (ht.symm.trans hd))

theorem Fits.mono (h : Fits it notes closed d phase) (hc : closed = true → closed' = true)
    (hg : d'.goal = d.goal) (ht : d'.terminated = d.terminated) :
    Fits it notes closed' d' phase := by
  cases phase with
  | idle | hooked => exact Calm.mono h hc hg ht
  | installing origin | announcing origin | serving origin | leaving origin =>
    cases origin with
    | direct => exact Calm.mono h hc hg ht
    | debugger e => exact h
  | resumed origin =>
    cases origin with
    | direct => exact Calm.mono h hc hg ht
    | debugger e => exact fun m hm s => (h m hm s).mono hc
  | matching e goal s =>
    obtain ⟨before, between, hnotes, hb, hgone, hgoal, hd⟩ := h
    exact ⟨before, between, hnotes, hb, hgone, hgoal, fun h => hg.trans (hd (ht.symm.trans h))⟩
  | disarming | dead => exact h

theorem Fits.turnAway {origin : Origin} {body : StoppedBody} {g : StackGraph} {s : σ}
    (h : Fits it notes closed d (.installing origin body g s)) (hc : closed = true) :
    Fits it notes closed d (.resumed origin .detach s) := by
  cases origin with
  | direct => exact h
  | debugger e =>
    obtain ⟨b, s', hlast⟩ := h
    intro m hm s''
    cases hlast.symm.trans hm
    exact .turnedAway e b s' body s'' hc

theorem Fits.decided {origin : Origin} {stop : Nat} {s : σ}
    (h : Fits it notes closed d (.leaving origin stop s)) (decision : Decision) :
    Fits it notes closed d (.resumed origin decision s) := by
  cases origin with
  | direct => exact h
  | debugger e =>
    obtain ⟨body, hlast⟩ := h
    intro m hm s'
    cases hlast.symm.trans hm
    exact .decided e body decision s'

theorem Fits.gone (h : Fits it notes closed d phase) :
    Fits it (notes ++ [.gone]) closed d.disconnect phase := by
  have hlast : lastOwn? (notes ++ [.gone]) = lastOwn? notes := lastOwn?_append_other rfl
  have hcalm (h : Calm it notes closed d) : Calm it (notes ++ [.gone]) closed d.disconnect :=
    ⟨by rw [hlast]; exact h.follows, nofun⟩
  cases phase with
  | idle | hooked => exact hcalm h
  | installing origin | announcing origin | serving origin | leaving origin | resumed origin =>
    cases origin with
    | direct => exact hcalm h
    | debugger e =>
      simp only [Fits] at h ⊢
      rw [hlast]
      exact h
  | matching e goal s =>
    obtain ⟨before, between, rfl, hb, hgone, hgoal, -⟩ := h
    refine ⟨before, between ++ [.gone], by simp, fun n hn => ?_, hgone, hgoal, nofun⟩
    rcases List.mem_append.1 hn with hn | hn
    · exact hb n hn
    · rw [List.mem_singleton.1 hn]
      rfl
  | disarming e body s =>
    simp only [Fits] at h ⊢
    rw [hlast]
    exact h
  | dead => trivial

end

def Item.event? : Item σ → Option ExecutionEvent
  | .event e _ => some e
  | .stop .. => none

/-- The events that are yet to be taken up. -/
def Thread.ahead (thread : Thread σ) : List ExecutionEvent :=
  (match thread.phase with
    | .hooked e _ => [e]
    | _ => []) ++ thread.program.filterMap Item.event?

theorem System.ThreadStep.ahead_eq {sys sys' : System σ τ} (h : ThreadStep host sys sys') :
    (sys.threadNotes sys'.thread.phase).filterMap Note.taken? ++ sys'.thread.ahead =
      sys.thread.ahead := by
  cases h with
  | event hp hpr => simp [threadNotes, Thread.ahead, hp, hpr, move, withProgram, Item.event?]
  | stop hp hpr =>
    simp [threadNotes, Thread.ahead, hp, hpr, move, withProgram, List.filterMap_cons, Item.event?]
  | free hp => simp [threadNotes, Thread.ahead, hp, finish, Note.taken?]
  | look hp => simp [threadNotes, Thread.ahead, hp, move, Note.taken?]
  | hit hp | meet hp => simp [threadNotes, Thread.ahead, hp, move, Note.taken?]
  | miss hp => simp [threadNotes, Thread.ahead, hp, finish, Note.taken?]
  | announce hp => simp [threadNotes, Thread.ahead, hp, move, Note.taken?]
  | hand hp | resume hp => simp [threadNotes, Thread.ahead, hp, finish, Note.taken?]
  | matchFault hp | resumeFault hp | disarm hp | turnAway hp | install hp | reply hp | take hp
    | leave hp => simp [threadNotes, Thread.ahead, hp, move]
  | serveFault hp | depart hp => simp [threadNotes, Thread.ahead, hp, move]

namespace Chronicle

variable {c : Chronicle σ τ} {sys : System σ τ} {program : List (Item σ)}

structure Sound (host : Host σ τ) (program : List (Item σ)) (c : Chronicle σ τ) : Prop where
  events : c.notes.filterMap Note.taken? ++ c.sys.thread.ahead = program.filterMap Item.event?
  gone : c.sys.debugger.terminated = true ↔ Gone c.notes
  lawful : Lawful host.interpreter c.notes
  chain : (c.notes.filter Note.own).IsChain (Note.Follows c.sys.handle.closed)
  news : c.sys.handle.news = c.notes.filterMap Note.sent?
  quiet : c.sys.session.phase.Quiet
  fits : Fits host.interpreter c.notes c.sys.handle.closed c.sys.debugger c.sys.thread.phase

def next (c : Chronicle σ τ) (sys : System σ τ) : Chronicle σ τ where
  sys := sys
  notes := c.notes ++ c.sys.threadNotes sys.thread.phase

theorem sound_start (host : Host σ τ) (paths : PathCase) (target : τ)
    (program : List (Item σ)) :
    Sound host program { sys := .start (.fresh paths) target program } where
  events := rfl
  gone := by simp [System.start, Debugger.fresh, Gone]
  lawful := by
    intro before e between b s stop after h
    simp at h
  chain := .nil
  news := rfl
  quiet := trivial
  fits := ⟨by simp [lastOwn?], fun _ => rfl⟩

theorem Sound.session (h : c.Sound host program) (hstep : System.SessionStep host c.sys sys) :
    Sound host program { sys := sys, notes := c.notes ++ c.sys.sessionNotes } := by
  obtain ⟨hevents, hgone, hlawful, hchain, hnews, hquiet, hfits⟩ := h
  obtain ⟨hc, hnews', hquiet'⟩ := hstep.news_eq hquiet
  have hthread := hstep.thread_eq
  have hchain := hchain.imp fun _ _ h => h.mono hc
  obtain ⟨hn, hg, ht⟩ | ⟨hn, hd⟩ := hstep.debugger_cases
  · rw [hn, List.append_nil]
    refine ⟨by rw [hthread]; exact hevents, by rw [ht]; exact hgone, hlawful, hchain,
      hnews'.trans hnews, hquiet', ?_⟩
    rw [hthread]
    exact hfits.mono hc hg ht
  · rw [hn]
    refine ⟨?events, ?gone, hlawful.append (by simp), ?chain, ?news, hquiet', ?fits⟩
    case events =>
      rw [hthread, List.filterMap_append, List.append_assoc]
      exact hevents
    case gone => simp [hd, Debugger.disconnect, Gone]
    case chain => simpa [Note.own] using hchain
    case news =>
      rw [List.filterMap_append]
      exact (hnews'.trans hnews).trans (List.append_nil _).symm
    case fits =>
      rw [hthread, hd]
      exact (hfits.mono hc rfl rfl).gone

theorem goalOf_append_resumed {it : Interpreter σ} {notes : List (Note σ)} {e : ExecutionEvent}
    {decision : Decision} {goal : Option StepGoal} {s s' : σ}
    (h : Debugger.goalAfter it decision e s = (.ok goal, s')) :
    goalOf it (notes ++ [.resumed e decision s]) = goal := by
  rw [goalOf, lastResumed?_append]
  cases decision with
  | run | detach =>
    cases h
    simp only [Option.bind_some]
    split <;> rfl
  | stepOver | stepIn | stepOut =>
    obtain ⟨depth, s₁, hdepth, h⟩ := bind_eq_ok.1 h
    cases h
    simp only [Option.bind_some, hdepth]

theorem Sound.events_thread (h : c.Sound host program)
    (hstep : System.ThreadStep host c.sys sys) :
    (c.notes ++ c.sys.threadNotes sys.thread.phase).filterMap Note.taken? ++ sys.thread.ahead =
      program.filterMap Item.event? := by
  rw [List.filterMap_append, List.append_assoc, hstep.ahead_eq]
  exact h.events

theorem Sound.unnoted (h : c.Sound host program) (hstep : System.ThreadStep host c.sys sys)
    (hn : c.sys.threadNotes sys.thread.phase = [])
    (hquiet : ∀ origin body stop g s, c.sys.thread.phase ≠ .announcing origin body stop g s)
    (ht : sys.debugger.terminated = c.sys.debugger.terminated)
    (hfits : Fits host.interpreter c.notes c.sys.handle.closed sys.debugger sys.thread.phase) :
    (c.next sys).Sound host program := by
  obtain ⟨hsession, hclosed, hout⟩ := hstep.outside
  have hnews : sys.handle.news = c.sys.handle.news := by
    obtain ho | ⟨origin, body, stop, g, s, hp, -⟩ := hout
    · exact Handle.news_congr ho
    · exact absurd hp (hquiet origin body stop g s)
  have hevents := h.events_thread hstep
  rw [next]
  rw [hn, List.append_nil] at hevents ⊢
  exact ⟨hevents, by rw [ht]; exact h.gone, h.lawful, by rw [hclosed]; exact h.chain,
    hnews.trans h.news, by rw [hsession]; exact h.quiet, by rw [hclosed]; exact hfits⟩

theorem Sound.noted {n : Note σ} (h : c.Sound host program)
    (hstep : System.ThreadStep host c.sys sys)
    (hn : c.sys.threadNotes sys.thread.phase = [n])
    (hnews : sys.handle.news = c.sys.handle.news ++ n.sent?.toList)
    (hgone : sys.debugger.terminated = true ↔ Gone (c.notes ++ [n]))
    (hlawful : Lawful host.interpreter (c.notes ++ [n]))
    (hfollows : n.own = true → ∀ m ∈ lastOwn? c.notes, Note.Follows c.sys.handle.closed m n)
    (hfits : Fits host.interpreter (c.notes ++ [n]) c.sys.handle.closed sys.debugger
      sys.thread.phase) :
    (c.next sys).Sound host program := by
  obtain ⟨hsession, hclosed, -⟩ := hstep.outside
  have hevents := h.events_thread hstep
  rw [next]
  rw [hn] at hevents ⊢
  refine ⟨hevents, hgone, hlawful, ?chain, ?news, by rw [hsession]; exact h.quiet,
    by rw [hclosed]; exact hfits⟩
  case chain =>
    rw [hclosed]
    exact chain_append h.chain hfollows
  case news =>
    rw [List.filterMap_append, ← h.news]
    cases hs : n.sent? <;> simpa [hs] using hnews

theorem Sound.judge (h : c.Sound host program) {e : ExecutionEvent} {goal : Option StepGoal} {s : σ}
    (hp : c.sys.thread.phase = .matching e goal s) {b : Breakpoints} {stop : Option StoppedBody}
    (hv : ∀ before, goal = goalOf host.interpreter before →
      ∀ body, stop = some body ↔ Stops host.interpreter before e b s body) :
    Lawful host.interpreter (c.notes ++ [.verdict e b s stop]) ∧
      ∀ m ∈ lastOwn? c.notes, Note.Follows c.sys.handle.closed m (.verdict e b s stop) := by
  have hfits := h.fits
  rw [hp] at hfits
  obtain ⟨before, between, hnotes, hb, hgone, hgoal, -⟩ := hfits
  refine ⟨h.lawful.append_verdict hnotes hb fun body => ?verdict, fun m hm => ?follows⟩
  case verdict => rw [hv before hgoal body, and_iff_right hgone]
  case follows =>
    rw [hnotes, lastOwn?_split rfl hb] at hm
    cases hm
    exact .judged e b s stop

theorem Sound.gone_other (h : c.Sound host program) {n : Note σ} (hn : n ≠ .gone)
    (hr : n.resumption? = none) : c.sys.debugger.terminated = true ↔ Gone (c.notes ++ [n]) := by
  rw [gone_append_other hn hr]
  exact h.gone

section

variable {e : ExecutionEvent} {origin : Origin} {body : StoppedBody} {g : StackGraph} {s s' : σ}

/-- Once the client has gone an event comes up and is let through in one step. -/
theorem Sound.free (h : c.Sound host program) (hp : c.sys.thread.phase = .hooked e s)
    (hd : c.sys.debugger.terminated = true) : (c.next (c.sys.finish s)).Sound host program := by
  have hgone : Gone c.notes := h.gone.1 hd
  have hfits := h.fits
  rw [hp] at hfits
  have hlast : lastOwn? (c.notes ++ [.event e]) = some (.event e) := lastOwn?_append rfl
  have hchain := chain_append h.chain fun _ m hm => hfits.follows m hm e
  have hnotes : c.notes ++ c.sys.threadNotes (c.sys.finish s).thread.phase =
      c.notes ++ [.event e] ++ [.verdict e c.sys.debugger.breakpoints s none] := by
    simp [System.threadNotes, hp, System.finish]
  have hevents := h.events_thread (.free hp hd)
  rw [next]
  rw [hnotes] at hevents ⊢
  refine ⟨hevents, ?gone, (h.lawful.append (by simp)).append_verdict rfl (by simp) ?law,
    chain_append hchain fun _ m hm => ?judged, ?news, h.quiet, fun m hm e' => ?passed,
    fun hd' => ?goal⟩
  case gone =>
    rw [gone_append_other (by simp) rfl]
    exact h.gone_other (by simp) rfl
  case law => exact fun body => ⟨(fun h => by cases h), fun h => absurd hgone h.1⟩
  case judged =>
    cases hlast.symm.trans hm
    exact .judged e _ s none
  case news =>
    rw [List.filterMap_append, List.filterMap_append]
    exact (h.news.trans (List.append_nil _).symm).trans (List.append_nil _).symm
  case passed =>
    cases (lastOwn?_append rfl).symm.trans hm
    exact .passed e _ s e'
  case goal => cases hd.symm.trans hd'

theorem Sound.look (h : c.Sound host program) (hp : c.sys.thread.phase = .hooked e s)
    (hd : c.sys.debugger.terminated = false) :
    (c.next (c.sys.move (.matching e c.sys.debugger.goal s))).Sound host program := by
  have hfits := h.fits
  rw [hp] at hfits
  have hgone : ¬ Gone c.notes := by
    rw [← h.gone, hd]
    exact Bool.false_ne_true
  refine h.noted (n := .event e) (.look hp hd) (by simp [System.threadNotes, hp, System.move])
    (List.append_nil _).symm (h.gone_other (by simp) rfl) (h.lawful.append (by simp))
    (fun _ m hm => hfits.follows m hm e)
    ⟨c.notes, [], rfl, by simp, hgone, hfits.goal hd, fun hd => ?_⟩
  rw [goalOf_append_other rfl]
  exact hfits.goal hd

theorem Sound.hit {goal : Option StepGoal} (h : c.Sound host program)
    (hp : c.sys.thread.phase = .matching e goal s)
    (hbreak : c.sys.debugger.breakpointStop e = some body) :
    (c.next (c.sys.move (.disarming e body s))).Sound host program := by
  obtain ⟨hlawful, hfollows⟩ := h.judge hp fun _ _ => stops_of_hit hbreak
  exact h.noted (.hit hp hbreak) (by simp only [System.threadNotes, hp, System.move])
    (List.append_nil _).symm (h.gone_other (by simp) rfl) hlawful (fun _ => hfollows)
    ⟨_, s, lastOwn?_append rfl⟩

theorem Sound.meet {goal : Option StepGoal} (h : c.Sound host program)
    (hp : c.sys.thread.phase = .matching e goal s)
    (hbreak : c.sys.debugger.breakpointStop e = none)
    (hm : Debugger.stepStop host.interpreter goal e s = (.ok (some body), s')) :
    (c.next (c.sys.move (.disarming e body s'))).Sound host program := by
  obtain ⟨hlawful, hfollows⟩ := h.judge hp fun _ hgoal => stops_of_miss hbreak (hgoal ▸ hm)
  exact h.noted (.meet hp hbreak hm) (by simp only [System.threadNotes, hp, System.move])
    (List.append_nil _).symm (h.gone_other (by simp) rfl) hlawful (fun _ => hfollows)
    ⟨_, s, lastOwn?_append rfl⟩

theorem Sound.miss {goal : Option StepGoal} (h : c.Sound host program)
    (hp : c.sys.thread.phase = .matching e goal s)
    (hbreak : c.sys.debugger.breakpointStop e = none)
    (hm : Debugger.stepStop host.interpreter goal e s = (.ok none, s')) :
    (c.next (c.sys.finish s')).Sound host program := by
  obtain ⟨hlawful, hfollows⟩ := h.judge hp fun _ hgoal => stops_of_miss hbreak (hgoal ▸ hm)
  have hfits := h.fits
  rw [hp] at hfits
  obtain ⟨-, -, -, -, -, -, hgoal⟩ := hfits
  refine h.noted (.miss hp hbreak hm) (by simp only [System.threadNotes, hp, System.finish])
    (List.append_nil _).symm (h.gone_other (by simp) rfl) hlawful (fun _ => hfollows)
    ⟨fun m hm e' => ?follows, fun hd => ?goal⟩
  case follows =>
    cases (lastOwn?_append rfl).symm.trans hm
    exact .passed e _ s e'
  case goal =>
    rw [goalOf_append_other rfl]
    exact hgoal hd

theorem Sound.announce {stop : Nat} (h : c.Sound host program)
    (hp : c.sys.thread.phase = .announcing origin body stop g s) :
    (c.next ({ c.sys with handle := c.sys.handle.post (.event (System.stoppedEvent body)) }.move
      (.serving origin stop [] g s))).Sound host program := by
  have hfits := h.fits
  rw [hp] at hfits
  refine h.noted (n := .stopped origin body) (.announce hp)
    (by simp [System.threadNotes, hp, System.move]) (Handle.news_post _ rfl)
    (h.gone_other (by simp) rfl) (h.lawful.append (by simp)) (fun hown m hm => ?told) ?fits
  case told =>
    cases origin with
    | direct => cases hown
    | debugger e =>
      obtain ⟨b, s', hlast⟩ := hfits
      cases hlast.symm.trans hm
      exact .told e b s' body
  case fits =>
    cases origin with
    | direct =>
      refine ⟨?_, fun hd => ?_⟩
      · rw [lastOwn?_append_other rfl]
        exact hfits.follows
      · rw [goalOf_append_other rfl]
        exact hfits.goal hd
    | debugger e => exact ⟨body, lastOwn?_append rfl⟩

theorem Sound.resume {decision : Decision} {goal : Option StepGoal} (h : c.Sound host program)
    (hp : c.sys.thread.phase = .resumed (.debugger e) decision s)
    (hg : Debugger.goalAfter host.interpreter decision e s = (.ok goal, s')) :
    (c.next ({ c.sys with debugger := c.sys.debugger.resume decision goal }.finish s')).Sound
      host program := by
  have hfits := h.fits
  rw [hp] at hfits
  refine h.noted (n := .resumed e decision s) (.resume hp hg)
    (by simp [System.threadNotes, hp, System.finish]) (List.append_nil _).symm ?gone
    (h.lawful.append (by simp)) (fun _ m hm => hfits m hm s)
    ⟨fun m hm e' => ?follows, fun _ => (goalOf_append_resumed hg).symm⟩
  case gone =>
    rw [gone_append_resumed, ← h.gone]
    simp [System.finish, Debugger.resume]
  case follows =>
    cases (lastOwn?_append rfl).symm.trans hm
    exact .wentOn e decision s e'

end

theorem Sound.thread (h : c.Sound host program) (hstep : System.ThreadStep host c.sys sys) :
    (c.next sys).Sound host program := by
  have hfits := h.fits
  have hstep' := hstep
  cases hstep with
  | event hp | stop hp | disarm hp =>
    rw [hp] at hfits
    exact h.unnoted hstep' (by simp only [System.threadNotes, hp]) (by simp [hp]) rfl hfits
  | matchFault hp | serveFault hp | resumeFault hp =>
    exact h.unnoted hstep' (by simp [System.threadNotes, hp, System.move]) (by simp [hp])
      (by simp [System.move]) trivial
  | turnAway hp hi =>
    rw [hp] at hfits
    exact h.unnoted hstep' (by simp [System.threadNotes, hp]) (by simp [hp]) rfl
      (hfits.turnAway (Handle.closed_of_install hi))
  | @install origin _ _ _ _ _ hp | @reply origin _ _ _ _ _ _ _ _ hp
    | @take origin _ _ _ _ _ hp =>
    rw [hp] at hfits
    refine h.unnoted hstep' (by simp [System.threadNotes, hp]) (by simp [hp]) rfl ?_
    cases origin with
    | direct | debugger => exact hfits
  | @depart origin _ _ _ _ hp =>
    rw [hp] at hfits
    refine h.unnoted hstep' (by simp [System.threadNotes, hp]) (by simp [hp])
      (by simp [System.move]) ?_
    cases origin with
    | direct | debugger => exact hfits
  | leave hp =>
    rw [hp] at hfits
    exact h.unnoted hstep' (by simp [System.threadNotes, hp]) (by simp [hp]) rfl
      (hfits.decided _)
  | hand hp =>
    rw [hp] at hfits
    exact h.unnoted hstep' (by simp [System.threadNotes, hp]) (by simp [hp]) rfl hfits
  | announce hp => exact h.announce hp
  | free hp hd => exact h.free hp hd
  | look hp hd => exact h.look hp hd
  | hit hp hbreak => exact h.hit hp hbreak
  | meet hp hbreak hm => exact h.meet hp hbreak hm
  | miss hp hbreak hm => exact h.miss hp hbreak hm
  | resume hp hg => exact h.resume hp hg

-- ---------------------------------------------------------------------------
-- Every run
-- ---------------------------------------------------------------------------

theorem Sound.run (h : c.Sound host program) (moves : List Move) :
    (c.run host moves).Sound host program := by
  refine (recorder host).run_keeps (P := Sound host program) (fun {c} arrivals h => ?arrive)
    (fun {c} h => ?hangUp) (fun h hstep => h.session hstep) (fun h hstep => h.thread hstep) h moves
  case arrive =>
    show Sound host program ⟨c.sys.play host (.arrive arrivals), c.notes ++ []⟩
    rw [System.play_arrive, List.append_nil]
    exact ⟨h.events, h.gone, h.lawful, h.chain, h.news, h.quiet, h.fits⟩
  case hangUp =>
    show Sound host program ⟨c.sys.play host .hangUp, c.notes ++ []⟩
    rw [System.play_hangUp, List.append_nil]
    exact ⟨h.events, h.gone, h.lawful, h.chain, h.news, h.quiet, h.fits⟩

theorem Sound.settled (h : c.Sound host program) (hrest : c.sys.Resting host)
    (halive : ∀ s, c.sys.thread.phase ≠ .dead s) :
    ∀ m ∈ lastOwn? c.notes, (∀ e, m ≠ .event e) ∧ ∀ e b s body, m ≠ .verdict e b s (some body) := by
  have hcalm (hc : Calm host.interpreter c.notes c.sys.handle.closed c.sys.debugger) :
      ∀ m ∈ lastOwn? c.notes, (∀ e, m ≠ .event e) ∧
        ∀ e b s body, m ≠ .verdict e b s (some body) := by
    intro m hm
    cases hc.follows m hm ⟨.line, none, none, none⟩ with
    | passed | wentOn => exact ⟨by simp, by simp⟩
  have hfits := h.fits
  obtain hp | ⟨origin, stop, g, s, hp⟩ | ⟨s, hp⟩ := System.waiting_of_stepThread (hrest .thread)
  · rw [hp] at hfits
    exact hcalm hfits
  · rw [hp] at hfits
    cases origin with
    | direct => exact hcalm hfits
    | debugger e =>
      obtain ⟨body, hlast⟩ := hfits
      intro m hm
      cases hlast.symm.trans hm
      exact ⟨by simp, by simp⟩
  · exact absurd hp (halive s)

end Chronicle

/-- A stop that no breakpoint has caused follows a decision to step. -/
theorem Stops.resumed_to_step {it : Interpreter σ} {before : List (Note σ)} {e : ExecutionEvent}
    {b : Breakpoints} {s : σ} (h : Stops it before e b s (Debugger.stoppedBy "step" none)) :
    ∃ e₀ decision s₀, lastResumed? before = some (e₀, decision, s₀) ∧
      (decision = .stepOver ∨ decision = .stepIn ∨ decision = .stepOut) := by
  generalize hbody : Debugger.stoppedBy "step" none = body at h
  cases h with
  | line => simp [Debugger.stoppedBy] at hbody
  | call => simp [Debugger.stoppedBy] at hbody
  | @step _ _ _ e₀ decision s₀ _ _ _ _ hlast _ hof =>
    refine ⟨e₀, decision, s₀, hlast, ?_⟩
    cases decision with
    | run | detach => cases hof
    | stepOver | stepIn | stepOut => simp

/-- Over every run of a new debugger in a session, the events of the program come up in order and
stop the target by the law; a stop is made known while the session is open and resumed before the
next event comes up; the client is sent nothing else about stops; and at rest no event and no stop
is left over. In particular only the decision that ended the last stop can cause a stop that is no
breakpoint's. -/
theorem stops_by_law (host : Host σ τ) (paths : PathCase) (target : τ) (program : List (Item σ))
    (moves : List Move) :
    let c : Chronicle σ τ := .run host moves { sys := .start (.fresh paths) target program }
    c.notes.filterMap Note.taken? ++ c.sys.thread.ahead = program.filterMap Item.event? ∧
      Lawful host.interpreter c.notes ∧
      (c.notes.filter Note.own).IsChain (Note.Follows c.sys.handle.closed) ∧
      c.sys.handle.news = c.notes.filterMap Note.sent? ∧
      c.sys.Settles host ∧
      (c.sys.Resting host → (∀ s, c.sys.thread.phase ≠ .dead s) →
        ∀ m ∈ lastOwn? c.notes,
          (∀ e, m ≠ .event e) ∧ ∀ e b s body, m ≠ .verdict e b s (some body)) ∧
      ∀ before e between b s after,
        c.notes = before ++ .event e :: between ++
          .verdict e b s (some (Debugger.stoppedBy "step" none)) :: after →
        (∀ n ∈ between, n.own = false) →
        ∃ e₀ decision s₀, lastResumed? before = some (e₀, decision, s₀) ∧
          (decision = .stepOver ∨ decision = .stepIn ∨ decision = .stepOut) := by
  intro c
  have hsound : c.Sound host program := (Chronicle.sound_start host paths target program).run moves
  refine ⟨hsound.events, hsound.lawful, hsound.chain, hsound.news, c.sys.settles host,
    fun hrest halive => hsound.settled hrest halive, ?_⟩
  intro before e between b s after hnotes hb
  exact ((hsound.lawful before e between b s _ after hnotes hb _).1 rfl).2.resumed_to_step

end DebugAdapter
