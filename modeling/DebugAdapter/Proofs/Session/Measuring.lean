import DebugAdapter.Proofs.Inspection.Askers
import DebugAdapter.Proofs.Session.Deeds
import DebugAdapter.Proofs.Session.Recording
import DebugAdapter.Proofs.Session.Stops

/-!
# When the interpreter is measured

Every line of the target comes by the debugger, which must not touch the interpreter without need.
All that it asks on its own, and not for the client, are the depths of the stack: one before it
decides on a stop, if there is a goal to weigh, and one after a stop that ended in a step decision.
`calls_of_events` says so of every event of every run. What a step of the thread asks is read off
the same step with an interpreter that records its calls.
-/

namespace DebugAdapter

open Protocol

variable {σ τ : Type}

-- ---------------------------------------------------------------------------
-- Walks
-- ---------------------------------------------------------------------------

theorem bind_pure_snd {S α β : Type} (m : ExceptT Fault (StateM S) α) (f : α → β) (s : S) :
    ((m >>= fun a => pure (f a)) s).2 = (m s).2 := by
  rw [bind_run]
  obtain ⟨r, s'⟩ := m s
  cases r <;> rfl

/-- The calls that it takes to measure the depth of the stack. -/
def Interpreter.walk (it : Interpreter σ) (s : σ) : List Call := (it.recording.depth (s, [])).2.2

theorem adds_framesFrom_ne_nil (it : Interpreter σ) (asker : Asker) (steps : Nat)
    (level : UInt32) :
    Adds asker ((it.noting asker).framesFrom (steps + 1) level) fun _ added => added ≠ [] := by
  refine Adds.bind (P := fun _ added => added ≠ []) (.ask fun _ => List.cons_ne_nil _ _)
    (fun _ _ h => h) fun info added h => ?_
  cases info with
  | none => exact .pure (by simpa using h)
  | some info =>
    exact (adds_framesFrom it steps (level + 1)).bind (fun _ more _ => by simp [h])
      fun outer more _ => .pure (by simp [h])

theorem Interpreter.walk_eq (it : Interpreter σ) (s : σ) :
    ∃ n, 0 < n ∧ n ≤ UInt32.size ∧ it.walk s = (List.range n).map fun i => .frame (.ofNat i) := by
  have hadds : Adds .stack (it.noting .stack).frames _ := adds_frames it
  obtain ⟨added, hlog, -, n, hn, hcalls⟩ := hadds s []
  obtain ⟨added', hlog', -, hne⟩ := adds_framesFrom_ne_nil it .stack (maxLevels - 1) 0 s []
  cases hlog'.symm.trans hlog
  have hwalk : it.walk s = added.map Lookup.call := by
    have hframes : it.recording.frames (s, []) = _ :=
      (it.covers_noting_recording .stack).frames (s, [])
    rw [walk, depth, bind_pure_snd, hframes]
    exact congrArg (List.map Lookup.call) hlog
  refine ⟨n, Nat.pos_of_ne_zero ?_, hn, hwalk.trans hcalls⟩
  rintro rfl
  exact hne (List.map_eq_nil_iff.1 hcalls)

theorem Debugger.stepStop_calls (it : Interpreter σ) (goal : Option StepGoal) (e : ExecutionEvent)
    (s : σ) :
    (stepStop it.recording goal e (s, [])).2.2 =
      if goal.isSome && e.kind == .line && e.line.isSome then it.walk s else [] := by
  obtain ⟨kind, source, line, function⟩ := e
  cases goal with
  | none => rfl
  | some goal =>
    cases kind with
    | call | ret => rfl
    | line =>
      cases line with
      | none => rfl
      | some line => exact congrArg Prod.snd (bind_pure_snd it.recording.depth _ (s, []))

/-- Whether a stop that ends so may leave a goal. -/
def Decision.steps : Decision → Bool
  | .stepOver | .stepIn | .stepOut => true
  | .run | .detach => false

theorem Debugger.goalAfter_calls (it : Interpreter σ) (decision : Decision) (e : ExecutionEvent)
    (s : σ) :
    (goalAfter it.recording decision e (s, [])).2.2 =
      if decision.steps then it.walk s else [] := by
  cases decision with
  | run | detach => rfl
  | stepOver | stepIn | stepOut =>
    exact congrArg Prod.snd (bind_pure_snd it.recording.depth _ (s, []))

-- ---------------------------------------------------------------------------
-- What a step asks
-- ---------------------------------------------------------------------------

/-- The calls that were recorded for the item in hand, or for the last one that is done. -/
def Thread.recorded (t : Thread (σ × List Call)) : List Call :=
  match t.phase with
  | .idle => (t.past.getLast?.map Prod.snd).getD []
  | .hooked _ st | .matching _ _ st | .disarming _ _ st | .installing _ _ _ st
  | .announcing _ _ _ _ st | .serving _ _ _ _ st | .leaving _ _ st | .resumed _ _ st
  | .dead st => st.2

namespace System

variable (host : Host σ τ) (sys : System σ τ)

def asked : List Call :=
  (((sys.map (·, [])).stepThread host.recording).map (·.thread.recorded)).getD []

variable {host sys}

theorem interpreter_recording :
    host.recording.interpreter = host.interpreter.recording := rfl

theorem recorded_finish (sys : System (σ × List Call) τ) (st : σ × List Call) :
    (sys.finish st).thread.recorded = st.2 := by
  simp [Thread.recorded, finish]

theorem asked_matching {e : ExecutionEvent} {goal : Option StepGoal} {s : σ}
    (hp : sys.thread.phase = .matching e goal s) :
    sys.asked host =
      if (sys.debugger.breakpointStop e).isNone && goal.isSome && e.kind == .line && e.line.isSome
        then host.interpreter.walk s else [] := by
  have hphase : (sys.map (·, ([] : List Call))).thread.phase = .matching e goal (s, []) := by
    show sys.thread.phase.map _ = _
    rw [hp]
    rfl
  have hcalls := Debugger.stepStop_calls host.interpreter goal e s
  simp only [asked, stepThread, hphase, debugger_map, interpreter_recording]
  cases sys.debugger.breakpointStop e with
  | some body => rfl
  | none =>
    simp only [Option.isNone_none, Bool.true_and, ← hcalls]
    obtain ⟨r, st⟩ := Debugger.stepStop host.interpreter.recording goal e (s, [])
    cases r with
    | error fault => rfl
    | ok stop =>
      cases stop with
      | some body => rfl
      | none => exact recorded_finish _ st

theorem asked_resumed {e : ExecutionEvent} {decision : Decision} {s : σ}
    (hp : sys.thread.phase = .resumed (.debugger e) decision s) :
    sys.asked host = if decision.steps then host.interpreter.walk s else [] := by
  have hphase : (sys.map (·, ([] : List Call))).thread.phase =
      .resumed (.debugger e) decision (s, []) := by
    show sys.thread.phase.map _ = _
    rw [hp]
    rfl
  rw [← Debugger.goalAfter_calls host.interpreter decision e s]
  simp only [asked, stepThread, hphase, interpreter_recording]
  obtain ⟨r, st⟩ := Debugger.goalAfter host.interpreter.recording decision e (s, [])
  cases r with
  | error fault => rfl
  | ok goal => exact recorded_finish _ st

/-- The calls of the thread's next step, unless they are made for the client or for an event. -/
def aside (host : Host σ τ) (sys : System σ τ) : List Call :=
  match sys.thread.phase with
  | .matching .. | .resumed (.debugger _) .. | .serving _ _ (_ :: _) .. => []
  | _ => sys.asked host

theorem aside_eq_nil (host : Host σ τ) (sys : System σ τ) : sys.aside host = [] := by
  have hphase : (sys.map (·, ([] : List Call))).thread.phase = sys.thread.phase.map (·, []) := rfl
  cases hp : sys.thread.phase with
  | idle =>
    simp only [aside, asked, hp, stepThread, hphase, Thread.Phase.map]
    have hprogram : (sys.map (·, ([] : List Call))).thread.program =
        sys.thread.program.map (Item.map (·, [])) := rfl
    cases hpr : sys.thread.program with
    | nil => simp only [hprogram, hpr, List.map_nil]; rfl
    | cons item program =>
      simp only [hprogram, hpr, List.map_cons]
      cases item <;> rfl
  | hooked e s =>
    simp only [aside, asked, hp, stepThread, hphase, Thread.Phase.map]
    split
    · exact recorded_finish _ _
    · rfl
  | matching => simp only [aside, hp]
  | disarming e body s =>
    simp only [aside, asked, hp, stepThread, hphase, Thread.Phase.map]
    rfl
  | installing origin body g s =>
    simp only [aside, asked, hp, stepThread, hphase, Thread.Phase.map]
    split <;> rfl
  | announcing | leaving | dead =>
    simp only [aside, asked, hp, stepThread, hphase, Thread.Phase.map]
    rfl
  | serving origin stop batch g s =>
    cases batch with
    | cons => simp only [aside, hp]
    | nil =>
      simp only [aside, asked, hp, stepThread, hphase, Thread.Phase.map]
      split
      · rfl
      · rfl
      · cases origin <;> rfl
  | resumed origin decision s =>
    cases origin with
    | debugger => simp only [aside, hp]
    | direct =>
      simp only [aside, asked, hp, stepThread, hphase, Thread.Phase.map]
      exact recorded_finish _ _

end System

-- ---------------------------------------------------------------------------
-- Events
-- ---------------------------------------------------------------------------

/-- How an event passes the debugger, and what the debugger asks for it on its own. -/
structure Passage (σ : Type) where
  event : ExecutionEvent
  /-- The debugger as the event comes up. -/
  found : Debugger
  /-- The breakpoints and the interpreter when it is decided whether there is a stop. -/
  judged : Option (Breakpoints × σ) := none
  before : List Call := []
  /-- How the stop ended, and the interpreter then. -/
  resumed : Option (Decision × σ) := none
  after : List Call := []

/-- A line event with a goal to weigh: the client is there, and no breakpoint is hit. -/
def Passage.weighs (p : Passage σ) (b : Breakpoints) : Bool :=
  !p.found.terminated && p.found.goal.isSome && p.event.kind == .line &&
    p.event.line.any fun line => (b.matchLine p.event.source line).isNone

/-- The debugger asks no more than it must. -/
structure Passage.Frugal (it : Interpreter σ) (p : Passage σ) : Prop where
  before : p.before = p.judged.elim [] fun (b, s) => if p.weighs b then it.walk s else []
  after : p.after = p.resumed.elim [] fun (decision, s) => if decision.steps then it.walk s else []
  ignored : p.found.terminated = true → p.judged = none ∧ p.resumed = none

/-- Unless the client had gone, it was decided whether there is a stop. -/
def Passage.Settled (p : Passage σ) : Prop := p.found.terminated = false → p.judged ≠ none

/-- The goal that the last resumed stop has left, the latest event being the first. -/
def goalLeft (it : Interpreter σ) : List (Passage σ) → Option StepGoal
  | [] => none
  | p :: earlier =>
    match p.resumed with
    | none => goalLeft it earlier
    | some (decision, s) => (Debugger.goalAfter it decision p.event s).1.toOption.join

def Detached (passages : List (Passage σ)) : Prop :=
  ∃ p ∈ passages, ∃ s, p.resumed = some (.detach, s)

inductive Orderly (it : Interpreter σ) : List (Passage σ) → Prop
  | nil : Orderly it []
  | cons {p : Passage σ} {earlier : List (Passage σ)} : p.Frugal it →
      (p.found.terminated = false → p.found.goal = goalLeft it earlier) →
      (Detached earlier → p.found.terminated = true) → (∀ p' ∈ earlier, p'.Settled) →
      Orderly it earlier → Orderly it (p :: earlier)

structure Watch (σ τ : Type) where
  sys : System σ τ
  /-- The latest first. -/
  passages : List (Passage σ) := []
  /-- What else the thread asked, though not for the client. -/
  aside : List Call := []

/-- What the thread's next step does to the events that came up. -/
def System.passages (host : Host σ τ) (sys : System σ τ) (passages : List (Passage σ)) :
    List (Passage σ) :=
  match sys.thread.phase, passages with
  | .hooked e _, _ => { event := e, found := sys.debugger } :: passages
  | .matching _ _ s, p :: earlier =>
    { p with judged := some (sys.debugger.breakpoints, s), before := sys.asked host } :: earlier
  | .resumed (.debugger _) decision s, p :: earlier =>
    { p with resumed := some (decision, s), after := sys.asked host } :: earlier
  | _, _ => passages

theorem System.passages_waiting {host : Host σ τ} {sys : System σ τ}
    (h : sys.stepThread host = none) (passages : List (Passage σ)) :
    sys.passages host passages = passages := by
  obtain hp | ⟨origin, stop, g, s, hp⟩ | ⟨s, hp⟩ := waiting_of_stepThread h
  all_goals simp only [System.passages, hp]

theorem System.passages_cases (host : Host σ τ) (sys : System σ τ) (passages : List (Passage σ)) :
    sys.passages host passages = passages ∨
      (∃ e, sys.passages host passages = { event := e, found := sys.debugger } :: passages) ∨
      ∃ p p' earlier, passages = p :: earlier ∧ sys.passages host passages = p' :: earlier ∧
        p'.found = p.found := by
  unfold System.passages
  split
  · exact .inr (.inl ⟨_, rfl⟩)
  · exact .inr (.inr ⟨_, _, _, rfl, rfl, rfl⟩)
  · exact .inr (.inr ⟨_, _, _, rfl, rfl, rfl⟩)
  · exact .inl rfl

theorem System.terminated_play {host : Host σ τ} {sys : System σ τ}
    (ht : sys.debugger.terminated = true) (move : Move) :
    (sys.play host move).debugger.terminated = true := by
  refine (recorder host).play_keeps (P := fun sys => sys.debugger.terminated = true)
    (fun {sys} arrivals ht => ?arrive) id ?session (fun ht hstep => hstep.terminated ht) ht move
  case arrive =>
    show (sys.play host (.arrive arrivals)).debugger.terminated = true
    rw [play_arrive]
    exact ht
  case session =>
    intro sys ht hstep
    obtain ⟨-, -, hsame⟩ | ⟨-, hd⟩ := hstep.debugger_cases
    · exact hsame.trans ht
    · exact congrArg Debugger.terminated hd

namespace Watch

def play (host : Host σ τ) (w : Watch σ τ) (move : Move) : Watch σ τ :=
  match move with
  | .step .thread =>
    { sys := w.sys.play host move
      passages := w.sys.passages host w.passages
      aside := w.aside ++ w.sys.aside host }
  | _ => { w with sys := w.sys.play host move }

def next (host : Host σ τ) (w : Watch σ τ) (sys : System σ τ) : Watch σ τ where
  sys := sys
  passages := w.sys.passages host w.passages
  aside := w.aside ++ w.sys.aside host

theorem sys_play (host : Host σ τ) (w : Watch σ τ) (move : Move) :
    (w.play host move).sys = w.sys.play host move := by
  unfold play
  split <;> rfl

def recorder (host : Host σ τ) : Recorder host (Watch σ τ) where
  sys := Watch.sys
  play := play host
  sys_play := sys_play host
  play_waiting {w side} h := by
    cases side with
    | session => simp only [play, System.play_waiting h]
    | thread =>
      simp only [play, System.play_waiting h, System.passages_waiting h, System.aside_eq_nil,
        List.append_nil]

def run (host : Host σ τ) (moves : List Move) (w : Watch σ τ) : Watch σ τ :=
  (recorder host).run moves w

theorem sys_run (host : Host σ τ) (moves : List Move) (w : Watch σ τ) :
    (w.run host moves).sys = w.sys.run host moves :=
  (recorder host).sys_run moves w

end Watch

-- ---------------------------------------------------------------------------
-- What the latest event tells of the thread
-- ---------------------------------------------------------------------------

/-- How the latest event stands in each phase. -/
def Stands (it : Interpreter σ) (passages : List (Passage σ)) (d : Debugger) :
    Thread.Phase σ → Prop
  | .idle | .hooked .. | .installing .direct .. | .announcing .direct .. | .serving .direct ..
  | .leaving .direct .. | .resumed .direct .. =>
    d.terminated = false → d.goal = goalLeft it passages
  | .matching e goal _ => ∃ found earlier,
      passages = { event := e, found := found } :: earlier ∧ found.terminated = false ∧
      found.goal = goal ∧ (d.terminated = false → d.goal = goalLeft it passages)
  | .disarming e .. | .installing (.debugger e) .. | .announcing (.debugger e) ..
  | .serving (.debugger e) .. | .leaving (.debugger e) .. | .resumed (.debugger e) .. =>
    ∃ found judged before earlier, found.terminated = false ∧
      passages = { event := e, found := found, judged := judged, before := before } :: earlier
  | .dead _ => True

/-- As long as the client is there, the session keeps the goal. -/
theorem Stands.mono {it : Interpreter σ} {passages : List (Passage σ)} {d d' : Debugger}
    {phase : Thread.Phase σ} (h : Stands it passages d phase)
    (hd : d'.terminated = false → d.terminated = false ∧ d'.goal = d.goal) :
    Stands it passages d' phase := by
  have hgoal (h : d.terminated = false → d.goal = goalLeft it passages)
      (ht : d'.terminated = false) : d'.goal = goalLeft it passages :=
    (hd ht).2.trans (h (hd ht).1)
  cases phase with
  | idle | hooked => exact hgoal h
  | matching e goal s =>
    obtain ⟨found, earlier, hp, ht, hfound, h⟩ := h
    exact ⟨found, earlier, hp, ht, hfound, hgoal h⟩
  | installing origin | announcing origin | serving origin | leaving origin | resumed origin =>
    cases origin with
    | direct => exact hgoal h
    | debugger e => exact h
  | disarming => exact h
  | dead => trivial

theorem Orderly.amend {it : Interpreter σ} {p p' : Passage σ} {earlier : List (Passage σ)}
    (h : Orderly it (p :: earlier)) (hfound : p'.found = p.found) (hfrugal : p'.Frugal it) :
    Orderly it (p' :: earlier) := by
  cases h with
  | cons _ hgoal hdetached hsettled hrest =>
    rw [← hfound] at hgoal hdetached
    exact .cons hfrugal hgoal hdetached hsettled hrest

theorem Orderly.of_append {it : Interpreter σ} {newer earlier : List (Passage σ)}
    (h : Orderly it (newer ++ earlier)) : Orderly it earlier := by
  induction newer with
  | nil => exact h
  | cons p newer ih =>
    cases h with
    | cons _ _ _ _ hrest => exact ih hrest

theorem Orderly.frugal {it : Interpreter σ} {passages : List (Passage σ)} (h : Orderly it passages)
    {p : Passage σ} (hp : p ∈ passages) : p.Frugal it := by
  obtain ⟨newer, earlier, rfl⟩ := List.append_of_mem hp
  cases h.of_append
  assumption

theorem Passage.Frugal.silent {it : Interpreter σ} {p : Passage σ} (h : p.Frugal it)
    (ht : p.found.terminated = true) : p.before = [] ∧ p.after = [] := by
  obtain ⟨hjudged, hresumed⟩ := h.ignored ht
  rw [h.before, h.after, hjudged, hresumed]
  exact ⟨rfl, rfl⟩

theorem Passage.Frugal.frames {it : Interpreter σ} {p : Passage σ} (h : p.Frugal it) {call : Call}
    (hcall : call ∈ p.before ++ p.after) : ∃ level, call = .frame level := by
  have hwalk (due : Bool) (s : σ) (hmem : call ∈ if due then it.walk s else []) :
      ∃ level, call = .frame level := by
    obtain ⟨n, -, -, hwalk⟩ := it.walk_eq s
    cases due with
    | false => cases hmem
    | true =>
      rw [if_pos rfl, hwalk] at hmem
      obtain ⟨i, -, rfl⟩ := List.mem_map.1 hmem
      exact ⟨_, rfl⟩
  rw [h.before, h.after, List.mem_append] at hcall
  obtain hcall | hcall := hcall
  · cases hj : p.judged with
    | none =>
      rw [hj] at hcall
      cases hcall
    | some found =>
      rw [hj] at hcall
      exact hwalk _ _ hcall
  · cases hr : p.resumed with
    | none =>
      rw [hr] at hcall
      cases hcall
    | some found =>
      rw [hr] at hcall
      exact hwalk _ _ hcall

theorem detached_cons {p : Passage σ} {earlier : List (Passage σ)} :
    Detached (p :: earlier) ↔ (∃ s, p.resumed = some (.detach, s)) ∨ Detached earlier := by
  simp [Detached]

theorem weighs_eq {p : Passage σ} {d : Debugger} (ht : p.found.terminated = false) :
    p.weighs d.breakpoints =
      ((d.breakpointStop p.event).isNone && p.found.goal.isSome && p.event.kind == .line &&
        p.event.line.isSome) := by
  obtain ⟨⟨kind, source, line, function⟩, found, judged, before, resumed, after⟩ := p
  dsimp only at ht
  simp only [Passage.weighs, ht, Bool.not_false, Bool.true_and]
  cases kind with
  | call | ret =>
    have hcall : (EventKind.call == .line) = false := rfl
    have hret : (EventKind.ret == .line) = false := rfl
    simp only [hcall, hret, Bool.and_false, Bool.false_and]
  | line =>
    cases line with
    | none => simp only [Option.any_none, Option.isSome_none, Bool.and_false]
    | some line =>
      cases hm : d.breakpoints.matchLine source line <;> simp [Debugger.breakpointStop, hm]

theorem System.ThreadStep.events_passages {host : Host σ τ} {sys sys' : System σ τ}
    (h : System.ThreadStep host sys sys') (passages : List (Passage σ)) :
    (sys.passages host passages).reverse.map (·.event) ++ sys'.thread.ahead =
      passages.reverse.map (·.event) ++ sys.thread.ahead := by
  cases h with
  | free hp | look hp =>
    simp [System.passages, Thread.ahead, hp, finish, move]
  | hit hp | meet hp | miss hp | matchFault hp | resume hp | resumeFault hp =>
    cases passages <;> simp [System.passages, Thread.ahead, hp, finish, move]
  | @turnAway origin _ _ _ hp | @install origin _ _ _ _ _ hp | @announce origin _ _ _ _ hp
    | @reply origin _ _ _ _ _ _ _ _ hp | @serveFault origin _ _ _ _ _ _ _ _ hp
    | @take origin _ _ _ _ _ hp | @depart origin _ _ _ _ hp | @leave origin _ _ _ _ hp =>
    simp [System.passages, Thread.ahead, hp, move]
  | event hp hpr | stop hp hpr =>
    simp [System.passages, Thread.ahead, hp, hpr, move, withProgram, Item.event?,
      List.filterMap_cons]
  | disarm hp | hand hp => simp [System.passages, Thread.ahead, hp, move, finish]

namespace Watch

variable {host : Host σ τ} {w : Watch σ τ} {program : List (Item σ)}

structure Sound (host : Host σ τ) (program : List (Item σ)) (w : Watch σ τ) : Prop where
  events : w.passages.reverse.map (·.event) ++ w.sys.thread.ahead = program.filterMap Item.event?
  aside : w.aside = []
  orderly : Orderly host.interpreter w.passages
  detached : Detached w.passages → w.sys.debugger.terminated = true
  settled : (∀ e goal s, w.sys.thread.phase ≠ .matching e goal s) → ∀ p ∈ w.passages, p.Settled
  stands : Stands host.interpreter w.passages w.sys.debugger w.sys.thread.phase

theorem sound_start (host : Host σ τ) (paths : PathCase) (target : τ) (program : List (Item σ)) :
    Sound host program { sys := .start (.fresh paths) target program } where
  events := rfl
  aside := rfl
  orderly := .nil
  detached := fun ⟨_, hp, _⟩ => absurd hp List.not_mem_nil
  settled := fun _ _ hp => absurd hp List.not_mem_nil
  stands := fun _ => rfl

theorem Sound.session (h : w.Sound host program) {sys : System σ τ}
    (hstep : System.SessionStep host w.sys sys) : Sound host program { w with sys := sys } := by
  have hthread := hstep.thread_eq
  have hdebugger : (w.sys.debugger.terminated = true → sys.debugger.terminated = true) ∧
      (sys.debugger.terminated = false →
        w.sys.debugger.terminated = false ∧ sys.debugger.goal = w.sys.debugger.goal) := by
    obtain ⟨-, hg, ht⟩ | ⟨-, hd⟩ := hstep.debugger_cases
    · exact ⟨ht.trans, fun h => ⟨ht.symm.trans h, hg⟩⟩
    · rw [hd]
      exact ⟨fun _ => rfl, nofun⟩
  refine ⟨?events, h.aside, h.orderly, fun hd => hdebugger.1 (h.detached hd), ?settled, ?stands⟩
  case events =>
    rw [hthread]
    exact h.events
  case settled =>
    rw [hthread]
    exact h.settled
  case stands =>
    rw [hthread]
    exact h.stands.mono hdebugger.2

theorem Sound.aside_next (h : w.Sound host program) (sys : System σ τ) :
    (w.next host sys).aside = [] := by
  show w.aside ++ w.sys.aside host = []
  rw [h.aside, System.aside_eq_nil]
  rfl

theorem Sound.pass (h : w.Sound host program) {sys : System σ τ}
    (hstep : System.ThreadStep host w.sys sys) (hkeep : (w.next host sys).passages = w.passages)
    (hbefore : ∀ e goal s, w.sys.thread.phase ≠ .matching e goal s)
    (hstands : Stands host.interpreter w.passages sys.debugger sys.thread.phase) :
    (w.next host sys).Sound host program where
  events := (hstep.events_passages w.passages).trans h.events
  aside := h.aside_next sys
  orderly := hkeep.symm ▸ h.orderly
  detached hd := hstep.terminated (h.detached (hkeep ▸ hd))
  settled _ := hkeep.symm ▸ h.settled hbefore
  stands := hkeep.symm ▸ hstands

theorem Sound.comeUp (h : w.Sound host program) {sys : System σ τ}
    (hstep : System.ThreadStep host w.sys sys) {e : ExecutionEvent} {s : σ}
    (hp : w.sys.thread.phase = .hooked e s)
    (hsettled : (∀ e goal s, sys.thread.phase ≠ .matching e goal s) →
      w.sys.debugger.terminated = true)
    (hstands : Stands host.interpreter ({ event := e, found := w.sys.debugger } :: w.passages)
      sys.debugger sys.thread.phase) :
    (w.next host sys).Sound host program := by
  have hpassages : (w.next host sys).passages =
      { event := e, found := w.sys.debugger } :: w.passages := by
    simp only [next, System.passages, hp]
  have hbefore : ∀ p ∈ w.passages, p.Settled := h.settled (by simp [hp])
  have hgoal := h.stands
  rw [hp] at hgoal
  refine ⟨(hstep.events_passages w.passages).trans h.events, h.aside_next sys, ?orderly, ?detached,
    ?settled, hpassages ▸ hstands⟩
  case orderly =>
    rw [hpassages]
    exact .cons ⟨rfl, rfl, fun _ => ⟨rfl, rfl⟩⟩ hgoal h.detached hbefore h.orderly
  case detached =>
    intro hd
    rw [hpassages, detached_cons] at hd
    obtain ⟨_, hd⟩ | hd := hd
    · cases hd
    · exact hstep.terminated (h.detached hd)
  case settled =>
    intro hmatching p hmem hfound
    rw [hpassages] at hmem
    obtain rfl | hmem := List.mem_cons.1 hmem
    · cases hfound.symm.trans (hsettled hmatching)
    · exact hbefore p hmem hfound

theorem Sound.goOn (h : w.Sound host program) {sys : System σ τ}
    (hstep : System.ThreadStep host w.sys sys) {p p' : Passage σ} {earlier : List (Passage σ)}
    (hp : w.passages = p :: earlier) (hp' : (w.next host sys).passages = p' :: earlier)
    (hfound : p'.found = p.found) (hfrugal : p.Frugal host.interpreter → p'.Frugal host.interpreter)
    (hdetached : ∀ s, p'.resumed = some (.detach, s) → sys.debugger.terminated = true)
    (hsettled : p'.Settled)
    (hstands : Stands host.interpreter (p' :: earlier) sys.debugger sys.thread.phase) :
    (w.next host sys).Sound host program := by
  have horderly := h.orderly
  rw [hp] at horderly
  have hrest : ∀ p ∈ earlier, p.Settled := by
    cases horderly
    assumption
  have hold : p.Frugal host.interpreter := by
    cases horderly
    assumption
  refine ⟨(hstep.events_passages w.passages).trans h.events, h.aside_next sys, ?orderly, ?detached,
    ?settled, hp' ▸ hstands⟩
  case orderly =>
    rw [hp']
    exact horderly.amend hfound (hfrugal hold)
  case detached =>
    intro hd
    rw [hp', detached_cons] at hd
    obtain ⟨s, hd⟩ | hd := hd
    · exact hdetached s hd
    · exact hstep.terminated (h.detached (hp ▸ detached_cons.2 (.inr hd)))
  case settled =>
    intro _ p'' hmem
    rw [hp'] at hmem
    obtain rfl | hmem := List.mem_cons.1 hmem
    · exact hsettled
    · exact hrest p'' hmem

theorem Sound.judge (h : w.Sound host program) {sys : System σ τ}
    (hstep : System.ThreadStep host w.sys sys) {e : ExecutionEvent} {goal : Option StepGoal} {s : σ}
    (hp : w.sys.thread.phase = .matching e goal s)
    (hstands : ∀ found judged before earlier, found.terminated = false →
      (w.sys.debugger.terminated = false →
        w.sys.debugger.goal = goalLeft host.interpreter earlier) →
      Stands host.interpreter
        ({ event := e, found := found, judged := judged, before := before } :: earlier)
        sys.debugger sys.thread.phase) :
    (w.next host sys).Sound host program := by
  have hold := h.stands
  rw [hp] at hold
  obtain ⟨found, earlier, hpassages, ht, hfound, hgoal⟩ := hold
  have hjudged : (w.next host sys).passages =
      { event := e
        found := found
        judged := some (w.sys.debugger.breakpoints, s)
        before := w.sys.asked host } :: earlier := by
    simp only [next, System.passages, hp, hpassages]
  refine h.goOn hstep hpassages hjudged rfl (fun _ => ⟨?before, rfl, ?silent⟩) nofun
    (fun _ => nofun) ?stands
  case before =>
    show w.sys.asked host =
      if Passage.weighs _ w.sys.debugger.breakpoints then host.interpreter.walk s else []
    rw [weighs_eq ht, System.asked_matching hp, hfound]
  case silent => exact fun ht' => absurd (ht.symm.trans ht') Bool.false_ne_true
  case stands =>
    rw [hpassages] at hgoal
    exact hstands _ _ _ _ ht hgoal

theorem Sound.resume (h : w.Sound host program) {sys : System σ τ}
    (hstep : System.ThreadStep host w.sys sys) {e : ExecutionEvent} {decision : Decision} {s : σ}
    (hp : w.sys.thread.phase = .resumed (.debugger e) decision s)
    (hdetached : decision = .detach → sys.debugger.terminated = true)
    (hstands : ∀ p earlier, p.event = e → p.resumed = some (decision, s) →
      Stands host.interpreter (p :: earlier) sys.debugger sys.thread.phase) :
    (w.next host sys).Sound host program := by
  have hold := h.stands
  rw [hp] at hold
  obtain ⟨found, judged, before, earlier, ht, hpassages⟩ := hold
  have hsettled :
      Passage.Settled { event := e, found := found, judged := judged, before := before } :=
    h.settled (by simp [hp]) _ (hpassages ▸ List.mem_cons_self)
  have hresumed : (w.next host sys).passages =
      { event := e
        found := found
        judged := judged
        before := before
        resumed := some (decision, s)
        after := w.sys.asked host } :: earlier := by
    simp only [next, System.passages, hp, hpassages]
  refine h.goOn hstep hpassages hresumed rfl (fun hfrugal => ⟨hfrugal.before, ?after, ?silent⟩)
    ?detached hsettled (hstands _ _ rfl rfl)
  case after => rw [System.asked_resumed hp, Option.elim_some]
  case silent => exact fun ht' => absurd (ht.symm.trans ht') Bool.false_ne_true
  case detached =>
    intro s' hs'
    cases hs'
    exact hdetached rfl

theorem Sound.thread (h : w.Sound host program) {sys : System σ τ}
    (hstep : System.ThreadStep host w.sys sys) :
    (w.next host sys).Sound host program := by
  have hstands := h.stands
  have hstep' := hstep
  cases hstep with
  | event hp | stop hp | hand hp =>
    rw [hp] at hstands
    exact h.pass hstep' (by simp only [next, System.passages, hp]) (by simp [hp]) hstands
  | serveFault hp =>
    exact h.pass hstep' (by simp only [next, System.passages, hp]) (by simp [hp]) trivial
  | disarm hp =>
    rw [hp] at hstands
    exact h.pass hstep' (by simp only [next, System.passages, hp]) (by simp [hp]) hstands
  | @turnAway origin _ _ _ hp | @install origin _ _ _ _ _ hp | @announce origin _ _ _ _ hp
    | @reply origin _ _ _ _ _ _ _ _ hp | @take origin _ _ _ _ _ hp
    | @leave origin _ _ _ _ hp =>
    rw [hp] at hstands
    refine h.pass hstep' (by simp only [next, System.passages, hp]) (by simp [hp]) ?_
    cases origin with
    | direct | debugger => exact hstands
  | @depart origin _ _ _ _ hp =>
    rw [hp] at hstands
    refine h.pass hstep' (by simp only [next, System.passages, hp]) (by simp [hp]) ?_
    cases origin with
    | direct | debugger => exact hstands
  | free hp ht =>
    exact h.comeUp hstep' hp (fun _ => ht) fun hd => by cases hd.symm.trans ht
  | look hp ht =>
    rw [hp] at hstands
    refine h.comeUp hstep' hp (fun hm => absurd rfl (hm _ _ _)) ?_
    exact ⟨_, _, rfl, ht, rfl, hstands⟩
  | hit hp | meet hp =>
    exact h.judge hstep' hp fun found judged before earlier ht _ =>
      ⟨found, judged, before, earlier, ht, rfl⟩
  | miss hp => exact h.judge hstep' hp fun _ _ _ _ _ hgoal => hgoal
  | matchFault hp => exact h.judge hstep' hp fun _ _ _ _ _ _ => trivial
  | @resume e decision goal s s' hp hg =>
    refine h.resume hstep' hp ?detached ?stands
    case detached =>
      rintro rfl
      exact Bool.or_true _
    case stands =>
      rintro p earlier rfl hresumed -
      simp only [goalLeft, hresumed, hg]
      rfl
  | @resumeFault e decision s s' fault hp hg =>
    refine h.resume hstep' hp ?_ fun _ _ _ _ => trivial
    rintro rfl
    cases hg

theorem Sound.run (h : w.Sound host program) (moves : List Move) :
    (w.run host moves).Sound host program := by
  refine (recorder host).run_keeps (P := Sound host program) (fun {w} arrivals h => ?arrive)
    (fun h => ⟨h.events, h.aside, h.orderly, h.detached, h.settled, h.stands⟩)
    (fun h hstep => h.session hstep) (fun h hstep => h.thread hstep) h moves
  case arrive =>
    show Sound host program { w with sys := w.sys.play host (.arrive arrivals) }
    rw [System.play_arrive]
    exact ⟨h.events, h.aside, h.orderly, h.detached, h.settled, h.stands⟩

-- ---------------------------------------------------------------------------
-- Without the client
-- ---------------------------------------------------------------------------

/-- The events that came up in a run were there before, up to what the debugger did for the latest
of them, or they find the debugger without a client. -/
def Unheard (before after : List (Passage σ)) : Prop :=
  ∃ newer older, after = newer ++ older ∧ older.length = before.length ∧
    ∀ p ∈ newer, p.found.terminated = true

theorem Unheard.passages {passages before : List (Passage σ)} (h : Unheard before passages)
    {sys : System σ τ} (ht : sys.debugger.terminated = true) :
    Unheard before (sys.passages host passages) := by
  obtain ⟨newer, older, rfl, hlength, hall⟩ := h
  obtain hsame | ⟨e, hnew⟩ | ⟨p, p', earlier, hp, hp', hfound⟩ :=
    System.passages_cases host sys (newer ++ older)
  · rw [hsame]
    exact ⟨newer, older, rfl, hlength, hall⟩
  · rw [hnew]
    exact ⟨_ :: newer, older, rfl, hlength, List.forall_mem_cons.2 ⟨ht, hall⟩⟩
  · rw [hp']
    cases newer with
    | nil =>
      obtain rfl : older = p :: earlier := hp
      exact ⟨[], p' :: earlier, rfl, hlength, List.forall_mem_nil _⟩
    | cons q newer =>
      obtain ⟨rfl, rfl⟩ := List.cons.inj hp
      obtain ⟨hq, hall⟩ := List.forall_mem_cons.1 hall
      exact ⟨p' :: newer, older, rfl, hlength, List.forall_mem_cons.2 ⟨hfound ▸ hq, hall⟩⟩

theorem unheard_run (ht : w.sys.debugger.terminated = true) {before : List (Passage σ)}
    (h : Unheard before w.passages) (moves : List Move) :
    Unheard before (w.run host moves).passages := by
  refine ((recorder host).run_induction
    (P := fun w => w.sys.debugger.terminated = true ∧ Unheard before w.passages) ?_ ⟨ht, h⟩ moves).2
  rintro w move ⟨ht, h⟩
  refine ⟨?terminated, ?unheard⟩
  case terminated =>
    show (w.play host move).sys.debugger.terminated = true
    rw [sys_play]
    exact System.terminated_play ht move
  case unheard =>
    show Unheard before (w.play host move).passages
    unfold Watch.play
    split
    · exact h.passages ht
    · exact h

end Watch

/-- Of every run of a new debugger in a session: the events of the program come up in order, and
each of them is judged before the next one comes up, unless the client has gone. The debugger
measures the depth of the stack once before it decides, where the event carries a line on which no
breakpoint is hit and the last resumed stop has left a goal, and once after a stop that ended in a
step decision; and the thread asks nothing else that the client does not ask. After the client has
gone or a stop has ended in detachment, no event that comes up is looked at. -/
theorem calls_of_events (host : Host σ τ) (paths : PathCase) (target : τ)
    (program : List (Item σ)) (moves : List Move) :
    let start : Watch σ τ := { sys := .start (.fresh paths) target program }
    let w := start.run host moves
    w.sys = System.run host moves (.start (.fresh paths) target program) ∧
      w.passages.reverse.map (·.event) ++ w.sys.thread.ahead = program.filterMap Item.event? ∧
      ((∀ e goal s, w.sys.thread.phase ≠ .matching e goal s) → ∀ p ∈ w.passages, p.Settled) ∧
      Orderly host.interpreter w.passages ∧
      (∀ p ∈ w.passages, ∀ call ∈ p.before ++ p.after, ∃ level, call = .frame level) ∧
      w.aside = [] ∧
      (∀ early late, moves = early ++ .step .session :: late →
        (start.run host early).sys.deed? = some .disconnected →
        ∃ newer older, w.passages = newer ++ older ∧
          older.length = (start.run host early).passages.length ∧
          ∀ p ∈ newer, p.before = [] ∧ p.after = []) ∧
      ∀ newer p earlier s, w.passages = newer ++ p :: earlier → p.resumed = some (.detach, s) →
        ∀ p' ∈ newer, p'.before = [] ∧ p'.after = [] := by
  intro start w
  have hsound : w.Sound host program := (Watch.sound_start host paths target program).run moves
  refine ⟨Watch.sys_run host moves start, hsound.events, hsound.settled, hsound.orderly,
    fun p hp call hcall => (hsound.orderly.frugal hp).frames hcall, hsound.aside, ?gone, ?detached⟩
  case gone =>
    intro early late hmoves hdeed
    obtain ⟨sys, hstep⟩ : ∃ sys, (start.run host early).sys.step host .session = some sys := by
      cases hstep : (start.run host early).sys.step host .session with
      | some sys => exact ⟨sys, rfl⟩
      | none => cases hdeed.symm.trans (System.deed?_of_waiting hstep)
    have ht :
        ((start.run host early).play host (.step .session)).sys.debugger.terminated = true := by
      rw [Watch.sys_play, System.play_step hstep]
      obtain ⟨-, hd⟩ | ⟨hzero, -⟩ := (System.sessionStep_of_step hstep).debugger
      · rw [hd]
        rfl
      · rw [hdeed] at hzero
        cases hzero
    have hrun : w = ((start.run host early).play host (.step .session)).run host late := by
      show start.run host moves = _
      rw [hmoves]
      exact (Watch.recorder host).run_append _ _ _
    obtain ⟨newer, older, hw, hlength, hall⟩ :=
      Watch.unheard_run ht ⟨[], _, rfl, rfl, List.forall_mem_nil _⟩ late
    rw [← hrun] at hw
    refine ⟨newer, older, hw, hlength, fun p hp => ?_⟩
    exact (hsound.orderly.frugal (hw ▸ List.mem_append_left _ hp)).silent (hall p hp)
  case detached =>
    intro newer p earlier s hw hp p' hp'
    obtain ⟨newest, between, rfl⟩ := List.append_of_mem hp'
    have horderly := hsound.orderly
    rw [hw, List.append_assoc] at horderly
    have hlater := horderly.of_append
    have hdetached : Detached (between ++ p :: earlier) := ⟨p, by simp, s, hp⟩
    cases hlater with
    | cons hfrugal _ hterminated _ _ => exact hfrugal.silent (hterminated hdetached)

end DebugAdapter
