import DebugAdapter.Session.Drain

/-!
# Batches

Any thread may schedule on a bridge and dispose of it, at any time; one thread runs the loop, and
the invocations that it runs schedule and dispose as well. The loop takes what is queued in batches.
Batches do not show: what happens at a bridge is what happens at a queue whose invocations are taken
one at a time, and the other way round (`Single.exists_turns`, `Single.exists_run`).
-/

namespace DebugAdapter.Delivery

variable {ι : Type}

abbrev Call (ι : Type) := BridgeStep ι Empty

abbrev Task (ι : Type) := Invocation ι Empty

/-- Who calls: the invocation that the loop runs, or another thread. -/
inductive Caller where
  | loop
  | thread
deriving DecidableEq

inductive Entry (ι : Type) where
  | called (caller : Caller) (call : Call ι) (answer : BridgeEvent ι Empty)
  | began (task : Task ι)
  | returned

inductive Move (ι : Type) where
  | call (call : Call ι)
  | loop

def Move.isLoop : Move ι → Bool
  | .call _ => false
  | .loop => true

-- ---------------------------------------------------------------------------
-- A bridge and its loop
-- ---------------------------------------------------------------------------

structure Site (ι : Type) where
  bridge : InvocationBridge ι Empty := {}
  loops : List (Drain ι Empty) := [{}]

namespace Site

def noted? : List (Drain ι Empty) → Option (BridgeEvent ι Empty) → Option (Entry ι)
  | ⟨call :: _, _⟩ :: _, some answer => some (.called .loop call answer)
  | ⟨[], task :: _⟩ :: _, some (.ran _) => some (.began task)
  | ⟨[], []⟩ :: _, some .returned => some .returned
  | _, _ => none

/-- One move; the loop may have to wait, and makes none then. -/
def play (s : Site ι) : Move ι → List (Entry ι) × Site ι
  | .call call =>
    ([.called .thread call (s.bridge.perform call).1],
      { s with bridge := (s.bridge.perform call).2 })
  | .loop =>
    match s.bridge.advance s.loops with
    | none => ([], s)
    | some (event, loops, bridge) => ((noted? s.loops event).toList, ⟨bridge, loops⟩)

def run (s : Site ι) : List (Move ι) → List (Entry ι) × Site ι
  | [] => ([], s)
  | m :: moves => ((s.play m).1 ++ ((s.play m).2.run moves).1, ((s.play m).2.run moves).2)

end Site

-- ---------------------------------------------------------------------------
-- A queue
-- ---------------------------------------------------------------------------

/-- A queue from which a loop takes one task at a time. -/
structure Fifo (ι : Type) where
  waiting : List (Task ι) := []
  disposed : Bool := false
  running : List (Call ι) := []
  returned : Bool := false

namespace Fifo

def call (q : Fifo ι) : Call ι → BridgeEvent ι Empty × Fifo ι
  | .schedule label steps =>
    if q.disposed then (.scheduled (.error .stopEnded), q)
    else (.scheduled (.ok ()), { q with waiting := q.waiting ++ [⟨label, steps⟩] })
  | .dispose => (.disposed, { q with disposed := true })
  | .ask => (.isDisposed q.disposed, q)

def play (q : Fifo ι) : Move ι → List (Entry ι) × Fifo ι
  | .call call => ([.called .thread call (q.call call).1], (q.call call).2)
  | .loop =>
    match q.returned, q.running, q.waiting with
    | true, _, _ => ([], q)
    | false, call :: rest, _ =>
      ([.called .loop call (q.call call).1], { (q.call call).2 with running := rest })
    | false, [], task :: rest => ([.began task], { q with waiting := rest, running := task.steps })
    | false, [], [] => if q.disposed then ([.returned], { q with returned := true }) else ([], q)

def run (q : Fifo ι) : List (Move ι) → List (Entry ι) × Fifo ι
  | [] => ([], q)
  | m :: moves => ((q.play m).1 ++ ((q.play m).2.run moves).1, ((q.play m).2.run moves).2)

end Fifo

-- ---------------------------------------------------------------------------
-- Batches do not show
-- ---------------------------------------------------------------------------

namespace Site

variable {s : Site ι}

/-- The site as a queue: what is left of a batch comes before what is queued behind it. -/
def asQueue (s : Site ι) : Fifo ι where
  waiting := s.loops.flatMap (·.batch) ++ s.bridge.queue
  disposed := s.bridge.disposed
  running := s.loops.flatMap (·.steps)
  returned := s.loops.isEmpty

def Single (s : Site ι) : Prop := s.loops.length ≤ 1

def Taking (s : Site ι) : Prop := s.loops = [{}] ∧ s.bridge.queue ≠ []

theorem perform_eq (s : Site ι) (call : Call ι) :
    (s.bridge.perform call).1 = (s.asQueue.call call).1 ∧
      ({ s with bridge := (s.bridge.perform call).2 } : Site ι).asQueue =
        (s.asQueue.call call).2 := by
  cases call with
  | schedule label steps =>
    by_cases hd : s.bridge.disposed
    · simp [Bridge.perform, Bridge.schedule, Fifo.call, asQueue, hd]
    · simp [Bridge.perform, Bridge.schedule, Fifo.call, asQueue, hd]
  | dispose => exact ⟨rfl, rfl⟩
  | ask => exact ⟨rfl, rfl⟩
  | run label => cases label

inductive LoopStep : Site ι → List (Entry ι) → Site ι → Prop
  | call {b : InvocationBridge ι Empty} (call : Call ι) (rest : List (Call ι))
      (batch : List (Task ι)) :
      LoopStep ⟨b, [⟨call :: rest, batch⟩]⟩ [.called .loop call (b.perform call).1]
        ⟨(b.perform call).2, [⟨rest, batch⟩]⟩
  | start {b : InvocationBridge ι Empty} (task : Task ι) (batch : List (Task ι)) :
      LoopStep ⟨b, [⟨[], task :: batch⟩]⟩ [.began task] ⟨b, [⟨task.steps, batch⟩]⟩
  | take {b : InvocationBridge ι Empty} : b.queue ≠ [] →
      LoopStep ⟨b, [{}]⟩ [] ⟨{ b with queue := [] }, [⟨[], b.queue⟩]⟩
  | leave {b : InvocationBridge ι Empty} : b.queue = [] → b.disposed = true →
      LoopStep ⟨b, [{}]⟩ [.returned] ⟨b, []⟩
  | wait {b : InvocationBridge ι Empty} : b.queue = [] → b.disposed = false →
      LoopStep ⟨b, [{}]⟩ [] ⟨b, [{}]⟩
  | gone {b : InvocationBridge ι Empty} : LoopStep ⟨b, []⟩ [] ⟨b, []⟩

theorem opened_eq_nil (call : Call ι) : call.opened = [] := by
  cases call with
  | schedule | dispose | ask => rfl
  | run label => cases label

theorem loopStep (h : s.Single) : LoopStep s (s.play .loop).1 (s.play .loop).2 := by
  obtain ⟨b, loops⟩ := s
  match loops, h with
  | [], _ => exact .gone
  | [⟨call :: rest, batch⟩], _ =>
    simp only [play, Bridge.advance, opened_eq_nil, List.nil_append]
    exact .call call rest batch
  | [⟨[], task :: batch⟩], _ => exact .start task batch
  | [⟨[], []⟩], _ =>
    obtain ⟨queue, disposed⟩ := b
    match queue, disposed with
    | [], true => exact .leave rfl rfl
    | [], false => exact .wait rfl rfl
    | task :: queue, _ => exact .take (List.cons_ne_nil task queue)

theorem Single.play (h : s.Single) (m : Move ι) : (s.play m).2.Single := by
  cases m with
  | call call => exact h
  | loop =>
    have hstep := loopStep h
    generalize (s.play .loop).1 = es, (s.play .loop).2 = s' at hstep
    cases hstep with
    | gone => exact Nat.zero_le _
    | leave => exact Nat.zero_le _
    | call | start | take | wait => exact Nat.le_refl _

theorem Taking.play (h : s.Taking) :
    (s.play .loop).1 = [] ∧ (s.play .loop).2.asQueue = s.asQueue ∧
      ¬ (s.play .loop).2.Taking := by
  obtain ⟨b, loops⟩ := s
  obtain ⟨rfl, hq⟩ := h
  have hstep := loopStep (s := ⟨b, [{}]⟩) (Nat.le_refl _)
  generalize (Site.play ⟨b, [{}]⟩ .loop).1 = es, (Site.play ⟨b, [{}]⟩ .loop).2 = s' at hstep
  cases hstep with
  | take => exact ⟨rfl, by simp [asQueue], fun ht => ht.2 rfl⟩
  | leave hnil => exact absurd hnil hq
  | wait hnil => exact absurd hnil hq

theorem play_eq (h : s.Single) (m : Move ι) (ht : m = .loop → ¬ s.Taking) :
    (s.play m).1 = (s.asQueue.play m).1 ∧ (s.play m).2.asQueue = (s.asQueue.play m).2 := by
  cases m with
  | call call =>
    obtain ⟨hanswer, hafter⟩ := s.perform_eq call
    exact ⟨by simp only [play, Fifo.play, hanswer], hafter⟩
  | loop =>
    have hstep := loopStep h
    generalize (s.play .loop).1 = es, (s.play .loop).2 = s' at hstep
    cases hstep with
    | @call b call rest batch =>
      obtain ⟨hanswer, hafter⟩ := perform_eq ⟨b, [⟨call :: rest, batch⟩]⟩ call
      refine ⟨congrArg (fun a => [Entry.called .loop call a]) hanswer, ?_⟩
      have hrest := congrArg (fun q : Fifo ι => { q with running := rest }) hafter
      simpa [asQueue, Fifo.play] using hrest
    | start task batch => exact ⟨rfl, by simp [asQueue, Fifo.play]⟩
    | take hq => exact absurd ⟨rfl, hq⟩ (ht rfl)
    | leave hq hd => simp [asQueue, Fifo.play, hq, hd]
    | wait hq hd => simp [asQueue, Fifo.play, hq, hd]
    | gone => exact ⟨rfl, rfl⟩

theorem run_append (s : Site ι) (moves more : List (Move ι)) :
    (s.run (moves ++ more)).1 = (s.run moves).1 ++ ((s.run moves).2.run more).1 ∧
      (s.run (moves ++ more)).2 = ((s.run moves).2.run more).2 := by
  induction moves generalizing s with
  | nil => exact ⟨rfl, rfl⟩
  | cons m moves ih =>
    obtain ⟨hentries, hafter⟩ := ih (s.play m).2
    exact ⟨by simp only [run, List.cons_append, hentries, List.append_assoc], hafter⟩

theorem Single.run (h : s.Single) (moves : List (Move ι)) : (s.run moves).2.Single := by
  induction moves generalizing s with
  | nil => exact h
  | cons m moves ih => exact ih (h.play m)

theorem Single.exists_turns (h : s.Single) (moves : List (Move ι)) :
    ∃ turns, s.asQueue.run turns = ((s.run moves).1, (s.run moves).2.asQueue) := by
  induction moves generalizing s with
  | nil => exact ⟨[], rfl⟩
  | cons m moves ih =>
    obtain ⟨turns, hturns⟩ := ih (h.play m)
    by_cases ht : m = .loop ∧ s.Taking
    · -- The queue stands still while a batch is taken.
      obtain ⟨rfl, ht⟩ := ht
      obtain ⟨hnone, hsame, -⟩ := ht.play
      exact ⟨turns, by rw [← hsame, hturns, Site.run, hnone, List.nil_append]⟩
    · obtain ⟨hentries, hafter⟩ := play_eq h m fun hm hs => ht ⟨hm, hs⟩
      exact ⟨m :: turns, by rw [Fifo.run, ← hentries, ← hafter, hturns, Site.run]⟩

/-- A move of the queue takes one move at the site, or two where a batch must be taken first. -/
theorem Single.exists_moves (h : s.Single) (m : Move ι) :
    ∃ moves, (s.run moves).1 = (s.asQueue.play m).1 ∧
      (s.run moves).2.asQueue = (s.asQueue.play m).2 := by
  by_cases ht : m = .loop ∧ s.Taking
  · obtain ⟨rfl, ht⟩ := ht
    obtain ⟨hnone, hsame, hnot⟩ := ht.play
    obtain ⟨hentries, hafter⟩ := play_eq (h.play .loop) .loop fun _ => hnot
    refine ⟨[.loop, .loop], ?_, ?_⟩
    · simp only [Site.run, hnone, hentries, hsame, List.nil_append, List.append_nil]
    · simp only [Site.run, hafter, hsame]
  · obtain ⟨hentries, hafter⟩ := play_eq h m fun hm hs => ht ⟨hm, hs⟩
    exact ⟨[m], by simp only [Site.run, hentries, List.append_nil], hafter⟩

theorem Single.exists_run (h : s.Single) (turns : List (Move ι)) :
    ∃ moves, (s.run moves).1 = (s.asQueue.run turns).1 := by
  induction turns generalizing s with
  | nil => exact ⟨[], rfl⟩
  | cons m turns ih =>
    obtain ⟨moves, hentries, hafter⟩ := h.exists_moves m
    obtain ⟨more, hmore⟩ := ih (h.run moves)
    refine ⟨moves ++ more, ?_⟩
    rw [(run_append s moves more).1, hmore, hentries, hafter, Fifo.run]

end Site

end DebugAdapter.Delivery
