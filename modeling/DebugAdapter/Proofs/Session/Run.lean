import DebugAdapter.Proofs.Packet.Stream
import DebugAdapter.Proofs.Session.Steps
import Mathlib.Algebra.Ring.Nat

/-!
# Runs of a session

A run is a list of moves, in any order: a side takes a step, more of the client's stream arrives, or
the stream ends. Each side leaves most of what it shares with the other alone, and every run comes
to rest once nothing arrives any more: `rests` counts what is left to do.
-/

namespace DebugAdapter

open Protocol

variable {σ τ : Type} {host : Host σ τ} {sys sys' : System σ τ}

inductive Move where
  | step (side : Side)
  | arrive (arrivals : List Packet.Arrival)
  | hangUp

namespace System

/-- A side that waits does nothing, and nothing arrives behind the end of the stream. -/
def play (host : Host σ τ) (sys : System σ τ) : Move → System σ τ
  | .step side => (sys.step host side).getD sys
  | .arrive arrivals => if sys.session.reader.ended then sys else sys.feed arrivals
  | .hangUp => sys.endInput

def run (host : Host σ τ) (moves : List Move) (sys : System σ τ) : System σ τ :=
  moves.foldl (play host) sys

def Resting (host : Host σ τ) (sys : System σ τ) : Prop := ∀ side, sys.step host side = none

/-- A new session beside a thread that has not begun its program. -/
def start (debugger : Debugger) (target : τ) (program : List (Item σ)) : System σ τ :=
  { debugger := debugger, target := target, thread := { program := program } }

theorem play_arrive (host : Host σ τ) (sys : System σ τ) (arrivals : List Packet.Arrival) :
    sys.play host (.arrive arrivals) =
      sys.withReader (sys.session.reader.later arrivals false) := by
  simp only [play, withReader, Packet.Reader.later, feed, Packet.Reader.feed]
  split
  · rfl
  · rename_i h
    simp only [Bool.not_eq_true] at h
    simp only [h]

theorem play_hangUp (host : Host σ τ) (sys : System σ τ) :
    sys.play host .hangUp = sys.withReader (sys.session.reader.later [] true) := by
  simp only [play, endInput, withReader, Packet.Reader.finish_eq_later]

theorem play_step {side : Side} (h : sys.step host side = some sys') :
    sys.play host (.step side) = sys' := by
  simp only [play, h, Option.getD_some]

theorem play_waiting {side : Side} (h : sys.step host side = none) :
    sys.play host (.step side) = sys := by
  simp only [play, h, Option.getD_none]

-- ---------------------------------------------------------------------------
-- What a side leaves alone
-- ---------------------------------------------------------------------------

@[simp] theorem thread_closed (result : Option (Except AdapterError Unit)) :
    (sys.closed result).thread = sys.thread := by cases result <;> rfl

@[simp] theorem handle_closed (result : Option (Except AdapterError Unit)) :
    (sys.closed result).handle = sys.handle := by cases result <;> rfl

@[simp] theorem debugger_closed (result : Option (Except AdapterError Unit)) :
    (sys.closed result).debugger = sys.debugger := by cases result <;> rfl

@[simp] theorem session_move (phase : Thread.Phase σ) : (sys.move phase).session = sys.session :=
  rfl

@[simp] theorem handle_move (phase : Thread.Phase σ) : (sys.move phase).handle = sys.handle := rfl

@[simp] theorem reply_move (phase : Thread.Phase σ) : (sys.move phase).reply = sys.reply := rfl

@[simp] theorem session_handBack (origin : Origin) (g : StackGraph) :
    (sys.handBack origin g).session = sys.session := by cases origin <;> rfl

@[simp] theorem handle_handBack (origin : Origin) (g : StackGraph) :
    (sys.handBack origin g).handle = sys.handle := by cases origin <;> rfl

@[simp] theorem program_handBack (origin : Origin) (g : StackGraph) :
    (sys.handBack origin g).thread.program = sys.thread.program := by cases origin <;> rfl

@[simp] theorem terminated_handBack (origin : Origin) (g : StackGraph) :
    (sys.handBack origin g).debugger.terminated = sys.debugger.terminated := by cases origin <;> rfl

@[simp] theorem reply_handBack (origin : Origin) (g : StackGraph) :
    (sys.handBack origin g).reply = sys.reply := by cases origin <;> rfl

end System

theorem Bridge.take_cases {κ : Type} (b : Bridge κ) :
    (b.queue = [] ∧ b.take = (if b.disposed then .leave else .wait, b)) ∨
    (b.queue ≠ [] ∧ b.take = (.work b.queue, { b with queue := [] })) := by
  obtain ⟨queue, disposed⟩ := b
  cases queue with
  | nil => exact .inl ⟨rfl, rfl⟩
  | cons task queue => exact .inr ⟨nofun, rfl⟩

namespace Handle

variable {h h' : Handle} {stop : Nat}

def responses (h : Handle) : List Response :=
  h.outbox.filterMap fun
    | .response r => some r
    | .event _ | .close => none

@[simp] theorem responses_post_response (r : Response) :
    (h.post (.response r)).responses = h.responses ++ [r] := by
  simp [responses, post]

@[simp] theorem responses_post_event (e : Event) :
    (h.post (.event e)).responses = h.responses := by
  simp [responses, post]

@[simp] theorem responses_post_close : (h.post .close).responses = h.responses := by
  simp [responses, post]

theorem responses_congr (ho : h'.outbox = h.outbox) : h'.responses = h.responses := by
  rw [responses, ho, responses]

@[simp] theorem closed_post (m : Outgoing) : (h.post m).closed = h.closed := rfl

theorem install_eq_some (hi : h.install = some (stop, h')) :
    h.closed = false ∧ stop = h.stops.length ∧
      h' = { h with stops := h.stops ++ [{}], active := some h.stops.length } := by
  unfold install at hi
  split at hi
  · cases hi
  · rename_i hc
    cases hi
    exact ⟨Bool.eq_false_iff.2 hc, rfl, rfl⟩

theorem closed_of_install (hi : h.install = none) : h.closed = true := by
  unfold install at hi
  split at hi
  · assumption
  · cases hi

theorem take_eq {turn : Bridge.Turn Question} (ht : h.take stop = (turn, h')) :
    (h.stops[stop]? = none ∧ turn = .leave ∧ h' = h) ∨
    ∃ s, h.stops[stop]? = some s ∧ turn = s.bridge.take.1 ∧
      h' = h.revise stop fun s' => { s' with bridge := s.bridge.take.2 } := by
  unfold take at ht
  cases hs : h.stops[stop]? with
  | none =>
    simp only [hs] at ht
    cases ht
    exact .inl ⟨rfl, rfl, rfl⟩
  | some s =>
    simp only [hs] at ht
    cases ht
    exact .inr ⟨s, rfl, rfl, rfl⟩

theorem take_outside {turn : Bridge.Turn Question} (ht : h.take stop = (turn, h')) :
    h'.closed = h.closed ∧ h'.outbox = h.outbox := by
  obtain ⟨-, -, rfl⟩ | ⟨s, -, -, rfl⟩ := take_eq ht
  · exact ⟨rfl, rfl⟩
  · exact ⟨rfl, rfl⟩

theorem schedule_outside {question : Question} (hs : h.schedule stop question = .ok h') :
    h'.closed = h.closed ∧ h'.outbox = h.outbox := by
  unfold schedule at hs
  split at hs
  · cases hs
  · obtain ⟨bridge, -, rfl⟩ := map_eq_ok.1 hs
    exact ⟨rfl, rfl⟩

theorem decide_outside {decision : Decision} (hd : h.decide stop decision = .ok h') :
    h'.closed = h.closed ∧ h'.outbox = h.outbox := by
  unfold decide at hd
  split at hd
  · cases hd
  · cases hd
    exact ⟨rfl, rfl⟩

theorem vacate_outside {active : Option Nat} (hv : h.vacate = (active, h')) :
    h'.closed = h.closed ∧ h'.outbox = h.outbox := by
  unfold vacate at hv
  cases hv
  exact ⟨rfl, rfl⟩

theorem leave_outside {decision : Decision} (hl : h.leave stop = (decision, h')) :
    h'.closed = h.closed ∧ h'.outbox = h.outbox := by
  unfold leave at hl
  cases hl
  split <;> exact ⟨rfl, rfl⟩

end Handle

namespace System

theorem SessionStep.thread_eq (h : SessionStep host sys sys') : sys'.thread = sys.thread := by
  cases h with
  | takeUp hp =>
    obtain ⟨debugger, target, disconnected, phase, heq, -, -⟩ := takeUp_cases host sys _
    rw [heq]
  | vacant | release => exact thread_closed _
  | _ => rfl

/-- The thread never closes the session. All that it sends is the news of a stop. -/
theorem ThreadStep.outside (h : ThreadStep host sys sys') :
    sys'.session = sys.session ∧ sys'.handle.closed = sys.handle.closed ∧
      (sys'.handle.outbox = sys.handle.outbox ∨
        ∃ origin body stop g s, sys.thread.phase = .announcing origin body stop g s ∧
          sys'.handle = sys.handle.post (.event (stoppedEvent body))) := by
  cases h with
  | install _ hi =>
    obtain ⟨-, -, rfl⟩ := Handle.install_eq_some hi
    exact ⟨rfl, rfl, .inl rfl⟩
  | announce hp => exact ⟨rfl, rfl, .inr ⟨_, _, _, _, _, hp, rfl⟩⟩
  | take _ ht =>
    obtain ⟨hc, ho⟩ := Handle.take_outside ht
    exact ⟨rfl, hc, .inl ho⟩
  | depart _ ht =>
    obtain ⟨hc, ho⟩ := Handle.take_outside ht
    exact ⟨by simp, by simpa using hc, .inl (by simpa using ho)⟩
  | leave _ hl =>
    obtain ⟨hc, ho⟩ := Handle.leave_outside hl
    exact ⟨rfl, hc, .inl ho⟩
  | serveFault => exact ⟨by simp, by simp, .inl (by simp)⟩
  | event | stop | free | look | hit | meet | miss | matchFault | disarm | turnAway | reply | hand
    | resume | resumeFault => exact ⟨rfl, rfl, .inl rfl⟩

theorem ThreadStep.target_eq (h : ThreadStep host sys sys') : sys'.target = sys.target := by
  cases h with
  | @serveFault origin | @depart origin => cases origin <;> rfl
  | _ => rfl

theorem session_play_thread (host : Host σ τ) (sys : System σ τ) :
    (sys.play host (.step .thread)).session = sys.session := by
  cases hstep : sys.step host .thread with
  | none => rw [play_waiting hstep]
  | some next => rw [play_step hstep, (threadStep_of_step hstep).outside.1]

def withThread {ρ : Type} (sys : System σ τ) (thread : Thread ρ) : System ρ τ :=
  { sys with thread := thread }

section

variable {ρ : Type} {host' : Host ρ τ}

theorem read_withThread (sys : System σ τ) (thread : Thread ρ) :
    (sys.withThread thread).read = sys.read.map (·.withThread thread) := by
  cases hc : sys.handle.closed with
  | true =>
    simp only [read, withThread, hc, if_true]
    rfl
  | false =>
    cases hr : sys.session.reader.readMessage with
    | mk found reader =>
      simp only [read, withThread, hc, hr, Bool.false_eq_true, if_false]
      cases found with
      | item message =>
        dsimp only
        cases requestOf? message <;> rfl
      | _ => rfl

theorem takeUp_withThread (hstart : host'.start = host.start) (sys : System σ τ)
    (thread : Thread ρ) (r : Request) :
    (sys.withThread thread).takeUp host' r = (sys.takeUp host r).withThread thread := by
  unfold takeUp
  split
  · rfl
  · rfl
  · rename_i demand _
    cases demand with
    | chooseStart mode =>
      simp only [fulfil, withThread]
      split <;> rfl
    | start =>
      simp only [fulfil, withThread, hstart]
      split
      · rfl
      · split <;> rfl
    | _ => rfl

theorem stepSession_withThread (hstart : host'.start = host.start) (sys : System σ τ)
    (thread : Thread ρ) :
    (sys.withThread thread).stepSession host' =
      (sys.stepSession host).map (·.withThread thread) := by
  unfold stepSession
  dsimp only [withThread]
  cases hp : sys.session.phase with
  | reading => exact read_withThread sys thread
  | handling r => exact congrArg some (takeUp_withThread hstart sys thread r)
  | asking | scheduling | resuming | deciding | awaiting =>
    dsimp only
    split <;> rfl
  | following events release closes =>
    cases events with
    | cons => rfl
    | nil =>
      cases release with
      | some => rfl
      | none => cases closes <;> rfl
  | closing step result =>
    cases step with
    | vacate =>
      dsimp only
      split
      · rfl
      · cases result <;> rfl
    | release stop => cases result <;> rfl
    | mark | settle => rfl
  | _ => rfl

end

theorem ThreadStep.responses_eq (h : ThreadStep host sys sys') :
    sys'.handle.responses = sys.handle.responses := by
  obtain ⟨-, -, ho | ⟨_, _, _, _, _, -, hpost⟩⟩ := h.outside
  · exact Handle.responses_congr ho
  · rw [hpost, Handle.responses_post_event]

-- ---------------------------------------------------------------------------
-- Every run comes to rest
-- ---------------------------------------------------------------------------

end System

namespace Handle

variable {h h' : Handle} {stop : Nat}

def queued (h : Handle) : Nat := (h.stops.map fun s => s.bridge.queue.length).sum

theorem sum_map_modify {α : Type} (f : α → Nat) (g : α → α) {as : List α} {i : Nat} {a : α}
    (h : as[i]? = some a) :
    ((as.modify i g).map f).sum + f a = (as.map f).sum + f (g a) := by
  induction as generalizing i with
  | nil => simp at h
  | cons b as ih =>
    cases i with
    | zero =>
      cases h
      simp
      omega
    | succ i =>
      have := ih (i := i) (by simpa using h)
      simp
      omega

theorem queued_revise (f : Stop → Stop) (hf : ∀ s, (f s).bridge.queue = s.bridge.queue) :
    (h.revise stop f).queued = h.queued := by
  cases hs : h.stops[stop]? with
  | none =>
    have : h.stops.modify stop f = h.stops :=
      List.modify_eq_self (List.getElem?_eq_none_iff.1 hs)
    rw [queued, revise, this, queued]
  | some s =>
    have := sum_map_modify (fun s => s.bridge.queue.length) f hs
    simp only [hf] at this
    exact Nat.add_right_cancel this

theorem queued_schedule {question : Question} (hs : h.schedule stop question = .ok h') :
    h'.queued = h.queued + 1 := by
  unfold schedule at hs
  cases hstop : h.stops[stop]? with
  | none =>
    simp only [hstop] at hs
    cases hs
  | some s =>
    simp only [hstop, Bridge.schedule] at hs
    split at hs
    · cases hs
    · cases hs
      have := sum_map_modify (fun s => s.bridge.queue.length)
        (fun s' => { s' with bridge := { s.bridge with queue := s.bridge.queue ++ [question] } })
        hstop
      simp only [List.length_append, List.length_singleton] at this
      simp only [queued, revise]
      omega

theorem queued_take_work {batch : List Question} (ht : h.take stop = (.work batch, h')) :
    batch ≠ [] ∧ h'.queued + batch.length = h.queued := by
  obtain ⟨-, hturn, -⟩ | ⟨s, hs, hturn, rfl⟩ := take_eq ht
  · cases hturn
  · obtain ⟨-, htake⟩ | ⟨hq, htake⟩ := s.bridge.take_cases
    · rw [htake] at hturn
      dsimp only at hturn
      split at hturn <;> cases hturn
    · rw [htake] at hturn ⊢
      cases hturn
      have := sum_map_modify (fun s => s.bridge.queue.length)
        (fun s' => { s' with bridge := { s.bridge with queue := [] } }) hs
      simp only [List.length_nil, Nat.add_zero] at this
      exact ⟨hq, this⟩

theorem queued_take_leave (ht : h.take stop = (.leave, h')) : h'.queued = h.queued := by
  obtain ⟨-, -, rfl⟩ | ⟨s, hs, hturn, rfl⟩ := take_eq ht
  · rfl
  · obtain ⟨-, htake⟩ | ⟨-, htake⟩ := s.bridge.take_cases
    · rw [htake]
      have := sum_map_modify (fun s => s.bridge.queue.length)
        (fun s' => { s' with bridge := s.bridge }) hs
      exact Nat.add_right_cancel this
    · rw [htake] at hturn
      cases hturn

theorem queued_release (h : Handle) (stop : Nat) : (h.release stop).queued = h.queued :=
  queued_revise _ fun _ => rfl

theorem queued_settle (h : Handle) (stop : Nat) : (h.settle stop).queued = h.queued :=
  queued_revise _ fun _ => rfl

theorem queued_vacate {active : Option Nat} (hv : h.vacate = (active, h')) :
    h'.queued = h.queued := by
  unfold vacate at hv
  cases hv
  rfl

theorem queued_decide {decision : Decision} (hd : h.decide stop decision = .ok h') :
    h'.queued = h.queued := by
  unfold decide at hd
  split at hd
  · cases hd
  · cases hd
    exact queued_revise _ fun _ => rfl

theorem queued_leave {decision : Decision} (hl : h.leave stop = (decision, h')) :
    h'.queued = h.queued := by
  unfold leave at hl
  cases hl
  split <;> rfl

end Handle

namespace System

/-- What is left to do in a phase, where reading a byte may bring about sixteen steps. -/
def sessionCost (bytes : Nat) : Session.Phase → Nat
  | .reading => 16 * bytes + 7
  | .handling _ => 16 * bytes + 19
  | .asking _ _ => 16 * bytes + 18
  | .scheduling _ _ _ => 16 * bytes + 17
  | .resuming _ _ => 16 * bytes + 17
  | .deciding _ _ _ => 16 * bytes + 16
  | .awaiting _ => 16 * bytes + 14
  | .answering o => 16 * bytes + 13 + o.events.length + o.release.toList.length
  | .following events release _ => 16 * bytes + 12 + events.length + release.toList.length
  | .closing .mark none => 16 * bytes + 11
  | .closing .vacate none => 16 * bytes + 10
  | .closing (.settle _) none => 16 * bytes + 9
  | .closing (.release _) none => 16 * bytes + 8
  | .closing .mark (some _) => 6
  | .closing .vacate (some _) => 5
  | .closing (.settle _) (some _) => 4
  | .closing (.release _) (some _) => 3
  | .disconnecting _ => 2
  | .finishing _ => 1
  | .ended _ => 0

def threadCost (items : Nat) : Thread.Phase σ → Nat
  | .idle | .dead _ => 9 * items
  | .hooked .. => 9 * items + 8
  | .matching .. => 9 * items + 7
  | .disarming .. => 9 * items + 6
  | .installing .. => 9 * items + 5
  | .announcing .. => 9 * items + 4
  | .serving _ _ batch _ _ => 9 * items + 3 + batch.length
  | .leaving .. => 9 * items + 2
  | .resumed .. => 9 * items + 1

/-- How many steps are left at most, if nothing arrives any more. -/
def cost (sys : System σ τ) : Nat :=
  sessionCost sys.session.reader.size sys.session.phase +
    threadCost sys.thread.program.length sys.thread.phase + 2 * sys.handle.queued

theorem cost_lt_of_threadStep (h : ThreadStep host sys sys') : sys'.cost < sys.cost := by
  cases h with
  | event hp hprogram => simp [cost, hp, hprogram, withProgram, move, threadCost]; omega
  | stop hp hprogram => simp [cost, hp, hprogram, withProgram, move, threadCost]; omega
  | free hp => simp [cost, hp, finish, threadCost]
  | look hp => simp [cost, hp, move, threadCost]
  | hit hp => simp [cost, hp, move, threadCost]
  | meet hp => simp [cost, hp, move, threadCost]
  | miss hp => simp [cost, hp, finish, threadCost]
  | matchFault hp => simp [cost, hp, move, threadCost]
  | disarm hp => simp [cost, hp, move, threadCost]
  | turnAway hp => simp [cost, hp, move, threadCost]
  | install hp hi =>
    obtain ⟨-, -, rfl⟩ := Handle.install_eq_some hi
    simp [cost, hp, move, threadCost, Handle.queued]
  | announce hp => simp [cost, hp, move, threadCost, Handle.queued, Handle.post]
  | reply hp => simp [cost, hp, move, threadCost]
  | serveFault hp =>
    simp only [cost, hp, move, threadCost, session_handBack, program_handBack, handle_handBack]
    omega
  | take hp ht =>
    obtain ⟨hne, hq⟩ := Handle.queued_take_work ht
    have := List.length_pos_iff.2 hne
    simp only [cost, hp, move, threadCost, List.length_nil]
    omega
  | depart hp ht =>
    have := Handle.queued_take_leave ht
    simp only [cost, hp, move, threadCost, session_handBack, program_handBack, handle_handBack]
    omega
  | leave hp hl =>
    have := Handle.queued_leave hl
    simp only [cost, hp, move, threadCost]
    omega
  | hand hp => simp [cost, hp, finish, threadCost]
  | resume hp => simp [cost, hp, finish, threadCost]
  | resumeFault hp => simp [cost, hp, move, threadCost]

theorem cost_lt_of_sessionStep (h : SessionStep host sys sys') : sys'.cost < sys.cost := by
  cases h with
  | shut hp => simp [cost, hp, enter, sessionCost]
  | quit hp => simp [cost, hp, enter, withReader, sessionCost]
  | skip hp _ hread =>
    have := Packet.Reader.size_of_readMessage hread
    simp [cost, hp, withReader, sessionCost]
    omega
  | begin hp _ hread =>
    have := Packet.Reader.size_of_readMessage hread
    simp [cost, hp, enter, withReader, sessionCost]
    omega
  | takeUp hp =>
    rename_i r
    obtain ⟨debugger, target, disconnected, phase, heq, -, hphase⟩ := takeUp_cases host sys r
    rw [heq]
    cases hphase with
    | granted _ he =>
      obtain rfl | rfl := he
      · simp [cost, hp, sessionCost]
      · simp [cost, hp, sessionCost]
    | refused | unknown | inspect | resume => simp [cost, hp, sessionCost]
  | ask hp => simp [cost, hp, enter, sessionCost]
  | askInVain hp => simp [cost, hp, enter, refuse, sessionCost]
  | schedule hp hs =>
    have := Handle.queued_schedule hs
    simp [cost, hp, enter, sessionCost]
    omega
  | scheduleInVain hp => simp [cost, hp, enter, refuse, sessionCost]
  | pass hp => simp [cost, hp, enter, grant, sessionCost]
  | passError hp => simp [cost, hp, enter, refuse, sessionCost]
  | resume hp => simp [cost, hp, enter, sessionCost]
  | resumeInVain hp => simp [cost, hp, enter, refuse, sessionCost]
  | decide hp hd =>
    have := Handle.queued_decide hd
    simp [cost, hp, enter, sessionCost]
    omega
  | decideInVain hp => simp [cost, hp, enter, refuse, sessionCost]
  | answer hp => simp [cost, hp, enter, sessionCost, Handle.queued, Handle.post]
  | follow hp => simp [cost, hp, enter, sessionCost, Handle.queued, Handle.post]
  | letGo hp => simp [cost, hp, enter, sessionCost, Handle.queued_release]
  | close hp => simp [cost, hp, enter, sessionCost]
  | goOn hp => simp [cost, hp, enter, sessionCost]
  | mark hp =>
    rename_i result
    cases result <;> simp [cost, hp, enter, sessionCost, Handle.markClosed, Handle.queued]
  | vacate hp hv =>
    rename_i result
    cases result <;> simp [cost, hp, enter, sessionCost, Handle.queued_vacate hv]
  | vacant hp hv =>
    rename_i result
    cases result <;> simp [cost, hp, closed, enter, sessionCost, Handle.queued_vacate hv]
  | settle hp =>
    rename_i result
    cases result <;> simp [cost, hp, enter, sessionCost, Handle.queued_settle]
  | release hp =>
    rename_i result
    cases result <;> simp [cost, hp, closed, enter, sessionCost, Handle.queued_release]
  | disconnect hp => simp [cost, hp, enter, sessionCost]
  | finish hp => simp [cost, hp, enter, sessionCost, Handle.queued, Handle.post]

/-- In whatever order the two sides move, they come to rest. -/
def Settles (host : Host σ τ) (sys : System σ τ) : Prop :=
  Acc (fun after before => ∃ side, step host side before = some after) sys

theorem settles (host : Host σ τ) (sys : System σ τ) : sys.Settles host := by
  have hlt {before after : System σ τ} (h : ∃ side, step host side before = some after) :
      after.cost < before.cost := by
    obtain ⟨side, h⟩ := h
    cases side with
    | session => exact cost_lt_of_sessionStep (sessionStep_of_step h)
    | thread => exact cost_lt_of_threadStep (threadStep_of_step h)
  exact Subrelation.accessible hlt (InvImage.accessible cost (Nat.lt_wfRel.wf.apply _))

end System

end DebugAdapter
