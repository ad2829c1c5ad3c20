import DebugAdapter.Proofs.Inspection.Eager
import DebugAdapter.Proofs.Session.Recorder

/-!
# A question is never left on its bridge

While the session waits for a reply, the thread is parked at the stop that was asked about and has
the question in its batch or finds it on its bridge: `Parked`. With an interpreter that answers, the
thread stays `Able` to move on. So a system at rest does not wait for a reply.
-/

namespace DebugAdapter

open Protocol

variable {σ τ : Type} {host : Host σ τ} {sys sys' : System σ τ}

-- ---------------------------------------------------------------------------
-- A thread whose interpreter answers
-- ---------------------------------------------------------------------------

section

variable {it : Interpreter σ}

theorem ensures_depth : Ensures it.Returns it.depth fun _ => True :=
  Interpreter.ensures_frames.bind fun _ _ => .pure trivial

theorem ensures_stepStop (goal : Option StepGoal) (e : ExecutionEvent) :
    Ensures it.Returns (Debugger.stepStop it goal e) fun _ => True := by
  unfold Debugger.stepStop
  split
  · exact ensures_depth.bind fun _ _ => .pure trivial
  · exact .pure trivial

theorem ensures_goalAfter (decision : Decision) (e : ExecutionEvent) :
    Ensures it.Returns (Debugger.goalAfter it decision e) fun _ => True := by
  unfold Debugger.goalAfter
  split
  · exact .pure trivial
  · exact .pure trivial
  all_goals exact ensures_depth.bind fun _ _ => .pure trivial

theorem Ensures.not_error {S α : Type} {I : S → Prop} {m : ExceptT Fault (StateM S) α}
    {Q : α → Prop} (hm : Ensures I m Q) {s s' : S} {fault : Fault} (hs : I s) :
    m s ≠ (.error fault, s') := by
  intro h
  obtain ⟨a, s'', hm, -⟩ := hm s hs
  cases hm.symm.trans h

end

def Item.state : Item σ → σ
  | .event _ s | .stop _ s => s

/-- The interpreter answers in the state of a phase, and no link of its graph dangles. -/
def Thread.Phase.Able (it : Interpreter σ) : Thread.Phase σ → Prop
  | .idle => True
  | .hooked _ s | .matching _ _ s | .disarming _ _ s | .leaving _ _ s | .resumed _ _ s =>
    it.Returns s
  | .installing _ _ g s | .announcing _ _ _ g s | .serving _ _ _ g s => it.Returns s ∧ g.Closed
  | .dead _ => False

structure System.Able (host : Host σ τ) (sys : System σ τ) : Prop where
  phase : sys.thread.phase.Able host.interpreter
  program : ∀ item ∈ sys.thread.program, host.interpreter.Returns item.state

theorem Question.answer_returns {it : Interpreter σ} {g g' : StackGraph} {s s' : σ}
    {question : Question} {r : Except Fault (Except AdapterError Json)} (hs : it.Returns s)
    (hg : g.Closed) (h : question.answer it (g, s) = (r, g', s')) :
    (∃ reply, r = .ok reply) ∧ it.Returns s' ∧ g'.Closed := by
  obtain ⟨shown, st', hc⟩ : ∃ shown st', question.consult it (g, s) = (.ok shown, st') :=
    question.consult_returns hs hg
  have hgrow := Question.consult_grows hc
  rw [Question.answer_eq, hc] at h
  cases h
  exact ⟨⟨_, rfl⟩, hgrow.returns hs, (hgrow.closed_retains hg).1⟩

theorem System.Able.thread (h : sys.Able host) (hstep : ThreadStep host sys sys') :
    sys'.Able host := by
  obtain ⟨hphase, hprogram⟩ := h
  cases hstep with
  | event hp hpr =>
    rw [hpr] at hprogram
    exact ⟨hprogram _ List.mem_cons_self, fun item hi => hprogram item (List.mem_cons_of_mem _ hi)⟩
  | stop hp hpr =>
    rw [hpr] at hprogram
    exact ⟨⟨hprogram _ List.mem_cons_self, StackGraph.closed_new⟩,
      fun item hi => hprogram item (List.mem_cons_of_mem _ hi)⟩
  | free hp => exact ⟨trivial, hprogram⟩
  | look hp => rw [hp] at hphase; exact ⟨hphase, hprogram⟩
  | hit hp => rw [hp] at hphase; exact ⟨hphase, hprogram⟩
  | meet hp _ hm =>
    rw [hp] at hphase
    exact ⟨((ensures_stepStop _ _).of_ok hphase hm).1, hprogram⟩
  | miss => exact ⟨trivial, hprogram⟩
  | matchFault hp hm =>
    rw [hp] at hphase
    exact absurd hm ((ensures_stepStop _ _).not_error hphase)
  | disarm hp => rw [hp] at hphase; exact ⟨⟨hphase, StackGraph.closed_new⟩, hprogram⟩
  | turnAway hp => rw [hp] at hphase; exact ⟨hphase.1, hprogram⟩
  | install hp => rw [hp] at hphase; exact ⟨hphase, hprogram⟩
  | announce hp => rw [hp] at hphase; exact ⟨hphase, hprogram⟩
  | reply hp ha =>
    rw [hp] at hphase
    exact ⟨(Question.answer_returns hphase.1 hphase.2 ha).2, hprogram⟩
  | serveFault hp ha =>
    rw [hp] at hphase
    obtain ⟨reply, hr⟩ := (Question.answer_returns hphase.1 hphase.2 ha).1
    cases hr
  | take hp => rw [hp] at hphase; exact ⟨hphase, hprogram⟩
  | depart hp =>
    rw [hp] at hphase
    exact ⟨hphase.1, by simpa only [move, program_handBack] using hprogram⟩
  | leave hp => rw [hp] at hphase; exact ⟨hphase, hprogram⟩
  | hand => exact ⟨trivial, hprogram⟩
  | resume => exact ⟨trivial, hprogram⟩
  | resumeFault hp hg =>
    rw [hp] at hphase
    exact absurd hg ((ensures_goalAfter _ _).not_error hphase)

namespace System

theorem Able.session (h : sys.Able host) (hstep : SessionStep host sys sys') : sys'.Able host := by
  obtain ⟨hphase, hprogram⟩ := h
  rw [← hstep.thread_eq] at hphase hprogram
  exact ⟨hphase, hprogram⟩

-- ---------------------------------------------------------------------------
-- Bridges that take questions
-- ---------------------------------------------------------------------------

end System

namespace Handle

variable {h h' : Handle} {stop i : Nat}

def Takes (h : Handle) (i : Nat) : Prop :=
  ∃ s, h.stops[i]? = some s ∧ s.bridge.disposed = false

def Waits (h : Handle) (i : Nat) : Prop :=
  ∃ s, h.stops[i]? = some s ∧ s.bridge.queue ≠ []

theorem takes_of_revise {f : Stop → Stop} (ht : (h.revise stop f).Takes i)
    (hf : ∀ s, (f s).bridge.disposed = false → s.bridge.disposed = false) : h.Takes i := by
  obtain ⟨s, hs, hd⟩ := ht
  simp only [revise, List.getElem?_modify, Option.map_eq_map, Option.map_eq_some_iff] at hs
  obtain ⟨s, hs, rfl⟩ := hs
  refine ⟨s, hs, ?_⟩
  split at hd
  · exact hf s hd
  · exact hd

theorem takes_of_schedule {question : Question} (hs : h.schedule stop question = .ok h') :
    h.Takes stop ∧ h'.Waits stop ∧ ∀ i, h'.Takes i → h.Takes i := by
  unfold schedule at hs
  cases hstop : h.stops[stop]? with
  | none =>
    simp only [hstop] at hs
    cases hs
  | some s =>
    simp only [hstop, Bridge.schedule] at hs
    split at hs
    · cases hs
    · rename_i hd
      cases hs
      have hd := Bool.eq_false_iff.2 hd
      have htakes : h.Takes stop := ⟨s, hstop, hd⟩
      refine ⟨htakes, ⟨{ s with bridge := { s.bridge with queue := s.bridge.queue ++ [question] } },
        ?found, ?queued⟩, ?takes⟩
      case found => simp [revise, hstop]
      case queued => simp
      case takes =>
        rintro i ⟨s', hs', hd'⟩
        by_cases hi : stop = i
        · exact hi ▸ htakes
        · refine ⟨s', ?_, hd'⟩
          simpa [revise, List.getElem?_modify, hi] using hs'

theorem takes_of_decide {decision : Decision} (hd : h.decide stop decision = .ok h')
    (ht : h'.Takes i) : h.Takes i := by
  unfold decide at hd
  split at hd
  · cases hd
  · cases hd
    exact takes_of_revise ht fun _ => id

theorem takes_of_release (ht : (h.release stop).Takes i) : h.Takes i :=
  takes_of_revise ht fun _ h => by cases h

theorem takes_of_settle (ht : (h.settle stop).Takes i) : h.Takes i :=
  takes_of_revise ht fun _ => id

theorem takes_of_vacate {active : Option Nat} (hv : h.vacate = (active, h')) (ht : h'.Takes i) :
    h.Takes i := by
  unfold vacate at hv
  cases hv
  exact ht

theorem takes_of_leave {decision : Decision} (hl : h.leave stop = (decision, h'))
    (ht : h'.Takes i) : h.Takes i := by
  unfold leave at hl
  cases hl
  split at ht <;> exact ht

theorem takes_of_install (hi : h.install = some (stop, h')) (ht : h'.Takes i) :
    i = stop ∨ h.Takes i := by
  obtain ⟨-, rfl, rfl⟩ := install_eq_some hi
  obtain ⟨s, hs, hd⟩ := ht
  rcases Nat.lt_trichotomy i h.stops.length with hlt | heq | hgt
  · exact .inr ⟨s, by simpa [List.getElem?_append_left hlt] using hs, hd⟩
  · exact .inl heq
  · rw [List.getElem?_eq_none (by simp; omega)] at hs
    cases hs

theorem takes_of_take {turn : Bridge.Turn Question} (ht : h.take stop = (turn, h'))
    (hi : h'.Takes i) : h.Takes i := by
  obtain ⟨-, -, rfl⟩ | ⟨s, hs, -, rfl⟩ := take_eq ht
  · exact hi
  · obtain ⟨s', hs', hd⟩ := hi
    by_cases hstop : stop = i
    · subst hstop
      simp [revise, hs] at hs'
      subst hs'
      refine ⟨s, hs, ?_⟩
      obtain ⟨-, htake⟩ | ⟨-, htake⟩ := s.bridge.take_cases
      · simpa only [htake] using hd
      · simpa only [htake] using hd
    · refine ⟨s', ?_, hd⟩
      simpa [revise, List.getElem?_modify, hstop] using hs'

theorem done_of_take_leave (ht : h.take stop = (.leave, h')) :
    ¬ h.Takes stop ∧ ¬ h.Waits stop := by
  obtain ⟨hnone, -, -⟩ | ⟨s, hs, hturn, -⟩ := take_eq ht
  · constructor
    · rintro ⟨s, hs, -⟩
      cases hnone.symm.trans hs
    · rintro ⟨s, hs, -⟩
      cases hnone.symm.trans hs
  · obtain ⟨hq, htake⟩ | ⟨-, htake⟩ := s.bridge.take_cases
    · rw [htake] at hturn
      dsimp only at hturn
      split at hturn
      · rename_i hd
        constructor
        · rintro ⟨s', hs', hd'⟩
          cases hs.symm.trans hs'
          cases hd.symm.trans hd'
        · rintro ⟨s', hs', hq'⟩
          cases hs.symm.trans hs'
          exact hq' hq
      · cases hturn
    · rw [htake] at hturn
      cases hturn

theorem take_ne_wait (hw : h.Waits stop) : h.take stop ≠ (.wait, h') := by
  intro ht
  obtain ⟨-, hturn, -⟩ | ⟨s, hs, hturn, -⟩ := take_eq ht
  · cases hturn
  · obtain ⟨s', hs', hq⟩ := hw
    cases hs.symm.trans hs'
    obtain ⟨hq', -⟩ | ⟨-, htake⟩ := s.bridge.take_cases
    · exact hq hq'
    · rw [htake] at hturn
      cases hturn

end Handle

-- ---------------------------------------------------------------------------
-- The parked thread
-- ---------------------------------------------------------------------------

/-- The stop at which a thread is parked, and what is left of its batch. -/
def Thread.Phase.parkedAt? : Thread.Phase σ → Option (Nat × List Question)
  | .announcing _ _ stop _ _ => some (stop, [])
  | .serving _ stop batch _ _ => some (stop, batch)
  | .idle | .hooked .. | .matching .. | .disarming .. | .installing .. | .leaving .. | .resumed ..
  | .dead _ => none

namespace System

/-- A stop that takes questions has its thread parked there, and while the session waits for a
reply the thread has something to do. -/
structure Parked (sys : System σ τ) : Prop where
  taking : ∀ i, sys.handle.Takes i → ∃ batch, sys.thread.phase.parkedAt? = some (i, batch)
  owing : ∀ r, sys.session.phase = .awaiting r → sys.reply = none →
    ∃ i batch, sys.thread.phase.parkedAt? = some (i, batch) ∧ (batch ≠ [] ∨ sys.handle.Waits i)

theorem parked_start (debugger : Debugger) (target : τ) (program : List (Item σ)) :
    (start debugger target program).Parked where
  taking i h := by
    obtain ⟨s, hs, -⟩ := h
    cases hs
  owing r h := by cases h

theorem Parked.not_resting (h : sys.Parked) {r : Request} (hp : sys.session.phase = .awaiting r)
    (hr : sys.reply = none) : sys.stepThread host ≠ none := by
  obtain ⟨i, batch, hat, hwork⟩ := h.owing r hp hr
  cases ht : sys.thread.phase with
  | announcing origin body stop g s => simp [stepThread, ht]
  | serving origin stop batch g s =>
    rw [ht] at hat
    cases hat
    cases batch with
    | cons question batch => simp [stepThread, ht]
    | nil =>
      have hw := hwork.resolve_left fun h => h rfl
      simp only [stepThread, ht]
      split
      · exact absurd ‹_› (Handle.take_ne_wait hw)
      · exact Option.some_ne_none _
      · exact Option.some_ne_none _
  | _ =>
    rw [ht] at hat
    cases hat

theorem SessionStep.takes (h : SessionStep host sys sys') {i : Nat} (hi : sys'.handle.Takes i) :
    sys.handle.Takes i := by
  cases h with
  | takeUp hp =>
    obtain ⟨debugger, target, disconnected, phase, heq, -, -⟩ := takeUp_cases host sys _
    rw [heq] at hi
    exact hi
  | schedule _ hs => exact (Handle.takes_of_schedule hs).2.2 i hi
  | decide _ hd => exact Handle.takes_of_decide hd hi
  | letGo => exact Handle.takes_of_release hi
  | vacate _ hv => exact Handle.takes_of_vacate hv hi
  | vacant _ hv =>
    rw [handle_closed] at hi
    exact Handle.takes_of_vacate hv hi
  | settle => exact Handle.takes_of_settle hi
  | release =>
    rw [handle_closed] at hi
    exact Handle.takes_of_release hi
  | _ => exact hi

theorem SessionStep.awaits (h : SessionStep host sys sys') {r : Request}
    (hr : sys'.session.phase = .awaiting r) :
    ∃ stop, sys.handle.Takes stop ∧ sys'.handle.Waits stop := by
  cases h with
  | skip hp => cases hp.symm.trans hr
  | takeUp hp =>
    obtain ⟨debugger, target, disconnected, phase, heq, -, hphase⟩ := takeUp_cases host sys _
    rw [heq] at hr
    dsimp only at hr
    rw [hr] at hphase
    cases hphase
  | schedule _ hs =>
    obtain ⟨ht, hw, -⟩ := Handle.takes_of_schedule hs
    exact ⟨_, ht, hw⟩
  | @vacant _ result => cases result <;> cases hr
  | @release _ result => cases result <;> cases hr
  | _ => cases hr

theorem Parked.session (h : sys.Parked) (hstep : SessionStep host sys sys') : sys'.Parked := by
  obtain ⟨htaking, -⟩ := h
  rw [← hstep.thread_eq] at htaking
  refine ⟨fun i hi => htaking i (hstep.takes hi), fun r hr _ => ?_⟩
  obtain ⟨stop, ht, hw⟩ := hstep.awaits hr
  obtain ⟨batch, hat⟩ := htaking stop ht
  exact ⟨stop, batch, hat, .inr hw⟩

theorem Parked.nowhere (h : sys.Parked) (hp : sys.thread.phase.parkedAt? = none) :
    (∀ i, ¬ sys.handle.Takes i) ∧ ∀ r, sys.session.phase = .awaiting r → sys.reply ≠ none := by
  obtain ⟨htaking, howing⟩ := h
  constructor
  · intro i hi
    obtain ⟨batch, hat⟩ := htaking i hi
    cases hp.symm.trans hat
  · intro r hr hn
    obtain ⟨i, batch, hat, -⟩ := howing r hr hn
    cases hp.symm.trans hat

theorem Parked.of_nowhere (ht : ∀ i, ¬ sys.handle.Takes i)
    (hr : ∀ r, sys.session.phase = .awaiting r → sys.reply ≠ none) : sys.Parked :=
  ⟨fun i hi => absurd hi (ht i), fun r hp hn => absurd hn (hr r hp)⟩

theorem Parked.thread_of_alive (h : sys.Parked) (hstep : ThreadStep host sys sys')
    (halive : ∀ s, sys'.thread.phase ≠ .dead s) : sys'.Parked := by
  cases hstep with
  | event hp | stop hp | free hp | look hp | hit hp | meet hp | miss hp | matchFault hp | disarm hp
    | turnAway hp | hand hp | resume hp | resumeFault hp =>
    obtain ⟨ht, hr⟩ := h.nowhere (by rw [hp]; rfl)
    exact .of_nowhere ht hr
  | leave hp hl =>
    obtain ⟨ht, hr⟩ := h.nowhere (by rw [hp]; rfl)
    exact .of_nowhere (fun i hi => ht i (Handle.takes_of_leave hl hi)) hr
  | install hp hi =>
    obtain ⟨ht, hr⟩ := h.nowhere (by rw [hp]; rfl)
    refine ⟨fun i hi' => ⟨[], ?_⟩, fun r hp hn => absurd hn (hr r hp)⟩
    obtain rfl := (Handle.takes_of_install hi hi').resolve_right (ht i)
    rfl
  | announce hp =>
    obtain ⟨htaking, howing⟩ := h
    rw [hp] at htaking howing
    exact ⟨htaking, howing⟩
  | reply hp =>
    obtain ⟨htaking, -⟩ := h
    rw [hp] at htaking
    refine ⟨fun i hi => ?_, nofun⟩
    obtain ⟨batch, hat⟩ := htaking i hi
    cases hat
    exact ⟨_, rfl⟩
  | take hp ht =>
    obtain ⟨htaking, -⟩ := h
    rw [hp] at htaking
    refine ⟨fun i hi => ?_, fun r hr hn => ⟨_, _, rfl, .inl (Handle.queued_take_work ht).1⟩⟩
    obtain ⟨batch, hat⟩ := htaking i (Handle.takes_of_take ht hi)
    cases hat
    exact ⟨_, rfl⟩
  | depart hp ht =>
    obtain ⟨htaking, howing⟩ := h
    rw [hp] at htaking howing
    obtain ⟨hclosed, hempty⟩ := Handle.done_of_take_leave ht
    refine .of_nowhere (fun i hi => ?taking) fun r hr hn => ?owing
    case taking =>
      have hi := Handle.takes_of_take ht (by simpa using hi)
      obtain ⟨batch, hat⟩ := htaking i hi
      cases hat
      exact hclosed hi
    case owing =>
      obtain ⟨i, batch, hat, hwork⟩ := howing r (by simpa using hr) (by simpa using hn)
      cases hat
      exact hempty (hwork.resolve_left fun h => h rfl)
  | serveFault => exact absurd rfl (halive _)

theorem ThreadStep.alive (h : ThreadStep host sys sys') : ∀ s, sys.thread.phase ≠ .dead s := by
  intro s hp
  cases h with
  | event hp' | stop hp' | free hp' | look hp' | hit hp' | meet hp' | miss hp' | matchFault hp'
    | disarm hp' | turnAway hp' | install hp' | announce hp' | reply hp' | serveFault hp' | take hp'
    | depart hp' | leave hp' | hand hp' | resume hp' | resumeFault hp' => cases hp.symm.trans hp'

theorem Parked.thread (h : sys.Parked) (hable : sys.Able host) (hstep : ThreadStep host sys sys') :
    sys'.Parked := by
  refine h.thread_of_alive hstep fun s hdead => ?_
  have hphase := (hable.thread hstep).phase
  rw [hdead] at hphase
  exact hphase

-- ---------------------------------------------------------------------------
-- Moves
-- ---------------------------------------------------------------------------

/-- Up to a fault, the thread is parked where the bridge of a stop takes questions. -/
theorem parked_of_alive (host : Host σ τ) (debugger : Debugger) (target : τ)
    (program : List (Item σ)) (moves : List Move)
    (h : ∀ s, ((start debugger target program).run host moves).thread.phase ≠ .dead s) :
    ((start debugger target program).run host moves).Parked := by
  revert h
  refine (recorder host).run_keeps (P := fun sys => (∀ s, sys.thread.phase ≠ .dead s) → sys.Parked)
    ?arrive ?hangUp ?session ?thread (fun _ => parked_start debugger target program) moves
  case arrive =>
    intro sys arrivals h
    show (∀ s, (sys.play host (.arrive arrivals)).thread.phase ≠ .dead s) →
      (sys.play host (.arrive arrivals)).Parked
    rw [play_arrive]
    exact fun halive => ⟨(h halive).taking, (h halive).owing⟩
  case hangUp => exact fun h halive => ⟨(h halive).taking, (h halive).owing⟩
  case session =>
    intro sys h hstep halive
    have hthread : ((recorder host).play sys (.step .session)).thread = sys.thread :=
      hstep.thread_eq
    exact (h (hthread ▸ halive)).session hstep
  case thread => exact fun h hstep halive => (h hstep.alive).thread_of_alive hstep halive

theorem able_start {program : List (Item σ)}
    (h : ∀ item ∈ program, host.interpreter.Returns item.state) (debugger : Debugger) (target : τ) :
    (start debugger target program).Able host :=
  ⟨trivial, h⟩

theorem parked_run {program : List (Item σ)}
    (h : ∀ item ∈ program, host.interpreter.Returns item.state) (debugger : Debugger) (target : τ)
    (moves : List Move) : ((start debugger target program).run host moves).Parked := by
  have hkept : ((start debugger target program).run host moves).Able host ∧
      ((start debugger target program).run host moves).Parked := by
    refine (recorder host).run_keeps (P := fun sys => sys.Able host ∧ sys.Parked) ?arrive ?hangUp
      ?session ?thread ⟨able_start h debugger target, parked_start debugger target program⟩ moves
    case arrive =>
      rintro sys arrivals ⟨hable, hpark⟩
      show (sys.play host (.arrive arrivals)).Able host ∧ (sys.play host (.arrive arrivals)).Parked
      rw [play_arrive]
      exact ⟨⟨hable.phase, hable.program⟩, ⟨hpark.taking, hpark.owing⟩⟩
    case hangUp =>
      rintro sys ⟨hable, hpark⟩
      exact ⟨⟨hable.phase, hable.program⟩, ⟨hpark.taking, hpark.owing⟩⟩
    case session =>
      rintro sys ⟨hable, hpark⟩ hstep
      exact ⟨hable.session hstep, hpark.session hstep⟩
    case thread =>
      rintro sys ⟨hable, hpark⟩ hstep
      exact ⟨hable.thread hstep, hpark.thread hable hstep⟩
  exact hkept.2

end System

end DebugAdapter
