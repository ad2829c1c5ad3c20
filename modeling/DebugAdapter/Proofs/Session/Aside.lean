import DebugAdapter.Proofs.Session.Faults
import DebugAdapter.Proofs.Inspection.Numbers

/-!
# Beside a request

What a request does is seen beside the run that leaves it alone: the same moves without those of
the session. As long as the request has not been granted, the two systems differ by the place where
the request is, by the question that it has put to the thread, and by the reply to it.
-/

namespace DebugAdapter

open Protocol Journal

variable {σ τ : Type} {host : Host σ τ} {sys sys' aside : System σ τ} {J : List Entry}
  {r : Request}

-- ---------------------------------------------------------------------------
-- Questions that are refused
-- ---------------------------------------------------------------------------

namespace StackGraph

variable {it : Interpreter σ} {st st' : StackGraph × σ} {e : AdapterError}

theorem scopes_refused {id : UInt32} (h : scopes it id st = (.ok (.error e), st')) : st' = st := by
  obtain ⟨g, s⟩ := st
  obtain ⟨_, _, hg, h⟩ := bind_eq_ok.1 h
  cases hg
  cases hf : g.frame? id with
  | none =>
    rw [hf] at h
    cases h
    rfl
  | some f =>
    simp only [hf] at h
    cases hn : f.locals with
    | some root =>
      rw [hn] at h
      cases h
    | none =>
      simp only [hn] at h
      obtain ⟨names, _, -, h⟩ := bind_eq_ok.1 h
      cases names with
      | none => cases h
      | some names =>
        obtain ⟨_, _, -, h⟩ := bind_eq_ok.1 h
        cases h

theorem variablesOf_refused {args : VariablesArguments}
    (h : variablesOf it args st = (.ok (.error e), st')) : st' = st := by
  obtain ⟨g, s⟩ := st
  obtain ⟨_, _, hg, h⟩ := bind_eq_ok.1 h
  cases hg
  cases he : g.arena[args.variablesReference]? with
  | none =>
    rw [he] at h
    cases h
    rfl
  | some entry =>
    simp only [he] at h
    obtain ⟨_, _, -, h⟩ := bind_eq_ok.1 h
    obtain ⟨_, _, -, h⟩ := bind_eq_ok.1 h
    obtain ⟨_, _, -, h⟩ := bind_eq_ok.1 h
    cases h

end StackGraph

/-- A number that is not known is refused before anything is looked up. -/
theorem Question.answer_refused {it : Interpreter σ} {st st' : StackGraph × σ}
    {e : AdapterError} {q : Question} (h : q.answer it st = (.ok (.error e), st')) : st' = st := by
  cases q with
  | stackTrace args =>
    obtain ⟨_, _, -, h⟩ := bind_eq_ok.1 h
    cases h
  | scopes args =>
    obtain ⟨found, _, hr, h⟩ := bind_eq_ok.1 h
    cases found with
    | ok => cases h
    | error =>
      cases h
      exact StackGraph.scopes_refused hr
  | values args =>
    obtain ⟨found, _, hr, h⟩ := bind_eq_ok.1 h
    cases found with
    | ok => cases h
    | error =>
      cases h
      exact StackGraph.variablesOf_refused hr

-- ---------------------------------------------------------------------------
-- A question on its way
-- ---------------------------------------------------------------------------

namespace Handle

variable {h h' : Handle} {stop : Nat} {q : Question}

theorem schedule_post (m : Outgoing) (hs : h.schedule stop q = .ok h') :
    (h.post m).schedule stop q = .ok (h'.post m) := by
  unfold schedule at hs ⊢
  rw [post]
  dsimp only
  split at hs
  · cases hs
  · rename_i s _
    simp only [Bridge.schedule] at hs ⊢
    split at hs
    · cases hs
    · rename_i hd
      cases hs
      rw [if_neg hd]
      rfl

theorem revise_revise (f g : Stop → Stop) :
    (h.revise stop f).revise stop g = h.revise stop (g ∘ f) := by
  rw [revise, revise, revise, List.modify_modify_eq]

theorem revise_eq_self {f : Stop → Stop} {s : Stop} (hs : h.stops[stop]? = some s) (hf : f s = s) :
    h.revise stop f = h := by
  have hstops : h.stops.modify stop f = h.stops := by
    refine List.ext_getElem? fun i => ?_
    rw [List.getElem?_modify]
    split
    · rename_i hi
      rw [← hi, hs]
      exact congrArg some hf
    · exact Option.map_id'
  rw [revise, hstops]

theorem take_schedule (hs : h.schedule stop q = .ok h') (hq : h.queueAt stop = []) :
    h'.take stop = (.work [q], h) ∧ (h.take stop).1 = .wait := by
  unfold schedule at hs
  split at hs
  · cases hs
  · rename_i s hget
    simp only [Bridge.schedule] at hs
    split at hs
    · cases hs
    · rename_i hd
      cases hs
      have hempty : s.bridge.queue = [] := by simpa [queueAt, hget] using hq
      constructor
      case left =>
        simp only [take, getElem?_revise, hget, hempty, Option.map_some, List.nil_append, if_true,
          Bridge.take, revise_revise]
        rw [revise_eq_self hget (by simp [← hempty])]
      case right =>
        simp only [take, hget, Bridge.take, hempty]
        exact if_neg hd

end Handle

-- ---------------------------------------------------------------------------
-- The thread
-- ---------------------------------------------------------------------------

namespace System

def beside (sys : System σ τ) (phase : Session.Phase) (target : τ)
    (reply : Option (Except AdapterError Json)) : System σ τ :=
  { sys with session := { sys.session with phase := phase }, target := target, reply := reply }

theorem debugger_beside (phase : Session.Phase) (target : τ)
    (reply : Option (Except AdapterError Json)) :
    (sys.beside phase target reply).debugger = sys.debugger := rfl

theorem stepThread_beside (hb : sys.thread.phase.batch = []) (session : Session) (target : τ)
    (reply : Option (Except AdapterError Json)) :
    stepThread host { sys with session := session, target := target, reply := reply } =
      (sys.stepThread host).map fun next =>
        { next with session := session, target := target, reply := reply } := by
  unfold stepThread
  dsimp only
  cases hp : sys.thread.phase with
  | idle =>
    dsimp only
    split
    · rfl
    · split <;> rfl
  | hooked | installing =>
    dsimp only
    split <;> rfl
  | matching e goal s =>
    dsimp only
    split
    · rfl
    · split <;> rfl
  | serving origin stop batch g s =>
    rw [hp] at hb
    cases batch with
    | nil =>
      dsimp only
      split
      · rfl
      · rfl
      · cases origin <;> rfl
    | cons question batch => cases hb
  | resumed origin decision s =>
    cases origin with
    | direct => rfl
    | debugger e =>
      dsimp only
      split <;> rfl
  | _ => rfl

theorem play_thread_outside (host : Host σ τ) (hb : sys.thread.phase.batch = []) :
    (sys.play host (.step .thread)).target = sys.target ∧
      (sys.play host (.step .thread)).reply = sys.reply := by
  have hself : sys.stepThread host = (sys.stepThread host).map fun next =>
      { next with session := sys.session, target := sys.target, reply := sys.reply } :=
    stepThread_beside hb sys.session sys.target sys.reply
  cases hstep : sys.stepThread host with
  | none =>
    rw [@play_waiting _ _ _ _ .thread hstep]
    exact ⟨rfl, rfl⟩
  | some next =>
    rw [hstep, Option.map_some, Option.some.injEq] at hself
    rw [@play_step _ _ _ _ _ .thread hstep, hself]
    exact ⟨rfl, rfl⟩

theorem play_thread_beside (hb : sys.thread.phase.batch = []) (phase : Session.Phase) (target : τ)
    (reply : Option (Except AdapterError Json)) :
    (sys.beside phase target reply).play host (.step .thread) =
      (sys.play host (.step .thread)).beside phase target reply := by
  have hstep : (sys.beside phase target reply).stepThread host = _ :=
    stepThread_beside hb { sys.session with phase := phase } target reply
  rw [beside.eq_def (sys.play host (.step .thread)), session_play_thread]
  cases hnext : sys.stepThread host with
  | none =>
    rw [hnext] at hstep
    rw [@play_waiting _ _ _ _ .thread hstep, @play_waiting _ _ _ _ .thread hnext]
    rfl
  | some next =>
    rw [hnext] at hstep
    rw [@play_step _ _ _ _ _ .thread hstep, @play_step _ _ _ _ _ .thread hnext]

theorem stepThread_of_wait {origin : Origin} {stop : Nat} {g : StackGraph} {s : σ}
    (hp : sys.thread.phase = .serving origin stop [] g s)
    (hw : (sys.handle.take stop).1 = .wait) : sys.stepThread host = none := by
  unfold stepThread
  rw [hp]
  dsimp only
  split
  · rfl
  · rename_i ht
    rw [ht] at hw
    cases hw
  · rename_i ht
    rw [ht] at hw
    cases hw

theorem Kept.thread_of_queued (h : sys.Kept J) {stop : Nat} {q : Question}
    (hq : q ∈ sys.handle.queueAt stop) :
    (∃ origin body g s, sys.thread.phase = .announcing origin body stop g s) ∨
      (∃ origin g s, sys.thread.phase = .serving origin stop [] g s) ∨
      ∃ s, sys.thread.phase = .dead s := by
  obtain ⟨⟨r, hl⟩, -⟩ := h.asked stop q (.inl hq)
  have hplace := h.regular.place_of_active (h.regular.active_of_asked hl).1
  have hagrees := h.thread
  have hload := h.load
  cases hp : sys.thread.phase with
  | idle | hooked | matching | disarming | resumed =>
    rw [hp] at hagrees
    cases hagrees.place_eq.symm.trans hplace
  | installing =>
    rw [hp] at hagrees
    cases (placeIn_of_lastOf hagrees).symm.trans hplace
  | announcing origin body i g s =>
    rw [hp] at hagrees
    obtain ⟨place, hlast⟩ := hagrees
    cases (placeIn_of_lastOf hlast).symm.trans hplace
    exact .inl ⟨origin, body, g, s, rfl⟩
  | serving origin i batch g s =>
    rw [hp] at hagrees
    cases hagrees.place_eq.symm.trans hplace
    have hpos : 0 < sys.handle.queued := by
      rw [Nat.pos_iff_ne_zero]
      intro hz
      rw [Handle.queued_eq_zero.1 hz] at hq
      cases hq
    rw [System.load, hp] at hload
    change sys.handle.queued + batch.length ≤ 1 at hload
    cases List.length_eq_zero_iff.1 (by omega : batch.length = 0)
    exact .inr (.inl ⟨origin, g, s, rfl⟩)
  | leaving origin i s =>
    rw [hp] at hagrees
    cases hagrees.1.place_eq.symm.trans hplace
    exact absurd hagrees.2 (h.regular.not_released hl)
  | dead s => exact .inr (.inr ⟨s, rfl⟩)

end System

-- ---------------------------------------------------------------------------
-- The request
-- ---------------------------------------------------------------------------

/-- The phases of a request that has not come to anything yet. -/
inductive Looking (r : Request) : Session.Phase → Prop
  | handling : Looking r (.handling r)
  | asking {q : Question} : Demand.of? r = some (.ok (.inspect q)) → Looking r (.asking r q)
  | scheduling {q : Question} {stop : Nat} : Demand.of? r = some (.ok (.inspect q)) →
      Looking r (.scheduling r q stop)
  | resuming {d : Decision} : Looking r (.resuming r d)
  | deciding {d : Decision} {stop : Nat} : Looking r (.deciding r d stop)

/-- How a request fails, and what its failure makes of the target. -/
inductive Fails (host : Host σ τ) (r : Request) (target : τ) : Outcome → τ → Prop
  | unknown : Demand.of? r = none →
      Fails host r target { response := r.refuse "unsupported command" } target
  | refused (e : AdapterError) : Fails host r target (.refusal r e) target
  | start {mode : StartMode} {e : AdapterError} {target' : τ} :
      Demand.of? r = some (.ok .start) → host.start mode target = (.error e, target') →
      Fails host r target (.refusal r e) target'

/-- A question of the request kills the parked thread, which hands its counter back. -/
inductive Dies (host : Host σ τ) (r : Request) (aside : System σ τ) : System σ τ → Prop
  | intro {q : Question} {origin : Origin} {stop : Nat} {g g' : StackGraph} {s s' : σ}
      {fault : Fault} : Demand.of? r = some (.ok (.inspect q)) →
      aside.thread.phase = .serving origin stop [] g s → (aside.handle.take stop).1 = .wait →
      q.answer host.interpreter (g, s) = (.error fault, g', s') →
      Dies host r aside ((aside.handBack origin g').move (.dead s'))

inductive Granted (sys : System σ τ) : Prop
  | replied {r : Request} {body : Json} : sys.session.phase = .awaiting r →
      sys.reply = some (.ok body) → Granted sys
  | answering {o : Outcome} : sys.session.phase = .answering o → o.response.success = true →
      Granted sys

/-- What the request has made of the system that is there without it. -/
inductive Differs (host : Host σ τ) (r : Request) (aside : System σ τ) : System σ τ → Prop
  | looking {phase : Session.Phase} : Looking r phase →
      Differs host r aside (aside.beside phase aside.target aside.reply)
  | failed {o : Outcome} {target : τ} : Fails host r aside.target o target →
      Differs host r aside (aside.beside (.answering o) target aside.reply)
  | waiting {q : Question} {stop : Nat} {h : Handle} : Demand.of? r = some (.ok (.inspect q)) →
      aside.handle.schedule stop q = .ok h →
      Differs host r aside ({ aside with handle := h }.enter (.awaiting r))
  | taken {q : Question} {origin : Origin} {stop : Nat} {g : StackGraph} {s : σ} :
      Demand.of? r = some (.ok (.inspect q)) → aside.thread.phase = .serving origin stop [] g s →
      (aside.handle.take stop).1 = .wait →
      Differs host r aside ((aside.move (.serving origin stop [q] g s)).enter (.awaiting r))
  | replied (e : AdapterError) :
      Differs host r aside (aside.beside (.awaiting r) aside.target (some (.error e)))
  | died {dead : System σ τ} : Dies host r aside dead →
      Differs host r aside (dead.beside (.awaiting r) dead.target (some (.error .stopEnded)))
  | answered {dead : System σ τ} : Dies host r aside dead →
      Differs host r aside
        (dead.beside (.answering (.refusal r .stopEnded)) dead.target dead.reply)
  | granted {sys : System σ τ} : Granted sys → Differs host r aside sys

theorem Differs.refused (e : AdapterError) :
    Differs host r aside (aside.beside (.answering (.refusal r e)) aside.target aside.reply) :=
  .failed (.refused e)

-- ---------------------------------------------------------------------------
-- The session moves
-- ---------------------------------------------------------------------------

theorem Differs.takeUp (host : Host σ τ) (r : Request) (aside : System σ τ) :
    Differs host r aside
      ((aside.beside (.handling r) aside.target aside.reply).takeUp host r) := by
  unfold System.takeUp
  split
  · rename_i hd
    exact .failed (.unknown hd)
  · exact .refused _
  · rename_i demand hd
    cases demand with
    | inspect q => exact .looking (.asking hd)
    | resume d => exact .looking .resuming
    | capabilities | disconnect | setLines | setCalls | threads | pause =>
      exact .granted (.answering rfl rfl)
    | chooseStart mode =>
      simp only [System.fulfil]
      split
      · exact .granted (.answering rfl rfl)
      · exact .refused _
    | start =>
      simp only [System.fulfil]
      split
      · exact .refused _
      · split
        · exact .granted (.answering rfl rfl)
        · rename_i hs
          exact .failed (.start hd hs)

theorem Dies.reply_eq {dead : System σ τ} (h : Dies host r aside dead) :
    dead.reply = aside.reply := by
  cases h
  exact System.reply_handBack _ _

theorem Differs.session (h : Differs host r aside sys) (hr : aside.reply = none)
    (hstep : sys.stepSession host = some sys')
    (hnot : ∀ o, sys.session.phase ≠ .answering o) : Differs host r aside sys' := by
  cases h with
  | looking hl =>
    cases hl with
    | handling =>
      cases hstep
      exact .takeUp host r aside
    | asking hd =>
      simp only [System.stepSession, System.beside] at hstep
      split at hstep
      · cases hstep
        exact .looking (.scheduling hd)
      · cases hstep
        exact .refused _
    | scheduling hd =>
      simp only [System.stepSession, System.beside] at hstep
      split at hstep
      · rename_i hs
        cases hstep
        exact .waiting hd hs
      · cases hstep
        exact .refused _
    | resuming =>
      simp only [System.stepSession, System.beside] at hstep
      split at hstep
      · cases hstep
        exact .looking .deciding
      · cases hstep
        exact .refused _
    | deciding =>
      simp only [System.stepSession, System.beside] at hstep
      split at hstep
      · cases hstep
        exact .granted (.answering rfl rfl)
      · cases hstep
        exact .refused _
  | failed | answered => exact absurd rfl (hnot _)
  | waiting | taken =>
    simp only [System.stepSession, System.enter, System.move, hr] at hstep
    cases hstep
  | replied e =>
    cases hstep
    have hrefused : Differs host r aside _ := .refused e
    rw [hr] at hrefused
    exact hrefused
  | died hdead =>
    cases hstep
    have hanswered : Differs host r aside _ := .answered hdead
    rw [hdead.reply_eq, hr] at hanswered
    exact hanswered
  | granted hg =>
    cases hg with
    | replied hp hreply =>
      simp only [System.stepSession, hp, hreply] at hstep
      cases hstep
      exact .granted (.answering rfl rfl)
    | answering hp => exact absurd hp (hnot _)

-- ---------------------------------------------------------------------------
-- The thread moves
-- ---------------------------------------------------------------------------

theorem Granted.thread (h : Granted sys) (hkept : sys.Kept J) :
    Granted (sys.play host (.step .thread)) := by
  have hsession := System.session_play_thread host sys
  cases h with
  | answering hp ho => exact .answering (by rw [hsession]; exact hp) ho
  | @replied r body hp hreply =>
    have hb : sys.thread.phase.batch = [] := by
      refine List.eq_nil_iff_forall_not_mem.2 fun q hq => ?_
      obtain ⟨stop, hpending⟩ := System.exists_pending hq
      have hreply' := hkept.reply
      rw [hreply, hp] at hreply'
      cases hreply'.trans (hkept.asked stop q hpending).2
    exact .replied (by rw [hsession]; exact hp)
      ((System.play_thread_outside host hb).2.trans hreply)

theorem System.play_of_wait {origin : Origin} {stop : Nat} {g : StackGraph} {s : σ}
    (hp : sys.thread.phase = .serving origin stop [] g s)
    (hw : (sys.handle.take stop).1 = .wait) : sys.play host (.step .thread) = sys :=
  System.play_waiting (System.stepThread_of_wait hp hw)

theorem Differs.serve {q : Question} {origin : Origin} {stop : Nat} {g : StackGraph} {s : σ}
    (hd : Demand.of? r = some (.ok (.inspect q)))
    (hp : aside.thread.phase = .serving origin stop [] g s)
    (hw : (aside.handle.take stop).1 = .wait) :
    Differs host r aside
      (((aside.move (.serving origin stop [q] g s)).enter (.awaiting r)).serve host origin stop q []
        g s) := by
  unfold System.serve
  split
  · rename_i reply g' s' ha
    cases reply with
    | ok body => exact .granted (.replied rfl rfl)
    | error e =>
      cases Question.answer_refused ha
      have hself : aside.move (.serving origin stop [] g s) = aside := by
        rw [← hp]
        rfl
      have hreplied : Differs host r aside _ := .replied e
      rw [← hself] at hreplied ⊢
      exact hreplied
  · rename_i ha
    have hdied : Differs host r aside _ := .died (.intro hd hp hw ha)
    cases origin <;> exact hdied

theorem System.play_of_dead {s : σ} (hp : sys.thread.phase = .dead s) :
    sys.play host (.step .thread) = sys := by
  refine System.play_waiting ?_
  show sys.stepThread host = none
  rw [System.stepThread, hp]

theorem System.play_announcing {origin : Origin} {body : StoppedBody} {stop : Nat}
    {g : StackGraph} {s : σ} (hp : sys.thread.phase = .announcing origin body stop g s) :
    sys.play host (.step .thread) =
      { sys with handle := sys.handle.post (.event (System.stoppedEvent body)) }.move
        (.serving origin stop [] g s) := by
  refine System.play_step ?_
  show sys.stepThread host = _
  rw [System.stepThread, hp]
  rfl

theorem Dies.still {dead : System σ τ} (h : Dies host r aside dead) :
    aside.play host (.step .thread) = aside ∧ ∀ phase target reply,
      (dead.beside phase target reply).play host (.step .thread) =
        dead.beside phase target reply := by
  cases h with
  | intro _ hp hw =>
    exact ⟨System.play_of_wait hp hw, fun phase target reply => System.play_of_dead rfl⟩

theorem Differs.wait {q : Question} {stop : Nat} {h : Handle}
    (hd : Demand.of? r = some (.ok (.inspect q))) (hs : aside.handle.schedule stop q = .ok h)
    (hkept : System.Kept J ({ aside with handle := h }.enter (.awaiting r)))
    (hq : aside.handle.queued = 0) :
    Differs host r (aside.play host (.step .thread))
      (({ aside with handle := h }.enter (.awaiting r)).play host (.step .thread)) := by
  have hempty := Handle.queued_eq_zero.1 hq stop
  have hmem : q ∈ h.queueAt stop := by
    obtain ⟨-, -, -, -, -, hqueue⟩ := Handle.schedule_ok hs
    rw [hqueue, if_pos rfl, hempty]
    exact List.mem_singleton_self q
  obtain ⟨origin, body, g, s, hp⟩ | ⟨origin, g, s, hp⟩ | ⟨s, hp⟩ := hkept.thread_of_queued hmem
  · have hp' : aside.thread.phase = .announcing origin body stop g s := hp
    rw [System.play_announcing hp, System.play_announcing hp']
    exact .waiting hd (Handle.schedule_post _ hs)
  · obtain ⟨htake, hw⟩ := Handle.take_schedule hs hempty
    have hp' : aside.thread.phase = .serving origin stop [] g s := hp
    have hstep : System.stepThread host ({ aside with handle := h }.enter (.awaiting r)) =
        some ((aside.move (.serving origin stop [q] g s)).enter (.awaiting r)) := by
      rw [System.stepThread, hp]
      simp only [System.enter, htake]
      rfl
    rw [System.play_of_wait hp' hw, @System.play_step _ _ _ _ _ .thread hstep]
    exact .taken hd hp' hw
  · have hp' : aside.thread.phase = .dead s := hp
    rw [System.play_of_dead hp, System.play_of_dead hp']
    exact .waiting hd hs

theorem Differs.thread (h : Differs host r aside sys) (hkept : sys.Kept J)
    (hb : aside.thread.phase.batch = []) (hq : aside.handle.queued = 0) :
    Differs host r (aside.play host (.step .thread)) (sys.play host (.step .thread)) := by
  obtain ⟨htarget, hreply⟩ := System.play_thread_outside host hb
  cases h with
  | looking hl =>
    rw [System.play_thread_beside hb, ← htarget, ← hreply]
    exact .looking hl
  | failed hf =>
    rw [System.play_thread_beside hb, ← hreply]
    exact .failed (by rw [htarget]; exact hf)
  | replied e =>
    rw [System.play_thread_beside hb, ← htarget]
    exact .replied e
  | died hdead =>
    obtain ⟨haside, hstill⟩ := hdead.still
    rw [haside, hstill]
    exact .died hdead
  | answered hdead =>
    obtain ⟨haside, hstill⟩ := hdead.still
    rw [haside, hstill]
    exact .answered hdead
  | granted hg => exact .granted (hg.thread hkept)
  | waiting hd hs => exact .wait hd hs hkept hq
  | taken hd hp hw =>
    rw [System.play_of_wait hp hw]
    exact .serve hd hp hw

-- ---------------------------------------------------------------------------
-- Runs
-- ---------------------------------------------------------------------------

theorem Differs.arrive (h : Differs host r aside sys) (f : Packet.Reader → Packet.Reader) :
    Differs host r (aside.withReader (f aside.session.reader))
      (sys.withReader (f sys.session.reader)) := by
  have hdies {dead : System σ τ} (hd : Dies host r aside dead) :
      dead.session = aside.session ∧
        Dies host r (aside.withReader (f aside.session.reader))
          (dead.withReader (f aside.session.reader)) := by
    cases hd with
    | @intro _ origin _ _ _ _ _ _ hd hp hw ha =>
      have hdied := @Dies.intro _ _ host r (aside.withReader (f aside.session.reader)) _ _ _ _ _ _
        _ _ hd hp hw ha
      cases origin <;> exact ⟨rfl, hdied⟩
  cases h with
  | looking hl => exact .looking hl
  | failed hf => exact .failed hf
  | waiting hd hs => exact .waiting hd hs
  | taken hd hp hw => exact .taken hd hp hw
  | replied e => exact .replied e
  | @died dead hdead =>
    obtain ⟨hsession, hd⟩ := hdies hdead
    have hdied := Differs.died hd
    rw [← hsession] at hdied ⊢
    exact hdied
  | @answered dead hdead =>
    obtain ⟨hsession, hd⟩ := hdies hdead
    have hdied := Differs.answered hd
    rw [← hsession] at hdied ⊢
    exact hdied
  | granted hg =>
    cases hg with
    | replied hp hr => exact .granted (.replied hp hr)
    | answering hp ho => exact .granted (.answering hp ho)

def Move.isAside : Move → Bool
  | .step .session => false
  | .step .thread | .arrive _ | .hangUp => true

/-- One move, of which the other system only sees what is not the session's. -/
theorem Differs.play {c d : Journal σ τ} (h : Differs host r d.sys c.sys)
    (hc : c.sys.Kept c.entries) (hd : d.sys.Kept d.entries)
    (hp : d.sys.session.phase = .handling r) (move : Move)
    (hnone : ∀ o, .answered o ∉ (c.play host move).entries.drop c.entries.length) :
    Differs host r (d.run host ([move].filter Move.isAside)).sys (c.play host move).sys := by
  have hidle := hd.load_eq_zero (by rw [hp]; nofun)
  rw [System.load, Nat.add_eq_zero_iff] at hidle
  cases move with
  | arrive arrivals =>
    show Differs host r (d.sys.play host (.arrive arrivals)) (c.sys.play host (.arrive arrivals))
    rw [System.play_arrive, System.play_arrive]
    exact h.arrive (·.later arrivals false)
  | hangUp => exact h.arrive Packet.Reader.finish
  | step side =>
    cases side with
    | thread => exact h.thread hc (List.length_eq_zero_iff.1 hidle.2) hidle.1
    | session =>
      show Differs host r d.sys (c.sys.play host (.step .session))
      cases hstep : c.sys.stepSession host with
      | none =>
        rw [@System.play_waiting _ _ _ _ .session hstep]
        exact h
      | some next =>
        rw [@System.play_step _ _ _ _ _ .session hstep]
        refine h.session ?_ hstep fun o ho => hnone o ?_
        · rw [hd.reply, hp]
          rfl
        · simp [Journal.play, System.sessionEntries, ho]

theorem System.phase_run_aside (sys : System σ τ) (moves : List Move) :
    (sys.run host (moves.filter Move.isAside)).session.phase = sys.session.phase := by
  induction moves generalizing sys with
  | nil => rfl
  | cons move moves ih =>
    cases move with
    | arrive arrivals =>
      refine (ih (sys.play host (.arrive arrivals))).trans ?_
      rw [play_arrive]
      rfl
    | hangUp => exact ih (sys.play host .hangUp)
    | step side =>
      cases side with
      | session => exact ih sys
      | thread =>
        refine (ih (sys.play host (.step .thread))).trans ?_
        rw [session_play_thread]

/-- A request that is not answered yet differs from its absence all along. -/
theorem Differs.run {c d : Journal σ τ} (h : Differs host r d.sys c.sys)
    (hc : c.sys.Kept c.entries) (hd : d.sys.Kept d.entries)
    (hp : d.sys.session.phase = .handling r) (moves : List Move) {new : List Entry}
    (hnew : (c.run host moves).entries = c.entries ++ new) (hnone : ∀ o, .answered o ∉ new) :
    Differs host r (d.run host (moves.filter Move.isAside)).sys (c.run host moves).sys := by
  induction moves generalizing c d new with
  | nil => exact h
  | cons move moves ih =>
    obtain ⟨first, hfirst⟩ := entries_run host c [move]
    obtain ⟨rest, hrest⟩ := entries_run host (c.play host move) moves
    have hfirst : (c.play host move).entries = c.entries ++ first := hfirst
    have hsplit : new = first ++ rest := by
      rw [show (c.run host (move :: moves)).entries = _ from hrest, hfirst,
        List.append_assoc] at hnew
      exact (List.append_cancel_left hnew).symm
    subst hsplit
    have hplay := h.play hc hd hp move fun o ho => by
      rw [hfirst, List.drop_left] at ho
      exact hnone o (List.mem_append_left _ ho)
    rw [← List.singleton_append, List.filter_append, run_append]
    refine ih hplay (kept_run host hc [move]) (kept_run host hd _) ?_ hrest fun o ho =>
      hnone o (List.mem_append_right _ ho)
    rw [sys_run, System.phase_run_aside, hp]

end DebugAdapter
