import DebugAdapter.Proofs.Session.Handle
import DebugAdapter.Proofs.Session.Recorder
import Mathlib.Data.List.Induction

/-!
# Journals

A run keeps a journal of what the two sides do to the stops that they share: stops are reported,
become active, are made known and come back; requests look for the active stop, are accepted there
or refused, and are answered; stops are let go; the handle closes. Each entry is made with the step
that it is about. What the handle looks like can be read off the journal.
-/

namespace DebugAdapter

open Protocol

variable {σ τ : Type} {host : Host σ τ} {sys sys' : System σ τ}

-- ---------------------------------------------------------------------------
-- Entries
-- ---------------------------------------------------------------------------

inductive Errand where
  | inspect (question : Question)
  | resume (decision : Decision)

namespace Outcome

/-- Only a contract violation leaves the session open. -/
def refusal (r : Request) (e : AdapterError) : Outcome where
  response := r.refuse e.message
  closes := !e.isContractViolation

def resumption (r : Request) (decision : Decision) (stop : Nat) : Outcome where
  response := r.accept (resumeBody decision)
  release := some stop

def relay (r : Request) : Except AdapterError Json → Outcome
  | .ok body => { response := r.accept (some body) }
  | .error e => refusal r e

theorem release_relay (r : Request) (reply : Except AdapterError Json) :
    (relay r reply).release = none := by
  cases reply <;> rfl

end Outcome

inductive Entry where
  | reported
  /-- A new stop is active, in place of another one if there was one. -/
  | installed (stop : Nat) (place : Option Nat)
  | announced (stop : Nat) (body : StoppedBody)
  | served (stop : Nat) (question : Question) (reply : Except AdapterError Json)
  | faulted (stop : Nat) (question : Question)
  /-- The thread goes on. A report that was turned away comes back from no stop. -/
  | returned (stop : Option Nat) (decision : Decision)
  | found (r : Request) (errand : Errand) (stop : Option Nat)
  | accepted (r : Request) (errand : Errand) (stop : Nat)
  | refused (r : Request) (errand : Errand) (stop : Nat) (e : AdapterError)
  | answered (o : Outcome)
  | sent (m : Outgoing)
  /-- The bridge of a stop is disposed. -/
  | released (stop : Nat)
  | marked
  /-- The active stop is taken away, for good. -/
  | vacated (stop : Nat)
  /-- A stop that was taken away is decided, if it was not before. -/
  | settled (stop : Nat)
  | closed

namespace Entry

/-- The side that makes an entry in its dealings with stops. -/
def side? : Entry → Option Side
  | reported | installed .. | announced .. | served .. | faulted .. | returned .. => some .thread
  | found .. | accepted .. | refused .. | answered _ | released _ | marked | vacated _ | settled _
  | closed => some .session
  | sent _ => none

def sent? : Entry → Option Outgoing
  | announced _ body => some (.event (System.stoppedEvent body))
  | answered o => some (.response o.response)
  | sent m => some m
  | reported | installed .. | served .. | faulted .. | returned .. | found .. | accepted ..
  | refused .. | released _ | marked | vacated _ | settled _ | closed => none

def answer? : Entry → Option Outcome
  | answered o => some o
  | _ => none

def resumes (stop : Nat) : Entry → Bool
  | accepted _ (.resume _) i => i == stop
  | _ => false

/-- A request is answered that lets a stop go. -/
def frees (stop : Nat) : Entry → Bool
  | answered o => o.release == some stop
  | _ => false

def announces (stop : Nat) : Entry → Bool
  | announced i _ => i == stop
  | _ => false

def decides? (stop : Nat) : Entry → Option Decision
  | accepted _ (.resume d) i => if i = stop then some d else none
  | settled i => if i = stop then some .detach else none
  | _ => none

def activeAfter (active : Option Nat) : Entry → Option Nat
  | installed stop _ => some stop
  | returned (some stop) _ => if active = some stop then none else active
  | vacated _ => none
  | _ => active

/-- The reply that the session can pass on after an entry. -/
def replyAfter (reply : Option (Except AdapterError Json)) :
    Entry → Option (Except AdapterError Json)
  | served _ _ reply => some reply
  | faulted .. => some (.error .stopEnded)
  | answered _ => none
  | _ => reply

/-- The stop where the thread is after an entry of its own. -/
def place? : Entry → Option Nat
  | installed stop _ | announced stop _ | served stop .. | faulted stop _ => some stop
  | _ => none

def stop? : Entry → Option Nat
  | installed stop _ | announced stop _ | served stop .. | faulted stop _ | accepted _ _ stop
  | refused _ _ stop _ | released stop | vacated stop | settled stop => some stop
  | returned stop _ | found _ _ stop => stop
  | answered o => o.release
  | reported | sent _ | marked | closed => none

def isInstalled : Entry → Bool
  | installed .. => true
  | _ => false

end Entry

-- ---------------------------------------------------------------------------
-- What a step has to say
-- ---------------------------------------------------------------------------

def System.sessionEntries (sys : System σ τ) : List Entry :=
  match sys.session.phase with
  | .asking r question => [.found r (.inspect question) sys.handle.active]
  | .resuming r d => [.found r (.resume d) sys.handle.active]
  | .scheduling r question stop =>
    match sys.handle.schedule stop question with
    | .ok _ => [.accepted r (.inspect question) stop]
    | .error e => [.refused r (.inspect question) stop e]
  | .deciding r d stop =>
    match sys.handle.decide stop d with
    | .ok _ => [.accepted r (.resume d) stop]
    | .error e => [.refused r (.resume d) stop e]
  | .answering o => [.answered o]
  | .following (e :: _) _ _ => [.sent (.event e)]
  | .following [] (some stop) _ => [.released stop]
  | .closing .mark _ => [.marked]
  | .closing .vacate _ =>
    match sys.handle.active with
    | some stop => [.vacated stop]
    | none => [.closed]
  | .closing (.settle stop) _ => [.settled stop]
  | .closing (.release stop) _ => [.released stop, .closed]
  | .finishing _ => [.sent .close]
  | _ => []

def System.threadEntries (sys sys' : System σ τ) : List Entry :=
  match sys.thread.phase, sys'.thread.phase with
  | .idle, .installing .. | .disarming .., .installing .. => [.reported]
  | .installing .., .announcing _ _ stop _ _ => [.installed stop sys.handle.active]
  | .installing .., .resumed _ d _ => [.returned none d]
  | .announcing _ body stop _ _, .serving .. => [.announced stop body]
  | .serving _ stop (question :: _) _ _, .serving .. =>
    sys'.reply.toList.map (.served stop question)
  | .serving _ stop (question :: _) _ _, .dead _ => [.faulted stop question]
  | .leaving _ stop _, .resumed _ d _ => [.returned (some stop) d]
  | _, _ => []

namespace System

theorem stepSession_of_request {message : Json} {reader : Packet.Reader} {r : Request}
    (hp : sys.session.phase = .reading) (hc : sys.handle.closed = false)
    (hread : sys.session.reader.readMessage = (.item message, reader))
    (hr : requestOf? message = some r) :
    sys.stepSession host = some ((sys.withReader reader).enter (.handling r)) := by
  simp only [stepSession, hp, read, hc, hread, hr, Bool.false_eq_true, if_false]
  rfl

theorem stepSession_of_end {found : Packet.Read Json} {reader : Packet.Reader}
    {result : Except AdapterError Unit} (hp : sys.session.phase = .reading)
    (hc : sys.handle.closed = false) (hread : sys.session.reader.readMessage = (found, reader))
    (hend : endOf? found = some result) :
    sys.stepSession host =
      some ((sys.withReader reader).enter (.closing .mark (some result))) := by
  simp only [stepSession, hp, read, hc, hread, Bool.false_eq_true, if_false]
  cases found <;> cases hend <;> rfl

theorem sessionEntries_of_waiting (h : sys.stepSession host = none) : sys.sessionEntries = [] := by
  obtain ⟨reader, hp, -⟩ | ⟨r, hp, -⟩ | ⟨result, hp⟩ := waiting_of_stepSession h
  all_goals simp only [sessionEntries, hp]

theorem threadEntries_of_waiting (h : sys.stepThread host = none) : sys.threadEntries sys = [] := by
  obtain hp | ⟨origin, stop, g, s, hp⟩ | ⟨s, hp⟩ := waiting_of_stepThread h
  all_goals simp only [threadEntries, hp]

end System

structure Journal (σ τ : Type) where
  sys : System σ τ
  entries : List Entry := []

namespace Journal

def play (host : Host σ τ) (c : Journal σ τ) (move : Move) : Journal σ τ where
  sys := c.sys.play host move
  entries := c.entries ++ match move with
    | .step .session => c.sys.sessionEntries
    | .step .thread => c.sys.threadEntries (c.sys.play host move)
    | .arrive _ | .hangUp => []

def recorder (host : Host σ τ) : Recorder host (Journal σ τ) where
  sys := Journal.sys
  play := play host
  sys_play _ _ := rfl
  play_waiting {c side} h := by
    cases side with
    | session =>
      simp only [play, System.play_waiting h, System.sessionEntries_of_waiting h, List.append_nil]
    | thread =>
      simp only [play, System.play_waiting h, System.threadEntries_of_waiting h, List.append_nil]

def run (host : Host σ τ) (moves : List Move) (c : Journal σ τ) : Journal σ τ :=
  (recorder host).run moves c

theorem sys_run (host : Host σ τ) (moves : List Move) (c : Journal σ τ) :
    (c.run host moves).sys = c.sys.run host moves :=
  (recorder host).sys_run moves c

theorem run_append (c : Journal σ τ) (moves more : List Move) :
    c.run host (moves ++ more) = (c.run host moves).run host more :=
  (recorder host).run_append moves more c

theorem entries_run (host : Host σ τ) (c : Journal σ τ) (moves : List Move) :
    ∃ more, (c.run host moves).entries = c.entries ++ more := by
  refine (recorder host).run_induction (P := fun d => ∃ more, d.entries = c.entries ++ more) ?_
    ⟨[], (List.append_nil _).symm⟩ moves
  rintro d move ⟨more, hmore⟩
  exact ⟨_, (congrArg (· ++ _) hmore).trans (List.append_assoc _ _ _)⟩

theorem run_session {c : Journal σ τ} (moves : List Move)
    (h : c.sys.stepSession host = some sys') :
    c.run host (.step .session :: moves) =
      run host moves { sys := sys', entries := c.entries ++ c.sys.sessionEntries } := by
  have hplay : c.sys.play host (.step .session) = sys' := System.play_step h
  change (c.play host (.step .session)).run host moves = _
  rw [play, hplay]

theorem run_induction (P : System σ τ → List Entry → Prop)
    (reader : ∀ {sys : System σ τ} {J : List Entry} {reader : Packet.Reader},
      P sys J → P (sys.withReader reader) J)
    (session : ∀ {sys sys' : System σ τ} {J : List Entry}, P sys J → sys.SessionStep host sys' →
      P sys' (J ++ sys.sessionEntries))
    (thread : ∀ {sys sys' : System σ τ} {J : List Entry}, P sys J → sys.ThreadStep host sys' →
      P sys' (J ++ sys.threadEntries sys'))
    {c : Journal σ τ} (h : P c.sys c.entries) (moves : List Move) :
    P (c.run host moves).sys (c.run host moves).entries := by
  refine (recorder host).run_keeps (P := fun c => P c.sys c.entries) (fun {c} arrivals h => ?arrive)
    (fun {c} h => ?hangUp) session thread h moves
  case arrive =>
    show P (c.sys.play host (.arrive arrivals)) (c.entries ++ [])
    rw [System.play_arrive, List.append_nil]
    exact reader h
  case hangUp =>
    show P (c.sys.play host .hangUp) (c.entries ++ [])
    rw [System.play_hangUp, List.append_nil]
    exact reader h

-- ---------------------------------------------------------------------------
-- What can be read off
-- ---------------------------------------------------------------------------

def lastOf (side : Side) (J : List Entry) : Option Entry :=
  (J.filter fun x => x.side? == some side).getLast?

def nextOfThread (J : List Entry) : Option Entry := J.find? fun x => x.side? == some .thread

def activeIn (J : List Entry) : Option Nat := J.foldl Entry.activeAfter none

def replyIn (J : List Entry) : Option (Except AdapterError Json) := J.foldl Entry.replyAfter none

/-- The decision on a stop, which is the first one. -/
def decisionIn (J : List Entry) (stop : Nat) : Option Decision := J.findSome? (Entry.decides? stop)

def stopsIn (J : List Entry) : Nat := J.countP Entry.isInstalled

def placeIn (J : List Entry) : Option Nat := (lastOf .thread J).bind Entry.place?

section

variable {J before after : List Entry} {x : Entry} {side : Side} {stop : Nat} {d : Decision}

@[simp] theorem lastOf_append :
    lastOf side (J ++ [x]) = if x.side? = some side then some x else lastOf side J := by
  split <;> simp [lastOf, *]

theorem lastOf_append_own (h : x.side? = some side) : lastOf side (J ++ [x]) = some x := by
  rw [lastOf_append, if_pos h]

theorem mem_of_lastOf (h : lastOf side J = some x) : x ∈ J ∧ x.side? = some side := by
  have := List.mem_filter.1 (List.mem_of_getLast? h)
  exact ⟨this.1, by simpa using this.2⟩

theorem split_of_lastOf (h : lastOf side J = some x) :
    ∃ before after, J = before ++ x :: after ∧ ∀ y ∈ after, y.side? ≠ some side := by
  induction J using List.reverseRecOn with
  | nil => cases h
  | append_singleton J y ih =>
    rw [lastOf_append] at h
    split at h
    · cases h
      exact ⟨J, [], rfl, fun y hy => absurd hy List.not_mem_nil⟩
    · obtain ⟨before, after, rfl, hafter⟩ := ih h
      refine ⟨before, after ++ [y], by simp, fun z hz => ?_⟩
      obtain hz | hz := List.mem_append.1 hz
      · exact hafter z hz
      · rwa [List.mem_singleton.1 hz]

theorem lastOf_split (h : x.side? = some side) (hafter : ∀ y ∈ after, y.side? ≠ some side) :
    lastOf side (before ++ x :: after) = some x := by
  have : after.filter (fun y => y.side? == some side) = [] := by simpa using hafter
  simp [lastOf, h, this]

theorem lastOf_append_of_some (h : lastOf side after = some x) :
    lastOf side (before ++ after) = some x := by
  rw [lastOf] at h
  rw [lastOf, List.filter_append, List.getLast?_append, h, Option.some_or]

theorem lastOf_append_of_none (h : lastOf side after = none) :
    lastOf side (before ++ after) = lastOf side before := by
  rw [lastOf] at h
  rw [lastOf, List.filter_append, List.getLast?_append, h, Option.none_or, ← lastOf]

theorem nextOfThread_append (h : ∀ y ∈ before, y.side? ≠ some .thread) :
    nextOfThread (before ++ after) = nextOfThread after := by
  have hnone : before.find? (fun y => y.side? == some .thread) = none := by simpa using h
  rw [nextOfThread, List.find?_append, hnone, Option.none_or, nextOfThread]

theorem placeIn_of_lastOf (h : lastOf .thread J = some x) : placeIn J = x.place? := by
  rw [placeIn, h, Option.bind_some]

@[simp] theorem placeIn_append :
    placeIn (J ++ [x]) = if x.side? = some .thread then x.place? else placeIn J := by
  rw [placeIn, lastOf_append]
  split
  · rfl
  · rw [placeIn]

@[simp] theorem activeIn_append : activeIn (J ++ [x]) = x.activeAfter (activeIn J) := by
  simp [activeIn]

@[simp] theorem replyIn_append : replyIn (J ++ [x]) = x.replyAfter (replyIn J) := by
  simp [replyIn]

@[simp] theorem decisionIn_append :
    decisionIn (J ++ [x]) stop = (decisionIn J stop).or (x.decides? stop) := by
  simp [decisionIn, List.findSome?_append]

theorem decisionIn_append_of_some (h : decisionIn before stop = some d) :
    decisionIn (before ++ after) stop = some d := by
  rw [decisionIn, List.findSome?_append, ← decisionIn, h, Option.some_or]

@[simp] theorem stopsIn_append :
    stopsIn (J ++ [x]) = stopsIn J + if x.isInstalled then 1 else 0 := by
  simp [stopsIn, List.countP_singleton]

theorem decisionIn_of_others (hx : ∀ x ∈ after, x.side? ≠ some .session) :
    decisionIn (before ++ after) stop = decisionIn before stop := by
  have hnone : after.findSome? (Entry.decides? stop) = none := by
    rw [List.findSome?_eq_none_iff]
    intro x hmem
    cases x <;> first | rfl | exact absurd rfl (hx _ hmem)
  rw [decisionIn, List.findSome?_append, hnone, Option.or_none, ← decisionIn]

theorem released_of_others (hx : ∀ x ∈ after, x.side? ≠ some .session) :
    .released stop ∈ before ++ after ↔ .released stop ∈ before := by
  rw [List.mem_append, or_iff_left]
  exact fun hr => hx _ hr rfl

theorem answer?_of_others (hx : x.side? ≠ some .session) : x.answer? = none := by
  cases x <;> first | rfl | exact absurd rfl hx

end

end Journal

end DebugAdapter
