import DebugAdapter.Host
import DebugAdapter.Session.Phase

/-!
# Running sessions

A session, the thread of the interpreter and what they share make a system. Each of the two moves
in atomic steps, in any order; a step that is not there means that the side waits or has come to
its end.
-/

namespace DebugAdapter

open Protocol

structure System (σ τ : Type) where
  handle : Handle := {}
  debugger : Debugger
  target : τ
  session : Session := {}
  thread : Thread σ := {}
  /-- The reply to the question that the session waits on. -/
  reply : Option (Except AdapterError Json) := none

inductive Side where
  | session
  | thread
deriving DecidableEq, Repr

namespace System

variable {σ τ : Type}

-- ---------------------------------------------------------------------------
-- The session
-- ---------------------------------------------------------------------------

def enter (sys : System σ τ) (phase : Session.Phase) : System σ τ :=
  { sys with session := { sys.session with phase := phase } }

def grant (sys : System σ τ) (r : Request) (body : Option Json) : System σ τ :=
  sys.enter (.answering { response := r.accept body })

/-- A request fails; only a contract violation leaves the session open. -/
def refuse (sys : System σ τ) (r : Request) (e : AdapterError) : System σ τ :=
  sys.enter (.answering { response := r.refuse e.message, closes := !e.isContractViolation })

def fulfil (host : Host σ τ) (sys : System σ τ) (r : Request) : Demand → System σ τ
  | .capabilities =>
    sys.enter (.answering
      { response := r.accept (some (capabilities.encode ownCapabilities))
        events := [.named "initialized" none] })
  | .chooseStart mode =>
    match sys.debugger.chooseStart mode with
    | .ok d => { sys with debugger := d }.grant r none
    | .error e => sys.refuse r e
  | .start =>
    match sys.debugger.chosenStart with
    | .error e => sys.refuse r e
    | .ok mode =>
      match host.start mode sys.target with
      | (.ok (), target) => { sys with target := target }.grant r none
      | (.error e, target) => { sys with target := target }.refuse r e
  | .disconnect =>
    { sys with
      debugger := sys.debugger.disconnect
      session :=
        { sys.session with
          disconnected := true
          phase := .answering { response := r.accept none, closes := true } } }
  | .setLines args =>
    let (set, d) := sys.debugger.setLines args.source (args.breakpoints.getD [])
    { sys with debugger := d }.grant r (some (breakpointsBody.encode ⟨set⟩))
  | .setCalls args =>
    let (set, d) := sys.debugger.setCalls args.breakpoints
    { sys with debugger := d }.grant r (some (breakpointsBody.encode ⟨set⟩))
  | .threads => sys.grant r (some (threadsBody.encode ⟨Debugger.threads⟩))
  | .inspect question => sys.enter (.asking r question)
  | .pause => sys.grant r none
  | .resume decision => sys.enter (.resuming r decision)

def takeUp (host : Host σ τ) (sys : System σ τ) (r : Request) : System σ τ :=
  match Demand.of? r with
  | none => sys.enter (.answering { response := r.refuse "unsupported command" })
  | some (.error e) => sys.refuse r e
  | some (.ok demand) => sys.fulfil host r demand

def requestOf? (message : Json) : Option Request :=
  match header.decode message with
  | .error _ => none
  | .ok h =>
    if h.kind = .request then (request.decode message).toOption else none

/-- Reads the next message; those that are no requests are passed over. The session ends with the
stream, or with its failure. -/
def read (sys : System σ τ) : Option (System σ τ) :=
  if sys.handle.closed then some (sys.enter (.closing .mark (some (.ok ()))))
  else
    let (r, reader) := sys.session.reader.readMessage
    let sys := { sys with session := { sys.session with reader := reader } }
    match r with
    | .blocked => none
    | .ended => some (sys.enter (.closing .mark (some (.ok ()))))
    | .failed text => some (sys.enter (.closing .mark (some (.error (.transport text)))))
    | .malformed e => some (sys.enter (.closing .mark (some (.error (.framing e.reason)))))
    | .item message =>
      match requestOf? message with
      | some r => some (sys.enter (.handling r))
      | none => some sys

def closed (sys : System σ τ) : Option (Except AdapterError Unit) → System σ τ
  | none => sys.enter .reading
  | some result => sys.enter (.disconnecting result)

def stepSession (host : Host σ τ) (sys : System σ τ) : Option (System σ τ) :=
  match sys.session.phase with
  | .reading => sys.read
  | .handling r => some (sys.takeUp host r)
  | .asking r question =>
    match sys.handle.current with
    | .ok stop => some (sys.enter (.scheduling r question stop))
    | .error e => some (sys.refuse r e)
  | .scheduling r question stop =>
    match sys.handle.schedule stop question with
    | .ok h => some ({ sys with handle := h }.enter (.awaiting r))
    | .error e => some (sys.refuse r e)
  | .awaiting r =>
    match sys.reply with
    | none => none
    | some (.ok body) => some ({ sys with reply := none }.grant r (some body))
    | some (.error e) => some ({ sys with reply := none }.refuse r e)
  | .resuming r decision =>
    match sys.handle.current with
    | .ok stop => some (sys.enter (.deciding r decision stop))
    | .error e => some (sys.refuse r e)
  | .deciding r decision stop =>
    match sys.handle.decide stop decision with
    | .ok h =>
      some ({ sys with handle := h }.enter (.answering
        { response := r.accept (resumeBody decision), release := some stop }))
    | .error e => some (sys.refuse r e)
  | .answering o =>
    some ({ sys with handle := sys.handle.post (.response o.response) }.enter
      (.following o.events o.release o.closes))
  | .following (e :: events) stop closes =>
    some ({ sys with handle := sys.handle.post (.event e) }.enter (.following events stop closes))
  | .following [] (some stop) closes =>
    some ({ sys with handle := sys.handle.release stop }.enter (.following [] none closes))
  | .following [] none true => some (sys.enter (.closing .mark none))
  | .following [] none false => some (sys.enter .reading)
  | .closing .mark result =>
    some ({ sys with handle := sys.handle.markClosed }.enter (.closing .vacate result))
  | .closing .vacate result =>
    match sys.handle.vacate with
    | (some stop, h) => some ({ sys with handle := h }.enter (.closing (.settle stop) result))
    | (none, h) => some ({ sys with handle := h }.closed result)
  | .closing (.settle stop) result =>
    some ({ sys with handle := sys.handle.settle stop }.enter (.closing (.release stop) result))
  | .closing (.release stop) result =>
    some ({ sys with handle := sys.handle.release stop }.closed result)
  | .disconnecting result =>
    let d := if sys.session.disconnected then sys.debugger else sys.debugger.disconnect
    some ({ sys with debugger := d }.enter (.finishing result))
  | .finishing result =>
    some ({ sys with handle := sys.handle.post .close }.enter (.ended result))
  | .ended _ => none

-- ---------------------------------------------------------------------------
-- The thread
-- ---------------------------------------------------------------------------

def move (sys : System σ τ) (phase : Thread.Phase σ) : System σ τ :=
  { sys with thread := { sys.thread with phase := phase } }

def finish (sys : System σ τ) (s : σ) : System σ τ :=
  { sys with thread := { sys.thread with phase := .idle, past := sys.thread.past ++ [s] } }

/-- Hands the counter of a graph back to whom it came from. -/
def handBack (sys : System σ τ) (origin : Origin) (g : StackGraph) : System σ τ :=
  match origin with
  | .debugger _ => { sys with debugger := { sys.debugger with references := g.minted } }
  | .direct => { sys with thread := { sys.thread with references := g.minted } }

/-- Serves one question of the batch. A fault kills the thread, and the question has no other
answer than that the stop is over. -/
def serve (host : Host σ τ) (sys : System σ τ) (origin : Origin) (stop : Nat)
    (question : Question) (batch : List Question) (g : StackGraph) (s : σ) : System σ τ :=
  match question.answer host.interpreter (g, s) with
  | (.ok reply, g, s) => { sys with reply := some reply }.move (.serving origin stop batch g s)
  | (.error _, g, s) =>
    ({ sys with reply := some (.error .stopEnded) }.handBack origin g).move (.dead s)

def stepThread (host : Host σ τ) (sys : System σ τ) : Option (System σ τ) :=
  match sys.thread.phase with
  | .idle =>
    match sys.thread.program with
    | [] => none
    | item :: program =>
      let sys := { sys with thread := { sys.thread with program := program } }
      match item with
      | .event e s => some (sys.move (.hooked e s))
      | .stop body s =>
        some (sys.move (.installing .direct body { minted := sys.thread.references } s))
  | .hooked e s =>
    if sys.debugger.terminated then some (sys.finish s)
    else some (sys.move (.matching e sys.debugger.goal s))
  | .matching e goal s =>
    match sys.debugger.breakpointStop e with
    | some body => some (sys.move (.disarming e body s))
    | none =>
      match Debugger.stepStop host.interpreter goal e s with
      | (.ok (some body), s) => some (sys.move (.disarming e body s))
      | (.ok none, s) => some (sys.finish s)
      | (.error _, s) => some (sys.move (.dead s))
  | .disarming e body s =>
    some ({ sys with debugger := sys.debugger.disarm }.move
      (.installing (.debugger e) body { minted := sys.debugger.references } s))
  | .installing origin body g s =>
    match sys.handle.install with
    | none => some (sys.move (.resumed origin .detach s))
    | some (stop, h) => some ({ sys with handle := h }.move (.announcing origin body stop g s))
  | .announcing origin body stop g s =>
    let event : Event := .named "stopped" (some (stoppedBody.encode body))
    some ({ sys with handle := sys.handle.post (.event event) }.move
      (.serving origin stop [] g s))
  | .serving origin stop (question :: batch) g s =>
    some (sys.serve host origin stop question batch g s)
  | .serving origin stop [] g s =>
    match sys.handle.take stop with
    | (.wait, _) => none
    | (.work batch, h) => some ({ sys with handle := h }.move (.serving origin stop batch g s))
    | (.leave, h) =>
      some (({ sys with handle := h }.handBack origin g).move (.leaving origin stop s))
  | .leaving origin stop s =>
    let (decision, h) := sys.handle.leave stop
    some ({ sys with handle := h }.move (.resumed origin decision s))
  | .resumed .direct decision s =>
    some ({ sys with
      thread := { sys.thread with returned := sys.thread.returned ++ [decision] } }.finish s)
  | .resumed (.debugger e) decision s =>
    match Debugger.goalAfter host.interpreter decision e s with
    | (.ok goal, s) =>
      some ({ sys with debugger := sys.debugger.resume decision goal }.finish s)
    | (.error _, s) => some (sys.move (.dead s))
  | .dead _ => none

-- ---------------------------------------------------------------------------
-- Both
-- ---------------------------------------------------------------------------

def step (host : Host σ τ) (side : Side) (sys : System σ τ) : Option (System σ τ) :=
  match side with
  | .session => sys.stepSession host
  | .thread => sys.stepThread host

def feed (sys : System σ τ) (arrivals : List Packet.Arrival) : System σ τ :=
  { sys with session := { sys.session with reader := sys.session.reader.feed arrivals } }

def endInput (sys : System σ τ) : System σ τ :=
  { sys with session := { sys.session with reader := sys.session.reader.finish } }

end System

end DebugAdapter
