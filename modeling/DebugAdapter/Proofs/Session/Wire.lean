import DebugAdapter.Proofs.Json.Keys
import DebugAdapter.Proofs.Session.Outbox
import DebugAdapter.Proofs.Session.Service

/-!
# What goes over the wire

Messages are numbered as they are written, in the order of the queue, whoever has queued them and
whatever numbers they were built with. Where the client takes only some bytes, these are the first
ones of all that would have been written, and neither the session nor the thread takes notice:
`written_in_order`.
-/

namespace DebugAdapter

open Protocol

-- ---------------------------------------------------------------------------
-- Numbers
-- ---------------------------------------------------------------------------

def Json.numbered (number : Nat) : Json → Json
  | .obj entries => .obj (insertKey "seq" (.int number) entries)
  | j => j

theorem Json.numbered_ordered {entries : List (String × Json)} (h : ∀ e ∈ entries, e.1 ≠ "seq")
    (m n : Nat) :
    (Json.obj (("seq", .int m) :: entries)).ordered =
      (Json.obj (("seq", .int n) :: entries)).ordered.numbered m := by
  have hkeys : ∀ e ∈ orderedEntries entries, e.1 ≠ "seq" := by
    intro e he
    obtain ⟨f, hf, hk⟩ := mem_orderedEntries he
    exact hk ▸ h f hf
  simp only [ordered, orderedEntries, numbered]
  rw [sortKeys_cons (Json.int m) (Json.int n) hkeys]

namespace Outgoing

/-- The message as it was built. -/
def built? : Outgoing → Option Json
  | response r => some (Protocol.response.encode r).ordered
  | event e => some (Protocol.event.encode e).ordered
  | close => none

theorem json?_eq (m : Outgoing) (number : UInt32) :
    m.json? number = m.built?.map (Json.numbered number.toNat) := by
  cases m with
  | response r =>
    refine congrArg some (Json.numbered_ordered ?_ number.toNat r.seq.toNat)
    cases r.message <;> cases r.body <;>
      simp [Fields.entries, Field.required, Field.aliased, Field.optional]
  | event e =>
    refine congrArg some (Json.numbered_ordered ?_ number.toNat e.seq.toNat)
    cases e.body <;> simp [Fields.entries, Field.required, Field.optional]
  | close => rfl

theorem exists_built {m : Outgoing} (h : m ≠ .close) : ∃ message, m.built? = some message := by
  cases m with
  | response r => exact ⟨_, rfl⟩
  | event e => exact ⟨_, rfl⟩
  | close => exact absurd rfl h

end Outgoing

-- ---------------------------------------------------------------------------
-- Transcripts
-- ---------------------------------------------------------------------------

/-- The messages before the mark that nothing follows, as they were built. -/
def queued : List Outgoing → List Json
  | [] => []
  | m :: rest =>
    match m.built? with
    | some message => message :: queued rest
    | none => []

/-- The packets of some messages, numbered from `first` on. -/
def transcript (endpoint : String) (first : Nat) (messages : List Json) : Bytes :=
  (messages.zipIdx first).flatMap fun (message, number) =>
    Packet.ofJson endpoint (message.numbered number)

def within (room : Option Nat) (bytes : Bytes) : Bytes :=
  match room with
  | none => bytes
  | some n => bytes.take n

theorem queued_append_close {before : List Outgoing} (h : ∀ m ∈ before, m ≠ .close)
    (behind : List Outgoing) : queued (before ++ .close :: behind) = queued before := by
  induction before with
  | nil => rfl
  | cons m before ih =>
    obtain ⟨message, hm⟩ := Outgoing.exists_built (h m List.mem_cons_self)
    simp only [List.cons_append, queued, hm, ih fun m' hm' => h m' (List.mem_cons_of_mem _ hm')]

theorem length_queued {ms : List Outgoing} (h : ∀ m ∈ ms, m ≠ .close) :
    (queued ms).length = ms.length := by
  induction ms with
  | nil => rfl
  | cons m ms ih =>
    obtain ⟨message, hm⟩ := Outgoing.exists_built (h m List.mem_cons_self)
    simp only [queued, hm, List.length_cons, ih fun m' hm' => h m' (List.mem_cons_of_mem _ hm')]

theorem exists_queued_take (ms : List Outgoing) (k : Nat) :
    ∃ n ≤ (queued ms).length, queued (ms.take k) = (queued ms).take n := by
  induction ms generalizing k with
  | nil => exact ⟨0, Nat.zero_le _, by simp [queued]⟩
  | cons m ms ih =>
    cases k with
    | zero => exact ⟨0, Nat.zero_le _, by simp [queued]⟩
    | succ k =>
      cases hm : m.built? with
      | none => exact ⟨0, Nat.zero_le _, by simp [queued, hm]⟩
      | some message =>
        obtain ⟨n, hn, heq⟩ := ih k
        refine ⟨n + 1, ?_, ?_⟩
        · simpa [queued, hm] using hn
        · simpa [queued, hm] using heq

theorem exists_mark (queue : List Outgoing) :
    (∀ m ∈ queue, m ≠ .close) ∨
      ∃ before behind, queue = before ++ Outgoing.close :: behind ∧ ∀ m ∈ before, m ≠ .close := by
  induction queue with
  | nil => exact .inl nofun
  | cons m queue ih =>
    by_cases hm : m = .close
    · exact .inr ⟨[], queue, by rw [hm]; rfl, nofun⟩
    · obtain h | ⟨before, behind, rfl, h⟩ := ih
      · exact .inl (List.forall_mem_cons.2 ⟨hm, h⟩)
      · exact .inr ⟨m :: before, behind, rfl, List.forall_mem_cons.2 ⟨hm, h⟩⟩

theorem Packet.Sink.accepted_write (sink : Sink) (bytes : Bytes) :
    (sink.write bytes).2.accepted = sink.accepted ++ within sink.room bytes := by
  unfold write within
  cases sink.room <;> rfl

namespace Writer

theorem wire_eq_transcript (endpoint : String) {ms : List Outgoing} (h : ∀ m ∈ ms, m ≠ .close)
    {first : Nat} (few : first + ms.length ≤ UInt32.size) :
    wire endpoint (.ofNat first) ms = transcript endpoint first (queued ms) := by
  induction ms generalizing first with
  | nil => rfl
  | cons m ms ih =>
    obtain ⟨message, hm⟩ := Outgoing.exists_built (h m List.mem_cons_self)
    rw [List.length_cons] at few
    have hfirst : (UInt32.ofNat first).toNat = first :=
      UInt32.toNat_ofNat_of_lt' (show first < UInt32.size by omega)
    have hnext : UInt32.ofNat first + 1 = UInt32.ofNat (first + 1) := by
      rw [UInt32.ofNat_add]
      rfl
    simp only [wire, queued, hm, Outgoing.json?_eq, Option.map_some, Option.getD_some, hfirst,
      hnext, transcript, List.zipIdx_cons, List.flatMap_cons]
    rw [ih (fun m' hm' => h m' (List.mem_cons_of_mem _ hm')) (by omega)]
    rfl

section

variable {w : Writer} (hw : w.taken = 0)

include hw

theorem flush_concat (queue : List Outgoing) (m : Outgoing) :
    w.flush (queue ++ [m]) = (w.flush queue).deliver m := by
  rw [flush, flush, hw, List.drop_zero, List.drop_zero, List.foldl_append]
  rfl

theorem taken_flush {queue : List Outgoing} (h : (w.flush queue).state = .writing) :
    (w.flush queue).taken = queue.length := by
  rw [flush, hw, List.drop_zero] at h ⊢
  rw [taken_foldl_deliver h, hw, Nat.zero_add]

theorem flush_append_of_ne {queue : List Outgoing} (h : (w.flush queue).state ≠ .writing)
    (more : List Outgoing) : w.flush (queue ++ more) = w.flush queue := by
  rw [← flush_flush hw, flush, foldl_deliver_of_ne h]

end

theorem accepted_flush (endpoint : String) (room : Option Nat) {queue : List Outgoing}
    (few : (queued queue).length < UInt32.size - 1) :
    ((fresh endpoint room).flush queue).sink.accepted =
      within room (transcript endpoint 1 (queued queue)) := by
  have hwire {ms : List Outgoing} (h : ∀ m ∈ ms, m ≠ .close)
      (hfew : (queued ms).length < UInt32.size - 1) :
      ((fresh endpoint room).sink.write (wire endpoint 1 ms)).2.accepted =
        within room (transcript endpoint 1 (queued ms)) := by
    have hle : 1 + ms.length ≤ UInt32.size := by
      rw [length_queued h] at hfew
      omega
    rw [← wire_eq_transcript endpoint h hle]
    exact Packet.Sink.accepted_write _ _
  obtain h | ⟨before, behind, rfl, h⟩ := exists_mark queue
  · rw [(flush_of_open h rfl rfl).1]
    exact hwire h few
  · rw [queued_append_close h] at few ⊢
    have hclosed := flush_of_closed (w := fresh endpoint room) behind h rfl rfl
    rw [← hwire h few]
    split at hclosed
    · rw [hclosed.2]
      rfl
    · rw [hclosed.2]
      rfl

end Writer

-- ---------------------------------------------------------------------------
-- The writer beside the session
-- ---------------------------------------------------------------------------

variable {σ τ : Type} {host : Host σ τ}

namespace Act

def move? : Act → Option Move
  | step (.side side) => some (.step side)
  | step .writer => none
  | arrive arrivals => some (.arrive arrivals)
  | hangUp => some .hangUp

def ofMove : Move → Act
  | .step side => step (.side side)
  | .arrive arrivals => arrive arrivals
  | .hangUp => hangUp

end Act

namespace Service

variable {s s' : Service σ τ}

/-- The result that the caller of the session gets, once all is written. -/
def returned? (s : Service σ τ) : Option (Except AdapterError Unit) :=
  if s.writer.state = .writing then none else s.result?

def withWriter (s : Service σ τ) (writer : Writer) : Service σ τ := { s with writer := writer }

theorem play_withWriter (s : Service σ τ) (w : Writer) (move : Move) :
    (s.withWriter w).play host (.ofMove move) = (s.play host (.ofMove move)).withWriter w := by
  cases move with
  | arrive arrivals => rfl
  | hangUp => rfl
  | step side =>
    cases side with
    | session =>
      simp only [Act.ofMove, play, step, withWriter]
      cases s.sys.stepSession host <;> rfl
    | thread =>
      simp only [Act.ofMove, play, step, withWriter]
      cases s.sys.stepThread host <;> rfl

theorem exists_play_writer (host : Host σ τ) (s : Service σ τ) :
    ∃ w, s.play host (.step .writer) = s.withWriter w := by
  simp only [play, step]
  split
  · cases s.sys.handle.outbox[s.writer.taken]? with
    | none => exact ⟨s.writer, rfl⟩
    | some m => exact ⟨s.writer.deliver m, rfl⟩
  · exact ⟨s.writer, rfl⟩

theorem run_withWriter (s : Service σ τ) (w : Writer) (moves : List Move) :
    (s.withWriter w).run host (moves.map .ofMove) =
      (s.run host (moves.map .ofMove)).withWriter w := by
  induction moves generalizing s with
  | nil => rfl
  | cons move moves ih =>
    rw [List.map_cons, run, List.foldl_cons, play_withWriter]
    exact ih _

/-- Whenever the writer moves, and whatever becomes of what it writes, the rest of a service goes
its own way. -/
theorem exists_run_moves (host : Host σ τ) (s : Service σ τ) (acts : List Act) :
    ∃ w, s.run host acts =
      (s.run host ((acts.filterMap Act.move?).map .ofMove)).withWriter w := by
  induction acts generalizing s with
  | nil => exact ⟨s.writer, rfl⟩
  | cons act acts ih =>
    obtain ⟨w, hw⟩ := ih (s.play host act)
    match act with
    | .arrive arrivals => exact ⟨w, hw⟩
    | .hangUp => exact ⟨w, hw⟩
    | .step (.side side) => exact ⟨w, hw⟩
    | .step .writer =>
      obtain ⟨w', hw'⟩ := exists_play_writer host s
      rw [hw', run_withWriter] at hw
      exact ⟨w, by rw [run, List.foldl_cons, hw']; exact hw⟩

-- ---------------------------------------------------------------------------
-- What the writer has taken up
-- ---------------------------------------------------------------------------

/-- The writer has taken up the first entries of the outbox, and a session that has ended has left
its mark there. -/
structure Penned (fresh : Writer) (s : Service σ τ) : Prop where
  written : ∃ k ≤ s.sys.handle.outbox.length, s.writer = fresh.flush (s.sys.handle.outbox.take k)
  marked : ∀ result, s.sys.session.phase = .ended result → .close ∈ s.sys.handle.outbox

theorem penned_start (endpoint : String) (room : Option Nat) (debugger : Debugger) (target : τ)
    (program : List (Item σ)) :
    Penned (.fresh endpoint room) (start endpoint room debugger target program) where
  written := ⟨0, Nat.zero_le _, rfl⟩
  marked := nofun

variable {fresh : Writer}

theorem Penned.grow (h : Penned fresh s) (hw : s'.writer = s.writer)
    (ho : ∃ more, s'.sys.handle.outbox = s.sys.handle.outbox ++ more)
    (hm : ∀ result, s'.sys.session.phase = .ended result → .close ∈ s'.sys.handle.outbox) :
    Penned fresh s' := by
  obtain ⟨k, hk, heq⟩ := h.written
  obtain ⟨more, ho⟩ := ho
  refine ⟨⟨k, ?_, ?_⟩, hm⟩
  · rw [ho, List.length_append]
    omega
  · rw [hw, heq, ho, List.take_append_of_le_length hk]

theorem Penned.exists_taken (h : Penned fresh s) (hf : fresh.taken = 0) :
    ∃ k ≤ s.sys.handle.outbox.length, s.writer = fresh.flush (s.sys.handle.outbox.take k) ∧
      (s.writer.state = .writing → s.writer.taken = k) := by
  obtain ⟨k, hk, heq⟩ := h.written
  refine ⟨k, hk, heq, fun hw => ?_⟩
  rw [heq] at hw ⊢
  rw [Writer.taken_flush hf hw, List.length_take, Nat.min_eq_left hk]

theorem Penned.deliver (h : Penned fresh s) (hf : fresh.taken = 0) {m : Outgoing}
    (hw : s.writer.state = .writing) (hm : s.sys.handle.outbox[s.writer.taken]? = some m) :
    Penned fresh (s.withWriter (s.writer.deliver m)) := by
  obtain ⟨k, hk, heq, htaken⟩ := h.exists_taken hf
  rw [htaken hw] at hm
  obtain ⟨hlt, rfl⟩ := List.getElem?_eq_some_iff.1 hm
  refine ⟨⟨k + 1, hlt, ?_⟩, h.marked⟩
  change s.writer.deliver _ = fresh.flush (s.sys.handle.outbox.take (k + 1))
  rw [List.take_succ_eq_append_getElem hlt, Writer.flush_concat hf, heq]

theorem Penned.play (h : Penned fresh s) (hf : fresh.taken = 0) (act : Act) :
    Penned fresh (s.play host act) := by
  match act with
  | .arrive arrivals => exact ⟨h.written, h.marked⟩
  | .hangUp => exact ⟨h.written, h.marked⟩
  | .step agent =>
    change Penned fresh ((s.step host agent).getD s)
    cases hstep : s.step host agent with
    | none => exact h
    | some s' =>
      match agent with
      | .side .session =>
        obtain ⟨sys, hsys, rfl⟩ := Option.map_eq_some_iff.1 hstep
        obtain ⟨result, -, -, ho⟩ | ⟨hne, more, ho, -⟩ := (System.sessionStep_of_step hsys).outbox
        · exact h.grow rfl ⟨_, ho⟩ fun _ _ => by simp [ho]
        · exact h.grow rfl ⟨_, ho⟩ fun result hp => absurd hp (hne result).2.2
      | .side .thread =>
        obtain ⟨sys, hsys, rfl⟩ := Option.map_eq_some_iff.1 hstep
        obtain ⟨hsession, -, ho⟩ := (System.threadStep_of_step hsys).outside
        obtain ⟨more, ho⟩ : ∃ more, sys.handle.outbox = s.sys.handle.outbox ++ more := by
          obtain ho | ⟨_, _, _, _, _, -, ho⟩ := ho
          · exact ⟨[], ho.trans (List.append_nil _).symm⟩
          · exact ⟨_, congrArg Handle.outbox ho⟩
        refine h.grow rfl ⟨more, ho⟩ fun result hp => ?_
        change .close ∈ sys.handle.outbox
        rw [ho]
        exact List.mem_append_left _ (h.marked result (hsession ▸ hp))
      | .writer =>
        simp only [step] at hstep
        split at hstep
        · obtain ⟨m, hm, rfl⟩ := Option.map_eq_some_iff.1 hstep
          exact h.deliver hf ‹_› hm
        · cases hstep

theorem Penned.run (host : Host σ τ) (h : Penned fresh s) (hf : fresh.taken = 0) (acts : List Act) :
    Penned fresh (s.run host acts) := by
  induction acts generalizing s with
  | nil => exact h
  | cons act acts ih => exact ih (h.play hf act)

theorem Penned.at_rest (h : Penned fresh s) (hf : fresh.taken = 0)
    (hrest : s.step host .writer = none) : s.writer = fresh.flush s.sys.handle.outbox := by
  obtain ⟨k, hk, heq, htaken⟩ := h.exists_taken hf
  by_cases hw : s.writer.state = .writing
  · simp only [step, hw, if_true, Option.map_eq_none_iff, List.getElem?_eq_none_iff,
      htaken hw] at hrest
    rw [heq, List.take_of_length_le hrest]
  · rw [heq] at hw
    rw [heq, ← Writer.flush_append_of_ne hf hw (s.sys.handle.outbox.drop k),
      List.take_append_drop]

/-- How many entries of the outbox the writer has still to take up. -/
def left (s : Service σ τ) : Nat :=
  if s.writer.state = .writing then s.sys.handle.outbox.length - s.writer.taken else 0

theorem left_of_writer (h : s.step host .writer = some s') :
    s'.sys = s.sys ∧ s'.left < s.left := by
  simp only [step] at h
  split at h
  case isFalse => cases h
  case isTrue hw =>
    obtain ⟨m, hm, rfl⟩ := Option.map_eq_some_iff.1 h
    have htaken := Writer.taken_deliver hw m
    have hlt := (List.getElem?_eq_some_iff.1 hm).1
    refine ⟨rfl, ?_⟩
    simp only [left, hw, if_true, htaken]
    split <;> omega

theorem step_writer_of_left (h : s.left = 0) : s.step host .writer = none := by
  simp only [left] at h
  simp only [step]
  split at h
  case isTrue hw => rw [if_pos hw, List.getElem?_eq_none (by omega), Option.map_none]
  case isFalse hw => rw [if_neg hw]

theorem run_writer_of_none (h : s.step host .writer = none) (n : Nat) :
    s.run host (List.replicate n (.step .writer)) = s := by
  induction n with
  | zero => rfl
  | succ n ih =>
    change ((s.step host .writer).getD s).run host (List.replicate n (.step .writer)) = s
    rw [h, Option.getD_none, ih]

theorem step_run_writer {n : Nat} (hn : s.left ≤ n) :
    (s.run host (List.replicate n (.step .writer))).step host .writer = none := by
  induction n generalizing s with
  | zero => exact step_writer_of_left (Nat.le_zero.1 hn)
  | succ n ih =>
    cases hstep : s.step host .writer with
    | none => rw [run_writer_of_none hstep, hstep]
    | some s' =>
      change (((s.step host .writer).getD s).run host (List.replicate n (.step .writer))).step host
        .writer = none
      have hlt := (left_of_writer hstep).2
      rw [hstep, Option.getD_some]
      exact ih (by omega)

/-- In whatever order the sides and the writer move, they come to rest. -/
theorem acc_step (host : Host σ τ) (s : Service σ τ) :
    Acc (fun after before => ∃ agent, step host agent before = some after) s := by
  have hlt {after before : Service σ τ} (h : ∃ agent, step host agent before = some after) :
      Prod.Lex (· < ·) (· < ·) (after.sys.cost, after.left) (before.sys.cost, before.left) := by
    obtain ⟨agent, h⟩ := h
    match agent with
    | .side .session =>
      obtain ⟨sys, hsys, rfl⟩ := Option.map_eq_some_iff.1 h
      exact .left _ _ (System.cost_lt_of_sessionStep (System.sessionStep_of_step hsys))
    | .side .thread =>
      obtain ⟨sys, hsys, rfl⟩ := Option.map_eq_some_iff.1 h
      exact .left _ _ (System.cost_lt_of_threadStep (System.threadStep_of_step hsys))
    | .writer =>
      obtain ⟨hsys, hleft⟩ := left_of_writer h
      rw [hsys]
      exact .right _ hleft
  exact Subrelation.accessible hlt
    (InvImage.accessible (fun s : Service σ τ => (s.sys.cost, s.left))
      ((Prod.lex Nat.lt_wfRel Nat.lt_wfRel).wf.apply _))

theorem Penned.returned?_eq (h : Penned fresh s) (hf : fresh.taken = 0)
    (hfresh : fresh.state = .writing) (hrest : s.step host .writer = none)
    {result : Except AdapterError Unit} (hp : s.sys.session.phase = .ended result) :
    s.returned? = some result := by
  have hstate : s.writer.state ≠ .writing := by
    rw [h.at_rest hf hrest]
    obtain hopen | ⟨before, behind, ho, hbefore⟩ := exists_mark s.sys.handle.outbox
    · exact absurd rfl (hopen _ (h.marked result hp))
    · have hclosed := Writer.flush_of_closed behind hbefore hfresh hf
      rw [ho]
      split at hclosed
      · rw [hclosed.1]
        nofun
      · rw [hclosed.1]
        nofun
  rw [returned?, if_neg hstate, result?, hp]

theorem returned?_of_going {s : Service σ τ}
    (hp : ∀ result, s.sys.session.phase ≠ .ended result) : s.returned? = none := by
  unfold returned? result?
  split
  · rfl
  · split
    · exact absurd ‹_› (hp _)
    · rfl

theorem Penned.returned?_congr {t : Service σ τ} {fresh' : Writer} (h : Penned fresh s)
    (h' : Penned fresh' t) (hf : fresh.taken = 0 ∧ fresh.state = .writing)
    (hf' : fresh'.taken = 0 ∧ fresh'.state = .writing) (hsys : s.sys = t.sys)
    (hrest : s.step host .writer = none) (hrest' : t.step host .writer = none) :
    s.returned? = t.returned? := by
  by_cases hp : ∃ result, s.sys.session.phase = .ended result
  · obtain ⟨result, hp⟩ := hp
    rw [h.returned?_eq hf.1 hf.2 hrest hp, h'.returned?_eq hf'.1 hf'.2 hrest' (hsys ▸ hp)]
  · have hp := not_exists.1 hp
    rw [returned?_of_going hp, returned?_of_going (hsys ▸ hp)]

-- ---------------------------------------------------------------------------
-- The wire
-- ---------------------------------------------------------------------------

/-- What a client that takes so many bytes has got. -/
structure Transcribed (host : Host σ τ) (endpoint : String) (room : Option Nat)
    (s : Service σ τ) : Prop where
  sofar : ∃ k ≤ (queued s.sys.handle.outbox).length, s.writer.sink.accepted =
    within room (transcript endpoint 1 ((queued s.sys.handle.outbox).take k))
  complete : s.step host .writer = none → s.writer.sink.accepted =
    within room (transcript endpoint 1 (queued s.sys.handle.outbox))
  /-- A session that has ended returns once the writer has nothing left to do. -/
  returned : s.step host .writer = none → ∀ result, s.sys.session.phase = .ended result →
    s.returned? = some result
  /-- By itself the writer brings it to that in no more steps than there are entries in the outbox,
  wherever it stands, and nothing else changes. -/
  settles : ∀ n, s.sys.handle.outbox.length ≤ n → ∃ w,
    s.run host (List.replicate n (.step .writer)) = s.withWriter w ∧
      (s.withWriter w).step host .writer = none ∧
      w.sink.accepted = within room (transcript endpoint 1 (queued s.sys.handle.outbox)) ∧
      ∀ result, s.sys.session.phase = .ended result → (s.withWriter w).returned? = some result

theorem Penned.transcribed {endpoint : String} {room : Option Nat}
    (h : Penned (.fresh endpoint room) s)
    (few : (queued s.sys.handle.outbox).length < UInt32.size - 1) :
    Transcribed host endpoint room s := by
  refine ⟨?sofar, fun hrest => ?complete, fun hrest result hp => h.returned?_eq rfl rfl hrest hp,
    fun n hn => ?settles⟩
  case sofar =>
    obtain ⟨k, -, hwriter⟩ := h.written
    obtain ⟨n, hn, htake⟩ := exists_queued_take s.sys.handle.outbox k
    refine ⟨n, hn, ?_⟩
    rw [hwriter, Writer.accepted_flush endpoint room ?_, htake]
    rw [htake, List.length_take]
    omega
  case complete => rw [h.at_rest rfl hrest, Writer.accepted_flush endpoint room few]
  case settles =>
    have hleft : s.left ≤ n := by
      unfold left
      split <;> omega
    have hrest : (s.run host (List.replicate n (.step .writer))).step host .writer = none :=
      step_run_writer hleft
    have hpenned := h.run host rfl (List.replicate n (.step .writer))
    obtain ⟨w, hw⟩ := exists_run_moves host s (List.replicate n (.step .writer))
    rw [List.filterMap_replicate_of_none rfl] at hw
    change _ = s.withWriter w at hw
    rw [hw] at hrest hpenned
    refine ⟨w, hw, hrest, ?_, fun result hp => hpenned.returned?_eq rfl rfl hrest hp⟩
    have hwriter : w = (Writer.fresh endpoint room).flush s.sys.handle.outbox :=
      hpenned.at_rest rfl hrest
    rw [hwriter, Writer.accepted_flush endpoint room few]

/-- Two services that differ in what was written, and in nothing else: not in the messages that
are queued, the stops, the target, the requests that were dispatched, what became of the stops, or
the calls of the controller. -/
structure SameButWritten (host : Host σ τ) (s t : Service σ τ) : Prop where
  sys : s.sys = t.sys
  deeds : s.deeds = t.deeds
  entries : s.entries = t.entries
  calls : s.calls = t.calls
  returned : s.step host .writer = none → t.step host .writer = none → s.returned? = t.returned?

/-- Whoever moves when: what the client gets are the messages in the order in which they were
queued, numbered from one, or the first bytes of that; no order of steps goes on for ever; and all
else is as it would be if the client took every byte, whenever the writer moved. -/
theorem written_in_order (host : Host σ τ) (debugger : Debugger) (target : τ)
    (program : List (Item σ)) (endpoint : String) (room : Option Nat) (acts : List Act)
    (few : (queued ((start endpoint room debugger target program).run host
      acts).sys.handle.outbox).length < UInt32.size - 1) :
    Transcribed host endpoint room ((start endpoint room debugger target program).run host acts) ∧
      Acc (fun after before => ∃ agent, step host agent before = some after)
        ((start endpoint room debugger target program).run host acts) ∧
      ∀ acts' : List Act, acts'.filterMap Act.move? = acts.filterMap Act.move? →
        SameButWritten host ((start endpoint room debugger target program).run host acts)
          ((start endpoint none debugger target program).run host acts') := by
  have hpenned (room : Option Nat) (acts : List Act) :=
    (penned_start endpoint room debugger target program).run host rfl acts
  refine ⟨?transcribed, acc_step host _, ?same⟩
  case transcribed => exact (hpenned room acts).transcribed few
  case same =>
    intro acts' hsame
    obtain ⟨w, hw⟩ :=
      exists_run_moves host (start endpoint room debugger target program) acts
    obtain ⟨w', hw'⟩ :=
      exists_run_moves host (start endpoint none debugger target program) acts'
    have hstart : start endpoint none debugger target program =
      (start endpoint room debugger target program).withWriter (.fresh endpoint none) := rfl
    rw [hsame, hstart, run_withWriter] at hw'
    have h := hpenned room acts
    have h' := hpenned none acts'
    rw [hstart] at h' ⊢
    rw [hw] at h ⊢
    rw [hw'] at h' ⊢
    exact ⟨rfl, rfl, rfl, rfl, h.returned?_congr h' ⟨rfl, rfl⟩ ⟨rfl, rfl⟩ rfl⟩

/-- The client is told of a stop, takes forty bytes of that and hangs up. -/
def shortActs : List Act :=
  [.step (.side .thread), .step (.side .thread), .step (.side .thread), .step .writer, .hangUp]

def shortService (room : Option Nat) : Service Scripted.Stack OneShot :=
  start "/dap" room (.fresh .sensitive) {} [.stop { reason := "pause" } tableStack]

theorem written_in_order_short :
    (queued ((shortService (some 40)).run scriptedHost shortActs).sys.handle.outbox).length <
        UInt32.size - 1 ∧
      Transcribed scriptedHost "/dap" (some 40)
        ((shortService (some 40)).run scriptedHost shortActs) ∧
      SameButWritten scriptedHost ((shortService (some 40)).run scriptedHost shortActs)
        ((shortService none).run scriptedHost (shortActs.filter fun act => act.move?.isSome)) := by
  have few : (queued ((shortService (some 40)).run scriptedHost
      shortActs).sys.handle.outbox).length < UInt32.size - 1 := by decide +kernel
  obtain ⟨htranscribed, -, hsame⟩ := written_in_order scriptedHost (.fresh .sensitive) {}
    [.stop { reason := "pause" } tableStack] "/dap" (some 40) shortActs few
  exact ⟨few, htranscribed, hsame _ rfl⟩

end Service

end DebugAdapter
