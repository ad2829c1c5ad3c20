import DebugAdapter.Proofs.Interleaved
import DebugAdapter.Proofs.Packet.RoundTrip

/-!
# Streams with failures

A failure of the transport makes one read fail, and bodies that are no JSON are passed over where a
message is asked for. Neither changes what else is read: the main statement is `reads_interrupted`.
One read takes what it gives from the front of what is pending (`Hands`), and so do many, of
whatever kind (`HandsAll`).
-/

namespace DebugAdapter.Packet

variable {α : Type}

-- ---------------------------------------------------------------------------
-- What is pending
-- ---------------------------------------------------------------------------

def Arrival.bytes : Arrival → Bytes
  | .chunk bytes => bytes
  | .failure _ => []

def Arrival.failure? : Arrival → Option String
  | .chunk _ => none
  | .failure text => some text

structure Pending where
  found : List Found := []
  failures : List String := []

def Pending.size (p : Pending) : Nat := p.found.length + p.failures.length

def Reader.ofFeed (feed : List Arrival) : Reader := { arrivals := feed, ended := true }

def Reader.pending (r : Reader) : Pending where
  found := (Buffer.drain ⟨r.buffer.bytes ++ r.arrivals.flatMap Arrival.bytes⟩).1
  failures := r.arrivals.filterMap Arrival.failure?

/-- One read hands out what is pending first, but for bodies that it has no use for. A failure may
come up at any time. The end comes up when nothing is pending. -/
inductive Hands (give : Bytes → Option α) : Read α → Pending → Pending → Prop
  | skip {x : Read α} {body : Bytes} {fs : List Found} {ts : List String} {after : Pending} :
      give body = none → Hands give x ⟨fs, ts⟩ after → Hands give x ⟨.ok body :: fs, ts⟩ after
  | item {body : Bytes} {a : α} {fs : List Found} {ts : List String} :
      give body = some a → Hands give (.item a) ⟨.ok body :: fs, ts⟩ ⟨fs, ts⟩
  | malformed {e : HeaderError} {fs : List Found} {ts : List String} :
      Hands give (.malformed e) ⟨.error e :: fs, ts⟩ ⟨fs, ts⟩
  | failed {text : String} {fs : List Found} {ts : List String} :
      Hands give (.failed text) ⟨fs, text :: ts⟩ ⟨fs, ts⟩
  | ended : Hands give .ended {} {}

theorem Hands.of_packet {x : Read Bytes} {p after : Pending} (h : Hands some x p after) :
    match x with
    | .item body => p = ⟨.ok body :: after.found, after.failures⟩
    | .malformed e => p = ⟨.error e :: after.found, after.failures⟩
    | .failed text => p = ⟨after.found, text :: after.failures⟩
    | .ended => p = {} ∧ after = {}
    | .blocked => False := by
  cases h with
  | skip hbody => cases hbody
  | item hbody =>
    cases hbody
    rfl
  | malformed | failed => rfl
  | ended => exact ⟨rfl, rfl⟩

-- ---------------------------------------------------------------------------
-- One read
-- ---------------------------------------------------------------------------

theorem drain_of_next_append {buffer after : Buffer} {r : Except HeaderError (Option Bytes)}
    (h : buffer.next = (r, after)) (hr : r ≠ .ok none) (more : Bytes) :
    (Buffer.drain ⟨buffer.bytes ++ more⟩).1 =
      found r ++ (Buffer.drain ⟨after.bytes ++ more⟩).1 :=
  congrArg Prod.fst (Buffer.drain_of_next (Buffer.next_extend h hr more) hr)

namespace Reader

variable {r after : Reader}

theorem ended_of_readPacket {x : Read Bytes} (h : r.readPacket = (x, after)) :
    after.ended = r.ended := (ended_of_readFrom h).1

theorem readPacket_hands {x : Read Bytes} (hended : r.ended = true)
    (h : r.readPacket = (x, after)) : Hands some x r.pending after.pending := by
  obtain ⟨buffer, arrivals, ended⟩ := r
  obtain rfl : ended = true := hended
  unfold readPacket at h
  simp only at h
  unfold pending
  fun_induction readFrom true buffer arrivals with
  | case1 buffer body next arrivals hnext =>
    cases h
    rw [drain_of_next_append hnext (by simp)]
    exact .item rfl
  | case2 buffer e next arrivals hnext =>
    cases h
    rw [drain_of_next_append hnext (by simp)]
    exact .malformed
  | case3 buffer next hnext =>
    cases h
    obtain rfl := Buffer.next_waiting hnext
    simp only [List.flatMap_nil, List.append_nil, Buffer.drain_of_waiting hnext]
    exact .ended
  | case4 buffer next text rest hnext =>
    cases h
    exact .failed
  | case5 buffer next bytes rest hnext ih =>
    have hands := ih h
    simp only [Buffer.extend, List.append_assoc] at hands
    exact hands

theorem readMessage_hands {x : Read Json} (hended : r.ended = true)
    (h : r.readMessage = (x, after)) :
    Hands Json.ofBytes? x r.pending after.pending ∧ after.ended = true := by
  fun_induction readMessage r with
  | case1 r body next hp j hj =>
    cases h
    exact ⟨(readPacket_hands hended hp).of_packet ▸ .item hj, ended_of_readPacket hp ▸ hended⟩
  | case2 r body next hp hj ih =>
    obtain ⟨hands, hafter⟩ := ih (ended_of_readPacket hp ▸ hended) h
    exact ⟨(readPacket_hands hended hp).of_packet ▸ .skip hj hands, hafter⟩
  | case3 r e next hp =>
    cases h
    exact ⟨(readPacket_hands hended hp).of_packet ▸ .malformed, ended_of_readPacket hp ▸ hended⟩
  | case4 r text next hp =>
    cases h
    exact ⟨(readPacket_hands hended hp).of_packet ▸ .failed, ended_of_readPacket hp ▸ hended⟩
  | case5 r next hp =>
    cases h
    obtain ⟨hnothing, hstill⟩ := (readPacket_hands hended hp).of_packet
    rw [hnothing, hstill]
    exact ⟨.ended, ended_of_readPacket hp ▸ hended⟩
  | case6 r next hp => exact (readPacket_hands hended hp).of_packet.elim

end Reader

-- ---------------------------------------------------------------------------
-- Reads of one kind
-- ---------------------------------------------------------------------------

def foundRead? (give : Bytes → Option α) : Found → Option (Read α)
  | .ok body => (give body).map .item
  | .error e => some (.malformed e)

/-- The failures of a stream came up among the other results. -/
def Pending.Mixed (give : Bytes → Option α) (p : Pending) (results : List (Read α)) : Prop :=
  Interleaved (p.failures.map .failed) (p.found.filterMap (foundRead? give)) results

namespace Hands

variable {give : Bytes → Option α} {x : Read α} {p after : Pending}

theorem mixed {results : List (Read α)} (h : Hands give x p after) (hmore : x ≠ .ended)
    (hresults : after.Mixed give results) : p.Mixed give (x :: results) := by
  induction h with
  | skip hbody _ ih => simpa [Pending.Mixed, foundRead?, hbody] using ih hmore hresults
  | item hbody => simpa [Pending.Mixed, foundRead?, hbody] using hresults.right _
  | malformed => exact hresults.right _
  | failed => exact hresults.left _
  | ended => exact absurd rfl hmore

theorem mixed_of_ended (h : Hands give .ended p after) : p.Mixed give [] := by
  generalize hx : Read.ended = x at h
  induction h with
  | skip hbody _ ih => simpa [Pending.Mixed, foundRead?, hbody] using ih hx
  | ended => exact .nil
  | item | malformed | failed => cases hx

theorem size_lt (h : Hands give x p after) (hmore : x ≠ .ended) : after.size < p.size := by
  induction h with
  | skip _ _ ih => exact Nat.lt_trans (ih hmore) (by simp [Pending.size])
  | item | malformed | failed => simp [Pending.size]
  | ended => exact absurd rfl hmore

end Hands

def HandsOut (give : Bytes → Option α) (read : Reader → Read α × Reader) : Prop :=
  ∀ r : Reader, r.ended = true →
    Hands give (read r).1 r.pending (read r).2.pending ∧ (read r).2.ended = true

namespace Reader

theorem handsOut_readPacket : HandsOut some readPacket := fun _ hended =>
  ⟨readPacket_hands hended rfl, (ended_of_readPacket rfl).trans hended⟩

theorem handsOut_readMessage : HandsOut Json.ofBytes? readMessage := fun _ hended =>
  readMessage_hands hended rfl

theorem exists_reads {give : Bytes → Option α} {read : Reader → Read α × Reader}
    (hread : HandsOut give read) (r : Reader) (hended : r.ended = true) :
    ∃ results, (r.reads read (results.length + 1)).1 = results ++ [Read.ended] ∧
      .ended ∉ results ∧ r.pending.Mixed give results := by
  induction hn : r.pending.size using Nat.strongRecOn generalizing r with
  | ind n ih =>
    obtain ⟨hands, hafter⟩ := hread r hended
    by_cases hx : (read r).1 = .ended
    · exact ⟨[], by simp [reads, hx], List.not_mem_nil, (hx ▸ hands).mixed_of_ended⟩
    · obtain ⟨results, hreads, hnone, hmixed⟩ :=
        ih _ (hn ▸ hands.size_lt hx) (read r).2 hafter rfl
      refine ⟨(read r).1 :: results, ?_, ?_, hands.mixed hx hmixed⟩
      · rw [List.length_cons, reads, hreads, List.cons_append]
      · exact fun h => (List.mem_cons.1 h).elim (fun h => hx h.symm) hnone

end Reader

-- ---------------------------------------------------------------------------
-- Reads of both kinds
-- ---------------------------------------------------------------------------

inductive Call where
  | packet
  | message
deriving DecidableEq, Repr

inductive Given where
  | body (bytes : Bytes)
  | message (j : Json)

def Call.give : Call → Bytes → Option Given
  | .packet, body => some (.body body)
  | .message, body => (Json.ofBytes? body).map .message

def Read.map {β : Type} (f : α → β) : Read α → Read β
  | .item a => .item (f a)
  | .malformed e => .malformed e
  | .failed text => .failed text
  | .ended => .ended
  | .blocked => .blocked

def Reader.call (r : Reader) : Call → Read Given × Reader
  | .packet => (r.readPacket.1.map .body, r.readPacket.2)
  | .message => (r.readMessage.1.map .message, r.readMessage.2)

/-- What some calls in a row give, and the reader after them. -/
def Reader.calls (r : Reader) : List Call → List (Read Given) × Reader
  | [] => ([], r)
  | c :: cs => ((r.call c).1 :: ((r.call c).2.calls cs).1, ((r.call c).2.calls cs).2)

/-- Calls in a row hand out what is pending, each from where the one before left off. -/
inductive HandsAll : List Call → List (Read Given) → Pending → Pending → Prop
  | nil (p : Pending) : HandsAll [] [] p p
  | cons {c : Call} {cs : List Call} {x : Read Given} {xs : List (Read Given)}
      {p between after : Pending} :
      Hands c.give x p between → HandsAll cs xs between after → HandsAll (c :: cs) (x :: xs) p after

theorem Hands.map {β : Type} {give : Bytes → Option α} {x : Read α} {p after : Pending} (f : α → β)
    (h : Hands give x p after) : Hands (fun body => (give body).map f) (x.map f) p after := by
  induction h with
  | skip hbody _ ih => exact .skip (by rw [hbody]; rfl) ih
  | item hbody => exact .item (by rw [hbody]; rfl)
  | malformed => exact .malformed
  | failed => exact .failed
  | ended => exact .ended

theorem HandsAll.ended_or {calls : List Call} {results : List (Read Given)} {p after : Pending}
    (h : HandsAll calls results p after) : .ended ∈ results ∨ calls.length ≤ p.size := by
  induction h with
  | nil => exact .inr (Nat.zero_le _)
  | @cons c cs x xs p between after hands _ ih =>
    by_cases hx : x = .ended
    · exact .inl (hx ▸ List.mem_cons_self)
    · exact ih.imp (List.mem_cons_of_mem _)
        fun hle => Nat.succ_le_of_lt (Nat.lt_of_le_of_lt hle (hands.size_lt hx))

namespace Reader

theorem call_hands {r : Reader} (hended : r.ended = true) (c : Call) :
    Hands c.give (r.call c).1 r.pending (r.call c).2.pending ∧ (r.call c).2.ended = true := by
  cases c with
  | packet =>
    obtain ⟨hands, hafter⟩ := handsOut_readPacket r hended
    exact ⟨hands.map _, hafter⟩
  | message =>
    obtain ⟨hands, hafter⟩ := handsOut_readMessage r hended
    exact ⟨hands.map _, hafter⟩

theorem calls_hands {r : Reader} (hended : r.ended = true) (calls : List Call) :
    HandsAll calls (r.calls calls).1 r.pending (r.calls calls).2.pending := by
  induction calls generalizing r with
  | nil => exact .nil _
  | cons c cs ih =>
    obtain ⟨hands, hafter⟩ := call_hands hended c
    exact .cons hands (ih hafter)

end Reader

-- ---------------------------------------------------------------------------
-- Whole streams
-- ---------------------------------------------------------------------------

/-- Reads of one kind go on to the end of a stream. Each failure has come up once, and apart from
that the results are those of the same bytes without failures: one for each thing found in them. -/
structure Undisturbed (give : Bytes → Option α) (read : Reader → Read α × Reader)
    (feed : List Arrival) (found : List Found) : Prop where
  calm :
    let chunks := feed.filter fun a => a.failure?.isNone
    let results := found.filterMap (foundRead? give)
    ((Reader.ofFeed chunks).reads read (results.length + 1)).1 = results ++ [.ended]
  disturbed : ∃ results,
    ((Reader.ofFeed feed).reads read (results.length + 1)).1 = results ++ [.ended] ∧
      .ended ∉ results ∧
      Interleaved ((feed.filterMap Arrival.failure?).map .failed)
        (found.filterMap (foundRead? give)) results

theorem pending_calm (feed : List Arrival) :
    (Reader.ofFeed (feed.filter fun a => a.failure?.isNone)).pending =
      ⟨(Reader.ofFeed feed).pending.found, []⟩ := by
  have hbytes : (feed.filter fun a => a.failure?.isNone).flatMap Arrival.bytes =
      feed.flatMap Arrival.bytes := by
    induction feed with
    | nil => rfl
    | cons a feed ih =>
      cases a with
      | chunk bytes => exact congrArg (bytes ++ ·) ih
      | failure text => exact ih
  have hfailures : (feed.filter fun a => a.failure?.isNone).filterMap Arrival.failure? = [] := by
    simp [List.filterMap_eq_nil_iff]
  simp only [Reader.pending, Reader.ofFeed, hbytes, hfailures]

theorem undisturbed {give : Bytes → Option α} {read : Reader → Read α × Reader}
    (hread : HandsOut give read) (feed : List Arrival) :
    Undisturbed give read feed (Buffer.drain ⟨feed.flatMap Arrival.bytes⟩).1 where
  calm := by
    obtain ⟨results, hreads, -, hmixed⟩ :=
      Reader.exists_reads hread (.ofFeed (feed.filter fun a => a.failure?.isNone)) rfl
    rw [Pending.Mixed, pending_calm] at hmixed
    obtain rfl := hmixed.eq_of_nil
    exact hreads
  disturbed := by
    obtain ⟨results, hreads, hmore, hmixed⟩ := Reader.exists_reads hread (.ofFeed feed) rfl
    exact ⟨results, hreads, hmore, hmixed⟩

/-- Whatever the chunks of a stream and wherever failures stand among them: read up to the end,
message by message, it gives each failure once, and apart from that just what its bytes give in one
buffer, without the bodies that are no JSON. The same holds of reads packet by packet, where no body
is left out. However the two are mixed, each call goes on where the one before left off, and passes
over nothing but a body that is no JSON where a message is asked for; with as many calls as there
are packets and failures, and one more, the end comes up. -/
theorem reads_interrupted (feed : List Arrival) :
    let found := (Buffer.drain ⟨feed.flatMap Arrival.bytes⟩).1
    let failures := feed.filterMap Arrival.failure?
    Undisturbed Json.ofBytes? Reader.readMessage feed found ∧
    Undisturbed some Reader.readPacket feed found ∧
    ∀ calls : List Call,
      let (results, after) := (Reader.ofFeed feed).calls calls
      HandsAll calls results ⟨found, failures⟩ after.pending ∧
        (.ended ∈ results ∨ calls.length ≤ found.length + failures.length) := by
  intro found failures
  refine ⟨undisturbed Reader.handsOut_readMessage feed, undisturbed Reader.handsOut_readPacket feed,
    fun calls => ?_⟩
  have hands := Reader.calls_hands (r := .ofFeed feed) rfl calls
  exact ⟨hands, hands.ended_or⟩

end DebugAdapter.Packet
