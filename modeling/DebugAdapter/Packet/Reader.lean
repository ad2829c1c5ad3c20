import DebugAdapter.Packet.Basic
import DebugAdapter.Json.Reader

/-!
# Reading packets and messages

A stream is what has arrived and was not read yet: chunks of bytes and failures of the transport,
and whether the end was reached behind them. Reading blocks where a packet is incomplete and the
stream goes on.
-/

namespace DebugAdapter.Packet

inductive Arrival where
  | chunk (bytes : Bytes)
  | failure (text : String)
deriving DecidableEq, Repr

structure Reader where
  buffer : Buffer := {}
  arrivals : List Arrival := []
  ended : Bool := false
deriving DecidableEq, Repr

inductive Read (α : Type) where
  | item (a : α)
  | malformed (e : HeaderError)
  | failed (text : String)
  | ended
  | blocked
deriving DecidableEq, Repr

def Reader.feed (r : Reader) (arrivals : List Arrival) : Reader :=
  { r with arrivals := r.arrivals ++ arrivals }

def Reader.finish (r : Reader) : Reader := { r with ended := true }

/-- Takes arrivals into the buffer until it yields a body or a refusal. -/
def readFrom (ended : Bool) (buffer : Buffer) (arrivals : List Arrival) : Read Bytes × Reader :=
  match buffer.next, arrivals with
  | (.ok (some body), after), arrivals => (.item body, ⟨after, arrivals, ended⟩)
  | (.error e, after), arrivals => (.malformed e, ⟨after, arrivals, ended⟩)
  | (.ok none, _), [] => (if ended then .ended else .blocked, ⟨buffer, [], ended⟩)
  | (.ok none, _), .failure text :: rest => (.failed text, ⟨buffer, rest, ended⟩)
  | (.ok none, _), .chunk bytes :: rest => readFrom ended (buffer.extend bytes) rest

def Reader.readPacket (r : Reader) : Read Bytes × Reader := readFrom r.ended r.buffer r.arrivals

-- ---------------------------------------------------------------------------
-- Messages
-- ---------------------------------------------------------------------------

def Arrival.size : Arrival → Nat
  | .chunk bytes => bytes.length
  | .failure _ => 0

def Arrival.sizeAll (arrivals : List Arrival) : Nat :=
  arrivals.foldr (fun a left => a.size + left) 0

/-- The bytes that are still to be given out. -/
def Reader.size (r : Reader) : Nat := r.buffer.size + Arrival.sizeAll r.arrivals

theorem size_of_readFrom_item {ended : Bool} {buffer : Buffer} {arrivals : List Arrival}
    {body : Bytes} {after : Reader} (h : readFrom ended buffer arrivals = (.item body, after)) :
    after.size < buffer.size + Arrival.sizeAll arrivals := by
  fun_induction readFrom ended buffer arrivals with
  | case1 _ _ _ _ hn =>
    have := Buffer.size_of_next_body hn
    simp at h
    obtain ⟨rfl, rfl⟩ := h
    simp [Reader.size]; omega
  | case2 => simp at h
  | case3 => split at h <;> simp at h
  | case4 => simp at h
  | case5 buffer _ _ bytes rest ih =>
    have := ih h
    simp [Buffer.size, Buffer.extend, Arrival.sizeAll, Arrival.size] at this ⊢
    omega

/-- The next message; bodies that are no JSON are passed over. -/
def Reader.readMessage (r : Reader) : Read Json × Reader :=
  match _body : r.readPacket with
  | (.item body, after) =>
    match Json.ofBytes? body with
    | some j => (.item j, after)
    | none => after.readMessage
  | (.malformed e, after) => (.malformed e, after)
  | (.failed text, after) => (.failed text, after)
  | (.ended, after) => (.ended, after)
  | (.blocked, after) => (.blocked, after)
termination_by r.size
decreasing_by exact size_of_readFrom_item _body

end DebugAdapter.Packet
