import DebugAdapter.Packet.Header

/-!
# Packets

`Buffer` collects the bytes of a stream and gives out the bodies of complete packets. A refused
header is dropped together with the empty line after it; the bytes behind it stay.
-/

namespace DebugAdapter.Packet

/-- Header and remainder, cut at the first empty line, which belongs to neither. -/
def splitHeader? : Bytes → Option (Bytes × Bytes)
  | [] => none
  | 13 :: 10 :: 13 :: 10 :: rest => some ([], rest)
  | b :: r => (splitHeader? r).map fun (header, rest) => (b :: header, rest)

theorem length_of_splitHeader? {b header rest : Bytes} (h : splitHeader? b = some (header, rest)) :
    b.length = header.length + 4 + rest.length := by
  fun_induction splitHeader? b generalizing header rest with
  | case1 => simp at h
  | case2 => simp at h; obtain ⟨rfl, rfl⟩ := h; simp; omega
  | case3 b r _ ih =>
    simp at h
    obtain ⟨header', ht, rfl⟩ := h
    have := ih ht
    simp; omega

/-- The bytes that arrived and were not given out yet. -/
structure Buffer where
  bytes : Bytes := []
deriving DecidableEq, Repr

def Buffer.extend (buffer : Buffer) (chunk : Bytes) : Buffer := ⟨buffer.bytes ++ chunk⟩

def Buffer.size (buffer : Buffer) : Nat := buffer.bytes.length

/-- The body of the next packet, none while it is incomplete, or why its header is refused. -/
def Buffer.next (buffer : Buffer) : Except HeaderError (Option Bytes) × Buffer :=
  match splitHeader? buffer.bytes with
  | none => (.ok none, buffer)
  | some (header, rest) =>
    match bodyLength header with
    | .error e => (.error e, ⟨rest⟩)
    | .ok n =>
      if rest.length < n then (.ok none, buffer)
      else (.ok (some (rest.take n)), ⟨rest.drop n⟩)

theorem Buffer.next_waiting {buffer after : Buffer} (h : buffer.next = (.ok none, after)) :
    after = buffer := by
  unfold Buffer.next at h
  repeat' split at h
  all_goals simp_all

theorem Buffer.size_of_next_body {buffer after : Buffer} {body : Bytes}
    (h : buffer.next = (.ok (some body), after)) : after.size + 4 ≤ buffer.size := by
  unfold Buffer.next at h
  repeat' split at h
  all_goals simp_all
  have := length_of_splitHeader? ‹_›
  obtain ⟨-, rfl⟩ := h
  simp [Buffer.size]; omega

def encode (endpoint : String) (body : Bytes) : Bytes :=
  Text.utf8 s!"POST {endpoint} HTTP/1.1\r\nContent-Type: application/json\r\nContent-Length: "
    ++ Text.utf8 (String.ofList (Decimal.numeral body.length)) ++ [13, 10, 13, 10] ++ body

end DebugAdapter.Packet
