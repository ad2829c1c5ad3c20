import DebugAdapter.Proofs.Json.ReadBack
import DebugAdapter.Proofs.Packet.Envelope
import DebugAdapter.Proofs.Packet.Stream
import DebugAdapter.Session.Writer

/-!
# What is written is read

The main statement is `reads_written`: bodies and messages that are written under an accepted
endpoint are read one by one as they were, however the bytes are cut into chunks, and after the last
of them the stream is at its end with nothing left over.
-/

namespace DebugAdapter

-- ---------------------------------------------------------------------------
-- Writing
-- ---------------------------------------------------------------------------

theorem Writer.foldl_write {w : Writer} (unlimited : w.sink.room = none) (messages : List Json) :
    messages.foldl write w =
      { w with sink := { w.sink with
          accepted := w.sink.accepted ++ messages.flatMap (Packet.ofJson w.endpoint) } } := by
  induction messages generalizing w with
  | nil => simp
  | cons m messages ih =>
    have step : w.write m =
        { w with sink := { w.sink with
            accepted := w.sink.accepted ++ Packet.ofJson w.endpoint m } } := by
      simp [write, Packet.Sink.write, unlimited]
    rw [List.foldl_cons, ih (by simp [step, unlimited]), step]
    simp

-- ---------------------------------------------------------------------------
-- A stream in chunks
-- ---------------------------------------------------------------------------

namespace Packet.Reader

def ofChunks (chunks : List Bytes) : Reader := { arrivals := chunks.map .chunk, ended := true }

/-- Just these bytes are still to be read, in whatever chunks, and then the stream ends. -/
def Holds (r : Reader) (bytes : Bytes) : Prop :=
  ∃ chunks : List Bytes, r.arrivals = chunks.map .chunk ∧ r.ended = true ∧
    r.buffer.bytes ++ chunks.flatten = bytes

theorem holds_ofChunks (chunks : List Bytes) : (ofChunks chunks).Holds chunks.flatten :=
  ⟨chunks, rfl, rfl, rfl⟩

theorem readPacket_of_next {r : Reader} {bytes body rest : Bytes} (h : r.Holds bytes)
    (next : Buffer.next ⟨bytes⟩ = (.ok (some body), ⟨rest⟩)) :
    ∃ after, r.readPacket = (.item body, after) ∧ after.Holds rest := by
  obtain ⟨buffer, arrivals, ended⟩ := r
  obtain ⟨chunks, rfl, rfl, rfl⟩ := h
  unfold readPacket
  induction chunks generalizing buffer with
  | nil =>
    have here : buffer.next = (.ok (some body), ⟨rest⟩) := by simpa using next
    exact ⟨⟨⟨rest⟩, [], true⟩, by rw [List.map_nil, readFrom.eq_def, here], [], rfl, rfl, by simp⟩
  | cons chunk chunks ih =>
    by_cases waits : buffer.next = (.ok none, buffer)
    · obtain ⟨after, found, left⟩ := ih (buffer.extend chunk) (by simpa [Buffer.extend] using next)
      refine ⟨after, ?_, left⟩
      rw [List.map_cons, readFrom.eq_def, waits]
      exact found
    · obtain ⟨found, after, here⟩ : ∃ found after, buffer.next = (found, after) := ⟨_, _, rfl⟩
      have item : found ≠ .ok none := by
        rintro rfl
        obtain rfl := Buffer.next_waiting here
        exact waits here
      -- What the buffer gives out already, it gives out with all chunks in it.
      have later := Buffer.next_extend here item (chunk :: chunks).flatten
      rw [Buffer.extend, next] at later
      obtain ⟨rfl, left⟩ := Prod.mk.inj later
      exact ⟨⟨after, (chunk :: chunks).map .chunk, true⟩, by rw [readFrom.eq_def, here],
        chunk :: chunks, rfl, rfl, (congrArg Buffer.bytes left).symm⟩

theorem readPacket_at_end {r : Reader} (h : r.Holds []) :
    r.readPacket = (.ended, { ended := true }) := by
  obtain ⟨⟨bytes⟩, arrivals, ended⟩ := r
  obtain ⟨chunks, rfl, rfl, nothing⟩ := h
  obtain ⟨rfl, empty⟩ := List.append_eq_nil_iff.1 nothing
  clear nothing
  unfold readPacket
  induction chunks with
  | nil => rfl
  | cons chunk chunks ih =>
    rw [List.flatten_cons, List.append_eq_nil_iff] at empty
    obtain ⟨rfl, empty⟩ := empty
    exact ih empty

theorem readMessage_at_end {r : Reader} (h : r.Holds []) :
    r.readMessage = (.ended, { ended := true }) := by
  rw [readMessage, readPacket_at_end h]

-- ---------------------------------------------------------------------------
-- Reading on
-- ---------------------------------------------------------------------------

def reads {α : Type} (read : Reader → Read α × Reader) : Nat → Reader → List (Read α) × Reader
  | 0, r => ([], r)
  | n + 1, r => ((read r).1 :: (reads read n (read r).2).1, (reads read n (read r).2).2)

theorem reads_of_each {α : Type} {read : Reader → Read α × Reader} {wire : α → Bytes}
    {items : List α}
    (each : ∀ a ∈ items, ∀ (r : Reader) (rest : Bytes), r.Holds (wire a ++ rest) →
      ∃ after, read r = (.item a, after) ∧ after.Holds rest)
    (last : ∀ r : Reader, r.Holds [] → read r = (.ended, { ended := true }))
    {r : Reader} (h : r.Holds (items.flatMap wire)) :
    reads read (items.length + 1) r = (items.map .item ++ [Read.ended], { ended := true }) := by
  induction items generalizing r with
  | nil => simp [reads, last r h]
  | cons a items ih =>
    obtain ⟨after, found, left⟩ := each a (by simp) r _ h
    have rest := ih (fun b hb => each b (by simp [hb])) left
    rw [List.length_cons, reads, found, rest]
    rfl

end Packet.Reader

namespace Packet

/-- Under an accepted endpoint, bodies and messages within the bounds are read as they were written,
whatever they hold and however their bytes are cut. -/
theorem reads_written {endpoint : String} (accepted : Settings.Accepts endpoint) :
    (∀ bodies chunks : List Bytes, (∀ body ∈ bodies, body.length ≤ maxLength) →
      chunks.flatten = bodies.flatMap (encode endpoint) →
      (Reader.ofChunks chunks).reads Reader.readPacket (bodies.length + 1) =
        (bodies.map .item ++ [.ended], { ended := true })) ∧
    ∀ messages : List Json,
      (∀ m ∈ messages, m.Legible ∧ m.depth ≤ Json.messageDepth ∧
        (Text.utf8 m.text).length ≤ maxLength) →
      (messages.foldl Writer.write { endpoint := endpoint }).state = .writing ∧
      ∀ chunks : List Bytes,
        chunks.flatten = (messages.foldl Writer.write { endpoint := endpoint }).sink.accepted →
        (Reader.ofChunks chunks).reads Reader.readMessage (messages.length + 1) =
          (messages.map .item ++ [.ended], { ended := true }) := by
  constructor
  · intro bodies chunks fits wire
    have holds := Reader.holds_ofChunks chunks
    rw [wire] at holds
    refine Reader.reads_of_each (fun body hb r rest h => ?_)
      (fun _ => Reader.readPacket_at_end) holds
    exact Reader.readPacket_of_next h (Buffer.next_encode accepted (fits body hb) rest)
  · intro messages fits
    rw [Writer.foldl_write rfl]
    refine ⟨rfl, fun chunks wire => ?_⟩
    have holds := Reader.holds_ofChunks chunks
    rw [wire, List.nil_append] at holds
    refine Reader.reads_of_each (fun m hm r rest h => ?_)
      (fun _ => Reader.readMessage_at_end) holds
    obtain ⟨legible, nested, short⟩ := fits m hm
    obtain ⟨after, found, left⟩ :=
      Reader.readPacket_of_next h (Buffer.next_encode accepted short rest)
    exact ⟨after, Reader.readMessage_of_packet found (Json.ofBytes?_utf8_text legible nested), left⟩

def misleadingBodies : List Bytes := [Text.utf8 "\r\n\r\nContent-Length: 3\r\n\r\n", []]

def nestedMessages : List Json :=
  [.obj [("args", .arr [.int (-1), .str "\r\n\r\n\"", .null]), ("ok", .bool true)],
    .int (2 ^ 64 - 1)]

def cutAt (n : Nat) (bytes : Bytes) : List Bytes := [bytes.take n, [], bytes.drop n]

theorem reads_written_misleading :
    Settings.Accepts "/dap:8" ∧
    (∀ body ∈ misleadingBodies, body.length ≤ maxLength) ∧
    (∀ m ∈ nestedMessages, m.Legible ∧ m.depth ≤ Json.messageDepth ∧
      (Text.utf8 m.text).length ≤ maxLength) ∧
    (Reader.ofChunks (cutAt 80 (misleadingBodies.flatMap (encode "/dap:8")))).reads
        Reader.readPacket 3 =
      ([.item (Text.utf8 "\r\n\r\nContent-Length: 3\r\n\r\n"), .item [], .ended],
        { ended := true }) ∧
    (Reader.ofChunks (cutAt 80
        (nestedMessages.foldl Writer.write { endpoint := "/dap:8" }).sink.accepted)).reads
        Reader.readMessage 3 =
      (nestedMessages.map .item ++ [.ended], { ended := true }) := by
  have path : "/dap:8".toList = ['/', 'd', 'a', 'p', ':', '8'] := String.toList_ofList
  have accepted : Settings.Accepts "/dap:8" := by
    rw [Settings.accepts_iff, path]
    exact ⟨rfl, by simp [Text.isBlank, Text.inRanges, Text.blankRanges]⟩
  have fits : ∀ body ∈ misleadingBodies, body.length ≤ maxLength := by decide +kernel
  have legible : ∀ m ∈ nestedMessages, m.Legible ∧ m.depth ≤ Json.messageDepth ∧
      (Text.utf8 m.text).length ≤ maxLength := by
    have args : (Json.arr [.int (-1), .str "\r\n\r\n\"", .null]).Legible :=
      .arr (by simp [Json.Legible.int, Json.Legible.str, Json.Legible.null])
    have call : Json.Ascending [("args", .arr [.int (-1), .str "\r\n\r\n\"", .null]),
        ("ok", .bool true)] := List.pairwise_pair.2 (by decide)
    simp only [nestedMessages, List.forall_mem_cons, List.not_mem_nil, false_imp_iff, implies_true,
      and_true]
    exact ⟨⟨.obj call (by simp [args, Json.Legible.bool]), by decide +kernel, by decide +kernel⟩,
      .int (by decide) (by decide), by decide +kernel, by decide +kernel⟩
  have whole : ∀ bytes : Bytes, (cutAt 80 bytes).flatten = bytes := by simp [cutAt]
  exact ⟨accepted, fits, legible, (reads_written accepted).1 _ _ fits (whole _),
    ((reads_written accepted).2 _ legible).2 _ (whole _)⟩

end Packet

end DebugAdapter
