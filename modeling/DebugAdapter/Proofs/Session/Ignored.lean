import DebugAdapter.Proofs.Session.Akin
import DebugAdapter.Proofs.Session.Announcements

/-!
# Packets that do not matter

A packet may hold no JSON, something that is no message, a message that is no request, or a request
that cannot be read. Such packets can be deleted from a stream, or put into one, and no one will
ever know: `ignored_packets_change_nothing` compares all that a service can show on the two streams,
however they are cut into chunks and whoever moves when.
-/

namespace DebugAdapter

open Protocol

variable {σ τ : Type} {host : Host σ τ}

-- ---------------------------------------------------------------------------
-- Bodies
-- ---------------------------------------------------------------------------

/-- The body of a packet that the session passes over. -/
inductive Ignored (body : Bytes) : Prop
  | notJson : Json.ofBytes? body = none → Ignored body
  /-- It lacks a valid number or a valid type. -/
  | headless {message : Json} {e : DecodeError} : Json.ofBytes? body = some message →
      header.decode message = .error e → Ignored body
  /-- It is a response or an event. -/
  | notRequest {message : Json} {head : Header} : Json.ofBytes? body = some message →
      header.decode message = .ok head → head.kind ≠ .request → Ignored body
  | unreadable {message : Json} {e : DecodeError} : Json.ofBytes? body = some message →
      request.decode message = .error e → Ignored body

theorem requestOf?_eq_none {message : Json} : System.requestOf? message = none ↔
    (∃ e, header.decode message = .error e) ∨
      (∃ head, header.decode message = .ok head ∧ head.kind ≠ .request) ∨
      ∃ e, request.decode message = .error e := by
  unfold System.requestOf?
  cases header.decode message with
  | error e => simp
  | ok head =>
    by_cases hk : head.kind = .request
    · cases request.decode message <;> simp [hk, Except.toOption]
    · simp [hk]

theorem ignored_iff {body : Bytes} :
    Ignored body ↔ (Json.ofBytes? body).bind System.requestOf? = none := by
  constructor
  · rintro (hj | ⟨hj, he⟩ | ⟨hj, hh, hk⟩ | ⟨hj, he⟩)
    · rw [hj, Option.bind_none]
    · rw [hj, Option.bind_some, requestOf?_eq_none]
      exact .inl ⟨_, he⟩
    · rw [hj, Option.bind_some, requestOf?_eq_none]
      exact .inr (.inl ⟨_, hh, hk⟩)
    · rw [hj, Option.bind_some, requestOf?_eq_none]
      exact .inr (.inr ⟨_, he⟩)
  · intro h
    cases hj : Json.ofBytes? body with
    | none => exact .notJson hj
    | some message =>
      rw [hj, Option.bind_some, requestOf?_eq_none] at h
      obtain ⟨e, he⟩ | ⟨head, hh, hk⟩ | ⟨e, he⟩ := h
      · exact .headless hj he
      · exact .notRequest hj hh hk
      · exact .unreadable hj he

instance (body : Bytes) : Decidable (Ignored body) :=
  decidable_of_iff (((Json.ofBytes? body).bind System.requestOf?).isNone = true)
    (by rw [ignored_iff, Option.isNone_iff_eq_none])

-- ---------------------------------------------------------------------------
-- Streams
-- ---------------------------------------------------------------------------

namespace Packet

inductive Without : List Frame → List Frame → Prop
  | nil : Without [] []
  | keep (frame : Frame) {frames rest : List Frame} : Without frames rest →
      Without (frame :: frames) (frame :: rest)
  | drop {frame : Frame} {frames rest : List Frame} : Ignored frame.body → Without frames rest →
      Without (frame :: frames) rest

def wire (frames : List Frame) : Bytes := frames.flatMap (·.bytes)

theorem behind_wire_cons (frame : Frame) (frames : List Frame) (tail : Content) :
    tail.behind (wire (frame :: frames)) = (tail.behind (wire frames)).behind frame.bytes := by
  rw [Content.behind_behind]
  rfl

namespace Reader

variable {r after : Reader} {body : Bytes}

theorem akin_of_ignored (h : r.readPacket = (.item body, after)) (hi : Ignored body) :
    r.Akin after := by
  rw [ignored_iff] at hi
  cases hj : Json.ofBytes? body with
  | none =>
    have hread : r.readMessage = after.readMessage := by
      rw [readMessage, h]
      simp only [hj]
    exact ⟨by rw [requests, requests, messages.eq_def r, messages.eq_def after, hread],
      by rw [ending.eq_def r, ending.eq_def after, hread]⟩
  | some message =>
    rw [hj, Option.bind_some] at hi
    have hread := readMessage_of_packet h hj
    exact ⟨requests_of_junk hread hi, ending_of_message hread⟩

theorem akin_cons {r' after' : Reader} (h : r.readPacket = (.item body, after))
    (h' : r'.readPacket = (.item body, after')) (hakin : after.Akin after') : r.Akin r' := by
  by_cases hi : Ignored body
  · exact (akin_of_ignored h hi).trans (hakin.trans (akin_of_ignored h' hi).symm)
  · rw [ignored_iff] at hi
    obtain ⟨q, hq⟩ := Option.ne_none_iff_exists'.1 hi
    obtain ⟨message, hj, hq⟩ := Option.bind_eq_some_iff.1 hq
    have hread := readMessage_of_packet h hj
    have hread' := readMessage_of_packet h' hj
    refine ⟨?_, ?_⟩
    · rw [requests_of_request hread hq, requests_of_request hread' hq, hakin.requests]
    · rw [ending_of_message hread, ending_of_message hread', hakin.ending]

theorem akin_of_without {frames frames' : List Frame} (h : Without frames frames') (tail : Content)
    {r r' : Reader} (hr : r.content = tail.behind (wire frames))
    (hr' : r'.content = tail.behind (wire frames')) : r.Akin r' := by
  induction h generalizing r r' with
  | nil => exact akin_of_content (hr.trans hr'.symm)
  | keep frame h ih =>
    rw [behind_wire_cons] at hr hr'
    obtain ⟨after, hread, hc⟩ := exists_readPacket hr
    obtain ⟨after', hread', hc'⟩ := exists_readPacket hr'
    exact akin_cons hread hread' (ih hc hc')
  | drop hi h ih =>
    rw [behind_wire_cons] at hr
    obtain ⟨after, hread, hc⟩ := exists_readPacket hr
    exact (akin_of_ignored hread hi).trans (ih hc hr')

end Reader

end Packet

-- ---------------------------------------------------------------------------
-- Services
-- ---------------------------------------------------------------------------

namespace Service

/-- A service shows the same on two streams, on its way and at rest: the messages that are queued
and the bytes that are written, the requests that are dispatched, the stops and how they end, the
calls of the controller, the target, and the result. -/
structure Indistinguishable (host : Host σ τ) (s : Service σ τ)
    (arrivals : List Packet.Arrival) (ended : Bool) (arrivals' : List Packet.Arrival)
    (ended' : Bool) : Prop where
  shows (v : Service σ τ) : s.Shows host arrivals ended v ↔ s.Shows host arrivals' ended' v
  settles (v : Service σ τ) : s.Settles host arrivals ended v ↔ s.Settles host arrivals' ended' v

open Packet in
/-- Packets may be followed by anything, such as the beginning of another one, a header that is
refused, a failure of the transport, or the end. -/
theorem ignored_packets_change_nothing (host : Host σ τ) (debugger : Debugger) (target : τ)
    (program : List (Item σ)) (endpoint : String) (room : Option Nat)
    {frames frames' : List Frame} (without : Without frames frames') (tail : Content)
    {arrivals arrivals' : List Arrival} {ended ended' : Bool}
    (stream : Content.ofArrivals ended arrivals = tail.behind (wire frames))
    (stream' : Content.ofArrivals ended' arrivals' = tail.behind (wire frames')) :
    Indistinguishable host (start endpoint room debugger target program)
      arrivals ended arrivals' ended' := by
  have hakin : Reader.Akin { arrivals := arrivals, ended := ended }
      { arrivals := arrivals', ended := ended' } :=
    Reader.akin_of_without without tail stream stream'
  exact ⟨fun v => ⟨shows_of_akin rfl hakin, shows_of_akin rfl hakin.symm⟩,
    fun v => ⟨settles_of_akin rfl hakin, settles_of_akin rfl hakin.symm⟩⟩

def continueFrame : Packet.Frame := .ofText continueText (by decide +kernel)

/-- A request among packets of all four kinds that are ignored; a response may be an array. -/
def mixedFrames : List Packet.Frame :=
  [.ofText "no json" (by decide +kernel), .ofText "[7]" (by decide +kernel), continueFrame,
    .ofText "[1,\"response\"]" (by decide +kernel),
    .ofText "\x7b\"seq\":1,\"type\":\"request\"\x7d" (by decide +kernel)]

theorem ignored_packets_change_nothing_mixed :
    Packet.Without mixedFrames [continueFrame] ∧
      Indistinguishable scriptedHost
        (start "/dap" none (.fresh .sensitive) {} [.stop { reason := "pause" } tableStack])
        [.chunk (Packet.wire mixedFrames)] true
        [.chunk (continueFrame.bytes.take 20), .chunk (continueFrame.bytes.drop 20)] true := by
  have without : Packet.Without mixedFrames [continueFrame] := by
    have read {text : String} {found : Option Json} (htext : Text.ofUtf8? text.toUTF8.toList = text)
        (hread : Json.read? Json.messageDepth text = found) :
        Json.ofBytes? text.toUTF8.toList = found := by
      rw [Json.ofBytes?, htext, Option.bind_some, hread]
    have nothing : Ignored "no json".toUTF8.toList :=
      .notJson (read (by decide +kernel) (by with_unfolding_all rfl))
    have number : Ignored "[7]".toUTF8.toList :=
      .headless (read (by decide +kernel) (by with_unfolding_all rfl))
        (rfl : header.decode (.arr [.int 7]) = _)
    have response : Ignored "[1,\"response\"]".toUTF8.toList :=
      .notRequest (read (by decide +kernel) (by with_unfolding_all rfl))
        (rfl : header.decode (.arr [.int 1, .str "response"]) = .ok ⟨1, .response⟩)
        (by simp)
    have nameless : Ignored "\x7b\"seq\":1,\"type\":\"request\"\x7d".toUTF8.toList :=
      .unreadable (read (by decide +kernel) (by with_unfolding_all rfl))
        (rfl : request.decode (.obj [("seq", .int 1), ("type", .str "request")]) = _)
    exact .drop nothing (.drop number (.keep _ (.drop response (.drop nameless .nil))))
  refine ⟨without, ignored_packets_change_nothing _ _ _ _ _ _ without ⟨[], .done⟩ rfl ?_⟩
  simp [Packet.Content.ofArrivals, Packet.Content.behind, Packet.wire]

end Service

end DebugAdapter
