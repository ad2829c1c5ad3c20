import DebugAdapter.Proofs.Packet.Envelope
import DebugAdapter.Proofs.Session.Closing

/-!
# When the client is told of a stop

A stop is made known at most once, and before any question at it is answered. It is active already
before it is made known, though, and a request to resume needs nothing of the thread: its answer may
come first. Then the stop is made known by what the thread does next.
-/

namespace DebugAdapter

open Protocol Journal

variable {σ τ : Type} {host : Host σ τ} {sys : System σ τ} {J before after mid : List Entry}
  {r : Request} {q : Question} {d : Decision} {stop : Nat} {place : Option Nat}
  {o : Outcome}

namespace Journal

theorem announces_iff {x : Entry} :
    x.announces stop = true ↔ ∃ body, x = .announced stop body := by
  constructor
  · intro h
    unfold Entry.announces at h
    split at h
    · rename_i i body
      exact ⟨body, by rw [eq_of_beq h]⟩
    · cases h
  · rintro ⟨body, rfl⟩
    exact beq_self_eq_true stop

theorem Regular.not_announced {body : StoppedBody} (h : Regular J)
    (hl : lastOf .thread J = some (.installed stop place)) : .announced stop body ∉ J := by
  obtain ⟨before, after, rfl, hafter⟩ := split_of_lastOf hl
  obtain ⟨-, hstop, -⟩ := h.of_installed
  intro hmem
  rcases List.mem_append.1 hmem with hmem | hmem
  · have := h.prefix.lt_stopsIn hmem rfl
    omega
  · rcases List.mem_cons.1 hmem with ⟨⟨⟩⟩ | hmem
    exact hafter _ hmem rfl

theorem Regular.announced_once (h : Regular J) (stop : Nat) :
    J.countP (Entry.announces stop) ≤ 1 := by
  refine h.countP_le_one fun {J x y} h hx hxa hy hya => ?_
  obtain ⟨body, rfl⟩ := announces_iff.1 hxa
  obtain ⟨body', rfl⟩ := announces_iff.1 hya
  cases hx with
  | announced _ hl => exact h.not_announced hl hy

theorem Regular.announced_of_inspected
    (h : Regular (before ++ Entry.accepted r (.inspect q) stop :: mid ++ Entry.answered o :: after))
    (hnone : ∀ x ∈ mid, x.answer? = none) : ∃ body, .announced stop body ∈ before ++ mid := by
  have hl : lastOf .session (before ++ Entry.accepted r (.inspect q) stop :: mid) =
      some (.accepted r (.inspect q) stop) := h.prefix.last_of_unanswered hnone
  obtain ⟨o', ⟨⟩, ho⟩ := after_accepted hl h.admits rfl
  cases ho with
  | relayed _ hr =>
    obtain ⟨r', q', stop', hl', hreply⟩ := h.prefix.reply hr
    cases hl.symm.trans hl'
    obtain ⟨body, hb⟩ := h.prefix.announced_of_asked (hreply.imp (⟨_, ·⟩) And.left)
    exact ⟨body, by simpa using hb⟩

/-- When a resumption is answered, the client was told of the stop, or that is what the thread is
about to do. -/
theorem Regular.announced_or_installed
    (h : Regular (before ++ Entry.accepted r (.resume d) stop :: mid))
    (hnone : ∀ x ∈ mid, x.answer? = none) : (∃ body, .announced stop body ∈ before ++ mid) ∨
      ∃ place, lastOf .thread (before ++ Entry.accepted r (.resume d) stop :: mid) =
        some (.installed stop place) := by
  have hl : lastOf .session (before ++ Entry.accepted r (.resume d) stop :: mid) =
      some (.accepted r (.resume d) stop) := h.last_of_unanswered hnone
  have hold := h.not_released hl
  obtain ⟨place, hi⟩ := h.installed_of_lt (h.lt_stopsIn (mem_of_lastOf hl).1 rfl)
  obtain ⟨d', hd'⟩ | hplace := h.returned_or_place hi
  · obtain ⟨as, bs, heq⟩ := List.append_of_mem hd'
    rw [heq] at h hold
    exact absurd (List.mem_append_left _ h.of_returned.1) hold
  · obtain ⟨x, hx, hxplace⟩ := Option.bind_eq_some_iff.1 hplace
    have htold (hb : ∃ body, .announced stop body ∈
        before ++ Entry.accepted r (.resume d) stop :: mid) :
        ∃ body, .announced stop body ∈ before ++ mid := by
      obtain ⟨body, hb⟩ := hb
      exact ⟨body, by simpa using hb⟩
    cases x with
    | installed i place =>
      cases hxplace
      exact .inr ⟨place, hx⟩
    | announced i body =>
      cases hxplace
      exact .inl (htold ⟨body, (mem_of_lastOf hx).1⟩)
    | served i q reply =>
      cases hxplace
      exact .inl (htold (h.announced_of_asked (.inl ⟨reply, (mem_of_lastOf hx).1⟩)))
    | faulted i q =>
      cases hxplace
      exact .inl (htold (h.announced_of_asked (.inr (mem_of_lastOf hx).1)))
    | _ => cases hxplace

theorem Regular.announced_next {x : Entry} (h : Regular (J ++ after))
    (hl : lastOf .thread J = some (.installed stop place)) (hx : nextOfThread after = some x) :
    ∃ body, x = .announced stop body := by
  obtain ⟨before, mid, rfl, hmid⟩ := split_of_lastOf hl
  rw [List.append_assoc, List.cons_append] at h
  rw [← nextOfThread_append hmid] at hx
  obtain ⟨hside, as, hadmits, hl'⟩ := h.admits_next rfl hx
  cases hadmits with
  | announced body hl'' =>
    cases hl'.symm.trans hl''
    exact ⟨body, rfl⟩
  | installed hl'' | turnedAway hl'' => cases hl'.symm.trans hl''
  | reported hl'' | served _ hl'' | faulted hl'' | returned hl'' =>
    rw [hl'] at hl''
    cases hl''
  | found | asked | askedLate | decided | decidedLate | answered | sent | letGo | marked | vacated
    | settled | disposed | closed => cases hside

theorem Regular.announced_of_returned
    (h : Regular (before ++ Entry.returned (some stop) d :: after)) :
    ∃ body, .announced stop body ∈ before := by
  have hbefore := h.prefix
  generalize hx : Entry.returned (some stop) d = x at h
  cases h.admits with
  | returned hp =>
    cases hx
    exact hbefore.announced_of_parks hp
  | _ => cases hx

end Journal

theorem System.Kept.announced_next (h : sys.Kept (J ++ after))
    (hrest : sys.stepThread host = none) (hl : lastOf .thread J = some (.installed stop place)) :
    ∃ body, nextOfThread after = some (.announced stop body) := by
  have hkept := h
  obtain ⟨before, mid, rfl, hmid⟩ := split_of_lastOf hl
  rw [List.append_assoc, List.cons_append] at hkept
  obtain ⟨x, hx⟩ := hkept.moved_on hrest (.inr ⟨stop, place, rfl⟩)
  rw [nextOfThread_append hmid] at hx
  obtain ⟨body, rfl⟩ := h.regular.announced_next hl hx
  exact ⟨body, hx⟩

-- ---------------------------------------------------------------------------
-- Every run
-- ---------------------------------------------------------------------------

/-- When the client is told of the stops of a run. -/
structure Announces (host : Host σ τ) (c : Journal σ τ) : Prop where
  outbox : c.sys.handle.outbox = c.entries.filterMap Entry.sent?
  once : ∀ stop, c.entries.countP (Entry.announces stop) ≤ 1
  returned : ∀ before stop d after, c.entries = before ++ Entry.returned (some stop) d :: after →
    ∃ body, .announced stop body ∈ before
  rests : c.sys.Settles host
  inspected : ∀ before r q stop mid o after,
    c.entries = before ++ Entry.accepted r (.inspect q) stop :: mid ++ Entry.answered o :: after →
    (∀ x ∈ mid, x.answer? = none) → ∃ body, .announced stop body ∈ before ++ mid
  /-- A resumption may be answered first. Then the thread has yet to make the stop known, and does
  so before it does anything else. -/
  resumed : ∀ before r d stop mid o after,
    c.entries = before ++ Entry.accepted r (.resume d) stop :: mid ++ Entry.answered o :: after →
    (∀ x ∈ mid, x.answer? = none) → (∃ body, .announced stop body ∈ before ++ mid) ∨
      (∀ x, nextOfThread after = some x → ∃ body, x = .announced stop body) ∧
        (c.sys.Resting host → ∃ body, nextOfThread after = some (.announced stop body))

/-- The client is told of every stop, before any question at it is answered. -/
theorem announced_before_inspection (host : Host σ τ) (debugger : Debugger) (target : τ)
    (program : List (Item σ)) (moves : List Move) :
    Announces host (Journal.run host moves { sys := .start debugger target program }) := by
  have hkept := kept host debugger target program moves
  generalize Journal.run host moves { sys := .start debugger target program } = c at hkept
  have h := hkept.regular
  exact {
    outbox := hkept.depicts.outbox
    once := h.announced_once
    returned := fun before stop d after heq => by
      rw [heq] at h
      exact h.announced_of_returned
    rests := c.sys.settles host
    inspected := fun before r q stop mid o after heq hnone => by
      rw [heq] at h
      exact h.announced_of_inspected hnone
    resumed := fun before r d stop mid o after heq hnone => by
      rw [heq] at hkept
      have h := hkept.regular
      obtain hb | ⟨place, hl⟩ := h.prefix.announced_or_installed hnone
      · exact .inl hb
      · exact .inr ⟨fun x hx => h.announced_next hl hx,
          fun hrest => hkept.announced_next (hrest .thread) hl⟩ }

-- ---------------------------------------------------------------------------
-- A resumption that comes first
-- ---------------------------------------------------------------------------

/-- No request at a stop succeeds before the client is told of the stop. -/
def AnnouncedFirst (J : List Entry) : Prop :=
  ∀ before r errand stop mid o after,
    J = before ++ Entry.accepted r errand stop :: mid ++ Entry.answered o :: after →
    (∀ x ∈ mid, x.answer? = none) → o.response.success = true →
    ∃ body, .announced stop body ∈ before ++ mid

def bareRequest (command : String) : Request where
  seq := 1
  kind := .request
  command := command

def bareMessage (command : String) : Json :=
  .obj [("command", .str command), ("seq", .int 1), ("type", .str "request")]

def packetOf (text : String) : Packet.Arrival :=
  .chunk ("Content-Length: " ++ toString text.utf8ByteSize ++ "\r\n\r\n" ++ text).toUTF8.toList

theorem Packet.Reader.readPacket_chunk {bytes body : Bytes}
    (h : Buffer.next ⟨bytes⟩ = (.ok (some body), {})) :
    ({ arrivals := [.chunk bytes] } : Packet.Reader).readPacket = (.item body, {}) := by
  have hempty : ({} : Buffer).next = (.ok none, {}) := rfl
  rw [readPacket]
  unfold readFrom
  rw [hempty]
  unfold readFrom
  simp [Buffer.extend, h]

theorem Packet.Reader.readPacket_packetOf {text : String} (fits : text.utf8ByteSize ≤ maxLength) :
    ({ arrivals := [packetOf text] } : Packet.Reader).readPacket =
      (.item (Text.utf8 text), {}) := by
  have hnext := @Buffer.next_brief (Text.utf8 text) fits []
  rw [List.append_nil, ← utf8_brief, ← Text.toList_toUTF8] at hnext
  exact readPacket_chunk hnext

theorem Packet.Reader.readMessage_of_text {text : String} {message : Json}
    (fits : text.utf8ByteSize ≤ maxLength)
    (hread : Json.read? Json.messageDepth text = some message) :
    ({ arrivals := [packetOf text] } : Packet.Reader).readMessage = (.item message, {}) := by
  refine readMessage_of_packet (readPacket_packetOf fits) ?_
  rw [Json.ofBytes?, Text.ofUtf8?_utf8, Option.bind_some, hread]

def continueText : String := "\x7b\"seq\":1,\"type\":\"request\",\"command\":\"continue\"\x7d"

theorem Packet.Reader.readMessage_continue :
    ({ arrivals := [packetOf continueText] } : Packet.Reader).readMessage =
      (.item (bareMessage "continue"), {}) :=
  readMessage_of_text (by decide +kernel) (by with_unfolding_all rfl)

/-- The client asks to go on between the two steps in which a stop becomes active and is made
known. -/
def raceRun : Journal Scripted.Stack OneShot :=
  .run scriptedHost
    ([Move.step .thread, Move.step .thread, Move.arrive [packetOf continueText]] ++
      Move.step .session :: List.replicate 4 (Move.step .session) ++ [Move.step .thread])
    { sys := .start (.fresh .sensitive) {} [.stop { reason := "pause" } tableStack] }

theorem not_announcedFirst_race :
    raceRun.sys.handle.outbox =
        [.response ((bareRequest "continue").accept (resumeBody .run)),
          .event (System.stoppedEvent { reason := "pause" })] ∧
      ¬ AnnouncedFirst raceRun.entries := by
  let r := bareRequest "continue"
  have hrun : raceRun.entries =
        [Entry.reported, Entry.installed 0 none, Entry.found r (.resume .run) (some 0)] ++
          Entry.accepted r (.resume .run) 0 :: [] ++
            Entry.answered (.resumption r .run 0) :: [Entry.announced 0 { reason := "pause" }] ∧
      raceRun.sys.handle.outbox = [.response (r.accept (resumeBody .run)),
        .event (System.stoppedEvent { reason := "pause" })] := by
    rw [raceRun, List.append_assoc, run_append, List.cons_append,
      run_session _ (@System.stepSession_of_request _ _ _ _ _ _ r rfl rfl
        Packet.Reader.readMessage_continue rfl)]
    exact ⟨rfl, rfl⟩
  refine ⟨hrun.2, fun h => ?_⟩
  obtain ⟨body, hb⟩ := h _ _ _ _ _ _ _ hrun.1 (by simp) rfl
  simp at hb

end DebugAdapter
