import DebugAdapter.Proofs.Session.Decisions
import DebugAdapter.Proofs.Session.Responses

/-!
# Closing parks nobody

Closing takes four steps, and the thread may move between any two of them. Once they are done no
stop is active, and none ever will be; every stop is decided and its bridge disposed, so a thread
that is parked there runs what is queued and comes back; and what the thread reports from then on is
turned away.
-/

namespace DebugAdapter

open Protocol Journal

variable {σ τ : Type} {host : Host σ τ} {sys : System σ τ} {J before after : List Entry}
  {stop : Nat} {place : Option Nat}

/-- What holds of a run whose session has closed. -/
structure ShutDown (host : Host σ τ) (c : Journal σ τ) (after : List Entry) : Prop where
  vacant : c.sys.handle.active = none
  letGo : ∀ s ∈ c.sys.handle.stops, s.decision.isSome = true ∧ s.bridge.disposed = true
  drains : ∀ stop, (c.sys.handle.take stop).1 ≠ .wait
  rests : c.sys.Settles host
  comesBack : c.sys.Resting host → ∀ stop place, .installed stop place ∈ c.entries →
    (∃ d, .returned (some stop) d ∈ c.entries) ∨ ∃ q, .faulted stop q ∈ c.entries
  noStop : ∀ stop place, .installed stop place ∉ after
  turnedAway : ∀ as bs, after = as ++ Entry.reported :: bs →
    (∀ x, nextOfThread bs = some x → x = .returned none .detach) ∧
      (c.sys.Resting host → nextOfThread bs = some (.returned none .detach))
  /-- Closing replaces no decision. -/
  kept : ∀ r d stop, .accepted r (.resume d) stop ∈ c.entries →
    c.sys.handle.stops[stop]?.bind (·.decision) = some d ∧
      ∀ d', .returned (some stop) d' ∈ c.entries → d' = d

namespace System

theorem Kept.released_of_closed (h : sys.Kept (before ++ Entry.closed :: after))
    (hlt : stop < sys.handle.stops.length) : .released stop ∈ before ++ Entry.closed :: after := by
  rw [h.depicts.count] at hlt
  obtain ⟨place, hi⟩ := h.regular.installed_of_lt hlt
  obtain ⟨-, -, hnot, hreleased⟩ := h.regular.of_closed
  have hi := (List.mem_append.1 hi).resolve_right (hnot stop place)
  exact List.mem_append_left _ (hreleased stop place hi)

theorem Kept.letGo_of_closed (h : sys.Kept (before ++ Entry.closed :: after)) {s : Stop}
    (hs : s ∈ sys.handle.stops) : s.decision.isSome = true ∧ s.bridge.disposed = true := by
  obtain ⟨i, hi⟩ := List.mem_iff_getElem?.1 hs
  have hreleased := h.released_of_closed (List.getElem?_eq_some_iff.1 hi).1
  obtain ⟨d, hd⟩ := h.regular.decided_of_released hreleased
  rw [← h.depicts.decision, Handle.decisionAt, hi] at hd
  rw [← h.depicts.disposed, Handle.disposedAt, hi] at hreleased
  exact ⟨Option.isSome_iff_exists.2 ⟨d, hd⟩, hreleased⟩

theorem Kept.turned_away (h : sys.Kept (before ++ Entry.reported :: after)) (hm : .marked ∈ before)
    (hrest : sys.stepThread host = none) : nextOfThread after = some (.returned none .detach) := by
  obtain ⟨x, hx⟩ := h.moved_on hrest (.inl rfl)
  rw [hx, h.regular.turned_away hm hx]

end System

/-- Closing never leaves the thread parked, however the two sides moved before and move after. -/
theorem closing_parks_nobody (debugger : Debugger) (target : τ) (program : List (Item σ))
    (moves : List Move)
    (h : (Journal.run host moves { sys := .start debugger target program }).entries =
      before ++ Entry.closed :: after) :
    ShutDown host (Journal.run host moves { sys := .start debugger target program }) after := by
  have hkept := kept host debugger target program moves
  generalize Journal.run host moves { sys := .start debugger target program } = c at h hkept
  rw [h] at hkept
  have hregular := hkept.regular
  obtain ⟨hm, hactive, hnot, -⟩ := hregular.of_closed
  exact {
    vacant := hkept.depicts.active.trans hactive
    letGo := fun s hs => hkept.letGo_of_closed hs
    drains := fun stop hwait => by
      obtain ⟨hlt, hd⟩ := Handle.disposedAt_of_take_wait (Prod.ext hwait rfl)
      cases hd.symm.trans ((hkept.depicts.disposed stop).2 (hkept.released_of_closed hlt))
    rests := c.sys.settles host
    comesBack := fun hrest stop place hi => by
      rw [h] at hi ⊢
      have hlt := hregular.lt_stopsIn hi rfl
      rw [← hkept.depicts.count] at hlt
      obtain ⟨d, hd⟩ := hregular.decided_of_released (hkept.released_of_closed hlt)
      obtain hreturned | hfaulted := hkept.returned_of_decided hrest hd
      · exact .inl ⟨d, hreturned⟩
      · exact .inr hfaulted
    noStop := fun stop place hi => hnot stop place (List.mem_cons_of_mem _ hi)
    turnedAway := fun as bs heq => by
      rw [heq, ← List.cons_append, ← List.append_assoc] at hkept
      have hm := List.mem_append_left (.closed :: as) hm
      exact ⟨fun x hx => hkept.regular.turned_away hm hx,
        fun hrest => hkept.turned_away hm (hrest .thread)⟩
    kept := fun r d stop ha => by
      rw [h] at ha ⊢
      have hd := hregular.decisionIn_of_accepted ha
      refine ⟨(hkept.depicts.decision stop).trans hd, fun d' hreturned => ?_⟩
      cases hd.symm.trans (hregular.decisionIn_of_returned hreturned)
      rfl }

theorem Packet.Reader.readMessage_of_ended :
    ({ ended := true } : Packet.Reader).readMessage = (.ended, { ended := true }) := by
  rw [readMessage]
  rfl

/-- The client hangs up before it is told of the first stop; another one is reported later. -/
def hangUpRun : Journal Scripted.Stack OneShot :=
  .run scriptedHost
    ([Move.step .thread, Move.step .thread, Move.hangUp] ++ Move.step .session ::
      List.replicate 5 (Move.step .session) ++ List.replicate 6 (Move.step .thread))
    { sys := .start (.fresh .sensitive) {}
        [.stop { reason := "pause" } tableStack, .stop { reason := "pause" } tableStack] }

theorem closing_parks_nobody_hangUp :
    hangUpRun.entries =
        [.reported, .installed 0 none, .marked, .vacated 0, .settled 0, .released 0] ++
          Entry.closed :: [.announced 0 { reason := "pause" }, .returned (some 0) .detach,
            .reported, .returned none .detach] ∧
      ShutDown scriptedHost hangUpRun
        [.announced 0 { reason := "pause" }, .returned (some 0) .detach, .reported,
          .returned none .detach] := by
  refine ⟨?entries, closing_parks_nobody _ _ _ _ ?entries⟩
  rw [hangUpRun, List.append_assoc, run_append, List.cons_append,
    run_session _ (System.stepSession_of_end rfl rfl Packet.Reader.readMessage_of_ended rfl)]
  rfl

end DebugAdapter
