import DebugAdapter.Session.Writer
import Mathlib.Algebra.Group.Nat.Defs
import Mathlib.Algebra.Order.Sub.Basic

/-!
# Writing an outbox

What the writer makes of an outbox, message by message, is one write of all the bytes: `wire` says
which. The stream is shut down behind the mark that nothing follows, and only if all bytes before
the mark were taken.
-/

namespace DebugAdapter

open Protocol

-- ---------------------------------------------------------------------------
-- Sinks
-- ---------------------------------------------------------------------------

namespace Packet.Sink

theorem write_append (sink : Sink) (as bs : Bytes) :
    sink.write (as ++ bs) =
      ((sink.write as).1 && ((sink.write as).2.write bs).1, ((sink.write as).2.write bs).2) := by
  obtain ⟨accepted, room, shut⟩ := sink
  cases room with
  | none => simp [write]
  | some room =>
    simp only [write, List.length_append, List.append_assoc, List.take_append, Nat.sub_sub,
      Prod.mk.injEq, and_true]
    rw [← Bool.decide_and]
    congr 1
    simp only [eq_iff_iff]
    omega

theorem write_nil (sink : Sink) : sink.write [] = (true, sink) := by
  obtain ⟨accepted, room, shut⟩ := sink
  cases room <;> simp [write]

@[simp] theorem shut_write (sink : Sink) (bytes : Bytes) :
    (sink.write bytes).2.shut = sink.shut := by
  unfold write
  split <;> rfl

theorem accepted_of_write {sink : Sink} {bytes : Bytes} (h : (sink.write bytes).1 = true) :
    (sink.write bytes).2.accepted = sink.accepted ++ bytes := by
  unfold write at h ⊢
  split
  · rfl
  · rename_i room hroom
    simp only [hroom, decide_eq_true_eq] at h
    simp only [List.take_of_length_le h]

theorem write_of_failed {sink : Sink} {as : Bytes} (h : (sink.write as).1 = false) (bs : Bytes) :
    ((sink.write as).2.write bs).2 = (sink.write as).2 := by
  unfold write at h
  split at h
  · cases h
  · rename_i room hroom
    have hlt := Nat.lt_of_not_le (of_decide_eq_false h)
    simp [write, hroom, Nat.sub_eq_zero_of_le (Nat.le_of_lt hlt)]

theorem lt_of_write {sink : Sink} {bytes : Bytes} (h : (sink.write bytes).1 = false) :
    ∃ room, sink.room = some room ∧ room < bytes.length := by
  unfold write at h
  split at h
  · cases h
  · rename_i room hroom
    exact ⟨room, hroom, Nat.lt_of_not_le (of_decide_eq_false h)⟩

end Packet.Sink

-- ---------------------------------------------------------------------------
-- The writer
-- ---------------------------------------------------------------------------

namespace Writer

def wire (endpoint : String) (number : UInt32) : List Outgoing → Bytes
  | [] => []
  | m :: rest =>
    ((m.json? number).map (Packet.ofJson endpoint)).getD [] ++ wire endpoint (number + 1) rest

theorem foldl_deliver_of_ne {w : Writer} (h : w.state ≠ .writing) (ms : List Outgoing) :
    ms.foldl deliver w = w := by
  induction ms with
  | nil => rfl
  | cons m ms ih =>
    have hm : w.deliver m = w := by
      unfold deliver
      split
      · rfl
      · rfl
      · exact absurd ‹_› h
    rw [List.foldl_cons, hm, ih]

theorem foldl_deliver {ms : List Outgoing} (hms : ∀ m ∈ ms, m ≠ .close) {w : Writer}
    (hw : w.state = .writing) :
    ∃ number taken, ms.foldl deliver w =
        { w with
          sink := (w.sink.write (wire w.endpoint w.number ms)).2
          number := number
          taken := taken
          state :=
            if (w.sink.write (wire w.endpoint w.number ms)).1 then .writing else .failed } := by
  induction ms generalizing w with
  | nil =>
    refine ⟨w.number, w.taken, ?_⟩
    simp only [List.foldl_nil, wire, Packet.Sink.write_nil, if_true, ← hw]
  | cons m ms ih =>
    obtain ⟨message, hm⟩ : ∃ message, m.json? w.number = some message := by
      cases m with
      | response r => exact ⟨_, rfl⟩
      | event e => exact ⟨_, rfl⟩
      | close => exact absurd rfl (hms .close List.mem_cons_self)
    have hdeliver : w.deliver m =
        { w with
          sink := (w.sink.write (Packet.ofJson w.endpoint message)).2
          number := w.number + 1
          taken := w.taken + 1
          state := if (w.sink.write (Packet.ofJson w.endpoint message)).1 then .writing
            else .failed } := by
      simp only [deliver, hw, hm, write]
    have hwire : wire w.endpoint w.number (m :: ms) =
        Packet.ofJson w.endpoint message ++ wire w.endpoint (w.number + 1) ms := by
      simp only [wire, hm, Option.map_some, Option.getD_some]
    rw [List.foldl_cons, hdeliver, hwire, Packet.Sink.write_append]
    cases hok : (w.sink.write (Packet.ofJson w.endpoint message)).1 with
    | true =>
      let next : Writer :=
        { w with
          sink := (w.sink.write (Packet.ofJson w.endpoint message)).2
          number := w.number + 1
          taken := w.taken + 1
          state := .writing }
      obtain ⟨number, taken, hrest⟩ :=
        ih (fun m' hm' => hms m' (List.mem_cons_of_mem _ hm')) (rfl : next.state = .writing)
      refine ⟨number, taken, ?_⟩
      simpa only [Bool.true_and, if_true] using hrest
    | false =>
      refine ⟨w.number + 1, w.taken + 1, ?_⟩
      rw [foldl_deliver_of_ne (by simp)]
      simp [Packet.Sink.write_of_failed hok]

theorem taken_deliver {w : Writer} (h : w.state = .writing) (m : Outgoing) :
    (w.deliver m).taken = w.taken + 1 := by
  simp only [deliver, h]
  split <;> rfl

theorem taken_foldl_deliver {ms : List Outgoing} {w : Writer}
    (h : (ms.foldl deliver w).state = .writing) :
    (ms.foldl deliver w).taken = w.taken + ms.length := by
  induction ms generalizing w with
  | nil => rfl
  | cons m ms ih =>
    rw [List.foldl_cons] at h ⊢
    have hw : w.state = .writing := by
      by_contra hne
      rw [← List.foldl_cons, foldl_deliver_of_ne hne] at h
      exact hne h
    rw [ih h, taken_deliver hw, List.length_cons]
    exact Nat.add_right_comm _ _ _

theorem flush_flush {w : Writer} (ht : w.taken = 0) (queue more : List Outgoing) :
    (w.flush queue).flush (queue ++ more) = w.flush (queue ++ more) := by
  rw [flush, flush, flush, ht, List.drop_zero, List.drop_zero, List.foldl_append]
  by_cases h : (queue.foldl deliver w).state = .writing
  · rw [taken_foldl_deliver h, ht, Nat.zero_add, List.drop_left]
  · rw [foldl_deliver_of_ne h, foldl_deliver_of_ne h]

theorem flush_of_open {queue : List Outgoing} (hq : ∀ m ∈ queue, m ≠ .close) {w : Writer}
    (hw : w.state = .writing) (ht : w.taken = 0) :
    (w.flush queue).sink = (w.sink.write (wire w.endpoint w.number queue)).2 ∧
      (w.flush queue).state =
        if (w.sink.write (wire w.endpoint w.number queue)).1 then .writing else .failed := by
  obtain ⟨number, taken, heq⟩ := foldl_deliver hq hw
  rw [flush, ht, List.drop_zero, heq]
  exact ⟨rfl, rfl⟩

/-- The mark that nothing follows is reached only if no write has failed. -/
theorem flush_of_closed {queue : List Outgoing} (behind : List Outgoing)
    (hq : ∀ m ∈ queue, m ≠ .close) {w : Writer} (hw : w.state = .writing) (ht : w.taken = 0) :
    if (w.sink.write (wire w.endpoint w.number queue)).1 then
      (w.flush (queue ++ .close :: behind)).state = .finished ∧
        (w.flush (queue ++ .close :: behind)).sink =
          (w.sink.write (wire w.endpoint w.number queue)).2.shutDown
    else
      (w.flush (queue ++ .close :: behind)).state = .failed ∧
        (w.flush (queue ++ .close :: behind)).sink =
          (w.sink.write (wire w.endpoint w.number queue)).2 := by
  obtain ⟨number, taken, heq⟩ := foldl_deliver hq hw
  rw [flush, ht, List.drop_zero, List.foldl_append, heq, List.foldl_cons]
  split
  · have hclose : ∀ w : Writer, w.state = .writing → w.deliver .close =
        { w with sink := w.sink.shutDown, taken := w.taken + 1, state := .finished } := by
      intro w hw
      simp only [deliver, hw, Outgoing.json?]
    rw [hclose _ rfl, foldl_deliver_of_ne (by simp)]
    exact ⟨rfl, rfl⟩
  · rw [← List.foldl_cons, foldl_deliver_of_ne (by simp)]
    exact ⟨rfl, rfl⟩

end Writer

end DebugAdapter
