import DebugAdapter.Packet.Basic

/-!
# Framing does not depend on chunks

A stream reaches a buffer in chunks, and packets may be asked for at any point in between. The main
statement is `exhaust_one_chunk`: whatever the chunks and whenever packets are asked for, the same
bodies and refusals come out in the same order and the same bytes stay behind as when the whole
stream arrives at once. `Framed` says where the bytes of a stream go: each to the header or body of
one packet, in order, or to what stays behind.
-/

namespace DebugAdapter.Packet

abbrev Found := Except HeaderError Bytes

/-- What asking for a packet brings to light; nothing while one is incomplete. -/
def found : Except HeaderError (Option Bytes) → List Found
  | .ok none => []
  | .ok (some body) => [.ok body]
  | .error e => [.error e]

-- ---------------------------------------------------------------------------
-- One packet
-- ---------------------------------------------------------------------------

def emptyLine : Bytes := [13, 10, 13, 10]

theorem splitHeader?_eq {b header rest : Bytes} (h : splitHeader? b = some (header, rest)) :
    b = header ++ emptyLine ++ rest := by
  fun_induction splitHeader? b generalizing header rest with
  | case1 => simp at h
  | case2 => simp at h; obtain ⟨rfl, rfl⟩ := h; rfl
  | case3 b r _ ih =>
    simp at h
    obtain ⟨header', ht, rfl⟩ := h
    rw [ih ht]
    simp

theorem splitHeader?_append {b header rest : Bytes} (more : Bytes)
    (h : splitHeader? b = some (header, rest)) :
    splitHeader? (b ++ more) = some (header, rest ++ more) := by
  fun_induction splitHeader? b generalizing header rest with
  | case1 => simp at h
  | case2 => simp at h; obtain ⟨rfl, rfl⟩ := h; rfl
  | case3 b r hn ih =>
    simp at h
    obtain ⟨header', ht, rfl⟩ := h
    -- Four bytes or more stand in front of `more`, so it has no part in the choice of the case.
    have hl := length_of_splitHeader? ht
    rw [List.cons_append, splitHeader?.eq_3, ih ht]
    · rfl
    · rintro rest' rfl hr
      match r, hl with
      | x :: y :: z :: tail, _ =>
        simp only [List.cons_append, List.cons.injEq] at hr
        obtain ⟨rfl, rfl, rfl, -⟩ := hr
        exact hn tail rfl rfl

namespace Buffer

/-- All that asking for a packet can do: wait, refuse a header, or give out a body. -/
theorem next_cases (buffer : Buffer) :
    buffer.next = (.ok none, buffer) ∨
    (∃ header rest e, splitHeader? buffer.bytes = some (header, rest) ∧
      bodyLength header = .error e ∧ buffer.next = (.error e, ⟨rest⟩)) ∨
    (∃ header body rest, splitHeader? buffer.bytes = some (header, body ++ rest) ∧
      bodyLength header = .ok body.length ∧ buffer.next = (.ok (some body), ⟨rest⟩)) := by
  unfold next
  split
  · exact .inl rfl
  · rename_i header rest hs
    cases hn : bodyLength header with
    | error e => exact .inr (.inl ⟨header, rest, e, hs, hn, by simp⟩)
    | ok n =>
      by_cases hl : rest.length < n
      · exact .inl (by simp [hl])
      · refine .inr (.inr ⟨header, rest.take n, rest.drop n, ?_, ?_, by simp [hl]⟩)
        · rw [hs, List.take_append_drop]
        · rw [hn, List.length_take, Nat.min_eq_left (Nat.le_of_not_lt hl)]

theorem next_extend {buffer after : Buffer} {r : Except HeaderError (Option Bytes)}
    (h : buffer.next = (r, after)) (hr : r ≠ .ok none) (chunk : Bytes) :
    (buffer.extend chunk).next = (r, after.extend chunk) := by
  obtain hw | ⟨header, rest, e, hs, hn, he⟩ | ⟨header, body, rest, hs, hn, he⟩ := next_cases buffer
  · rw [hw] at h
    simp only [Prod.mk.injEq] at h
    exact absurd h.1.symm hr
  · rw [he] at h
    cases h
    simp [next, splitHeader?_append chunk hs, hn, extend]
  · rw [he] at h
    cases h
    simp [next, splitHeader?_append chunk hs, hn, extend]

theorem size_of_next {buffer after : Buffer} {r : Except HeaderError (Option Bytes)}
    (h : buffer.next = (r, after)) (hr : r ≠ .ok none) : after.size + 4 ≤ buffer.size := by
  obtain hw | ⟨header, rest, e, hs, -, he⟩ | ⟨header, body, rest, hs, -, he⟩ := next_cases buffer
  · rw [hw] at h
    simp only [Prod.mk.injEq] at h
    exact absurd h.1.symm hr
  · rw [he] at h
    cases h
    have := length_of_splitHeader? hs
    simp only [size]; omega
  · rw [he] at h
    cases h
    have := length_of_splitHeader? hs
    simp only [size, List.length_append] at this ⊢; omega

-- ---------------------------------------------------------------------------
-- Many packets
-- ---------------------------------------------------------------------------

def drain (buffer : Buffer) : List Found × Buffer :=
  match _h : buffer.next with
  | (.ok none, after) => ([], after)
  | (.ok (some body), after) => (.ok body :: after.drain.1, after.drain.2)
  | (.error e, after) => (.error e :: after.drain.1, after.drain.2)
termination_by buffer.size
decreasing_by
  all_goals
    have := size_of_next _h (by simp)
    omega

theorem drain_of_waiting {buffer : Buffer} (h : buffer.next = (.ok none, buffer)) :
    buffer.drain = ([], buffer) := by
  rw [drain]
  split <;> simp_all

theorem drain_of_next {buffer after : Buffer} {r : Except HeaderError (Option Bytes)}
    (h : buffer.next = (r, after)) (hr : r ≠ .ok none) :
    buffer.drain = (found r ++ after.drain.1, after.drain.2) := by
  rw [drain]
  split <;> rename_i hn <;> obtain ⟨rfl, rfl⟩ := Prod.mk.inj (h.symm.trans hn)
  · exact absurd rfl hr
  · rfl
  · rfl

theorem next_drain (buffer : Buffer) :
    buffer.drain.2.next = (.ok none, buffer.drain.2) := by
  fun_induction drain buffer with
  | case1 buffer after h => obtain rfl := next_waiting h; exact h
  | case2 _ _ _ _ ih => exact ih
  | case3 _ _ _ _ ih => exact ih

/-- What is done with a buffer: a chunk arrives, or the next packet is asked for. -/
inductive Step where
  | extend (chunk : Bytes)
  | next
deriving DecidableEq, Repr

def fed : List Step → Bytes
  | [] => []
  | .extend chunk :: steps => chunk ++ fed steps
  | .next :: steps => fed steps

def run (buffer : Buffer) : List Step → List Found × Buffer
  | [] => ([], buffer)
  | .extend chunk :: steps => (buffer.extend chunk).run steps
  | .next :: steps =>
    (found buffer.next.1 ++ (buffer.next.2.run steps).1, (buffer.next.2.run steps).2)

/-- Takes some steps and asks on until a packet is incomplete. -/
def exhaust (buffer : Buffer) (steps : List Step) : List Found × Buffer :=
  ((buffer.run steps).1 ++ (buffer.run steps).2.drain.1, (buffer.run steps).2.drain.2)

theorem exhaust_eq_drain (buffer : Buffer) (steps : List Step) :
    buffer.exhaust steps = (buffer.extend (fed steps)).drain := by
  induction steps generalizing buffer with
  | nil => simp [exhaust, fed, run, extend]
  | cons step steps ih =>
    cases step with
    | extend chunk => simpa [exhaust, fed, run, extend] using ih (buffer.extend chunk)
    | next =>
      obtain ⟨r, after, h⟩ : ∃ r after, buffer.next = (r, after) := ⟨_, _, rfl⟩
      by_cases hr : r = .ok none
      · subst hr
        obtain rfl := next_waiting h
        simpa [exhaust, fed, run, h, found] using ih after
      · rw [fed, drain_of_next (next_extend h hr _) hr, ← ih after]
        simp [exhaust, run, h]

-- ---------------------------------------------------------------------------
-- Where the bytes go
-- ---------------------------------------------------------------------------

/-- A stream, what was found in it and the bytes left behind: its bytes are those of the packets in
order, a refused header being a packet without a body. -/
inductive Framed : Bytes → List Found → Bytes → Prop
  | left (bytes : Bytes) : Framed bytes [] bytes
  | body {header body rest : Bytes} {fs : List Found} {left : Bytes} :
      bodyLength header = .ok body.length → Framed rest fs left →
      Framed (header ++ emptyLine ++ body ++ rest) (.ok body :: fs) left
  | refused {header rest : Bytes} {e : HeaderError} {fs : List Found} {left : Bytes} :
      bodyLength header = .error e → Framed rest fs left →
      Framed (header ++ emptyLine ++ rest) (.error e :: fs) left

theorem Framed.trans {bytes middle left : Bytes} {fs gs : List Found}
    (h : Framed bytes fs middle) (h' : Framed middle gs left) : Framed bytes (fs ++ gs) left := by
  induction h with
  | left => exact h'
  | body hb _ ih => exact .body hb (ih h')
  | refused hb _ ih => exact .refused hb (ih h')

theorem framed_next (buffer : Buffer) (more : Bytes) :
    Framed (buffer.bytes ++ more) (found buffer.next.1) (buffer.next.2.bytes ++ more) := by
  obtain h | ⟨header, rest, e, hs, hb, h⟩ | ⟨header, body, rest, hs, hb, h⟩ := next_cases buffer
  · rw [h]
    exact .left _
  · rw [h, splitHeader?_eq hs, List.append_assoc]
    exact .refused hb (.left _)
  · rw [h, splitHeader?_eq hs, ← List.append_assoc, List.append_assoc]
    exact .body hb (.left _)

theorem framed_drain (buffer : Buffer) :
    Framed buffer.bytes buffer.drain.1 buffer.drain.2.bytes := by
  induction hn : buffer.size using Nat.strongRecOn generalizing buffer with
  | ind n ih =>
    obtain ⟨r, after, h⟩ : ∃ r after, buffer.next = (r, after) := ⟨_, _, rfl⟩
    by_cases hr : r = .ok none
    · subst hr
      obtain rfl := next_waiting h
      rw [drain_of_waiting h]
      exact .left _
    · have hl := size_of_next h hr
      have hf := framed_next buffer []
      simp only [h, List.append_nil] at hf
      rw [drain_of_next h hr]
      exact hf.trans (ih after.size (by omega) after rfl)

theorem framed_run (buffer : Buffer) (steps : List Step) :
    Framed (buffer.bytes ++ fed steps) (buffer.run steps).1 (buffer.run steps).2.bytes := by
  induction steps generalizing buffer with
  | nil => simpa [fed, run] using .left buffer.bytes
  | cons step steps ih =>
    cases step with
    | extend chunk => simpa [fed, run, extend] using ih (buffer.extend chunk)
    | next => exact (framed_next buffer (fed steps)).trans (ih buffer.next.2)

/-- Whatever the chunks and whenever packets are asked for, asking on until a packet is incomplete
comes to an end and has then given what one chunk with all bytes gives. At no point has a byte of
the stream got lost, been given out twice or out of turn. -/
theorem exhaust_one_chunk (steps : List Step) :
    exhaust {} steps = exhaust {} [.extend (fed steps)] ∧
    (exhaust {} steps).2.next = (.ok none, (exhaust {} steps).2) ∧
    Framed (fed steps) (run {} steps).1 (run {} steps).2.bytes ∧
    Framed (fed steps) (exhaust {} steps).1 (exhaust {} steps).2.bytes := by
  have hr : Framed (fed steps) (run {} steps).1 (run {} steps).2.bytes := framed_run {} steps
  refine ⟨?_, next_drain _, hr, hr.trans (framed_drain _)⟩
  rw [exhaust_eq_drain, exhaust_eq_drain]
  simp [fed]

end Buffer

end DebugAdapter.Packet
