import DebugAdapter.Proofs.Session.Run

/-!
# Stops, seen through the handle

Of a stop one can tell how it was decided, whether its bridge is disposed and which questions wait
there. Each operation on a handle changes one of the three, at one stop, or none; a stop that was
not reported yet looks like a new one.
-/

namespace DebugAdapter.Handle

variable {h h' : Handle} {stop : Nat} {d : Decision} {q : Question}

def decisionAt (h : Handle) (i : Nat) : Option Decision := h.stops[i]?.bind (·.decision)

def disposedAt (h : Handle) (i : Nat) : Bool := h.stops[i]?.any (·.bridge.disposed)

def queueAt (h : Handle) (i : Nat) : List Question := (h.stops[i]?.map (·.bridge.queue)).getD []

/-- The stops of one handle are those of the other, for all that one can tell. -/
structure Alike (h h' : Handle) : Prop where
  decision : ∀ i, h'.decisionAt i = h.decisionAt i
  disposed : ∀ i, h'.disposedAt i = h.disposedAt i
  queue : ∀ i, h'.queueAt i = h.queueAt i

theorem Alike.of_stops_eq (hs : h'.stops = h.stops) : Alike h h' where
  decision i := by rw [decisionAt, hs, decisionAt]
  disposed i := by rw [disposedAt, hs, disposedAt]
  queue i := by rw [queueAt, hs, queueAt]

theorem queued_eq_zero : h.queued = 0 ↔ ∀ i, h.queueAt i = [] := by
  rw [queued, List.sum_eq_zero_iff_forall_eq_nat]
  constructor
  · intro hz i
    cases hi : h.stops[i]? with
    | none => simp [queueAt, hi]
    | some s =>
      have := hz _ (List.mem_map_of_mem (List.mem_of_getElem? hi))
      simpa [queueAt, hi] using this
  · intro hq n hn
    obtain ⟨s, hs, rfl⟩ := List.mem_map.1 hn
    obtain ⟨i, hi⟩ := List.mem_iff_getElem?.1 hs
    have := hq i
    simp only [queueAt, hi, Option.map_some, Option.getD_some] at this
    rw [this, List.length_nil]

-- ---------------------------------------------------------------------------
-- Revising one stop
-- ---------------------------------------------------------------------------

@[simp] theorem length_revise (f : Stop → Stop) :
    (h.revise stop f).stops.length = h.stops.length := by
  simp [revise]

theorem getElem?_revise (f : Stop → Stop) (i : Nat) :
    (h.revise stop f).stops[i]? = if i = stop then h.stops[i]?.map f else h.stops[i]? := by
  simp only [revise, List.getElem?_modify, Option.map_eq_map, eq_comm (a := stop)]
  split
  · rfl
  · exact Option.map_id'

theorem decisionAt_revise {f : Stop → Stop} (hf : ∀ s, (f s).decision = s.decision) (i : Nat) :
    (h.revise stop f).decisionAt i = h.decisionAt i := by
  rw [decisionAt, getElem?_revise, decisionAt]
  split
  · cases h.stops[i]? with
    | none => rfl
    | some s => exact hf s
  · rfl

theorem disposedAt_revise {f : Stop → Stop} (hf : ∀ s, (f s).bridge.disposed = s.bridge.disposed)
    (i : Nat) : (h.revise stop f).disposedAt i = h.disposedAt i := by
  rw [disposedAt, getElem?_revise, disposedAt]
  split
  · cases h.stops[i]? with
    | none => rfl
    | some s => exact hf s
  · rfl

theorem queueAt_revise {f : Stop → Stop} (hf : ∀ s, (f s).bridge.queue = s.bridge.queue) (i : Nat) :
    (h.revise stop f).queueAt i = h.queueAt i := by
  rw [queueAt, getElem?_revise, queueAt]
  split
  · cases h.stops[i]? with
    | none => rfl
    | some s => exact hf s
  · rfl

-- ---------------------------------------------------------------------------
-- The thread
-- ---------------------------------------------------------------------------

theorem alike_install (hi : h.install = some (stop, h')) : Alike h h' := by
  obtain ⟨-, -, rfl⟩ := install_eq_some hi
  have hget (i : Nat) : (h.stops ++ [({} : Stop)])[i]? = h.stops[i]? ∨
      h.stops[i]? = none ∧ (h.stops ++ [({} : Stop)])[i]? = some {} := by
    rcases Nat.lt_trichotomy i h.stops.length with hlt | rfl | hgt
    · exact .inl (List.getElem?_append_left hlt)
    · exact .inr ⟨by simp, by simp⟩
    · refine .inl ?_
      rw [List.getElem?_eq_none (by simp; omega), List.getElem?_eq_none (Nat.le_of_lt hgt)]
  constructor <;> intro i <;> obtain hi | ⟨hnone, hi⟩ := hget i
  · simp [decisionAt, hi]
  · simp [decisionAt, hi, hnone]
  · simp [disposedAt, hi]
  · simp [disposedAt, hi, hnone]
  · simp [queueAt, hi]
  · simp [queueAt, hi, hnone]

theorem take_work {batch : List Question} (ht : h.take stop = (.work batch, h')) :
    batch = h.queueAt stop ∧ h'.active = h.active ∧ h'.stops.length = h.stops.length ∧
      (∀ i, h'.decisionAt i = h.decisionAt i) ∧ (∀ i, h'.disposedAt i = h.disposedAt i) ∧
      ∀ i, h'.queueAt i = if i = stop then [] else h.queueAt i := by
  obtain ⟨-, hturn, -⟩ | ⟨s, hs, hturn, rfl⟩ := take_eq ht
  · cases hturn
  · obtain ⟨-, htake⟩ | ⟨-, htake⟩ := s.bridge.take_cases
    · rw [htake] at hturn
      dsimp only at hturn
      split at hturn <;> cases hturn
    · rw [htake] at hturn ⊢
      cases hturn
      refine ⟨by simp [queueAt, hs], rfl, by simp, decisionAt_revise fun _ => rfl, fun i => ?_,
        fun i => ?_⟩
      · rw [disposedAt, getElem?_revise, disposedAt]
        split
        · rename_i hi
          simp [hi, hs]
        · rfl
      · rw [queueAt, getElem?_revise, queueAt]
        split
        · rename_i hi
          simp [hi, hs]
        · rfl

theorem take_leave (ht : h.take stop = (.leave, h')) :
    (stop < h.stops.length → h.disposedAt stop = true) ∧ h'.active = h.active ∧
      h'.stops.length = h.stops.length ∧ Alike h h' := by
  obtain ⟨hnone, -, rfl⟩ | ⟨s, hs, hturn, rfl⟩ := take_eq ht
  · refine ⟨fun hlt => ?_, rfl, rfl, .of_stops_eq rfl⟩
    rw [List.getElem?_eq_getElem hlt] at hnone
    cases hnone
  · obtain ⟨-, htake⟩ | ⟨-, htake⟩ := s.bridge.take_cases
    · rw [htake] at hturn ⊢
      dsimp only at hturn
      split at hturn
      · rename_i hd
        have hstops : (h.revise stop fun s' => { s' with bridge := s.bridge }).stops = h.stops := by
          refine List.ext_getElem? fun i => ?_
          rw [getElem?_revise]
          split
          · rename_i hi
            simp [hi, hs]
          · rfl
        exact ⟨fun _ => by simp [disposedAt, hs, hd], rfl, by simp, .of_stops_eq hstops⟩
      · cases hturn
    · rw [htake] at hturn
      cases hturn

theorem disposedAt_of_take_wait (ht : h.take stop = (.wait, h')) :
    stop < h.stops.length ∧ h.disposedAt stop = false := by
  obtain ⟨-, hturn, -⟩ | ⟨s, hs, hturn, -⟩ := take_eq ht
  · cases hturn
  · refine ⟨(List.getElem?_eq_some_iff.1 hs).1, ?_⟩
    obtain ⟨-, htake⟩ | ⟨-, htake⟩ := s.bridge.take_cases
    · rw [htake] at hturn
      dsimp only at hturn
      split at hturn
      · cases hturn
      · rename_i hd
        simpa [disposedAt, hs] using hd
    · rw [htake] at hturn
      cases hturn

theorem leave_eq (hl : h.leave stop = (d, h')) :
    d = (h.decisionAt stop).getD .detach ∧ h'.stops = h.stops ∧
      h'.active = if h.active = some stop then none else h.active := by
  unfold leave at hl
  cases hl
  refine ⟨rfl, ?_⟩
  split
  · exact ⟨rfl, rfl⟩
  · exact ⟨rfl, rfl⟩

-- ---------------------------------------------------------------------------
-- The session
-- ---------------------------------------------------------------------------

theorem current_eq_ok : h.current = .ok stop ↔ h.active = some stop := by
  unfold current
  cases h.active <;> simp

theorem current_eq_error {e : AdapterError} (hc : h.current = .error e) :
    h.active = none ∧ e = .notStopped := by
  unfold current at hc
  split at hc
  · cases hc
  · cases hc
    exact ⟨‹_›, rfl⟩

theorem decide_ok (hd : h.decide stop d = .ok h') (hlt : stop < h.stops.length) :
    h.decisionAt stop = none ∧ h'.active = h.active ∧ h'.stops.length = h.stops.length ∧
      (∀ i, h'.decisionAt i = if i = stop then some d else h.decisionAt i) ∧
      (∀ i, h'.disposedAt i = h.disposedAt i) ∧ ∀ i, h'.queueAt i = h.queueAt i := by
  unfold decide at hd
  split at hd
  · cases hd
  · rename_i hnone
    cases hd
    refine ⟨hnone, rfl, by simp, fun i => ?_, disposedAt_revise fun _ => rfl,
      queueAt_revise fun _ => rfl⟩
    rw [decisionAt, getElem?_revise, decisionAt]
    split
    · rename_i hi
      simp [hi, hlt]
    · rfl

theorem decide_error {e : AdapterError} (hd : h.decide stop d = .error e) :
    h.decisionAt stop ≠ none ∧ e = .alreadyResumed := by
  unfold decide at hd
  split at hd
  · rename_i hsome
    cases hd
    rw [decisionAt, hsome]
    exact ⟨nofun, rfl⟩
  · cases hd

theorem schedule_ok (hs : h.schedule stop q = .ok h') :
    h.disposedAt stop = false ∧ h'.active = h.active ∧ h'.stops.length = h.stops.length ∧
      (∀ i, h'.decisionAt i = h.decisionAt i) ∧ (∀ i, h'.disposedAt i = h.disposedAt i) ∧
      ∀ i, h'.queueAt i = if i = stop then h.queueAt i ++ [q] else h.queueAt i := by
  unfold schedule at hs
  split at hs
  · cases hs
  · rename_i s hget
    simp only [Bridge.schedule] at hs
    split at hs
    · cases hs
    · rename_i hd
      cases hs
      have hd := Bool.eq_false_iff.2 hd
      refine ⟨by simp [disposedAt, hget, hd], rfl, by simp, decisionAt_revise fun _ => rfl,
        fun i => ?_, fun i => ?_⟩
      · rw [disposedAt, getElem?_revise, disposedAt]
        split
        · rename_i hi
          simp [hi, hget]
        · rfl
      · rw [queueAt, getElem?_revise, queueAt]
        split
        · rename_i hi
          simp [hi, hget]
        · rfl

theorem schedule_error {e : AdapterError} (hs : h.schedule stop q = .error e)
    (hlt : stop < h.stops.length) : h.disposedAt stop = true ∧ e = .stopEnded := by
  unfold schedule at hs
  rw [List.getElem?_eq_getElem hlt] at hs
  simp only [Bridge.schedule] at hs
  split at hs
  · cases hs
    exact ⟨by simpa [disposedAt, hlt] using ‹_›, rfl⟩
  · cases hs

theorem release_eq (hlt : stop < h.stops.length) :
    (∀ i, (h.release stop).decisionAt i = h.decisionAt i) ∧
      (∀ i, (h.release stop).disposedAt i = (h.disposedAt i || i == stop)) ∧
      ∀ i, (h.release stop).queueAt i = h.queueAt i := by
  refine ⟨decisionAt_revise fun _ => rfl, fun i => ?_, queueAt_revise fun _ => rfl⟩
  rw [disposedAt, release, getElem?_revise, disposedAt]
  split
  · rename_i hi
    simp [hi, hlt, Bridge.dispose]
  · simp [*]

theorem settle_eq (hlt : stop < h.stops.length) :
    (∀ i, (h.settle stop).decisionAt i =
        if i = stop then some ((h.decisionAt i).getD .detach) else h.decisionAt i) ∧
      (∀ i, (h.settle stop).disposedAt i = h.disposedAt i) ∧
      ∀ i, (h.settle stop).queueAt i = h.queueAt i := by
  refine ⟨fun i => ?_, disposedAt_revise fun _ => rfl, queueAt_revise fun _ => rfl⟩
  rw [decisionAt, settle, getElem?_revise, decisionAt]
  split
  · rename_i hi
    simp [hi, hlt]
  · rfl

theorem vacate_eq {active : Option Nat} (hv : h.vacate = (active, h')) :
    h.active = active ∧ h' = { h with active := none } := by
  unfold vacate at hv
  cases hv
  exact ⟨rfl, rfl⟩

end DebugAdapter.Handle
