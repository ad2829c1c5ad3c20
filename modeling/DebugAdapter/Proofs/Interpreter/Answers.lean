import DebugAdapter.Interpreter.Basic
import Mathlib.Algebra.Group.Nat.Defs

/-!
# Interpreters that answer

Two kinds of interpreters: one that answers whatever it is asked, and one whose answers stay the
same as well. Both are said of a state, since what an interpreter will answer depends on the state
in which it was parked. `Ensures` carries such a promise through a computation, which then comes to
an end without a fault.
-/

namespace DebugAdapter

-- ---------------------------------------------------------------------------
-- Computations that come to an end
-- ---------------------------------------------------------------------------

section Ensures

variable {S α β : Type}

theorem bind_run (m : ExceptT Fault (StateM S) α) (f : α → ExceptT Fault (StateM S) β) (s : S) :
    (m >>= f) s = match m s with
      | (.ok a, s') => f a s'
      | (.error fault, s') => (.error fault, s') := by
  show ExceptT.bindCont f (m s).1 (m s).2 = _
  obtain ⟨r, s'⟩ := m s
  cases r <;> rfl

theorem bind_eq_ok {m : ExceptT Fault (StateM S) α} {f : α → ExceptT Fault (StateM S) β}
    {s s'' : S} {b : β} :
    (m >>= f) s = (.ok b, s'') ↔ ∃ a s', m s = (.ok a, s') ∧ f a s' = (.ok b, s'') := by
  rw [bind_run]
  constructor
  · intro h
    split at h
    · exact ⟨_, _, ‹_›, h⟩
    · cases h
  · rintro ⟨a, s', hm, hf⟩
    rw [hm]
    exact hf

theorem bind_eq_error {m : ExceptT Fault (StateM S) α} {f : α → ExceptT Fault (StateM S) β}
    {s s'' : S} {fault : Fault} :
    (m >>= f) s = (.error fault, s'') ↔
      m s = (.error fault, s'') ∨ ∃ a s', m s = (.ok a, s') ∧ f a s' = (.error fault, s'') := by
  rw [bind_run]
  obtain ⟨r, s'⟩ := m s
  cases r with
  | ok a =>
    constructor
    · intro h
      exact .inr ⟨a, s', rfl, h⟩
    · rintro (h | ⟨b, _, h, hf⟩)
      · cases h
      · cases h
        exact hf
  | error fault' =>
    constructor
    · intro h
      cases h
      exact .inl rfl
    · rintro (h | ⟨b, _, h, -⟩)
      · cases h
        rfl
      · cases h

/-- From states with a property a computation comes to such a state without a fault, and its result
is as promised. -/
def Ensures (I : S → Prop) (m : ExceptT Fault (StateM S) α) (Q : α → Prop) : Prop :=
  ∀ s, I s → ∃ a s', m s = (.ok a, s') ∧ I s' ∧ Q a

variable {I : S → Prop} {m : ExceptT Fault (StateM S) α} {Q : α → Prop}

theorem Ensures.pure {a : α} (h : Q a) : Ensures I (Pure.pure a) Q :=
  fun s hs => ⟨a, s, rfl, hs, h⟩

theorem Ensures.bind {f : α → ExceptT Fault (StateM S) β} {R : β → Prop} (hm : Ensures I m Q)
    (hf : ∀ a, Q a → Ensures I (f a) R) : Ensures I (m >>= f) R := by
  intro s hs
  obtain ⟨a, s', hm, hs', ha⟩ := hm s hs
  obtain ⟨b, s'', hf, hs'', hb⟩ := hf a ha s' hs'
  exact ⟨b, s'', bind_eq_ok.2 ⟨a, s', hm, hf⟩, hs'', hb⟩

theorem Ensures.of_ok (hm : Ensures I m Q) {s s' : S} {a : α} (hs : I s)
    (h : m s = (.ok a, s')) : I s' ∧ Q a := by
  obtain ⟨b, s'', hb, hs'', hq⟩ := hm s hs
  rw [h] at hb
  cases hb
  exact ⟨hs'', hq⟩

end Ensures

-- ---------------------------------------------------------------------------
-- Two kinds of interpreters
-- ---------------------------------------------------------------------------

def Answers : Type := (call : Call) → call.Answer

namespace Interpreter

variable {σ : Type}

def after (it : Interpreter σ) (calls : List Call) (s : σ) : σ :=
  calls.foldl (fun s call => (it.answer call s).2) s

/-- Whatever was asked before, every call is answered. -/
def Returns (it : Interpreter σ) (s : σ) : Prop :=
  ∀ calls call, ∃ a, (it.answer call (it.after calls s)).1 = .ok a

/-- Whatever was asked before, every call is answered, and always alike. -/
def Steady (it : Interpreter σ) (answers : Answers) (s : σ) : Prop :=
  ∀ calls call, (it.answer call (it.after calls s)).1 = .ok (answers call)

theorem Steady.returns {it : Interpreter σ} {answers : Answers} {s : σ}
    (h : it.Steady answers s) : it.Returns s :=
  fun calls call => ⟨_, h calls call⟩

theorem Returns.answer {it : Interpreter σ} {s : σ} (h : it.Returns s) (call : Call) :
    it.Returns (it.answer call s).2 :=
  fun calls next => h (call :: calls) next

theorem Steady.answer {it : Interpreter σ} {answers : Answers} {s : σ}
    (h : it.Steady answers s) (call : Call) : it.Steady answers (it.answer call s).2 :=
  fun calls next => h (call :: calls) next

theorem steady_of_still {it : Interpreter σ} {answers : Answers} {s : σ}
    (h : ∀ call, it.answer call s = (.ok (answers call), s)) : it.Steady answers s := by
  intro calls call
  have hs : it.after calls s = s := by
    induction calls with
    | nil => rfl
    | cons c calls ih => simpa [after, h c] using ih
  rw [hs, h call]

variable {it : Interpreter σ} {answers : Answers}

theorem ensures_ask (call : Call) : Ensures it.Returns (it.ask call) fun _ => True := by
  intro s hs
  obtain ⟨a, ha⟩ := hs [] call
  exact ⟨a, (it.answer call s).2, Prod.ext ha rfl, hs.answer call, trivial⟩

theorem ensures_ask_steady (call : Call) :
    Ensures (it.Steady answers) (it.ask call) (· = answers call) := by
  intro s hs
  exact ⟨_, (it.answer call s).2, Prod.ext (hs [] call) rfl, hs.answer call, rfl⟩

-- ---------------------------------------------------------------------------
-- Frames
-- ---------------------------------------------------------------------------

theorem ensures_framesFrom (steps : Nat) (level : UInt32) :
    Ensures it.Returns (it.framesFrom steps level) fun _ => True := by
  induction steps generalizing level with
  | zero => exact .pure trivial
  | succ steps ih =>
    refine (ensures_ask (.frame level)).bind fun info _ => ?_
    cases info with
    | none => exact .pure trivial
    | some info => exact (ih (level + 1)).bind fun outer _ => .pure trivial

theorem ensures_frames : Ensures it.Returns it.frames fun _ => True := ensures_framesFrom _ _

end Interpreter

namespace Answers

variable (answers : Answers)

/-- What a walk of some steps finds, from a level outwards. -/
def Frames (steps : Nat) (level : UInt32) (infos : List FrameInfo) : Prop :=
  ∀ i, i ≤ infos.length → i < steps → answers (.frame (level + .ofNat i)) = infos[i]?

def Stack (infos : List FrameInfo) : Prop :=
  ∀ i, i ≤ infos.length → answers (.frame (.ofNat i)) = infos[i]?

variable {answers} in
theorem Frames.stack {infos : List FrameInfo} (h : answers.Frames Interpreter.maxLevels 0 infos)
    (hl : infos.length < 2 ^ 32) : answers.Stack infos := by
  intro i hi
  have := h i hi (Nat.lt_of_le_of_lt hi hl)
  rwa [UInt32.zero_add] at this

def reading (place : Place) : Reading :=
  match answers (.resolve place) with
  | none => .nowhere
  | some .table => .table ((answers (.entries place)).getD [])
  | some v => .scalar v

end Answers

namespace Interpreter

variable {σ : Type} {it : Interpreter σ} {answers : Answers}

theorem ensures_framesFrom_steady (steps : Nat) (level : UInt32) :
    Ensures (it.Steady answers) (it.framesFrom steps level) (answers.Frames steps level) := by
  induction steps generalizing level with
  | zero => exact .pure (by simp [Answers.Frames])
  | succ steps ih =>
    have hzero : level + .ofNat 0 = level := UInt32.add_zero level
    refine (ensures_ask_steady (.frame level)).bind fun info hinfo => ?_
    cases info with
    | none =>
      refine .pure fun i hi _ => ?_
      obtain rfl : i = 0 := Nat.le_zero.1 hi
      rw [hzero, ← hinfo]
      rfl
    | some info =>
      refine (ih (level + 1)).bind fun outer hrest => .pure fun i hi hlt => ?_
      cases i with
      | zero =>
        rw [hzero, ← hinfo]
        rfl
      | succ i =>
        have := hrest i (Nat.le_of_succ_le_succ hi) (Nat.lt_of_succ_lt_succ hlt)
        rwa [UInt32.add_assoc, UInt32.add_comm 1, ← UInt32.ofNat_one, ← UInt32.ofNat_add] at this

theorem ensures_frames_steady :
    Ensures (it.Steady answers) it.frames (answers.Frames maxLevels 0) :=
  ensures_framesFrom_steady _ _

-- ---------------------------------------------------------------------------
-- Readings
-- ---------------------------------------------------------------------------

theorem ensures_read (place : Place) : Ensures it.Returns (it.read place) fun _ => True := by
  refine (ensures_ask (.resolve place)).bind fun value _ => ?_
  split
  · exact .pure trivial
  · exact (ensures_ask (.entries place)).bind fun keys _ => .pure trivial
  · exact .pure trivial

theorem ensures_read_steady (place : Place) :
    Ensures (it.Steady answers) (it.read place) (· = answers.reading place) := by
  refine (ensures_ask_steady (.resolve place)).bind fun value hv => ?_
  split
  · exact .pure (by simp [Answers.reading, ← hv])
  · refine (ensures_ask_steady (.entries place)).bind fun keys hk => .pure ?_
    simp [Answers.reading, ← hv, ← hk]
  · refine .pure ?_
    rename_i v hne
    cases v <;> simp_all [Answers.reading, ← hv]

end Interpreter

end DebugAdapter
