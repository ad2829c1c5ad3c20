import DebugAdapter.Session.Bridge

/-!
# Draining a bridge

The thread that a stop has parked, seen on its own: it takes batches from its bridge and runs
their invocations one after the other. An invocation may itself schedule, dispose, and run the
loop anew, and it may be followed step by step. Every step makes less what is left to do.
-/

namespace DebugAdapter

/-- What a thread does to a bridge. An invocation is a label and the steps that it takes. To run
is to enter the loop of the parked thread; where `ρ` is empty, invocations never do. -/
inductive BridgeStep (ι ρ : Type) where
  | schedule (label : ι) (steps : List (BridgeStep ι ρ))
  | dispose
  | ask
  | run (label : ρ)
deriving Inhabited

variable {ι ρ : Type}

namespace BridgeStep

mutual

/-- How many steps of a loop a step can bring about, itself and those of invocations included. -/
def cost : BridgeStep ι ρ → Nat
  | .schedule _ steps => costAll steps + 3
  | .dispose | .ask => 1
  | .run _ => 2

def costAll : List (BridgeStep ι ρ) → Nat
  | [] => 0
  | step :: rest => step.cost + costAll rest

end

end BridgeStep

structure Invocation (ι ρ : Type) where
  label : ι
  steps : List (BridgeStep ι ρ)

inductive BridgeEvent (ι ρ : Type) where
  | scheduled (accepted : Except AdapterError Unit)
  | disposed
  | isDisposed (b : Bool)
  | started (label : ρ)
  | ran (label : ι)
  | returned

abbrev InvocationBridge (ι ρ : Type) := Bridge (Invocation ι ρ)

structure Drain (ι ρ : Type) where
  steps : List (BridgeStep ι ρ) := []
  batch : List (Invocation ι ρ) := []

-- ---------------------------------------------------------------------------
-- Steps
-- ---------------------------------------------------------------------------

def Bridge.perform (b : InvocationBridge ι ρ) : BridgeStep ι ρ →
    BridgeEvent ι ρ × InvocationBridge ι ρ
  | .schedule label steps =>
    match b.schedule ⟨label, steps⟩ with
    | .ok b => (.scheduled (.ok ()), b)
    | .error e => (.scheduled (.error e), b)
  | .dispose => (.disposed, b.dispose)
  | .ask => (.isDisposed b.disposed, b)
  | .run label => (.started label, b)

def BridgeStep.opened : BridgeStep ι ρ → List (Drain ι ρ)
  | .run _ => [{}]
  | _ => []

/-- The next atomic step of a thread in its loops, innermost first, and what it shows; or none
where the thread waits or is in no loop. -/
def Bridge.advance (b : InvocationBridge ι ρ) : List (Drain ι ρ) →
    Option (Option (BridgeEvent ι ρ) × List (Drain ι ρ) × InvocationBridge ι ρ)
  | [] => none
  | ⟨step :: steps, batch⟩ :: outer =>
    some (some (b.perform step).1, step.opened ++ ⟨steps, batch⟩ :: outer, (b.perform step).2)
  | ⟨[], invocation :: batch⟩ :: outer =>
    some (some (.ran invocation.label), ⟨invocation.steps, batch⟩ :: outer, b)
  | ⟨[], []⟩ :: outer =>
    match b.take with
    | (.wait, _) => none
    | (.work batch, b) => some (none, ⟨[], batch⟩ :: outer, b)
    | (.leave, b) => some (some .returned, outer, b)

-- ---------------------------------------------------------------------------
-- What is left to do
-- ---------------------------------------------------------------------------

def total {α : Type} (cost : α → Nat) : List α → Nat
  | [] => 0
  | a :: rest => cost a + total cost rest

section Total

variable {α : Type} (cost : α → Nat)

@[simp] theorem total_nil : total cost [] = 0 := rfl

@[simp] theorem total_cons (a : α) (rest : List α) :
    total cost (a :: rest) = cost a + total cost rest := rfl

@[simp] theorem total_append (as bs : List α) :
    total cost (as ++ bs) = total cost as + total cost bs := by
  induction as with
  | nil => simp
  | cons a as ih => simp [ih, Nat.add_assoc]

end Total

def Invocation.cost (i : Invocation ι ρ) : Nat := BridgeStep.costAll i.steps + 1

def Bridge.cost (b : InvocationBridge ι ρ) : Nat := total (fun i => i.cost + 1) b.queue

def Drain.cost (d : Drain ι ρ) : Nat :=
  BridgeStep.costAll d.steps + total Invocation.cost d.batch + 1

def Drain.costAll (loops : List (Drain ι ρ)) : Nat := total Drain.cost loops

theorem Bridge.cost_perform_lt (b : InvocationBridge ι ρ) (step : BridgeStep ι ρ) :
    (b.perform step).2.cost + Drain.costAll step.opened < b.cost + step.cost := by
  cases step with
  | schedule label steps =>
    by_cases h : b.disposed
    · simp [perform, schedule, h, cost, Drain.costAll, BridgeStep.opened, BridgeStep.cost]
    · simp [perform, schedule, h, cost, Drain.costAll, BridgeStep.opened, BridgeStep.cost,
        Invocation.cost]
  | dispose | ask =>
    simp [perform, dispose, cost, Drain.costAll, BridgeStep.opened, BridgeStep.cost]
  | run label =>
    simp [perform, cost, Drain.costAll, Drain.cost, BridgeStep.opened, BridgeStep.cost,
      BridgeStep.costAll]

theorem Invocation.total_cost_le (queue : List (Invocation ι ρ)) :
    total cost queue ≤ total (fun i => i.cost + 1) queue := by
  induction queue with
  | nil => simp
  | cons i queue ih => simp; omega

theorem Bridge.cost_advance_lt {b b' : InvocationBridge ι ρ} {loops loops' : List (Drain ι ρ)}
    {event : Option (BridgeEvent ι ρ)} (h : b.advance loops = some (event, loops', b')) :
    Drain.costAll loops' + b'.cost < Drain.costAll loops + b.cost := by
  unfold advance at h
  split at h
  · cases h
  · rename_i step steps batch outer
    cases h
    have := b.cost_perform_lt step
    simp [Drain.costAll, Drain.cost, BridgeStep.costAll] at this ⊢
    omega
  · cases h
    simp [Drain.costAll, Drain.cost, Invocation.cost, BridgeStep.costAll]
  · cases hq : b.queue with
    | nil =>
      by_cases hd : b.disposed <;> simp [take, hq, hd] at h
      obtain ⟨-, rfl, rfl⟩ := h
      simp [Drain.costAll, Drain.cost]
    | cons i queue =>
      simp [take, hq] at h
      obtain ⟨-, rfl, rfl⟩ := h
      have := Invocation.total_cost_le queue
      simp [Drain.costAll, Drain.cost, cost, hq, BridgeStep.costAll]
      omega

-- ---------------------------------------------------------------------------
-- Threads
-- ---------------------------------------------------------------------------

/-- A thread alone on its bridge runs its loops until all have returned or it waits for ever. -/
def Bridge.drain (b : InvocationBridge ι ρ) (loops : List (Drain ι ρ)) :
    List (BridgeEvent ι ρ) × InvocationBridge ι ρ :=
  match _h : b.advance loops with
  | none => ([], b)
  | some (event, loops, b) =>
    let (events, b) := b.drain loops
    (event.toList ++ events, b)
termination_by Drain.costAll loops + b.cost
decreasing_by exact cost_advance_lt _h

/-- A step of a thread that is in no loop, with the whole of the loop that it enters. -/
def Bridge.execute (b : InvocationBridge ι ρ) (step : BridgeStep ι ρ) :
    List (BridgeEvent ι ρ) × InvocationBridge ι ρ :=
  let (event, b) := b.perform step
  let (events, b) := b.drain step.opened
  (event :: events, b)

end DebugAdapter
