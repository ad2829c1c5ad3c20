import DebugAdapter.Interpreter.Scripted
import DebugAdapter.Proofs.Interpreter.Answers

/-!
# Harmless scripts

A script in which nothing kills who reads it is a steady interpreter: every question is answered,
and always alike.
-/

namespace DebugAdapter.Scripted

mutual

def Scene.harmless : Scene → Bool
  | .value _ | .unlisted | .gone => true
  | .table entries => harmlessEntries entries
  | .deadly => false

def Scene.harmlessEntries : List (Key × Scene) → Bool
  | [] => true
  | (_, scene) :: rest => scene.harmless && harmlessEntries rest

end

def Stack.harmless (stack : Stack) : Bool :=
  stack.all fun frame => frame.locals.all fun (_, scene) => scene.harmless

def Stack.answers (stack : Stack) (call : Call) : call.Answer :=
  match stack.answer call with
  | .ok a => a
  | .error _ => match call with
    | .frame _ | .locals _ | .resolve _ | .entries _ => none

theorem harmless_of_mem {entries : List (Key × Scene)} (h : Scene.harmlessEntries entries)
    {entry : Key × Scene} (hmem : entry ∈ entries) : entry.2.harmless := by
  induction entries with
  | nil => cases hmem
  | cons first rest ih =>
    rw [Scene.harmlessEntries, Bool.and_eq_true] at h
    cases hmem with
    | head => exact h.1
    | tail _ hmem => exact ih h.2 hmem

theorem harmless_at? {keys : List Key} {scene found : Scene} (h : scene.harmless)
    (hat : scene.at? keys = some found) : found.harmless := by
  induction keys generalizing scene with
  | nil =>
    cases hat
    exact h
  | cons key keys ih =>
    cases scene with
    | table entries =>
      obtain ⟨inner, hlookup, hinner⟩ := Option.bind_eq_some_iff.1 hat
      obtain ⟨before, after, rfl, -⟩ := List.lookup_eq_some_iff.1 hlookup
      have hmem : (key, inner) ∈ before ++ (key, inner) :: after := by simp
      exact ih (harmless_of_mem h hmem) hinner
    | value v => cases hat
    | unlisted => cases hat
    | gone => cases hat
    | deadly => cases hat

theorem Stack.at?_ne_deadly {stack : Stack} (h : stack.harmless) (place : Place) :
    stack.at? place ≠ some .deadly := by
  intro hat
  obtain ⟨locals, hlocals, hat⟩ := Option.bind_eq_some_iff.1 hat
  have hall : locals.all fun (_, scene) => scene.harmless := by
    unfold locals? at hlocals
    split at hlocals
    · rename_i frame hframe
      split at hlocals
      · cases hlocals
        exact List.all_eq_true.1 h frame (List.mem_of_getElem? hframe)
      · cases hlocals
    · cases hlocals
  split at hat
  · cases hat
  · obtain ⟨⟨name, scene⟩, hmem, hat⟩ := Option.bind_eq_some_iff.1 hat
    have hscene := List.all_eq_true.1 hall (name, scene) (List.mem_of_getElem? hmem)
    cases harmless_at? hscene hat

theorem Stack.steady {stack : Stack} (h : stack.harmless) :
    interpreter.Steady stack.answers stack := by
  refine Interpreter.steady_of_still fun call => ?_
  have hok : stack.answer call = .ok (stack.answers call) := by
    cases call with
    | frame level => rfl
    | locals level => rfl
    | entries place =>
      simp only [answers, answer]
      split <;> rfl
    | resolve place =>
      have := stack.at?_ne_deadly h place
      simp only [answers, answer]
      split <;> first | rfl | contradiction
  exact Prod.ext hok rfl

end DebugAdapter.Scripted
