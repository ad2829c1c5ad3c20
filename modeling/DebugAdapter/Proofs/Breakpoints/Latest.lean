import DebugAdapter.Proofs.Breakpoints.Sets
import Mathlib.Algebra.Ring.Nat

/-!
# The latest set counts

Breakpoints are set by calls, one after the other. `breakpoints_follow_latest_sets`: what a
registry answers about a source is read off the latest call for that source, and what it answers
about functions off the latest call for functions; no other call plays a part. The breakpoints that
the calls give are numbered from one on.
-/

namespace DebugAdapter.Breakpoints

open Protocol

variable {α β : Type}

-- ---------------------------------------------------------------------------
-- Calls
-- ---------------------------------------------------------------------------

inductive Call where
  | lines (source : Source) (specs : List SourceBreakpoint)
  | functions (specs : List FunctionBreakpoint)
deriving DecidableEq, Repr

namespace Call

def size : Call → Nat
  | .lines _ specs => specs.length
  | .functions specs => specs.length

/-- What is set on the source that a path means, if the call is for that source. -/
def onSource? (ignoresCase : Bool) (path : Option String) : Call → Option (List SourceBreakpoint)
  | .lines source specs => if Path.same ignoresCase source.path path then some specs else none
  | .functions _ => none

def onFunctions? : Call → Option (List FunctionBreakpoint)
  | .lines .. => none
  | .functions specs => some specs

end Call

def perform (b : Breakpoints) : Call → List Breakpoint × Breakpoints
  | .lines source specs => b.setLines source specs
  | .functions specs => b.setCalls specs

/-- A call and the breakpoints that it gave, in the order in which they were asked for. -/
structure Performed where
  call : Call
  given : List Breakpoint
deriving DecidableEq, Repr

def run (b : Breakpoints) : List Call → List Performed × Breakpoints
  | [] => ([], b)
  | call :: calls =>
    (⟨call, (b.perform call).1⟩ :: ((b.perform call).2.run calls).1,
      ((b.perform call).2.run calls).2)

/-- The latest call that sets something of a kind, each item with the breakpoint that it got. -/
def latest? (kind : Call → Option (List α)) (past : List Performed) :
    Option (List (α × Breakpoint)) :=
  past.reverse.findSome? fun p => (kind p.call).map (·.zip p.given)

theorem latest?_cons (kind : Call → Option (List α)) (p : Performed) (past : List Performed) :
    latest? kind (p :: past) =
      (latest? kind past).or ((kind p.call).map (·.zip p.given)) := by
  simp [latest?, List.findSome?_append]

-- ---------------------------------------------------------------------------
-- Numbers
-- ---------------------------------------------------------------------------

theorem zip_numbered (minted : Nat) (as : List α) (f : UInt32 × α → β) :
    as.zip ((numbered minted as).map f) = (numbered minted as).map fun e => (e.2, f e) := by
  induction as generalizing minted with
  | nil => rfl
  | cons a as ih => simp [numbered, ih]

theorem map_fst_numbered (minted : Nat) (as : List α) :
    (numbered minted as).map Prod.fst =
      (List.range' (minted + 1) as.length).map UInt32.ofNat := by
  induction as generalizing minted with
  | nil => rfl
  | cons a as ih => simp [numbered, ih, List.range'_succ]

theorem given_perform (b : Breakpoints) (call : Call) :
    (b.perform call).1.map (·.id) =
      (List.range' (b.minted + 1) call.size).map UInt32.ofNat := by
  cases call with
  | lines source specs =>
    simp [perform, setLines, minted_intern, Call.size, ← map_fst_numbered, Function.comp_def]
  | functions specs =>
    simp [perform, setCalls, Call.size, ← map_fst_numbered, Function.comp_def]

theorem minted_perform (b : Breakpoints) (call : Call) :
    (b.perform call).2.minted = b.minted + call.size := by
  cases call with
  | lines source specs => simp [perform, setLines, minted_intern, Call.size]
  | functions specs => rfl

theorem given_run (b : Breakpoints) (calls : List Call) :
    ((b.run calls).1.flatMap (·.given)).map (·.id) =
      (List.range' (b.minted + 1) (calls.map Call.size).sum).map UInt32.ofNat := by
  induction calls generalizing b with
  | nil => rfl
  | cons call calls ih =>
    rw [run, List.flatMap_cons, List.map_append, ih, given_perform, minted_perform,
      List.map_cons, List.sum_cons, ← List.map_append, Nat.add_right_comm,
      List.range'_append_1]

theorem length_given (b : Breakpoints) (calls : List Call) {p : Performed}
    (h : p ∈ (b.run calls).1) : p.given.length = p.call.size := by
  induction calls generalizing b with
  | nil => cases h
  | cons call calls ih =>
    obtain rfl | h := List.mem_cons.1 h
    · simpa using congrArg List.length (given_perform b call)
    · exact ih _ h

-- ---------------------------------------------------------------------------
-- Lines
-- ---------------------------------------------------------------------------

theorem ignoresCase_perform (b : Breakpoints) (call : Call) :
    (b.perform call).2.ignoresCase = b.ignoresCase := by
  cases call with
  | lines source specs => exact ignoresCase_intern
  | functions specs => rfl

theorem ignoresCase_run (b : Breakpoints) (calls : List Call) :
    (b.run calls).2.ignoresCase = b.ignoresCase := by
  induction calls generalizing b with
  | nil => rfl
  | cons call calls ih => exact (ih _).trans (ignoresCase_perform b call)

def place (e : SourceBreakpoint × Breakpoint) : UInt32 × UInt32 := (e.2.id, e.1.line)

theorem setOf_perform (b : Breakpoints) (call : Call) (path : Option String) :
    (b.perform call).2.setOf path =
      ((call.onSource? b.ignoresCase path).map fun specs =>
        (specs.zip (b.perform call).1).map place).getD (b.setOf path) := by
  cases call with
  | functions specs => rfl
  | lines source specs =>
    cases h : Path.same b.ignoresCase source.path path with
    | true =>
      simp only [perform, Call.onSource?, h, if_true, setOf_setLines_of_same, Option.map_some,
        Option.getD_some]
      simp [entered, setLines, minted_intern, zip_numbered, place, Function.comp_def]
    | false =>
      simp [perform, Call.onSource?, h, setOf_setLines_of_not_same]

theorem setOf_run (b : Breakpoints) (calls : List Call) (path : Option String) :
    (b.run calls).2.setOf path =
      ((latest? (Call.onSource? b.ignoresCase path) (b.run calls).1).map
        (·.map place)).getD (b.setOf path) := by
  induction calls generalizing b with
  | nil => rfl
  | cons call calls ih =>
    rw [run, ih, latest?_cons, setOf_perform, ignoresCase_perform]
    cases latest? (Call.onSource? b.ignoresCase path) ((b.perform call).2.run calls).1 with
    | some es => rfl
    | none => simp [Function.comp_def]

-- ---------------------------------------------------------------------------
-- Functions
-- ---------------------------------------------------------------------------

def entry (e : FunctionBreakpoint × Breakpoint) : CallBreakpoint := ⟨e.2.id, e.1.name⟩

theorem onCalls_perform (b : Breakpoints) (call : Call) :
    (b.perform call).2.onCalls =
      (call.onFunctions?.map fun specs =>
        (specs.zip (b.perform call).1).map entry).getD b.onCalls := by
  cases call with
  | lines source specs => exact onCalls_intern
  | functions specs =>
    simp [perform, setCalls, Call.onFunctions?, zip_numbered, entry, Function.comp_def]

theorem onCalls_run (b : Breakpoints) (calls : List Call) :
    (b.run calls).2.onCalls =
      ((latest? Call.onFunctions? (b.run calls).1).map (·.map entry)).getD b.onCalls := by
  induction calls generalizing b with
  | nil => rfl
  | cons call calls ih =>
    rw [run, ih, latest?_cons, onCalls_perform]
    cases latest? Call.onFunctions? ((b.perform call).2.run calls).1 with
    | some es => rfl
    | none => simp [Function.comp_def]

-- ---------------------------------------------------------------------------
-- Answers
-- ---------------------------------------------------------------------------

def firstOf (p : α → Bool) (items : Option (List (α × Breakpoint))) : Option UInt32 :=
  ((items.getD []).find? (p ·.1)).map (·.2.id)

/-- What a registry answers after some calls is read off the latest of them. -/
structure FollowsLatest (ignoresCase : Bool) (past : List Performed) (b : Breakpoints) :
    Prop where
  /-- Each item of a call got a breakpoint of its own. -/
  given : ∀ p ∈ past, p.given.length = p.call.size
  /-- The breakpoints are numbered in the order in which they were given. -/
  numbers : (past.flatMap (·.given)).map (·.id.toNat) =
    List.range' 1 (past.flatMap (·.given)).length
  matchLine : ∀ path line, b.matchLine path line =
    firstOf (·.line == line) (latest? (Call.onSource? ignoresCase path) past)
  linesOf : ∀ s, b.linesOf s =
    ((latest? (Call.onSource? ignoresCase s.path) past).getD []).map (·.1.line)
  matchCall : ∀ function, b.matchCall function =
    firstOf (·.name == function) (latest? Call.onFunctions? past)
  /-- A further call for another source or for functions changes nothing for a source. -/
  sourceApart : ∀ call path, call.onSource? ignoresCase path = none →
    (∀ line, (b.perform call).2.matchLine path line = b.matchLine path line) ∧
    ∀ s, s.path = path → (b.perform call).2.linesOf s = b.linesOf s
  /-- A further call for a source changes nothing for functions. -/
  functionsApart : ∀ call, call.onFunctions? = none →
    ∀ function, (b.perform call).2.matchCall function = b.matchCall function

/-- After any calls on a fresh registry each answer is read off the latest call that concerns it. -/
theorem breakpoints_follow_latest_sets (paths : PathCase) (calls : List Call)
    (few : (calls.map Call.size).sum < 2 ^ 32) :
    FollowsLatest paths.ignoresCase ((fresh paths).run calls).1 ((fresh paths).run calls).2 := by
  have hcase : ((fresh paths).run calls).2.ignoresCase = paths.ignoresCase := ignoresCase_run _ _
  have hset (path : Option String) : ((fresh paths).run calls).2.setOf path =
      ((latest? (Call.onSource? paths.ignoresCase path) ((fresh paths).run calls).1).getD []).map
        place :=
    (setOf_run (fresh paths) calls path).trans (Option.getD_map (List.map place) [] _)
  have hcalls : ((fresh paths).run calls).2.onCalls =
      ((latest? Call.onFunctions? ((fresh paths).run calls).1).getD []).map entry :=
    (onCalls_run (fresh paths) calls).trans (Option.getD_map (List.map entry) [] _)
  refine {
    given := fun p => length_given _ _
    numbers := ?_
    matchLine := fun path line => ?_
    linesOf := fun s => ?_
    matchCall := fun function => ?_
    sourceApart := fun call path h => ?_
    functionsApart := fun call h function => ?_ }
  · have hids := given_run (fresh paths) calls
    have hlength := congrArg List.length hids
    simp only [List.length_map, List.length_range'] at hlength
    have hnat := congrArg (List.map UInt32.toNat) hids
    simp only [List.map_map] at hnat
    rw [hlength]
    refine hnat.trans ((List.map_congr_left fun n hn => ?_).trans (List.map_id _))
    have hle := (List.mem_range'_1.1 hn).2
    exact UInt32.toNat_ofNat_of_lt' (show n < 2 ^ 32 by simp only [fresh] at hle; omega)
  · rw [matchLine_eq, hset, List.find?_map, Option.map_map]
    rfl
  · rw [linesOf_eq, hset, List.map_map]
    rfl
  · rw [matchCall, hcalls, List.find?_map, Option.map_map]
    rfl
  · have hsame := setOf_perform ((fresh paths).run calls).2 call path
    rw [hcase, h] at hsame
    refine ⟨fun line => ?_, fun s hs => ?_⟩
    · rw [matchLine_eq, matchLine_eq, hsame]
      rfl
    · rw [linesOf_eq, linesOf_eq, hs, hsame]
      rfl
  · rw [matchCall, matchCall, onCalls_perform, h]
    rfl

def renamedCalls : List Call :=
  [.lines { path := some "src/a.lua" } [{ line := 3 }, { line := 7 }],
    .lines { path := some "b.lua" } [{ line := 3 }],
    .lines { path := some "@./SRC\\a.lua" } [{ line := 9 }, { line := 3 }],
    .functions [{ name := "update" }]]

theorem breakpoints_follow_latest_sets_renamed :
    (renamedCalls.map Call.size).sum < 2 ^ 32 ∧
      FollowsLatest true ((fresh .insensitive).run renamedCalls).1
        ((fresh .insensitive).run renamedCalls).2 ∧
      ((fresh .insensitive).run renamedCalls).2.matchLine (some "@src/a.lua") 3 = some 5 := by
  have few : (renamedCalls.map Call.size).sum < 2 ^ 32 := by decide
  exact ⟨few, breakpoints_follow_latest_sets .insensitive renamedCalls few, by decide +kernel⟩

end DebugAdapter.Breakpoints
