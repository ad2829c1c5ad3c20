import DebugAdapter.Proofs.Session.Nesting

/-!
# Which step ends first

A target that was stopped may be resumed to step in, over or out, and the same events may follow.
Stepping over ends no later than stepping out. Stepping in ends no later than stepping over but for
one case: the frame is left for a caller whose line has the same number, and no line event before
had another one. Stepping over ends there, while stepping in looks at nothing but the number of the
line and goes on. The main statement is `finer_steps_end_first`, which also says that every run of
the system ends a step where `firstStop?` says.
-/

namespace DebugAdapter

open Protocol

variable {σ τ : Type}

-- ---------------------------------------------------------------------------
-- Events as a goal sees them
-- ---------------------------------------------------------------------------

structure Sighting where
  kind : EventKind
  line : Option UInt32 := none
  depth : UInt32
deriving DecidableEq

/-- Events that carry no line meet no goal. -/
def StepGoal.meets (goal : StepGoal) (x : Sighting) : Bool :=
  match x.line with
  | some line => goal.isMet x.kind line x.depth
  | none => false

/-- The first of the events after a stop that ends the step, if the target was resumed at this line
and depth. Only a decision to step has an end. -/
def firstStop? (decision : Decision) (line depth : UInt32) (events : List Sighting) : Option Nat :=
  (StepGoal.of? decision line depth).bind fun goal => events.findIdx? goal.meets

def Sighting.Elsewhere (line : UInt32) (x : Sighting) : Prop :=
  x.kind = .line ∧ ∃ other, x.line = some other ∧ other ≠ line

/-- A line event at a line of the same number, in a frame that was below. -/
def Sighting.Returned (line depth : UInt32) (x : Sighting) : Prop :=
  x.kind = .line ∧ x.line = some line ∧ x.depth < depth

namespace StepGoal

variable {line depth : UInt32} {x : Sighting}

theorem meets_into : (into line).meets x = true ↔ x.Elsewhere line := by
  obtain ⟨kind, seen, depth⟩ := x
  cases seen with
  | none => simp [meets, Sighting.Elsewhere]
  | some seen => simp [meets, isMet, Sighting.Elsewhere]

theorem meets_over_of_out (h : (out depth).meets x = true) :
    (StepGoal.over line depth).meets x = true := by
  obtain ⟨kind, seen, depth'⟩ := x
  cases seen with
  | none => cases h
  | some seen =>
    simp only [meets, isMet, Bool.and_eq_true, Bool.or_eq_true] at h ⊢
    exact ⟨h.1, .inl h.2⟩

theorem meets_over (h : (StepGoal.over line depth).meets x = true) :
    (into line).meets x = true ∨ x.Returned line depth := by
  obtain ⟨kind, seen, depth'⟩ := x
  cases seen with
  | none => cases h
  | some seen =>
    by_cases hseen : seen = line
    · subst hseen
      simp only [meets, isMet, Bool.and_eq_true, Bool.or_eq_true, beq_iff_eq, bne_self_eq_false,
        Bool.and_false, Bool.false_eq_true, or_false, decide_eq_true_eq] at h
      exact .inr ⟨h.1, rfl, h.2⟩
    · simp only [meets, isMet, Bool.and_eq_true] at h ⊢
      exact .inl ⟨h.1, bne_iff_ne.2 hseen⟩

end StepGoal

-- ---------------------------------------------------------------------------
-- Which goal is met first
-- ---------------------------------------------------------------------------

section Order

variable {line depth : UInt32} {events : List Sighting} {n m : Nat}

theorem firstStop?_stepOver : firstStop? .stepOver line depth events =
    events.findIdx? (StepGoal.over line depth).meets := rfl

theorem firstStop?_stepIn : firstStop? .stepIn line depth events =
    events.findIdx? (StepGoal.into line).meets := rfl

theorem exists_findIdx?_le {α : Type} {p : α → Bool} {xs : List α} {x : α} {n : Nat}
    (hx : xs[n]? = some x) (hp : p x = true) : ∃ m ≤ n, xs.findIdx? p = some m := by
  obtain ⟨hn, rfl⟩ := List.getElem?_eq_some_iff.1 hx
  have hlt : xs.findIdx p < xs.length :=
    List.findIdx_lt_length_of_exists ⟨_, List.getElem_mem hn, hp⟩
  refine ⟨xs.findIdx p, ?_, List.findIdx?_eq_some_of_exists ⟨_, List.getElem_mem hn, hp⟩⟩
  exact Nat.le_of_not_lt fun h => absurd hp (Bool.eq_false_iff.1 (List.not_of_lt_findIdx h))

theorem stepOver_of_stepOut (h : firstStop? .stepOut line depth events = some n) :
    ∃ m ≤ n, firstStop? .stepOver line depth events = some m := by
  obtain ⟨goal, hgoal, hfirst⟩ := Option.bind_eq_some_iff.1 h
  simp only [StepGoal.of?] at hgoal
  split at hgoal
  · cases hgoal
    obtain ⟨hn, hmeets, -⟩ := List.findIdx?_eq_some_iff_getElem.1 hfirst
    exact exists_findIdx?_le (List.getElem?_eq_getElem hn) (StepGoal.meets_over_of_out hmeets)
  · cases hgoal

/-- Where stepping over ends, stepping in has ended by then, or it has seen no line of another
number and the target has returned to a line of the same number. -/
theorem stepIn_or_returned (h : firstStop? .stepOver line depth events = some n) :
    (∃ m ≤ n, firstStop? .stepIn line depth events = some m) ∨
      ∃ x, events[n]? = some x ∧ x.Returned line depth ∧
        ∀ y ∈ events.take (n + 1), ¬ y.Elsewhere line := by
  rw [firstStop?_stepOver] at h
  obtain ⟨hn, hmeets, -⟩ := List.findIdx?_eq_some_iff_getElem.1 h
  by_cases hseen : ∃ y ∈ events.take (n + 1), y.Elsewhere line
  · obtain ⟨y, hy, helse⟩ := hseen
    obtain ⟨i, hi, rfl⟩ := List.mem_take_iff_getElem.1 hy
    obtain ⟨m, hm, hfirst⟩ := exists_findIdx?_le
      (List.getElem?_eq_getElem (Nat.lt_of_lt_of_le hi (Nat.min_le_right _ _)))
      (StepGoal.meets_into.2 helse)
    exact .inl ⟨m, by omega, hfirst⟩
  · have hnone : ∀ y ∈ events.take (n + 1), ¬ y.Elsewhere line :=
      fun y hy helse => hseen ⟨y, hy, helse⟩
    have hlast : events[n] ∈ events.take (n + 1) := by
      rw [List.take_succ_eq_append_getElem hn]
      exact List.mem_append_right _ (List.mem_singleton_self _)
    obtain hinto | hreturned := StepGoal.meets_over hmeets
    · exact absurd (StepGoal.meets_into.1 hinto) (hnone _ hlast)
    · exact .inr ⟨_, List.getElem?_eq_getElem hn, hreturned, hnone⟩

theorem lt_of_stepIn (h : firstStop? .stepIn line depth events = some m)
    (hnone : ∀ y ∈ events.take n, ¬ y.Elsewhere line) : n ≤ m := by
  rw [firstStop?_stepIn] at h
  obtain ⟨hm, hmeets, -⟩ := List.findIdx?_eq_some_iff_getElem.1 h
  refine Nat.le_of_not_lt fun hlt => hnone _ ?_ (StepGoal.meets_into.1 hmeets)
  exact List.mem_take_iff_getElem.2 ⟨m, Nat.lt_min.2 ⟨hlt, hm⟩, rfl⟩

end Order

-- ---------------------------------------------------------------------------
-- Runs
-- ---------------------------------------------------------------------------

/-- What a goal sees of an event as it is judged. The depth is measured at line events alone. -/
structure Sees (it : Interpreter σ) (judged : ExecutionEvent × σ) (x : Sighting) : Prop where
  kind : x.kind = judged.1.kind
  line : x.line = judged.1.line
  depth : x.kind = .line → (it.depth judged.2).1 = .ok x.depth

/-- In the notes the target was resumed at a stop and at this depth. Since then no breakpoint was
hit, the client has not gone, the events `passed` did not stop the target, and `stop` came of the
next one. -/
inductive Outing (it : Interpreter σ) (notes : List (Note σ)) (e₀ : ExecutionEvent)
    (decision : Decision) (depth₀ : UInt32) (passed : List Sighting) (x : Sighting)
    (stop : Option StoppedBody) : Prop
  | mk {before since after : List (Note σ)} {e : ExecutionEvent} {b : Breakpoints} {s₀ s : σ} :
      notes = before ++ .resumed e₀ decision s₀ :: since ++ .verdict e b s stop :: after →
      (∀ n ∈ since, n.resumption? = none) →
      (∀ e b s stop, .verdict e b s stop ∈ since → stop = none ∧ b.Misses e) →
      ¬ Gone (before ++ .resumed e₀ decision s₀ :: since) → b.Misses e →
      (it.depth s₀).1 = .ok depth₀ →
      List.Forall₂ (Sees it) (since.filterMap Note.judged?) passed → Sees it (e, s) x →
      Outing it notes e₀ decision depth₀ passed x stop

section Runs

variable {host : Host σ τ} {program : List (Item σ)} {c : Chronicle σ τ}
  {before since after : List (Note σ)} {e e₀ : ExecutionEvent} {b : Breakpoints} {s s₀ : σ}
  {decision : Decision} {depth₀ : UInt32} {stop : Option StoppedBody} {x : Sighting}

theorem Chronicle.Sound.meets_iff (hsound : c.Sound host program)
    (hnotes : c.notes = before ++ .resumed e₀ decision s₀ :: since ++ .verdict e b s stop :: after)
    (hsince : ∀ n ∈ since, n.resumption? = none)
    (hgone : ¬ Gone (before ++ .resumed e₀ decision s₀ :: since)) (hmiss : b.Misses e)
    (hdepth₀ : (host.interpreter.depth s₀).1 = .ok depth₀) (hsees : Sees host.interpreter (e, s) x)
    (body : StoppedBody) :
    stop = some body ↔ body = Debugger.stoppedBy "step" none ∧
      ∃ goal, StepGoal.of? decision (e₀.line.getD 0) depth₀ = some goal ∧
        goal.meets x = true := by
  obtain ⟨earlier, hlast, hverdict⟩ := hsound.verdict_iff hnotes hsince hgone
  obtain ⟨kind, line, depth⟩ := x
  obtain ⟨hkind, hline, hdepth⟩ := hsees
  rw [hverdict, stops_iff hlast hmiss hdepth₀]
  refine and_congr_right fun _ => ?_
  constructor
  · rintro ⟨hk, line', depth', goal, hl, hd, hof, hmet⟩
    obtain rfl : kind = .line := hkind.trans hk
    obtain rfl : line = some line' := hline.trans hl
    cases (hdepth rfl).symm.trans hd
    exact ⟨goal, hof, hmet⟩
  · rintro ⟨goal, hof, hmet⟩
    cases line with
    | none => cases hmet
    | some line =>
      have hk : kind = .line := by
        simp only [StepGoal.meets, StepGoal.isMet, Bool.and_eq_true, beq_iff_eq] at hmet
        exact hmet.1
      subst hk
      exact ⟨hkind.symm, line, depth, goal, hline.symm, hdepth rfl, hof, hmet⟩

theorem Chronicle.Sound.not_meets_of_passed (hsound : c.Sound host program)
    (hnotes : c.notes = before ++ .resumed e₀ decision s₀ :: since ++ after)
    (hsince : ∀ n ∈ since, n.resumption? = none)
    (hpassed : ∀ e b s stop, .verdict e b s stop ∈ since → stop = none ∧ b.Misses e)
    (hgone : ¬ Gone (before ++ .resumed e₀ decision s₀ :: since))
    (hdepth₀ : (host.interpreter.depth s₀).1 = .ok depth₀)
    {judged : ExecutionEvent × σ} (hmem : judged ∈ since.filterMap Note.judged?)
    (hsees : Sees host.interpreter judged x) {goal : StepGoal}
    (hgoal : StepGoal.of? decision (e₀.line.getD 0) depth₀ = some goal) : goal.meets x = false := by
  obtain ⟨n, hn, hjudged⟩ := List.mem_filterMap.1 hmem
  cases n with
  | verdict e b s stop =>
    cases hjudged
    obtain ⟨rfl, hmiss⟩ := hpassed e b s stop hn
    obtain ⟨front, back, rfl⟩ := List.append_of_mem hn
    have hsplit : c.notes = before ++ .resumed e₀ decision s₀ :: front ++
        .verdict e b s none :: (back ++ after) := by
      rw [hnotes]
      simp
    have hfront : ¬ Gone (before ++ .resumed e₀ decision s₀ :: front) := by
      intro h
      refine hgone ?_
      rw [← List.cons_append, ← List.append_assoc]
      exact h.append _
    refine Bool.eq_false_iff.2 fun hmet => ?_
    have hstop := (hsound.meets_iff hsplit (fun n h => hsince n (List.mem_append_left _ h)) hfront
      hmiss hdepth₀ hsees (Debugger.stoppedBy "step" none)).2 ⟨rfl, goal, hgoal, hmet⟩
    cases hstop
  | gone | event | stopped | resumed => cases hjudged

theorem Outing.stop_iff {passed : List Sighting} (hsound : c.Sound host program)
    (h : Outing host.interpreter c.notes e₀ decision depth₀ passed x stop) (body : StoppedBody) :
    stop = some body ↔ body = Debugger.stoppedBy "step" none ∧
      firstStop? decision (e₀.line.getD 0) depth₀ (passed ++ [x]) = some passed.length := by
  obtain ⟨hnotes, hsince, hpassed, hgone, hmiss, hdepth₀, hsaw, hsees⟩ := h
  rw [hsound.meets_iff hnotes hsince hgone hmiss hdepth₀ hsees]
  refine and_congr_right fun _ => ?_
  rw [firstStop?, Option.bind_eq_some_iff]
  refine exists_congr fun goal => and_congr_right fun hgoal => ?_
  have hnone : ∀ y ∈ passed, goal.meets y = false := by
    intro y hy
    obtain ⟨judged, hjudged, hsees'⟩ := forall₂_exists_left hsaw hy
    exact hsound.not_meets_of_passed hnotes hsince hpassed hgone hdepth₀ hjudged hsees' hgoal
  rw [List.findIdx?_append, List.findIdx?_eq_none_iff.2 hnone, List.findIdx?_singleton]
  cases goal.meets x <;> simp

end Runs

/-- Whatever events follow a stop, none of which hits a breakpoint, a run that steps ends at the
first that ends the step. Stepping over ends no later than stepping out. Stepping in ends no later
than stepping over, unless the event that ends stepping over has the line of the stop, in a frame
that was below, and no line event up to it had another one. Then stepping in goes on. -/
theorem finer_steps_end_first (host : Host σ τ) (paths : PathCase) (target : τ)
    (program : List (Item σ)) (moves : List Move) :
    let c : Chronicle σ τ := .run host moves { sys := .start (.fresh paths) target program }
    (∀ {e₀ decision depth₀ passed x stop},
      Outing host.interpreter c.notes e₀ decision depth₀ passed x stop →
      ∀ body, stop = some body ↔ body = Debugger.stoppedBy "step" none ∧
        firstStop? decision (e₀.line.getD 0) depth₀ (passed ++ [x]) = some passed.length) ∧
    ∀ (line depth : UInt32) (events : List Sighting) (n : Nat),
      (firstStop? .stepOut line depth events = some n →
        ∃ m ≤ n, firstStop? .stepOver line depth events = some m) ∧
      (firstStop? .stepOver line depth events = some n →
        (∃ m ≤ n, firstStop? .stepIn line depth events = some m) ∨
        (∃ x, events[n]? = some x ∧ x.Returned line depth) ∧
          (∀ y ∈ events.take (n + 1), ¬ y.Elsewhere line) ∧
          ∀ m, firstStop? .stepIn line depth events = some m → n < m) := by
  intro c
  have hsound : c.Sound host program := (Chronicle.sound_start host paths target program).run moves
  refine ⟨fun houting body => houting.stop_iff hsound body,
    fun line depth events n => ⟨?stepOut, ?stepOver⟩⟩
  case stepOut => exact stepOver_of_stepOut
  case stepOver =>
    intro h
    obtain hin | ⟨x, hx, hreturned, hnone⟩ := stepIn_or_returned h
    · exact .inl hin
    · exact .inr ⟨⟨x, hx, hreturned⟩, hnone, fun m hm => lt_of_stepIn hm hnone⟩

/-- The statement without the exception. -/
def StepInFirst : Prop :=
  ∀ (line depth : UInt32) (events : List Sighting) (n : Nat),
    firstStop? .stepOver line depth events = some n →
      ∃ m ≤ n, firstStop? .stepIn line depth events = some m

def outermost (line : UInt32) : Sighting := { kind := .line, line := some line, depth := 1 }

theorem not_stepInFirst : ¬ StepInFirst := by
  intro h
  obtain ⟨m, -, hm⟩ := h 3 2 [outermost 3] 0 (by decide)
  have hnone : firstStop? .stepIn 3 2 [outermost 3] = none := by decide
  cases hnone.symm.trans hm

-- ---------------------------------------------------------------------------
-- A caller at a line of the same number
-- ---------------------------------------------------------------------------

def stepInText : String := "\x7b\"seq\":1,\"type\":\"request\",\"command\":\"stepIn\"\x7d"

theorem Packet.Reader.readMessage_stepIn :
    ({ arrivals := [packetOf stepInText] } : Packet.Reader).readMessage =
      (.item (bareMessage "stepIn"), {}) :=
  readMessage_of_text (by decide +kernel) (by with_unfolding_all rfl)

def inCaller (line : UInt32) : ExecutionEvent :=
  { kind := .line, source := some "@b.lua", line := some line }

/-- From line 3 of one file the function returns to line 3 of another. -/
def sameNumber : List (Item Scripted.Stack) :=
  [.event (atLine 3) (activations 2), .event (inCaller 3) (activations 1),
    .event (inCaller 4) (activations 1)]

def sameNumberMoves (text : String) : List Move :=
  (Move.arrive [packetOf breakText] :: .step .session ::
      (List.replicate 3 (Move.step .session) ++ List.replicate 6 (Move.step .thread))) ++
    (Move.arrive [packetOf text] :: .step .session ::
      (List.replicate 6 (Move.step .session) ++ List.replicate 15 (Move.step .thread)))

def sameNumberRun (text : String) : Chronicle Scripted.Stack OneShot :=
  .run scriptedHost (sameNumberMoves text) { sys := .start (.fresh .sensitive) {} sameNumber }

def steppedTo (line : UInt32) : List (Note Scripted.Stack) :=
  let body := Debugger.stoppedBy "step" none
  [.verdict (inCaller line) lineSet (activations 1) (some body),
    .stopped (.debugger (inCaller line)) body]

def returned (decision : Decision) : List (Note Scripted.Stack) :=
  untilRecursion ++ [Note.resumed (atLine 3) decision (activations 2), .event (inCaller 3)]

theorem sameNumberRun_next :
    (sameNumberRun nextText).notes = returned .stepOver ++ steppedTo 3 := by
  simp only [sameNumberRun, sameNumberMoves, Chronicle.run, Recorder.run_append]
  rw [(Chronicle.overlooks _).run_read _ rfl rfl rfl Packet.Reader.readMessage_break rfl,
    (Chronicle.overlooks _).run_read _ rfl rfl rfl Packet.Reader.readMessage_next rfl]
  rfl

theorem sameNumberRun_stepIn :
    (sameNumberRun stepInText).notes = returned .stepIn ++
      [Note.verdict (inCaller 3) lineSet (activations 1) none, .event (inCaller 4)] ++
        steppedTo 4 := by
  simp only [sameNumberRun, sameNumberMoves, Chronicle.run, Recorder.run_append]
  rw [(Chronicle.overlooks _).run_read _ rfl rfl rfl Packet.Reader.readMessage_break rfl,
    (Chronicle.overlooks _).run_read _ rfl rfl rfl Packet.Reader.readMessage_stepIn rfl]
  rfl

theorem lineSet_misses (line : UInt32) (h : lineSet.matchLine (some "@b.lua") line = none) :
    lineSet.Misses (inCaller line) where
  line _ _ hline := by
    cases hline
    exact h
  call _ hkind := nomatch hkind

theorem sees_inCaller (line : UInt32) :
    Sees Scripted.interpreter (inCaller line, activations 1) (outermost line) :=
  ⟨rfl, rfl, fun _ => rfl⟩

theorem finer_steps_end_first_sameNumber : ∃ ending passing past,
    Outing Scripted.interpreter (sameNumberRun nextText).notes (atLine 3) .stepOver 2 []
        (outermost 3) ending ∧
      Outing Scripted.interpreter (sameNumberRun stepInText).notes (atLine 3) .stepIn 2 []
        (outermost 3) passing ∧
      Outing Scripted.interpreter (sameNumberRun stepInText).notes (atLine 3) .stepIn 2
        [outermost 3] (outermost 4) past ∧
      ending = some (Debugger.stoppedBy "step" none) ∧ passing = none ∧
      past = some (Debugger.stoppedBy "step" none) ∧
      (∃ m ≤ 0, firstStop? .stepOver 3 2 [outermost 3, outermost 4] = some m) ∧
      ∀ m, firstStop? .stepIn 3 2 [outermost 3, outermost 4] = some m → 0 < m := by
  have hnext : (sameNumberRun nextText).notes =
      untilRecursion ++ Note.resumed (atLine 3) .stepOver (activations 2) ::
        [Note.event (inCaller 3)] ++
        steppedTo 3 := sameNumberRun_next
  have hending : Outing Scripted.interpreter (sameNumberRun nextText).notes (atLine 3) .stepOver 2
      [] (outermost 3) (some (Debugger.stoppedBy "step" none)) :=
    .mk hnext (by simp [Note.resumption?]) (by simp) (by simp [Gone, untilRecursion])
      (lineSet_misses 3 rfl) rfl .nil (sees_inCaller 3)
  have hshort : (sameNumberRun stepInText).notes =
      untilRecursion ++ Note.resumed (atLine 3) .stepIn (activations 2) ::
        [Note.event (inCaller 3)] ++
        .verdict (inCaller 3) lineSet (activations 1) none :: .event (inCaller 4) ::
          steppedTo 4 := sameNumberRun_stepIn
  have hpassing : Outing Scripted.interpreter (sameNumberRun stepInText).notes (atLine 3) .stepIn 2
      [] (outermost 3) none :=
    .mk hshort (by simp [Note.resumption?]) (by simp) (by simp [Gone, untilRecursion])
      (lineSet_misses 3 rfl) rfl .nil (sees_inCaller 3)
  have hlong : (sameNumberRun stepInText).notes =
      untilRecursion ++ Note.resumed (atLine 3) .stepIn (activations 2) ::
          [.event (inCaller 3), .verdict (inCaller 3) lineSet (activations 1) none,
            .event (inCaller 4)] ++
        steppedTo 4 := sameNumberRun_stepIn
  have hpast : Outing Scripted.interpreter (sameNumberRun stepInText).notes (atLine 3) .stepIn 2
      [outermost 3] (outermost 4) (some (Debugger.stoppedBy "step" none)) :=
    .mk hlong (by simp [Note.resumption?]) (by simp +contextual [lineSet_misses 3 rfl])
      (by simp [Gone, untilRecursion]) (lineSet_misses 4 rfl) rfl
      (.cons (sees_inCaller 3) .nil) (sees_inCaller 4)
  have hsteps (text : String) :=
    finer_steps_end_first scriptedHost .sensitive {} sameNumber (sameNumberMoves text)
  have horder := (hsteps nextText).2 3 2 [outermost 3, outermost 4] 0
  refine ⟨_, _, _, hending, hpassing, hpast, ?ending, ?passing, ?past, horder.1 (by decide), ?later⟩
  case ending => exact ((hsteps nextText).1 hending _).2 ⟨rfl, by decide⟩
  case passing =>
    refine Option.eq_none_iff_forall_ne_some.2 fun body hbody => ?_
    have hfirst := (((hsteps stepInText).1 hpassing body).1 hbody).2
    revert hfirst
    decide
  case past => exact ((hsteps stepInText).1 hpast _).2 ⟨rfl, by decide⟩
  case later =>
    obtain ⟨m, hle, hm⟩ | ⟨-, -, hlater⟩ := horder.2 (by decide)
    · obtain rfl := Nat.le_zero.1 hle
      revert hm
      decide
    · exact hlater

end DebugAdapter
