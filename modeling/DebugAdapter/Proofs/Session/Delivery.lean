import DebugAdapter.Proofs.Session.Batches

/-!
# Delivery

What was accepted at a bridge is delivered. `delivers_in_order`: exactly those invocations run that
were accepted, once each, in that order and to their end; after the bridge is disposed nothing is
accepted, and the loop returns when none is left.
-/

namespace DebugAdapter.Delivery

variable {ι : Type}

-- ---------------------------------------------------------------------------
-- Histories
-- ---------------------------------------------------------------------------

namespace Entry

def accepted? : Entry ι → Option (Task ι)
  | .called _ (.schedule label steps) (.scheduled (.ok ())) => some ⟨label, steps⟩
  | _ => none

def began? : Entry ι → Option (Task ι)
  | .began task => some task
  | _ => none

def performed? : Entry ι → Option (Call ι)
  | .called .loop call _ => some call
  | _ => none

def disposes : Entry ι → Bool
  | .called _ .dispose _ => true
  | _ => false

def returns : Entry ι → Bool
  | .returned => true
  | _ => false

end Entry

def accepted (h : List (Entry ι)) : List (Task ι) := h.filterMap Entry.accepted?

def began (h : List (Entry ι)) : List (Task ι) := h.filterMap Entry.began?

def performed (h : List (Entry ι)) : List (Call ι) := h.filterMap Entry.performed?

/-- The answer to a call depends on whether the bridge was disposed before. -/
def answerTo (past : List (Entry ι)) : Call ι → BridgeEvent ι Empty
  | .schedule _ _ => .scheduled (if past.any Entry.disposes then .error .stopEnded else .ok ())
  | .dispose => .disposed
  | .ask => .isDisposed (past.any Entry.disposes)

inductive Follows (past : List (Entry ι)) : Entry ι → Prop
  | called (caller : Caller) (call : Call ι) :
      Follows past (.called caller call (answerTo past call))
  | began (task : Task ι) : performed past = (began past).flatMap (·.steps) →
      Follows past (.began task)
  | returned : past.any Entry.disposes = true → began past = accepted past →
      performed past = (began past).flatMap (·.steps) → Follows past .returned

/-- Everything may happen when it does, after some past. -/
def Lawful (past : List (Entry ι)) : List (Entry ι) → Prop
  | [] => True
  | e :: rest => Follows past e ∧ Lawful (past ++ [e]) rest

theorem lawful_append {past h h' : List (Entry ι)} :
    Lawful past (h ++ h') ↔ Lawful past h ∧ Lawful (past ++ h) h' := by
  induction h generalizing past with
  | nil => simp [Lawful]
  | cons e h ih => simp [Lawful, ih, and_assoc]

theorem Lawful.follows {past rest : List (Entry ι)} {e : Entry ι}
    (hl : Lawful [] (past ++ e :: rest)) : Follows past e :=
  (lawful_append.1 hl).2.1

/-- What a history says about the queue that it has led to. -/
structure Kept (h : List (Entry ι)) (q : Fifo ι) : Prop where
  waiting : accepted h = began h ++ q.waiting
  running : (began h).flatMap (·.steps) = performed h ++ q.running
  disposed : q.disposed = h.any Entry.disposes
  returned : q.returned = h.any Entry.returns

theorem kept_start : Kept [] ({} : Fifo ι) where
  waiting := rfl
  running := rfl
  disposed := rfl
  returned := rfl

@[simp] theorem accepted_append (h h' : List (Entry ι)) :
    accepted (h ++ h') = accepted h ++ accepted h' := List.filterMap_append

@[simp] theorem began_append (h h' : List (Entry ι)) : began (h ++ h') = began h ++ began h' :=
  List.filterMap_append

@[simp] theorem performed_append (h h' : List (Entry ι)) :
    performed (h ++ h') = performed h ++ performed h' := List.filterMap_append

@[simp] theorem accepted_began (task : Task ι) : accepted [.began task] = [] := rfl

@[simp] theorem performed_began (task : Task ι) : performed [.began task] = [] := rfl

@[simp] theorem began_began (task : Task ι) : began [.began task] = [task] := rfl

@[simp] theorem began_called (caller : Caller) (call : Call ι) (answer : BridgeEvent ι Empty) :
    began [.called caller call answer] = [] := rfl

@[simp] theorem accepted_returned : accepted [(.returned : Entry ι)] = [] := rfl

@[simp] theorem performed_returned : performed [(.returned : Entry ι)] = [] := rfl

@[simp] theorem began_returned : began [(.returned : Entry ι)] = [] := rfl

theorem Fifo.call_eq (q : Fifo ι) (caller : Caller) (call : Call ι) :
    (q.call call).2 = { q with
      waiting := q.waiting ++ accepted [.called caller call (q.call call).1]
      disposed := q.disposed || Entry.disposes (.called caller call (q.call call).1) } := by
  obtain ⟨waiting, disposed, running, returned⟩ := q
  cases call with
  | schedule label steps =>
    cases disposed <;> simp [Fifo.call, accepted, Entry.accepted?, Entry.disposes]
  | dispose | ask =>
    simp [Fifo.call, accepted, List.filterMap_cons, Entry.accepted?, Entry.disposes]
  | run label => cases label

variable {h : List (Entry ι)} {q : Fifo ι}

theorem Kept.answer_eq (hk : Kept h q) (call : Call ι) : (q.call call).1 = answerTo h call := by
  cases call with
  | schedule label steps =>
    simp only [Fifo.call, answerTo, ← hk.disposed]
    split <;> rfl
  | dispose => rfl
  | ask => simp only [Fifo.call, answerTo, ← hk.disposed]
  | run label => cases label

theorem Kept.call (hk : Kept h q) (caller : Caller) (call : Call ι) {rest : List (Call ι)}
    (hrest : q.running = performed [.called caller call (q.call call).1] ++ rest) :
    Follows h (.called caller call (q.call call).1) ∧
      Kept (h ++ [.called caller call (q.call call).1])
        { (q.call call).2 with running := rest } := by
  refine ⟨hk.answer_eq call ▸ .called caller call, ?_⟩
  rw [q.call_eq caller call]
  exact {
    waiting := by simp [hk.waiting]
    running := by simp [hk.running, hrest]
    disposed := by simp [hk.disposed]
    returned := by simp [hk.returned, Entry.returns] }

theorem Kept.play (hk : Kept h q) (m : Move ι) :
    Lawful h (q.play m).1 ∧ Kept (h ++ (q.play m).1) (q.play m).2 := by
  cases m with
  | call call =>
    have hrest : q.running =
        performed [.called .thread call (q.call call).1] ++ (q.call call).2.running := by
      rw [q.call_eq .thread call]
      rfl
    obtain ⟨hf, hk'⟩ := hk.call .thread call hrest
    exact ⟨⟨hf, trivial⟩, hk'⟩
  | loop =>
    obtain ⟨waiting, disposed, running, returned⟩ := q
    match returned, running, waiting with
    | true, running, waiting => exact ⟨trivial, by simpa [Fifo.play] using hk⟩
    | false, call :: running, waiting =>
      obtain ⟨hf, hk'⟩ := hk.call .loop call rfl
      exact ⟨⟨hf, trivial⟩, hk'⟩
    | false, [], task :: waiting =>
      have hrunning := hk.running
      have hwaiting := hk.waiting
      simp only [List.append_nil] at hrunning
      refine ⟨⟨.began task hrunning.symm, trivial⟩, ?_⟩
      exact {
        waiting := by simp [Fifo.play, hwaiting]
        running := by simp [Fifo.play, hrunning]
        disposed := by simpa [Fifo.play, Entry.disposes] using hk.disposed
        returned := by simpa [Fifo.play, Entry.returns] using hk.returned }
    | false, [], [] =>
      cases disposed with
      | false => exact ⟨trivial, by simpa [Fifo.play] using hk⟩
      | true =>
        have hrunning := hk.running
        have hwaiting := hk.waiting
        simp only [List.append_nil] at hrunning hwaiting
        refine ⟨⟨.returned hk.disposed.symm hwaiting.symm hrunning.symm, trivial⟩, ?_⟩
        exact {
          waiting := by simp [Fifo.play, hwaiting]
          running := by simp [Fifo.play, hrunning]
          disposed := by simpa [Fifo.play, Entry.disposes] using hk.disposed
          returned := by simp [Fifo.play, Entry.returns] }

theorem Kept.run (hk : Kept h q) (moves : List (Move ι)) :
    Lawful h (q.run moves).1 ∧ Kept (h ++ (q.run moves).1) (q.run moves).2 := by
  induction moves generalizing h q with
  | nil => exact ⟨trivial, by simpa [Fifo.run] using hk⟩
  | cons m moves ih =>
    obtain ⟨hl, hk⟩ := hk.play m
    obtain ⟨hl', hk'⟩ := ih hk
    exact ⟨lawful_append.2 ⟨hl, hl'⟩, by simpa [Fifo.run] using hk'⟩

theorem Lawful.accepted_eq_nil {past rest : List (Entry ι)} (hl : Lawful [] (past ++ rest))
    (hd : past.any Entry.disposes = true) : accepted rest = [] := by
  refine List.filterMap_eq_nil_iff.2 fun e he => ?_
  obtain ⟨as, bs, rfl⟩ := List.append_of_mem he
  rw [← List.append_assoc] at hl
  cases hl.follows with
  | began | returned => rfl
  | called caller call =>
    cases call with
    | schedule label steps => simp [answerTo, hd, Entry.accepted?]
    | dispose | ask => rfl
    | run label => cases label

-- ---------------------------------------------------------------------------
-- Coming to an end
-- ---------------------------------------------------------------------------

namespace Site

variable {s : Site ι}

def cost (s : Site ι) : Nat := Drain.costAll s.loops + s.bridge.cost

theorem perform_disposed {b : InvocationBridge ι Empty} (hd : b.disposed = true) (call : Call ι) :
    (b.perform call).2 = b := by
  obtain ⟨queue, disposed⟩ := b
  cases hd
  cases call with
  | schedule | dispose | ask => rfl
  | run label => cases label

theorem disposed_play (h : s.Single) (hd : s.bridge.disposed = true) (m : Move ι) :
    (s.play m).2.bridge.disposed = true := by
  cases m with
  | call call => rw [play, perform_disposed hd]; exact hd
  | loop =>
    have hstep := loopStep h
    generalize (s.play .loop).1 = es, (s.play .loop).2 = s' at hstep
    cases hstep with
    | call call => rw [perform_disposed hd]; exact hd
    | start | take | leave | wait | gone => exact hd

theorem gone_play (hg : s.loops = []) (m : Move ι) : (s.play m).2.loops = [] := by
  obtain ⟨b, loops⟩ := s
  cases hg
  cases m <;> rfl

theorem gone_run (hg : s.loops = []) (moves : List (Move ι)) : (s.run moves).2.loops = [] := by
  induction moves generalizing s with
  | nil => exact hg
  | cons m moves ih => exact ih (gone_play hg m)

theorem loops_of_advance_none {b : InvocationBridge ι Empty} {loops : List (Drain ι Empty)}
    (hd : b.disposed = true) (ha : b.advance loops = none) : loops = [] := by
  unfold Bridge.advance at ha
  split at ha
  · rfl
  · cases ha
  · cases ha
  · unfold Bridge.take at ha
    cases hq : b.queue with
    | nil => simp [hq, hd] at ha
    | cons task queue => simp [hq] at ha

/-- Once the bridge is disposed, the loop returns after as many steps as it has left to do, whatever
other threads call in between. -/
theorem gone_of_cost_le (h : s.Single) (hd : s.bridge.disposed = true) (moves : List (Move ι))
    (hm : s.cost ≤ moves.countP Move.isLoop) : (s.run moves).2.loops = [] := by
  induction moves generalizing s with
  | nil =>
    cases hl : s.loops with
    | nil => exact hl
    | cons d outer =>
      rw [List.countP_nil, cost, hl] at hm
      simp [Drain.costAll, Drain.cost] at hm
  | cons m moves ih =>
    have hsingle := h.play m
    have hdisposed := disposed_play h hd m
    cases m with
    | call call =>
      refine ih hsingle hdisposed ?_
      have hsame : (s.play (.call call)).2 = s := by rw [play, perform_disposed hd]
      rw [hsame]
      simpa [Move.isLoop] using hm
    | loop =>
      cases ha : s.bridge.advance s.loops with
      | none => exact gone_run (loops_of_advance_none hd ha) (.loop :: moves)
      | some next =>
        obtain ⟨event, loops, bridge⟩ := next
        refine ih hsingle hdisposed ?_
        have hlt := Bridge.cost_advance_lt ha
        have hnext : (s.play .loop).2.cost = Drain.costAll loops + bridge.cost := by
          simp only [play, ha, cost]
        simp only [List.countP_cons, Move.isLoop, if_true, cost] at hm
        omega

end Site

-- ---------------------------------------------------------------------------
-- Every history
-- ---------------------------------------------------------------------------

/-- Accepted tasks are delivered: each runs once, in the order of acceptance and to its end. -/
structure InOrder (h : List (Entry ι)) : Prop where
  /-- A task is accepted if and only if nobody has disposed of the bridge before. -/
  answered : ∀ past caller label steps answer rest,
    h = past ++ .called caller (.schedule label steps) answer :: rest →
    answer = .scheduled (if past.any Entry.disposes then .error .stopEnded else .ok ())
  prefixed : began h <+: accepted h
  /-- The tasks that have begun have made all their calls when the next one begins. -/
  whole : ∀ past task rest, h = past ++ .began task :: rest →
    performed past = (began past).flatMap (·.steps)
  /-- The loop returns from a disposed bridge only, when all that was ever accepted has run. -/
  complete : ∀ past rest, h = past ++ .returned :: rest → past.any Entry.disposes = true ∧
    began past = accepted h ∧ performed past = (accepted h).flatMap (·.steps)

theorem site_kept (moves : List (Move ι)) :
    Lawful [] (Site.run {} moves).1 ∧
      Kept (Site.run {} moves).1 (Site.run {} moves).2.asQueue := by
  have hs : Site.Single ({} : Site ι) := Nat.le_refl _
  obtain ⟨turns, hturns⟩ := hs.exists_turns moves
  have hrun := kept_start.run turns
  have hstart : ({} : Site ι).asQueue = {} := rfl
  rw [← hstart, hturns] at hrun
  exact hrun

theorem Lawful.inOrder (hl : Lawful [] h) (hk : Kept h q) : InOrder h where
  answered past caller label steps answer rest heq := by
    subst heq
    cases hl.follows
    rfl
  prefixed := ⟨q.waiting, hk.waiting.symm⟩
  whole past task rest heq := by
    subst heq
    cases hl.follows with
    | began _ hw => exact hw
  complete past rest heq := by
    subst heq
    cases hl.follows with
    | returned hd hb hp =>
      rw [List.append_cons] at hl
      have hnone := Lawful.accepted_eq_nil hl (by simp [hd])
      rw [List.append_cons, accepted_append, hnone, accepted_append, accepted_returned,
        List.append_nil, List.append_nil, ← hb]
      exact ⟨hd, rfl, hp⟩

/-- However threads interleave at a bridge, its history is one of a queue that is served one task at
a time, and accepted tasks are delivered in order. Once the bridge is disposed nothing more is
accepted, and the loop returns when it has been given a certain number of steps. -/
theorem delivers_in_order :
    (∀ h : List (Entry ι),
      (∃ moves, (Site.run {} moves).1 = h) ↔ ∃ moves, (Fifo.run {} moves).1 = h) ∧
    ∀ moves : List (Move ι), InOrder (Site.run {} moves).1 ∧
      ((Site.run {} moves).1.any Entry.disposes = true →
        (∀ more, accepted (Site.run {} (moves ++ more)).1 = accepted (Site.run {} moves).1) ∧
        ∃ n, ∀ more, n ≤ more.countP Move.isLoop →
          .returned ∈ (Site.run {} (moves ++ more)).1) := by
  have hs : Site.Single ({} : Site ι) := Nat.le_refl _
  refine ⟨fun h => ⟨?_, ?_⟩, fun moves => ⟨?_, fun hd => ⟨fun more => ?_, ?_⟩⟩⟩
  · rintro ⟨moves, rfl⟩
    obtain ⟨turns, hturns⟩ := hs.exists_turns moves
    exact ⟨turns, congrArg Prod.fst hturns⟩
  · rintro ⟨turns, rfl⟩
    exact hs.exists_run turns
  · obtain ⟨hl, hk⟩ := site_kept moves
    exact hl.inOrder hk
  · obtain ⟨hl, -⟩ := site_kept (moves ++ more)
    rw [(Site.run_append {} moves more).1] at hl ⊢
    rw [accepted_append, hl.accepted_eq_nil hd, List.append_nil]
  · obtain ⟨-, hk⟩ := site_kept moves
    refine ⟨(Site.run {} moves).2.cost, fun more hm => ?_⟩
    have hgone := Site.gone_of_cost_le (hs.run moves) (hk.disposed.trans hd) more hm
    rw [← (Site.run_append {} moves more).2] at hgone
    obtain ⟨-, hk'⟩ := site_kept (moves ++ more)
    have hreturned := hk'.returned
    simp only [Site.asQueue, hgone, List.isEmpty_nil] at hreturned
    obtain ⟨e, he, hr⟩ := List.any_eq_true.1 hreturned.symm
    cases e with
    | returned => exact he
    | called | began => cases hr

end DebugAdapter.Delivery
