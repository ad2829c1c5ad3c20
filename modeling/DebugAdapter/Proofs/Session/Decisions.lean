import DebugAdapter.Proofs.Session.Keeping

/-!
# One decision per stop

A stop is decided once, by the first request to resume that is accepted there or by a session that
closes, and the thread comes back from the stop with that decision. Until then all further requests
at the stop are refused. The client learns that its request was accepted before it is told of the
next stop.
-/

namespace DebugAdapter

open Protocol Journal

variable {σ τ : Type} {host : Host σ τ} {sys : System σ τ} {J before after : List Entry}
  {r : Request} {d : Decision} {errand : Errand} {place : Option Nat} {stop : Nat}

namespace Journal

/-- A request is answered with an outcome, at the latest when nothing moves any more, and it comes
to that. -/
structure Yields (host : Host σ τ) (sys : System σ τ) (after : List Entry) (o : Outcome) :
    Prop where
  only : ∀ o', after.findSome? Entry.answer? = some o' → o' = o
  rests : sys.Settles host
  atRest : sys.Resting host → after.findSome? Entry.answer? = some o

end Journal

namespace System

theorem Kept.answered_of_resting (h : sys.Kept (before ++ Entry.found r errand place :: after))
    (hrest : sys.stepSession host = none) :
    (∃ o, after.findSome? Entry.answer? = some o) ∨ ∃ q stop, errand = .inspect q ∧
      place = some stop ∧ .released stop ∉ before ∧
      lastOf .session after = some (.accepted r errand stop) := by
  have hlast := h.last_of_waiting hrest
  rw [List.append_cons] at hlast
  cases h.regular.course with
  | looking hn =>
    rw [← List.append_cons, lastOf_split rfl hn] at hlast
    obtain hu | ⟨r, q, stop, ⟨⟩, -⟩ := hlast
    cases hu
  | refused hl =>
    rw [lastOf_append_of_some hl] at hlast
    obtain hu | ⟨r, q, stop, ⟨⟩, -⟩ := hlast
    cases hu
  | answered ha => exact .inl ⟨_, ha⟩
  | accepted hp hg hl =>
    rw [lastOf_append_of_some hl] at hlast
    obtain hu | ⟨r, q, stop, ⟨⟩, -⟩ := hlast
    · cases hu
    · subst hp
      cases hg with
      | asked q hr => exact .inr ⟨q, _, rfl, rfl, hr, hl⟩

theorem Kept.yields {o : Outcome} (h : sys.Kept (before ++ Entry.found r errand place :: after))
    (hjudged : ∀ o', Judged before r errand place o' → o' = o)
    (hended : ∀ q stop, errand = .inspect q → place = some stop → .released stop ∈ before) :
    Yields host sys after o where
  only o' ho := hjudged o' (h.regular.judged ho)
  rests := sys.settles host
  atRest hrest := by
    obtain ⟨o', ho⟩ | ⟨q, stop, he, hp, hnot, -⟩ := h.answered_of_resting (hrest .session)
    · rw [ho, hjudged o' (h.regular.judged ho)]
    · exact absurd (hended q stop he hp) hnot

theorem Kept.yields_notStopped (h : sys.Kept (before ++ Entry.found r errand none :: after)) :
    Yields host sys after (.refusal r .notStopped) := by
  refine h.yields (fun o ho => ?_) (fun _ _ _ hp => nomatch hp)
  cases ho with
  | notStopped => rfl

theorem Kept.yields_resumption
    (h : sys.Kept (before ++ Entry.found r (.resume d) (some stop) :: after))
    (hd : decisionIn before stop = none) : Yields host sys after (.resumption r d stop) := by
  refine h.yields (fun o ho => ?_) (fun _ _ he => nomatch he)
  cases ho with
  | resumed => rfl
  | alreadyResumed _ hsome => exact absurd hd hsome

theorem Kept.yields_alreadyResumed
    (h : sys.Kept (before ++ Entry.found r (.resume d) (some stop) :: after))
    (hd : decisionIn before stop ≠ none) : Yields host sys after (.refusal r .alreadyResumed) := by
  refine h.yields (fun o ho => ?_) (fun _ _ he => nomatch he)
  cases ho with
  | alreadyResumed => rfl
  | resumed _ hnone => exact absurd hnone hd

theorem Kept.yields_stopEnded {q : Question}
    (h : sys.Kept (before ++ Entry.found r (.inspect q) (some stop) :: after))
    (hr : .released stop ∈ before) : Yields host sys after (.refusal r .stopEnded) := by
  refine h.yields (fun o ho => ?_) (fun _ _ _ hp => by cases hp; exact hr)
  cases ho with
  | stopEnded => rfl
  | relayed _ _ hnot => exact absurd hr hnot

end System

namespace Journal

theorem Regular.not_released (h : Regular J)
    (hl : lastOf .session J = some (.accepted r errand stop)) : .released stop ∉ J := by
  obtain ⟨before, after, rfl, hafter⟩ := split_of_lastOf hl
  rw [List.append_cons, released_of_others hafter, List.mem_append, List.mem_singleton]
  rintro (hr | ⟨⟨⟩⟩)
  cases h.admits with
  | asked _ hnot => exact hnot hr
  | decided _ hnone =>
    obtain ⟨d', hd'⟩ := h.prefix.decided_of_released hr
    cases hd'.symm.trans hnone

/-- The client learns that a request to resume was accepted before it is told of a later stop. -/
theorem Regular.answered_of_announced {stop' : Nat} {body : StoppedBody}
    (h : Regular (before ++ Entry.announced stop' body :: after)) (hlt : stop < stop')
    (ha : .accepted r (.resume d) stop ∈ before ++ Entry.announced stop' body :: after) :
    .answered (.resumption r d stop) ∈ before := by
  have hbefore := h.prefix
  obtain ⟨place, hl⟩ : ∃ place, lastOf .thread before = some (.installed stop' place) := by
    cases h.admits with
    | announced _ hl => exact ⟨_, hl⟩
  -- the thread has come back from the earlier stop, so that one was let go
  have hreleased : .released stop ∈ before := by
    obtain ⟨as, bs, rfl⟩ := List.append_of_mem (mem_of_lastOf hl).1
    obtain ⟨d', hd'⟩ := hbefore.of_installed.2.2.2 stop hlt
    obtain ⟨as', bs', rfl⟩ := List.append_of_mem hd'
    rw [List.append_assoc] at hbefore
    exact List.mem_append_left _ (List.mem_append_left _ hbefore.of_returned.1)
  have hdecided : decisionIn before stop ≠ none := by
    obtain ⟨d', hd'⟩ := hbefore.decided_of_released hreleased
    rw [hd']
    nofun
  have ha := (List.mem_append.1 ha).resolve_right (h.not_resumed hdecided)
  exact (hbefore.answered_or_last ha).resolve_right fun hl' =>
    hbefore.not_released hl' hreleased

theorem Regular.decisionIn_of_returned (h : Regular J) (hr : .returned (some stop) d ∈ J) :
    decisionIn J stop = some d := by
  obtain ⟨before, after, rfl⟩ := List.append_of_mem hr
  exact decisionIn_append_of_some h.of_returned.2

theorem Regular.source_of_decision (h : Regular J) (hd : decisionIn J stop = some d) :
    (∃ r, .accepted r (.resume d) stop ∈ J) ∨
      d = .detach ∧ .settled stop ∈ J ∧ ∀ r d', .accepted r (.resume d') stop ∉ J := by
  by_cases ha : ∃ r d', .accepted r (.resume d') stop ∈ J
  · obtain ⟨r, d', ha⟩ := ha
    cases hd.symm.trans (h.decisionIn_of_accepted ha)
    exact .inl ⟨r, ha⟩
  · obtain ⟨x, hx, hdx⟩ := List.exists_of_findSome?_eq_some hd
    obtain ⟨r, rfl⟩ | ⟨rfl, rfl⟩ := decides?_eq_some hdx
    · exact .inl ⟨r, hx⟩
    · exact .inr ⟨rfl, hx, fun r d' hmem => ha ⟨r, d', hmem⟩⟩

end Journal

namespace System

/-- When nothing moves any more, the thread has come back from a stop that was decided, unless a
question there has killed it. -/
theorem Kept.returned_of_decided (h : sys.Kept J) (hrest : sys.Resting host)
    (hd : decisionIn J stop = some d) :
    .returned (some stop) d ∈ J ∨ ∃ q, .faulted stop q ∈ J := by
  have hreleased : .released stop ∈ J := by
    obtain hr | ⟨x, hl, ho⟩ := h.regular.released_or_owes hd
    · exact hr
    · obtain hu | ⟨r, q, stop', hl', -⟩ := h.last_of_waiting (hrest .session)
      · rw [hl] at hu
        exact absurd ho hu.not_owes
      · cases hl.symm.trans hl'
        cases ho
  obtain ⟨place, hi⟩ := h.regular.installed_of_lt (h.regular.lt_stopsIn hreleased rfl)
  obtain ⟨d', hd'⟩ | hplace := h.regular.returned_or_place hi
  · cases hd.symm.trans (h.regular.decisionIn_of_returned hd')
    exact .inl hd'
  · obtain hroams | ⟨stop', q, hl⟩ | ⟨stop', hparks, hnot⟩ := h.place_of_waiting (hrest .thread)
    · cases hroams.place_eq.symm.trans hplace
    · cases (placeIn_of_lastOf hl).symm.trans hplace
      exact .inr ⟨q, (mem_of_lastOf hl).1⟩
    · cases hparks.place_eq.symm.trans hplace
      exact absurd hreleased hnot

end System

-- ---------------------------------------------------------------------------
-- Every run
-- ---------------------------------------------------------------------------

/-- The stops of a run are decided once each. -/
structure DecidesOnce (host : Host σ τ) (c : Journal σ τ) : Prop where
  outbox : c.sys.handle.outbox = c.entries.filterMap Entry.sent?
  vacant : ∀ stop place, .installed stop place ∈ c.entries → place = none
  /-- A request to resume succeeds only in letting a stop go, and each stop is let go once. -/
  granted : ∀ before r d place after o,
    c.entries = before ++ Entry.found r (.resume d) place :: after →
    after.findSome? Entry.answer? = some o → o.response.success = true →
    ∃ stop, place = some stop ∧ o = .resumption r d stop
  once : ∀ stop, c.entries.countP (Entry.frees stop) ≤ 1
  accepted : ∀ o stop, .answered o ∈ c.entries → o.release = some stop →
    ∃ r d, o = .resumption r d stop ∧ .accepted r (.resume d) stop ∈ c.entries
  demanded : ∀ r d stop, .accepted r (.resume d) stop ∈ c.entries →
    Demand.of? r = some (.ok (.resume d))
  /-- Nothing replaces a decision that was accepted. -/
  kept : ∀ r d stop, .accepted r (.resume d) stop ∈ c.entries →
    c.sys.handle.stops[stop]?.bind (·.decision) = some d
  returned : ∀ before stop d after, c.entries = before ++ Entry.returned (some stop) d :: after →
    (∃ r, .accepted r (.resume d) stop ∈ before) ∨
      d = .detach ∧ .settled stop ∈ before ∧ ∀ r d', .accepted r (.resume d') stop ∉ c.entries
  turnedAway : ∀ before d after, c.entries = before ++ Entry.returned none d :: after →
    d = .detach ∧ .marked ∈ before
  rests : c.sys.Settles host
  comesBack : c.sys.Resting host → ∀ r d stop, .accepted r (.resume d) stop ∈ c.entries →
    .returned (some stop) d ∈ c.entries ∨ ∃ q, .faulted stop q ∈ c.entries
  resumedLate : ∀ before r d stop after r' d',
    c.entries = before ++ Entry.found r (.resume d) (some stop) :: after →
    .accepted r' (.resume d') stop ∈ before →
    Yields host c.sys after (.refusal r .alreadyResumed)
  askedLate : ∀ before r q stop after,
    c.entries = before ++ Entry.found r (.inspect q) (some stop) :: after →
    .released stop ∈ before → Yields host c.sys after (.refusal r .stopEnded)
  /-- The client is told of a stop only when it knows what became of the earlier ones. -/
  told : ∀ before stop' body after, c.entries = before ++ Entry.announced stop' body :: after →
    ∀ r d stop, stop < stop' → .accepted r (.resume d) stop ∈ c.entries →
      .answered (.resumption r d stop) ∈ before

/-- In whatever order a session and a thread move, the stops are decided once each. -/
theorem one_decision_per_stop (host : Host σ τ) (debugger : Debugger) (target : τ)
    (program : List (Item σ)) (moves : List Move) :
    DecidesOnce host (Journal.run host moves { sys := .start debugger target program }) := by
  have hkept := kept host debugger target program moves
  have hdemanded := demanded host debugger target program moves
  generalize Journal.run host moves { sys := .start debugger target program } = c
    at hkept hdemanded
  have h := hkept.regular
  exact {
    outbox := hkept.depicts.outbox
    vacant := fun stop place hi => by
      obtain ⟨before, after, heq⟩ := List.append_of_mem hi
      rw [heq] at h
      exact h.of_installed.1
    granted := fun before r d place after o heq ho hsuccess => by
      rw [heq] at h
      cases h.judged ho with
      | notStopped | alreadyResumed => cases hsuccess
      | resumed => exact ⟨_, rfl, rfl⟩
    once := fun stop => by
      have hfreed := h.freed_le_resumed stop
      have hresumed := h.resumed_once stop
      omega
    accepted := fun o stop => h.accepted_of_answered
    demanded := fun r d stop ha => by
      obtain ⟨before, hmem, -, hx⟩ := h.admits_of_mem ha
      cases hx with
      | decided hl => exact hdemanded.found _ _ _ (hmem _ (mem_of_lastOf hl).1)
    kept := fun r d stop ha => by
      rw [← h.decisionIn_of_accepted ha]
      exact hkept.depicts.decision stop
    returned := fun before stop d after heq => by
      rw [heq] at h ⊢
      have hdecision := h.of_returned.2
      obtain ha | ⟨rfl, hs, hnone⟩ := h.prefix.source_of_decision hdecision
      · exact .inl ha
      · refine .inr ⟨rfl, hs, fun r d' ha => ?_⟩
        obtain ha | ha := List.mem_append.1 ha
        · exact hnone r d' ha
        · exact h.not_resumed (by rw [hdecision]; nofun) ha
    turnedAway := fun before d after heq => by
      rw [heq] at h
      cases h.admits with
      | turnedAway _ hm => exact ⟨rfl, hm⟩
    rests := c.sys.settles host
    comesBack := fun hrest r d stop ha =>
      hkept.returned_of_decided hrest (h.decisionIn_of_accepted ha)
    resumedLate := fun before r d stop after r' d' heq ha => by
      rw [heq] at hkept
      have hd := hkept.regular.prefix.decisionIn_of_accepted ha
      exact hkept.yields_alreadyResumed (by rw [hd]; nofun)
    askedLate := fun before r q stop after heq hr => by
      rw [heq] at hkept
      exact hkept.yields_stopEnded hr
    told := fun before stop' body after heq r d stop hlt ha => by
      rw [heq] at h ha
      exact h.answered_of_announced hlt ha }

end DebugAdapter
