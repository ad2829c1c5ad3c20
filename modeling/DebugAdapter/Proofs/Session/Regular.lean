import DebugAdapter.Proofs.Session.Journal

/-!
# Regular journals

`Admits J x` says when an entry may come after a journal: which entry of its side must be the last
one, and what else the journal must hold. A journal is `Regular` if each of its entries was admitted
by those before it. All that is said of stops over a whole run follows from these rules alone, by
induction on the journal.
-/

namespace DebugAdapter.Journal

open Protocol Entry

-- ---------------------------------------------------------------------------
-- Rules
-- ---------------------------------------------------------------------------

/-- The session has no request under way at a stop, and no stop to let go. -/
inductive Unengaged : Option Entry → Prop
  | fresh : Unengaged none
  | answered {o : Outcome} : o.release = none → Unengaged (some (.answered o))
  | released (stop : Nat) : Unengaged (some (.released stop))
  | closed : Unengaged (some .closed)

inductive Roams : Option Entry → Prop
  | fresh : Roams none
  | returned (stop : Option Nat) (d : Decision) : Roams (some (.returned stop d))

inductive Parks (stop : Nat) : Option Entry → Prop
  | announced (body : StoppedBody) : Parks stop (some (.announced stop body))
  | served (q : Question) (reply : Except AdapterError Json) :
      Parks stop (some (.served stop q reply))

/-- The answers that the session may have come to. -/
inductive Concludes (J : List Entry) : Outcome → Prop
  | plain {o : Outcome} : Unengaged (lastOf .session J) → o.release = none → Concludes J o
  | notStopped {r : Request} {errand : Errand} :
      lastOf .session J = some (.found r errand none) → Concludes J (.refusal r .notStopped)
  | refused {r : Request} {errand : Errand} {stop : Nat} {e : AdapterError} :
      lastOf .session J = some (.refused r errand stop e) → Concludes J (.refusal r e)
  | resumed {r : Request} {d : Decision} {stop : Nat} :
      lastOf .session J = some (.accepted r (.resume d) stop) → Concludes J (.resumption r d stop)
  | relayed {r : Request} {q : Question} {stop : Nat} {reply : Except AdapterError Json} :
      lastOf .session J = some (.accepted r (.inspect q) stop) → replyIn J = some reply →
      Concludes J (.relay r reply)

/-- What may come next. -/
inductive Admits (J : List Entry) : Entry → Prop
  | reported : Roams (lastOf .thread J) → Admits J .reported
  | installed : lastOf .thread J = some .reported → .marked ∉ J →
      Admits J (.installed (stopsIn J) (activeIn J))
  | turnedAway : lastOf .thread J = some .reported → .marked ∈ J →
      Admits J (.returned none .detach)
  | announced {stop : Nat} {place : Option Nat} (body : StoppedBody) :
      lastOf .thread J = some (.installed stop place) → Admits J (.announced stop body)
  | served {r : Request} {q : Question} {stop : Nat} (reply : Except AdapterError Json) :
      Parks stop (lastOf .thread J) →
      lastOf .session J = some (.accepted r (.inspect q) stop) → replyIn J = none →
      Admits J (.served stop q reply)
  | faulted {r : Request} {q : Question} {stop : Nat} : Parks stop (lastOf .thread J) →
      lastOf .session J = some (.accepted r (.inspect q) stop) → replyIn J = none →
      Admits J (.faulted stop q)
  | returned {stop : Nat} : Parks stop (lastOf .thread J) → .released stop ∈ J →
      Admits J (.returned (some stop) ((decisionIn J stop).getD .detach))
  | found (r : Request) (errand : Errand) : Unengaged (lastOf .session J) →
      Admits J (.found r errand (activeIn J))
  | asked {r : Request} {q : Question} {stop : Nat} :
      lastOf .session J = some (.found r (.inspect q) (some stop)) → .released stop ∉ J →
      Admits J (.accepted r (.inspect q) stop)
  | askedLate {r : Request} {q : Question} {stop : Nat} :
      lastOf .session J = some (.found r (.inspect q) (some stop)) → .released stop ∈ J →
      Admits J (.refused r (.inspect q) stop .stopEnded)
  | decided {r : Request} {d : Decision} {stop : Nat} :
      lastOf .session J = some (.found r (.resume d) (some stop)) → decisionIn J stop = none →
      Admits J (.accepted r (.resume d) stop)
  | decidedLate {r : Request} {d : Decision} {stop : Nat} :
      lastOf .session J = some (.found r (.resume d) (some stop)) → decisionIn J stop ≠ none →
      Admits J (.refused r (.resume d) stop .alreadyResumed)
  | answered {o : Outcome} : Concludes J o → Admits J (.answered o)
  | sent (m : Outgoing) : Admits J (.sent m)
  | letGo {o : Outcome} {stop : Nat} : lastOf .session J = some (.answered o) →
      o.release = some stop → Admits J (.released stop)
  | marked : Unengaged (lastOf .session J) → Admits J .marked
  | vacated {stop : Nat} : lastOf .session J = some .marked → activeIn J = some stop →
      Admits J (.vacated stop)
  | settled {stop : Nat} : lastOf .session J = some (.vacated stop) → Admits J (.settled stop)
  | disposed {stop : Nat} : lastOf .session J = some (.settled stop) → Admits J (.released stop)
  | closed {x : Entry} : lastOf .session J = some x → x = .marked ∨ (∃ stop, x = .released stop) →
      .marked ∈ J → activeIn J = none → Admits J .closed

inductive Regular : List Entry → Prop
  | nil : Regular []
  | snoc {J : List Entry} {x : Entry} : Regular J → Admits J x → Regular (J ++ [x])

variable {J before after : List Entry} {x : Entry} {stop : Nat} {place : Option Nat} {d : Decision}
  {r : Request} {q : Question} {o : Outcome} {errand : Errand}

theorem Regular.prefix (h : Regular (before ++ after)) : Regular before := by
  generalize hJ : before ++ after = J at h
  induction h generalizing after with
  | nil =>
    rw [(List.append_eq_nil_iff.1 hJ).1]
    exact .nil
  | @snoc J x h hx ih =>
    rcases after.eq_nil_or_concat with rfl | ⟨rest, y, rfl⟩
    · rw [List.append_nil] at hJ
      rw [hJ]
      exact .snoc h hx
    · rw [List.concat_eq_append, ← List.append_assoc] at hJ
      exact ih (List.append_inj' hJ rfl).1

theorem Regular.admits (h : Regular (before ++ x :: after)) : Admits before x := by
  have h : Regular (before ++ [x]) := by
    rw [List.append_cons] at h
    exact h.prefix
  generalize hJ : before ++ [x] = J at h
  cases h with
  | nil => cases (List.append_eq_nil_iff.1 hJ).2
  | snoc _ hx =>
    obtain ⟨rfl, hy⟩ := List.append_inj' hJ rfl
    cases hy
    exact hx

theorem Regular.admits_last (h : Regular (J ++ [x])) : Admits J x := h.admits

theorem Regular.admits_of_mem (h : Regular J) (hx : x ∈ J) :
    ∃ before, (∀ y ∈ before, y ∈ J) ∧ (∃ after, J = before ++ x :: after) ∧ Admits before x := by
  obtain ⟨before, after, rfl⟩ := List.append_of_mem hx
  exact ⟨before, fun y hy => List.mem_append_left _ hy, ⟨after, rfl⟩, h.admits⟩

theorem Regular.countP_le_one {p : Entry → Bool} (h : Regular J)
    (hp : ∀ {J x y}, Regular J → Admits J x → p x = true → y ∈ J → p y ≠ true) :
    J.countP p ≤ 1 := by
  induction h with
  | nil => exact Nat.zero_le _
  | @snoc J x h hx ih =>
    rw [List.countP_append, List.countP_singleton]
    split
    · have hzero : J.countP p = 0 := List.countP_eq_zero.2 fun y hy => hp h hx ‹_› hy
      omega
    · omega

/-- What the session does next where it is not free to take up something else. -/
inductive Ensues (J : List Entry) : Entry → Entry → Prop
  | notStopped (r : Request) (errand : Errand) :
      Ensues J (.found r errand none) (.answered (.refusal r .notStopped))
  | asked {r : Request} {q : Question} {stop : Nat} : .released stop ∉ J →
      Ensues J (.found r (.inspect q) (some stop)) (.accepted r (.inspect q) stop)
  | askedLate {r : Request} {q : Question} {stop : Nat} : .released stop ∈ J →
      Ensues J (.found r (.inspect q) (some stop)) (.refused r (.inspect q) stop .stopEnded)
  | decided {r : Request} {d : Decision} {stop : Nat} : decisionIn J stop = none →
      Ensues J (.found r (.resume d) (some stop)) (.accepted r (.resume d) stop)
  | decidedLate {r : Request} {d : Decision} {stop : Nat} : decisionIn J stop ≠ none →
      Ensues J (.found r (.resume d) (some stop)) (.refused r (.resume d) stop .alreadyResumed)
  | refused (r : Request) (errand : Errand) (stop : Nat) (e : AdapterError) :
      Ensues J (.refused r errand stop e) (.answered (.refusal r e))
  | resumed (r : Request) (d : Decision) (stop : Nat) :
      Ensues J (.accepted r (.resume d) stop) (.answered (.resumption r d stop))
  | relayed {r : Request} {q : Question} {stop : Nat} {reply : Except AdapterError Json} :
      replyIn J = some reply →
      Ensues J (.accepted r (.inspect q) stop) (.answered (.relay r reply))
  | letGo {o : Outcome} {stop : Nat} : o.release = some stop →
      Ensues J (.answered o) (.released stop)
  | vacated {stop : Nat} : activeIn J = some stop → Ensues J .marked (.vacated stop)
  | settled (stop : Nat) : Ensues J (.vacated stop) (.settled stop)
  | disposed (stop : Nat) : Ensues J (.settled stop) (.released stop)
  | closed : Ensues J .marked .closed

theorem Admits.ensues {y : Entry} (hx : Admits J x) (hl : lastOf .session J = some y)
    (hy : ¬ Unengaged (some y)) (hside : x.side? = some .session) : Ensues J y x := by
  cases hx with
  | reported | installed | turnedAway | announced | served | faulted | returned | sent =>
    cases hside
  | found _ _ hu | marked hu => exact absurd (hl ▸ hu) hy
  | asked h' hr =>
    cases hl.symm.trans h'
    exact .asked hr
  | askedLate h' hr =>
    cases hl.symm.trans h'
    exact .askedLate hr
  | decided h' hd =>
    cases hl.symm.trans h'
    exact .decided hd
  | decidedLate h' hd =>
    cases hl.symm.trans h'
    exact .decidedLate hd
  | answered ha =>
    cases ha with
    | plain hu => exact absurd (hl ▸ hu) hy
    | notStopped h' =>
      cases hl.symm.trans h'
      exact .notStopped _ _
    | refused h' =>
      cases hl.symm.trans h'
      exact .refused _ _ _ _
    | resumed h' =>
      cases hl.symm.trans h'
      exact .resumed _ _ _
    | relayed h' hr =>
      cases hl.symm.trans h'
      exact .relayed hr
  | letGo h' ho =>
    cases hl.symm.trans h'
    exact .letGo ho
  | vacated h' ha =>
    cases hl.symm.trans h'
    exact .vacated ha
  | settled h' =>
    cases hl.symm.trans h'
    exact .settled _
  | disposed h' =>
    cases hl.symm.trans h'
    exact .disposed _
  | closed h' hlast =>
    cases hl.symm.trans h'
    obtain rfl | ⟨stop, rfl⟩ := hlast
    · exact .closed
    · exact absurd (.released stop) hy

-- ---------------------------------------------------------------------------
-- Where the thread is
-- ---------------------------------------------------------------------------

theorem Roams.place_eq (h : Roams (lastOf .thread J)) : placeIn J = none := by
  rw [placeIn]
  generalize lastOf .thread J = last at h
  cases h <;> rfl

theorem Parks.place_eq (h : Parks stop (lastOf .thread J)) : placeIn J = some stop := by
  rw [placeIn]
  generalize lastOf .thread J = last at h
  cases h <;> rfl

theorem Regular.place_of_active (h : Regular J) (ha : activeIn J = some stop) :
    placeIn J = some stop := by
  induction h with
  | nil => cases ha
  | @snoc J x h hx ih =>
    rw [activeIn_append] at ha
    cases hx with
    | installed => simpa [activeAfter, side?, place?] using ha
    | reported hl => cases hl.place_eq.symm.trans (ih ha)
    | turnedAway hl => cases (placeIn_of_lastOf hl).symm.trans (ih ha)
    | announced _ hl =>
      have := (placeIn_of_lastOf hl).symm.trans (ih ha)
      simpa [side?, place?] using this
    | served _ hl | faulted hl =>
      have := hl.place_eq.symm.trans (ih ha)
      simpa [side?, place?] using this
    | returned hl =>
      simp only [activeAfter] at ha
      split at ha
      · cases ha
      · rename_i hne
        exact absurd (ha.trans ((ih ha).symm.trans hl.place_eq)) hne
    | vacated => cases ha
    | found | asked | askedLate | decided | decidedLate | answered | sent | letGo | marked | settled
      | disposed | closed => simpa [side?] using ih ha

theorem Regular.returned_or_place (h : Regular J) (hi : .installed stop place ∈ J) :
    (∃ d, .returned (some stop) d ∈ J) ∨ placeIn J = some stop := by
  induction h with
  | nil => cases hi
  | @snoc J x h hx ih =>
    rcases List.mem_append.1 hi with hi | hi
    · obtain ⟨d, hd⟩ | hplace := ih hi
      · exact .inl ⟨d, List.mem_append_left _ hd⟩
      · cases hx with
        | reported hl => cases hl.place_eq.symm.trans hplace
        | installed hl | turnedAway hl => cases (placeIn_of_lastOf hl).symm.trans hplace
        | announced _ hl =>
          have := (placeIn_of_lastOf hl).symm.trans hplace
          exact .inr (by simpa [side?, place?] using this)
        | served _ hl | faulted hl =>
          have := hl.place_eq.symm.trans hplace
          exact .inr (by simpa [side?, place?] using this)
        | returned hl =>
          cases hl.place_eq.symm.trans hplace
          exact .inl ⟨_, List.mem_append_right _ (List.mem_singleton_self _)⟩
        | found | asked | askedLate | decided | decidedLate | answered | sent | letGo | marked
          | vacated | settled | disposed | closed =>
          exact .inr (by simpa [side?, place?] using hplace)
    · cases List.mem_singleton.1 hi
      exact .inr (by simp [side?, place?])

theorem Regular.silent (h : Regular (before ++ .faulted stop q :: after)) :
    ∀ x ∈ after, x.side? ≠ some .thread := by
  induction after using List.reverseRecOn with
  | nil => exact fun x hx => absurd hx List.not_mem_nil
  | append_singleton after y ih =>
    rw [← List.cons_append, ← List.append_assoc] at h
    have ih := ih h.prefix
    have hlast : lastOf .thread (before ++ .faulted stop q :: after) = some (.faulted stop q) :=
      lastOf_split rfl ih
    intro x hx
    rcases List.mem_append.1 hx with hx | hx
    · exact ih x hx
    · cases List.mem_singleton.1 hx
      cases h.admits_last with
      | reported hl | served _ hl | faulted hl | returned hl =>
        rw [hlast] at hl
        cases hl
      | installed hl | turnedAway hl | announced _ hl => cases hlast.symm.trans hl
      | found | asked | askedLate | decided | decidedLate | answered | sent | letGo | marked
        | vacated | settled | disposed | closed => simp [side?]

-- ---------------------------------------------------------------------------
-- Stops are numbered
-- ---------------------------------------------------------------------------

theorem stopsIn_le_append : stopsIn before ≤ stopsIn (before ++ after) := by
  simp [stopsIn, List.countP_append]

theorem Regular.lt_stopsIn (h : Regular J) (hx : x ∈ J) (hs : x.stop? = some stop) :
    stop < stopsIn J := by
  induction h generalizing x with
  | nil => cases hx
  | @snoc J y h hy ih =>
    have hle : stopsIn J ≤ stopsIn (J ++ [y]) := stopsIn_le_append
    have hof {side : Side} {z : Entry} (hl : lastOf side J = some z) (hz : z.stop? = some stop) :
        stop < stopsIn (J ++ [y]) :=
      Nat.lt_of_lt_of_le (ih (mem_of_lastOf hl).1 hz) hle
    have hat (hp : placeIn J = some stop) : stop < stopsIn (J ++ [y]) := by
      obtain ⟨z, hl, hz⟩ := Option.bind_eq_some_iff.1 hp
      refine hof hl ?_
      cases z <;> cases hz <;> rfl
    rcases List.mem_append.1 hx with hx | hx
    · exact Nat.lt_of_lt_of_le (ih hx hs) hle
    · rw [List.mem_singleton.1 hx] at hs
      cases hy with
      | reported | turnedAway | sent | marked | closed => cases hs
      | installed =>
        cases hs
        simp [isInstalled]
      | announced _ hl => exact hof hl hs
      | served _ hl | faulted hl | returned hl =>
        cases hs
        exact hat hl.place_eq
      | found => exact hat (h.place_of_active hs)
      | asked hl | askedLate hl | decided hl | decidedLate hl => exact hof hl hs
      | answered ha =>
        cases ha with
        | plain _ ho => cases ho.symm.trans hs
        | notStopped | refused => cases hs
        | relayed => cases (Outcome.release_relay _ _).symm.trans hs
        | resumed hl => exact hof hl hs
      | letGo hl ho =>
        cases hs
        exact hof hl ho
      | vacated _ ha =>
        cases hs
        exact hat (h.place_of_active ha)
      | settled hl | disposed hl => exact hof hl hs

theorem Regular.installed_of_lt (h : Regular J) (hs : stop < stopsIn J) :
    ∃ place, .installed stop place ∈ J := by
  induction h with
  | nil => cases hs
  | @snoc J x h hx ih =>
    rcases Nat.lt_or_ge stop (stopsIn J) with hlt | hge
    · obtain ⟨place, hp⟩ := ih hlt
      exact ⟨place, List.mem_append_left _ hp⟩
    · cases hx with
      | installed =>
        simp only [stopsIn_append, isInstalled, if_true] at hs
        obtain rfl : stop = stopsIn J := by omega
        exact ⟨_, List.mem_append_right _ (List.mem_singleton_self _)⟩
      | _ =>
        simp only [stopsIn_append, isInstalled, Bool.false_eq_true, if_false] at hs
        omega

/-- A stop becomes active once; the thread has come back from all earlier ones by then. -/
theorem Regular.of_installed (h : Regular (before ++ .installed stop place :: after)) :
    place = none ∧ stop = stopsIn before ∧ .marked ∉ before ∧
      ∀ i < stop, ∃ d, .returned (some i) d ∈ before := by
  have hbefore := h.prefix
  generalize hx : Entry.installed stop place = x at h
  cases h.admits with
  | installed hl hm =>
    cases hx
    have hnone : placeIn before = none := placeIn_of_lastOf hl
    refine ⟨?place, rfl, hm, fun i hi => ?earlier⟩
    case place =>
      cases ha : activeIn before with
      | none => rfl
      | some stop => cases hnone.symm.trans (hbefore.place_of_active ha)
    case earlier =>
      obtain ⟨place, hp⟩ := hbefore.installed_of_lt hi
      obtain hd | hplace := hbefore.returned_or_place hp
      · exact hd
      · cases hnone.symm.trans hplace
  | _ => cases hx

-- ---------------------------------------------------------------------------
-- Decisions
-- ---------------------------------------------------------------------------

theorem isSome_decisionIn (hx : x ∈ J) (hd : (x.decides? stop).isSome) :
    (decisionIn J stop).isSome := by
  rw [decisionIn, List.findSome?_isSome_iff]
  exact ⟨x, hx, hd⟩

theorem Regular.decisionIn_of_accepted (h : Regular J) (ha : .accepted r (.resume d) stop ∈ J) :
    decisionIn J stop = some d := by
  obtain ⟨before, -, ⟨after, rfl⟩, hx⟩ := h.admits_of_mem ha
  cases hx with
  | decided _ hnone =>
    rw [List.append_cons]
    exact decisionIn_append_of_some (by simp [hnone, decides?])

theorem Regular.not_resumed (h : Regular (before ++ after)) (hd : decisionIn before stop ≠ none) :
    .accepted r (.resume d) stop ∉ after := by
  intro ha
  obtain ⟨as, bs, rfl⟩ := List.append_of_mem ha
  rw [← List.append_assoc] at h
  cases h.admits with
  | decided _ hnone =>
    obtain ⟨d', hd'⟩ := Option.ne_none_iff_exists'.1 hd
    cases (decisionIn_append_of_some hd').symm.trans hnone

theorem resumes_iff : x.resumes stop = true ↔ ∃ r d, x = .accepted r (.resume d) stop := by
  constructor
  · intro h
    unfold Entry.resumes at h
    split at h
    · rename_i r d _
      exact ⟨r, d, by rw [eq_of_beq h]⟩
    · cases h
  · rintro ⟨r, d, rfl⟩
    exact beq_self_eq_true stop

theorem Regular.resumed_once (h : Regular J) (stop : Nat) : J.countP (Entry.resumes stop) ≤ 1 := by
  refine h.countP_le_one fun {J x y} h hx hxr hy hyr => ?_
  obtain ⟨r, d, rfl⟩ := resumes_iff.1 hxr
  obtain ⟨r', d', rfl⟩ := resumes_iff.1 hyr
  cases hx with
  | decided _ hnone => cases (h.decisionIn_of_accepted hy).symm.trans hnone

theorem Regular.accepted_of_answered (h : Regular J) (ha : .answered o ∈ J)
    (ho : o.release = some stop) :
    ∃ r d, o = .resumption r d stop ∧ .accepted r (.resume d) stop ∈ J := by
  obtain ⟨before, hmem, -, hx⟩ := h.admits_of_mem ha
  cases hx with
  | answered hx =>
    cases hx with
    | plain _ hnone => cases hnone.symm.trans ho
    | notStopped | refused => cases ho
    | relayed => cases (Outcome.release_relay _ _).symm.trans ho
    | resumed hl =>
      cases ho
      exact ⟨_, _, rfl, hmem _ (mem_of_lastOf hl).1⟩

theorem Regular.decided_of_released (h : Regular J) (hr : .released stop ∈ J) :
    ∃ d, decisionIn J stop = some d := by
  obtain ⟨before, hmem, -, hx⟩ := h.admits_of_mem hr
  cases hx with
  | letGo hl ho =>
    obtain ⟨r, d, -, ha⟩ := h.accepted_of_answered (hmem _ (mem_of_lastOf hl).1) ho
    exact ⟨d, h.decisionIn_of_accepted ha⟩
  | disposed hl =>
    exact Option.isSome_iff_exists.1
      (isSome_decisionIn (hmem _ (mem_of_lastOf hl).1) (by simp [decides?]))

theorem Regular.of_returned (h : Regular (before ++ .returned (some stop) d :: after)) :
    .released stop ∈ before ∧ decisionIn before stop = some d := by
  have hbefore := h.prefix
  generalize hx : Entry.returned (some stop) d = x at h
  cases h.admits with
  | returned _ hr =>
    cases hx
    obtain ⟨d, hd⟩ := hbefore.decided_of_released hr
    exact ⟨hr, by rw [hd, Option.getD_some]⟩
  | _ => cases hx

/-- The session still has to let a stop go that was decided. -/
inductive Owes (stop : Nat) : Entry → Prop
  | accepted (r : Request) (d : Decision) : Owes stop (.accepted r (.resume d) stop)
  | answered {o : Outcome} : o.release = some stop → Owes stop (.answered o)
  | settled : Owes stop (.settled stop)

theorem Unengaged.not_owes (h : Unengaged (some x)) : ¬ Owes stop x := by
  intro ho
  cases ho with
  | accepted | settled => cases h
  | answered ho =>
    cases h with
    | answered hnone => cases hnone.symm.trans ho

theorem Owes.next {y : Entry} (h : Owes stop y) (hl : lastOf .session J = some y)
    (hx : Admits J x) (hside : x.side? = some .session) : x = .released stop ∨ Owes stop x := by
  have hnext := hx.ensues hl (fun hu => hu.not_owes h) hside
  cases h with
  | accepted =>
    cases hnext
    exact .inr (.answered rfl)
  | answered ho =>
    cases hnext with
    | letGo ho' =>
      cases ho.symm.trans ho'
      exact .inl rfl
  | settled =>
    cases hnext
    exact .inl rfl

theorem decides?_eq_some (h : x.decides? stop = some d) :
    (∃ r, x = .accepted r (.resume d) stop) ∨ (x = .settled stop ∧ d = .detach) := by
  unfold decides? at h
  split at h
  · rename_i r _ _
    split at h
    · rename_i hi
      subst hi
      cases h
      exact .inl ⟨r, rfl⟩
    · cases h
  · split at h
    · rename_i hi
      subst hi
      cases h
      exact .inr ⟨rfl, rfl⟩
    · cases h
  · cases h

/-- A decided stop is let go, or the session is about to do so. -/
theorem Regular.released_or_owes (h : Regular J) (hd : decisionIn J stop = some d) :
    .released stop ∈ J ∨ ∃ x, lastOf .session J = some x ∧ Owes stop x := by
  induction h with
  | nil => cases hd
  | @snoc J x h hx ih =>
    rw [decisionIn_append, Option.or_eq_some_iff] at hd
    obtain hd | ⟨-, hd⟩ := hd
    · obtain hr | ⟨y, hl, ho⟩ := ih hd
      · exact .inl (List.mem_append_left _ hr)
      · rw [lastOf_append]
        split
        · obtain rfl | ho := ho.next hl hx ‹_›
          · exact .inl (List.mem_append_right _ (List.mem_singleton_self _))
          · exact .inr ⟨x, rfl, ho⟩
        · exact .inr ⟨y, hl, ho⟩
    · right
      obtain ⟨r, rfl⟩ | ⟨rfl, -⟩ := decides?_eq_some hd
      · exact ⟨_, by simp [side?], .accepted r d⟩
      · exact ⟨_, by simp [side?], .settled⟩

-- ---------------------------------------------------------------------------
-- Requests at stops
-- ---------------------------------------------------------------------------

inductive Fulfils (J : List Entry) (r : Request) (stop : Nat) : Errand → Outcome → Prop
  | resumed (d : Decision) : Fulfils J r stop (.resume d) (.resumption r d stop)
  | relayed {reply : Except AdapterError Json} (q : Question) : replyIn J = some reply →
      Fulfils J r stop (.inspect q) (.relay r reply)

theorem after_accepted (hl : lastOf .session J = some (.accepted r errand stop)) (hx : Admits J x)
    (hside : x.side? = some .session) : ∃ o, x = .answered o ∧ Fulfils J r stop errand o := by
  cases hx.ensues hl nofun hside with
  | resumed => exact ⟨_, rfl, .resumed _⟩
  | relayed hr => exact ⟨_, rfl, .relayed _ hr⟩

theorem Regular.accepted_until_answered (h : Regular (J ++ after))
    (hl : lastOf .session J = some (.accepted r errand stop))
    (hnone : ∀ x ∈ after, x.answer? = none) :
    lastOf .session (J ++ after) = some (.accepted r errand stop) := by
  induction after using List.reverseRecOn with
  | nil => rwa [List.append_nil]
  | append_singleton after x ih =>
    rw [← List.append_assoc] at h ⊢
    have ih := ih h.prefix fun y hy => hnone y (List.mem_append_left _ hy)
    rw [lastOf_append]
    split
    · obtain ⟨o, rfl, -⟩ := after_accepted ih h.admits_last ‹_›
      cases hnone (.answered o) (by simp)
    · exact ih

theorem Regular.last_of_unanswered (h : Regular (before ++ .accepted r errand stop :: after))
    (hnone : ∀ x ∈ after, x.answer? = none) :
    lastOf .session (before ++ .accepted r errand stop :: after) =
      some (.accepted r errand stop) := by
  rw [List.append_cons] at h ⊢
  exact h.accepted_until_answered (lastOf_append_own rfl) hnone

/-- Of an accepted resumption the client learns before the session does anything else. -/
theorem Regular.answered_or_last (h : Regular J) (ha : .accepted r (.resume d) stop ∈ J) :
    .answered (.resumption r d stop) ∈ J ∨
      lastOf .session J = some (.accepted r (.resume d) stop) := by
  induction h with
  | nil => cases ha
  | @snoc J x h hx ih =>
    rcases List.mem_append.1 ha with ha | ha
    · obtain ha | hl := ih ha
      · exact .inl (List.mem_append_left _ ha)
      · rw [lastOf_append]
        split
        · obtain ⟨o, rfl, ho⟩ := after_accepted hl hx ‹_›
          cases ho
          exact .inl (List.mem_append_right _ (List.mem_singleton_self _))
        · exact .inr hl
    · cases List.mem_singleton.1 ha
      exact .inr (by simp [side?])

theorem Regular.freed_le_resumed (h : Regular J) (stop : Nat) :
    J.countP (Entry.frees stop) + ((lastOf .session J).any (Entry.resumes stop)).toNat ≤
      J.countP (Entry.resumes stop) := by
  induction h with
  | nil => exact Nat.le_refl 0
  | @snoc J x h hx ih =>
    rw [List.countP_append, List.countP_append, List.countP_singleton, List.countP_singleton,
      lastOf_append]
    cases hx with
    | reported | installed | turnedAway | announced | served | faulted | returned | sent =>
      simpa [frees, resumes, side?] using ih
    | @decided _ _ place hl =>
      rw [hl] at ih
      cases same : place == stop <;> simpa [frees, resumes, side?, same] using ih
    | @answered o ha =>
      cases ha with
      | @resumed _ _ place hl =>
        rw [hl] at ih
        cases same : place == stop <;>
          simpa [frees, resumes, side?, Outcome.resumption, same] using ih
      | plain _ ho =>
        simp [frees, resumes, side?, ho]
        omega
      | relayed =>
        simp [frees, resumes, side?, Outcome.release_relay]
        omega
      | notStopped | refused =>
        simp [frees, resumes, side?, Outcome.refusal]
        omega
    | found | asked | askedLate | decidedLate | letGo | marked | vacated | settled | disposed
      | closed =>
      simp [frees, resumes, side?]
      omega

/-- How a request at a stop is judged, after what was there when it looked for the stop. -/
inductive Judged (before : List Entry) (r : Request) : Errand → Option Nat → Outcome → Prop
  | notStopped (errand : Errand) : Judged before r errand none (.refusal r .notStopped)
  | alreadyResumed {stop : Nat} (d : Decision) : decisionIn before stop ≠ none →
      Judged before r (.resume d) (some stop) (.refusal r .alreadyResumed)
  | resumed {stop : Nat} (d : Decision) : decisionIn before stop = none →
      Judged before r (.resume d) (some stop) (.resumption r d stop)
  | stopEnded {stop : Nat} (q : Question) : .released stop ∈ before →
      Judged before r (.inspect q) (some stop) (.refusal r .stopEnded)
  | relayed {stop : Nat} (q : Question) (reply : Except AdapterError Json) :
      .released stop ∉ before → Judged before r (.inspect q) (some stop) (.relay r reply)

inductive Granted (before : List Entry) : Errand → Option Nat → Prop
  | asked {stop : Nat} (q : Question) : .released stop ∉ before →
      Granted before (.inspect q) (some stop)
  | decided {stop : Nat} (d : Decision) : decisionIn before stop = none →
      Granted before (.resume d) (some stop)

/-- How far a request has come that looked for a stop. -/
inductive Course (before : List Entry) (r : Request) (errand : Errand) (place : Option Nat)
    (after : List Entry) : Prop
  | looking : (∀ x ∈ after, x.side? ≠ some .session) → Course before r errand place after
  | accepted {stop : Nat} : place = some stop → Granted before errand place →
      lastOf .session after = some (.accepted r errand stop) →
      after.findSome? answer? = none → Course before r errand place after
  | refused {stop : Nat} {e : AdapterError} :
      lastOf .session after = some (.refused r errand stop e) →
      Judged before r errand place (.refusal r e) →
      after.findSome? answer? = none → Course before r errand place after
  | answered {o : Outcome} : after.findSome? answer? = some o →
      Judged before r errand place o → Course before r errand place after

theorem Granted.judged (h : Granted before errand (some stop))
    (ho : Fulfils J r stop errand o) : Judged before r errand (some stop) o := by
  cases h with
  | asked q hr =>
    cases ho
    exact .relayed q _ hr
  | decided d hd =>
    cases ho
    exact .resumed d hd

/-- The session looks once, and what it sees then decides on the answer. -/
theorem Course.append (h : Course before r errand place after)
    (hx : Admits (before ++ .found r errand place :: after) x) :
    Course before r errand place (after ++ [x]) := by
  by_cases hside : x.side? = some .session
  case neg =>
    have hnone := answer?_of_others hside
    have hlast : lastOf .session (after ++ [x]) = lastOf .session after := by simp [hside]
    have hfind : (after ++ [x]).findSome? answer? = after.findSome? answer? := by
      simp [List.findSome?_append, hnone]
    cases h with
    | looking h => exact .looking (by simpa [hside, or_imp, forall_and] using h)
    | accepted hp hg hl ha => exact .accepted hp hg (hlast.trans hl) (hfind.trans ha)
    | refused hl hj ha => exact .refused (hlast.trans hl) hj (hfind.trans ha)
    | answered ha hj => exact .answered (hfind.trans ha) hj
  case pos =>
    have hlast : lastOf .session (after ++ [x]) = some x := by simp [hside]
    have hfind : (after ++ [x]).findSome? answer? = (after.findSome? answer?).or x.answer? := by
      simp [List.findSome?_append]
    cases h with
    | looking h =>
      have hnone : after.findSome? answer? = none :=
        List.findSome?_eq_none_iff.2 fun y hy => answer?_of_others (h y hy)
      have hdecision (stop : Nat) :
          decisionIn (before ++ .found r errand place :: after) stop = decisionIn before stop := by
        rw [List.append_cons, decisionIn_of_others h]
        simp [decides?]
      have hreleased (stop : Nat) : .released stop ∈ before ++ .found r errand place :: after ↔
          .released stop ∈ before := by
        rw [List.append_cons, released_of_others h]
        simp
      cases hx.ensues (lastOf_split rfl h) nofun hside with
      | notStopped => exact .answered (by simp [hfind, hnone, answer?]) (.notStopped errand)
      | asked hr =>
        rw [hreleased] at hr
        exact .accepted rfl (.asked _ hr) hlast (by simp [hfind, hnone, answer?])
      | askedLate hr =>
        rw [hreleased] at hr
        exact .refused hlast (.stopEnded _ hr) (by simp [hfind, hnone, answer?])
      | decided hd =>
        rw [hdecision] at hd
        exact .accepted rfl (.decided _ hd) hlast (by simp [hfind, hnone, answer?])
      | decidedLate hd =>
        rw [hdecision] at hd
        exact .refused hlast (.alreadyResumed _ hd) (by simp [hfind, hnone, answer?])
    | accepted hp hg hl ha =>
      subst hp
      rw [List.append_cons] at hx
      obtain ⟨o, rfl, ho⟩ := after_accepted (lastOf_append_of_some hl) hx hside
      exact .answered (by simp [hfind, ha, answer?]) (hg.judged ho)
    | refused hl hj ha =>
      rw [List.append_cons] at hx
      cases hx.ensues (lastOf_append_of_some hl) nofun hside
      exact .answered (by simp [hfind, ha, answer?]) hj
    | answered ha hj => exact .answered (by simp [hfind, ha]) hj

theorem Regular.course (h : Regular (before ++ .found r errand place :: after)) :
    Course before r errand place after := by
  induction after using List.reverseRecOn with
  | nil => exact .looking fun x hx => absurd hx List.not_mem_nil
  | append_singleton after x ih =>
    rw [← List.cons_append, ← List.append_assoc] at h
    exact (ih h.prefix).append h.admits_last

/-- A session that has nothing else to do looks for a stop, and finds the active one. -/
theorem Regular.of_found (h : Regular (before ++ .found r errand place :: after)) :
    Unengaged (lastOf .session before) ∧ place = activeIn before := by
  generalize hx : Entry.found r errand place = x at h
  cases h.admits with
  | found _ _ hu =>
    cases hx
    exact ⟨hu, rfl⟩
  | _ => cases hx

theorem Regular.judged (h : Regular (before ++ .found r errand place :: after))
    (ho : after.findSome? answer? = some o) : Judged before r errand place o := by
  cases h.course with
  | looking hn =>
    have : after.findSome? answer? = none :=
      List.findSome?_eq_none_iff.2 fun x hx => answer?_of_others (hn x hx)
    cases this.symm.trans ho
  | accepted _ _ _ ha | refused _ _ ha => cases ha.symm.trans ho
  | answered ha hj =>
    cases ha.symm.trans ho
    exact hj

-- ---------------------------------------------------------------------------
-- Replies
-- ---------------------------------------------------------------------------

theorem Regular.reply (h : Regular J) {reply : Except AdapterError Json}
    (hr : replyIn J = some reply) :
    ∃ r q stop, lastOf .session J = some (.accepted r (.inspect q) stop) ∧
      (.served stop q reply ∈ J ∨ .faulted stop q ∈ J ∧ reply = .error .stopEnded) := by
  induction h generalizing reply with
  | nil => cases hr
  | @snoc J x h hx ih =>
    rw [replyIn_append] at hr
    have hold (hr : replyIn J = some reply) (hne : x.answer? = none) :
        ∃ r q stop, lastOf .session (J ++ [x]) = some (.accepted r (.inspect q) stop) ∧
          (.served stop q reply ∈ J ++ [x] ∨
            .faulted stop q ∈ J ++ [x] ∧ reply = .error .stopEnded) := by
      obtain ⟨r, q, stop, hl, hmem⟩ := ih hr
      refine ⟨r, q, stop, ?_,
        hmem.imp (List.mem_append_left _) (And.imp_left (List.mem_append_left _))⟩
      rw [lastOf_append]
      split
      · obtain ⟨o, rfl, -⟩ := after_accepted hl hx ‹_›
        cases hne
      · exact hl
    cases hx with
    | served reply _ hl =>
      cases hr
      exact ⟨_, _, _, by simpa [side?] using hl, .inl (by simp)⟩
    | faulted _ hl =>
      cases hr
      exact ⟨_, _, _, by simpa [side?] using hl, .inr ⟨by simp, rfl⟩⟩
    | answered => cases hr
    | _ => exact hold hr rfl

theorem Regular.announced_of_parks (h : Regular J) (hp : Parks stop (lastOf .thread J)) :
    ∃ body, .announced stop body ∈ J := by
  induction h with
  | nil => cases hp
  | @snoc J x h hx ih =>
    have hold (hp : Parks stop (lastOf .thread J)) : ∃ body, .announced stop body ∈ J ++ [x] := by
      obtain ⟨body, hb⟩ := ih hp
      exact ⟨body, List.mem_append_left _ hb⟩
    rw [lastOf_append] at hp
    cases hx with
    | announced body =>
      cases hp
      exact ⟨body, by simp⟩
    | served _ hl =>
      cases hp
      exact hold hl
    | reported | installed | turnedAway | faulted | returned => cases hp
    | found | asked | askedLate | decided | decidedLate | answered | sent | letGo | marked | vacated
      | settled | disposed | closed => exact hold hp

theorem Regular.announced_of_asked (h : Regular J)
    (hx : (∃ reply, .served stop q reply ∈ J) ∨ .faulted stop q ∈ J) :
    ∃ body, .announced stop body ∈ J := by
  have hof {y : Entry} (hy : y ∈ J)
      (hparks : ∀ before, Admits before y → Parks stop (lastOf .thread before)) :
      ∃ body, .announced stop body ∈ J := by
    obtain ⟨before, hmem, ⟨after, rfl⟩, hadmits⟩ := h.admits_of_mem hy
    obtain ⟨body, hb⟩ := h.prefix.announced_of_parks (hparks before hadmits)
    exact ⟨body, hmem _ hb⟩
  obtain ⟨reply, hx⟩ | hx := hx
  · refine hof hx fun before hadmits => ?_
    cases hadmits with
    | served _ hl => exact hl
  · refine hof hx fun before hadmits => ?_
    cases hadmits with
    | faulted hl => exact hl

-- ---------------------------------------------------------------------------
-- Closing
-- ---------------------------------------------------------------------------

inductive Takes (stop : Nat) : Entry → Prop
  | vacated : Takes stop (.vacated stop)
  | settled : Takes stop (.settled stop)

theorem Takes.next {y : Entry} (h : Takes stop y) (hl : lastOf .session J = some y)
    (hx : Admits J x) (hside : x.side? = some .session) : x = .released stop ∨ Takes stop x := by
  have hnext := hx.ensues hl (fun hu => by cases h <;> cases hu) hside
  cases h with
  | vacated =>
    cases hnext
    exact .inr .settled
  | settled =>
    cases hnext
    exact .inl rfl

/-- A stop keeps its place until it is let go, or the session takes it away to let it go. -/
theorem Regular.released_or_active (h : Regular J) (hi : .installed stop place ∈ J) :
    .released stop ∈ J ∨ activeIn J = some stop ∨
      ∃ x, lastOf .session J = some x ∧ Takes stop x := by
  induction h with
  | nil => cases hi
  | @snoc J x h hx ih =>
    rw [activeIn_append, lastOf_append]
    rcases List.mem_append.1 hi with hi | hi
    · obtain hr | ha | ⟨y, hl, hy⟩ := ih hi
      · exact .inl (List.mem_append_left _ hr)
      · have hplace := h.place_of_active ha
        cases hx with
        | installed hl => cases (placeIn_of_lastOf hl).symm.trans hplace
        | returned hl hr =>
          cases hl.place_eq.symm.trans hplace
          exact .inl (List.mem_append_left _ hr)
        | vacated hl ha' =>
          cases ha.symm.trans ha'
          exact .inr (.inr ⟨_, rfl, .vacated⟩)
        | _ => exact .inr (.inl ha)
      · split
        · obtain rfl | hx := hy.next hl hx ‹_›
          · exact .inl (by simp)
          · exact .inr (.inr ⟨x, rfl, hx⟩)
        · exact .inr (.inr ⟨y, hl, hy⟩)
    · cases List.mem_singleton.1 hi
      exact .inr (.inl rfl)

theorem Regular.not_installed (h : Regular (before ++ after)) (hm : .marked ∈ before) :
    .installed stop place ∉ after := by
  intro hi
  obtain ⟨as, bs, rfl⟩ := List.append_of_mem hi
  rw [← List.append_assoc] at h
  exact h.of_installed.2.2.1 (List.mem_append_left _ hm)

theorem activeIn_eq_none (h : ∀ stop place, .installed stop place ∉ after)
    (ha : activeIn before = none) : activeIn (before ++ after) = none := by
  induction after using List.reverseRecOn with
  | nil => rwa [List.append_nil]
  | append_singleton after x ih =>
    rw [← List.append_assoc, activeIn_append,
      ih fun stop place hx => h stop place (List.mem_append_left _ hx)]
    cases x with
    | installed stop place => exact absurd (by simp) (h stop place)
    | returned stop => cases stop <;> rfl
    | _ => rfl

/-- What closing leaves: no stop is active, and none is held. -/
theorem Regular.of_closed (h : Regular (before ++ .closed :: after)) :
    .marked ∈ before ∧ activeIn (before ++ .closed :: after) = none ∧
      (∀ stop place, .installed stop place ∉ .closed :: after) ∧
      ∀ stop place, .installed stop place ∈ before → .released stop ∈ before := by
  cases h.admits with
  | closed hl hy hm ha =>
    have hnone (stop : Nat) (place : Option Nat) : .installed stop place ∉ .closed :: after :=
      h.not_installed hm
    refine ⟨hm, activeIn_eq_none hnone ha, hnone, fun stop place hi => ?_⟩
    obtain hr | ha' | ⟨x, hl', hx⟩ := h.prefix.released_or_active hi
    · exact hr
    · cases ha.symm.trans ha'
    · cases hl.symm.trans hl'
      obtain rfl | ⟨stop, rfl⟩ := hy <;> cases hx

theorem Regular.admits_next {y : Entry} (h : Regular (before ++ x :: after))
    (hside : x.side? = some .thread) (hy : nextOfThread after = some y) :
    y.side? = some .thread ∧ ∃ as, Admits (before ++ x :: as) y ∧
      lastOf .thread (before ++ x :: as) = some x := by
  obtain ⟨hyside, as, bs, rfl, has⟩ := List.find?_eq_some_iff_append.1 hy
  rw [← List.cons_append, ← List.append_assoc] at h
  exact ⟨by simpa using hyside, as, h.admits,
    lastOf_split hside fun z hz => by simpa using has z hz⟩

theorem Regular.turned_away (h : Regular (before ++ .reported :: after)) (hm : .marked ∈ before)
    (hx : nextOfThread after = some x) : x = .returned none .detach := by
  obtain ⟨hside, as, hadmits, hl⟩ := h.admits_next rfl hx
  cases hadmits with
  | turnedAway => rfl
  | installed _ hm' => exact absurd (List.mem_append_left _ hm) hm'
  | reported hl' | served _ hl' | faulted hl' | returned hl' =>
    rw [hl] at hl'
    cases hl'
  | announced _ hl' => cases hl.symm.trans hl'
  | found | asked | askedLate | decided | decidedLate | answered | sent | letGo | marked | vacated
    | settled | disposed | closed => cases hside

end DebugAdapter.Journal
