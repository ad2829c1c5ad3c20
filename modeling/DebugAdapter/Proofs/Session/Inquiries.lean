import DebugAdapter.Proofs.Session.Decisions

/-!
# Questions at a stop

A question that finds a stop is accepted there, served by the parked thread and answered with the
reply, and only then does the session take up anything else. So as long as a stop lasts, the
questions that the thread serves are those that found the stop, in the same order.
-/

namespace DebugAdapter

open Protocol

-- ---------------------------------------------------------------------------
-- Questions and replies
-- ---------------------------------------------------------------------------

namespace Entry

def inquiry? (stop : Nat) : Entry → Option Question
  | found _ (.inspect q) (some i) => if i = stop then some q else none
  | _ => none

def service? (stop : Nat) : Entry → Option (Question × Except AdapterError Json)
  | served i q reply => if i = stop then some (q, reply) else none
  | _ => none

end Entry

namespace Journal

open Entry

def inquiriesIn (stop : Nat) (J : List Entry) : List Question := J.filterMap (Entry.inquiry? stop)

def servicesIn (stop : Nat) (J : List Entry) : List (Question × Except AdapterError Json) :=
  J.filterMap (Entry.service? stop)

/-- The question that found a stop last, if there is no reply to it yet. -/
def waitingIn (stop : Nat) (J : List Entry) : List Question :=
  match lastOf .session J with
  | some (.found _ (.inspect q) (some i)) => if i = stop then [q] else []
  | some (.accepted _ (.inspect q) i) => if i = stop ∧ (replyIn J).isNone then [q] else []
  | _ => []

/-- Nobody has decided how a stop ends: no request to resume was accepted there, and the session did
not close. -/
structure Lasts (stop : Nat) (J : List Entry) : Prop where
  unresumed : ∀ r d, .accepted r (.resume d) stop ∉ J
  unmarked : .marked ∉ J

variable {J before after mid : List Entry} {x : Entry} {stop : Nat} {place : Option Nat}
  {r : Request} {q : Question} {errand : Errand} {o : Outcome} {reply : Except AdapterError Json}

@[simp] theorem inquiriesIn_nil : inquiriesIn stop [] = [] := rfl

@[simp] theorem servicesIn_nil : servicesIn stop [] = [] := rfl

@[simp] theorem inquiriesIn_append :
    inquiriesIn stop (before ++ after) = inquiriesIn stop before ++ inquiriesIn stop after :=
  List.filterMap_append

@[simp] theorem servicesIn_append :
    servicesIn stop (before ++ after) = servicesIn stop before ++ servicesIn stop after :=
  List.filterMap_append

@[simp] theorem inquiriesIn_singleton : inquiriesIn stop [x] = (x.inquiry? stop).toList := by
  cases hx : x.inquiry? stop <;> simp [inquiriesIn, hx]

@[simp] theorem servicesIn_singleton : servicesIn stop [x] = (x.service? stop).toList := by
  cases hx : x.service? stop <;> simp [servicesIn, hx]

theorem Unengaged.waitingIn (h : Unengaged (lastOf .session J)) : waitingIn stop J = [] := by
  unfold Journal.waitingIn
  generalize lastOf .session J = last at h
  cases h <;> rfl

theorem length_waitingIn_le : (waitingIn stop J).length ≤ 1 := by
  unfold waitingIn
  split
  · split <;> simp
  · split <;> simp
  · simp

theorem waitingIn_append_other (hside : x.side? ≠ some .session)
    (hreply : x.replyAfter (replyIn J) = replyIn J) :
    waitingIn stop (J ++ [x]) = waitingIn stop J := by
  rw [waitingIn, lastOf_append, if_neg hside, replyIn_append, hreply, waitingIn]

/-- The questions that found a stop which was not let go were served in that order, but for one that
waits. -/
theorem Regular.inquiries (h : Regular J) (hr : .released stop ∉ J)
    (hf : ∀ q, .faulted stop q ∉ J) :
    inquiriesIn stop J = (servicesIn stop J).map Prod.fst ++ waitingIn stop J := by
  induction h with
  | nil => rfl
  | @snoc J x h hx ih =>
    have ih := ih (fun hmem => hr (List.mem_append_left _ hmem))
      fun q hmem => hf q (List.mem_append_left _ hmem)
    rw [inquiriesIn_append, servicesIn_append, List.map_append, ih, List.append_assoc,
      List.append_assoc]
    congr 1
    -- what remains is about the one entry and the question that waited before it
    cases hx with
    | reported | installed | turnedAway | announced | returned | sent =>
      rw [waitingIn_append_other (by simp [side?]) rfl]
      exact List.append_nil _
    | @served r q i reply _ hl hnone =>
      have hw : waitingIn stop (J ++ [.served i q reply]) = [] := by
        simp [waitingIn, side?, hl, replyAfter]
      have hbefore : waitingIn stop J = if i = stop then [q] else [] := by
        simp [waitingIn, hl, hnone]
      rw [hw, hbefore]
      by_cases hi : i = stop <;> simp [inquiry?, service?, hi]
    | @faulted r q i _ hl hnone =>
      have hi : i ≠ stop := by
        rintro rfl
        exact hf q (by simp)
      simp [waitingIn, side?, hl, hi, inquiry?, service?]
    | found r errand hu =>
      rw [hu.waitingIn]
      cases errand with
      | resume d => simp [waitingIn, side?, inquiry?, service?]
      | inspect q =>
        cases activeIn J with
        | none => simp [waitingIn, side?, inquiry?, service?]
        | some i =>
          by_cases hi : i = stop <;>
            simp [waitingIn, side?, inquiry?, service?, hi]
    | @asked r q i hl =>
      have hnone : replyIn J = none := by
        cases hreply : replyIn J with
        | none => rfl
        | some reply =>
          obtain ⟨_, _, _, hl', -⟩ := h.reply hreply
          cases hl.symm.trans hl'
      simp [waitingIn, side?, hl, hnone, replyAfter, inquiry?, service?]
    | @askedLate r q i hl hreleased =>
      have hi : i ≠ stop := by
        rintro rfl
        exact hr (List.mem_append_left _ hreleased)
      simp [waitingIn, side?, hl, hi, inquiry?, service?]
    | decided hl | decidedLate hl | letGo hl | vacated hl | settled hl | disposed hl =>
      simp [waitingIn, side?, hl, inquiry?, service?]
    | marked hu =>
      rw [hu.waitingIn]
      simp [waitingIn, side?, inquiry?, service?]
    | closed hl hy =>
      obtain rfl | ⟨i, rfl⟩ := hy <;>
        simp [waitingIn, side?, hl, inquiry?, service?]
    | answered ha =>
      have hw : waitingIn stop J = [] := by
        cases ha with
        | plain hu => exact hu.waitingIn
        | notStopped hl | refused hl | resumed hl => simp [waitingIn, hl]
        | relayed hl hreply => simp [waitingIn, hl, hreply]
      rw [hw]
      simp [waitingIn, side?, inquiry?, service?]

theorem Regular.last_service (h : Regular J) (hf : ∀ q, .faulted stop q ∉ J)
    (hl : lastOf .session J = some (.accepted r (.inspect q) stop))
    (hreply : replyIn J = some reply) : ∃ earlier, servicesIn stop J = earlier ++ [(q, reply)] := by
  induction h generalizing reply with
  | nil => cases hl
  | @snoc J x h hx ih =>
    have hf' : ∀ q, .faulted stop q ∉ J := fun q hmem => hf q (List.mem_append_left _ hmem)
    rw [lastOf_append] at hl
    rw [replyIn_append] at hreply
    have hold (hside : x.side? ≠ some .session) (hkeep : x.replyAfter (replyIn J) = replyIn J)
        (hno : x.service? stop = none) :
        ∃ earlier, servicesIn stop (J ++ [x]) = earlier ++ [(q, reply)] := by
      rw [if_neg hside] at hl
      obtain ⟨earlier, he⟩ := ih hf' hl (hkeep.symm.trans hreply)
      exact ⟨earlier, by simp [he, hno]⟩
    cases hx with
    | served reply' _ hl' =>
      cases hreply
      cases hl'.symm.trans hl
      exact ⟨servicesIn stop J, by simp [service?]⟩
    | faulted _ hl' =>
      cases hl'.symm.trans hl
      exact absurd (List.mem_append_right _ (List.mem_singleton_self _)) (hf q)
    | reported | installed | turnedAway | announced | returned | sent =>
      exact hold (by simp [side?]) rfl rfl
    | asked hl' =>
      obtain ⟨_, _, _, hl'', -⟩ := h.reply hreply
      cases hl'.symm.trans hl''
    | answered => cases hreply
    | found | askedLate | decided | decidedLate | letGo | marked | vacated | settled | disposed
      | closed => cases hl

-- ---------------------------------------------------------------------------
-- Until the answer
-- ---------------------------------------------------------------------------

/-- A question that found a stop which was not let go is accepted there, and that is all that the
session does until it answers. -/
theorem Regular.until_answered
    (h : Regular (before ++ .found r (.inspect q) (some stop) :: mid))
    (hr : .released stop ∉ before) (hnone : ∀ x ∈ mid, x.answer? = none) :
    (∀ x ∈ mid, x.side? = some .session → x = .accepted r (.inspect q) stop) ∧
      (lastOf .session (before ++ .found r (.inspect q) (some stop) :: mid) =
          some (.found r (.inspect q) (some stop)) ∨
        lastOf .session (before ++ .found r (.inspect q) (some stop) :: mid) =
          some (.accepted r (.inspect q) stop)) := by
  induction mid using List.reverseRecOn with
  | nil => exact ⟨fun x hx => absurd hx List.not_mem_nil, .inl (lastOf_append_own rfl)⟩
  | append_singleton mid x ih =>
    rw [← List.cons_append, ← List.append_assoc] at h ⊢
    obtain ⟨hall, hlast⟩ := ih h.prefix fun y hy => hnone y (List.mem_append_left _ hy)
    have hx := h.admits_last
    by_cases hside : x.side? = some .session
    case neg =>
      rw [lastOf_append, if_neg hside]
      refine ⟨fun y hy hyside => ?_, hlast⟩
      obtain hy | hy := List.mem_append.1 hy
      · exact hall y hy hyside
      · rw [List.mem_singleton.1 hy] at hyside
        exact absurd hyside hside
    case pos =>
      have hxeq : x = .accepted r (.inspect q) stop := by
        obtain hl | hl := hlast
        · cases hx.ensues hl nofun hside with
          | asked => rfl
          | askedLate hreleased =>
            obtain hmem | hmem := List.mem_append.1 hreleased
            · exact absurd hmem hr
            · obtain hmem | hmem := List.mem_cons.1 hmem
              · cases hmem
              · cases hall _ hmem rfl
        · obtain ⟨o, rfl, -⟩ := after_accepted hl hx hside
          cases hnone (.answered o) (by simp)
      subst hxeq
      refine ⟨fun y hy hyside => ?_, .inr (lastOf_append_own rfl)⟩
      obtain hy | hy := List.mem_append.1 hy
      · exact hall y hy hyside
      · exact List.mem_singleton.1 hy

theorem Regular.replied
    (h : Regular (before ++ .found r (.inspect q) (some stop) :: mid ++ .answered o :: after))
    (hr : .released stop ∉ before)
    (hf : ∀ q', .faulted stop q' ∉ before ++ .found r (.inspect q) (some stop) :: mid)
    (hnone : ∀ x ∈ mid, x.answer? = none) :
    ∃ reply, o = .relay r reply ∧
      servicesIn stop (before ++ .found r (.inspect q) (some stop) :: mid) =
        servicesIn stop before ++ [(q, reply)] ∧
      (servicesIn stop before).map Prod.fst = inquiriesIn stop before := by
  have hmid := h.prefix
  have hbefore := hmid.prefix
  obtain ⟨hall, hlast⟩ := hmid.until_answered hr hnone
  obtain ⟨hl, reply, rfl, hreply⟩ :
      lastOf .session (before ++ .found r (.inspect q) (some stop) :: mid) =
          some (.accepted r (.inspect q) stop) ∧
        ∃ reply, o = .relay r reply ∧
          replyIn (before ++ .found r (.inspect q) (some stop) :: mid) = some reply := by
    obtain hl | hl := hlast
    · cases h.admits.ensues hl nofun rfl
    · obtain ⟨o', ⟨⟩, ho⟩ := after_accepted hl h.admits rfl
      cases ho with
      | relayed _ hreply => exact ⟨hl, _, rfl, hreply⟩
  have hreleased : .released stop ∉ before ++ .found r (.inspect q) (some stop) :: mid := by
    intro hmem
    obtain hmem | hmem := List.mem_append.1 hmem
    · exact hr hmem
    · obtain hmem | hmem := List.mem_cons.1 hmem
      · cases hmem
      · cases hall _ hmem rfl
  have hfirst : inquiriesIn stop before = (servicesIn stop before).map Prod.fst := by
    rw [hbefore.inquiries hr fun q' hmem => hf q' (List.mem_append_left _ hmem),
      hmid.of_found.1.waitingIn, List.append_nil]
  have hquiet : inquiriesIn stop mid = [] := by
    refine List.filterMap_eq_nil_iff.2 fun x hx => ?_
    cases hside : x.side? with
    | none => cases x <;> first | rfl | cases hside
    | some side =>
      cases side with
      | thread => cases x <;> first | rfl | cases hside
      | session =>
        rw [hall x hx hside]
        rfl
  obtain ⟨earlier, hearlier⟩ := hmid.last_service hf hl hreply
  -- the two lists of questions are the same, so there is one reply more than before
  have hsame := hmid.inquiries hreleased hf
  have hwait : waitingIn stop (before ++ .found r (.inspect q) (some stop) :: mid) = [] := by
    simp [waitingIn, hl, hreply]
  have hfound : inquiriesIn stop (Entry.found r (.inspect q) (some stop) :: mid) = [q] := by
    rw [← List.singleton_append, inquiriesIn_append, hquiet]
    simp [inquiry?]
  rw [hwait, List.append_nil, inquiriesIn_append, hfound, hfirst, servicesIn_append,
    List.map_append, List.append_cancel_left_eq] at hsame
  refine ⟨reply, rfl, ?_, hfirst.symm⟩
  rw [servicesIn_append] at hearlier ⊢
  congr 1
  generalize servicesIn stop (Entry.found r (.inspect q) (some stop) :: mid) = more
    at hsame hearlier
  obtain ⟨service, rfl, -⟩ := List.map_eq_singleton_iff.1 hsame.symm
  exact (List.append_inj' hearlier rfl).2

theorem Regular.unserved (h : Regular (before ++ .found r errand none :: mid))
    (hnone : ∀ x ∈ mid, x.answer? = none) :
    ∀ x ∈ mid, x.side? ≠ some .session ∧ (∀ i q reply, x ≠ .served i q reply) ∧
      ∀ i q, x ≠ .faulted i q := by
  induction mid using List.reverseRecOn with
  | nil => exact fun x hx => absurd hx List.not_mem_nil
  | append_singleton mid x ih =>
    rw [← List.cons_append, ← List.append_assoc] at h
    have ih := ih h.prefix fun y hy => hnone y (List.mem_append_left _ hy)
    have hl : lastOf .session (before ++ .found r errand none :: mid) =
        some (.found r errand none) := lastOf_split rfl fun y hy => (ih y hy).1
    have hx := h.admits_last
    intro y hy
    obtain hy | hy := List.mem_append.1 hy
    · exact ih y hy
    · rw [List.mem_singleton.1 hy]
      refine ⟨fun hside => ?_, ?_, ?_⟩
      · cases hx.ensues hl nofun hside
        cases hnone _ (List.mem_append_right _ (List.mem_singleton_self _))
      · rintro i q reply rfl
        cases hx with
        | served _ _ hl' => cases hl.symm.trans hl'
      · rintro i q rfl
        cases hx with
        | faulted _ hl' => cases hl.symm.trans hl'

-- ---------------------------------------------------------------------------
-- As long as a stop lasts
-- ---------------------------------------------------------------------------

theorem Regular.marked_of_vacated (h : Regular J) (hv : .vacated stop ∈ J) : .marked ∈ J := by
  obtain ⟨before, hmem, -, hx⟩ := h.admits_of_mem hv
  cases hx with
  | vacated hl => exact hmem _ (mem_of_lastOf hl).1

theorem Regular.marked_of_settled (h : Regular J) (hs : .settled stop ∈ J) : .marked ∈ J := by
  obtain ⟨before, hmem, -, hx⟩ := h.admits_of_mem hs
  cases hx with
  | settled hl => exact h.marked_of_vacated (hmem _ (mem_of_lastOf hl).1)

theorem Regular.stop?_ne (h : Regular (before ++ .installed stop place :: after))
    (hx : x ∈ before) : x.stop? ≠ some stop := by
  intro hs
  have hlt := h.prefix.lt_stopsIn hx hs
  rw [h.of_installed.2.1] at hlt
  exact Nat.lt_irrefl _ hlt

theorem Regular.quiet (h : Regular (before ++ [Entry.installed stop place])) :
    inquiriesIn stop (before ++ [Entry.installed stop place]) = [] ∧
      servicesIn stop (before ++ [Entry.installed stop place]) = [] := by
  rw [inquiriesIn_append, servicesIn_append, inquiriesIn_singleton, servicesIn_singleton,
    inquiriesIn, servicesIn]
  constructor
  · refine List.append_eq_nil_iff.2 ⟨List.filterMap_eq_nil_iff.2 fun x hx => ?_, rfl⟩
    have hne := h.stop?_ne hx
    unfold inquiry?
    split
    · exact if_neg fun hi => hne (congrArg some hi)
    · rfl
  · refine List.append_eq_nil_iff.2 ⟨List.filterMap_eq_nil_iff.2 fun x hx => ?_, rfl⟩
    have hne := h.stop?_ne hx
    unfold service?
    split
    · exact if_neg fun hi => hne (congrArg some hi)
    · rfl

theorem Regular.lasts (h : Regular (before ++ .installed stop place :: after))
    (hl : Lasts stop after) : Lasts stop (before ++ .installed stop place :: after) := by
  obtain ⟨-, -, hm, -⟩ := h.of_installed
  constructor
  · intro r d hmem
    obtain hmem | hmem := List.mem_append.1 hmem
    · exact h.stop?_ne hmem rfl
    · obtain hmem | hmem := List.mem_cons.1 hmem
      · cases hmem
      · exact hl.unresumed r d hmem
  · intro hmem
    obtain hmem | hmem := List.mem_append.1 hmem
    · exact hm hmem
    · obtain hmem | hmem := List.mem_cons.1 hmem
      · cases hmem
      · exact hl.unmarked hmem

theorem Regular.not_released_of_lasts (h : Regular J) (hl : Lasts stop J) : .released stop ∉ J := by
  intro hr
  obtain ⟨d, hd⟩ := h.decided_of_released hr
  obtain ⟨r, ha⟩ | ⟨-, hs, -⟩ := h.source_of_decision hd
  · exact hl.unresumed r d ha
  · exact hl.unmarked (h.marked_of_settled hs)

theorem Regular.active_of_lasts (h : Regular J) (hi : .installed stop place ∈ J)
    (hl : Lasts stop J) : activeIn J = some stop := by
  obtain hr | ha | ⟨x, hlast, hx⟩ := h.released_or_active hi
  · exact absurd hr (h.not_released_of_lasts hl)
  · exact ha
  · have hmem := (mem_of_lastOf hlast).1
    cases hx with
    | vacated => exact absurd (h.marked_of_vacated hmem) hl.unmarked
    | settled => exact absurd (h.marked_of_settled hmem) hl.unmarked

end Journal

end DebugAdapter
