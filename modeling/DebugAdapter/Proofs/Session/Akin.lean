import DebugAdapter.Proofs.Packet.Content
import DebugAdapter.Proofs.Session.Service

/-!
# Streams that ask for the same

Two streams are akin if they hold the same requests and come to the same end. A service on one of
them is matched step by step by the same service on the other (`Alike.step`), which may first have
to pass over what is no request (`works_to_next`). So a service can show on one what it can show on
the other, and nothing else: `shows_of_akin` and `settles_of_akin`.
-/

namespace DebugAdapter

open Protocol

variable {σ τ : Type} {host : Host σ τ}

namespace Packet.Reader

structure Akin (r r' : Reader) : Prop where
  requests : r.requests = r'.requests
  ending : r.ending = r'.ending

theorem Akin.refl (r : Reader) : r.Akin r := ⟨rfl, rfl⟩

theorem Akin.symm {r r' : Reader} (h : r.Akin r') : r'.Akin r := ⟨h.requests.symm, h.ending.symm⟩

theorem Akin.trans {r r' r'' : Reader} (h : r.Akin r') (h' : r'.Akin r'') : r.Akin r'' :=
  ⟨h.requests.trans h'.requests, h.ending.trans h'.ending⟩

theorem akin_of_content {r r' : Reader} (h : r.content = r'.content) : r.Akin r' :=
  ⟨congrArg (List.filterMap System.requestOf?) (messages_of_content h), ending_of_content h⟩

section

variable {r after : Reader} {message : Json} {found : Read Json}

theorem requests_of_request {q : Request} (h : r.readMessage = (.item message, after))
    (hq : System.requestOf? message = some q) : r.requests = q :: after.requests := by
  rw [requests, messages.eq_def, h]
  exact List.filterMap_cons_some hq

theorem requests_of_junk (h : r.readMessage = (.item message, after))
    (hq : System.requestOf? message = none) : r.requests = after.requests := by
  rw [requests, messages.eq_def, h]
  exact List.filterMap_cons_none hq

theorem requests_of_last (h : r.readMessage = (found, after)) (hi : ∀ j, found ≠ .item j) :
    r.requests = [] := by
  rw [requests, messages.eq_def, h]
  cases found with
  | item j => exact absurd rfl (hi j)
  | malformed | failed | ended | blocked => rfl

theorem ending_of_message (h : r.readMessage = (.item message, after)) :
    r.ending = after.ending := by
  rw [ending.eq_def, h]

theorem ending_of_last (h : r.readMessage = (found, after)) (hi : ∀ j, found ≠ .item j) :
    r.ending = found := by
  rw [ending.eq_def, h]
  cases found with
  | item j => exact absurd rfl (hi j)
  | malformed | failed | ended | blocked => rfl

end

end Packet.Reader

namespace Service

variable {s s' t : Service σ τ}

-- ---------------------------------------------------------------------------
-- Passing over
-- ---------------------------------------------------------------------------

/-- The next read gives no message that is not a request. -/
def AtNext (r : Packet.Reader) : Prop :=
  ∀ message after, r.readMessage = (.item message, after) → System.requestOf? message ≠ none

/-- What is no request can be passed over, and nothing but the reader changes. -/
theorem works_to_next (host : Host σ τ) (hl : s.sys.Looks) (r : Packet.Reader) :
    ∃ next, Works host (s.withReader r) (s.withReader next) ∧ r.Akin next ∧ AtNext next := by
  induction hn : r.size using Nat.strongRecOn generalizing r with
  | ind n ih =>
    by_cases h : AtNext r
    · exact ⟨r, .refl, .refl r, h⟩
    · simp only [AtNext, not_forall, not_not] at h
      obtain ⟨message, after, hread, hr⟩ := h
      have hlt := Packet.Reader.size_of_readMessage hread
      obtain ⟨next, hworks, hakin, hnext⟩ := ih after.size (hn ▸ hlt) after rfl
      have hl' : (s.withReader r).sys.Looks := hl
      have hstep : (s.withReader r).step host (.side .session) = some (s.withReader after) :=
        step_of_junk hl' hread hr
      exact ⟨next, .head ⟨_, hstep⟩ hworks,
        .trans ⟨Packet.Reader.requests_of_junk hread hr, Packet.Reader.ending_of_message hread⟩
          hakin, hnext⟩

theorem read_of_atNext_cons {r : Packet.Reader} (h : AtNext r) {q : Request} {rest : List Request}
    (hr : r.requests = q :: rest) :
    ∃ message after, r.readMessage = (.item message, after) ∧
      System.requestOf? message = some q ∧ after.requests = rest ∧ after.ending = r.ending := by
  cases finds r with
  | request hread hq =>
    rw [Packet.Reader.requests_of_request hread hq, List.cons.injEq] at hr
    obtain ⟨rfl, rfl⟩ := hr
    exact ⟨_, _, hread, hq, rfl, (Packet.Reader.ending_of_message hread).symm⟩
  | junk hread hq => exact absurd hq (h _ _ hread)
  | last hread hend =>
    rw [Packet.Reader.requests_of_last hread (ne_item_of_end hend)] at hr
    cases hr
  | blocked hread =>
    rw [Packet.Reader.requests_of_last hread nofun] at hr
    cases hr

theorem read_of_atNext_nil {r : Packet.Reader} (h : AtNext r) (hr : r.requests = []) :
    ∃ after, r.readMessage = (r.ending, after) := by
  cases finds r with
  | request hread hq =>
    rw [Packet.Reader.requests_of_request hread hq] at hr
    cases hr
  | junk hread hq => exact absurd hq (h _ _ hread)
  | last hread hend =>
    rw [Packet.Reader.ending_of_last hread (ne_item_of_end hend)]
    exact ⟨_, hread⟩
  | blocked hread =>
    rw [Packet.Reader.ending_of_last hread nofun]
    exact ⟨_, hread⟩

-- ---------------------------------------------------------------------------
-- Step by step
-- ---------------------------------------------------------------------------

/-- How the session ends is settled, and nothing is read any more. -/
def Settled (s : Service σ τ) : Prop := s.sys.session.phase.result?.isSome = true

theorem Settled.not_looks (h : s.Settled) : ¬ s.sys.Looks := by
  rintro ⟨hp, -⟩
  rw [Settled, hp] at h
  cases h

theorem Settled.step (h : s.Settled) {agent : Agent} (hstep : s.step host agent = some s') :
    s'.Settled := by
  match agent with
  | .side .session =>
    obtain ⟨sys, hsys, rfl⟩ := Option.map_eq_some_iff.1 hstep
    obtain ⟨hsame, -⟩ | ⟨hp, -⟩ | ⟨result, hp, -⟩ := (System.sessionStep_of_step hsys).result?
    · rw [Settled, hsame]
      exact h
    · rw [Settled, hp] at h
      cases h
    · rw [Settled, hp] at h
      cases h
  | .side .thread =>
    obtain ⟨sys, hsys, rfl⟩ := Option.map_eq_some_iff.1 hstep
    rw [Settled, (System.threadStep_of_step hsys).outside.1]
    exact h
  | .writer =>
    simp only [Service.step] at hstep
    split at hstep
    · obtain ⟨m, -, rfl⟩ := Option.map_eq_some_iff.1 hstep
      exact h
    · cases hstep

def Alike (s t : Service σ τ) : Prop :=
  ∃ r, t = s.withReader r ∧ (s.reader.Akin r ∨ s.Settled)

theorem alike_of_akin {r r' : Packet.Reader} (h : r.Akin r') :
    Alike (s.withReader r) (s.withReader r') := ⟨r', rfl, .inl h⟩

/-- One step on one stream is some steps on the other. -/
theorem Alike.step (h : Alike s t) {agent : Agent} (hstep : s.step host agent = some s') :
    ∃ t', Works host t t' ∧ Alike s' t' := by
  obtain ⟨r, rfl, h⟩ := h
  by_cases hreads : s.Reads agent
  · obtain ⟨rfl, hl⟩ := hreads
    have hakin : s.reader.Akin r := h.resolve_right fun hs => hs.not_looks hl
    obtain ⟨next, hworks, hnext, hat⟩ := works_to_next host hl r
    have hakin := hakin.trans hnext
    have hl' : (s.withReader next).sys.Looks := hl
    cases finds s.reader with
    | request hread hr =>
      cases (step_of_request hl hread hr).symm.trans hstep
      obtain ⟨message, after, hread', hr', hrest, hend⟩ := read_of_atNext_cons hat
        (hakin.requests.symm.trans (Packet.Reader.requests_of_request hread hr))
      refine ⟨_, hworks.tail ⟨_, step_of_request hl' hread' hr'⟩, after, rfl, .inl ⟨hrest.symm, ?_⟩⟩
      rw [hend, ← hakin.ending]
      exact (Packet.Reader.ending_of_message hread).symm
    | junk hread hr =>
      cases (step_of_junk hl hread hr).symm.trans hstep
      exact ⟨_, hworks, next, rfl, .inl (.trans
        ⟨(Packet.Reader.requests_of_junk hread hr).symm,
          (Packet.Reader.ending_of_message hread).symm⟩ hakin)⟩
    | last hread hend =>
      cases (step_of_end hl hread hend).symm.trans hstep
      have hi := ne_item_of_end hend
      obtain ⟨after, hread'⟩ := read_of_atNext_nil hat
        (hakin.requests.symm.trans (Packet.Reader.requests_of_last hread hi))
      rw [← hakin.ending, Packet.Reader.ending_of_last hread hi] at hread'
      exact ⟨_, hworks.tail ⟨_, step_of_end hl' hread' hend⟩, after, rfl, .inr rfl⟩
    | blocked hread => cases (step_of_blocked hl hread).symm.trans hstep
  · have hstep' : (s.withReader r).step host agent = some (s'.withReader r) := by
      rw [step_withReader hreads, hstep]
      rfl
    refine ⟨_, .single hstep', r, rfl, h.imp (fun hakin => ?_) fun hs => hs.step hstep⟩
    rw [reader_of_step hreads hstep]
    exact hakin

theorem Alike.works (h : Alike s t) (hworks : Works host s s') :
    ∃ t', Works host t t' ∧ Alike s' t' := by
  induction hworks with
  | refl => exact ⟨t, .refl, h⟩
  | tail _ hstep ih =>
    obtain ⟨t', hworks, halike⟩ := ih
    obtain ⟨agent, hstep⟩ := hstep
    obtain ⟨t'', hmore, halike⟩ := halike.step hstep
    exact ⟨t'', hworks.trans hmore, halike⟩

theorem Alike.rest (h : Alike s t) (hrest : s.Resting host) :
    ∃ t', Works host t t' ∧ Alike s t' ∧ t'.Resting host := by
  obtain ⟨r, rfl, h⟩ := h
  by_cases hl : s.sys.Looks
  · obtain ⟨next, hworks, hnext, hat⟩ := works_to_next host hl r
    have hakin := (h.resolve_right fun hs => hs.not_looks hl).trans hnext
    refine ⟨s.withReader next, hworks, ⟨next, rfl, .inl hakin⟩, fun agent => ?_⟩
    by_cases hreads : s.Reads agent
    · obtain ⟨rfl, -⟩ := hreads
      -- Only a read that blocks is no step.
      obtain ⟨after, hblocked⟩ : ∃ after, s.reader.readMessage = (.blocked, after) := by
        have hstep := hrest (.side .session)
        cases finds s.reader with
        | request hread hr => cases (step_of_request hl hread hr).symm.trans hstep
        | junk hread hr => cases (step_of_junk hl hread hr).symm.trans hstep
        | last hread hend => cases (step_of_end hl hread hend).symm.trans hstep
        | blocked hread => exact ⟨_, hread⟩
      obtain ⟨after', hread⟩ := read_of_atNext_nil hat
        (hakin.requests.symm.trans (Packet.Reader.requests_of_last hblocked nofun))
      rw [← hakin.ending, Packet.Reader.ending_of_last hblocked nofun] at hread
      exact step_of_blocked hl hread
    · rw [step_withReader hreads, hrest agent]
      rfl
  · refine ⟨s.withReader r, .refl, ⟨r, rfl, h⟩, fun agent => ?_⟩
    rw [step_withReader (fun hreads => hl hreads.2), hrest agent]
    rfl

-- ---------------------------------------------------------------------------
-- What a service can show
-- ---------------------------------------------------------------------------

/-- All of a service except what is still to be read. -/
def view (s : Service σ τ) : Service σ τ := s.withReader {}

theorem Alike.view_eq (h : Alike s t) : t.view = s.view := by
  obtain ⟨r, rfl, -⟩ := h
  rfl

/-- The stream can be delivered such that the service gets where `P` holds. -/
def Reaches (host : Host σ τ) (s : Service σ τ) (arrivals : List Packet.Arrival) (ended : Bool)
    (P : Service σ τ → Prop) : Prop :=
  ∃ acts, Act.Deliver acts arrivals ended ∧ P (s.run host acts)

/-- A service can look like this when the stream has been delivered. -/
def Shows (host : Host σ τ) (s : Service σ τ) (arrivals : List Packet.Arrival) (ended : Bool)
    (v : Service σ τ) : Prop :=
  s.Reaches host arrivals ended fun s' => s'.view = v

/-- A service can come to rest and look like this then. -/
def Settles (host : Host σ τ) (s : Service σ τ) (arrivals : List Packet.Arrival) (ended : Bool)
    (v : Service σ τ) : Prop :=
  s.Reaches host arrivals ended fun s' => s'.Resting host ∧ s'.view = v

section

variable {arrivals arrivals' : List Packet.Arrival} {ended ended' : Bool}

theorem run_delivery (hs : s.reader = {}) :
    s.run host (Act.delivery arrivals ended) =
      s.withReader { arrivals := arrivals, ended := ended } := by
  cases ended with
  | false =>
    change s.withReader (s.reader.later arrivals false) = _
    rw [hs]
    rfl
  | true =>
    change s.withReader (s.reader.later arrivals false).finish = _
    rw [hs]
    rfl

theorem reaches_iff (hs : s.reader = {}) {P : Service σ τ → Prop} :
    s.Reaches host arrivals ended P ↔
      ∃ s', Works host (s.withReader { arrivals := arrivals, ended := ended }) s' ∧ P s' := by
  constructor
  · rintro ⟨acts, hdeliver, hP⟩
    have hworks := works_of_run host acts s
    rw [hs, hdeliver] at hworks
    exact ⟨_, hworks, hP⟩
  · rintro ⟨s', hworks, hP⟩
    obtain ⟨agents, rfl⟩ := run_of_works hworks
    refine ⟨Act.delivery arrivals ended ++ agents.map .step,
      Act.deliver_delivery_steps _ _ agents, ?_⟩
    rw [run_append, run_delivery hs]
    exact hP

theorem shows_of_works (hs : s.reader = {}) {r : Packet.Reader}
    (h : r.Akin { arrivals := arrivals, ended := ended })
    (hworks : Works host (s.withReader r) t) : s.Shows host arrivals ended t.view := by
  obtain ⟨t', hworks', halike⟩ := (alike_of_akin h).works hworks
  exact (reaches_iff hs).2 ⟨t', hworks', halike.view_eq⟩

theorem settles_of_works (hs : s.reader = {}) {r : Packet.Reader}
    (h : r.Akin { arrivals := arrivals, ended := ended })
    (hworks : Works host (s.withReader r) t) (hrest : t.Resting host) :
    s.Settles host arrivals ended t.view := by
  obtain ⟨t', hworks', halike⟩ := (alike_of_akin h).works hworks
  obtain ⟨t'', hmore, halike, hrest⟩ := halike.rest hrest
  exact (reaches_iff hs).2 ⟨t'', hworks'.trans hmore, hrest, halike.view_eq⟩

theorem works_of_shows (hs : s.reader = {}) {r : Packet.Reader}
    (h : Packet.Reader.Akin { arrivals := arrivals, ended := ended } r) {v : Service σ τ}
    (hv : s.Shows host arrivals ended v) : ∃ t, Works host (s.withReader r) t ∧ t.view = v := by
  obtain ⟨s', hworks, rfl⟩ := (reaches_iff hs).1 hv
  obtain ⟨t, hworks', halike⟩ := (alike_of_akin h).works hworks
  exact ⟨t, hworks', halike.view_eq⟩

theorem works_of_settles (hs : s.reader = {}) {r : Packet.Reader}
    (h : Packet.Reader.Akin { arrivals := arrivals, ended := ended } r) {v : Service σ τ}
    (hv : s.Settles host arrivals ended v) :
    ∃ t, Works host (s.withReader r) t ∧ t.Resting host ∧ t.view = v := by
  obtain ⟨s', hworks, hrest, rfl⟩ := (reaches_iff hs).1 hv
  obtain ⟨t, hworks', halike⟩ := (alike_of_akin h).works hworks
  obtain ⟨t', hmore, halike, hrest⟩ := halike.rest hrest
  exact ⟨t', hworks'.trans hmore, hrest, halike.view_eq⟩

theorem shows_of_akin (hs : s.reader = {})
    (h : Packet.Reader.Akin { arrivals := arrivals, ended := ended }
      { arrivals := arrivals', ended := ended' }) {v : Service σ τ}
    (hv : s.Shows host arrivals ended v) : s.Shows host arrivals' ended' v := by
  obtain ⟨t, hworks, rfl⟩ := works_of_shows hs h hv
  exact (reaches_iff hs).2 ⟨t, hworks, rfl⟩

theorem settles_of_akin (hs : s.reader = {})
    (h : Packet.Reader.Akin { arrivals := arrivals, ended := ended }
      { arrivals := arrivals', ended := ended' }) {v : Service σ τ}
    (hv : s.Settles host arrivals ended v) : s.Settles host arrivals' ended' v := by
  obtain ⟨t, hworks, hrest, rfl⟩ := works_of_settles hs h hv
  exact (reaches_iff hs).2 ⟨t, hworks, hrest, rfl⟩

end

end Service

end DebugAdapter
