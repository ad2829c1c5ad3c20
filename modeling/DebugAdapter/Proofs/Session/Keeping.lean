import DebugAdapter.Proofs.Session.Parking
import DebugAdapter.Proofs.Session.Regular

/-!
# Every run keeps a regular journal

`Kept J sys` ties a system to its journal: the handle looks as the journal says, each side is where
its last entry leaves it, and a question waits only while the session waits for the reply to it. A
step of either side is admitted by the journal so far and keeps the tie; so the journal of every run
is regular.
-/

namespace DebugAdapter

open Protocol Journal

variable {σ τ : Type} {host : Host σ τ} {sys sys' : System σ τ} {J : List Entry} {x : Entry}

-- ---------------------------------------------------------------------------
-- The handle
-- ---------------------------------------------------------------------------

namespace Entry

def marks : Entry → Bool
  | marked => true
  | _ => false

def releases (stop : Nat) : Entry → Bool
  | released i => stop == i
  | _ => false

/-- The handle changes as an entry says. -/
structure Shows (x : Entry) (h h' : Handle) : Prop where
  closed : h'.closed = (h.closed || x.marks)
  active : h'.active = x.activeAfter h.active
  count : h'.stops.length = h.stops.length + if x.isInstalled then 1 else 0
  decision : ∀ i, h'.decisionAt i = (h.decisionAt i).or (x.decides? i)
  disposed : ∀ i, h'.disposedAt i = (h.disposedAt i || x.releases i)
  outbox : h'.outbox = h.outbox ++ x.sent?.toList

/-- The handle does not show an entry, unless something is sent with it. -/
def inert : Entry → Bool
  | reported | announced .. | served .. | faulted .. | returned none _ | found ..
  | accepted _ (.inspect _) _ | refused .. | answered _ | sent _ | closed => true
  | installed .. | returned (some _) _ | accepted _ (.resume _) _ | released _ | marked | vacated _
  | settled _ => false

section

variable {h h' : Handle} {stop : Nat} {place : Option Nat} {d : Decision} {q : Question}
  {r : Request}

theorem shows_of_inert (hx : x.inert = true) (hc : h'.closed = h.closed)
    (ha : h'.active = h.active) (hl : h'.stops.length = h.stops.length)
    (hd : ∀ i, h'.decisionAt i = h.decisionAt i) (hr : ∀ i, h'.disposedAt i = h.disposedAt i)
    (ho : h'.outbox = h.outbox ++ x.sent?.toList) : x.Shows h h' := by
  have hsame : x.marks = false ∧ (∀ active, x.activeAfter active = active) ∧
      x.isInstalled = false ∧ (∀ i, x.decides? i = none) ∧ ∀ i, x.releases i = false := by
    unfold inert at hx
    split at hx
    all_goals first
      | exact ⟨rfl, fun _ => rfl, rfl, fun _ => rfl, fun _ => rfl⟩
      | cases hx
  obtain ⟨hm, hactive, hi, hdecides, hreleases⟩ := hsame
  exact {
    closed := by rw [hc, hm, Bool.or_false]
    active := by rw [ha, hactive]
    count := by simp [hl, hi]
    decision := fun i => by rw [hd, hdecides, Option.or_none]
    disposed := fun i => by rw [hr, hreleases, Bool.or_false]
    outbox := ho }

theorem shows_same (hx : x.inert = true) (hs : x.sent? = none) : x.Shows h h :=
  shows_of_inert hx rfl rfl rfl (fun _ => rfl) (fun _ => rfl) (by simp [hs])

theorem shows_post {m : Outgoing} (hx : x.inert = true) (hs : x.sent? = some m) :
    x.Shows h (h.post m) :=
  shows_of_inert hx rfl rfl rfl (fun _ => rfl) (fun _ => rfl) (by simp [hs, Handle.post])

theorem shows_asked (hs : h.schedule stop q = .ok h') :
    (accepted r (.inspect q) stop).Shows h h' := by
  obtain ⟨-, ha, hl, hd, hr, -⟩ := Handle.schedule_ok hs
  obtain ⟨hc, ho⟩ := Handle.schedule_outside hs
  exact shows_of_inert rfl hc ha hl hd hr (by simp [ho, sent?])

theorem shows_decided (hd : h.decide stop d = .ok h') (hlt : stop < h.stops.length) :
    (accepted r (.resume d) stop).Shows h h' := by
  obtain ⟨hnone, ha, hl, hd', hr, -⟩ := Handle.decide_ok hd hlt
  obtain ⟨hc, ho⟩ := Handle.decide_outside hd
  refine ⟨by simp [hc, marks], ha, by simp [hl, isInstalled], fun i => ?_,
    fun i => by simp [hr, releases], by simp [ho, sent?]⟩
  rw [hd', decides?]
  by_cases hi : i = stop
  · simp [hi, hnone]
  · simp [hi, Ne.symm hi]

theorem shows_released (hlt : stop < h.stops.length) :
    (released stop).Shows h (h.release stop) := by
  obtain ⟨hd, hr, -⟩ := Handle.release_eq hlt
  exact ⟨by simp [marks, Handle.release, Handle.revise], rfl,
    by simp [Handle.release, isInstalled], fun i => by simp [hd, decides?], hr,
    by simp [sent?, Handle.release, Handle.revise]⟩

theorem shows_settled (hlt : stop < h.stops.length) :
    (settled stop).Shows h (h.settle stop) := by
  obtain ⟨hd, hr, -⟩ := Handle.settle_eq hlt
  refine ⟨by simp [marks, Handle.settle, Handle.revise], rfl,
    by simp [Handle.settle, isInstalled], fun i => ?_, fun i => by simp [hr, releases],
    by simp [sent?, Handle.settle, Handle.revise]⟩
  rw [hd, decides?]
  by_cases hi : i = stop
  · subst hi
    cases h.decisionAt i <;> simp
  · simp [hi, Ne.symm hi]

theorem shows_marked : marked.Shows h h.markClosed :=
  ⟨by simp [marks, Handle.markClosed], rfl, rfl,
    fun _ => by simp [decides?, Handle.decisionAt, Handle.markClosed],
    fun _ => by simp [releases, Handle.disposedAt, Handle.markClosed],
    by simp [sent?, Handle.markClosed]⟩

theorem shows_vacated (hv : h.vacate = (some stop, h')) : (vacated stop).Shows h h' := by
  obtain ⟨-, rfl⟩ := Handle.vacate_eq hv
  exact ⟨by simp [marks], rfl, rfl, fun _ => by simp [decides?, Handle.decisionAt],
    fun _ => by simp [releases, Handle.disposedAt], by simp [sent?]⟩

theorem shows_installed (hi : h.install = some (stop, h')) : (installed stop place).Shows h h' := by
  obtain ⟨hd, hr, -⟩ := Handle.alike_install hi
  obtain ⟨hc, rfl, rfl⟩ := Handle.install_eq_some hi
  exact ⟨by simp [marks], rfl, by simp [isInstalled], fun i => by simp [hd, decides?],
    fun i => by simp [hr, releases], by simp [sent?]⟩

theorem shows_returned (hl : h.leave stop = (d, h')) : (returned (some stop) d).Shows h h' := by
  obtain ⟨-, hs, ha⟩ := Handle.leave_eq hl
  obtain ⟨hc, ho⟩ := Handle.leave_outside hl
  obtain ⟨hd, hr, -⟩ := Handle.Alike.of_stops_eq hs
  exact ⟨by simp [hc, marks], ha, by simp [hs, isInstalled], fun i => by simp [hd, decides?],
    fun i => by simp [hr, releases], by simp [ho, sent?]⟩

end

end Entry

namespace Journal

structure Depicts (J : List Entry) (h : Handle) : Prop where
  closed : h.closed = true ↔ .marked ∈ J
  active : h.active = activeIn J
  count : h.stops.length = stopsIn J
  decision : ∀ i, h.decisionAt i = decisionIn J i
  disposed : ∀ i, h.disposedAt i = true ↔ .released i ∈ J
  outbox : h.outbox = J.filterMap Entry.sent?

theorem depicts_nil : Depicts [] {} where
  closed := by simp
  active := rfl
  count := rfl
  decision i := rfl
  disposed i := by simp [Handle.disposedAt]
  outbox := rfl

theorem Depicts.append {h h' : Handle} (hm : Depicts J h) (hx : x.Shows h h') :
    Depicts (J ++ [x]) h' where
  closed := by
    have : x.marks = true ↔ .marked = x := by cases x <;> simp [Entry.marks]
    simp [hx.closed, hm.closed, this]
  active := by rw [hx.active, hm.active, activeIn_append]
  count := by rw [hx.count, hm.count, stopsIn_append]
  decision i := by rw [hx.decision, hm.decision, decisionIn_append]
  disposed i := by
    have : x.releases i = true ↔ .released i = x := by cases x <;> simp [Entry.releases]
    simp [hx.disposed, hm.disposed, this]
  outbox := by
    rw [hx.outbox, hm.outbox, List.filterMap_append]
    cases h : x.sent? <;> simp [h]

theorem Depicts.congr {h h' : Handle} (hm : Depicts J h) (hc : h'.closed = h.closed)
    (ha : h'.active = h.active) (hl : h'.stops.length = h.stops.length)
    (hd : ∀ i, h'.decisionAt i = h.decisionAt i) (hr : ∀ i, h'.disposedAt i = h.disposedAt i)
    (ho : h'.outbox = h.outbox) : Depicts J h' where
  closed := by rw [hc, hm.closed]
  active := ha.trans hm.active
  count := hl.trans hm.count
  decision i := (hd i).trans (hm.decision i)
  disposed i := by rw [hr, hm.disposed]
  outbox := ho.trans hm.outbox

end Journal

-- ---------------------------------------------------------------------------
-- The two sides
-- ---------------------------------------------------------------------------

/-- The session is where its last entry leaves it. -/
def Session.Phase.Agrees (J : List Entry) : Session.Phase → Prop
  | .scheduling r q stop => lastOf .session J = some (.found r (.inspect q) (some stop))
  | .deciding r d stop => lastOf .session J = some (.found r (.resume d) (some stop))
  | .awaiting r => ∃ q stop, lastOf .session J = some (.accepted r (.inspect q) stop)
  | .answering o => Concludes J o
  | .following _ (some stop) _ =>
    ∃ o, lastOf .session J = some (.answered o) ∧ o.release = some stop
  | .closing .vacate _ => lastOf .session J = some .marked
  | .closing (.settle stop) _ =>
    lastOf .session J = some (.vacated stop) ∧ .marked ∈ J ∧ activeIn J = none
  | .closing (.release stop) _ =>
    lastOf .session J = some (.settled stop) ∧ .marked ∈ J ∧ activeIn J = none
  | .reading | .handling _ | .asking .. | .resuming .. | .following _ none _ | .closing .mark _
  | .disconnecting _ | .finishing _ | .ended _ => Unengaged (lastOf .session J)

def Session.Phase.reply (J : List Entry) : Session.Phase → Option (Except AdapterError Json)
  | .awaiting _ => replyIn J
  | _ => none

def Thread.Phase.Agrees (J : List Entry) : Thread.Phase σ → Prop
  | .idle | .hooked .. | .matching .. | .disarming .. | .resumed .. => Roams (lastOf .thread J)
  | .installing .. => lastOf .thread J = some .reported
  | .announcing _ _ stop _ _ => ∃ place, lastOf .thread J = some (.installed stop place)
  | .serving _ stop _ _ _ => Parks stop (lastOf .thread J)
  | .leaving _ stop _ => Parks stop (lastOf .thread J) ∧ .released stop ∈ J
  | .dead _ => Roams (lastOf .thread J) ∨ ∃ stop q, lastOf .thread J = some (.faulted stop q)

def Thread.Phase.batch (phase : Thread.Phase σ) : List Question :=
  (phase.parkedAt?.map (·.2)).getD []

namespace Journal

def Asked (J : List Entry) (stop : Nat) (q : Question) : Prop :=
  (∃ r, lastOf .session J = some (.accepted r (.inspect q) stop)) ∧ replyIn J = none

end Journal

namespace System

def Pending (sys : System σ τ) (stop : Nat) (q : Question) : Prop :=
  q ∈ sys.handle.queueAt stop ∨
    ∃ batch, sys.thread.phase.parkedAt? = some (stop, batch) ∧ q ∈ batch

def load (sys : System σ τ) : Nat := sys.handle.queued + sys.thread.phase.batch.length

/-- The system is as its journal says. -/
structure Kept (J : List Entry) (sys : System σ τ) : Prop where
  regular : Regular J
  depicts : Depicts J sys.handle
  session : sys.session.phase.Agrees J
  thread : sys.thread.phase.Agrees J
  reply : sys.reply = sys.session.phase.reply J
  asked : ∀ stop q, sys.Pending stop q → Asked J stop q
  load : sys.load ≤ 1

end System

-- ---------------------------------------------------------------------------
-- What one side leaves alone
-- ---------------------------------------------------------------------------

theorem Session.Phase.Agrees.append {phase : Session.Phase} (h : phase.Agrees J)
    (hx : Admits J x) (hside : x.side? ≠ some .session) : phase.Agrees (J ++ [x]) := by
  have hlast : lastOf .session (J ++ [x]) = lastOf .session J := by simp [hside]
  cases phase with
  | reading | handling | asking | resuming | scheduling | deciding | awaiting | disconnecting
    | finishing | ended => simpa only [Agrees, hlast] using h
  | following events release closes =>
    cases release <;> simpa only [Agrees, hlast] using h
  | answering o =>
    cases h with
    | plain hu ho => exact .plain (hlast ▸ hu) ho
    | notStopped hl => exact .notStopped (hlast.trans hl)
    | refused hl => exact .refused (hlast.trans hl)
    | resumed hl => exact .resumed (hlast.trans hl)
    | relayed hl hr =>
      refine .relayed (hlast.trans hl) ?_
      rw [replyIn_append]
      -- the session has its reply, so no question is served
      cases hx with
      | served _ _ _ hnone | faulted _ _ hnone => cases hnone.symm.trans hr
      | answered => exact absurd rfl hside
      | _ => exact hr
  | closing step result =>
    have hactive (hm : .marked ∈ J) (ha : activeIn J = none) : activeIn (J ++ [x]) = none := by
      refine activeIn_eq_none (fun stop place hi => ?_) ha
      cases List.mem_singleton.1 hi
      cases hx with
      | installed _ hm' => exact hm' hm
    cases step with
    | mark | vacate => simpa only [Agrees, hlast] using h
    | settle stop | release stop =>
      obtain ⟨hl, hm, ha⟩ := h
      exact ⟨hlast.trans hl, List.mem_append_left _ hm, hactive hm ha⟩

theorem Thread.Phase.Agrees.append {phase : Thread.Phase σ} (h : phase.Agrees J)
    (hside : x.side? ≠ some .thread) : phase.Agrees (J ++ [x]) := by
  have hlast : lastOf .thread (J ++ [x]) = lastOf .thread J := by simp [hside]
  cases phase with
  | leaving =>
    obtain ⟨hp, hr⟩ := h
    exact ⟨hlast ▸ hp, List.mem_append_left _ hr⟩
  | _ => simpa only [Agrees, hlast] using h

theorem Session.Phase.Agrees.awaiting {phase : Session.Phase} (h : phase.Agrees J) {stop : Nat}
    {q : Question} (hq : Asked J stop q) : ∃ r, phase = .awaiting r := by
  obtain ⟨⟨r, hl⟩, hnone⟩ := hq
  cases phase with
  | awaiting r => exact ⟨r, rfl⟩
  | reading | handling | asking | resuming | disconnecting | finishing | ended =>
    simp only [Agrees, hl] at h
    cases h
  | scheduling | deciding => cases hl.symm.trans h
  | following events release closes =>
    cases release with
    | none =>
      simp only [Agrees, hl] at h
      cases h
    | some stop =>
      obtain ⟨o, hl', -⟩ := h
      cases hl.symm.trans hl'
  | answering o =>
    cases h with
    | plain hu =>
      rw [hl] at hu
      cases hu
    | notStopped hl' | refused hl' | resumed hl' => cases hl.symm.trans hl'
    | relayed _ hr => cases hnone.symm.trans hr
  | closing step result =>
    cases step with
    | mark =>
      simp only [Agrees, hl] at h
      cases h
    | vacate => cases hl.symm.trans h
    | settle stop | release stop => cases hl.symm.trans h.1

namespace System

-- ---------------------------------------------------------------------------
-- The session
-- ---------------------------------------------------------------------------

theorem Kept.not_pending (h : sys.Kept J) (hp : ∀ r, sys.session.phase ≠ .awaiting r) {stop : Nat}
    {q : Question} : ¬ sys.Pending stop q := by
  intro hq
  obtain ⟨r, hr⟩ := h.session.awaiting (h.asked stop q hq)
  exact hp r hr

theorem exists_pending {q : Question} (hq : q ∈ sys.thread.phase.batch) :
    ∃ stop, sys.Pending stop q := by
  unfold Thread.Phase.batch at hq
  cases hat : sys.thread.phase.parkedAt? with
  | none =>
    rw [hat] at hq
    cases hq
  | some place =>
    rw [hat] at hq
    exact ⟨place.1, .inr ⟨place.2, hat, hq⟩⟩

theorem Kept.load_eq_zero (h : sys.Kept J) (hp : ∀ r, sys.session.phase ≠ .awaiting r) :
    sys.load = 0 := by
  have hqueue : sys.handle.queued = 0 := by
    refine Handle.queued_eq_zero.2 fun i => List.eq_nil_iff_forall_not_mem.2 fun q hq => ?_
    exact h.not_pending hp (.inl hq)
  have hbatch : sys.thread.phase.batch = [] := by
    refine List.eq_nil_iff_forall_not_mem.2 fun q hq => ?_
    obtain ⟨stop, hpending⟩ := exists_pending hq
    exact h.not_pending hp hpending
  rw [System.load, hqueue, hbatch, List.length_nil]

theorem Kept.quiet (h : sys.Kept J) (hhandle : sys'.handle = sys.handle)
    (hthread : sys'.thread = sys.thread) (hsession : sys'.session.phase.Agrees J)
    (hreply : sys'.reply = sys'.session.phase.reply J) : sys'.Kept J where
  regular := h.regular
  depicts := by
    rw [hhandle]
    exact h.depicts
  session := hsession
  thread := by
    rw [hthread]
    exact h.thread
  reply := hreply
  asked stop q hq := by
    rw [Pending, hhandle, hthread] at hq
    exact h.asked stop q hq
  load := by
    rw [System.load, hhandle, hthread]
    exact h.load

theorem Kept.note (h : sys.Kept J) (hp : ∀ r, sys.session.phase ≠ .awaiting r) (hx : Admits J x)
    (hside : x.side? ≠ some .thread) (hshows : x.Shows sys.handle sys'.handle)
    (hqueue : ∀ i, sys'.handle.queueAt i = sys.handle.queueAt i)
    (hthread : sys'.thread = sys.thread) (hsession : sys'.session.phase.Agrees (J ++ [x]))
    (hreply : sys'.reply = sys'.session.phase.reply (J ++ [x])) : sys'.Kept (J ++ [x]) := by
  have hnone (stop : Nat) (q : Question) : ¬ sys'.Pending stop q := by
    rw [Pending, hqueue, hthread]
    exact h.not_pending hp
  have hload : sys'.load = 0 := by
    have := h.load_eq_zero hp
    have hqueued : sys'.handle.queued = 0 := by
      refine Handle.queued_eq_zero.2 fun i => List.eq_nil_iff_forall_not_mem.2 fun q hq => ?_
      exact hnone i q (.inl hq)
    rw [System.load] at this
    rw [System.load, hqueued, hthread]
    omega
  exact {
    regular := .snoc h.regular hx
    depicts := h.depicts.append hshows
    session := hsession
    thread := by
      rw [hthread]
      exact h.thread.append hside
    reply := hreply
    asked := fun stop q hq => absurd hq (hnone stop q)
    load := by omega }

theorem Kept.lt_length (h : sys.Kept J) {side : Side} (hl : lastOf side J = some x) {stop : Nat}
    (hx : x.stop? = some stop) : stop < sys.handle.stops.length := by
  rw [h.depicts.count]
  exact h.regular.lt_stopsIn (mem_of_lastOf hl).1 hx

theorem unengaged_released (stop : Nat) :
    Unengaged (lastOf .session (J ++ [Entry.released stop])) := by
  rw [lastOf_append_own rfl]
  exact .released stop

theorem unengaged_closed (J : List Entry) : Unengaged (lastOf .session (J ++ [.closed])) := by
  rw [lastOf_append_own rfl]
  exact .closed

theorem agrees_closed {result : Option (Except AdapterError Unit)}
    (hu : Unengaged (lastOf .session J)) : (sys.closed result).session.phase.Agrees J := by
  cases result <;> exact hu

theorem reply_closed {result : Option (Except AdapterError Unit)} (h : sys.reply = none) :
    (sys.closed result).reply = (sys.closed result).session.phase.reply J := by
  cases result <;> exact h

/-- The session asks its question: it waits at the stop, and nothing else does. -/
theorem Kept.schedule {r : Request} {q : Question} {stop : Nat} {h' : Handle} (h : sys.Kept J)
    (hp : sys.session.phase = .scheduling r q stop) (hs : sys.handle.schedule stop q = .ok h') :
    Kept (J ++ [.accepted r (.inspect q) stop])
      ({ sys with handle := h' }.enter (.awaiting r)) := by
  have hl := h.session
  have hreply := h.reply
  rw [hp] at hl hreply
  have hnot : ∀ r, sys.session.phase ≠ .awaiting r := by simp [hp]
  obtain ⟨hd, -, -, -, -, hqueue⟩ := Handle.schedule_ok hs
  have hopen : .released stop ∉ J := by
    rw [← h.depicts.disposed, hd]
    nofun
  have hnone : replyIn J = none := by
    cases hr : replyIn J with
    | none => rfl
    | some reply =>
      obtain ⟨r', q', stop', hl', -⟩ := h.regular.reply hr
      cases hl.symm.trans hl'
  have hlast : lastOf .session (J ++ [.accepted r (.inspect q) stop]) =
      some (.accepted r (.inspect q) stop) := lastOf_append_own rfl
  refine ⟨.snoc h.regular (.asked hl hopen), h.depicts.append (Entry.shows_asked hs),
    ⟨q, stop, hlast⟩, h.thread.append nofun, ?reply, fun i q' hq => ?asked, ?load⟩
  case reply =>
    change sys.reply = replyIn _
    rw [replyIn_append, hnone]
    exact hreply
  case asked =>
    have hnew : i = stop ∧ q' = q := by
      obtain hq | hq := hq
      · change q' ∈ h'.queueAt i at hq
        rw [hqueue] at hq
        split at hq
        · rename_i hi
          obtain hq | hq := List.mem_append.1 hq
          · exact absurd (.inl hq) (h.not_pending hnot)
          · exact ⟨hi, List.mem_singleton.1 hq⟩
        · exact absurd (.inl hq) (h.not_pending hnot)
      · exact absurd (.inr hq) (h.not_pending hnot)
    obtain ⟨rfl, rfl⟩ := hnew
    exact ⟨⟨r, hlast⟩, by rw [replyIn_append, hnone]; rfl⟩
  case load =>
    have hzero := h.load_eq_zero hnot
    have hqueued := Handle.queued_schedule hs
    change h'.queued + sys.thread.phase.batch.length ≤ 1
    rw [System.load] at hzero
    omega

theorem Kept.takeUp {r : Request} (h : sys.Kept J) (hp : sys.session.phase = .handling r) :
    (sys.takeUp host r).Kept J := by
  have hagrees := h.session
  have hreply := h.reply
  rw [hp] at hagrees hreply
  obtain ⟨debugger, target, disconnected, phase, heq, -, hphase⟩ := takeUp_cases host sys r
  rw [heq]
  cases hphase with
  | granted | refused | unknown => exact h.quiet rfl rfl (.plain hagrees rfl) hreply
  | inspect | resume => exact h.quiet rfl rfl hagrees hreply

theorem Kept.look {r : Request} {errand : Errand} {phase : Session.Phase} (h : sys.Kept J)
    (hp : ∀ r, sys.session.phase ≠ .awaiting r) (hfree : Unengaged (lastOf .session J))
    (hphase : phase.Agrees (J ++ [.found r errand sys.handle.active]))
    (hreply : sys.reply = phase.reply (J ++ [.found r errand sys.handle.active])) :
    Kept (J ++ [.found r errand sys.handle.active]) (sys.enter phase) :=
  h.note hp (h.depicts.active ▸ .found _ _ hfree) (by simp [Entry.side?])
    (Entry.shows_same rfl rfl) (fun _ => rfl) rfl hphase hreply

theorem Kept.scheduleInVain {r : Request} {q : Question} {stop : Nat} {e : AdapterError}
    (h : sys.Kept J) (hp : sys.session.phase = .scheduling r q stop)
    (hs : sys.handle.schedule stop q = .error e) :
    Kept (J ++ [.refused r (.inspect q) stop e]) (sys.refuse r e) := by
  have hl := h.session
  have hreply := h.reply
  rw [hp] at hl hreply
  obtain ⟨hd, rfl⟩ := Handle.schedule_error hs (h.lt_length hl rfl)
  exact h.note (by simp [hp]) (.askedLate hl ((h.depicts.disposed _).1 hd)) (by simp [Entry.side?])
    (Entry.shows_same rfl rfl) (fun _ => rfl) rfl (.refused (lastOf_append_own rfl)) hreply

theorem Kept.pass {r : Request} {reply : Except AdapterError Json} (h : sys.Kept J)
    (hp : sys.session.phase = .awaiting r) (hr : sys.reply = some reply) :
    Kept J ({ sys with reply := none }.enter (.answering (.relay r reply))) := by
  have hagrees := h.session
  have hreply := h.reply
  rw [hp] at hagrees hreply
  obtain ⟨q, stop, hl⟩ := hagrees
  exact h.quiet rfl rfl (.relayed hl (hreply.symm.trans hr)) rfl

theorem Kept.decide {r : Request} {d : Decision} {stop : Nat} {h' : Handle} (h : sys.Kept J)
    (hp : sys.session.phase = .deciding r d stop) (hd : sys.handle.decide stop d = .ok h') :
    Kept (J ++ [.accepted r (.resume d) stop])
      ({ sys with handle := h' }.enter (.answering (.resumption r d stop))) := by
  have hl := h.session
  have hreply := h.reply
  rw [hp] at hl hreply
  have hlt := h.lt_length hl rfl
  obtain ⟨hnone, -, -, -, -, hqueue⟩ := Handle.decide_ok hd hlt
  rw [h.depicts.decision] at hnone
  exact h.note (by simp [hp]) (.decided hl hnone) (by simp [Entry.side?])
    (Entry.shows_decided hd hlt) hqueue rfl (.resumed (lastOf_append_own rfl)) hreply

theorem Kept.decideInVain {r : Request} {d : Decision} {stop : Nat} {e : AdapterError}
    (h : sys.Kept J) (hp : sys.session.phase = .deciding r d stop)
    (hd : sys.handle.decide stop d = .error e) :
    Kept (J ++ [.refused r (.resume d) stop e]) (sys.refuse r e) := by
  have hl := h.session
  have hreply := h.reply
  rw [hp] at hl hreply
  obtain ⟨hsome, rfl⟩ := Handle.decide_error hd
  rw [h.depicts.decision] at hsome
  exact h.note (by simp [hp]) (.decidedLate hl hsome) (by simp [Entry.side?])
    (Entry.shows_same rfl rfl) (fun _ => rfl) rfl (.refused (lastOf_append_own rfl)) hreply

theorem Kept.answer {o : Outcome} (h : sys.Kept J) (hp : sys.session.phase = .answering o) :
    Kept (J ++ [.answered o]) ({ sys with handle := sys.handle.post (.response o.response) }.enter
      (.following o.events o.release o.closes)) := by
  have hagrees := h.session
  have hreply := h.reply
  rw [hp] at hagrees hreply
  have hl : lastOf .session (J ++ [.answered o]) = some (.answered o) := lastOf_append_own rfl
  refine h.note (by simp [hp]) (.answered hagrees) (by simp [Entry.side?])
    (Entry.shows_post rfl rfl) (fun _ => rfl) rfl ?_ hreply
  change Session.Phase.Agrees _ (.following o.events o.release o.closes)
  cases ho : o.release with
  | none =>
    change Unengaged (lastOf .session _)
    rw [hl]
    exact .answered ho
  | some stop => exact ⟨o, hl, ho⟩

theorem Kept.follow {e : Event} {events : List Event} {stop : Option Nat} {closes : Bool}
    (h : sys.Kept J) (hp : sys.session.phase = .following (e :: events) stop closes) :
    Kept (J ++ [.sent (.event e)]) ({ sys with handle := sys.handle.post (.event e) }.enter
      (.following events stop closes)) := by
  have hagrees := h.session
  have hreply := h.reply
  rw [hp] at hagrees hreply
  refine h.note (by simp [hp]) (.sent _) (by simp [Entry.side?]) (Entry.shows_post rfl rfl)
    (fun _ => rfl) rfl ?_ hreply
  cases stop <;>
    exact Session.Phase.Agrees.append hagrees (.sent (.event e)) (by simp [Entry.side?])

theorem Kept.letGo {stop : Nat} {closes : Bool} (h : sys.Kept J)
    (hp : sys.session.phase = .following [] (some stop) closes) :
    Kept (J ++ [.released stop]) ({ sys with handle := sys.handle.release stop }.enter
      (.following [] none closes)) := by
  have hagrees := h.session
  have hreply := h.reply
  rw [hp] at hagrees hreply
  obtain ⟨o, hl, ho⟩ := hagrees
  have hlt := h.lt_length hl ho
  exact h.note (by simp [hp]) (.letGo hl ho) (by simp [Entry.side?]) (Entry.shows_released hlt)
    (Handle.release_eq hlt).2.2 rfl (unengaged_released _) hreply

section

variable {stop : Nat} {h' : Handle} {result : Option (Except AdapterError Unit)}

theorem Kept.mark (h : sys.Kept J) (hp : sys.session.phase = .closing .mark result) :
    Kept (J ++ [.marked])
      ({ sys with handle := sys.handle.markClosed }.enter (.closing .vacate result)) := by
  have hagrees := h.session
  have hreply := h.reply
  rw [hp] at hagrees hreply
  exact h.note (by simp [hp]) (.marked hagrees) (by simp [Entry.side?]) Entry.shows_marked
    (fun _ => rfl) rfl (lastOf_append_own rfl) hreply

theorem Kept.vacate (h : sys.Kept J) (hp : sys.session.phase = .closing .vacate result)
    (hv : sys.handle.vacate = (some stop, h')) :
    Kept (J ++ [.vacated stop])
      ({ sys with handle := h' }.enter (.closing (.settle stop) result)) := by
  have hagrees := h.session
  have hreply := h.reply
  rw [hp] at hagrees hreply
  obtain ⟨hsome, rfl⟩ := Handle.vacate_eq hv
  exact h.note (by simp [hp]) (.vacated hagrees (h.depicts.active.symm.trans hsome))
    (by simp [Entry.side?]) (Entry.shows_vacated hv) (fun _ => rfl) rfl
    ⟨lastOf_append_own rfl, List.mem_append_left _ (mem_of_lastOf hagrees).1, activeIn_append⟩
    hreply

theorem Kept.closed (h : sys.Kept J) (hp : ∀ r, sys.session.phase ≠ .awaiting r)
    (hx : Admits J .closed) (hshows : Entry.closed.Shows sys.handle sys'.handle)
    (hqueue : ∀ i, sys'.handle.queueAt i = sys.handle.queueAt i)
    (hthread : sys'.thread = sys.thread) (hreply : sys'.reply = none) :
    Kept (J ++ [.closed]) (sys'.closed result) :=
  h.note hp hx (by simp [Entry.side?]) (by rw [handle_closed]; exact hshows)
    (fun i => by rw [handle_closed]; exact hqueue i) (by rw [thread_closed]; exact hthread)
    (agrees_closed (unengaged_closed _)) (reply_closed hreply)

theorem Kept.vacant (h : sys.Kept J) (hp : sys.session.phase = .closing .vacate result)
    (hv : sys.handle.vacate = (none, h')) :
    Kept (J ++ [.closed]) ({ sys with handle := h' }.closed result) := by
  have hagrees := h.session
  have hreply := h.reply
  rw [hp] at hagrees hreply
  obtain ⟨hnone, rfl⟩ := Handle.vacate_eq hv
  have hx : Admits J .closed :=
    .closed hagrees (.inl rfl) (mem_of_lastOf hagrees).1 (h.depicts.active.symm.trans hnone)
  exact h.closed (by simp [hp]) hx (Entry.shows_of_inert rfl rfl hnone.symm rfl (fun _ => rfl)
    (fun _ => rfl) (by simp [Entry.sent?])) (fun _ => rfl) rfl hreply

theorem Kept.settle (h : sys.Kept J) (hp : sys.session.phase = .closing (.settle stop) result) :
    Kept (J ++ [.settled stop]) ({ sys with handle := sys.handle.settle stop }.enter
      (.closing (.release stop) result)) := by
  have hagrees := h.session
  have hreply := h.reply
  rw [hp] at hagrees hreply
  obtain ⟨hl, hm, hnone⟩ := hagrees
  have hlt := h.lt_length hl rfl
  exact h.note (by simp [hp]) (.settled hl) (by simp [Entry.side?]) (Entry.shows_settled hlt)
    (Handle.settle_eq hlt).2.2 rfl
    ⟨lastOf_append_own rfl, List.mem_append_left _ hm, activeIn_append.trans hnone⟩ hreply

theorem Kept.release (h : sys.Kept J) (hp : sys.session.phase = .closing (.release stop) result) :
    Kept (J ++ [.released stop, .closed])
      ({ sys with handle := sys.handle.release stop }.closed result) := by
  have hagrees := h.session
  have hreply := h.reply
  rw [hp] at hagrees hreply
  obtain ⟨hl, hm, hnone⟩ := hagrees
  have hlt := h.lt_length hl rfl
  have hreleased : Kept (J ++ [.released stop])
      ({ sys with handle := sys.handle.release stop }.enter (.following [] none false)) :=
    h.note (by simp [hp]) (.disposed hl) (by simp [Entry.side?]) (Entry.shows_released hlt)
      (Handle.release_eq hlt).2.2 rfl (unengaged_released _) hreply
  have hx : Admits (J ++ [.released stop]) .closed :=
    .closed (lastOf_append_own rfl) (.inr ⟨stop, rfl⟩) (List.mem_append_left _ hm)
      (activeIn_append.trans hnone)
  rw [List.append_cons]
  exact hreleased.closed (fun _ h => by cases h) hx (Entry.shows_same rfl rfl) (fun _ => rfl) rfl
    hreply

end

theorem Kept.session_step (h : sys.Kept J) (hstep : SessionStep host sys sys') :
    sys'.Kept (J ++ sys.sessionEntries) := by
  have hagrees := h.session
  have hreply := h.reply
  cases hstep with
  | shut hp | quit hp | begin hp | close hp | goOn hp | disconnect hp =>
    simp only [sessionEntries, hp, List.append_nil]
    rw [hp] at hagrees hreply
    exact h.quiet rfl rfl hagrees hreply
  | skip hp =>
    simp only [sessionEntries, hp, List.append_nil]
    exact h.quiet rfl rfl hagrees hreply
  | takeUp hp =>
    simp only [sessionEntries, hp, List.append_nil]
    exact h.takeUp hp
  | ask hp hc | resume hp hc =>
    rw [hp] at hagrees hreply
    simp only [sessionEntries, hp]
    refine h.look (by simp [hp]) hagrees ?_ hreply
    rw [Handle.current_eq_ok.1 hc]
    exact lastOf_append_own rfl
  | askInVain hp hc | resumeInVain hp hc =>
    rw [hp] at hagrees hreply
    simp only [sessionEntries, hp]
    obtain ⟨hnone, rfl⟩ := Handle.current_eq_error hc
    refine h.look (by simp [hp]) hagrees ?_ hreply
    rw [hnone]
    exact .notStopped (lastOf_append_own rfl)
  | schedule hp hs =>
    simp only [sessionEntries, hp, hs]
    exact h.schedule hp hs
  | scheduleInVain hp hs =>
    simp only [sessionEntries, hp, hs]
    exact h.scheduleInVain hp hs
  | pass hp hr | passError hp hr =>
    simp only [sessionEntries, hp, List.append_nil]
    exact h.pass hp hr
  | decide hp hd =>
    simp only [sessionEntries, hp, hd]
    exact h.decide hp hd
  | decideInVain hp hd =>
    simp only [sessionEntries, hp, hd]
    exact h.decideInVain hp hd
  | answer hp =>
    simp only [sessionEntries, hp]
    exact h.answer hp
  | follow hp =>
    simp only [sessionEntries, hp]
    exact h.follow hp
  | letGo hp =>
    simp only [sessionEntries, hp]
    exact h.letGo hp
  | mark hp =>
    simp only [sessionEntries, hp]
    exact h.mark hp
  | vacate hp hv =>
    simp only [sessionEntries, hp, (Handle.vacate_eq hv).1]
    exact h.vacate hp hv
  | vacant hp hv =>
    simp only [sessionEntries, hp, (Handle.vacate_eq hv).1]
    exact h.vacant hp hv
  | settle hp =>
    simp only [sessionEntries, hp]
    exact h.settle hp
  | release hp =>
    simp only [sessionEntries, hp]
    exact h.release hp
  | finish hp =>
    rw [hp] at hagrees hreply
    simp only [sessionEntries, hp]
    exact h.note (by simp [hp]) (.sent _) (by simp [Entry.side?]) (Entry.shows_post rfl rfl)
      (fun _ => rfl) rfl
      (Session.Phase.Agrees.append hagrees (.sent .close) (by simp [Entry.side?])) hreply

-- ---------------------------------------------------------------------------
-- The thread
-- ---------------------------------------------------------------------------

theorem pending_of_batch_nil (hb : sys.thread.phase.batch = []) {stop : Nat} {q : Question}
    (h : sys.Pending stop q) : q ∈ sys.handle.queueAt stop := by
  obtain h | ⟨batch, hat, hq⟩ := h
  · exact h
  · rw [Thread.Phase.batch, hat] at hb
    cases hb
    cases hq

theorem Kept.thread_quiet (h : sys.Kept J) (hdepicts : Depicts J sys'.handle)
    (hsession : sys'.session = sys.session) (hreply : sys'.reply = sys.reply)
    (hthread : sys'.thread.phase.Agrees J)
    (hpending : ∀ stop q, sys'.Pending stop q → sys.Pending stop q)
    (hload : sys'.load ≤ sys.load) : sys'.Kept J where
  regular := h.regular
  depicts := hdepicts
  session := by
    rw [hsession]
    exact h.session
  thread := hthread
  reply := by
    rw [hreply, hsession]
    exact h.reply
  asked stop q hq := h.asked stop q (hpending stop q hq)
  load := Nat.le_trans hload h.load

theorem Kept.roam (h : sys.Kept J) (hhandle : sys'.handle = sys.handle)
    (hsession : sys'.session = sys.session) (hreply : sys'.reply = sys.reply)
    (hthread : sys'.thread.phase.Agrees J) (hbatch : sys'.thread.phase.batch = []) :
    sys'.Kept J := by
  refine h.thread_quiet ?_ hsession hreply hthread (fun stop q hq => .inl ?_) ?_
  · rw [hhandle]
    exact h.depicts
  · rw [← hhandle]
    exact pending_of_batch_nil hbatch hq
  · rw [System.load, System.load, hhandle, hbatch]
    exact Nat.add_le_add_left (Nat.zero_le _) _

theorem Kept.thread_note (h : sys.Kept J) (hx : Admits J x) (hside : x.side? = some .thread)
    (hkeep : ∀ reply, x.replyAfter reply = reply) (hshows : x.Shows sys.handle sys'.handle)
    (hqueue : ∀ i, sys'.handle.queueAt i = sys.handle.queueAt i)
    (hqueued : sys'.handle.queued = sys.handle.queued) (hsession : sys'.session = sys.session)
    (hreply : sys'.reply = sys.reply) (hthread : sys'.thread.phase.Agrees (J ++ [x]))
    (hbatch : sys'.thread.phase.batch = []) : sys'.Kept (J ++ [x]) := by
  have hother : x.side? ≠ some .session := by
    rw [hside]
    nofun
  have hin : replyIn (J ++ [x]) = replyIn J := by rw [replyIn_append, hkeep]
  refine ⟨.snoc h.regular hx, h.depicts.append hshows, ?session, hthread, ?reply,
    fun stop q hq => ?asked, ?load⟩
  case session =>
    rw [hsession]
    exact h.session.append hx hother
  case reply =>
    rw [hreply, hsession, h.reply]
    cases sys.session.phase with
    | awaiting r => exact hin.symm
    | _ => rfl
  case asked =>
    have hq := pending_of_batch_nil hbatch hq
    rw [hqueue] at hq
    obtain ⟨⟨r, hl⟩, hnone⟩ := h.asked stop q (.inl hq)
    exact ⟨⟨r, by rw [lastOf_append, if_neg hother, hl]⟩, hin.trans hnone⟩
  case load =>
    have := h.load
    rw [System.load] at this
    rw [System.load, hqueued, hbatch, List.length_nil]
    omega

/-- The thread deals with the one question that is there. -/
theorem Kept.serve {origin : Origin} {stop : Nat} {q : Question} {batch : List Question}
    {g : StackGraph} {s : σ} {reply : Except AdapterError Json} (h : sys.Kept J)
    (hp : sys.thread.phase = .serving origin stop (q :: batch) g s)
    (hx : ∀ r, Parks stop (lastOf .thread J) →
      lastOf .session J = some (.accepted r (.inspect q) stop) → replyIn J = none → Admits J x)
    (hside : x.side? ≠ some .session) (hinert : x.inert = true) (hsent : x.sent? = none)
    (hrep : ∀ old, x.replyAfter old = some reply) (hhandle : sys'.handle = sys.handle)
    (hsession : sys'.session = sys.session) (hreply : sys'.reply = some reply)
    (hthread : Parks stop (lastOf .thread J) → sys'.thread.phase.Agrees (J ++ [x]))
    (hbatch : sys'.thread.phase.batch.length ≤ batch.length) : sys'.Kept (J ++ [x]) := by
  have hparks := h.thread
  rw [hp] at hparks
  have hasked := h.asked stop q (.inr ⟨q :: batch, by rw [hp]; rfl, List.mem_cons_self⟩)
  obtain ⟨r, hr⟩ := h.session.awaiting hasked
  obtain ⟨⟨r', hl⟩, hnone⟩ := hasked
  have hadmits := hx r' hparks hl hnone
  have hload := h.load
  rw [System.load, hp] at hload
  change sys.handle.queued + (batch.length + 1) ≤ 1 at hload
  have hqueued : sys.handle.queued = 0 := by omega
  have hnil : sys'.thread.phase.batch = [] := List.length_eq_zero_iff.1 (by omega)
  refine ⟨.snoc h.regular hadmits, ?depicts, ?session, hthread hparks, ?reply,
    fun stop q hq => ?asked, ?load⟩
  case depicts =>
    rw [hhandle]
    exact h.depicts.append (Entry.shows_same hinert hsent)
  case session =>
    rw [hsession]
    exact h.session.append hadmits hside
  case reply =>
    rw [hreply, hsession, hr]
    exact (replyIn_append.trans (hrep _)).symm
  case asked =>
    have hq := pending_of_batch_nil hnil hq
    rw [hhandle, Handle.queued_eq_zero.1 hqueued] at hq
    cases hq
  case load =>
    rw [System.load, hhandle, hqueued, hnil]
    exact Nat.zero_le _

theorem Kept.lt_length_of_parks (h : sys.Kept J) {stop : Nat}
    (hparks : Parks stop (lastOf .thread J)) : stop < sys.handle.stops.length := by
  generalize hl : lastOf .thread J = last at hparks
  cases hparks with
  | announced | served => exact h.lt_length hl rfl

theorem roams_returned (stop : Option Nat) (d : Decision) :
    Roams (lastOf .thread (J ++ [Entry.returned stop d])) := by
  rw [lastOf_append_own rfl]
  exact .returned stop d

theorem parks_announced (stop : Nat) (body : StoppedBody) :
    Parks stop (lastOf .thread (J ++ [.announced stop body])) := by
  rw [lastOf_append_own rfl]
  exact .announced body

theorem parks_served (stop : Nat) (q : Question) (reply : Except AdapterError Json) :
    Parks stop (lastOf .thread (J ++ [.served stop q reply])) := by
  rw [lastOf_append_own rfl]
  exact .served q reply

section

variable {origin : Origin} {body : StoppedBody} {stop : Nat} {g : StackGraph} {s : σ} {h' : Handle}

theorem Kept.install (h : sys.Kept J) (hp : sys.thread.phase = .installing origin body g s)
    (hi : sys.handle.install = some (stop, h')) :
    Kept (J ++ [.installed stop sys.handle.active])
      ({ sys with handle := h' }.move (.announcing origin body stop g s)) := by
  have hagrees := h.thread
  rw [hp] at hagrees
  obtain ⟨hc, hstop, heq⟩ := Handle.install_eq_some hi
  have hm : .marked ∉ J := by
    rw [← h.depicts.closed, hc]
    exact Bool.false_ne_true
  have hadmits := Admits.installed hagrees hm
  rw [← h.depicts.count, ← hstop, ← h.depicts.active] at hadmits
  exact h.thread_note hadmits rfl (fun _ => rfl) (Entry.shows_installed hi)
    (Handle.alike_install hi).queue (by simp [move, heq, Handle.queued]) rfl rfl
    ⟨_, lastOf_append_own rfl⟩ rfl

theorem Kept.take {batch : List Question} (h : sys.Kept J)
    (hp : sys.thread.phase = .serving origin stop [] g s)
    (ht : sys.handle.take stop = (.work batch, h')) :
    Kept J ({ sys with handle := h' }.move (.serving origin stop batch g s)) := by
  have hagrees := h.thread
  rw [hp] at hagrees
  obtain ⟨rfl, ha, hl, hd, hr, hqueue⟩ := Handle.take_work ht
  obtain ⟨hc, ho⟩ := Handle.take_outside ht
  refine h.thread_quiet (h.depicts.congr hc ha hl hd hr ho) rfl rfl hagrees
    (fun i q hq => .inl ?pending) ?load
  case pending =>
    obtain hq | ⟨batch, hat, hq⟩ := hq
    · have hq := (hqueue i).subst hq
      split at hq
      · cases hq
      · exact hq
    · cases hat
      exact hq
  case load =>
    have hqueued := (Handle.queued_take_work ht).2
    rw [System.load, System.load, hp]
    exact Nat.le_of_eq hqueued

theorem Kept.depart (h : sys.Kept J) (hp : sys.thread.phase = .serving origin stop [] g s)
    (ht : sys.handle.take stop = (.leave, h')) :
    Kept J (({ sys with handle := h' }.handBack origin g).move (.leaving origin stop s)) := by
  have hagrees := h.thread
  rw [hp] at hagrees
  obtain ⟨hd, ha, hl, halike⟩ := Handle.take_leave ht
  obtain ⟨hc, ho⟩ := Handle.take_outside ht
  have hreleased := (h.depicts.disposed _).1 (hd (h.lt_length_of_parks hagrees))
  refine h.thread_quiet ?depicts (session_handBack _ _) (reply_handBack _ _) ⟨hagrees, hreleased⟩
    (fun i q hq => .inl ?pending) ?load
  case depicts =>
    simp only [move, handle_handBack]
    exact h.depicts.congr hc ha hl halike.decision halike.disposed ho
  case pending =>
    rw [← halike.queue]
    simpa [move] using pending_of_batch_nil rfl hq
  case load =>
    rw [System.load, System.load]
    simp only [move, handle_handBack, hp, Handle.queued_take_leave ht]
    exact Nat.le_refl _

theorem Kept.leave {decision : Decision} (h : sys.Kept J)
    (hp : sys.thread.phase = .leaving origin stop s)
    (hl : sys.handle.leave stop = (decision, h')) :
    Kept (J ++ [.returned (some stop) decision])
      ({ sys with handle := h' }.move (.resumed origin decision s)) := by
  have hagrees := h.thread
  rw [hp] at hagrees
  obtain ⟨hparks, hreleased⟩ := hagrees
  obtain ⟨rfl, hs, -⟩ := Handle.leave_eq hl
  have hadmits := Admits.returned hparks hreleased
  rw [← h.depicts.decision] at hadmits
  exact h.thread_note hadmits rfl (fun _ => rfl) (Entry.shows_returned hl)
    (Handle.Alike.of_stops_eq hs).queue (Handle.queued_leave hl) rfl rfl (roams_returned _ _) rfl

end

theorem Kept.thread_step (h : sys.Kept J) (hstep : ThreadStep host sys sys') :
    sys'.Kept (J ++ sys.threadEntries sys') := by
  have hagrees := h.thread
  cases hstep with
  | event hp | free hp | look hp | hit hp | meet hp | miss hp | hand hp | resume hp =>
    rw [hp] at hagrees
    simp only [threadEntries, hp, move, finish, List.append_nil]
    exact h.roam rfl rfl rfl hagrees rfl
  | matchFault hp | resumeFault hp =>
    rw [hp] at hagrees
    simp only [threadEntries, hp, move, List.append_nil]
    exact h.roam rfl rfl rfl (.inl hagrees) rfl
  | stop hp | disarm hp =>
    rw [hp] at hagrees
    simp only [threadEntries, hp, move]
    exact h.thread_note (.reported hagrees) rfl (fun _ => rfl) (Entry.shows_same rfl rfl)
      (fun _ => rfl) rfl rfl rfl (lastOf_append_own rfl) rfl
  | turnAway hp hi =>
    rw [hp] at hagrees
    simp only [threadEntries, hp, move]
    have hm := h.depicts.closed.1 (Handle.closed_of_install hi)
    exact h.thread_note (.turnedAway hagrees hm) rfl (fun _ => rfl) (Entry.shows_same rfl rfl)
      (fun _ => rfl) rfl rfl rfl (roams_returned _ _) rfl
  | install hp hi =>
    simp only [threadEntries, hp, move]
    exact h.install hp hi
  | announce hp =>
    rw [hp] at hagrees
    simp only [threadEntries, hp, move]
    obtain ⟨place, hl⟩ := hagrees
    exact h.thread_note (.announced _ hl) rfl (fun _ => rfl) (Entry.shows_post rfl rfl)
      (fun _ => rfl) rfl rfl rfl (parks_announced _ _) rfl
  | reply hp ha =>
    simp only [threadEntries, hp, move, Option.toList_some, List.map_cons, List.map_nil]
    exact h.serve hp (fun _ hparks hl hnone => .served _ hparks hl hnone)
      (by simp [Entry.side?]) rfl rfl (fun _ => rfl) rfl rfl rfl (fun _ => parks_served _ _ _)
      (Nat.le_refl _)
  | serveFault hp ha =>
    simp only [threadEntries, hp, move]
    exact h.serve hp (fun _ hparks hl hnone => .faulted hparks hl hnone)
      (by simp [Entry.side?]) rfl rfl (fun _ => rfl) (handle_handBack _ _) (session_handBack _ _)
      (reply_handBack _ _)
      (fun _ => .inr ⟨_, _, lastOf_append_own rfl⟩) (Nat.zero_le _)
  | take hp ht =>
    simp only [threadEntries, hp, move, List.append_nil]
    exact h.take hp ht
  | depart hp ht =>
    simp only [threadEntries, hp, move, List.append_nil]
    exact h.depart hp ht
  | leave hp hl =>
    simp only [threadEntries, hp, move]
    exact h.leave hp hl

-- ---------------------------------------------------------------------------
-- Runs
-- ---------------------------------------------------------------------------

theorem kept_start (debugger : Debugger) (target : τ) (program : List (Item σ)) :
    Kept [] (start debugger target program) where
  regular := .nil
  depicts := depicts_nil
  session := .fresh
  thread := .fresh
  reply := rfl
  asked stop q hq := by
    obtain hq | ⟨batch, hat, -⟩ := hq
    · cases hq
    · cases hat
  load := Nat.zero_le _

/-- A session at rest reads, waits for a reply or has ended, so it has nothing else to do. -/
theorem Kept.last_of_waiting (h : sys.Kept J) (hrest : sys.stepSession host = none) :
    Unengaged (lastOf .session J) ∨
      ∃ r q stop, lastOf .session J = some (.accepted r (.inspect q) stop) ∧ replyIn J = none := by
  have hagrees := h.session
  have hreply := h.reply
  obtain ⟨reader, hp, -⟩ | ⟨r, hp, hr⟩ | ⟨result, hp⟩ := waiting_of_stepSession hrest
  · rw [hp] at hagrees
    exact .inl hagrees
  · rw [hp] at hagrees hreply
    obtain ⟨q, stop, hl⟩ := hagrees
    exact .inr ⟨r, q, stop, hl, hreply.symm.trans hr⟩
  · rw [hp] at hagrees
    exact .inl hagrees

/-- A thread at rest is on its own, is killed, or waits at a stop that was not let go. -/
theorem Kept.place_of_waiting (h : sys.Kept J) (hrest : sys.stepThread host = none) :
    Roams (lastOf .thread J) ∨ (∃ stop q, lastOf .thread J = some (.faulted stop q)) ∨
      ∃ stop, Parks stop (lastOf .thread J) ∧ .released stop ∉ J := by
  have hagrees := h.thread
  obtain hp | ⟨origin, stop, g, s, hp⟩ | ⟨s, hp⟩ := waiting_of_stepThread hrest
  · rw [hp] at hagrees
    exact .inl hagrees
  · rw [hp] at hagrees
    refine .inr (.inr ⟨stop, hagrees, fun hr => ?_⟩)
    simp only [stepThread, hp] at hrest
    split at hrest
    · have hd := (Handle.disposedAt_of_take_wait ‹_›).2
      cases hd.symm.trans ((h.depicts.disposed stop).2 hr)
    · cases hrest
    · cases hrest
  · rw [hp] at hagrees
    exact hagrees.imp id .inl

theorem Kept.moved_on {before after : List Entry} (h : sys.Kept (before ++ x :: after))
    (hrest : sys.stepThread host = none)
    (hx : x = .reported ∨ ∃ stop place, x = .installed stop place) :
    ∃ y, nextOfThread after = some y := by
  refine Option.ne_none_iff_exists'.1 fun hnone => ?_
  have hside : x.side? = some .thread := by
    obtain rfl | ⟨stop, place, rfl⟩ := hx <;> rfl
  have hl : lastOf .thread (before ++ x :: after) = some x :=
    lastOf_split hside (by simpa [nextOfThread] using hnone)
  have hplace := h.place_of_waiting hrest
  rw [hl] at hplace
  obtain rfl | ⟨stop, place, rfl⟩ := hx <;>
    obtain ⟨⟨⟩⟩ | ⟨_, _, ⟨⟩⟩ | ⟨_, ⟨⟨⟩⟩, -⟩ := hplace

end System

namespace Journal

theorem kept_run (host : Host σ τ) {c : Journal σ τ} (h : c.sys.Kept c.entries)
    (moves : List Move) :
    (c.run host moves).sys.Kept (c.run host moves).entries :=
  run_induction (fun sys J => sys.Kept J) (fun h => h.quiet rfl rfl h.session h.reply)
    (fun h hstep => h.session_step hstep) (fun h hstep => h.thread_step hstep) h moves

/-- The system of every run is as its journal says. -/
theorem kept (host : Host σ τ) (debugger : Debugger) (target : τ) (program : List (Item σ))
    (moves : List Move) :
    (run host moves { sys := .start debugger target program }).sys.Kept
      (run host moves { sys := .start debugger target program }).entries :=
  kept_run host (System.kept_start debugger target program) moves

end Journal

-- ---------------------------------------------------------------------------
-- What requests ask for
-- ---------------------------------------------------------------------------

def Errand.demand : Errand → Demand
  | .inspect q => .inspect q
  | .resume d => .resume d

def Session.Phase.errand? : Session.Phase → Option (Request × Errand)
  | .asking r q => some (r, .inspect q)
  | .resuming r d => some (r, .resume d)
  | _ => none

namespace System

theorem errand_of_takeUp {r r' : Request} {errand : Errand}
    (h : (sys.takeUp host r).session.phase.errand? = some (r', errand)) :
    Demand.of? r' = some (.ok errand.demand) := by
  unfold takeUp at h
  split at h
  · cases h
  · cases h
  · rename_i demand hd
    cases demand with
    | inspect | resume =>
      cases h
      exact hd
    | capabilities | disconnect | setLines | setCalls | threads | pause => cases h
    | chooseStart =>
      simp only [fulfil] at h
      split at h <;> cases h
    | start =>
      simp only [fulfil] at h
      split at h
      · cases h
      · split at h <;> cases h

theorem SessionStep.errand (h : SessionStep host sys sys') {r : Request} {errand : Errand}
    (he : sys'.session.phase.errand? = some (r, errand)) :
    Demand.of? r = some (.ok errand.demand) ∨ sys.session.phase.errand? = some (r, errand) := by
  cases h with
  | takeUp => exact .inl (errand_of_takeUp he)
  | skip => exact .inr he
  | @vacant _ result | @release _ result => cases result <;> cases he
  | _ => cases he

theorem errand_of_found {r : Request} {errand : Errand} {place : Option Nat}
    (h : .found r errand place ∈ sys.sessionEntries) :
    sys.session.phase.errand? = some (r, errand) := by
  unfold sessionEntries at h
  cases hp : sys.session.phase with
  | asking | resuming =>
    simp only [hp, List.mem_singleton] at h
    cases h
    rfl
  | scheduling | deciding =>
    simp only [hp] at h
    split at h <;> simp at h
  | following events release closes => cases events <;> cases release <;> simp [hp] at h
  | closing step result =>
    cases step with
    | vacate =>
      simp only [hp] at h
      split at h <;> simp at h
    | mark | settle | release => simp [hp] at h
  | reading | handling | awaiting | answering | disconnecting | finishing | ended => simp [hp] at h

theorem not_found_of_thread {r : Request} {errand : Errand} {place : Option Nat} :
    .found r errand place ∉ sys.threadEntries sys' := by
  unfold threadEntries
  split <;> simp

end System

namespace Journal

/-- Requests look for stops with the errands that they ask for. -/
structure Demanded (sys : System σ τ) (J : List Entry) : Prop where
  phase : ∀ r errand, sys.session.phase.errand? = some (r, errand) →
    Demand.of? r = some (.ok errand.demand)
  found : ∀ r errand place, .found r errand place ∈ J → Demand.of? r = some (.ok errand.demand)

theorem Demanded.session (h : Demanded sys J) (hstep : sys.SessionStep host sys') :
    Demanded sys' (J ++ sys.sessionEntries) where
  phase r errand he := by
    obtain hd | he := hstep.errand he
    · exact hd
    · exact h.phase r errand he
  found r errand place hmem := by
    obtain hmem | hmem := List.mem_append.1 hmem
    · exact h.found r errand place hmem
    · exact h.phase r errand (System.errand_of_found hmem)

theorem Demanded.thread (h : Demanded sys J) (hstep : sys.ThreadStep host sys') :
    Demanded sys' (J ++ sys.threadEntries sys') where
  phase r errand he := by
    rw [hstep.outside.1] at he
    exact h.phase r errand he
  found r errand place hmem := by
    obtain hmem | hmem := List.mem_append.1 hmem
    · exact h.found r errand place hmem
    · exact absurd hmem System.not_found_of_thread

theorem demanded (host : Host σ τ) (debugger : Debugger) (target : τ) (program : List (Item σ))
    (moves : List Move) :
    Demanded (run host moves { sys := .start debugger target program }).sys
      (run host moves { sys := .start debugger target program }).entries := by
  refine run_induction Demanded (fun h => ⟨h.phase, h.found⟩) (fun h hstep => h.session hstep)
    (fun h hstep => h.thread hstep) ⟨fun r errand he => ?_, fun r errand place hmem => ?_⟩ moves
  · cases he
  · cases hmem

end Journal

end DebugAdapter
