import DebugAdapter.Proofs.Session.Inquiries
import DebugAdapter.Proofs.Session.Recording

/-!
# Conversations at a stop

From the time when a stop becomes active the thread answers the questions there as in a conversation
with the interpreter that begins with the graph and the state which the thread has then. So the
requests that put these questions are answered with what the interpreter tells in turn.
-/

namespace DebugAdapter

open Protocol Journal

variable {σ τ : Type} {host : Host σ τ} {sys sys' : System σ τ} {J : List Entry} {stop : Nat}

-- ---------------------------------------------------------------------------
-- Conversations in parts
-- ---------------------------------------------------------------------------

theorem converse_append {it : Interpreter σ} {qs qs' : List Question} {st st'' : StackGraph × σ}
    {shown : List Shown} :
    converse it (qs ++ qs') st = (.ok shown, st'') ↔
      ∃ first st' rest, converse it qs st = (.ok first, st') ∧
        converse it qs' st' = (.ok rest, st'') ∧ shown = first ++ rest := by
  induction qs generalizing st shown with
  | nil =>
    constructor
    · intro h
      exact ⟨[], st, shown, rfl, h, rfl⟩
    · rintro ⟨_, _, rest, ⟨⟩, h, rfl⟩
      exact h
  | cons q qs ih =>
    constructor
    · intro h
      obtain ⟨a, st₁, hq, h⟩ := bind_eq_ok.1 h
      obtain ⟨others, st₂, hrest, h⟩ := bind_eq_ok.1 h
      cases h
      obtain ⟨first, st', rest, hfirst, hlast, rfl⟩ := ih.1 hrest
      have hcons : converse it (q :: qs) st = (.ok (a :: first), st') :=
        bind_eq_ok.2 ⟨a, st₁, hq, bind_eq_ok.2 ⟨first, st', hfirst, rfl⟩⟩
      exact ⟨a :: first, st', rest, hcons, hlast, rfl⟩
    · rintro ⟨_, st', rest, h, hrest, rfl⟩
      obtain ⟨a, st₁, hq, h⟩ := bind_eq_ok.1 h
      obtain ⟨first, st₂, hfirst, h⟩ := bind_eq_ok.1 h
      cases h
      exact bind_eq_ok.2 ⟨a, st₁, hq, bind_eq_ok.2
        ⟨first ++ rest, st'', ih.2 ⟨first, st', rest, hfirst, hrest, rfl⟩, rfl⟩⟩

theorem converse_singleton {it : Interpreter σ} {q : Question} {st st' : StackGraph × σ}
    {shown : List Shown} :
    converse it [q] st = (.ok shown, st') ↔
      ∃ a, q.consult it st = (.ok a, st') ∧ shown = [a] := by
  constructor
  · intro h
    obtain ⟨a, _, hq, h⟩ := bind_eq_ok.1 h
    cases h
    exact ⟨a, hq, rfl⟩
  · rintro ⟨a, hq, rfl⟩
    exact bind_eq_ok.2 ⟨a, st', hq, rfl⟩

theorem length_converse {it : Interpreter σ} {qs : List Question} {st st' : StackGraph × σ}
    {shown : List Shown} (h : converse it qs st = (.ok shown, st')) : shown.length = qs.length := by
  induction qs generalizing st shown with
  | nil =>
    cases h
    rfl
  | cons q qs ih =>
    obtain ⟨a, st₁, -, h⟩ := bind_eq_ok.1 h
    obtain ⟨others, st₂, hrest, h⟩ := bind_eq_ok.1 h
    cases h
    rw [List.length_cons, List.length_cons, ih hrest]

/-- A question that is answered is answered well, or the client has used a wrong number. -/
theorem Question.consult_refuses {it : Interpreter σ} {q : Question} {st st' : StackGraph × σ}
    {a : Shown} (h : q.consult it st = (.ok a, st')) {e : AdapterError}
    (he : a.encode = .error e) :
    (∃ id, e = .unknownFrame id) ∨ ∃ id, e = .unknownVariable id := by
  cases q with
  | stackTrace args =>
    obtain ⟨body, _, -, h⟩ := bind_eq_ok.1 h
    cases h
    cases he
  | scopes args =>
    obtain ⟨r, _, hrun, h⟩ := bind_eq_ok.1 h
    cases h
    obtain ⟨-, hr | ⟨f, -, -, hr⟩ | ⟨f, root, -, -, hr⟩⟩ := StackGraph.scopes_ok hrun
    · rw [hr.2] at he
      cases he
      exact .inl ⟨_, rfl⟩
    · rw [hr] at he
      cases he
    · rw [hr] at he
      cases he
  | values args =>
    obtain ⟨r, _, hrun, h⟩ := bind_eq_ok.1 h
    cases h
    obtain ⟨-, hr | ⟨-, records, hr, -⟩⟩ := StackGraph.variablesOf_ok hrun
    · rw [hr.2] at he
      cases he
      exact .inr ⟨_, rfl⟩
    · rw [hr] at he
      cases he

theorem Outcome.closes_relay {it : Interpreter σ} {q : Question} {st st' : StackGraph × σ}
    {a : Shown} (h : q.consult it st = (.ok a, st')) (r : Request) :
    (Outcome.relay r a.encode).closes = false := by
  cases ha : a.encode with
  | ok body => rfl
  | error e => obtain ⟨id, rfl⟩ | ⟨id, rfl⟩ := Question.consult_refuses h ha <;> rfl

-- ---------------------------------------------------------------------------
-- The thread at a stop
-- ---------------------------------------------------------------------------

inductive Thread.Phase.Holds (stop : Nat) (g : StackGraph) (s : σ) : Thread.Phase σ → Prop
  | announcing (origin : Origin) (body : StoppedBody) :
      Holds stop g s (.announcing origin body stop g s)
  | serving (origin : Origin) (batch : List Question) :
      Holds stop g s (.serving origin stop batch g s)

def Thread.Phase.Fresh : Thread.Phase σ → Prop
  | .installing _ _ g _ | .announcing _ _ _ g _ => g = { minted := g.minted }
  | .idle | .hooked .. | .matching .. | .disarming .. | .serving .. | .leaving .. | .resumed ..
  | .dead _ => True

theorem Journal.fresh_run (host : Host σ τ) (debugger : Debugger) (target : τ)
    (program : List (Item σ)) (moves : List Move) :
    (run host moves { sys := .start debugger target program }).sys.thread.phase.Fresh := by
  refine run_induction (fun sys _ => sys.thread.phase.Fresh) (fun h => h) ?session ?thread
    (show Thread.Phase.Fresh .idle from trivial) moves
  case session =>
    intro sys sys' J h hstep
    rwa [hstep.thread_eq]
  case thread =>
    intro sys sys' J h hstep
    cases hstep with
    | stop | disarm => exact rfl
    | install hp =>
      rw [hp] at h
      exact h
    | event | free | look | hit | meet | miss | matchFault | turnAway | announce | reply
      | serveFault | take | depart | leave | hand | resume | resumeFault => trivial

def Thread.Phase.Away (stop : Nat) (phase : Thread.Phase σ) : Prop :=
  ∀ batch, phase.parkedAt? ≠ some (stop, batch)

def Thread.Phase.Stays (stop : Nat) (st : StackGraph × σ) (J : List Entry)
    (phase : Thread.Phase σ) : Prop :=
  phase.Holds stop st.1 st.2 ∨ phase.Away stop ∧ .released stop ∈ J

theorem Thread.Phase.Stays.of_serving {st : StackGraph × σ} {origin : Origin}
    {batch : List Question} {g : StackGraph} {s : σ}
    (h : Stays stop st J (.serving origin stop batch g s)) : st = (g, s) := by
  obtain hholds | ⟨haway, -⟩ := h
  · cases hholds
    rfl
  · exact absurd rfl (haway _)

/-- The thread has answered the questions at a stop as in a conversation of its own. -/
structure System.Conversing (host : Host σ τ) (stop : Nat) (st₀ : StackGraph × σ)
    (sys : System σ τ) (J : List Entry) : Prop where
  alive : ∀ q, .faulted stop q ∉ J
  answers : ∃ shown st,
    converse host.interpreter ((servicesIn stop J).map Prod.fst) st₀ = (.ok shown, st) ∧
      (servicesIn stop J).map Prod.snd = shown.map Shown.encode ∧
      sys.thread.phase.Stays stop st J

namespace System

variable {st₀ : StackGraph × σ}

theorem Conversing.note {more : List Entry} (h : sys.Conversing host stop st₀ J)
    (hs : servicesIn stop more = []) (hf : ∀ q, .faulted stop q ∉ more)
    (hp : ∀ st, sys.thread.phase.Stays stop st J →
      sys'.thread.phase.Stays stop st (J ++ more)) :
    sys'.Conversing host stop st₀ (J ++ more) := by
  obtain ⟨halive, shown, st, hrun, hreplies, hstays⟩ := h
  refine ⟨fun q hmem => ?_, shown, st, ?_, ?_, hp st hstays⟩
  · exact (List.mem_append.1 hmem).elim (halive q) (hf q)
  · rwa [servicesIn_append, hs, List.append_nil]
  · rwa [servicesIn_append, hs, List.append_nil]

theorem side?_of_sessionEntries {x : Entry} (h : x ∈ sys.sessionEntries) :
    x.side? ≠ some .thread := by
  have hone {y : Entry} (hx : x ∈ [y]) (hy : y.side? ≠ some .thread) :
      x.side? ≠ some .thread := by
    rwa [List.mem_singleton.1 hx]
  unfold sessionEntries at h
  cases hp : sys.session.phase with
  | asking | resuming | answering | finishing =>
    simp only [hp] at h
    exact hone h nofun
  | scheduling | deciding =>
    simp only [hp] at h
    split at h <;> exact hone h nofun
  | following events release closes =>
    cases events with
    | cons e events =>
      simp only [hp] at h
      exact hone h nofun
    | nil =>
      cases release with
      | some stop =>
        simp only [hp] at h
        exact hone h nofun
      | none =>
        simp only [hp] at h
        cases h
  | closing step result =>
    cases step with
    | vacate =>
      simp only [hp] at h
      split at h <;> exact hone h nofun
    | release stop =>
      simp only [hp] at h
      rcases List.mem_cons.1 h with rfl | h
      · nofun
      · exact hone h nofun
    | mark | settle =>
      simp only [hp] at h
      exact hone h nofun
  | reading | handling | awaiting | disconnecting | ended =>
    simp only [hp] at h
    cases h

theorem Conversing.session (h : sys.Conversing host stop st₀ J)
    (hstep : SessionStep host sys sys') :
    sys'.Conversing host stop st₀ (J ++ sys.sessionEntries) := by
  refine h.note (List.filterMap_eq_nil_iff.2 fun x hx => ?_) (fun q hx => ?_) fun st hst => ?_
  · have hside := side?_of_sessionEntries hx
    cases x with
    | served => exact absurd rfl hside
    | _ => rfl
  · exact side?_of_sessionEntries hx rfl
  · rw [hstep.thread_eq]
    exact hst.imp id (And.imp id (List.mem_append_left _))

theorem Conversing.elsewhere (h : sys.Conversing host stop st₀ J) {more : List Entry}
    (hp : sys.thread.phase.Away stop) (hp' : sys'.thread.phase.Away stop)
    (hs : servicesIn stop more = []) (hf : ∀ q, .faulted stop q ∉ more) :
    sys'.Conversing host stop st₀ (J ++ more) := by
  refine h.note hs hf fun st hst => ?_
  obtain hholds | ⟨-, hr⟩ := hst
  · generalize sys.thread.phase = phase at hp hholds
    cases hholds with
    | announcing | serving => exact absurd rfl (hp _)
  · exact .inr ⟨hp', List.mem_append_left _ hr⟩

theorem Conversing.serve {origin : Origin} {q : Question} {batch : List Question}
    {g g' : StackGraph} {s s' : σ} {i : Nat} {reply : Except AdapterError Json}
    (h : sys.Conversing host stop st₀ J)
    (hp : sys.thread.phase = .serving origin i (q :: batch) g s)
    (ha : q.answer host.interpreter (g, s) = (.ok reply, g', s'))
    (hp' : sys'.thread.phase = .serving origin i batch g' s') :
    sys'.Conversing host stop st₀ (J ++ [.served i q reply]) := by
  by_cases hi : i = stop
  case neg =>
    refine h.elsewhere ?_ ?_ (by simp [Entry.service?, hi]) (by simp)
    · rw [hp]
      rintro batch' ⟨⟩
      exact hi rfl
    · rw [hp']
      rintro batch' ⟨⟩
      exact hi rfl
  case pos =>
    subst hi
    obtain ⟨halive, shown, st, hrun, hreplies, hstays⟩ := h
    rw [hp] at hstays
    obtain rfl := hstays.of_serving
    rw [Question.answer_eq] at ha
    obtain ⟨a, hconsult, rfl⟩ : ∃ a, q.consult host.interpreter (g, s) = (.ok a, g', s') ∧
        a.encode = reply := by
      cases hc : q.consult host.interpreter (g, s) with
      | mk r st =>
        rw [hc] at ha
        cases r with
        | ok a =>
          cases ha
          exact ⟨a, rfl, rfl⟩
        | error fault => cases ha
    refine ⟨fun q' hmem => ?alive, shown ++ [a], (g', s'), ?converse, ?replies, .inl ?holds⟩
    case alive =>
      obtain hmem | hmem := List.mem_append.1 hmem
      · exact halive q' hmem
      · cases List.mem_singleton.1 hmem
    case converse =>
      rw [servicesIn_append, servicesIn_singleton, List.map_append, Entry.service?, if_pos rfl]
      have hlast : converse host.interpreter [q] (g, s) = (.ok [a], g', s') :=
        converse_singleton.2 ⟨a, hconsult, rfl⟩
      exact converse_append.2 ⟨shown, (g, s), [a], hrun, hlast, rfl⟩
    case replies =>
      rw [servicesIn_append, servicesIn_singleton, List.map_append, Entry.service?, if_pos rfl,
        hreplies, List.map_append]
      rfl
    case holds =>
      rw [hp']
      exact .serving origin batch

theorem Conversing.not_faulted {origin : Origin} {q : Question} {batch : List Question}
    {g g' : StackGraph} {s s' : σ} {fault : Fault} (h : sys.Conversing host stop st₀ J)
    (hs : host.interpreter.Returns st₀.2) (hg : st₀.1.Closed)
    (hp : sys.thread.phase = .serving origin stop (q :: batch) g s) :
    q.answer host.interpreter (g, s) ≠ (.error fault, g', s') := by
  intro ha
  obtain ⟨-, shown, st, hrun, -, hstays⟩ := h
  rw [hp] at hstays
  obtain rfl := hstays.of_serving
  have hgrow := converse_grows hrun
  obtain ⟨⟨reply, hr⟩, -⟩ :=
    Question.answer_returns (hgrow.returns hs) (hgrow.closed_retains hg).1 ha
  cases hr

theorem Conversing.thread (h : sys.Conversing host stop st₀ J) (hkept : sys.Kept J)
    (hs : host.interpreter.Returns st₀.2) (hg : st₀.1.Closed) (hlt : stop < stopsIn J)
    (hstep : ThreadStep host sys sys') :
    sys'.Conversing host stop st₀ (J ++ sys.threadEntries sys') := by
  cases hstep with
  | event hp | free hp | look hp | hit hp | meet hp | miss hp | hand hp | resume hp | matchFault hp
    | resumeFault hp | stop hp | disarm hp | turnAway hp | leave hp =>
    refine h.elsewhere ?_ ?_ ?_ ?_
    all_goals simp [threadEntries, hp, move, finish, Thread.Phase.Away,
      Thread.Phase.parkedAt?, Entry.service?]
  | install hp hi =>
    obtain ⟨-, rfl, -⟩ := Handle.install_eq_some hi
    have hne : sys.handle.stops.length ≠ stop := by
      rw [hkept.depicts.count]
      exact Nat.ne_of_gt hlt
    refine h.elsewhere ?_ ?_ ?_ ?_
    all_goals simp [threadEntries, hp, move, Thread.Phase.Away, Thread.Phase.parkedAt?,
      Entry.service?, hne]
  | @announce origin body i g s hp =>
    refine h.note ?faults ?services fun st hst => ?stays
    case faults | services => simp [threadEntries, hp, move, Entry.service?]
    case stays =>
      rw [hp] at hst
      obtain hholds | ⟨haway, hr⟩ := hst
      · cases hholds
        exact .inl (.serving origin [])
      · exact .inr ⟨haway, List.mem_append_left _ hr⟩
  | @take origin i g s batch h' hp ht =>
    refine h.note ?faults ?services fun st hst => ?stays
    case faults | services => simp [threadEntries, hp, move]
    case stays =>
      rw [hp] at hst
      obtain hholds | ⟨haway, hr⟩ := hst
      · cases hholds
        exact .inl (.serving origin batch)
      · refine .inr ⟨?_, List.mem_append_left _ hr⟩
        rintro batch' ⟨⟩
        exact haway _ rfl
  | @depart origin i g s h' hp ht =>
    refine h.note ?faults ?services fun st hst => .inr ⟨?away, List.mem_append_left _ ?released⟩
    case faults | services => simp [threadEntries, hp, move]
    case away => simp [move, Thread.Phase.Away, Thread.Phase.parkedAt?]
    case released =>
      have hparks := hkept.thread
      rw [hp] at hst hparks
      obtain hholds | ⟨-, hr⟩ := hst
      · cases hholds
        have hd := (Handle.take_leave ht).1 (hkept.lt_length_of_parks hparks)
        exact (hkept.depicts.disposed _).1 hd
      · exact hr
  | reply hp ha =>
    simp only [threadEntries, hp, move, Option.toList_some, List.map_cons, List.map_nil]
    exact h.serve hp ha rfl
  | @serveFault origin i q batch g g' s s' fault hp ha =>
    have hi : i ≠ stop := by
      rintro rfl
      exact h.not_faulted hs hg hp ha
    refine h.elsewhere ?_ ?_ ?_ ?_
    all_goals simp [threadEntries, hp, move, Thread.Phase.Away, Thread.Phase.parkedAt?,
      Entry.service?, hi, Ne.symm hi]

theorem Kept.not_resting (h : sys.Kept J) (hparked : sys.Parked) {r : Request} {q : Question}
    (hl : lastOf .session J = some (.accepted r (.inspect q) stop)) : ¬ sys.Resting host := by
  intro hrest
  have hagrees := h.session
  obtain ⟨reader, hp, -⟩ | ⟨r', hp, hr⟩ | ⟨result, hp⟩ := waiting_of_stepSession (hrest .session)
  · rw [hp] at hagrees
    have hu : Unengaged (lastOf .session J) := hagrees
    rw [hl] at hu
    cases hu
  · exact hparked.not_resting hp hr (hrest .thread)
  · rw [hp] at hagrees
    have hu : Unengaged (lastOf .session J) := hagrees
    rw [hl] at hu
    cases hu

theorem Kept.announcing {place : Option Nat}
    (h : sys.Kept (J ++ [Entry.installed stop place])) :
    ∃ origin body g s, sys.thread.phase = .announcing origin body stop g s := by
  have hagrees := h.thread
  have hl : lastOf .thread (J ++ [Entry.installed stop place]) = some (.installed stop place) :=
    lastOf_append_own rfl
  cases hp : sys.thread.phase with
  | announcing origin body i g s =>
    rw [hp] at hagrees
    obtain ⟨place', hl'⟩ := hagrees
    cases hl.symm.trans hl'
    exact ⟨origin, body, g, s, rfl⟩
  | idle | hooked | matching | disarming | resumed | serving =>
    rw [hp] at hagrees
    simp only [Thread.Phase.Agrees, hl] at hagrees
    cases hagrees
  | installing =>
    rw [hp] at hagrees
    cases hl.symm.trans hagrees
  | leaving =>
    rw [hp] at hagrees
    have hparks := hagrees.1
    rw [hl] at hparks
    cases hparks
  | dead s =>
    rw [hp] at hagrees
    obtain hroams | ⟨i, q, hl'⟩ := hagrees
    · rw [hl] at hroams
      cases hroams
    · cases hl.symm.trans hl'

end System

-- ---------------------------------------------------------------------------
-- From the beginning of a stop
-- ---------------------------------------------------------------------------

/-- A stop has just become active, and the interpreter will answer there. -/
structure Journal.Opens (host : Host σ τ) (stop : Nat) (st₀ : StackGraph × σ) (c : Journal σ τ) :
    Prop where
  kept : c.sys.Kept c.entries
  last : ∃ old place, c.entries = old ++ [.installed stop place]
  holds : c.sys.thread.phase.Holds stop st₀.1 st₀.2
  returns : host.interpreter.Returns st₀.2
  closed : st₀.1.Closed

namespace Journal

variable {c : Journal σ τ} {st₀ : StackGraph × σ} {moves : List Move} {new : List Entry}

/-- In every run that goes on from there the thread holds its conversation. -/
theorem Opens.conversing (h : c.Opens host stop st₀) (moves : List Move) :
    (c.run host moves).sys.Conversing host stop st₀ (c.run host moves).entries := by
  obtain ⟨hkept, ⟨old, place, hentries⟩, hholds, hs, hg⟩ := h
  have hregular := hkept.regular
  rw [hentries] at hregular
  have hservices := hregular.quiet.2
  rw [← hentries] at hservices
  have hstart : c.sys.Conversing host stop st₀ c.entries := by
    refine ⟨fun q hq => ?_, [], st₀, ?_, ?_, .inl hholds⟩
    · rw [hentries] at hq
      obtain hq | hq := List.mem_append.1 hq
      · exact hregular.stop?_ne hq rfl
      · cases List.mem_singleton.1 hq
    · rw [hservices]
      rfl
    · rw [hservices]
      rfl
  have hlt : stop < stopsIn c.entries :=
    hkept.regular.lt_stopsIn (x := .installed stop place) (by simp [hentries]) rfl
  refine (run_induction
    (fun sys J => (sys.Kept J ∧ stop < stopsIn J) ∧ sys.Conversing host stop st₀ J)
    ?reader ?session ?thread ⟨⟨hkept, hlt⟩, hstart⟩ moves).2
  case reader =>
    rintro sys J reader ⟨⟨hk, hlt⟩, hc⟩
    exact ⟨⟨hk.quiet rfl rfl hk.session hk.reply, hlt⟩, ⟨hc.alive, hc.answers⟩⟩
  case session =>
    rintro sys sys' J ⟨⟨hk, hlt⟩, hc⟩ hstep
    exact ⟨⟨hk.session_step hstep, Nat.lt_of_lt_of_le hlt stopsIn_le_append⟩, hc.session hstep⟩
  case thread =>
    rintro sys sys' J ⟨⟨hk, hlt⟩, hc⟩ hstep
    exact ⟨⟨hk.thread_step hstep, Nat.lt_of_lt_of_le hlt stopsIn_le_append⟩,
      hc.thread hk hs hg hlt hstep⟩

theorem Opens.recording {g : StackGraph} {s : σ} (h : c.Opens host stop (g, s)) :
    c.recording.Opens host.recording stop (g, s, []) where
  kept := h.kept.map _
  last := h.last
  holds := by
    have hholds := h.holds
    change (c.sys.thread.phase.map _).Holds stop g (s, [])
    generalize c.sys.thread.phase = phase at hholds
    cases hholds with
    | announcing origin body => exact .announcing origin body
    | serving origin batch => exact .serving origin batch
  returns := host.covers_recording.interpreter.returns h.returns
  closed := h.closed

theorem Opens.inquiries (h : c.Opens host stop st₀) (new : List Entry) :
    inquiriesIn stop (c.entries ++ new) = inquiriesIn stop new := by
  obtain ⟨old, place, hentries⟩ := h.last
  have hregular := h.kept.regular
  rw [hentries] at hregular
  rw [inquiriesIn_append, hentries, hregular.quiet.1, List.nil_append]

theorem Opens.lasts (h : c.Opens host stop st₀) (hregular : Regular (c.entries ++ new))
    (hl : Lasts stop new) : Lasts stop (c.entries ++ new) := by
  obtain ⟨old, place, hentries⟩ := h.last
  rw [hentries, List.append_assoc] at hregular ⊢
  exact hregular.lasts hl

theorem Opens.active (h : c.Opens host stop st₀) (hregular : Regular (c.entries ++ new))
    (hl : Lasts stop new) : activeIn (c.entries ++ new) = some stop := by
  have hlasts := h.lasts hregular hl
  obtain ⟨old, place, hentries⟩ := h.last
  have hmem : .installed stop place ∈ c.entries ++ new := by simp [hentries]
  exact hregular.active_of_lasts hmem hlasts

theorem Opens.holds_run (h : c.Opens host stop st₀)
    (hnew : (c.run host moves).entries = c.entries ++ new) (hl : Lasts stop new) :
    ∃ asked waiting st, inquiriesIn stop new = asked ++ waiting ∧ waiting.length ≤ 1 ∧
      (Unengaged (lastOf .session (c.entries ++ new)) → waiting = []) ∧
      (converse host.interpreter asked st₀).2 = st ∧
      (c.run host moves).sys.thread.phase.Holds stop st.1 st.2 := by
  have hregular := (kept_run host h.kept moves).regular
  obtain ⟨halive, shown, st, hrun, -, hstays⟩ := h.conversing moves
  rw [hnew] at hregular halive hrun hstays
  have hnot := hregular.not_released_of_lasts (h.lasts hregular hl)
  have hquestions := hregular.inquiries hnot halive
  rw [h.inquiries] at hquestions
  refine ⟨_, _, st, hquestions, length_waitingIn_le, Unengaged.waitingIn, ?_, ?_⟩
  · rw [hrun]
  · exact hstays.resolve_right fun hr => hnot hr.2

end Journal

-- ---------------------------------------------------------------------------
-- Answers
-- ---------------------------------------------------------------------------

theorem System.Conversing.answer_eq {st₀ st : StackGraph × σ} {before mid after : List Entry}
    {r : Request} {q : Question} {o : Outcome} {first : List Shown} {a : Shown}
    (h : sys.Conversing host stop st₀
      (before ++ .found r (.inspect q) (some stop) :: mid ++ .answered o :: after))
    (hregular : Regular
      (before ++ .found r (.inspect q) (some stop) :: mid ++ .answered o :: after))
    (hreleased : .released stop ∉ before) (hnone : ∀ x ∈ mid, x.answer? = none)
    (hrun : converse host.interpreter (inquiriesIn stop before ++ [q]) st₀ =
      (.ok (first ++ [a]), st)) : o = .relay r a.encode := by
  obtain ⟨reply, rfl, hserved, hquestions⟩ := hregular.replied hreleased
    (fun q' hmem => h.alive q' (List.mem_append_left _ hmem)) hnone
  obtain ⟨shown, st', hall, hreplies, -⟩ := h.answers
  rw [servicesIn_append, hserved, List.map_append, List.map_append] at hall hreplies
  rw [hquestions] at hall
  obtain ⟨told, st₁, more, htold, -, rfl⟩ := converse_append.1 hall
  cases hrun.symm.trans htold
  -- as many replies as questions, so the two last ones are the same
  have hlength : (servicesIn stop before).length = first.length := by
    have hcount := length_converse hrun
    rw [← hquestions] at hcount
    simpa using hcount.symm
  rw [List.map_append, List.map_append] at hreplies
  obtain ⟨hfirst, -⟩ := List.append_inj hreplies (by simp [hlength])
  obtain ⟨-, hlast⟩ := List.append_inj' hfirst rfl
  cases hlast
  rfl

namespace Journal

variable {c : Journal σ τ} {st₀ : StackGraph × σ} {moves : List Move}

/-- A question that finds the stop while it lasts is answered as in the conversation. -/
theorem Opens.answers (h : c.Opens host stop st₀)
    (hparked : (∀ s, (c.run host moves).sys.thread.phase ≠ .dead s) →
      (c.run host moves).sys.Parked)
    {as bs : List Entry} {r : Request} {q : Question} {place : Option Nat}
    (hfound : (c.run host moves).entries = c.entries ++ as ++ .found r (.inspect q) place :: bs)
    (hl : Lasts stop as) :
    place = some stop ∧ ∃ shown a st,
      converse host.interpreter (inquiriesIn stop as ++ [q]) st₀ = (.ok (shown ++ [a]), st) ∧
        Yields host (c.run host moves).sys bs (.relay r a.encode) ∧
        (Outcome.relay r a.encode).closes = false := by
  have hkept := kept_run host h.kept moves
  have hconversing := h.conversing moves
  rw [hfound] at hkept hconversing
  have hregular := hkept.regular
  have hbefore := hregular.prefix
  have hreleased := hbefore.not_released_of_lasts (h.lasts hbefore hl)
  obtain rfl : place = some stop := hregular.of_found.2.trans (h.active hbefore hl)
  obtain ⟨told, st, hrun⟩ :=
    converse_returns st₀ h.returns h.closed (inquiriesIn stop as ++ [q])
  obtain ⟨shown, st₁, last, hfirst, hlast, rfl⟩ := converse_append.1 hrun
  obtain ⟨a, hconsult, rfl⟩ := converse_singleton.1 hlast
  have honly (o : Outcome) (ho : bs.findSome? Entry.answer? = some o) : o = .relay r a.encode := by
    obtain ⟨mid, x, after, rfl, hx, hnone⟩ := List.findSome?_eq_some_iff.1 ho
    obtain rfl : x = .answered o := by
      cases x <;> cases hx
      rfl
    rw [← List.cons_append, ← List.append_assoc] at hregular hconversing
    rw [← h.inquiries] at hrun
    exact hconversing.answer_eq hregular hreleased hnone hrun
  refine ⟨rfl, shown, a, st, hrun, ⟨honly, System.settles host _, fun hrest => ?_⟩,
    Outcome.closes_relay hconsult r⟩
  obtain ⟨o, ho⟩ | ⟨q', _, ⟨⟩, ⟨⟩, -, hlast⟩ := hkept.answered_of_resting (hrest .session)
  · rw [ho, honly o ho]
  · -- the thread is alive and parked, so it would go on
    have hlast' : lastOf .session
        (c.entries ++ as ++ Entry.found r (.inspect q) (some stop) :: bs) =
        some (.accepted r (.inspect q) stop) := by
      rw [List.append_cons]
      exact lastOf_append_of_some hlast
    have halive (s : σ) : (c.run host moves).sys.thread.phase ≠ .dead s := by
      intro hp
      obtain ⟨-, shown', st', -, -, hholds | ⟨-, hr⟩⟩ := hconversing
      · rw [hp] at hholds
        cases hholds
      · exact hregular.not_released hlast' hr
    exact absurd hrest (hkept.not_resting (hparked halive) hlast')

end Journal

end DebugAdapter
