import DebugAdapter.Proofs.Session.Aside
import DebugAdapter.Proofs.Session.Closing
import DebugAdapter.Proofs.Session.Discipline

/-!
# Failed requests

A request that fails leaves everything as it would be without it. Only a question that kills the
thread leaves something behind: the dead thread, and the numbers that it had given out. After a
violation of the contract the session reads on; after any other error it closes, lets go of the stop
that is active, and tells the debugger that the client has gone.
-/

namespace DebugAdapter

open Protocol Journal

variable {σ τ : Type} {host : Host σ τ} {sys sys' aside : System σ τ} {J : List Entry}
  {r : Request} {o : Outcome}

theorem Differs.of_answering (h : Differs host r aside sys)
    (hp : sys.session.phase = .answering o) (hf : o.response.success = false) :
    (∃ target, Fails host r aside.target o target ∧
        sys = aside.beside (.answering o) target aside.reply) ∨
      ∃ dead, Dies host r aside dead ∧ o = .refusal r .stopEnded ∧
        sys = dead.beside (.answering o) dead.target dead.reply := by
  cases h with
  | looking hl => cases hl <;> cases hp
  | waiting | taken | replied | died => cases hp
  | failed hfails =>
    cases hp
    exact .inl ⟨_, hfails, rfl⟩
  | answered hdead =>
    cases hp
    exact .inr ⟨_, hdead, rfl, rfl⟩
  | granted hg =>
    cases hg with
    | replied hp' => cases hp.symm.trans hp'
    | answering hp' ho =>
      cases hp.symm.trans hp'
      cases hf.symm.trans ho

theorem Fails.plain {target target' : τ} (h : Fails host r target o target') :
    o.events = [] ∧ o.release = none := by
  cases h <;> exact ⟨rfl, rfl⟩

-- ---------------------------------------------------------------------------
-- After the answer
-- ---------------------------------------------------------------------------

/-- All that a step of the session changes behind a failed request. -/
structure Tidies (closes : Bool) (sys sys' : System σ τ) : Prop where
  thread : sys'.thread = sys.thread
  target : sys'.target = sys.target
  debugger : sys'.debugger = sys.debugger ∨
    closes = true ∧ sys'.debugger = sys.debugger.disconnect
  active : sys'.handle.active = sys.handle.active ∨ closes = true ∧ sys'.handle.active = none
  decision : ∀ i, sys'.handle.decisionAt i = sys.handle.decisionAt i ∨
    closes = true ∧ sys.handle.decisionAt i = none ∧ sys'.handle.decisionAt i = some .detach
  disposed : ∀ i, sys'.handle.disposedAt i = sys.handle.disposedAt i ∨
    closes = true ∧ sys'.handle.disposedAt i = true
  queue : ∀ i, sys'.handle.queueAt i = sys.handle.queueAt i
  closed : sys'.handle.closed = sys.handle.closed ∨ closes = true ∧ sys'.handle.closed = true

theorem Tidies.quiet {closes : Bool} {h : Handle} {phase : Session.Phase}
    (hs : h.stops = sys.handle.stops) (ha : h.active = sys.handle.active)
    (hc : h.closed = sys.handle.closed) :
    Tidies closes sys ({ sys with handle := h }.enter phase) where
  thread := rfl
  target := rfl
  debugger := .inl rfl
  active := .inl ha
  decision i := .inl ((Handle.Alike.of_stops_eq hs).decision i)
  disposed i := .inl ((Handle.Alike.of_stops_eq hs).disposed i)
  queue := (Handle.Alike.of_stops_eq hs).queue
  closed := .inl hc

/-- A session on its way from a failed request to the next one, or to its end. -/
inductive Winding (o : Outcome) (J : List Entry) (sys : System σ τ) : Prop
  | answering : sys.session.phase = .answering o → Winding o J sys
  | following : sys.session.phase = .following [] none o.closes → Winding o J sys
  | closing {step : Closing} : o.closes = true → sys.session.phase = .closing step none →
      Winding o J sys
  | shut : o.closes = true → .closed ∈ J → sys.session.phase = .reading → Winding o J sys
  | again {step : Closing} : o.closes = true → .closed ∈ J →
      sys.session.phase = .closing step (some (.ok ())) → Winding o J sys
  | leaving : o.closes = true → .closed ∈ J → sys.session.phase = .disconnecting (.ok ()) →
      Winding o J sys
  | finishing : o.closes = true → .closed ∈ J → sys.session.phase = .finishing (.ok ()) →
      Winding o J sys
  | ended : o.closes = true → .closed ∈ J → sys.session.phase = .ended (.ok ()) → Winding o J sys

namespace System

theorem Kept.closed_of_mem (h : sys.Kept J) (hmem : .closed ∈ J) : sys.handle.closed = true := by
  obtain ⟨before, after, rfl⟩ := List.append_of_mem hmem
  exact h.depicts.closed.2 (List.mem_append_left _ h.regular.of_closed.1)

theorem Kept.tidies_closing (h : sys.Kept J) {step : Closing}
    {result : Option (Except AdapterError Unit)} (hp : sys.session.phase = .closing step result)
    (hstep : sys.stepSession host = some sys') : Tidies true sys sys' := by
  have hagrees := h.session
  rw [hp] at hagrees
  cases step with
  | mark =>
    simp only [stepSession, hp] at hstep
    cases hstep
    exact ⟨rfl, rfl, .inl rfl, .inl rfl, fun _ => .inl rfl, fun _ => .inl rfl, fun _ => rfl,
      .inr ⟨rfl, rfl⟩⟩
  | vacate =>
    have hvacated : sys' = { sys with handle := { sys.handle with active := none } }.enter
        sys'.session.phase := by
      simp only [stepSession, hp] at hstep
      split at hstep
      · rename_i hv
        cases hstep
        rw [(Handle.vacate_eq hv).2]
        rfl
      · rename_i hv
        cases hstep
        rw [(Handle.vacate_eq hv).2]
        cases result <;> rfl
    rw [hvacated]
    exact ⟨rfl, rfl, .inl rfl, .inr ⟨rfl, rfl⟩, fun _ => .inl rfl, fun _ => .inl rfl, fun _ => rfl,
      .inl rfl⟩
  | settle stop =>
    obtain ⟨hd, hr, hq⟩ := Handle.settle_eq (h.lt_length hagrees.1 rfl)
    simp only [stepSession, hp] at hstep
    cases hstep
    refine ⟨rfl, rfl, .inl rfl, .inl rfl, fun i => ?_, fun i => .inl (hr i), hq, .inl rfl⟩
    change (sys.handle.settle stop).decisionAt i = _ ∨
      _ ∧ _ ∧ (sys.handle.settle stop).decisionAt i = _
    rw [hd]
    split
    · cases hi : sys.handle.decisionAt i with
      | none => exact .inr ⟨rfl, rfl, rfl⟩
      | some d => exact .inl rfl
    · exact .inl rfl
  | release stop =>
    obtain ⟨hd, hr, hq⟩ := Handle.release_eq (h.lt_length hagrees.1 rfl)
    have hreleased : sys' = { sys with handle := sys.handle.release stop }.enter
        sys'.session.phase := by
      simp only [stepSession, hp] at hstep
      cases hstep
      cases result <;> rfl
    rw [hreleased]
    refine ⟨rfl, rfl, .inl rfl, .inl rfl, fun i => .inl (hd i), fun i => ?_, hq, .inl rfl⟩
    change (sys.handle.release stop).disposedAt i = _ ∨
      _ ∧ (sys.handle.release stop).disposedAt i = _
    rw [hr]
    cases i == stop with
    | true => exact .inr ⟨rfl, Bool.or_true _⟩
    | false => exact .inl (Bool.or_false _)

end System

theorem System.closed_winding {result : Option (Except AdapterError Unit)} (hc : o.closes = true)
    (hmem : .closed ∈ J) (hresult : result = none ∨ result = some (.ok ())) :
    Winding o J (sys.closed result) := by
  obtain rfl | rfl := hresult
  · exact .shut hc hmem rfl
  · exact .leaving hc hmem rfl

theorem System.closing_winding {step : Closing} {result : Option (Except AdapterError Unit)}
    (hc : o.closes = true) (hresult : result = none ∨ result = some (.ok ()) ∧ .closed ∈ J)
    (hp : sys.session.phase = .closing step result)
    (hstep : sys.stepSession host = some sys') : Winding o (J ++ sys.sessionEntries) sys' := by
  have hnext {J' : List Entry} {step' : Closing} {sys' : System σ τ}
      (hp' : sys'.session.phase = .closing step' result) : Winding o (J ++ J') sys' := by
    obtain rfl | ⟨rfl, hmem⟩ := hresult
    · exact .closing hc hp'
    · exact .again hc (List.mem_append_left _ hmem) hp'
  have hplain : result = none ∨ result = some (.ok ()) := hresult.imp_right And.left
  cases step with
  | mark =>
    simp only [stepSession, hp] at hstep
    cases hstep
    exact hnext rfl
  | vacate =>
    simp only [stepSession, hp] at hstep
    split at hstep
    · cases hstep
      exact hnext rfl
    · rename_i hv
      cases hstep
      refine closed_winding hc (List.mem_append_right _ ?_) hplain
      simp [sessionEntries, hp, (Handle.vacate_eq hv).1]
  | settle stop =>
    simp only [stepSession, hp] at hstep
    cases hstep
    exact hnext rfl
  | release stop =>
    simp only [stepSession, hp] at hstep
    cases hstep
    refine closed_winding hc (List.mem_append_right _ ?_) hplain
    simp [sessionEntries, hp]

/-- Behind a failed request the session goes back to reading, or winds up. -/
theorem Winding.session (h : Winding o J sys) (hplain : o.events = [] ∧ o.release = none)
    (hkept : sys.Kept J) (hstep : sys.stepSession host = some sys') :
    Tidies o.closes sys sys' ∧
      (o.closes = false ∧ sys'.session.phase = .reading ∨
        Winding o (J ++ sys.sessionEntries) sys') := by
  cases h with
  | answering hp =>
    simp only [System.stepSession, hp] at hstep
    cases hstep
    refine ⟨.quiet rfl rfl rfl, .inr (.following ?_)⟩
    rw [hplain.1, hplain.2]
    rfl
  | following hp =>
    cases hc : o.closes with
    | false =>
      rw [hc] at hp
      simp only [System.stepSession, hp] at hstep
      cases hstep
      exact ⟨.quiet rfl rfl rfl, .inl ⟨rfl, rfl⟩⟩
    | true =>
      rw [hc] at hp
      simp only [System.stepSession, hp] at hstep
      cases hstep
      exact ⟨.quiet rfl rfl rfl, .inr (.closing hc rfl)⟩
  | closing hc hp =>
    rw [hc]
    exact ⟨hkept.tidies_closing hp hstep, .inr (System.closing_winding hc (.inl rfl) hp hstep)⟩
  | again hc hmem hp =>
    rw [hc]
    exact ⟨hkept.tidies_closing hp hstep,
      .inr (System.closing_winding hc (.inr ⟨rfl, hmem⟩) hp hstep)⟩
  | shut hc hmem hp =>
    simp only [System.stepSession, hp, System.read, hkept.closed_of_mem hmem, if_true] at hstep
    cases hstep
    exact ⟨.quiet rfl rfl rfl, .inr (.again hc (List.mem_append_left _ hmem) rfl)⟩
  | leaving hc hmem hp =>
    simp only [System.stepSession, hp] at hstep
    cases hstep
    refine ⟨⟨rfl, rfl, ?_, .inl rfl, fun _ => .inl rfl, fun _ => .inl rfl, fun _ => rfl, .inl rfl⟩,
      .inr (.finishing hc (List.mem_append_left _ hmem) rfl)⟩
    cases sys.session.disconnected with
    | true => exact .inl rfl
    | false => exact .inr ⟨hc, rfl⟩
  | finishing hc hmem hp =>
    simp only [System.stepSession, hp] at hstep
    cases hstep
    exact ⟨.quiet rfl rfl rfl, .inr (.ended hc (List.mem_append_left _ hmem) rfl)⟩
  | ended hc hmem hp =>
    simp only [System.stepSession, hp] at hstep
    cases hstep

theorem Winding.of_waiting (h : Winding o J sys) (hkept : sys.Kept J)
    (hrest : sys.stepSession host = none) :
    o.closes = true ∧ .closed ∈ J ∧ sys.session.phase = .ended (.ok ()) := by
  cases h with
  | ended hc hmem hp => exact ⟨hc, hmem, hp⟩
  | shut hc hmem hp =>
    simp only [System.stepSession, hp, System.read, hkept.closed_of_mem hmem, if_true] at hrest
    cases hrest
  | answering hp | following hp | closing _ hp | again _ _ hp | leaving _ _ hp
    | finishing _ _ hp =>
    obtain ⟨_, hp', -⟩ | ⟨_, hp', -⟩ | ⟨_, hp'⟩ := System.waiting_of_stepSession hrest
    · cases hp.symm.trans hp'
    · cases hp.symm.trans hp'
    · cases hp.symm.trans hp'

theorem Winding.not_accepted (h : Winding o J sys) (r : Request) (errand : Errand) (stop : Nat) :
    .accepted r errand stop ∉ sys.sessionEntries := by
  unfold System.sessionEntries
  cases h with
  | answering hp | following hp | shut _ _ hp | leaving _ _ hp | finishing _ _ hp
    | ended _ _ hp =>
    rw [hp]
    simp
  | @closing step _ hp | @again step _ _ hp =>
    rw [hp]
    cases step with
    | vacate => cases sys.handle.active <;> simp
    | mark | settle | release => simp

theorem System.not_accepted_of_thread {r : Request} {errand : Errand} {stop : Nat} :
    .accepted r errand stop ∉ sys.threadEntries sys' := by
  unfold System.threadEntries
  split <;> simp

theorem Winding.outside (h : Winding o J sys) (hp : sys'.session.phase = sys.session.phase)
    (more : List Entry) : Winding o (J ++ more) sys' := by
  cases h with
  | answering hp' => exact .answering (hp.trans hp')
  | following hp' => exact .following (hp.trans hp')
  | closing hc hp' => exact .closing hc (hp.trans hp')
  | shut hc hmem hp' => exact .shut hc (List.mem_append_left _ hmem) (hp.trans hp')
  | again hc hmem hp' => exact .again hc (List.mem_append_left _ hmem) (hp.trans hp')
  | leaving hc hmem hp' => exact .leaving hc (List.mem_append_left _ hmem) (hp.trans hp')
  | finishing hc hmem hp' => exact .finishing hc (List.mem_append_left _ hmem) (hp.trans hp')
  | ended hc hmem hp' => exact .ended hc (List.mem_append_left _ hmem) (hp.trans hp')

namespace Journal

variable {c : Journal σ τ}

def AcceptsNone (new : List Entry) : Prop :=
  ∀ r errand stop, .accepted r errand stop ∉ new

theorem winding_play (h : Winding o c.entries c.sys) (hplain : o.events = [] ∧ o.release = none)
    (hkept : c.sys.Kept c.entries) (move : Move) :
    o.closes = false ∧ (c.play host move).sys.session.phase = .reading ∨
      Winding o (c.play host move).entries (c.play host move).sys ∧
        ∃ new, (c.play host move).entries = c.entries ++ new ∧ AcceptsNone new := by
  cases move with
  | arrive arrivals =>
    refine .inr ⟨h.outside ?_ _, [], rfl, fun r errand stop => List.not_mem_nil⟩
    exact congrArg (·.session.phase) (System.play_arrive host c.sys arrivals)
  | hangUp =>
    refine .inr ⟨h.outside ?_ _, [], rfl, fun r errand stop => List.not_mem_nil⟩
    rfl
  | step side =>
    cases side with
    | session =>
      cases hstep : c.sys.stepSession host with
      | none =>
        have hplay : c.sys.play host (.step .session) = c.sys := System.play_waiting hstep
        refine .inr ⟨?_, _, rfl, h.not_accepted⟩
        rw [play, hplay]
        exact h.outside rfl _
      | some next =>
        have hplay : c.sys.play host (.step .session) = next := System.play_step hstep
        obtain ⟨-, hback | hwinding⟩ := h.session hplain hkept hstep
        · refine .inl ⟨hback.1, ?_⟩
          rw [play, hplay]
          exact hback.2
        · refine .inr ⟨?_, _, rfl, h.not_accepted⟩
          rw [play, hplay]
          exact hwinding
    | thread =>
      refine .inr ⟨h.outside ?_ _, _, rfl, fun r errand stop => System.not_accepted_of_thread⟩
      exact congrArg (·.phase) (System.session_play_thread host c.sys)

/-- Somewhere on the way the session is back to look for the next request. -/
def IsBack (host : Host σ τ) (c : Journal σ τ) (moves : List Move) : Prop :=
  ∃ first, first <+: moves ∧ (c.run host first).sys.session.phase = .reading

theorem winding_run (h : Winding o c.entries c.sys) (hplain : o.events = [] ∧ o.release = none)
    (hkept : c.sys.Kept c.entries) (moves : List Move) :
    o.closes = false ∧ IsBack host c moves ∨
      Winding o (c.run host moves).entries (c.run host moves).sys ∧
        ∃ new, (c.run host moves).entries = c.entries ++ new ∧ AcceptsNone new := by
  induction moves generalizing c with
  | nil =>
    exact .inr ⟨h, [], (List.append_nil _).symm, fun r errand stop => List.not_mem_nil⟩
  | cons move moves ih =>
    obtain ⟨hc, hback⟩ | ⟨hwinding, first, hfirst, hnone⟩ := winding_play h hplain hkept move
    · exact .inl ⟨hc, [move], List.prefix_cons_inj move |>.2 (List.nil_prefix), hback⟩
    · obtain ⟨hc, before, hprefix, hback⟩ | ⟨hwinding, rest, hrest, hnone'⟩ :=
        ih hwinding (kept_run host hkept [move])
      · exact .inl ⟨hc, move :: before, List.prefix_cons_inj move |>.2 hprefix, hback⟩
      · refine .inr ⟨hwinding, first ++ rest, ?_, fun r errand stop hmem => ?_⟩
        · rw [← List.append_assoc, ← hfirst]
          exact hrest
        · obtain hmem | hmem := List.mem_append.1 hmem
          · exact hnone r errand stop hmem
          · exact hnone' r errand stop hmem

end Journal

-- ---------------------------------------------------------------------------
-- What closing does
-- ---------------------------------------------------------------------------

theorem System.Kept.lt_length_of_active (h : sys.Kept J) {stop : Nat}
    (ha : sys.handle.active = some stop) : stop < sys.handle.stops.length := by
  rw [h.depicts.active] at ha
  have hplace := h.regular.place_of_active ha
  obtain ⟨x, hl, hx⟩ := Option.bind_eq_some_iff.1 hplace
  refine h.lt_length hl ?_
  cases x <;> cases hx <;> rfl

/-- A stop that was active when a request failed is let go by the closing session, and detached if
it was not decided. -/
theorem Journal.letGo_of_ended {c d : Journal σ τ} (hc : c.sys.Kept c.entries)
    (hd : d.sys.Kept d.entries) {new : List Entry} (hnew : d.entries = c.entries ++ new)
    (hnone : AcceptsNone new) (hclosed : .closed ∈ d.entries) {stop : Nat}
    (ha : c.sys.handle.active = some stop) :
    d.sys.handle.decisionAt stop = some ((c.sys.handle.decisionAt stop).getD .detach) ∧
      d.sys.handle.disposedAt stop = true := by
  have hlt : stop < d.sys.handle.stops.length := by
    have hlt := hc.lt_length_of_active ha
    rw [hc.depicts.count] at hlt
    rw [hd.depicts.count, hnew]
    exact Nat.lt_of_lt_of_le hlt stopsIn_le_append
  have hreleased : .released stop ∈ d.entries := by
    obtain ⟨before, after, heq⟩ := List.append_of_mem hclosed
    rw [heq] at hd ⊢
    exact hd.released_of_closed hlt
  obtain ⟨decision, hdecision⟩ := hd.regular.decided_of_released hreleased
  refine ⟨?_, (hd.depicts.disposed stop).2 hreleased⟩
  rw [hd.depicts.decision, hc.depicts.decision, hdecision]
  rw [hnew, decisionIn, List.findSome?_append, ← decisionIn] at hdecision
  cases hold : decisionIn c.entries stop with
  | some old =>
    rw [hold, Option.some_or] at hdecision
    exact hdecision.symm
  | none =>
    rw [hold, Option.none_or] at hdecision
    obtain ⟨x, hx, hdx⟩ := List.exists_of_findSome?_eq_some hdecision
    obtain ⟨r, rfl⟩ | ⟨-, rfl⟩ := decides?_eq_some hdx
    · exact absurd hx (hnone _ _ _)
    · rfl

theorem System.terminated_of_ended (debugger : Debugger) (target : τ) (program : List (Item σ))
    (moves : List Move) {result : Except AdapterError Unit}
    (hp : (System.run host moves (.start debugger target program)).session.phase = .ended result) :
    (System.run host moves (.start debugger target program)).debugger.terminated = true := by
  have htallies := Annals.tallies_run host debugger target program moves
  have hsys := Annals.sys_run host moves
    { trace := { sys := .start debugger target program } }
  have htold := htallies.silenced
  rw [hsys] at htold
  refine htold ?_
  rw [told, hp]
  rfl

-- ---------------------------------------------------------------------------
-- Every run
-- ---------------------------------------------------------------------------

/-- What holds of a request that has failed, beside the system as it would be without it. -/
structure FailsAlone (host : Host σ τ) (r : Request) (aside : System σ τ) (c : Journal σ τ)
    (o : Outcome) : Prop where
  /-- Nothing has changed, unless a question has killed the thread. -/
  same : (∃ target, Fails host r aside.target o target ∧
      c.sys = aside.beside (.answering o) target aside.reply) ∨
    ∃ dead, Dies host r aside dead ∧ o = .refusal r .stopEnded ∧
      c.sys = dead.beside (.answering o) dead.target dead.reply
  /-- The session goes on as before, or closes step by step. -/
  tidies : ∀ moves, o.closes = false ∧ IsBack host c moves ∨
    ∀ next, (c.run host moves).sys.stepSession host = some next →
      Tidies o.closes (c.run host moves).sys next
  rests : ∀ moves, (c.run host moves).sys.Settles host
  /-- It comes back to read on, or to its end. -/
  ends : ∀ moves, (c.run host moves).sys.stepSession host = none →
    o.closes = false ∧ IsBack host c moves ∨
      o.closes = true ∧ (c.run host moves).sys.session.phase = .ended (.ok ()) ∧
        (c.run host moves).sys.debugger.terminated = true ∧
        (c.run host moves).sys.handle.active = none ∧
        ∀ stop, c.sys.handle.active = some stop →
          (c.run host moves).sys.handle.decisionAt stop =
              some ((c.sys.handle.decisionAt stop).getD .detach) ∧
            (c.run host moves).sys.handle.disposedAt stop = true

/-- A request that fails leaves everything as it would be without it. -/
theorem failed_request_changes_nothing (host : Host σ τ) (debugger : Debugger) (target : τ)
    (program : List (Item σ)) (before during : List Move) {r : Request} {o : Outcome}
    {new : List Entry}
    (hp : (Journal.run host before
      { sys := .start debugger target program }).sys.session.phase = .handling r)
    (hnew : (Journal.run host (before ++ during)
        { sys := .start debugger target program }).entries =
      (Journal.run host before { sys := .start debugger target program }).entries ++ new)
    (hnone : ∀ o, .answered o ∉ new)
    (ho : (Journal.run host (before ++ during)
      { sys := .start debugger target program }).sys.session.phase = .answering o)
    (hf : o.response.success = false) :
    FailsAlone host r
      (System.run host (before ++ during.filter Move.isAside) (.start debugger target program))
      (.run host (before ++ during) { sys := .start debugger target program }) o := by
  have hkept := kept host debugger target program before
  have hended (moves : List Move) {result : Except AdapterError Unit} :=
    @System.terminated_of_ended σ τ host debugger target program (before ++ during ++ moves) result
  have haside : System.run host (before ++ during.filter Move.isAside)
      (.start debugger target program) =
    ((Journal.run host before { sys := .start debugger target program }).run host
      (during.filter Move.isAside)).sys := by
    rw [← run_append, sys_run]
  have hsys (moves : List Move) : System.run host (before ++ during ++ moves)
      (.start debugger target program) =
    (((Journal.run host before { sys := .start debugger target program }).run host during).run host
      moves).sys := by
    rw [← run_append, ← run_append, sys_run, List.append_assoc]
  simp only [hsys] at hended
  rw [haside]
  rw [run_append] at hnew ho ⊢
  generalize Journal.run host before { sys := .start debugger target program } = c at *
  have hdiffers : Differs host r (c.run host (during.filter Move.isAside)).sys
      (c.run host during).sys := by
    refine Differs.run ?_ hkept hkept hp during hnew hnone
    have hself : c.sys = c.sys.beside (.handling r) c.sys.target c.sys.reply := by
      rw [System.beside, ← hp]
    rw [hself]
    exact .looking .handling
  have hkept' := kept_run host hkept during
  generalize c.run host during = d at *
  have hplain : o.events = [] ∧ o.release = none := by
    obtain ⟨_, hfails, -⟩ | ⟨_, -, rfl, -⟩ := hdiffers.of_answering ho hf
    · exact hfails.plain
    · exact ⟨rfl, rfl⟩
  refine ⟨hdiffers.of_answering ho hf, fun moves => ?tidies, fun moves => System.settles host _,
    fun moves hrest => ?ends⟩
  case tidies =>
    refine (winding_run (.answering ho) hplain hkept' moves).imp_right ?_
    rintro ⟨hwinding, -⟩ next hstep
    exact (hwinding.session hplain (kept_run host hkept' moves) hstep).1
  case ends =>
    obtain hback | ⟨hwinding, new, hnew, hnone⟩ :=
      winding_run (.answering ho) hplain hkept' moves
    · exact .inl hback
    · have hkept'' := kept_run host hkept' moves
      obtain ⟨hc, hclosed, hp'⟩ := hwinding.of_waiting hkept'' hrest
      refine .inr ⟨hc, hp', hended moves hp', ?_, fun stop ha =>
        letGo_of_ended hkept' hkept'' hnew hnone hclosed ha⟩
      obtain ⟨as, bs, heq⟩ := List.append_of_mem hclosed
      rw [hkept''.depicts.active, heq]
      rw [heq] at hkept''
      exact hkept''.regular.of_closed.2.1

-- ---------------------------------------------------------------------------
-- Requests that are read
-- ---------------------------------------------------------------------------

theorem System.play_packet (host : Host σ τ) {sys : System σ τ} {text : String} {message : Json}
    {r : Request} (hp : sys.session.phase = .reading) (hc : sys.handle.closed = false)
    (hr : sys.session.reader = {})
    (hread : ({ arrivals := [packetOf text] } : Packet.Reader).readMessage = (.item message, {}))
    (hreq : requestOf? message = some r) :
    (sys.play host (.arrive [packetOf text])).session.phase = .reading ∧
      (sys.play host (.arrive [packetOf text])).play host (.step .session) =
        sys.enter (.handling r) := by
  have harrive : sys.play host (.arrive [packetOf text]) =
      sys.withReader { arrivals := [packetOf text] } := by
    rw [play_arrive, hr]
    rfl
  have hp' : (sys.withReader { arrivals := [packetOf text] }).session.phase = .reading := hp
  rw [harrive]
  refine ⟨hp', play_step ((stepSession_of_request hp' hc hread hreq).trans ?_)⟩
  rw [enter, enter, ← hr]
  rfl

/-- Where something arrives or the session reads, only the system that is recorded changes. -/
structure Recorder.Overlooks {ρ : Type} (R : Recorder host ρ)
    (revise : (System σ τ → System σ τ) → ρ → ρ) : Prop where
  arrive : ∀ c arrivals, R.play c (.arrive arrivals) = revise (·.play host (.arrive arrivals)) c
  read : ∀ {c}, (R.sys c).session.phase = .reading →
    R.play c (.step .session) = revise (·.play host (.step .session)) c
  twice : ∀ {f g h c}, f (g (R.sys c)) = h (R.sys c) → revise f (revise g c) = revise h c

theorem Recorder.Overlooks.run_read {ρ : Type} {R : Recorder host ρ}
    {revise : (System σ τ → System σ τ) → ρ → ρ} (h : R.Overlooks revise) {c : ρ} {text : String}
    {message : Json} {r : Request} (moves : List Move) (hp : (R.sys c).session.phase = .reading)
    (hc : (R.sys c).handle.closed = false) (hr : (R.sys c).session.reader = {})
    (hread : ({ arrivals := [packetOf text] } : Packet.Reader).readMessage = (.item message, {}))
    (hreq : System.requestOf? message = some r) :
    R.run (.arrive [packetOf text] :: .step .session :: moves) c =
      R.run moves (revise (·.enter (.handling r)) c) := by
  obtain ⟨hp', hsys⟩ := System.play_packet host hp hc hr hread hreq
  rw [← R.sys_play] at hp'
  have hplay : R.play (R.play c (.arrive [packetOf text])) (.step .session) =
      revise (·.enter (.handling r)) c := by
    rw [h.read hp', h.arrive]
    exact h.twice hsys
  exact congrArg (R.run moves) hplay

def Journal.revise (f : System σ τ → System σ τ) (c : Journal σ τ) : Journal σ τ :=
  { c with sys := f c.sys }

def Journal.dispatch (c : Journal σ τ) (r : Request) : Journal σ τ :=
  c.revise (·.enter (.handling r))

theorem Journal.overlooks (host : Host σ τ) : (recorder host).Overlooks revise where
  arrive c _ := congrArg (Journal.mk _) (List.append_nil _)
  read {c} hp := by
    have hp : c.sys.session.phase = .reading := hp
    simp only [recorder, play, revise, System.sessionEntries, hp, List.append_nil]
  twice {_ _ _ c} heq := congrArg (Journal.mk · c.entries) heq

-- ---------------------------------------------------------------------------
-- Two runs
-- ---------------------------------------------------------------------------

def arguedRequest (command : String) (arguments : Json) : Request :=
  { bareRequest command with arguments := some arguments }

def arguedMessage (command : String) (arguments : Json) : Json :=
  .obj [("arguments", arguments), ("command", .str command), ("seq", .int 1),
    ("type", .str "request")]

def scopesText : String :=
  "\x7b\"seq\":1,\"type\":\"request\",\"command\":\"scopes\"," ++
    "\"arguments\":\x7b\"frameId\":1\x7d\x7d"

def variablesText : String :=
  "\x7b\"seq\":1,\"type\":\"request\",\"command\":\"variables\"," ++
    "\"arguments\":\x7b\"variablesReference\":2\x7d\x7d"

theorem Packet.Reader.readMessage_scopes :
    ({ arrivals := [packetOf scopesText] } : Packet.Reader).readMessage =
      (.item (arguedMessage "scopes" (.obj [("frameId", .int 1)])), {}) :=
  readMessage_of_text (by decide +kernel) (by with_unfolding_all rfl)

theorem Packet.Reader.readMessage_variables :
    ({ arrivals := [packetOf variablesText] } : Packet.Reader).readMessage =
      (.item (arguedMessage "variables" (.obj [("variablesReference", .int 2)])), {}) :=
  readMessage_of_text (by decide +kernel) (by with_unfolding_all rfl)

def scopesRequest : Request := arguedRequest "scopes" (.obj [("frameId", .int 1)])

def variablesRequest : Request :=
  arguedRequest "variables" (.obj [("variablesReference", .int 2)])

def servedMoves : List Move :=
  List.replicate 3 (Move.step .session) ++ List.replicate 2 (Move.step .thread) ++
    [Move.step .session]

/-- The client asks for the locals of a frame before it has asked for frames. -/
def strangeMoves : List Move :=
  List.replicate 3 (Move.step .thread) ++ [Move.arrive [packetOf scopesText], Move.step .session]

def strangeRun (moves : List Move) : Journal Scripted.Stack OneShot :=
  .run scriptedHost moves
    { sys := .start (.fresh .sensitive) {} [.stop { reason := "pause" } tableStack] }

theorem strangeRun_eq (moves : List Move) :
    strangeRun (strangeMoves ++ moves) =
      ((strangeRun (List.replicate 3 (.step .thread))).dispatch scopesRequest).run scriptedHost
        moves := by
  simp only [strangeRun, strangeMoves, run, Recorder.run_append]
  rw [(overlooks _).run_read _ rfl rfl rfl Packet.Reader.readMessage_scopes rfl]
  rfl

theorem failed_request_changes_nothing_scopes :
    (strangeRun strangeMoves).sys.session.phase = .handling scopesRequest ∧
      (strangeRun (strangeMoves ++ servedMoves)).sys.session.phase =
        .answering (.refusal scopesRequest (.unknownFrame 1)) ∧
      FailsAlone scriptedHost scopesRequest
        (System.run scriptedHost (strangeMoves ++ servedMoves.filter Move.isAside)
          (.start (.fresh .sensitive) {} [.stop { reason := "pause" } tableStack]))
        (strangeRun (strangeMoves ++ servedMoves)) (.refusal scopesRequest (.unknownFrame 1)) := by
  have hbefore := strangeRun_eq []
  rw [List.append_nil] at hbefore
  have hp : (strangeRun strangeMoves).sys.session.phase = .handling scopesRequest := by
    rw [hbefore]
    rfl
  have hentries : (strangeRun (strangeMoves ++ servedMoves)).entries =
      (strangeRun strangeMoves).entries ++
        [Entry.found scopesRequest (.inspect (.scopes ⟨1⟩)) (some 0),
          Entry.accepted scopesRequest (.inspect (.scopes ⟨1⟩)) 0,
          Entry.served 0 (.scopes ⟨1⟩) (.error (.unknownFrame 1))] := by
    rw [strangeRun_eq, hbefore]
    rfl
  have ho : (strangeRun (strangeMoves ++ servedMoves)).sys.session.phase =
      .answering (.refusal scopesRequest (.unknownFrame 1)) := by
    rw [strangeRun_eq]
    rfl
  exact ⟨hp, ho, failed_request_changes_nothing scriptedHost _ _ _ strangeMoves servedMoves hp
    hentries (by simp) ho rfl⟩

-- ---------------------------------------------------------------------------
-- A question that kills the thread
-- ---------------------------------------------------------------------------

/-- A failed request leaves nothing behind, whatever it was. -/
def LeavesNothing (host : Host σ τ) (sys : System σ τ) : Prop :=
  ∀ (before during : List Move) (r : Request) (o : Outcome) (new : List Entry),
    (Journal.run host before { sys := sys }).sys.session.phase = .handling r →
    (Journal.run host (before ++ during) { sys := sys }).entries =
      (Journal.run host before { sys := sys }).entries ++ new →
    (∀ o, .answered o ∉ new) →
    (Journal.run host (before ++ during) { sys := sys }).sys.session.phase = .answering o →
    o.response.success = false →
    ∃ target' reply', (Journal.run host (before ++ during) { sys := sys }).sys =
      (Journal.run host (before ++ during.filter Move.isAside) { sys := sys }).sys.beside
        (.answering o) target' reply'

def trappedStack : Scripted.Stack :=
  [{ info := { kind := .main }
     locals := [("t", .table [(.name "x", .value (.integer 1))]), ("bad", .deadly)] }]

def trappedSystem : System Scripted.Stack OneShot :=
  .start ((Debugger.fresh .sensitive).setLines { path := some "a.lua" } [{ line := 3 }]).2 {}
    [.event { kind := .line, source := some "@a.lua", line := some 3 } trappedStack]

def trappedMoves : List Move :=
  List.replicate 6 (Move.step .thread) ++
    (Move.arrive [packetOf stackTraceText] :: Move.step .session ::
      (servedMoves ++ List.replicate 2 (Move.step .session))) ++
    (Move.arrive [packetOf scopesText] :: Move.step .session ::
      (servedMoves ++ List.replicate 2 (Move.step .session))) ++
    [Move.arrive [packetOf variablesText], Move.step .session]

def trappedRun (moves : List Move) : Journal Scripted.Stack OneShot :=
  .run scriptedHost moves { sys := trappedSystem }

def trappedState : Journal Scripted.Stack OneShot :=
  let ask (c : Journal Scripted.Stack OneShot) (r : Request) :=
    (c.dispatch r).run scriptedHost (servedMoves ++ List.replicate 2 (Move.step .session))
  (ask (ask (trappedRun (List.replicate 6 (Move.step .thread))) (bareRequest "stackTrace"))
    scopesRequest).dispatch variablesRequest

theorem trappedRun_eq (moves : List Move) :
    trappedRun (trappedMoves ++ moves) = trappedState.run scriptedHost moves := by
  simp only [trappedRun, trappedMoves, run, Recorder.run_append]
  rw [(overlooks _).run_read _ rfl rfl rfl Packet.Reader.readMessage_stackTrace rfl,
    (overlooks _).run_read _ rfl rfl rfl Packet.Reader.readMessage_scopes rfl,
    (overlooks _).run_read _ rfl rfl rfl Packet.Reader.readMessage_variables rfl]
  rfl

theorem trappedState_before : trappedState.sys.session.phase = .handling variablesRequest ∧
    ∃ origin g s, trappedState.sys.thread.phase = .serving origin 0 [] g s ∧ g.minted = 4 :=
  ⟨rfl, _, _, _, rfl, rfl⟩

theorem trappedState_after :
    (trappedState.run scriptedHost servedMoves).sys.session.phase =
        .answering (.refusal variablesRequest .stopEnded) ∧
      (trappedState.run scriptedHost servedMoves).sys.debugger.references = 5 ∧
      (trappedState.run scriptedHost servedMoves).entries = trappedState.entries ++
        [Entry.found variablesRequest (.inspect (.values { variablesReference := 2 })) (some 0),
          Entry.accepted variablesRequest (.inspect (.values { variablesReference := 2 })) 0,
          Entry.faulted 0 (.values { variablesReference := 2 })] :=
  ⟨rfl, rfl, rfl⟩

theorem trappedState_aside :
    (trappedState.run scriptedHost (servedMoves.filter Move.isAside)).sys.debugger.references = 0 :=
  rfl

theorem not_leavesNothing_trapped :
    (∃ origin g s, (trappedRun trappedMoves).sys.thread.phase = .serving origin 0 [] g s ∧
        g.minted = 4) ∧
      (trappedRun (trappedMoves ++ servedMoves)).sys.session.phase =
        .answering (.refusal variablesRequest .stopEnded) ∧
      (trappedRun (trappedMoves ++ servedMoves)).sys.debugger.references = 5 ∧
      ¬ LeavesNothing scriptedHost trappedSystem := by
  have hbefore : trappedRun trappedMoves = trappedState := by
    rw [← List.append_nil trappedMoves, trappedRun_eq]
    rfl
  obtain ⟨hp, hfour⟩ := trappedState_before
  obtain ⟨ho, hfive, hentries⟩ := trappedState_after
  have haside := trappedState_aside
  rw [← trappedRun_eq] at ho hfive hentries haside
  rw [← hbefore] at hp hfour hentries
  refine ⟨hfour, ho, hfive, fun h => ?_⟩
  simp only [trappedRun] at hp ho hfive hentries haside
  obtain ⟨target', reply', heq⟩ := h trappedMoves servedMoves variablesRequest _ _ hp hentries
    (by simp) ho rfl
  rw [heq, System.debugger_beside, haside] at hfive
  cases hfive

end DebugAdapter
