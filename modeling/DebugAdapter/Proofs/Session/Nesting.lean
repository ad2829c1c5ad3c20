import DebugAdapter.Proofs.Session.Failures
import DebugAdapter.Proofs.Session.Stops

/-!
# Steps and the call structure

The goal of a step knows a line and a depth and nothing of frames. As long as the execution is well
nested that is enough. At any time the stack consists of new frames on top of what is left of the
old ones (`CallStack.Leads`), so its height tells whether a frame is still there and whether it is
on top. The main statement is `steps_respect_calls`.
-/

namespace DebugAdapter

open Protocol

variable {σ τ : Type}

-- ---------------------------------------------------------------------------
-- Call stacks
-- ---------------------------------------------------------------------------

/-- The activations on a stack, the innermost first. Each has a number of its own from when it was
entered, so even activations of one function are told apart, and none comes back. -/
structure CallStack where
  frames : List Nat
  entered : Nat
  newer : frames.Pairwise (· > ·)
  known : ∀ f ∈ frames, f < entered

namespace CallStack

def push (k : CallStack) : CallStack where
  frames := k.entered :: k.frames
  entered := k.entered + 1
  newer := List.pairwise_cons.2 ⟨k.known, k.newer⟩
  known f hf := by
    obtain rfl | hf := List.mem_cons.1 hf
    · exact Nat.lt_succ_self _
    · exact Nat.lt_succ_of_lt (k.known f hf)

def pop (k : CallStack) : CallStack where
  frames := k.frames.tail
  entered := k.entered
  newer := k.newer.tail
  known f hf := k.known f (List.mem_of_mem_tail hf)

def top? (k : CallStack) : Option Nat := k.frames.head?

def height (k : CallStack) : Nat := k.frames.length

/-- The depth that the interpreter reports is the height of the stack. -/
def Shown (k : CallStack) (it : Interpreter σ) (s : σ) : Prop :=
  ∃ depth, (it.depth s).1 = .ok depth ∧ depth.toNat = k.height

end CallStack

/-- From one stack to another by events that are well nested: a line event happens in the frame on
top, and the interpreter shows the stack then; a call puts a new frame on top, and a return takes
the frame on top away. -/
inductive WellNested (it : Interpreter σ) (k : CallStack) :
    List (ExecutionEvent × σ) → CallStack → Prop
  | start : WellNested it k [] k
  | line {moves : List (ExecutionEvent × σ)} {k' : CallStack} {e : ExecutionEvent} {s : σ} :
      WellNested it k moves k' → e.kind = .line → k'.frames ≠ [] → k'.Shown it s →
      WellNested it k (moves ++ [(e, s)]) k'
  | call {moves : List (ExecutionEvent × σ)} {k' : CallStack} {e : ExecutionEvent} {s : σ} :
      WellNested it k moves k' → e.kind = .call → WellNested it k (moves ++ [(e, s)]) k'.push
  | ret {moves : List (ExecutionEvent × σ)} {k' : CallStack} {e : ExecutionEvent} {s : σ} :
      WellNested it k moves k' → e.kind = .ret → k'.frames ≠ [] →
      WellNested it k (moves ++ [(e, s)]) k'.pop

theorem WellNested.shown {it : Interpreter σ} {k k' : CallStack}
    {moves : List (ExecutionEvent × σ)} {e : ExecutionEvent} {s : σ}
    (h : WellNested it k (moves ++ [(e, s)]) k') (hkind : e.kind = .line) : k'.Shown it s := by
  generalize hall : moves ++ [(e, s)] = all at h
  cases h with
  | start => simp at hall
  | line _ _ _ hshown =>
    cases (List.append_inj' hall rfl).2
    exact hshown
  | call _ hcall =>
    cases (List.append_inj' hall rfl).2
    cases hkind.symm.trans hcall
  | ret _ hret =>
    cases (List.append_inj' hall rfl).2
    cases hkind.symm.trans hret

-- ---------------------------------------------------------------------------
-- What has become of a frame
-- ---------------------------------------------------------------------------

namespace CallStack

/-- Later the stack consists of what is left of the old one, and of new frames on top. -/
structure Leads (k k' : CallStack) : Prop where
  entered : k.entered ≤ k'.entered
  frames : ∃ fresh left, k'.frames = fresh ++ left ∧ (∀ g ∈ fresh, k.entered ≤ g) ∧
    left <:+ k.frames

variable {k k' : CallStack}

theorem Leads.refl (k : CallStack) : k.Leads k :=
  ⟨Nat.le_refl _, [], k.frames, rfl, nofun, List.suffix_rfl⟩

theorem Leads.push (h : k.Leads k') : k.Leads k'.push := by
  obtain ⟨hentered, fresh, left, hframes, hfresh, hleft⟩ := h
  refine ⟨Nat.le_succ_of_le hentered, k'.entered :: fresh, left, ?_, ?_, hleft⟩
  · exact congrArg (_ :: ·) hframes
  · exact List.forall_mem_cons.2 ⟨hentered, hfresh⟩

theorem Leads.pop (h : k.Leads k') : k.Leads k'.pop := by
  obtain ⟨hentered, fresh, left, hframes, hfresh, hleft⟩ := h
  cases fresh with
  | nil =>
    exact ⟨hentered, [], left.tail, congrArg List.tail hframes, nofun,
      (List.tail_suffix left).trans hleft⟩
  | cons g fresh =>
    exact ⟨hentered, fresh, left, congrArg List.tail hframes,
      (List.forall_mem_cons.1 hfresh).2, hleft⟩

end CallStack

theorem WellNested.leads {it : Interpreter σ} {k k' : CallStack}
    {moves : List (ExecutionEvent × σ)} (h : WellNested it k moves k') : k.Leads k' := by
  induction h with
  | start => exact .refl k
  | line _ _ _ _ ih => exact ih
  | call _ _ ih => exact ih.push
  | ret _ _ _ ih => exact ih.pop

namespace CallStack

variable {k k' : CallStack} {f g : Nat} {below : List Nat}

theorem not_mem_below (hk : k.frames = f :: below) : f ∉ below := by
  intro hf
  have hnewer := k.newer
  rw [hk] at hnewer
  exact Nat.lt_irrefl f ((List.pairwise_cons.1 hnewer).1 f hf)

theorem Leads.frames_of_mem (h : k.Leads k') (hk : k.frames = f :: below) (hf : f ∈ k'.frames) :
    ∃ fresh, k'.frames = fresh ++ f :: below ∧ ∀ g ∈ fresh, k.entered ≤ g := by
  obtain ⟨-, fresh, left, hframes, hfresh, hleft⟩ := h
  have hold : f < k.entered := k.known f (hk ▸ List.mem_cons_self)
  rw [hframes] at hf
  obtain hf | hf := List.mem_append.1 hf
  · exact absurd (hfresh f hf) (Nat.not_le_of_lt hold)
  · rw [hk, List.suffix_cons_iff] at hleft
    obtain rfl | hleft := hleft
    · exact ⟨fresh, hframes, hfresh⟩
    · exact absurd (hleft.mem hf) (not_mem_below hk)

theorem Leads.height_le (h : k.Leads k') (hk : k.frames = f :: below) (hf : f ∈ k'.frames) :
    k.height ≤ k'.height := by
  obtain ⟨fresh, hframes, -⟩ := h.frames_of_mem hk hf
  rw [height, height, hk, hframes, List.length_append]
  exact Nat.le_add_left _ _

theorem Leads.height_lt (h : k.Leads k') (hk : k.frames = f :: below) (hf : f ∈ k'.frames)
    (htop : k'.top? ≠ some f) : k.height < k'.height := by
  obtain ⟨fresh, hframes, -⟩ := h.frames_of_mem hk hf
  have hne : fresh ≠ [] := by
    rintro rfl
    exact htop (congrArg List.head? hframes)
  have := List.length_pos_iff.2 hne
  rw [height, height, hk, hframes, List.length_append]
  omega

theorem Leads.height_eq (h : k.Leads k') (hk : k.frames = f :: below)
    (htop : k'.top? = some f) : k'.height = k.height := by
  obtain ⟨fresh, hframes, hfresh⟩ := h.frames_of_mem hk (List.mem_of_mem_head? htop)
  cases fresh with
  | nil => rw [height, height, hk, hframes, List.nil_append]
  | cons g fresh =>
    rw [top?, hframes] at htop
    cases htop
    have hold : f < k.entered := k.known f (hk ▸ List.mem_cons_self)
    exact absurd (hfresh f List.mem_cons_self) (Nat.not_le_of_lt hold)

theorem Leads.height_gt (h : k.Leads k') (hk : k.frames = f :: below) (hg : g ∈ below)
    (htop : k'.top? = some g) : k'.height < k.height := by
  obtain ⟨-, fresh, left, hframes, hfresh, hleft⟩ := h
  cases fresh with
  | nil =>
    rw [List.nil_append] at hframes
    rw [hk, List.suffix_cons_iff] at hleft
    obtain rfl | hleft := hleft
    · -- then `f` is on top, which is not below itself
      rw [top?, hframes] at htop
      cases htop
      exact absurd hg (not_mem_below hk)
    · rw [height, height, hk, hframes, List.length_cons]
      exact Nat.lt_succ_of_le hleft.length_le
  | cons g' fresh =>
    rw [top?, hframes] at htop
    cases htop
    have hold : g < k.entered := k.known g (hk ▸ List.mem_cons_of_mem _ hg)
    exact absurd (hfresh g List.mem_cons_self) (Nat.not_le_of_lt hold)

end CallStack

-- ---------------------------------------------------------------------------
-- Verdicts since a stop
-- ---------------------------------------------------------------------------

section Verdicts

variable {notes before since after : List (Note σ)} {n : Note σ} {e e₀ : ExecutionEvent}
  {b : Breakpoints} {s s₀ : σ} {stop : Option StoppedBody} {decision : Decision} {closed : Bool}

theorem exists_split_of_lastOwn? (h : lastOwn? notes = some n) :
    ∃ before between, notes = before ++ n :: between ∧ ∀ m ∈ between, m.own = false := by
  induction notes using List.reverseRecOn with
  | nil => cases h
  | append_singleton notes m ih =>
    cases hown : m.own with
    | true =>
      rw [lastOwn?_append hown] at h
      cases h
      exact ⟨notes, [], rfl, List.forall_mem_nil _⟩
    | false =>
      rw [lastOwn?_append_other hown] at h
      obtain ⟨before, between, rfl, hbetween⟩ := ih h
      refine ⟨before, between ++ [m], by simp, fun m' hm' => ?_⟩
      obtain hm' | hm' := List.mem_append.1 hm'
      · exact hbetween m' hm'
      · rw [List.mem_singleton.1 hm', hown]

theorem lastResumed?_append_others (h : ∀ m ∈ since, m.resumption? = none) :
    lastResumed? (notes ++ since) = lastResumed? notes := by
  have hnone : since.filterMap Note.resumption? = [] := List.filterMap_eq_nil_iff.2 h
  rw [lastResumed?, List.filterMap_append, hnone, List.append_nil, lastResumed?]

theorem resumption?_of_own (h : n.own = false) : n.resumption? = none := by
  cases n with
  | resumed => cases h
  | gone | event | verdict | stopped => rfl

theorem Gone.append (h : Gone notes) (more : List (Note σ)) : Gone (notes ++ more) := by
  obtain h | ⟨e, s, h⟩ := h
  · exact .inl (List.mem_append_left _ h)
  · exact .inr ⟨e, s, List.mem_append_left _ h⟩

theorem event_of_verdict
    (hchain : ((notes ++ .verdict e b s stop :: after).filter Note.own).IsChain
      (Note.Follows closed)) (hlast : lastOwn? notes = some n) : n = .event e := by
  rw [List.filter_append, List.filter_cons_of_pos rfl] at hchain
  have hfollows := (List.isChain_append.1 hchain).2.2 n hlast (.verdict e b s stop) rfl
  cases hfollows with
  | judged => rfl

/-- A verdict is the one that the way calls for in which the last stop was resumed. -/
theorem Chronicle.Sound.verdict_iff {host : Host σ τ} {program : List (Item σ)}
    {c : Chronicle σ τ} (h : c.Sound host program)
    (hnotes : c.notes = before ++ .resumed e₀ decision s₀ :: since ++ .verdict e b s stop :: after)
    (hsince : ∀ m ∈ since, m.resumption? = none)
    (hgone : ¬ Gone (before ++ .resumed e₀ decision s₀ :: since)) :
    ∃ earlier, lastResumed? earlier = some (e₀, decision, s₀) ∧
      ∀ body, stop = some body ↔ Stops host.interpreter earlier e b s body := by
  have hown : .resumed e₀ decision s₀ ∈
      (before ++ .resumed e₀ decision s₀ :: since).filter Note.own :=
    List.mem_filter.2 ⟨List.mem_append_right before List.mem_cons_self, rfl⟩
  obtain ⟨n, hlast⟩ := Option.isSome_iff_exists.1
    (List.getLast?_isSome.2 (List.ne_nil_of_mem hown))
  obtain rfl := event_of_verdict (hnotes ▸ h.chain) hlast
  obtain ⟨earlier, between, hearlier, hbetween⟩ := exists_split_of_lastOwn? hlast
  refine ⟨earlier, ?resumed, fun body => ?verdict⟩
  case resumed =>
    have hresumed : lastResumed? (before ++ .resumed e₀ decision s₀ :: since) =
        some (e₀, decision, s₀) := by
      rw [List.append_cons, lastResumed?_append_others hsince, lastResumed?_append]
    rw [hearlier, lastResumed?_append_others] at hresumed
    · exact hresumed
    · exact List.forall_mem_cons.2 ⟨rfl, fun m hm => resumption?_of_own (hbetween m hm)⟩
  case verdict =>
    rw [hearlier] at hnotes hgone
    rw [h.lawful earlier e between b s stop after hnotes hbetween body, and_iff_right]
    exact fun h => hgone (h.append _)

end Verdicts

-- ---------------------------------------------------------------------------
-- Goals
-- ---------------------------------------------------------------------------

namespace StepGoal

variable {line line₀ depth depth₀ : UInt32}

theorem isMet_over : (StepGoal.over line₀ depth₀).isMet .line line depth = true ↔
    depth.toNat < depth₀.toNat ∨ depth.toNat = depth₀.toNat ∧ line ≠ line₀ := by
  simp [isMet, UInt32.lt_iff_toNat_lt, UInt32.toNat_inj]

theorem isMet_out : (StepGoal.out depth₀).isMet .line line depth = true ↔
    depth.toNat < depth₀.toNat := by
  simp [isMet, UInt32.lt_iff_toNat_lt]

theorem of?_stepOut (h : 0 < depth.toNat) : of? .stepOut line depth = some (.out depth) :=
  if_pos (show 0 < depth from UInt32.lt_iff_toNat_lt.2 h)

end StepGoal

def Note.judged? : Note σ → Option (ExecutionEvent × σ)
  | .verdict e _ s _ => some (e, s)
  | .gone | .event _ | .stopped .. | .resumed .. => none

/-- A stretch of well-nested execution: in the notes a stop was resumed, there was no other stop
since, the client has not gone, and after some more events comes the verdict on `e`, for which there
are no breakpoints. The stack was `k` where the execution went on and is `k'` with this event. -/
inductive Stretch (it : Interpreter σ) (notes : List (Note σ)) (e₀ : ExecutionEvent)
    (decision : Decision) (k : CallStack) (e : ExecutionEvent) (stop : Option StoppedBody)
    (k' : CallStack) : Prop
  | mk {before since after : List (Note σ)} {b : Breakpoints} {s₀ s : σ} :
      notes = before ++ .resumed e₀ decision s₀ :: since ++ .verdict e b s stop :: after →
      (∀ n ∈ since, n.resumption? = none) →
      ¬ Gone (before ++ .resumed e₀ decision s₀ :: since) →
      b.onLines = [] → b.onCalls = [] → k.Shown it s₀ →
      WellNested it k (since.filterMap Note.judged? ++ [(e, s)]) k' →
      Stretch it notes e₀ decision k e stop k'

structure Breakpoints.Misses (b : Breakpoints) (e : ExecutionEvent) : Prop where
  line : ∀ line, e.kind = .line → e.line = some line → b.matchLine e.source line = none
  call : ∀ function, e.kind = .call → e.function = some function → b.matchCall function = none

theorem Breakpoints.misses_of_nil {b : Breakpoints} (hlines : b.onLines = [])
    (hcalls : b.onCalls = []) (e : ExecutionEvent) : b.Misses e where
  line _ _ _ := by simp [matchLine, hlines]
  call _ _ _ := by simp [matchCall, hcalls]

theorem stops_iff {it : Interpreter σ} {earlier : List (Note σ)} {e e₀ : ExecutionEvent}
    {b : Breakpoints} {s s₀ : σ} {decision : Decision} {depth₀ : UInt32} {body : StoppedBody}
    (hlast : lastResumed? earlier = some (e₀, decision, s₀)) (hmiss : b.Misses e)
    (hdepth₀ : (it.depth s₀).1 = .ok depth₀) :
    Stops it earlier e b s body ↔ body = Debugger.stoppedBy "step" none ∧ e.kind = .line ∧
      ∃ line depth goal, e.line = some line ∧ (it.depth s).1 = .ok depth ∧
        StepGoal.of? decision (e₀.line.getD 0) depth₀ = some goal ∧
        goal.isMet .line line depth = true := by
  constructor
  · intro h
    cases h with
    | line hkind hline hmatch => cases (hmiss.line _ hkind hline).symm.trans hmatch
    | call hkind hfunction hmatch => cases (hmiss.call _ hkind hfunction).symm.trans hmatch
    | step hkind hline _ hlast' hdepth₀' hof hdepth hmet =>
      cases hlast.symm.trans hlast'
      cases hdepth₀.symm.trans hdepth₀'
      exact ⟨rfl, hkind, _, _, _, hline, hdepth, hof, hmet⟩
  · rintro ⟨rfl, hkind, line, depth, goal, hline, hdepth, hof, hmet⟩
    exact .step hkind hline (hmiss.line _ hkind hline) hlast hdepth₀ hof hdepth hmet

namespace Stretch

variable {host : Host σ τ} {program : List (Item σ)} {c : Chronicle σ τ} {e e₀ : ExecutionEvent}
  {decision : Decision} {k k' : CallStack} {stop : Option StoppedBody}

theorem leads {it : Interpreter σ} {notes : List (Note σ)}
    (h : Stretch it notes e₀ decision k e stop k') : k.Leads k' := by
  obtain ⟨-, -, -, -, -, -, hnested⟩ := h
  exact hnested.leads

/-- The target stops at a line event that meets the goal, and nowhere else. What meets the goal is
said of the heights of the stacks. -/
theorem stop_iff (hsound : c.Sound host program)
    (h : Stretch host.interpreter c.notes e₀ decision k e stop k')
    (Meets : UInt32 → Nat → Nat → Prop) {goal : UInt32 → StepGoal}
    (hgoal : ∀ depth₀ : UInt32, depth₀.toNat = k.height →
      StepGoal.of? decision (e₀.line.getD 0) depth₀ = some (goal depth₀))
    (hmeets : ∀ {line depth depth₀ : UInt32},
      (goal depth₀).isMet .line line depth = true ↔ Meets line depth.toNat depth₀.toNat)
    (body : StoppedBody) :
    stop = some body ↔ body = Debugger.stoppedBy "step" none ∧ e.kind = .line ∧
      ∃ line, e.line = some line ∧ Meets line k'.height k.height := by
  obtain ⟨hnotes, hsince, hgone, hlines, hcalls, ⟨depth₀, hdepth₀, hheight₀⟩, hnested⟩ := h
  obtain ⟨earlier, hlast, hverdict⟩ := hsound.verdict_iff hnotes hsince hgone
  rw [hverdict, stops_iff hlast (Breakpoints.misses_of_nil hlines hcalls e) hdepth₀,
    hgoal depth₀ hheight₀]
  refine and_congr_right fun _ => and_congr_right fun hkind => exists_congr fun line => ?_
  obtain ⟨depth, hdepth, hheight⟩ := hnested.shown hkind
  simp [hdepth, hmeets, hheight, hheight₀]

theorem stop_stepOver (hsound : c.Sound host program)
    (h : Stretch host.interpreter c.notes e₀ .stepOver k e stop k') (body : StoppedBody) :
    stop = some body ↔ body = Debugger.stoppedBy "step" none ∧ e.kind = .line ∧
      ∃ line, e.line = some line ∧
        (k'.height < k.height ∨ k'.height = k.height ∧ line ≠ e₀.line.getD 0) :=
  h.stop_iff hsound (fun line m n => m < n ∨ m = n ∧ line ≠ e₀.line.getD 0) (fun _ _ => rfl)
    StepGoal.isMet_over body

theorem stop_stepOut (hsound : c.Sound host program)
    (h : Stretch host.interpreter c.notes e₀ .stepOut k e stop k') (hpositive : 0 < k.height)
    (body : StoppedBody) :
    stop = some body ↔ body = Debugger.stoppedBy "step" none ∧ e.kind = .line ∧
      ∃ line, e.line = some line ∧ k'.height < k.height :=
  h.stop_iff hsound (fun _ m n => m < n)
    (fun _ hheight₀ => StepGoal.of?_stepOut (hheight₀.symm ▸ hpositive)) StepGoal.isMet_out body

end Stretch

/-- Steps respect the call structure. Say a run goes on with frame `f` on top of `below`, at a line
`l`, and is well nested from there, with no breakpoints. After stepping over, the target does not
stop while `f` is on the stack but not on top, and it stops at the latest at a line other than `l`
of `f` itself or at any line of a frame that was below. After stepping out it does not stop while
`f` is on the stack, and it stops at the latest at any line of a frame that was below. -/
theorem steps_respect_calls (host : Host σ τ) (paths : PathCase) (target : τ)
    (program : List (Item σ)) (moves : List Move) :
    let c : Chronicle σ τ := .run host moves { sys := .start (.fresh paths) target program }
    ∀ {e₀ e : ExecutionEvent} {decision : Decision} {stop : Option StoppedBody} {k k' : CallStack}
      {f : Nat} {below : List Nat}, Stretch host.interpreter c.notes e₀ decision k e stop k' →
      k.frames = f :: below →
      (decision = .stepOver →
        (f ∈ k'.frames → k'.top? ≠ some f → stop = none) ∧
        ∀ line, e.kind = .line → e.line = some line →
          (k'.top? = some f ∧ line ≠ e₀.line.getD 0 ∨ ∃ g ∈ below, k'.top? = some g) →
          stop = some (Debugger.stoppedBy "step" none)) ∧
      (decision = .stepOut →
        (f ∈ k'.frames → stop = none) ∧
        ∀ line, e.kind = .line → e.line = some line → (∃ g ∈ below, k'.top? = some g) →
          stop = some (Debugger.stoppedBy "step" none)) := by
  intro c e₀ e decision stop k k' f below h hk
  have hsound : c.Sound host program := (Chronicle.sound_start host paths target program).run moves
  have hleads := h.leads
  refine ⟨?stepOver, ?stepOut⟩
  case stepOver =>
    rintro rfl
    refine ⟨fun hf htop => ?under, fun line hkind hline hwhere => ?latest⟩
    case under =>
      have hlt := hleads.height_lt hk hf htop
      refine Option.eq_none_iff_forall_ne_some.2 fun body hbody => ?_
      obtain ⟨-, -, line, -, hgt | ⟨heq, -⟩⟩ := (h.stop_stepOver hsound body).1 hbody <;> omega
    case latest =>
      refine (h.stop_stepOver hsound _).2 ⟨rfl, hkind, line, hline, ?_⟩
      obtain ⟨htop, hne⟩ | ⟨g, hg, htop⟩ := hwhere
      · exact .inr ⟨hleads.height_eq hk htop, hne⟩
      · exact .inl (hleads.height_gt hk hg htop)
  case stepOut =>
    rintro rfl
    have hpositive : 0 < k.height := by
      rw [CallStack.height, hk]
      exact Nat.succ_pos _
    refine ⟨fun hf => ?inside, fun line hkind hline ⟨g, hg, htop⟩ => ?latest⟩
    case inside =>
      have hle := hleads.height_le hk hf
      refine Option.eq_none_iff_forall_ne_some.2 fun body hbody => ?_
      obtain ⟨-, -, line, -, hlt⟩ := (h.stop_stepOut hsound hpositive body).1 hbody
      omega
    case latest =>
      exact (h.stop_stepOut hsound hpositive _).2
        ⟨rfl, hkind, line, hline, hleads.height_gt hk hg htop⟩

-- ---------------------------------------------------------------------------
-- A function that calls itself
-- ---------------------------------------------------------------------------

namespace Chronicle

def revise (f : System σ τ → System σ τ) (c : Chronicle σ τ) : Chronicle σ τ :=
  { c with sys := f c.sys }

theorem overlooks (host : Host σ τ) : (recorder host).Overlooks revise where
  arrive c _ := congrArg (Chronicle.mk _) (List.append_nil _)
  read {c} hp := by
    have hp : c.sys.session.phase = .reading := hp
    simp only [recorder, play, revise, System.sessionNotes, hp, List.append_nil]
  twice {_ _ _ c} heq := congrArg (Chronicle.mk · c.notes) heq

end Chronicle

def breakText : String :=
  "\x7b\"seq\":1,\"type\":\"request\",\"command\":\"setBreakpoints\",\"arguments\":" ++
    "\x7b\"source\":\x7b\"path\":\"a.lua\"\x7d,\"breakpoints\":[\x7b\"line\":3\x7d]\x7d\x7d"

def clearText : String :=
  "\x7b\"seq\":1,\"type\":\"request\",\"command\":\"setBreakpoints\",\"arguments\":" ++
    "\x7b\"source\":\x7b\"path\":\"a.lua\"\x7d\x7d\x7d"

def nextText : String := "\x7b\"seq\":1,\"type\":\"request\",\"command\":\"next\"\x7d"

def sourceArgument : String × Json := ("source", .obj [("path", .str "a.lua")])

def breakArguments : Json :=
  .obj [("breakpoints", .arr [.obj [("line", .int 3)]]), sourceArgument]

def clearArguments : Json := .obj [sourceArgument]

set_option maxRecDepth 1024 in
theorem Packet.Reader.readMessage_break :
    ({ arrivals := [packetOf breakText] } : Packet.Reader).readMessage =
      (.item (arguedMessage "setBreakpoints" breakArguments), {}) :=
  readMessage_of_text (by decide +kernel) (by with_unfolding_all rfl)

theorem Packet.Reader.readMessage_clear :
    ({ arrivals := [packetOf clearText] } : Packet.Reader).readMessage =
      (.item (arguedMessage "setBreakpoints" clearArguments), {}) :=
  readMessage_of_text (by decide +kernel) (by with_unfolding_all rfl)

theorem Packet.Reader.readMessage_next :
    ({ arrivals := [packetOf nextText] } : Packet.Reader).readMessage =
      (.item (bareMessage "next"), {}) :=
  readMessage_of_text (by decide +kernel) (by with_unfolding_all rfl)

def atLine (line : UInt32) : ExecutionEvent :=
  { kind := .line, source := some "@a.lua", line := some line }

def calling : ExecutionEvent := { kind := .call, function := some "f" }

def returning : ExecutionEvent := { kind := .ret }

def activations (n : Nat) : Scripted.Stack := List.replicate n { info := { kind := .main } }

/-- In line 3 the function calls itself, comes to this line again, and returns. -/
def recursion : List (Item Scripted.Stack) :=
  [.event (atLine 3) (activations 2), .event calling (activations 3),
    .event (atLine 3) (activations 3), .event returning (activations 3),
    .event (atLine 4) (activations 2)]

def recursionMoves : List Move :=
  (Move.arrive [packetOf breakText] :: .step .session ::
      (List.replicate 3 (Move.step .session) ++ List.replicate 6 (Move.step .thread))) ++
    (Move.arrive [packetOf clearText] :: .step .session ::
      List.replicate 3 (Move.step .session)) ++
    (Move.arrive [packetOf nextText] :: .step .session ::
      (List.replicate 6 (Move.step .session) ++ List.replicate 15 (Move.step .thread)))

def recursionRun : Chronicle Scripted.Stack OneShot :=
  .run scriptedHost recursionMoves { sys := .start (.fresh .sensitive) {} recursion }

def lineSet : Breakpoints :=
  ((Breakpoints.fresh .sensitive).setLines { path := some "a.lua" } [{ line := 3 }]).2

def lineCleared : Breakpoints := (lineSet.setLines { path := some "a.lua" } []).2

def untilRecursion : List (Note Scripted.Stack) :=
  let body := Debugger.stoppedBy "breakpoint" (some 1)
  [.event (atLine 3), .verdict (atLine 3) lineSet (activations 2) (some body),
    .stopped (.debugger (atLine 3)) body]

def intoRecursion : List (Note Scripted.Stack) :=
  [.event calling, .verdict calling lineCleared (activations 3) none, .event (atLine 3)]

def outOfRecursion : List (Note Scripted.Stack) :=
  [.event returning, .verdict returning lineCleared (activations 3) none, .event (atLine 4)]

theorem recursionRun_notes : recursionRun.notes =
    untilRecursion ++ Note.resumed (atLine 3) .stepOver (activations 2) :: intoRecursion ++
      Note.verdict (atLine 3) lineCleared (activations 3) none ::
        (outOfRecursion ++ [Note.verdict (atLine 4) lineCleared (activations 2)
          (some (Debugger.stoppedBy "step" none))]) := by
  simp only [recursionRun, recursionMoves, Chronicle.run, Recorder.run_append]
  rw [(Chronicle.overlooks _).run_read _ rfl rfl rfl Packet.Reader.readMessage_break rfl,
    (Chronicle.overlooks _).run_read _ rfl rfl rfl Packet.Reader.readMessage_clear rfl,
    (Chronicle.overlooks _).run_read _ rfl rfl rfl Packet.Reader.readMessage_next rfl]
  rfl

def outerCall : CallStack where
  frames := [1, 0]
  entered := 2
  newer := by decide
  known := by decide

theorem steps_respect_calls_recursion : ∃ stop stop',
    Stretch Scripted.interpreter recursionRun.notes (atLine 3) .stepOver outerCall (atLine 3) stop
        outerCall.push ∧
      Stretch Scripted.interpreter recursionRun.notes (atLine 3) .stepOver outerCall (atLine 4)
        stop' outerCall.push.pop ∧
      stop = none ∧ stop' = some (Debugger.stoppedBy "step" none) := by
  have hinto : WellNested Scripted.interpreter outerCall
      [(calling, activations 3), (atLine 3, activations 3)] outerCall.push :=
    (WellNested.start.call rfl).line rfl (List.cons_ne_nil _ _) ⟨_, rfl, rfl⟩
  have hout : WellNested Scripted.interpreter outerCall
      [(calling, activations 3), (atLine 3, activations 3), (returning, activations 3),
        (atLine 4, activations 2)] outerCall.push.pop :=
    (hinto.ret rfl (List.cons_ne_nil _ _)).line rfl (List.cons_ne_nil _ _) ⟨_, rfl, rfl⟩
  have hinner : Stretch Scripted.interpreter recursionRun.notes (atLine 3) .stepOver outerCall
      (atLine 3) none outerCall.push :=
    .mk recursionRun_notes (by simp [intoRecursion, Note.resumption?])
      (by simp [Gone, untilRecursion, intoRecursion]) rfl rfl ⟨_, rfl, rfl⟩ hinto
  have hnotes : recursionRun.notes =
      untilRecursion ++ .resumed (atLine 3) .stepOver (activations 2) ::
          (intoRecursion ++ .verdict (atLine 3) lineCleared (activations 3) none ::
            outOfRecursion) ++
        [.verdict (atLine 4) lineCleared (activations 2)
          (some (Debugger.stoppedBy "step" none))] := recursionRun_notes
  have houter : Stretch Scripted.interpreter recursionRun.notes (atLine 3) .stepOver outerCall
      (atLine 4) (some (Debugger.stoppedBy "step" none)) outerCall.push.pop :=
    .mk hnotes (by simp [intoRecursion, outOfRecursion, Note.resumption?])
      (by simp [Gone, untilRecursion, intoRecursion, outOfRecursion]) rfl rfl ⟨_, rfl, rfl⟩ hout
  refine ⟨_, _, hinner, houter, ?under, ?latest⟩
  case under =>
    exact ((steps_respect_calls scriptedHost .sensitive {} recursion recursionMoves hinner rfl).1
      rfl).1 (by decide) (by decide)
  case latest =>
    exact ((steps_respect_calls scriptedHost .sensitive {} recursion recursionMoves houter rfl).1
      rfl).2 4 rfl rfl (.inl ⟨rfl, by decide⟩)

end DebugAdapter
