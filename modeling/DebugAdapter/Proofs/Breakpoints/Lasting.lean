import DebugAdapter.Proofs.Breakpoints.Latest
import Mathlib.Data.List.Nodup

/-!
# Numbers that last

A breakpoint keeps the number that it was given and a source the number that it got at first sight.
`numbers_last`: after any calls on a fresh registry the breakpoints of both kinds were numbered one
after the other, and one that was replaced is not found any more; the sources are those that were
named, each entered once, and later calls change neither their numbers nor what is found for a
number.
-/

namespace DebugAdapter.Breakpoints

open Protocol

variable {b : Breakpoints} {s t : Source} {path : Option String} {n : Nat}

-- ---------------------------------------------------------------------------
-- Sources by first sight
-- ---------------------------------------------------------------------------

namespace Call

def source? : Call → Option Source
  | .lines source _ => some source
  | .functions _ => none

/-- What each breakpoint of a call is to be reported with. -/
def asked : Call → List (Option Source × Option UInt32)
  | .lines source specs => specs.map fun spec => (some source, some spec.line)
  | .functions specs => specs.map fun _ => (none, none)

def replaces (ignoresCase : Bool) : Call → Call → Bool
  | .lines s _, .lines t _ => Path.same ignoresCase s.path t.path
  | .functions _, .functions _ => true
  | .lines .., .functions _ | .functions _, .lines .. => false

end Call

/-- The sources that calls name, each where it is named first. -/
def firstSights (ignoresCase : Bool) (calls : List Call) : List Source :=
  (calls.filterMap Call.source?).eraseDupsBy fun s t => Path.same ignoresCase s.path t.path

theorem sources_intern : (b.intern s).2.sources =
    if b.sources.any (fun t => Path.same b.ignoresCase s.path t.path) then b.sources
    else b.sources ++ [s] := by
  have hany : b.sources.any (fun t => Path.same b.ignoresCase s.path t.path) =
      (b.find? s.path).isSome := by
    simp only [find?, Option.isSome_map, List.findIdx?_isSome, Path.same_comm (p := s.path)]
  rw [hany, intern]
  cases b.find? s.path <;> rfl

theorem sources_perform (b : Breakpoints) (call : Call) : (b.perform call).2.sources =
    match call.source? with
    | some s => (b.intern s).2.sources
    | none => b.sources := by
  cases call <;> rfl

theorem sources_run (b : Breakpoints) (calls : List Call) : (b.run calls).2.sources =
    List.eraseDupsBy.loop (fun s t => Path.same b.ignoresCase s.path t.path)
      (calls.filterMap Call.source?) b.sources.reverse := by
  induction calls generalizing b with
  | nil => simp [run, List.eraseDupsBy.loop]
  | cons call calls ih =>
    rw [run, ih, sources_perform, ignoresCase_perform]
    cases hs : call.source? with
    | none => simp [hs]
    | some s =>
      rw [List.filterMap_cons_some hs, List.eraseDupsBy.loop, List.any_reverse]
      dsimp only
      rw [sources_intern]
      cases b.sources.any fun t => Path.same b.ignoresCase s.path t.path with
      | true => rfl
      | false => simp

theorem sources_run_fresh (paths : PathCase) (calls : List Call) :
    ((fresh paths).run calls).2.sources = firstSights paths.ignoresCase calls :=
  sources_run (fresh paths) calls

-- ---------------------------------------------------------------------------
-- One call
-- ---------------------------------------------------------------------------

theorem source?_eq (b : Breakpoints) (n : Nat) :
    b.source? n = if n = 0 then none else b.sources[n - 1]? := by
  cases n <;> rfl

theorem source?_intern (h : b.source? n = some t) : (b.intern s).2.source? n = some t := by
  cases n with
  | zero => cases h
  | succ n =>
    have h : b.sources[n]? = some t := h
    show (b.intern s).2.sources[n]? = some t
    rw [sources_intern]
    split
    · exact h
    · exact List.getElem?_append_left (List.getElem?_eq_some_iff.1 h).1 ▸ h

theorem find?_intern (h : b.find? path = some n) : (b.intern s).2.find? path = some n := by
  cases hs : Path.same b.ignoresCase s.path path with
  | true =>
    have hfirst : (b.intern s).1 = n := by rw [intern, (find?_congr hs).trans h]
    rw [find?_intern_of_same hs, hfirst]
  | false => rw [find?_intern_of_not_same hs, h]

/-- No source is there twice, and every breakpoint on a line belongs to one that is there. -/
structure Tidy (b : Breakpoints) : Prop where
  distinct : b.sources.Pairwise fun s t => Path.same b.ignoresCase s.path t.path = false
  referenced : ∀ p ∈ b.onLines, ∃ s, b.source? p.sourceId = some s

theorem tidy_fresh (paths : PathCase) : (fresh paths).Tidy where
  distinct := .nil
  referenced := by simp [fresh]

theorem Tidy.intern (h : b.Tidy) (s : Source) :
    (b.intern s).2.Tidy ∧ ∃ t, (b.intern s).2.source? (b.intern s).1 = some t := by
  obtain ⟨hdistinct, hreferenced⟩ := h
  refine ⟨⟨?distinct, ?referenced⟩, ?interned⟩
  case distinct =>
    rw [sources_intern, ignoresCase_intern]
    split
    · exact hdistinct
    · rename_i hnew
      refine List.pairwise_append.2 ⟨hdistinct, List.pairwise_singleton _ _, fun t ht u hu => ?_⟩
      rw [List.mem_singleton.1 hu, Path.same_comm]
      simpa using fun hsame => hnew (List.any_eq_true.2 ⟨t, ht, hsame⟩)
  case referenced =>
    intro p hp
    rw [onLines_intern] at hp
    obtain ⟨t, ht⟩ := hreferenced p hp
    exact ⟨t, source?_intern ht⟩
  case interned =>
    have hself : Path.same b.ignoresCase s.path s.path = true := Path.same_iff.2 rfl
    have hfound := find?_intern_of_same hself
    obtain ⟨t, ht, -⟩ := same_of_find? hfound
    obtain ⟨i, hi, hnum⟩ := Option.map_eq_some_iff.1 hfound
    rw [← hnum] at ht ⊢
    exact ⟨t, ht⟩

theorem Tidy.perform (h : b.Tidy) (call : Call) : (b.perform call).2.Tidy := by
  cases call with
  | functions specs => exact ⟨h.distinct, h.referenced⟩
  | lines source specs =>
    obtain ⟨⟨hdistinct, hreferenced⟩, hown⟩ := h.intern source
    refine ⟨hdistinct, fun p hp => ?_⟩
    rcases List.mem_append.1 hp with hp | hp
    · exact hreferenced p (List.mem_filter.1 hp).1
    · obtain ⟨_, -, rfl⟩ := List.mem_map.1 hp
      exact hown

theorem Tidy.run (h : b.Tidy) (calls : List Call) : (b.run calls).2.Tidy := by
  induction calls generalizing b with
  | nil => exact h
  | cons call calls ih => exact ih (h.perform call)

theorem Tidy.find?_eq_some_iff (h : b.Tidy) (path : Option String) (n : Nat) :
    b.find? path = some n ↔
      ∃ s, b.source? n = some s ∧ Path.same b.ignoresCase s.path path = true := by
  constructor
  · intro hfound
    obtain ⟨s, hs, hsame⟩ := same_of_find? hfound
    obtain ⟨i, -, rfl⟩ := Option.map_eq_some_iff.1 hfound
    exact ⟨s, hs, hsame⟩
  · rintro ⟨s, hs, hsame⟩
    cases n with
    | zero => cases hs
    | succ n =>
      obtain ⟨hn, rfl⟩ := List.getElem?_eq_some_iff.1 hs
      refine Option.map_eq_some_iff.2 ⟨n, List.findIdx?_eq_some_iff_getElem.2
        ⟨hn, hsame, fun i hi hearlier => ?_⟩, rfl⟩
      -- A source before it that means the same would be the same source.
      have hapart := List.pairwise_iff_getElem.1 h.distinct i n (by omega) hn hi
      rw [Path.same_trans hearlier (Path.same_comm.trans hsame)] at hapart
      cases hapart

theorem source?_perform (call : Call) (h : b.source? n = some t) :
    (b.perform call).2.source? n = some t := by
  cases call with
  | lines source specs => exact source?_intern h
  | functions specs => exact h

theorem find?_perform (call : Call) (h : b.find? path = some n) :
    (b.perform call).2.find? path = some n := by
  cases call with
  | lines source specs => exact find?_intern h
  | functions specs => exact h

theorem given_asked (b : Breakpoints) (call : Call) :
    (b.perform call).1.map (fun g => (g.source, g.line)) = call.asked := by
  have hmap {α β : Type} (f : α → β) (minted : Nat) (as : List α) :
      (numbered minted as).map (fun e => f e.2) = as.map f := by
    rw [← Function.comp_def f Prod.snd, ← List.map_map, map_snd_numbered]
  cases call with
  | lines source specs =>
    simp [perform, setLines, Call.asked, Function.comp_def,
      hmap fun spec : SourceBreakpoint => (some source, some spec.line)]
  | functions specs =>
    simp [perform, setCalls, Call.asked, Function.comp_def,
      hmap fun _ : FunctionBreakpoint => ((none, none) : Option Source × Option UInt32)]

-- ---------------------------------------------------------------------------
-- Whole runs
-- ---------------------------------------------------------------------------

theorem source?_run (calls : List Call) (h : b.source? n = some t) :
    (b.run calls).2.source? n = some t := by
  induction calls generalizing b with
  | nil => exact h
  | cons call calls ih => exact ih (source?_perform call h)

theorem find?_run (calls : List Call) (h : b.find? path = some n) :
    (b.run calls).2.find? path = some n := by
  induction calls generalizing b with
  | nil => exact h
  | cons call calls ih => exact ih (find?_perform call h)

theorem calls_run (b : Breakpoints) (calls : List Call) :
    (b.run calls).1.map (·.call) = calls := by
  induction calls generalizing b with
  | nil => rfl
  | cons call calls ih => exact congrArg (call :: ·) (ih _)

theorem asked_run (b : Breakpoints) (calls : List Call) {p : Performed}
    (h : p ∈ (b.run calls).1) : p.given.map (fun g => (g.source, g.line)) = p.call.asked := by
  induction calls generalizing b with
  | nil => cases h
  | cons call calls ih =>
    obtain rfl | h := List.mem_cons.1 h
    · exact given_asked b call
    · exact ih _ h

theorem numbers_run (paths : PathCase) (calls : List Call)
    (few : (calls.map Call.size).sum < 2 ^ 32) :
    ((((fresh paths).run calls).1.flatMap (·.given)).map (·.id.toNat)) =
      List.range' 1 (calls.map Call.size).sum := by
  have hids := congrArg (List.map UInt32.toNat) (given_run (fresh paths) calls)
  simp only [List.map_map] at hids
  refine hids.trans ((List.map_congr_left fun n hn => ?_).trans (List.map_id _))
  have hle := (List.mem_range'_1.1 hn).2
  exact UInt32.toNat_ofNat_of_lt' (show n < 2 ^ 32 by simp only [fresh] at hle; omega)

theorem matchLine_run (paths : PathCase) (calls : List Call) (path : Option String)
    (line : UInt32) : ((fresh paths).run calls).2.matchLine path line =
      firstOf (·.line == line)
        (latest? (Call.onSource? paths.ignoresCase path) ((fresh paths).run calls).1) := by
  have hset := (setOf_run (fresh paths) calls path).trans (Option.getD_map (List.map place) [] _)
  rw [matchLine_eq, hset, List.find?_map, Option.map_map]
  rfl

theorem matchCall_run (paths : PathCase) (calls : List Call) (function : String) :
    ((fresh paths).run calls).2.matchCall function =
      firstOf (·.name == function) (latest? Call.onFunctions? ((fresh paths).run calls).1) := by
  have hset := (onCalls_run (fresh paths) calls).trans (Option.getD_map (List.map entry) [] _)
  rw [matchCall, hset, List.find?_map, Option.map_map]
  rfl

-- ---------------------------------------------------------------------------
-- Breakpoints that were replaced
-- ---------------------------------------------------------------------------

theorem apart_of_numbers {past : List Performed} {m : Nat}
    (h : (past.flatMap (·.given)).map (·.id.toNat) = List.range' 1 m) {i k : Nat} {p r : Performed}
    (hi : past[i]? = some p) (hk : past[k]? = some r) (hne : i ≠ k) {x : UInt32}
    (hp : x ∈ p.given.map (·.id)) : x ∉ r.given.map (·.id) := by
  have hnodup : (past.flatMap fun p => p.given.map (·.id)).Nodup := by
    rw [← List.map_flatMap]
    refine List.Nodup.of_map UInt32.toNat ?_
    rw [List.map_map]
    exact h ▸ List.nodup_range'
  obtain ⟨hlti, rfl⟩ := List.getElem?_eq_some_iff.1 hi
  obtain ⟨hltk, rfl⟩ := List.getElem?_eq_some_iff.1 hk
  have hdisjoint := List.pairwise_iff_getElem.1 (List.nodup_flatMap.1 hnodup).2
  obtain hlt | hlt := Nat.lt_or_gt_of_ne hne
  · exact fun hr => hdisjoint i k hlti hltk hlt hp hr
  · exact fun hr => hdisjoint k i hltk hlti hlt hr hp

/-- What is found in the latest call of a kind is from a call after which there was none of the
kind. -/
theorem latest_of_firstOf {kind : Call → Option (List α)} {past : List Performed} {p : α → Bool}
    {x : UInt32} (h : firstOf p (latest? kind past) = some x) :
    ∃ (k : Nat) (r : Performed), past[k]? = some r ∧ (kind r.call).isSome ∧
      x ∈ r.given.map (·.id) ∧
      ∀ (j : Nat) (q : Performed), past[j]? = some q → k < j → kind q.call = none := by
  obtain ⟨e, he, rfl⟩ := Option.map_eq_some_iff.1 h
  cases hlatest : latest? kind past with
  | none =>
    rw [hlatest] at he
    cases he
  | some items =>
    rw [hlatest] at he
    obtain ⟨after, r, before, hsplit, hr, hafter⟩ := List.findSome?_eq_some_iff.1 hlatest
    obtain ⟨specs, hspecs, rfl⟩ := Option.map_eq_some_iff.1 hr
    have hpast : past = before.reverse ++ r :: after.reverse := by
      rw [← List.reverse_reverse past, hsplit]
      simp
    refine ⟨before.reverse.length, r, by simp [hpast], by simp [hspecs],
      List.mem_map.2 ⟨e.2, (List.of_mem_zip (List.mem_of_find?_eq_some he)).2, rfl⟩, ?_⟩
    intro j q hq hlt
    obtain ⟨m, rfl⟩ := Nat.exists_eq_add_of_lt hlt
    have hq : after.reverse[m]? = some q := by
      rw [hpast, Nat.add_assoc, List.getElem?_append_right (Nat.le_add_right _ _),
        Nat.add_sub_cancel_left, List.getElem?_cons_succ] at hq
      exact hq
    exact Option.map_eq_none_iff.1 (hafter q (List.mem_reverse.1 (List.mem_of_getElem? hq)))

variable {past : List Performed} {ignoresCase : Bool} {i j : Nat} {p q : Performed}

theorem not_found_of_replaced {kind : Call → Option (List α)} {m : Nat} {found : α → Bool}
    (h : (past.flatMap (·.given)).map (·.id.toNat) = List.range' 1 m) (hi : past[i]? = some p)
    (hj : past[j]? = some q) (hlt : i < j)
    (hkind : (kind p.call).isSome → kind q.call ≠ none) {x : UInt32}
    (hx : x ∈ p.given.map (·.id)) : firstOf found (latest? kind past) ≠ some x := by
  intro hfound
  obtain ⟨k, r, hk, hr, hxr, hlater⟩ := latest_of_firstOf hfound
  obtain rfl : i = k := by
    by_contra hne
    exact apart_of_numbers h hi hk hne hx hxr
  cases hi.symm.trans hk
  exact hkind hr (hlater j q hj hlt)

theorem onSource?_of_replaces (h : q.call.replaces ignoresCase p.call = true)
    (hp : (p.call.onSource? ignoresCase path).isSome) :
    q.call.onSource? ignoresCase path ≠ none := by
  cases hpc : p.call with
  | functions specs => simp [hpc, Call.onSource?] at hp
  | lines s specs =>
    cases hqc : q.call with
    | functions specs' => simp [hpc, hqc, Call.replaces] at h
    | lines t specs' =>
      simp only [hpc, hqc, Call.replaces, Call.onSource?] at h hp ⊢
      have hs : Path.same ignoresCase s.path path = true := by
        by_contra hs
        simp [hs] at hp
      simp [Path.same_trans h hs]

theorem onFunctions?_of_replaces (h : q.call.replaces ignoresCase p.call = true)
    (hp : p.call.onFunctions?.isSome) : q.call.onFunctions? ≠ none := by
  cases hpc : p.call with
  | lines s specs => simp [hpc, Call.onFunctions?] at hp
  | functions specs =>
    cases hqc : q.call with
    | lines t specs' => simp [hpc, hqc, Call.replaces] at h
    | functions specs' => simp [Call.onFunctions?]

-- ---------------------------------------------------------------------------
-- All that lasts
-- ---------------------------------------------------------------------------

structure Lasting (ignoresCase : Bool) (calls : List Call) (past : List Performed)
    (b : Breakpoints) : Prop where
  made : past.map (·.call) = calls
  /-- A call gives one breakpoint for each thing that it asks for, in the same order. -/
  given : ∀ p ∈ past, p.given.map (fun g => (g.source, g.line)) = p.call.asked
  /-- All breakpoints are numbered one after the other, whatever they are on. -/
  numbers : (past.flatMap (·.given)).map (·.id.toNat) =
    List.range' 1 (past.flatMap (·.given)).length
  /-- A number that was replaced is neither given out nor found any more. -/
  replaced : ∀ (i j : Nat) (p q : Performed), past[i]? = some p → past[j]? = some q → i < j →
    q.call.replaces ignoresCase p.call = true → ∀ g ∈ p.given,
      (∀ (k : Nat) (r : Performed), past[k]? = some r → k ≠ i → g.id ∉ r.given.map (·.id)) ∧
      (∀ path line, b.matchLine path line ≠ some g.id) ∧
      ∀ function, b.matchCall function ≠ some g.id
  /-- Sources are numbered by first sight, from one on. -/
  sources : ∀ n, b.source? n = if n = 0 then none else (firstSights ignoresCase calls)[n - 1]?
  distinct : ∀ m n s t, b.source? m = some s → b.source? n = some t →
    Path.same ignoresCase s.path t.path = true → m = n
  /-- A source has the number of the one that means the same. -/
  found : ∀ s n, b.sourceId? s = some n ↔
    ∃ t, b.source? n = some t ∧ Path.same ignoresCase t.path s.path = true
  referenced : ∀ p ∈ b.onLines, ∃ s, b.source? p.sourceId = some s
  /-- Whatever is called later, a number keeps its source and a source its number. -/
  later : ∀ more n s,
    (b.source? n = some s → (b.run more).2.source? n = some s) ∧
    (b.sourceId? s = some n → (b.run more).2.sourceId? s = some n)
  /-- A source that means the same as one that is there is not entered. -/
  known : ∀ n s t specs, b.source? n = some t → Path.same ignoresCase t.path s.path = true →
    (b.setLines s specs).2.sources = b.sources

/-- After any calls on a fresh registry numbers last: those of breakpoints as long as there are
numbers left to give out, those of sources for good. -/
theorem numbers_last (paths : PathCase) (calls : List Call)
    (few : (calls.map Call.size).sum < 2 ^ 32) :
    Lasting paths.ignoresCase calls ((fresh paths).run calls).1 ((fresh paths).run calls).2 := by
  have hcase : ((fresh paths).run calls).2.ignoresCase = paths.ignoresCase := ignoresCase_run _ _
  have hnumbers := numbers_run paths calls few
  have htidy : ((fresh paths).run calls).2.Tidy := (tidy_fresh paths).run calls
  have hfound := htidy.find?_eq_some_iff
  rw [hcase] at hfound
  refine {
    made := calls_run _ _
    given := fun p => asked_run _ _
    numbers := ?_
    replaced := fun i j p q hi hj hlt hreplaces g hg => ⟨fun k r hk hne => ?_, fun path line => ?_,
      fun function => ?_⟩
    sources := fun n => ?_
    distinct := fun m n s t hm hn hsame => ?_
    found := fun s n => hfound s.path n
    referenced := htidy.referenced
    later := fun more n s => ⟨source?_run more, find?_run more⟩
    known := fun n s t specs ht hsame => ?_ }
  · have hlength := congrArg List.length hnumbers
    rw [List.length_map, List.length_range'] at hlength
    rw [hnumbers, hlength]
  · exact apart_of_numbers hnumbers hi hk hne.symm (List.mem_map_of_mem hg)
  · rw [matchLine_run]
    exact not_found_of_replaced hnumbers hi hj hlt (onSource?_of_replaces hreplaces)
      (List.mem_map_of_mem hg)
  · rw [matchCall_run]
    exact not_found_of_replaced hnumbers hi hj hlt (onFunctions?_of_replaces hreplaces)
      (List.mem_map_of_mem hg)
  · rw [source?_eq, sources_run_fresh]
  · have hs := (hfound s.path m).2 ⟨s, hm, Path.same_iff.2 rfl⟩
    have ht := (hfound s.path n).2 ⟨t, hn, Path.same_comm.trans hsame⟩
    exact Option.some.inj (hs.symm.trans ht)
  · show (((fresh paths).run calls).2.intern s).2.sources = _
    have hn := (hfound s.path n).2 ⟨t, ht, hsame⟩
    rw [intern, hn]

/-- Functions and two files, one of them under two names; the second call for it takes everything
away. -/
def mixedCalls : List Call :=
  [.functions [{ name := "draw" }],
    .lines { path := some "A.lua" } [{ line := 3 }, { line := 7 }],
    .functions [{ name := "tick" }],
    .lines { path := some "@./a.LUA" } [],
    .lines { path := some "b.lua" } [{ line := 3 }]]

theorem numbers_last_mixed :
    (mixedCalls.map Call.size).sum < 2 ^ 32 ∧
      Lasting true mixedCalls ((fresh .insensitive).run mixedCalls).1
        ((fresh .insensitive).run mixedCalls).2 ∧
      ((fresh .insensitive).run mixedCalls).2.matchLine (some "a.lua") 3 = none ∧
      ((fresh .insensitive).run mixedCalls).2.matchLine (some "@b.lua") 3 = some 5 := by
  have few : (mixedCalls.map Call.size).sum < 2 ^ 32 := by decide
  exact ⟨few, numbers_last .insensitive mixedCalls few, by decide +kernel, by decide +kernel⟩

end DebugAdapter.Breakpoints
