import DebugAdapter.Breakpoints.Basic

/-!
# The breakpoints of a source

All sources share one list of breakpoints. Seen through `setOf` the list is a map: each source has
its own breakpoints, setting those of one source leaves those of every other source as they were,
and paths that mean one source find the same breakpoints.
-/

namespace DebugAdapter

open Protocol

-- ---------------------------------------------------------------------------
-- Names of one source
-- ---------------------------------------------------------------------------

namespace Path

variable {ignoresCase : Bool} {p q r : Option String}

theorem same_comm : same ignoresCase p q = same ignoresCase q p := by
  rw [Bool.eq_iff_iff, same_iff, same_iff, eq_comm]

theorem same_trans (h : same ignoresCase p q = true) (h' : same ignoresCase q r = true) :
    same ignoresCase p r = true :=
  same_iff.2 ((same_iff.1 h).trans (same_iff.1 h'))

theorem same_congr (h : same ignoresCase p q = true) :
    same ignoresCase r p = same ignoresCase r q := by
  rw [Bool.eq_iff_iff, same_iff, same_iff, same_iff.1 h]

end Path

namespace Breakpoints

variable {b : Breakpoints} {s : Source} {path path' : Option String} {id : Nat}
  {specs : List SourceBreakpoint}

-- ---------------------------------------------------------------------------
-- Numbers of sources
-- ---------------------------------------------------------------------------

theorem find?_congr (h : Path.same b.ignoresCase path path' = true) :
    b.find? path = b.find? path' := by
  simp only [find?, Path.same_congr h]

theorem same_of_find? (h : b.find? path = some id) :
    ∃ s, b.sources[id - 1]? = some s ∧ Path.same b.ignoresCase s.path path = true := by
  obtain ⟨i, hi, rfl⟩ := Option.map_eq_some_iff.1 h
  obtain ⟨hlt, hs, -⟩ := List.findIdx?_eq_some_iff_getElem.1 hi
  exact ⟨b.sources[i], by simp, hs⟩

theorem same_of_find?_eq (h : b.find? path = some id) (h' : b.find? path' = some id) :
    Path.same b.ignoresCase path path' = true := by
  obtain ⟨s, hs, hp⟩ := same_of_find? h
  obtain ⟨s', hs', hp'⟩ := same_of_find? h'
  cases hs.symm.trans hs'
  exact Path.same_trans (Path.same_comm.trans hp) hp'

theorem ignoresCase_intern : (b.intern s).2.ignoresCase = b.ignoresCase := by
  unfold intern
  split <;> rfl

theorem minted_intern : (b.intern s).2.minted = b.minted := by
  unfold intern
  split <;> rfl

theorem onLines_intern : (b.intern s).2.onLines = b.onLines := by
  unfold intern
  split <;> rfl

theorem onCalls_intern : (b.intern s).2.onCalls = b.onCalls := by
  unfold intern
  split <;> rfl

theorem find?_intern_of_same (h : Path.same b.ignoresCase s.path path = true) :
    (b.intern s).2.find? path = some (b.intern s).1 := by
  unfold intern
  cases hs : b.find? s.path with
  | some id => exact (find?_congr h).symm.trans hs
  | none =>
    -- Nothing in front of the new source means it.
    rw [find?_congr h, find?, Option.map_eq_none_iff] at hs
    simp [find?, List.findIdx?_append, hs, h]

theorem find?_intern_of_not_same (h : Path.same b.ignoresCase s.path path = false) :
    (b.intern s).2.find? path = b.find? path := by
  unfold intern
  cases b.find? s.path with
  | some id => rfl
  | none => simp [find?, List.findIdx?_append, h]

theorem find?_ne_of_not_same (h : Path.same b.ignoresCase s.path path = false) :
    b.find? path ≠ some (b.intern s).1 := by
  intro hp
  have hs : b.find? s.path = some (b.intern s).1 ∨ (b.intern s).1 = b.sources.length + 1 := by
    unfold intern
    cases b.find? s.path with
    | some id => exact .inl rfl
    | none => exact .inr rfl
  obtain hs | hs := hs
  · have hsame := same_of_find?_eq hs hp
    rw [h] at hsame
    cases hsame
  · obtain ⟨i, hi, hnum⟩ := Option.map_eq_some_iff.1 hp
    obtain ⟨hlt, -⟩ := List.findIdx?_eq_some_iff_getElem.1 hi
    omega

-- ---------------------------------------------------------------------------
-- Breakpoints
-- ---------------------------------------------------------------------------

/-- Number and line of each breakpoint of the source that a path means, in their order. -/
def setOf (b : Breakpoints) (path : Option String) : List (UInt32 × UInt32) :=
  match b.find? path with
  | none => []
  | some id => (b.onLines.filter (·.sourceId == id)).map fun p => (p.id, p.line)

theorem matchLine_eq (b : Breakpoints) (path : Option String) (line : UInt32) :
    b.matchLine path line = ((b.setOf path).find? (·.2 == line)).map (·.1) := by
  unfold matchLine setOf
  cases b.find? path with
  | none => rfl
  | some id =>
    simp only [Option.bind_some, List.find?_map, List.find?_filter, Option.map_map,
      Function.comp_def, ← Bool.and_eq_decide]

theorem linesOf_eq (b : Breakpoints) (s : Source) :
    b.linesOf s = (b.setOf s.path).map (·.2) := by
  unfold linesOf setOf
  cases b.find? s.path with
  | none => rfl
  | some id => simp

/-- What a source is given: its new breakpoints take the next numbers. -/
def entered (b : Breakpoints) (specs : List SourceBreakpoint) : List (UInt32 × UInt32) :=
  (numbered b.minted specs).map fun (id, spec) => (id, spec.line)

theorem setOf_setLines_of_same (specs : List SourceBreakpoint)
    (h : Path.same b.ignoresCase s.path path = true) :
    (b.setLines s specs).2.setOf path = b.entered specs := by
  have hfind : (b.setLines s specs).2.find? path = some (b.intern s).1 := find?_intern_of_same h
  have hold : ((b.intern s).2.onLines.filter (·.sourceId != (b.intern s).1)).filter
      (·.sourceId == (b.intern s).1) = [] := by
    simp [List.filter_eq_nil_iff]
  have hnew (ids : List (UInt32 × SourceBreakpoint)) :
      ((ids.map fun (id, spec) => (⟨id, (b.intern s).1, spec.line⟩ : LineBreakpoint)).filter
        (·.sourceId == (b.intern s).1)) =
      ids.map fun (id, spec) => ⟨id, (b.intern s).1, spec.line⟩ := by
    rw [List.filter_eq_self]
    intro p hp
    obtain ⟨_, _, rfl⟩ := List.mem_map.1 hp
    exact beq_self_eq_true _
  rw [setOf, hfind]
  simp only [setLines, List.filter_append, hold, hnew, List.nil_append, List.map_map, entered,
    minted_intern, Function.comp_def]

theorem setOf_setLines_of_not_same (specs : List SourceBreakpoint)
    (h : Path.same b.ignoresCase s.path path = false) :
    (b.setLines s specs).2.setOf path = b.setOf path := by
  have hfind : (b.setLines s specs).2.find? path = b.find? path := find?_intern_of_not_same h
  rw [setOf, setOf, hfind]
  cases hp : b.find? path with
  | none => rfl
  | some id =>
    have hne : (b.intern s).1 ≠ id := fun he => find?_ne_of_not_same h (he ▸ hp)
    have hkept (p : LineBreakpoint) :
        (p.sourceId == id && p.sourceId != (b.intern s).1) = (p.sourceId == id) := by
      by_cases hid : p.sourceId = id
      · simp [hid, Ne.symm hne]
      · simp [hid]
    simp [setLines, onLines_intern, List.filter_filter, hkept, List.filter_map, hne,
      Function.comp_def]

end Breakpoints

end DebugAdapter
