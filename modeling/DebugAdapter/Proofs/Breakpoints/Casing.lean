import DebugAdapter.Proofs.Breakpoints.Reported

/-!
# Paths up to case

A registry that takes no notice of case answers as one would that does, if it were told every path
in lower case. `caseless_as_lowered` says so of all that a registry can be asked, in any order: the
numbers, lines and hits are the same, and so are the sources but for the case of their paths. Lower
case goes through the canonical form of a path, so the two registries find the same source at each
step (`find?_lowered`), however the sources that they hold are spelled.
-/

namespace DebugAdapter

open Protocol

-- ---------------------------------------------------------------------------
-- Lower case
-- ---------------------------------------------------------------------------

namespace Text

theorem toLower_cases (c : Char) :
    c.isUpper = true ∧ c.toLower.isLower = true ∨ c.isUpper = false ∧ c.toLower = c := by
  by_cases h : c.val ≥ 'A'.val ∧ c.val ≤ 'Z'.val
  · refine .inl ⟨decide_eq_true h, ?_⟩
    have hval : c.toLower.val = c.val + 32 := by
      unfold Char.toLower
      rw [dif_pos h]
      rfl
    have hbounds : 65 ≤ c.val.toNat ∧ c.val.toNat ≤ 90 := h
    have hsum : c.toLower.val.toNat = c.val.toNat + 32 := by
      rw [hval, UInt32.toNat_add]
      exact Nat.mod_eq_of_lt (by change c.val.toNat + 32 < _; omega)
    have hsmall : 97 ≤ c.toLower.val.toNat ∧ c.toLower.val.toNat ≤ 122 := by omega
    exact (Bool.and_eq_true _ _).mpr ⟨decide_eq_true hsmall.1, decide_eq_true hsmall.2⟩
  · refine .inr ⟨decide_eq_false h, ?_⟩
    unfold Char.toLower
    rw [dif_neg h]

theorem toLower_eq_iff {c d : Char} (hd : d.isAlpha = false) : c.toLower = d ↔ c = d := by
  obtain ⟨hupper, hlower⟩ : d.isUpper = false ∧ d.isLower = false := Bool.or_eq_false_iff.1 hd
  obtain ⟨hc, hsmall⟩ | ⟨-, hkeep⟩ := toLower_cases c
  · constructor
    · rintro rfl
      cases hsmall.symm.trans hlower
    · rintro rfl
      cases hc.symm.trans hupper
  · rw [hkeep]

def lowered (s : String) : String := String.ofList (lower s.toList)

end Text

namespace Path

open Text

theorem unmarked_lower (p : List Char) : unmarked (lower p) = lower (unmarked p) := by
  by_cases hp : p.head? = some '@'
  · obtain ⟨rest, rfl⟩ := List.head?_eq_some_iff.1 hp
    rfl
  · have hlower : (lower p).head? ≠ some '@' := by
      simpa [lower, toLower_eq_iff] using hp
    rw [unmarked_eq_self hlower, unmarked_eq_self hp]

theorem slashed_lower (p : List Char) : slashed (lower p) = lower (slashed p) := by
  simp only [slashed, lower, List.map_map]
  refine List.map_congr_left fun c _ => ?_
  simp only [Function.comp_apply, toLower_eq_iff (d := '\\') rfl]
  split <;> rfl

theorem undotted_eq_self {p : List Char} (h : ¬ ∃ rest, p = '.' :: '/' :: rest) :
    undotted p = p := by
  unfold undotted
  split
  · exact absurd ⟨_, rfl⟩ h
  · rfl

theorem undotted_lower (p : List Char) : undotted (lower p) = lower (undotted p) := by
  by_cases hp : ∃ rest, p = '.' :: '/' :: rest
  · obtain ⟨rest, rfl⟩ := hp
    rfl
  · have hlower : ¬ ∃ rest, lower p = '.' :: '/' :: rest := by
      rintro ⟨rest, h⟩
      obtain ⟨c, p, rfl, hc, h⟩ := List.map_eq_cons_iff.1 h
      obtain ⟨d, p, rfl, hd, -⟩ := List.map_eq_cons_iff.1 h
      exact hp ⟨p, by rw [(toLower_eq_iff rfl).1 hc, (toLower_eq_iff rfl).1 hd]⟩
    rw [undotted_eq_self hlower, undotted_eq_self hp]

/-- Case does not count in a path, or the path is in lower case: that comes to the same. -/
theorem canonical_lowered (path : Option String) :
    canonical false (path.map lowered) = canonical true path := by
  have hpath : ((path.map lowered).getD "").toList = lower (path.getD "").toList := by
    cases path with
    | none => rfl
    | some p => simp [lowered]
  simp only [canonical, hpath, unmarked_lower, slashed_lower, undotted_lower]
  rfl

theorem same_lowered (path path' : Option String) :
    same false (path.map lowered) (path'.map lowered) = same true path path' := by
  simp only [same, canonical_lowered]

end Path

def Protocol.Source.lowered (s : Source) : Source := { s with path := s.path.map Text.lowered }

-- ---------------------------------------------------------------------------
-- All that a registry can be asked
-- ---------------------------------------------------------------------------

namespace Breakpoints

inductive Operation where
  | set (call : Call)
  | matchLine (chunk : Option String) (line : UInt32)
  | matchCall (function : String)
  | sourceId (s : Source)
  | source (id : Nat)
  | linesOf (s : Source)
deriving DecidableEq, Repr

inductive Answer where
  | given (breakpoints : List Breakpoint)
  | hit (breakpoint : Option UInt32)
  | sourceId (id : Option Nat)
  | source (s : Option Source)
  | lines (found : List UInt32)
deriving DecidableEq, Repr

def operate (b : Breakpoints) : Operation → Answer × Breakpoints
  | .set call => (.given (b.perform call).1, (b.perform call).2)
  | .matchLine chunk line => (.hit (b.matchLine chunk line), b)
  | .matchCall function => (.hit (b.matchCall function), b)
  | .sourceId s => (.sourceId (b.sourceId? s), b)
  | .source id => (.source (b.source? id), b)
  | .linesOf s => (.lines (b.linesOf s), b)

def operateAll (b : Breakpoints) : List Operation → List Answer × Breakpoints
  | [] => ([], b)
  | op :: ops =>
    ((b.operate op).1 :: ((b.operate op).2.operateAll ops).1, ((b.operate op).2.operateAll ops).2)

def Call.lowered : Call → Call
  | .lines source specs => .lines source.lowered specs
  | .functions specs => .functions specs

def Operation.lowered : Operation → Operation
  | .set call => .set call.lowered
  | .matchLine chunk line => .matchLine (chunk.map Text.lowered) line
  | .matchCall function => .matchCall function
  | .sourceId s => .sourceId s.lowered
  | .source id => .source id
  | .linesOf s => .linesOf s.lowered

def Answer.lowered : Answer → Answer
  | .given breakpoints =>
    .given (breakpoints.map fun g => { g with source := g.source.map Source.lowered })
  | .hit breakpoint => .hit breakpoint
  | .sourceId id => .sourceId id
  | .source s => .source (s.map Source.lowered)
  | .lines found => .lines found

/-- A registry where case counts, and which was told every path in lower case. -/
def lowered (b : Breakpoints) : Breakpoints :=
  { b with ignoresCase := false, sources := b.sources.map Source.lowered }

-- ---------------------------------------------------------------------------
-- Step by step
-- ---------------------------------------------------------------------------

section Step

variable {b : Breakpoints} (hb : b.ignoresCase = true)

include hb

theorem find?_lowered (path : Option String) :
    b.lowered.find? (path.map Text.lowered) = b.find? path := by
  simp only [find?, lowered, List.findIdx?_map, hb, Function.comp_def, Source.lowered,
    Path.same_lowered]

theorem intern_lowered (s : Source) :
    b.lowered.intern s.lowered = ((b.intern s).1, (b.intern s).2.lowered) := by
  have hfind : b.lowered.find? s.lowered.path = b.find? s.path := find?_lowered hb s.path
  simp only [intern, hfind]
  cases b.find? s.path with
  | some id => rfl
  | none => simp [lowered]

theorem perform_lowered (call : Call) : b.lowered.perform call.lowered =
    ((b.perform call).1.map fun g => { g with source := g.source.map Source.lowered },
      (b.perform call).2.lowered) := by
  cases call with
  | functions specs => simp [perform, Call.lowered, setCalls, lowered]
  | lines source specs =>
    simp only [perform, Call.lowered, setLines, intern_lowered hb]
    simp [lowered]

theorem operate_lowered (op : Operation) :
    b.lowered.operate op.lowered = ((b.operate op).1.lowered, (b.operate op).2.lowered) := by
  cases op with
  | set call => simp only [operate, Operation.lowered, perform_lowered hb, Answer.lowered]
  | matchLine chunk line =>
    simp only [operate, Operation.lowered, Answer.lowered, matchLine, find?_lowered hb]
    rfl
  | matchCall function => rfl
  | sourceId s =>
    have hfind : b.lowered.find? s.lowered.path = b.find? s.path := find?_lowered hb s.path
    simp only [operate, Operation.lowered, Answer.lowered, sourceId?, hfind]
  | source id =>
    cases id with
    | zero => rfl
    | succ n => simp [operate, Operation.lowered, Answer.lowered, source?, lowered]
  | linesOf s =>
    have hfind : b.lowered.find? s.lowered.path = b.find? s.path := find?_lowered hb s.path
    simp only [operate, Operation.lowered, Answer.lowered, linesOf, hfind]
    cases b.find? s.path <;> rfl

end Step

theorem ignoresCase_operate (b : Breakpoints) (op : Operation) :
    (b.operate op).2.ignoresCase = b.ignoresCase := by
  cases op with
  | set call =>
    cases call with
    | functions specs => rfl
    | lines s specs =>
      simp only [operate, perform, setLines, intern]
      cases b.find? s.path <;> rfl
  | _ => rfl

theorem operateAll_lowered {b : Breakpoints} (hb : b.ignoresCase = true) (ops : List Operation) :
    b.lowered.operateAll (ops.map Operation.lowered) =
      ((b.operateAll ops).1.map Answer.lowered, (b.operateAll ops).2.lowered) := by
  induction ops generalizing b with
  | nil => rfl
  | cons op ops ih =>
    have hnext : (b.operate op).2.ignoresCase = true := (ignoresCase_operate b op).trans hb
    simp only [List.map_cons, operateAll, operate_lowered hb, ih hnext]

/-- A registry where case does not count, and one where it does, which is told every path in lower
case: they give the same answers to whatever they are asked, in any order, and they hold the same in
the end, but for the case of paths. -/
theorem caseless_as_lowered (ops : List Operation) :
    (fresh .sensitive).operateAll (ops.map Operation.lowered) =
      (((fresh .insensitive).operateAll ops).1.map Answer.lowered,
        ((fresh .insensitive).operateAll ops).2.lowered) :=
  operateAll_lowered (b := fresh .insensitive) rfl ops

example : ((fresh .insensitive).operateAll
    [.set (.lines { path := some "Lib/A.lua" } [{ line := 3 }]),
      .matchLine (some "@./lib\\a.LUA") 3]).1.getLast? = some (.hit (some 1)) := by
  decide +kernel

end Breakpoints

end DebugAdapter
