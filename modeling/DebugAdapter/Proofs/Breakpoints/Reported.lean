import DebugAdapter.Proofs.Breakpoints.Latest
import DebugAdapter.Inspection.Frame

/-!
# Breakpoints on reported sources

A client may set breakpoints on the source that a stack frame reports. `hit_on_reported_source`:
the chunk of that frame hits them, line by line, unless its path starts with a mark of its own. Such
a path loses that mark when names are compared and so means another source than the chunk does.
-/

namespace DebugAdapter

open Protocol

namespace Path

def chunkOf (path : List Char) : String := String.ofList ('@' :: path)

theorem length_canonical (ignoresCase : Bool) (path : Option String) :
    (canonical ignoresCase path).length =
      (undotted (slashed (unmarked (path.getD "").toList))).length := by
  unfold canonical
  cases ignoresCase <;> simp

theorem length_undotted_slashed_le (p : List Char) :
    (undotted (slashed p)).length ≤ p.length := by
  have hle (p : List Char) : (undotted p).length ≤ p.length := by
    unfold undotted
    split
    · simp only [List.length_cons]; omega
    · exact Nat.le_refl _
  simpa [slashed] using hle (slashed p)

theorem undotted_slashed_marked (path : List Char) :
    undotted (slashed ('@' :: path)) = '@' :: slashed path := by
  simp [slashed, undotted]

theorem unmarked_eq_self {path : List Char} (h : path.head? ≠ some '@') : unmarked path = path := by
  unfold unmarked
  split
  · exact absurd rfl h
  · rfl

theorem same_chunkOf (ignoresCase : Bool) (path : List Char) :
    same ignoresCase (some (String.ofList path)) (some (chunkOf path)) = true ↔
      path.head? ≠ some '@' := by
  rw [same_iff]
  constructor
  · rintro h hmark
    obtain ⟨rest, rfl⟩ : ∃ rest, path = '@' :: rest := List.head?_eq_some_iff.1 hmark
    -- The canonical form of the path is shorter than that of the chunk.
    have hshort := length_undotted_slashed_le rest
    have hlength := congrArg List.length h
    simp only [length_canonical, Option.getD_some, chunkOf, String.toList_ofList, unmarked,
      undotted_slashed_marked, List.length_cons] at hlength
    simp only [slashed, List.length_map] at hlength hshort
    omega
  · intro h
    simp only [canonical, chunkOf, Option.getD_some, String.toList_ofList, unmarked_eq_self h]
    rfl

end Path

namespace Breakpoints

variable {path : List Char} {info : FrameInfo} {source : Source} {id : UInt32}

theorem path_of_record (hchunk : info.source = some (Path.chunkOf path))
    (hsource : (info.record id).source = some source) :
    source.path = some (String.ofList path) := by
  simp only [FrameInfo.record, hchunk, Option.map_some, Option.some.injEq, Source.ofChunk,
    Path.chunkOf, String.toList_ofList] at hsource
  rw [← hsource]

/-- Every line of a chunk hits the first of some new breakpoints on that line, and no other
breakpoint. -/
def HitBy (b : Breakpoints) (source : Source) (specs : List SourceBreakpoint) (chunk : String) :
    Prop :=
  ∀ line, (b.setLines source specs).2.matchLine (some chunk) line =
    firstOf (·.line == line) (some (specs.zip (b.setLines source specs).1))

/-- Whatever was set before, the source that a frame reports is the source of its chunk, or, where
the path in the chunk starts with a mark of its own, another one. -/
theorem hit_on_reported_source (b : Breakpoints) (info : FrameInfo) (id : UInt32)
    (path : List Char) (source : Source) (specs : List SourceBreakpoint)
    (hchunk : info.source = some (Path.chunkOf path))
    (hsource : (info.record id).source = some source) :
    (Path.same b.ignoresCase source.path (some (Path.chunkOf path)) = true ↔
      path.head? ≠ some '@') ∧
    (path.head? ≠ some '@' → HitBy b source specs (Path.chunkOf path)) ∧
    (path.head? = some '@' → ∀ line,
      (b.setLines source specs).2.matchLine (some (Path.chunkOf path)) line =
        b.matchLine (some (Path.chunkOf path)) line) := by
  have hpath := path_of_record hchunk hsource
  have hsame := Path.same_chunkOf b.ignoresCase path
  rw [← hpath] at hsame
  refine ⟨hsame, fun hmark line => ?_, fun hmark line => ?_⟩
  · have hset := setOf_perform b (.lines source specs) (some (Path.chunkOf path))
    simp only [perform, Call.onSource?, hsame.2 hmark, if_true, Option.map_some,
      Option.getD_some] at hset
    rw [matchLine_eq, hset, List.find?_map, Option.map_map]
    rfl
  · have hnot : Path.same b.ignoresCase source.path (some (Path.chunkOf path)) = false :=
      Bool.eq_false_iff.2 fun h => hsame.1 h hmark
    rw [matchLine_eq, matchLine_eq, setOf_setLines_of_not_same specs hnot]

def frameOf (chunk : String) : FrameInfo := { kind := .main, source := some chunk }

/-- The current directory and backslashes count neither in the reported path nor in the chunk. -/
theorem hit_on_reported_source_backslash :
    ((frameOf "@.\\src\\a.lua").record 1).source =
        some { name := some ".\\src\\a.lua", path := some ".\\src\\a.lua" } ∧
      HitBy (fresh .sensitive) { name := some ".\\src\\a.lua", path := some ".\\src\\a.lua" }
        [{ line := 3 }, { line := 3 }] "@.\\src\\a.lua" := by
  have hsource : ((frameOf "@.\\src\\a.lua").record 1).source =
      some { name := some ".\\src\\a.lua", path := some ".\\src\\a.lua" } := by decide +kernel
  have hchunk : (frameOf "@.\\src\\a.lua").source =
      some (Path.chunkOf ".\\src\\a.lua".toList) := by decide +kernel
  exact ⟨hsource, (hit_on_reported_source (fresh .sensitive) _ 1 ".\\src\\a.lua".toList _ _
    hchunk hsource).2.1 (by decide +kernel)⟩

/-- A file whose own name starts with the mark is reported under its name, and is not hit. -/
theorem not_hitBy_marked_name :
    ((frameOf "@@a.lua").record 1).source =
        some { name := some "@a.lua", path := some "@a.lua" } ∧
      ¬ HitBy (fresh .sensitive) { name := some "@a.lua", path := some "@a.lua" }
        [{ line := 3 }] "@@a.lua" := by
  refine ⟨by decide +kernel, fun h => ?_⟩
  have hmissed : ((fresh .sensitive).setLines { name := some "@a.lua", path := some "@a.lua" }
      [{ line := 3 }]).2.matchLine (some "@@a.lua") 3 = none := by decide +kernel
  cases hmissed.symm.trans (h 3)

end Breakpoints

end DebugAdapter
