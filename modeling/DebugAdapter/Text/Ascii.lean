/-!
# ASCII letters

Case folding for header names and source paths touches the letters A to Z only.
-/

namespace DebugAdapter.Text

def lower (s : List Char) : List Char := s.map Char.toLower

def sameIgnoringCase (s t : List Char) : Bool := lower s == lower t

@[simp] theorem length_lower (s : List Char) : (lower s).length = s.length := by simp [lower]

theorem sameIgnoringCase_iff {s t : List Char} :
    sameIgnoringCase s t = true ↔ lower s = lower t := by simp [sameIgnoringCase]

end DebugAdapter.Text
