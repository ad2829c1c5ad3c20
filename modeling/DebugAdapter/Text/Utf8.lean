/-!
# Bytes and text

The wire carries bytes, kept as a list so that cutting and joining are the list operations. Text is
read from bytes only where they are valid UTF-8. Positions in a text may count its bytes.
-/

namespace DebugAdapter

abbrev Bytes := List UInt8

namespace Text

def utf8 (s : String) : Bytes := s.toByteArray.data.toList

def ofUtf8? (b : Bytes) : Option String := String.fromUTF8? ⟨b.toArray⟩

@[simp] theorem ofUtf8?_utf8 (s : String) : ofUtf8? (utf8 s) = some s := by
  have h : (⟨s.toByteArray.data.toList.toArray⟩ : ByteArray) = s.toByteArray := rfl
  simp only [ofUtf8?, utf8, h, String.fromUTF8?, s.isValidUTF8, dif_pos]
  rfl

theorem utf8_of_ofUtf8? {b : Bytes} {s : String} (h : ofUtf8? b = some s) : utf8 s = b := by
  unfold ofUtf8? String.fromUTF8? at h
  split at h
  · cases h; rfl
  · cases h

-- ---------------------------------------------------------------------------
-- Positions
-- ---------------------------------------------------------------------------

def dropBytes : (n : Nat) → List Char → List Char
  | 0, cs => cs
  | _, [] => []
  | n + 1, c :: r => dropBytes (n + 1 - c.utf8Size) r

def takeBytes : (n : Nat) → List Char → List Char
  | 0, _ => []
  | _, [] => []
  | n + 1, c :: r => c :: takeBytes (n + 1 - c.utf8Size) r

/-- The part of a text between two byte positions. -/
def slice (start stop : Nat) (cs : List Char) : List Char :=
  takeBytes (stop - start) (dropBytes start cs)

end Text

end DebugAdapter
