/-!
# Numbering

Numbers of 32 bits given out one after the other, from one on. What is kept is how many were given
out, which has no bound; the numbers themselves wrap around.
-/

namespace DebugAdapter

/-- Pairs each item with the next number. -/
def numbered {α : Type} (minted : Nat) : List α → List (UInt32 × α)
  | [] => []
  | a :: rest => (UInt32.ofNat (minted + 1), a) :: numbered (minted + 1) rest

@[simp] theorem length_numbered {α : Type} (minted : Nat) (as : List α) :
    (numbered minted as).length = as.length := by
  induction as generalizing minted with
  | nil => rfl
  | cons a as ih => simp [numbered, ih]

@[simp] theorem map_snd_numbered {α : Type} (minted : Nat) (as : List α) :
    (numbered minted as).map Prod.snd = as := by
  induction as generalizing minted with
  | nil => rfl
  | cons a as ih => simp [numbered, ih]

theorem getElem?_numbered {α : Type} (minted : Nat) (as : List α) (i : Nat) :
    (numbered minted as)[i]? = as[i]?.map fun a => (UInt32.ofNat (minted + i + 1), a) := by
  induction as generalizing minted i with
  | nil => rfl
  | cons a as ih =>
    cases i with
    | zero => rfl
    | succ i => simp [numbered, ih, Nat.add_assoc, Nat.add_comm 1]

end DebugAdapter
