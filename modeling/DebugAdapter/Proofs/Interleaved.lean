import Mathlib.Data.List.Forall2

/-!
# Lists merged from two
-/

namespace DebugAdapter

variable {α β : Type}

/-- The third list consists of the items of the other two, in the order in which each has them. -/
inductive Interleaved : List α → List α → List α → Prop
  | nil : Interleaved [] [] []
  | left {xs ys zs : List α} (x : α) : Interleaved xs ys zs → Interleaved (x :: xs) ys (x :: zs)
  | right {xs ys zs : List α} (y : α) : Interleaved xs ys zs → Interleaved xs (y :: ys) (y :: zs)

namespace Interleaved

variable {xs ys zs : List α}

theorem eq_of_nil (h : Interleaved [] ys zs) : zs = ys := by
  generalize hxs : [] = xs at h
  induction h with
  | nil => rfl
  | left => cases hxs
  | right y _ ih => rw [ih hxs]

theorem findSome?_eq {f : α → Option β} (h : Interleaved xs ys zs) (hnone : ∀ y ∈ ys, f y = none) :
    zs.findSome? f = xs.findSome? f := by
  induction h with
  | nil => rfl
  | left x _ ih =>
    rw [List.findSome?_cons, List.findSome?_cons, ih hnone]
  | right y _ ih =>
    obtain ⟨hy, hys⟩ := List.forall_mem_cons.1 hnone
    rw [List.findSome?_cons, hy, ih hys]

theorem filter (p : α → Bool) (zs : List α) :
    Interleaved (zs.filter p) (zs.filter fun z => !p z) zs := by
  induction zs with
  | nil => exact .nil
  | cons z zs ih =>
    cases hz : p z with
    | true => simpa [hz] using ih.left z
    | false => simpa [hz] using ih.right z

theorem forall₂ {R : α → β → Prop} (hR : Relator.RightUnique R) {as bs cs : List β}
    (h : Interleaved xs ys zs) (hx : List.Forall₂ R xs as) (hy : List.Forall₂ R ys bs)
    (hz : List.Forall₂ R zs cs) : Interleaved as bs cs := by
  induction h generalizing as bs cs with
  | nil =>
    cases hx
    cases hy
    cases hz
    exact .nil
  | left x _ ih =>
    cases hx with
    | cons ha hx =>
      cases hz with
      | cons hc hz =>
        cases hR ha hc
        exact .left _ (ih hx hy hz)
  | right y _ ih =>
    cases hy with
    | cons hb hy =>
      cases hz with
      | cons hc hz =>
        cases hR hb hc
        exact .right _ (ih hx hy hz)

end Interleaved

end DebugAdapter
