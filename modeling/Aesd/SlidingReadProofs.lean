import Mathlib

/-! # Reading a growing stream through a moving position

    A reader copies pieces out of a stream that only grows.  Between two pieces
    its position in the stream may be moved on without anything being copied.
    `Skims S i j out n` says that on the way from index `i` to index `j` the reader
    has copied `out` and been moved over `n` indices: in order, nothing twice, and
    each index either copied or counted. -/

namespace SlidingRead

variable {α : Type}

/-- `out` is what was copied of `S` between `i` and `j`, and `n` indices were not. -/
structure Skims (S : List α) (i j : Nat) (out : List α) (n : Nat) : Prop where
  inOrder : out.Sublist ((S.drop i).take (j - i))
  count   : i + out.length + n = j

/-- Nothing copied yet. -/
theorem Skims.refl (S : List α) (i : Nat) : Skims S i i [] 0 :=
  ⟨List.nil_sublist _, rfl⟩

/-- The next piece. -/
theorem Skims.copy {S out : List α} {i j n : Nat} (h : Skims S i j out n) {k : Nat}
    (hk : j + k ≤ S.length) : Skims S i (j + k) (out ++ (S.drop j).take k) n := by
  obtain ⟨horder, hcount⟩ := h
  have hpiece : (S.drop j).take k = ((S.drop i).drop (j - i)).take k := by
    rw [List.drop_drop, show i + (j - i) = j by omega]
  have hlen : ((S.drop j).take k).length = k := by
    rw [List.length_take, List.length_drop]
    omega
  refine ⟨?_, ?_⟩
  · rw [show j + k - i = (j - i) + k by omega, List.take_add, hpiece]
    exact horder.append (List.Sublist.refl _)
  · rw [List.length_append, hlen]
    omega

/-- The position is moved. -/
theorem Skims.skip {S out : List α} {i j n : Nat} (h : Skims S i j out n) (m : Nat) :
    Skims S i (j + m) out (n + m) := by
  obtain ⟨horder, hcount⟩ := h
  refine ⟨horder.trans ?_, by omega⟩
  exact (List.take_prefix_take_left (by omega)).sublist

/-- The stream grows. -/
theorem Skims.grow {S out : List α} {i j n : Nat} (h : Skims S i j out n) (T : List α) :
    Skims (S ++ T) i j out n := by
  obtain ⟨horder, hcount⟩ := h
  refine ⟨horder.trans ?_, hcount⟩
  rw [List.drop_append, List.take_append]
  exact List.sublist_append_left _ _

end SlidingRead
