import Mathlib

/-! # Cyclic windows — a fixed array read modulo its length

    A ring buffer is an array of `n` slots together with a start position; what
    it holds is met by walking the slots from that position and wrapping at
    `n`.  `window n f s k` is the list of the first `k` slots of that walk.

    The lemmas say how a window splits, what a full turn looks like from
    another start, and what writing one slot does to a full turn.  Nothing here
    knows what the slots hold. -/

namespace CyclicWindow

variable {α : Type}

/-- The `k` slots met when walking `f` from `s`, wrapping at `n`. -/
def window (n : Nat) (f : Nat → α) (s k : Nat) : List α :=
  (List.range k).map fun i => f ((s + i) % n)

@[simp] theorem window_zero (n : Nat) (f : Nat → α) (s : Nat) :
    window n f s 0 = [] := rfl

@[simp] theorem length_window (n : Nat) (f : Nat → α) (s k : Nat) :
    (window n f s k).length = k := by
  simp [window]

/-- A window is one slot followed by the window that starts after it. -/
theorem window_succ (n : Nat) (f : Nat → α) (s k : Nat) :
    window n f s (k + 1) = f (s % n) :: window n f (s + 1) k := by
  rw [window]
  rw [List.range_succ_eq_map, List.map_cons, List.map_map]
  refine congrArg (f (s % n) :: ·) (List.map_congr_left ?_)
  intro i _
  show f ((s + (i + 1)) % n) = f ((s + 1 + i) % n)
  rw [show s + (i + 1) = s + 1 + i by omega]

/-- A window splits at any point of its walk. -/
theorem window_add (n : Nat) (f : Nat → α) (s a b : Nat) :
    window n f s (a + b) = window n f s a ++ window n f (s + a) b := by
  induction a generalizing s with
  | zero => simp
  | succ a ih =>
      rw [show a + 1 + b = (a + b) + 1 by omega, window_succ, window_succ, ih,
        List.cons_append, show s + 1 + a = s + (a + 1) by omega]

/-- Only the residue of the start matters. -/
theorem window_mod (n : Nat) (f : Nat → α) (s k : Nat) :
    window n f (s % n) k = window n f s k := by
  rw [window]
  refine List.map_congr_left ?_
  intro i _
  rw [Nat.mod_add_mod]

/-- Two starts with the same residue give the same window. -/
theorem window_congr_start {n s t : Nat} (f : Nat → α) (k : Nat)
    (h : s % n = t % n) : window n f s k = window n f t k := by
  rw [← window_mod n f s k, h, window_mod]

/-- The slot at a position of the walk. -/
theorem getElem?_window {n s k i : Nat} (f : Nat → α) (h : i < k) :
    (window n f s k)[i]? = some (f ((s + i) % n)) := by
  rw [window]
  rw [List.getElem?_map, List.getElem?_range h]
  rfl

/-- A full turn started later is the same turn, rotated. -/
theorem window_turn {n g : Nat} (f : Nat → α) (s : Nat) (h : g ≤ n) :
    window n f (s + g) n = (window n f s n).drop g ++ (window n f s n).take g := by
  have hsplit : window n f s n = window n f s g ++ window n f (s + g) (n - g) := by
    rw [← window_add, Nat.add_sub_cancel' h]
  have hwrap : window n f (s + g + (n - g)) g = window n f s g :=
    window_congr_start f g (by
      rw [show s + g + (n - g) = s + n by omega, Nat.add_mod_right])
  have hturn : window n f (s + g) n
      = window n f (s + g) (n - g) ++ window n f (s + g + (n - g)) g := by
    rw [← window_add, Nat.sub_add_cancel h]
  rw [hturn, hwrap, hsplit, List.drop_left' (length_window n f s g),
    List.take_left' (length_window n f s g)]

/-- A full turn meets every slot once, from whichever position it starts. -/
theorem window_perm {n s : Nat} (f : Nat → α) (h : s ≤ n) :
    (window n f s n).Perm ((List.range n).map f) := by
  have hzero : window n f 0 n = (List.range n).map f := by
    rw [window]
    refine List.map_congr_left ?_
    intro i hi
    rw [Nat.zero_add, Nat.mod_eq_of_lt (List.mem_range.mp hi)]
  have hturn := window_turn f 0 h
  rw [Nat.zero_add, hzero] at hturn
  rw [hturn]
  refine List.perm_append_comm.trans ?_
  rw [List.take_append_drop]

/-- Writing a slot changes one position of a full turn. -/
theorem window_set {n p : Nat} (f : Nat → α) (s : Nat) (x : α) (h : p < n) :
    window n (Function.update f ((s + p) % n) x) s n = (window n f s n).set p x := by
  have hne : ∀ i, i < n → i ≠ p → (s + i) % n ≠ (s + p) % n := by
    intro i hi hip heq
    have hmod : i % n = p % n := Nat.ModEq.add_left_cancel' s heq
    rw [Nat.mod_eq_of_lt hi, Nat.mod_eq_of_lt h] at hmod
    exact hip hmod
  refine List.ext_getElem? ?_
  intro i
  by_cases hi : i < n
  · rw [getElem?_window _ hi]
    by_cases hip : i = p
    · subst hip
      rw [List.getElem?_set_self (by rw [length_window]; exact hi), Function.update_self]
    · rw [List.getElem?_set_ne (fun h => hip h.symm), getElem?_window f hi,
        Function.update_of_ne (hne i hi hip)]
  · rw [List.getElem?_eq_none (by rw [length_window]; omega),
      List.getElem?_eq_none (by rw [List.length_set, length_window]; omega)]

end CyclicWindow
