import Mathlib

/-! # Byte positions in a list of blocks

    A file stored as a list of blocks is addressed in two ways: by a position
    in the concatenation of the blocks, or by a block number and an offset
    inside that block.  `locate` turns a position into a pair, `start` gives
    the position at which a block begins, and the two are inverse to each
    other on the positions that exist.  The blocks are lists over any type. -/

namespace BlockLookup

variable {α : Type}

/-- The position at which block `i` begins in the concatenation. -/
def start (L : List (List α)) (i : Nat) : Nat := (L.take i).flatten.length

/-- The block that holds position `c`, and the offset of `c` inside it. -/
def locate : List (List α) → Nat → Option (Nat × Nat)
  | [], _ => none
  | b :: L, c =>
      if c < b.length then some (0, c)
      else (locate L (c - b.length)).map fun p => (p.1 + 1, p.2)

@[simp] theorem start_zero (L : List (List α)) : start L 0 = 0 := rfl

@[simp] theorem start_cons_succ (b : List α) (L : List (List α)) (i : Nat) :
    start (b :: L) (i + 1) = b.length + start L i := by
  simp [start]

/-- A block that exists ends no later than the concatenation. -/
theorem start_add_length_le {L : List (List α)} {i : Nat} {b : List α}
    (h : L[i]? = some b) : start L i + b.length ≤ L.flatten.length := by
  induction L generalizing i with
  | nil => exact nomatch h
  | cons c L ih =>
      rw [List.flatten_cons, List.length_append]
      cases i with
      | zero =>
          have hb : c = b := Option.some.inj h
          rw [hb, start_zero]
          omega
      | succ i =>
          have := ih (i := i) (by simpa using h)
          rw [start_cons_succ]
          omega

/-- **THE LOOK-UP SPECIFICATION**: `locate` finds a pair exactly when the block
    exists, the offset lies inside it and the position is where the block
    starts plus the offset. -/
theorem locate_eq_some_iff (L : List (List α)) (c i o : Nat) :
    locate L c = some (i, o) ↔
      ∃ b, L[i]? = some b ∧ o < b.length ∧ c = start L i + o := by
  induction L generalizing c i with
  | nil => simp [locate]
  | cons b L ih =>
      rw [locate]
      by_cases hc : c < b.length
      · rw [if_pos hc]
        constructor
        · intro h
          have hp : (0, c) = (i, o) := Option.some.inj h
          have hi : i = 0 := (congrArg Prod.fst hp).symm
          have ho : c = o := congrArg Prod.snd hp
          subst hi
          subst ho
          exact ⟨b, rfl, hc, by simp⟩
        · rintro ⟨b', hb', ho, hpos⟩
          cases i with
          | zero => rw [start_zero, Nat.zero_add] at hpos; rw [hpos]
          | succ i =>
              rw [start_cons_succ] at hpos
              omega
      · rw [if_neg hc]
        constructor
        · intro h
          obtain ⟨⟨j, o'⟩, hloc, hp⟩ := Option.map_eq_some_iff.mp h
          have hi : i = j + 1 := (congrArg Prod.fst hp).symm
          have ho : o' = o := congrArg Prod.snd hp
          subst hi
          subst ho
          obtain ⟨b', hb', ho, hpos⟩ := (ih _ _).mp hloc
          refine ⟨b', by simpa using hb', ho, ?_⟩
          rw [start_cons_succ]
          omega
        · rintro ⟨b', hb', ho, hpos⟩
          cases i with
          | zero =>
              have hb : b = b' := Option.some.inj hb'
              rw [start_zero, Nat.zero_add] at hpos
              rw [hpos, hb] at hc
              exact absurd ho hc
          | succ i =>
              rw [start_cons_succ] at hpos
              have hloc : locate L (c - b.length) = some (i, o) :=
                (ih _ _).mpr ⟨b', by simpa using hb', ho, by omega⟩
              rw [hloc]
              rfl

/-- A position is found exactly when it lies inside the concatenation. -/
theorem locate_eq_none_iff (L : List (List α)) (c : Nat) :
    locate L c = none ↔ L.flatten.length ≤ c := by
  induction L generalizing c with
  | nil => simp [locate]
  | cons b L ih =>
      rw [locate]
      rw [List.flatten_cons, List.length_append]
      by_cases hc : c < b.length
      · rw [if_pos hc]
        constructor
        · rintro ⟨⟩
        · intro h; omega
      · rw [if_neg hc, Option.map_eq_none_iff, ih]
        omega

/-- A position in the last block. -/
theorem locate_concat (L : List (List α)) {b : List α} {o : Nat} (ho : o < b.length) :
    locate (L ++ [b]) (L.flatten.length + o) = some (L.length, o) := by
  refine (locate_eq_some_iff _ _ _ _).mpr ⟨b, List.getElem?_concat_length, ho, ?_⟩
  rw [start, List.take_left]

/-- What follows a located position: the rest of its block, then all later
    blocks. -/
theorem drop_start_add {L : List (List α)} {i o : Nat} {b : List α}
    (h : L[i]? = some b) (ho : o ≤ b.length) :
    L.flatten.drop (start L i + o) = b.drop o ++ (L.drop (i + 1)).flatten := by
  induction L generalizing i with
  | nil => exact nomatch h
  | cons c L ih =>
      cases i with
      | zero =>
          have hb : c = b := Option.some.inj h
          rw [hb, start_zero, Nat.zero_add, List.flatten_cons, List.drop_append_of_le_length ho]
          rfl
      | succ i =>
          rw [start_cons_succ, List.flatten_cons, Nat.add_assoc, ← List.drop_drop,
            List.drop_left, ih (by simpa using h)]
          rfl

end BlockLookup
