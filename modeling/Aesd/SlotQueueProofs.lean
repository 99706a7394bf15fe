import Mathlib

/-! # Queues kept in a cyclic array

    What a ring buffer with a writing position, a reading position and a `full`
    flag stands for, without the array: the queued items, oldest first, and the
    number of slots (`gap`) between the writing and the reading position.  The
    items always end right before the writing position, but nothing forces the
    reading position onto the oldest of them: an insertion that evicts and then
    fails to store lets it run ahead.  `Aligned` says that the two agree, and
    `Regular` that the flag agrees as well.

    The two conditions every such queue meets (the items and the gap fit into
    the `n` slots, and a queue not marked full has a slot to write) are fields,
    so that a queue without them cannot be built. -/

namespace CyclicQueue

variable {n : Nat} {α : Type}

/-- A queue of at most `n` items with its read gap and its `full` flag. -/
structure SlotQueue (n : Nat) (α : Type) where
  items    : List α
  gap      : Nat
  full     : Bool
  fits     : items.length + gap ≤ n
  writable : full = false → 0 < gap

/-- The reading position is the oldest item. -/
def Aligned (q : SlotQueue n α) : Prop := q.items.length + q.gap = n

instance (q : SlotQueue n α) : Decidable (Aligned q) :=
  inferInstanceAs (Decidable (q.items.length + q.gap = n))

/-- `n` items leave no gap, so the queue is marked full and aligned. -/
theorem full_of_length {q : SlotQueue n α} (h : q.items.length = n) :
    q.full = true ∧ Aligned q := by
  have hfits := q.fits
  refine ⟨?_, show q.items.length + q.gap = n by omega⟩
  cases hf : q.full with
  | true => rfl
  | false =>
      have hpos := q.writable hf
      omega

/-- Aligned, and marked full exactly when all slots are taken. -/
structure Regular (q : SlotQueue n α) : Prop where
  aligned : Aligned q
  full_iff : q.full = true ↔ q.items.length = n

/-- The items a walk from the reading position meets before a free slot. -/
def readable (q : SlotQueue n α) : List α := if Aligned q then q.items else []

/-- The empty queue. -/
def empty [NeZero n] : SlotQueue n α where
  items := []
  gap := n
  full := false
  fits := by simp
  writable := fun _ => Nat.pos_of_ne_zero (NeZero.ne n)

/-- Free the slot at the reading position and move past it. -/
def evict [NeZero n] (q : SlotQueue n α) : SlotQueue n α where
  items := if Aligned q then q.items.tail else q.items
  gap := if q.gap = n then 1 else q.gap + 1
  full := q.full
  fits := by
    have hpos : 0 < n := Nat.pos_of_ne_zero (NeZero.ne n)
    have hfits := q.fits
    by_cases ha : Aligned q
    · have ha' : q.items.length + q.gap = n := ha
      rw [if_pos ha, List.length_tail]
      split <;> omega
    · have ha' : q.items.length + q.gap ≠ n := ha
      rw [if_neg ha, if_neg (by omega)]
      omega
  writable := fun _ => by split <;> omega

/-- What an insertion does before it stores: evict when marked full. -/
def prepare [NeZero n] (q : SlotQueue n α) : SlotQueue n α :=
  if q.full then evict q else q

/-- Store an item at the writing position. -/
def push (q : SlotQueue n α) (h : 0 < q.gap) (x : α) : SlotQueue n α where
  items := q.items ++ [x]
  gap := q.gap - 1
  full := decide (q.gap = 1)
  fits := by
    have hfits := q.fits
    rw [List.length_append, List.length_singleton]
    omega
  writable := fun hf => by
    have hne : q.gap ≠ 1 := of_decide_eq_false hf
    omega

/-- After the preparation there is a slot to write. -/
theorem prepare_gap_pos [NeZero n] (q : SlotQueue n α) : 0 < (prepare q).gap := by
  rw [prepare]
  by_cases hf : q.full = true
  · rw [if_pos hf]
    show 0 < if q.gap = n then 1 else q.gap + 1
    split <;> omega
  · rw [if_neg hf]
    exact q.writable (Bool.eq_false_iff.mpr hf)

/-- An insertion whose store may fail. -/
def add [NeZero n] (stored : Bool) (q : SlotQueue n α) (x : α) : SlotQueue n α :=
  if stored then push (prepare q) (prepare_gap_pos q) x else prepare q

section Items

variable [NeZero n]

theorem prepare_items (q : SlotQueue n α) :
    (prepare q).items = if q.full = true ∧ Aligned q then q.items.tail else q.items := by
  rw [prepare]
  by_cases hf : q.full = true
  · rw [if_pos hf]
    by_cases ha : Aligned q
    · rw [if_pos ⟨hf, ha⟩]
      exact if_pos ha
    · rw [if_neg (fun h => ha h.2)]
      exact if_neg ha
  · rw [if_neg hf, if_neg (fun h => hf h.1)]

theorem add_true_items (q : SlotQueue n α) (x : α) :
    (add true q x).items = (prepare q).items ++ [x] := rfl

theorem add_false_items (q : SlotQueue n α) (x : α) :
    (add false q x).items = (prepare q).items := rfl

/-- An insertion brings in nothing but its item. -/
theorem mem_add_items {stored : Bool} {q : SlotQueue n α} {x y : α}
    (h : y ∈ (add stored q x).items) : y ∈ q.items ∨ y = x := by
  have hprep : y ∈ (prepare q).items → y ∈ q.items := by
    intro hy
    rw [prepare_items] at hy
    by_cases hfa : q.full = true ∧ Aligned q
    · rw [if_pos hfa] at hy
      exact List.mem_of_mem_tail hy
    · rw [if_neg hfa] at hy
      exact hy
  cases stored with
  | false => exact Or.inl (hprep h)
  | true =>
      rcases List.mem_append.mp h with hold | hnew
      · exact Or.inl (hprep hold)
      · exact Or.inr (List.mem_singleton.mp hnew)

theorem add_true_full (q : SlotQueue n α) (x : α) :
    (add true q x).full = decide ((add true q x).gap = 0) := by
  have hpos := prepare_gap_pos q
  show decide ((prepare q).gap = 1) = decide ((prepare q).gap - 1 = 0)
  exact decide_eq_decide.mpr (by omega)

end Items

/-! ## Regular queues keep the latest items -/

/-- The last `n` elements of a list. -/
def latest (n : Nat) (xs : List α) : List α := xs.drop (xs.length - n)

theorem length_latest (n : Nat) (xs : List α) : (latest n xs).length = min n xs.length := by
  rw [latest]
  rw [List.length_drop]
  omega

/-- Remembering the latest items and adding one more forgets nothing that the
    latest items of the whole list would have kept. -/
theorem latest_concat (xs : List α) (x : α) :
    latest n (latest n xs ++ [x]) = latest n (xs ++ [x]) := by
  simp only [latest]
  rw [← List.drop_append_of_le_length (Nat.sub_le _ _), List.drop_drop]
  congr 1
  simp only [List.length_append, List.length_drop, List.length_singleton]
  omega

section Regular

variable [NeZero n]

theorem regular_empty : Regular (empty : SlotQueue n α) := by
  have hpos : 0 < n := Nat.pos_of_ne_zero (NeZero.ne n)
  refine ⟨by simp [Aligned, empty], ?_⟩
  show false = true ↔ 0 = n
  constructor
  · rintro ⟨⟩
  · intro h; omega

/-- A regular queue before a store: one slot short of what it will hold. -/
theorem Regular.prepare {q : SlotQueue n α} (h : Regular q) :
    Aligned (prepare q) := by
  have ha : q.items.length + q.gap = n := h.aligned
  rw [CyclicQueue.prepare]
  by_cases hf : q.full = true
  · have hlen : q.items.length = n := h.full_iff.mp hf
    have hpos : 0 < n := Nat.pos_of_ne_zero (NeZero.ne n)
    rw [if_pos hf]
    show (if Aligned q then q.items.tail else q.items).length
      + (if q.gap = n then 1 else q.gap + 1) = n
    rw [if_pos h.aligned, if_neg (by omega), List.length_tail]
    omega
  · rw [if_neg hf]
    exact ha

/-- **REGULARITY IS KEPT** by every insertion that stores. -/
theorem Regular.add {q : SlotQueue n α} (h : Regular q) (x : α) :
    Regular (add true q x) := by
  have ha : (CyclicQueue.prepare q).items.length + (CyclicQueue.prepare q).gap = n := h.prepare
  have hpos := prepare_gap_pos q
  have hgap : (CyclicQueue.add true q x).gap = (CyclicQueue.prepare q).gap - 1 := rfl
  constructor
  · show ((CyclicQueue.prepare q).items ++ [x]).length + ((CyclicQueue.prepare q).gap - 1) = n
    rw [List.length_append, List.length_singleton]
    omega
  · rw [add_true_full, decide_eq_true_iff, hgap, add_true_items, List.length_append,
      List.length_singleton]
    omega

/-- **THE LATEST ITEMS**: a regular queue keeps the last `n` of what it is
    given. -/
theorem Regular.add_items {q : SlotQueue n α} (h : Regular q) (x : α) :
    (CyclicQueue.add true q x).items = latest n (q.items ++ [x]) := by
  have ha : q.items.length + q.gap = n := h.aligned
  rw [latest]
  rw [add_true_items, prepare_items, List.length_append, List.length_singleton]
  by_cases hf : q.full = true
  · have hlen : q.items.length = n := h.full_iff.mp hf
    have hpos : 0 < n := Nat.pos_of_ne_zero (NeZero.ne n)
    rw [if_pos ⟨hf, h.aligned⟩, hlen, Nat.add_sub_cancel_left,
      List.drop_append_of_le_length (by omega), List.drop_one]
  · have hgap : 0 < q.gap := q.writable (Bool.eq_false_iff.mpr hf)
    rw [if_neg (fun hh => hf hh.1), show q.items.length + 1 - n = 0 by omega, List.drop_zero]

end Regular

/-! ## Insertions that evict nothing -/

/-- No item leaves the queue. -/
def Keeps (q : SlotQueue n α) : Prop := q.full = true → Aligned q → q.items = []

/-- The reading position is the oldest item and stays so as long as no item
    leaves: an empty queue is not marked full. -/
structure Walkable (q : SlotQueue n α) : Prop where
  aligned : Aligned q
  free    : q.items = [] → q.full = false

/-- An empty queue that is not marked full has all its slots to write. -/
def Settled (q : SlotQueue n α) : Prop := q.full = false → q.items = [] → q.gap = n

section Keeping

variable [NeZero n] {q : SlotQueue n α}

theorem Regular.walkable (h : Regular q) : Walkable q := by
  refine ⟨h.aligned, fun hnil => ?_⟩
  have hpos : n ≠ 0 := NeZero.ne n
  cases hf : q.full with
  | false => rfl
  | true =>
      have hlen := h.full_iff.mp hf
      rw [hnil] at hlen
      exact absurd hlen.symm hpos

theorem settled_empty : Settled (empty : SlotQueue n α) := fun _ _ => rfl

theorem Settled.add (h : Settled q) (stored : Bool) (x : α) :
    Settled (CyclicQueue.add stored q x) := by
  intro hfull hnil
  cases stored with
  | true => exact nomatch (List.append_eq_nil_iff.mp hnil).2
  | false =>
      -- an eviction leaves the mark, so there was none
      have hfull' : (prepare q).full = false := hfull
      have hnil' : (prepare q).items = [] := hnil
      show (prepare q).gap = n
      rw [prepare] at hfull' hnil' ⊢
      by_cases hf : q.full = true
      · rw [if_pos hf] at hfull'
        exact nomatch hf.symm.trans hfull'
      · rw [if_neg hf] at hfull' hnil' ⊢
        exact h hfull' hnil'

omit [NeZero n] in
theorem Walkable.not_full (h : Walkable q) (hkeeps : Keeps q) : q.full = false := by
  cases hf : q.full with
  | false => rfl
  | true => exact hf.symm.trans (h.free (hkeeps hf h.aligned))

/-- **APPEND ONLY**: an insertion that evicts nothing keeps the reading position
    on the oldest item and the old items in front of the new one. -/
theorem Walkable.add (h : Walkable q) (hkeeps : Keeps q) (stored : Bool) (x : α) :
    Walkable (CyclicQueue.add stored q x) ∧ q.items <+: (CyclicQueue.add stored q x).items := by
  have hf := h.not_full hkeeps
  have hprep : prepare q = q := if_neg (Bool.eq_false_iff.mp hf)
  cases stored with
  | false =>
      have hsame : CyclicQueue.add false q x = q := hprep
      rw [hsame]
      exact ⟨h, List.prefix_rfl⟩
  | true =>
      have ha : q.items.length + q.gap = n := h.aligned
      have hgap := q.writable hf
      refine ⟨⟨?_, ?_⟩, ?_⟩
      · show ((prepare q).items ++ [x]).length + ((prepare q).gap - 1) = n
        rw [hprep, List.length_append, List.length_singleton]
        omega
      · intro hnil
        exact nomatch (List.append_eq_nil_iff.mp hnil).2
      · rw [add_true_items, hprep]
        exact List.prefix_append _ _

/-- Into an empty queue that is marked full an insertion evicts nothing, and what
    it stores is not at the reading position unless that was one slot back. -/
theorem not_aligned_add (hfull : q.full = true) (hnil : q.items = []) (x : α)
    (hgap : q.gap + 1 ≠ n) (hn : n ≠ 1) : ¬ Aligned (CyclicQueue.add true q x) := by
  have hprep : prepare q = evict q := if_pos hfull
  have hpos : n ≠ 0 := NeZero.ne n
  have hfits := q.fits
  show ¬ ((prepare q).items ++ [x]).length + ((prepare q).gap - 1) = n
  rw [hprep, List.length_append, List.length_singleton]
  show ¬ (if Aligned q then q.items.tail else q.items).length + 1
    + ((if q.gap = n then 1 else q.gap + 1) - 1) = n
  rw [hnil, List.tail_nil, ite_self, List.length_nil]
  split <;> omega

end Keeping

end CyclicQueue
