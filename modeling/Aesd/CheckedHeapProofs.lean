import Mathlib

/-! # A heap that checks every access

    A heap is a finite set of live blocks under distinct addresses.  A program
    on it is a state computation that may fail: reading, writing or freeing an
    address with no live block has no result.  A program that has a result
    therefore freed nothing twice and touched nothing after its release.

    `Safe cells m Q` says that `m`, started with exactly the blocks `cells`,
    has a result, and that the blocks it leaves satisfy `Q`.  The blocks are a
    multiset, so both what is left untouched and what is left behind are read
    off the postcondition: a block that should have been freed is still there.

    Blocks of bytes are lists with a mark for the bytes not written yet.  An
    access outside the block, or a read of a byte never written, fails. -/

namespace CheckedHeap

variable {γ α δ : Type}

/-- The live blocks by address, and the first address never handed out. -/
structure Heap (γ : Type) where
  cells : List (Nat × γ)
  fresh : Nat
  nodup : (cells.map Prod.fst).Nodup
  below : ∀ c ∈ cells, c.1 < fresh

/-- The heap without a block. -/
def Heap.empty : Heap γ := ⟨[], 0, List.nodup_nil, fun _ hc => nomatch hc⟩

/-- A program on the heap; no result is a memory error. -/
abbrev HeapM (γ α : Type) : Type := StateT (Heap γ) Option α

/-- A new block under an address of its own. -/
def alloc (x : γ) : HeapM γ Nat := fun h =>
  some (h.fresh,
    { cells := (h.fresh, x) :: h.cells
      fresh := h.fresh + 1
      nodup := by
        rw [List.map_cons, List.nodup_cons]
        refine ⟨fun hin => ?_, h.nodup⟩
        obtain ⟨c, hc, heq⟩ := List.mem_map.mp hin
        have hlt := h.below c hc
        omega
      below := by
        intro c hc
        rcases List.mem_cons.mp hc with rfl | hold
        · exact Nat.lt_succ_self _
        · exact Nat.lt_succ_of_lt (h.below c hold) })

/-- The contents of a live block. -/
def load (p : Nat) : HeapM γ γ := fun h =>
  (h.cells.find? fun c => c.1 == p).map fun c => (c.2, h)

private theorem map_fst_store (cells : List (Nat × γ)) (p : Nat) (x : γ) :
    (cells.map fun c => if c.1 = p then (p, x) else c).map Prod.fst = cells.map Prod.fst := by
  rw [List.map_map]
  refine List.map_congr_left fun c _ => ?_
  show (if c.1 = p then (p, x) else c).1 = c.1
  by_cases hc : c.1 = p
  · rw [if_pos hc]
    exact hc.symm
  · rw [if_neg hc]

/-- New contents for a live block. -/
def store (p : Nat) (x : γ) : HeapM γ Unit := fun h =>
  if p ∈ h.cells.map Prod.fst then
    some ((),
      { h with
        cells := h.cells.map fun c => if c.1 = p then (p, x) else c
        nodup := by
          rw [map_fst_store]
          exact h.nodup
        below := by
          intro c hc
          have hin : c.1 ∈ h.cells.map Prod.fst := by
            rw [← map_fst_store h.cells p x]
            exact List.mem_map_of_mem hc
          obtain ⟨c', hc', heq⟩ := List.mem_map.mp hin
          rw [← heq]
          exact h.below c' hc' })
  else none

/-- The end of a live block. -/
def free (p : Nat) : HeapM γ Unit := fun h =>
  if p ∈ h.cells.map Prod.fst then
    some ((),
      { h with
        cells := h.cells.filter fun c => c.1 ≠ p
        nodup := h.nodup.sublist (List.filter_sublist.map Prod.fst)
        below := fun c hc => h.below c (List.mem_of_mem_filter hc) })
  else none

/-! ## The blocks of a heap -/

/-- The live blocks of the heap are exactly `cells`. -/
def Owns (h : Heap γ) (cells : Multiset (Nat × γ)) : Prop := (h.cells : Multiset (Nat × γ)) = cells

theorem owns_empty : Owns (Heap.empty : Heap γ) 0 := rfl

/-- Two live blocks under one address are one block. -/
theorem Owns.unique {h : Heap γ} {cells : Multiset (Nat × γ)} (ho : Owns h cells) {p : Nat}
    {x y : γ} (hx : (p, x) ∈ cells) (hy : (p, y) ∈ cells) : x = y := by
  have hinj := List.inj_on_of_nodup_map h.nodup
  rw [← ho, Multiset.mem_coe] at hx hy
  exact congrArg Prod.snd (hinj hx hy rfl)

/-- No other block has the address of a listed one. -/
theorem Owns.not_mem_rest {h : Heap γ} {rest : Multiset (Nat × γ)} {p : Nat} {x : γ}
    (ho : Owns h ((p, x) ::ₘ rest)) : ∀ c ∈ rest, c.1 ≠ p := by
  have hkeys : ((p, x) ::ₘ rest).map Prod.fst = (h.cells.map Prod.fst : Multiset Nat) := by
    rw [← ho, Multiset.map_coe]
  have hnd : (((p, x) ::ₘ rest).map Prod.fst).Nodup := by
    rw [hkeys]
    exact h.nodup
  rw [Multiset.map_cons, Multiset.nodup_cons] at hnd
  intro c hc heq
  exact hnd.1 (Multiset.mem_map.mpr ⟨c, hc, heq⟩)

private theorem Owns.mem_fst {h : Heap γ} {cells : Multiset (Nat × γ)} (ho : Owns h cells)
    {p : Nat} {x : γ} (hx : (p, x) ∈ cells) : p ∈ h.cells.map Prod.fst := by
  rw [← ho, Multiset.mem_coe] at hx
  exact List.mem_map.mpr ⟨(p, x), hx, rfl⟩

theorem load_owns {h : Heap γ} {cells : Multiset (Nat × γ)} (ho : Owns h cells) {p : Nat}
    {x : γ} (hx : (p, x) ∈ cells) : load p h = some (x, h) := by
  rw [load]
  cases hfind : h.cells.find? fun c => c.1 == p with
  | none =>
      have hnot := List.find?_eq_none.mp hfind (p, x) (by rw [← Multiset.mem_coe, ho]; exact hx)
      exact absurd (beq_self_eq_true p) hnot
  | some c =>
      obtain ⟨p', y⟩ := c
      have hp : p' = p := eq_of_beq
        (@List.find?_some _ (fun c : Nat × γ => c.1 == p) (p', y) h.cells hfind)
      have hy : (p, y) ∈ cells := by
        rw [← ho, Multiset.mem_coe, ← hp]
        exact List.mem_of_find?_eq_some hfind
      rw [ho.unique hx hy]
      rfl

theorem alloc_owns {h : Heap γ} {cells : Multiset (Nat × γ)} (ho : Owns h cells) (x : γ) :
    ∃ p h', alloc x h = some (p, h') ∧ Owns h' ((p, x) ::ₘ cells) := by
  refine ⟨_, _, rfl, ?_⟩
  rw [← ho]
  rfl

theorem store_owns {h : Heap γ} {rest : Multiset (Nat × γ)} {p : Nat} {x : γ}
    (ho : Owns h ((p, x) ::ₘ rest)) (y : γ) :
    ∃ h', store p y h = some ((), h') ∧ Owns h' ((p, y) ::ₘ rest) := by
  have hin := ho.mem_fst (Multiset.mem_cons_self _ _)
  refine ⟨_, if_pos hin, ?_⟩
  show ((h.cells.map fun c => if c.1 = p then (p, y) else c : List (Nat × γ)) :
    Multiset (Nat × γ)) = _
  rw [← Multiset.map_coe, show (h.cells : Multiset (Nat × γ)) = _ from ho, Multiset.map_cons,
    if_pos rfl]
  congr 1
  rw [Multiset.map_congr rfl fun c hc => if_neg (ho.not_mem_rest c hc)]
  exact Multiset.map_id' rest

theorem free_owns {h : Heap γ} {rest : Multiset (Nat × γ)} {p : Nat} {x : γ}
    (ho : Owns h ((p, x) ::ₘ rest)) : ∃ h', free p h = some ((), h') ∧ Owns h' rest := by
  have hin := ho.mem_fst (Multiset.mem_cons_self _ _)
  refine ⟨_, if_pos hin, ?_⟩
  show ((h.cells.filter fun c => c.1 ≠ p : List (Nat × γ)) : Multiset (Nat × γ)) = _
  rw [← Multiset.filter_coe, show (h.cells : Multiset (Nat × γ)) = _ from ho,
    Multiset.filter_cons_of_neg _ (by simp), Multiset.filter_eq_self]
  exact ho.not_mem_rest

/-! ## Safe programs -/

/-- Started with exactly the blocks `cells`, the program has a result, and the
    result and the blocks it leaves satisfy `Q`. -/
def Safe (cells : Multiset (Nat × γ)) (m : HeapM γ α) (Q : α → Multiset (Nat × γ) → Prop) :
    Prop :=
  ∀ h, Owns h cells → ∃ a h' cells', m h = some (a, h') ∧ Owns h' cells' ∧ Q a cells'

section Rules

variable {cells rest : Multiset (Nat × γ)} {p : Nat} {x y : γ}

theorem Safe.ret {Q : α → Multiset (Nat × γ) → Prop} {a : α} (hq : Q a cells) :
    Safe cells (pure a : HeapM γ α) Q := by
  intro h ho
  exact ⟨a, h, cells, rfl, ho, hq⟩

/-- **SEQUENCING**: what the first program leaves is where the second starts. -/
theorem Safe.bind {m : HeapM γ α} {f : α → HeapM γ δ} {R : δ → Multiset (Nat × γ) → Prop}
    (hm : Safe cells m fun a cells' => Safe cells' (f a) R) : Safe cells (m >>= f) R := by
  intro h ho
  obtain ⟨a, h', cells', hrun, ho', hf⟩ := hm h ho
  obtain ⟨b, h'', cells'', hrun', ho'', hr⟩ := hf h' ho'
  refine ⟨b, h'', cells'', ?_, ho'', hr⟩
  show (m h).bind (fun r => f r.1 r.2) = some (b, h'')
  rw [hrun]
  exact hrun'

theorem Safe.imp {m : HeapM γ α} {Q R : α → Multiset (Nat × γ) → Prop} (hm : Safe cells m Q)
    (himp : ∀ a cells', Q a cells' → R a cells') : Safe cells m R := by
  intro h ho
  obtain ⟨a, h', cells', hrun, ho', hq⟩ := hm h ho
  exact ⟨a, h', cells', hrun, ho', himp a cells' hq⟩

theorem Safe.alloc {Q : Nat → Multiset (Nat × γ) → Prop} (hq : ∀ p, Q p ((p, x) ::ₘ cells)) :
    Safe cells (alloc x) Q := by
  intro h ho
  obtain ⟨p, h', hrun, ho'⟩ := alloc_owns ho x
  exact ⟨p, h', _, hrun, ho', hq p⟩

theorem Safe.load {Q : γ → Multiset (Nat × γ) → Prop} (hx : (p, x) ∈ cells)
    (hq : Q x cells) : Safe cells (load p) Q := by
  intro h ho
  exact ⟨x, h, cells, load_owns ho hx, ho, hq⟩

theorem Safe.store {Q : Unit → Multiset (Nat × γ) → Prop} (hc : cells = (p, x) ::ₘ rest)
    (hq : Q () ((p, y) ::ₘ rest)) : Safe cells (store p y) Q := by
  intro h ho
  obtain ⟨h', hrun, ho'⟩ := store_owns (hc ▸ ho) y
  exact ⟨(), h', _, hrun, ho', hq⟩

theorem Safe.free {Q : Unit → Multiset (Nat × γ) → Prop} (hc : cells = (p, x) ::ₘ rest)
    (hq : Q () rest) : Safe cells (free p) Q := by
  intro h ho
  obtain ⟨h', hrun, ho'⟩ := free_owns (hc ▸ ho)
  exact ⟨(), h', _, hrun, ho', hq⟩

end Rules

/-! ## The size of a heap -/

/-- The sum of the sizes of the live blocks. -/
def Heap.total (size : γ → Nat) (h : Heap γ) : Nat := (h.cells.map fun c => size c.2).sum

/-- The sum of the sizes of some blocks. -/
def totalSize (size : γ → Nat) (cells : Multiset (Nat × γ)) : Nat :=
  (cells.map fun c => size c.2).sum

theorem Owns.total_eq {h : Heap γ} {cells : Multiset (Nat × γ)} (ho : Owns h cells)
    (size : γ → Nat) : h.total size = totalSize size cells := by
  rw [totalSize]
  rw [← ho, Multiset.map_coe, Multiset.sum_coe]
  rfl

section Total

variable (size : γ → Nat)

@[simp] theorem totalSize_zero : totalSize size 0 = 0 := rfl

@[simp] theorem totalSize_cons (c : Nat × γ) (cells : Multiset (Nat × γ)) :
    totalSize size (c ::ₘ cells) = size c.2 + totalSize size cells := by
  simp [totalSize]

@[simp] theorem totalSize_add (cells cells' : Multiset (Nat × γ)) :
    totalSize size (cells + cells') = totalSize size cells + totalSize size cells' := by
  simp [totalSize]

theorem totalSize_sum {ι : Type} (s : Finset ι) (f : ι → Multiset (Nat × γ)) :
    totalSize size (∑ i ∈ s, f i) = ∑ i ∈ s, totalSize size (f i) := by
  classical
  induction s using Finset.induction_on with
  | empty => rfl
  | insert i s hi ih => rw [Finset.sum_insert hi, Finset.sum_insert hi, totalSize_add, ih]

end Total

/-! ## Blocks of bytes -/

section Bytes

variable {β : Type}

/-- A block with exactly these bytes, all of them written. -/
def written (bs : List β) : List (Option β) := bs.map some

/-- A block of `n` bytes none of which is written. -/
def unwritten (n : Nat) : List (Option β) := List.replicate n none

/-- All of the bytes, if all are written. -/
def allWritten : List (Option β) → Option (List β)
  | [] => some []
  | none :: _ => none
  | some b :: rest => (allWritten rest).map (b :: ·)

/-- `n` bytes from offset `off` on. -/
def readAt (block : List (Option β)) (off n : Nat) : Option (List β) :=
  if off + n ≤ block.length then allWritten ((block.drop off).take n) else none

/-- The bytes from offset `off` on replaced by `bs`. -/
def writeAt (block : List (Option β)) (off : Nat) (bs : List β) : Option (List (Option β)) :=
  if off + bs.length ≤ block.length then
    some (block.take off ++ (written bs ++ block.drop (off + bs.length)))
  else none

@[simp] theorem length_written (bs : List β) : (written bs).length = bs.length :=
  List.length_map _

@[simp] theorem length_unwritten (n : Nat) : (unwritten n : List (Option β)).length = n :=
  List.length_replicate

theorem written_append (bs cs : List β) : written (bs ++ cs) = written bs ++ written cs :=
  List.map_append

theorem allWritten_written (bs : List β) : allWritten (written bs) = some bs := by
  induction bs with
  | nil => rfl
  | cons b bs ih =>
      show (allWritten (written bs)).map (b :: ·) = some (b :: bs)
      rw [ih]
      rfl

/-- A read inside a written block is the slice of its bytes. -/
theorem readAt_written {bs : List β} {off n : Nat} (h : off + n ≤ bs.length) :
    readAt (written bs) off n = some ((bs.drop off).take n) := by
  rw [readAt]
  rw [length_written, if_pos h, written, ← List.map_drop, ← List.map_take]
  exact allWritten_written _

/-- A write inside a written block. -/
theorem writeAt_written {bs cs : List β} {off : Nat} (h : off + cs.length ≤ bs.length) :
    writeAt (written bs) off cs
      = some (written (bs.take off ++ (cs ++ bs.drop (off + cs.length)))) := by
  rw [writeAt]
  rw [length_written, if_pos h, written_append, written_append]
  simp only [written, List.map_take, List.map_drop]

/-- Filling the front of an unwritten block. -/
theorem writeAt_unwritten {bs : List β} {n : Nat} (h : bs.length ≤ n) :
    writeAt (unwritten n) 0 bs = some (written bs ++ unwritten (n - bs.length)) := by
  rw [writeAt]
  rw [length_unwritten, Nat.zero_add, if_pos h, List.take_zero, List.nil_append, unwritten,
    List.drop_replicate]
  rfl

/-- Filling an unwritten block. -/
theorem writeAt_fill (bs : List β) : writeAt (unwritten bs.length) 0 bs = some (written bs) := by
  rw [writeAt_unwritten (Nat.le_refl _), Nat.sub_self]
  exact congrArg some (List.append_nil _)

/-- Filling the rest of a block whose front is written. -/
theorem writeAt_rest (bs cs : List β) :
    writeAt (written bs ++ unwritten cs.length) bs.length cs = some (written (bs ++ cs)) := by
  rw [writeAt]
  rw [List.length_append, length_written, length_unwritten, if_pos (Nat.le_refl _),
    List.take_left' (length_written bs), written_append,
    List.drop_eq_nil_of_le (by simp), List.append_nil]

end Bytes

end CheckedHeap
