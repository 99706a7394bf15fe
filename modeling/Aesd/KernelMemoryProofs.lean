import Aesd.CheckedHeapProofs
import Aesd.DriverProofs

/-! # The driver over kernel memory

    `DriverProofs` reads a pointer as the bytes behind it.  Here the same
    functions are written down as the source has them: a device is two
    pointers, both structures and every byte string are blocks obtained from
    `kmalloc`, and every access goes through a heap that fails when the block
    is gone, too short or not yet written.

    `Backs` says that some blocks are exactly the memory of a device: the two
    structures, one block for each live slot and one for the pending bytes.
    The results are of one form: from the memory of a device the function has
    a result, it is the result of the function in `DriverProofs`, and what is
    left is the memory of the device afterwards.  Absence of memory errors and
    of leaks are the two halves of that. -/

namespace AesdKernel

open AesdMachine AesdDriver CheckedHeap

variable {β : Type}

/-- `struct aesd_buffer_entry`. -/
structure AesdBufferEntry where
  buffptr : Option Nat
  size    : Nat

/-- `struct aesd_circular_buffer`. -/
structure AesdCircularBuffer where
  entry   : Nat → AesdBufferEntry
  inOffs  : Nat
  outOffs : Nat
  full    : Bool
  size    : Nat

/-- `struct aesd_temperary_buffer`. -/
structure AesdTemperaryBuffer where
  buffptr : Option Nat
  size    : Nat

/-- `struct aesd_dev`, less the `cdev`. -/
structure AesdDevice where
  bufferTemperary : Option Nat
  bufferCircular  : Option Nat

/-- What a block of kernel memory holds. -/
inductive Block (β : Type) where
  | bytes (bs : List (Option β))
  | circular (buffer : AesdCircularBuffer)
  | temperary (buffer : AesdTemperaryBuffer)

/-- `sizeof(struct aesd_circular_buffer)`: ten entries of two words, three bytes
    padded to a word, and a word. -/
def sizeofCircular : Nat := 176

/-- `sizeof(struct aesd_temperary_buffer)`. -/
def sizeofTemperary : Nat := 16

/-- The bytes a block takes. -/
def Block.size : Block β → Nat
  | .bytes bs => bs.length
  | .circular _ => sizeofCircular
  | .temperary _ => sizeofTemperary

/-- A function of the driver: it acts on kernel memory. -/
abbrev KernelM (β α : Type) : Type := HeapM (Block β) α

/-! ## The kernel's functions -/

/-- `kmalloc`: a block that nothing was written to, or `NULL`. -/
def kmalloc (granted : Bool) (size : Nat) : KernelM β (Option Nat) := fun h =>
  if AesdMachine.kmalloc granted (h.total Block.size) size then
    (some <$> alloc (.bytes (unwritten size))) h
  else (pure none : KernelM β (Option Nat)) h

/-- `kfree`; freeing `NULL` does nothing. -/
def kfree : Option Nat → KernelM β Unit
  | none => pure ()
  | some p => free p

/-- The value, or a memory error. -/
def orFail {α : Type} : Option α → KernelM β α
  | none => fun _ => none
  | some a => pure a

/-- The contents of a block of bytes. -/
def loadBlock (p : Nat) : KernelM β (List (Option β)) := do
  match ← load p with
  | .bytes bs => pure bs
  | _ => orFail none

/-- Read `n` bytes at `p + off`: the kernel's side of `copy_to_user`. -/
def loadBytes (p off n : Nat) : KernelM β (List β) := do
  orFail (readAt (← loadBlock p) off n)

/-- Write bytes at `p + off`: the kernel's side of `copy_from_user`. -/
def storeBytes (p off : Nat) (bs : List β) : KernelM β Unit := do
  store p (.bytes (← orFail (writeAt (← loadBlock p) off bs)))

/-- `memcpy(dst + off, src, n)`. -/
def memcpy (dst off src n : Nat) : KernelM β Unit := do
  storeBytes dst off (← loadBytes src 0 n)

/-- The fields behind a `struct aesd_temperary_buffer *`. -/
def loadTemperary (p : Option Nat) : KernelM β AesdTemperaryBuffer := do
  match ← load (← orFail p) with
  | .temperary buffer => pure buffer
  | _ => orFail none

/-- The fields behind a `struct aesd_circular_buffer *`. -/
def loadCircular (p : Option Nat) : KernelM β AesdCircularBuffer := do
  match ← load (← orFail p) with
  | .circular buffer => pure buffer
  | _ => orFail none

/-- Assign the fields behind a `struct aesd_temperary_buffer *`. -/
def storeTemperary (p : Option Nat) (buffer : AesdTemperaryBuffer) : KernelM β Unit := do
  store (← orFail p) (.temperary buffer)

/-- Assign the fields behind a `struct aesd_circular_buffer *`. -/
def storeCircular (p : Option Nat) (buffer : AesdCircularBuffer) : KernelM β Unit := do
  store (← orFail p) (.circular buffer)

/-- `got` is an answer `kmalloc` can give with `inUse` bytes in use or fewer:
    only what is granted, and all of it that fits. -/
structure Answers (granted : Bool) (inUse size : Nat) (got : Bool) : Prop where
  only : got = true → granted = true
  fits : granted = true → inUse + size < kernelSpace → got = true

/-- The answer itself. -/
theorem answers_kmalloc {granted got : Bool} {inUse used size : Nat} (hle : used ≤ inUse)
    (h : AesdMachine.kmalloc granted used size = got) : Answers granted inUse size got := by
  rw [← h]
  refine ⟨fun hk => (kmalloc_eq_true.mp hk).1, fun hg hfits => kmalloc_eq_true.mpr ⟨hg, ?_⟩⟩
  rw [kernelSpace] at hfits
  omega

/-! ## Their rules -/

section Rules

variable {cells rest : Multiset (Nat × Block β)} {p : Nat}

/-- An answer of `kmalloc` either way. -/
theorem kmalloc_safe {granted : Bool} {size : Nat}
    {Q : Option Nat → Multiset (Nat × Block β) → Prop}
    (hgot : AesdMachine.kmalloc granted (totalSize Block.size cells) size = true →
      ∀ p, Q (some p) ((p, .bytes (unwritten size)) ::ₘ cells))
    (hnull : AesdMachine.kmalloc granted (totalSize Block.size cells) size = false →
      Q none cells) : Safe cells (kmalloc granted size) Q := by
  intro h ho
  rw [kmalloc]
  rw [ho.total_eq]
  cases hk : AesdMachine.kmalloc granted (totalSize Block.size cells) size with
  | false => exact ⟨none, h, cells, rfl, ho, hnull hk⟩
  | true =>
      obtain ⟨p, h', hrun, ho'⟩ := alloc_owns ho (.bytes (unwritten size))
      refine ⟨some p, h', _, ?_, ho', hgot hk p⟩
      show (alloc (.bytes (unwritten size)) h).bind (fun r => some (some r.1, r.2)) = _
      rw [hrun]
      rfl

/-- The call answers with a new block, or with `NULL`, by `got`. -/
def Allocates (cells : Multiset (Nat × Block β)) (call : KernelM β (Option Nat)) (size : Nat)
    (got : Bool) : Prop :=
  ∀ Q : Option Nat → Multiset (Nat × Block β) → Prop,
    (got = true → ∀ p, Q (some p) ((p, .bytes (unwritten size)) ::ₘ cells)) →
    (got = false → Q none cells) → Safe cells call Q

theorem kmalloc_allocates (granted : Bool) (size : Nat) : Allocates cells (kmalloc granted size)
    size (AesdMachine.kmalloc granted (totalSize Block.size cells) size) :=
  fun _ hgot hnull => kmalloc_safe hgot hnull

theorem kfree_safe {Q : Unit → Multiset (Nat × Block β) → Prop} {x : Block β}
    (hc : cells = (p, x) ::ₘ rest) (hq : Q () rest) : Safe cells (kfree (some p)) Q :=
  Safe.free hc hq

theorem loadBlock_safe {Q : List (Option β) → Multiset (Nat × Block β) → Prop}
    {block : List (Option β)} (hin : (p, .bytes block) ∈ cells) (hq : Q block cells) :
    Safe cells (loadBlock p) Q :=
  Safe.bind (Safe.load hin (Safe.ret hq))

theorem loadBytes_safe {Q : List β → Multiset (Nat × Block β) → Prop} {bs : List β}
    {off n : Nat} (hin : (p, .bytes (written bs)) ∈ cells) (hn : off + n ≤ bs.length)
    (hq : Q ((bs.drop off).take n) cells) : Safe cells (loadBytes p off n) Q := by
  refine Safe.bind (loadBlock_safe hin ?_)
  rw [readAt_written hn]
  exact Safe.ret hq

theorem storeBytes_safe {Q : Unit → Multiset (Nat × Block β) → Prop}
    {block block' : List (Option β)} {off : Nat} {bs : List β}
    (hc : cells = (p, .bytes block) ::ₘ rest) (hw : writeAt block off bs = some block')
    (hq : Q () ((p, .bytes block') ::ₘ rest)) : Safe cells (storeBytes p off bs) Q := by
  refine Safe.bind (loadBlock_safe (by rw [hc]; exact Multiset.mem_cons_self _ _) ?_)
  rw [hw]
  exact Safe.bind (Safe.ret (Safe.store hc hq))

/-- A copy of the first `n` bytes of a written block. -/
theorem memcpy_safe {Q : Unit → Multiset (Nat × Block β) → Prop} {src off n : Nat}
    {block block' : List (Option β)} {bs : List β} (hc : cells = (p, .bytes block) ::ₘ rest)
    (hsrc : (src, .bytes (written bs)) ∈ cells) (hn : n ≤ bs.length)
    (hw : writeAt block off (bs.take n) = some block')
    (hq : Q () ((p, .bytes block') ::ₘ rest)) : Safe cells (memcpy p off src n) Q := by
  refine Safe.bind (loadBytes_safe hsrc (by omega) ?_)
  rw [List.drop_zero]
  exact storeBytes_safe hc hw hq

theorem loadTemperary_safe {Q : AesdTemperaryBuffer → Multiset (Nat × Block β) → Prop}
    {t : AesdTemperaryBuffer} (hin : (p, .temperary t) ∈ cells) (hq : Q t cells) :
    Safe cells (loadTemperary (some p)) Q :=
  Safe.bind (Safe.ret (Safe.bind (Safe.load hin (Safe.ret hq))))

theorem loadCircular_safe {Q : AesdCircularBuffer → Multiset (Nat × Block β) → Prop}
    {r : AesdCircularBuffer} (hin : (p, .circular r) ∈ cells) (hq : Q r cells) :
    Safe cells (loadCircular (some p)) Q :=
  Safe.bind (Safe.ret (Safe.bind (Safe.load hin (Safe.ret hq))))

theorem storeTemperary_safe {Q : Unit → Multiset (Nat × Block β) → Prop}
    {t : AesdTemperaryBuffer} {x : Block β} (hc : cells = (p, x) ::ₘ rest)
    (hq : Q () ((p, .temperary t) ::ₘ rest)) : Safe cells (storeTemperary (some p) t) Q :=
  Safe.bind (Safe.ret (Safe.store hc hq))

theorem storeCircular_safe {Q : Unit → Multiset (Nat × Block β) → Prop}
    {r : AesdCircularBuffer} {x : Block β} (hc : cells = (p, x) ::ₘ rest)
    (hq : Q () ((p, .circular r) ::ₘ rest)) : Safe cells (storeCircular (some p) r) Q :=
  Safe.bind (Safe.ret (Safe.store hc hq))

end Rules

/-! ## `aesd_temperaty_buffer.c` -/

/-- `aesd_temperary_buffer_init`. -/
def aesdTemperaryBufferInit (bufferTemperary : Option Nat) : KernelM β Unit :=
  storeTemperary bufferTemperary ⟨none, 0⟩

/-- `aesd_temperary_buffer_clean`. -/
def aesdTemperaryBufferClean (bufferTemperary : Option Nat) : KernelM β Unit := do
  let b ← loadTemperary bufferTemperary
  match b.buffptr with
  | some p => do
      kfree (some p)
      storeTemperary bufferTemperary ⟨none, 0⟩
  | none => pure ()

/-- `aesd_temperary_buffer_delete`; the source's body is that of `clean` without
    its messages. -/
def aesdTemperaryBufferDelete (bufferTemperary : Option Nat) : KernelM β Unit :=
  aesdTemperaryBufferClean bufferTemperary

/-- `aesd_temperary_buffer_is_empty`. -/
def aesdTemperaryBufferIsEmpty (bufferTemperary : Option Nat) : KernelM β Bool := do
  let b ← loadTemperary bufferTemperary
  pure (b.buffptr.isNone || b.size == 0)

/-- `aesd_temperary_buffer_add`, over the allocator it is compiled with. -/
def aesdTemperaryBufferAddBy (malloc : Nat → KernelM β (Option Nat))
    (bufferTemperary : Option Nat) (data size : Nat) : KernelM β Bool := do
  let b ← loadTemperary bufferTemperary
  match b.buffptr with
  | none => do
      match ← malloc size with
      | none => pure false
      | some buffptrLast => do
          memcpy buffptrLast 0 data size
          storeTemperary bufferTemperary ⟨some buffptrLast, size⟩
          pure true
  | some buffptrLast => do
      match ← malloc (sizeAdd b.size size) with
      | none => pure false
      | some buffptrNew => do
          memcpy buffptrNew 0 buffptrLast b.size
          memcpy buffptrNew b.size data size
          kfree (some buffptrLast)
          storeTemperary bufferTemperary ⟨some buffptrNew, sizeAdd b.size size⟩
          pure true

/-- `aesd_temperary_buffer_add` of the driver. -/
def aesdTemperaryBufferAdd (granted : Bool) (bufferTemperary : Option Nat) (data size : Nat) :
    KernelM β Bool :=
  aesdTemperaryBufferAddBy (kmalloc granted) bufferTemperary data size

/-! ## `aesd_circular_buffer.c` -/

/-- `aesd_circular_buffer_init`: all bytes zero. -/
def aesdCircularBufferInit (buffer : Option Nat) : KernelM β Unit :=
  storeCircular buffer
    { entry := fun _ => ⟨none, 0⟩
      inOffs := 0
      outOffs := 0
      full := false
      size := 0 }

/-- The first half of `aesd_circular_buffer_add_entry`: a ring marked full loses
    the entry at `out_offs`. -/
def freeOldest (buffer : AesdCircularBuffer) : KernelM β AesdCircularBuffer :=
  if buffer.full then do
    kfree (buffer.entry buffer.outOffs).buffptr
    pure
      { buffer with
        size := sizeSub buffer.size (buffer.entry buffer.outOffs).size
        entry := Function.update buffer.entry buffer.outOffs ⟨none, 0⟩
        outOffs := AesdRing.nextOffs buffer.outOffs }
  else pure buffer

/-- The second half: copy the entry into a block of the ring's own. -/
def copyEntry (granted : Bool) (buffer : Option Nat) (ring : AesdCircularBuffer)
    (buffptr size : Nat) : KernelM β Unit := do
  match ← kmalloc granted size with
  | none =>
      storeCircular buffer
        { ring with
          entry := Function.update ring.entry ring.inOffs
            ⟨none, (ring.entry ring.inOffs).size⟩ }
  | some p => do
      memcpy p 0 buffptr size
      storeCircular buffer
        { ring with
          entry := Function.update ring.entry ring.inOffs ⟨some p, size⟩
          size := sizeAdd ring.size size
          inOffs := AesdRing.nextOffs ring.inOffs
          full := decide (AesdRing.nextOffs ring.inOffs = ring.outOffs) }

/-- `aesd_circular_buffer_add_entry` for an entry of `size` bytes at `buffptr`. -/
def aesdCircularBufferAddEntry (granted : Bool) (buffer : Option Nat) (buffptr size : Nat) :
    KernelM β Unit := do
  let ring ← freeOldest (← loadCircular buffer)
  copyEntry granted buffer ring buffptr size

/-- `aesd_circular_buffer_cleanup`, from slot `i` on; the test for `NULL` before
    the call is the one inside it. -/
def cleanupFrom (ring : AesdCircularBuffer) : Nat → Nat → KernelM β Unit
  | 0, _ => pure ()
  | left + 1, i => do
      kfree (ring.entry i).buffptr
      cleanupFrom ring left (i + 1)

/-- `aesd_circular_buffer_cleanup`. -/
def aesdCircularBufferCleanup (buffer : Option Nat) : KernelM β Unit := do
  cleanupFrom (← loadCircular buffer) AesdRing.aesdcharMaxWriteOperationsSupported 0

/-! ## The memory of the two buffers -/

/-- The block behind a pointer: none behind `NULL`. -/
def blockCells : Option Nat → Option (List β) → Multiset (Nat × Block β)
  | some p, some bs => {(p, .bytes (written bs))}
  | _, _ => 0

/-- The blocks behind the entries of a ring. -/
def ringCells (entry : Nat → AesdBufferEntry) (entry' : Nat → AesdRing.AesdBufferEntry β) :
    Multiset (Nat × Block β) :=
  ∑ i ∈ Finset.range AesdRing.aesdcharMaxWriteOperationsSupported,
    blockCells (entry i).buffptr (entry' i).buffptr

/-- The pointer is `NULL` in both, and the sizes agree. -/
structure SameEntry (e : AesdBufferEntry) (e' : AesdRing.AesdBufferEntry β) : Prop where
  null : e.buffptr.isSome = e'.buffptr.isSome
  size : e.size = e'.size

/-- The same ring, with pointers in place of the bytes. -/
structure SameRing (r : AesdCircularBuffer) (r' : AesdRing.AesdCircularBuffer β) : Prop where
  entry   : ∀ i, SameEntry (r.entry i) (r'.entry i)
  inOffs  : r.inOffs = r'.inOffs
  outOffs : r.outOffs = r'.outOffs
  full    : r.full = r'.full
  size    : r.size = r'.size

/-- The same pending buffer, with a pointer in place of the bytes. -/
structure SameTemperary (t : AesdTemperaryBuffer) (t' : AesdTemperary.AesdTemperaryBuffer β) :
    Prop where
  null : t.buffptr.isSome = t'.buffptr.isSome
  size : t.size = t'.size

@[simp] theorem blockCells_null (b : Option (List β)) : blockCells none b = 0 := by
  cases b with
  | none => rfl
  | some bs => rfl

@[simp] theorem blockCells_some (a : Nat) (bs : List β) :
    blockCells (some a) (some bs) = {(a, .bytes (written bs))} := rfl

/-- Pointer and bytes go together. -/
theorem pointer_cases {p : Option Nat} {b : Option (List β)} (h : p.isSome = b.isSome) :
    (p = none ∧ b = none) ∨ ∃ a bs, p = some a ∧ b = some bs := by
  cases p with
  | none =>
      cases b with
      | none => exact Or.inl ⟨rfl, rfl⟩
      | some bs => exact nomatch h
  | some a =>
      cases b with
      | none => exact nomatch h
      | some bs => exact Or.inr ⟨a, bs, rfl, rfl⟩

theorem SameEntry.update {entry : Nat → AesdBufferEntry}
    {entry' : Nat → AesdRing.AesdBufferEntry β} (h : ∀ i, SameEntry (entry i) (entry' i))
    (j : Nat) {e : AesdBufferEntry} {e' : AesdRing.AesdBufferEntry β} (he : SameEntry e e') :
    ∀ i, SameEntry (Function.update entry j e i) (Function.update entry' j e' i) := by
  intro i
  by_cases hij : i = j
  · rw [hij, Function.update_self, Function.update_self]
    exact he
  · rw [Function.update_of_ne hij, Function.update_of_ne hij]
    exact h i

/-- One slot of the ring apart from the others, which an update leaves alone. -/
theorem ringCells_slot (entry : Nat → AesdBufferEntry)
    (entry' : Nat → AesdRing.AesdBufferEntry β) {j : Nat} (hj : j < 10) :
    ∃ others, ringCells entry entry' = blockCells (entry j).buffptr (entry' j).buffptr + others ∧
      ∀ e e', ringCells (Function.update entry j e) (Function.update entry' j e')
        = blockCells e.buffptr e'.buffptr + others := by
  have hmem : j ∈ Finset.range AesdRing.aesdcharMaxWriteOperationsSupported :=
    Finset.mem_range.mpr hj
  refine ⟨∑ i ∈ (Finset.range AesdRing.aesdcharMaxWriteOperationsSupported).erase j,
    blockCells (entry i).buffptr (entry' i).buffptr, ?_, ?_⟩
  · exact (Finset.add_sum_erase _ _ hmem).symm
  · intro e e'
    rw [ringCells]
    rw [← Finset.add_sum_erase _ _ hmem, Function.update_self, Function.update_self]
    congr 1
    refine Finset.sum_congr rfl fun i hi => ?_
    rw [Function.update_of_ne (Finset.ne_of_mem_erase hi),
      Function.update_of_ne (Finset.ne_of_mem_erase hi)]

/-! ## Its size -/

/-- The number of bytes behind an entry. -/
private def entryLength (e : AesdRing.AesdBufferEntry β) : Nat := (e.buffptr.getD []).length

theorem totalSize_blockCells {p : Option Nat} {b : Option (List β)} (h : p.isSome = b.isSome) :
    totalSize Block.size (blockCells p b) = (b.getD []).length := by
  rcases pointer_cases h with ⟨rfl, rfl⟩ | ⟨a, bs, rfl, rfl⟩
  · rfl
  · simp [totalSize, Block.size]

/-- The blocks of a ring are as long as the items together. -/
theorem totalSize_ringCells {r : AesdCircularBuffer} {r' : AesdRing.AesdCircularBuffer β}
    {q : CyclicQueue.SlotQueue 10 (List β)} (hr : SameRing r r')
    (hrep : AesdRing.Represents r' q) :
    totalSize Block.size (ringCells r.entry r'.entry) = q.items.flatten.length := by
  have hperm := CyclicWindow.window_perm r'.entry (Nat.le_of_lt hrep.in_lt)
  rw [hrep.slots] at hperm
  have hstored : (q.items.map AesdRing.stored).map entryLength = q.items.map List.length := by
    rw [List.map_map]
    rfl
  have hfree : ((List.replicate (10 - q.items.length)
      (AesdRing.freeSlot : AesdRing.AesdBufferEntry β)).map entryLength).sum = 0 := by
    rw [List.map_replicate, List.sum_replicate]
    exact Nat.mul_zero _
  calc totalSize Block.size (ringCells r.entry r'.entry)
      = ∑ i ∈ Finset.range 10, entryLength (r'.entry i) := by
        rw [ringCells, totalSize_sum]
        exact Finset.sum_congr rfl fun i _ => totalSize_blockCells (hr.entry i).null
    _ = (((List.range 10).map r'.entry).map entryLength).sum := by
        rw [List.map_map]
        rfl
    _ = q.items.flatten.length := by
        rw [← (hperm.map entryLength).sum_eq, List.map_append, List.sum_append, hfree, hstored,
          Nat.zero_add, List.length_flatten]

/-! ## The pending buffer -/

section Temperary

variable {cells rest : Multiset (Nat × Block β)} {pt : Nat} {t : AesdTemperaryBuffer}
  {t' : AesdTemperary.AesdTemperaryBuffer β}

/-- The memory of a pending buffer beside other blocks. -/
def temperaryCells (pt : Nat) (t : AesdTemperaryBuffer)
    (t' : AesdTemperary.AesdTemperaryBuffer β) (rest : Multiset (Nat × Block β)) :
    Multiset (Nat × Block β) :=
  (pt, .temperary t) ::ₘ (blockCells t.buffptr t'.buffptr + rest)

theorem totalSize_temperaryCells {pending : List β} (ht : SameTemperary t t')
    (hholds : AesdTemperary.Holds t' pending) :
    totalSize Block.size (temperaryCells pt t t' rest)
      = sizeofTemperary + (pending.length + totalSize Block.size rest) := by
  have hlen : (t'.buffptr.getD []).length = pending.length := by
    cases hholds with
    | null => rfl
    | block => rfl
  rw [temperaryCells, totalSize_cons, totalSize_add, totalSize_blockCells ht.null, hlen]
  rfl

theorem aesdTemperaryBufferIsEmpty_safe {Q : Bool → Multiset (Nat × Block β) → Prop}
    (hin : (pt, .temperary t) ∈ cells) (ht : SameTemperary t t')
    (hq : Q (AesdTemperary.aesdTemperaryBufferIsEmpty t') cells) :
    Safe cells (aesdTemperaryBufferIsEmpty (some pt)) Q := by
  refine Safe.bind (loadTemperary_safe hin (Safe.ret ?_))
  rw [← Option.not_isSome, ht.null, ht.size, Option.not_isSome]
  exact hq

/-- Cleaning frees the block, if there is one. -/
theorem aesdTemperaryBufferClean_safe {Q : Unit → Multiset (Nat × Block β) → Prop}
    (hc : cells = temperaryCells pt t t' rest) (ht : SameTemperary t t')
    (hq : ∀ t₂, SameTemperary t₂ (AesdTemperary.aesdTemperaryBufferClean t') →
      Q () (temperaryCells pt t₂ (AesdTemperary.aesdTemperaryBufferClean t') rest)) :
    Safe cells (aesdTemperaryBufferClean (some pt)) Q := by
  obtain ⟨ptr, size⟩ := t
  obtain ⟨ptr', size'⟩ := t'
  have hin : (pt, .temperary ⟨ptr, size⟩) ∈ cells := by
    rw [hc]
    exact Multiset.mem_cons_self _ _
  refine Safe.bind (loadTemperary_safe hin ?_)
  rcases pointer_cases ht.null with ⟨hp, hb⟩ | ⟨a, bs, hp, hb⟩
  · change ptr = none at hp
    change ptr' = none at hb
    subst hp hb
    refine Safe.ret ?_
    rw [hc]
    exact hq _ ht
  · change ptr = some a at hp
    change ptr' = some bs at hb
    subst hp hb
    have hfree : cells
        = (a, .bytes (written bs)) ::ₘ ((pt, .temperary ⟨some a, size⟩) ::ₘ rest) := by
      rw [hc, temperaryCells, blockCells_some, Multiset.singleton_add, Multiset.cons_swap]
    refine Safe.bind (kfree_safe hfree (storeTemperary_safe rfl ?_))
    have hdone := hq ⟨none, 0⟩ ⟨rfl, rfl⟩
    rw [temperaryCells, blockCells_null, zero_add] at hdone
    exact hdone

variable {malloc : Nat → KernelM β (Option Nat)}

/-- Adding to a buffer without a block. -/
private theorem add_first {Q : Bool → Multiset (Nat × Block β) → Prop} {got : Bool}
    {data size n : Nat} {buf tail : List β} (hc : cells = (pt, .temperary ⟨none, n⟩) ::ₘ rest)
    (hmalloc : Allocates cells (malloc size) size got)
    (hdata : (data, .bytes (written (buf ++ tail))) ∈ rest) (hsize : size = buf.length)
    (hnull : got = false → Q false cells)
    (hgot : got = true → ∀ a, Q true
      ((pt, .temperary ⟨some a, size⟩) ::ₘ ((a, .bytes (written buf)) ::ₘ rest))) :
    Safe cells (aesdTemperaryBufferAddBy malloc (some pt) data size) Q := by
  have hin : (pt, .temperary ⟨none, n⟩) ∈ cells := by
    rw [hc]
    exact Multiset.mem_cons_self _ _
  refine Safe.bind (loadTemperary_safe hin (Safe.bind (hmalloc _ (fun hk a => ?_)
    (fun hk => Safe.ret (hnull hk)))))
  have hsrc : (data, .bytes (written (buf ++ tail))) ∈ (a, .bytes (unwritten size)) ::ₘ cells := by
    rw [hc]
    exact Multiset.mem_cons_of_mem (Multiset.mem_cons_of_mem hdata)
  have hw : writeAt (unwritten size) 0 ((buf ++ tail).take size) = some (written buf) := by
    rw [hsize, List.take_left' rfl]
    exact writeAt_fill buf
  have hle : size ≤ (buf ++ tail).length := by
    rw [hsize, List.length_append]
    exact Nat.le_add_right _ _
  refine Safe.bind (memcpy_safe rfl hsrc hle hw (Safe.bind ?_))
  refine storeTemperary_safe (by rw [hc, Multiset.cons_swap]) (Safe.ret ?_)
  exact hgot hk a

/-- Adding to a buffer with a block: both parts move to a new one. -/
private theorem add_next {Q : Bool → Multiset (Nat × Block β) → Prop} {got : Bool}
    {data size a : Nat} {bs buf tail : List β}
    (hc : cells = (pt, .temperary ⟨some a, bs.length⟩) ::ₘ ((a, .bytes (written bs)) ::ₘ rest))
    (hmalloc : Allocates cells (malloc (bs.length + size)) (bs.length + size) got)
    (hdata : (data, .bytes (written (buf ++ tail))) ∈ rest) (hsize : size = buf.length)
    (hwrap : bs.length + size < 2 ^ 64)
    (hnull : got = false → Q false cells)
    (hgot : got = true → ∀ p, Q true ((pt, .temperary ⟨some p, bs.length + size⟩) ::ₘ
        ((p, .bytes (written (bs ++ buf))) ::ₘ rest))) :
    Safe cells (aesdTemperaryBufferAddBy malloc (some pt) data size) Q := by
  have hin : (pt, .temperary ⟨some a, bs.length⟩) ∈ cells := by
    rw [hc]
    exact Multiset.mem_cons_self _ _
  refine Safe.bind (loadTemperary_safe hin (Safe.bind ?_))
  rw [sizeAdd_eq hwrap]
  refine hmalloc _ (fun hk p => ?_) (fun hk => Safe.ret (hnull hk))
  -- the old bytes
  have hlast : (a, .bytes (written bs)) ∈
      (p, .bytes (unwritten (bs.length + size))) ::ₘ cells := by
    rw [hc]
    exact Multiset.mem_cons_of_mem (Multiset.mem_cons_of_mem (Multiset.mem_cons_self _ _))
  have hw : writeAt (unwritten (bs.length + size)) 0 (bs.take bs.length)
      = some (written bs ++ unwritten buf.length) := by
    rw [List.take_length, writeAt_unwritten (Nat.le_add_right _ _), Nat.add_sub_cancel_left, hsize]
  refine Safe.bind (memcpy_safe rfl hlast (Nat.le_refl _) hw (Safe.bind ?_))
  -- the new ones
  have hsrc : (data, .bytes (written (buf ++ tail))) ∈
      (p, .bytes (written bs ++ unwritten buf.length)) ::ₘ cells := by
    rw [hc]
    exact Multiset.mem_cons_of_mem (Multiset.mem_cons_of_mem (Multiset.mem_cons_of_mem hdata))
  have hw' : writeAt (written bs ++ unwritten buf.length) bs.length ((buf ++ tail).take size)
      = some (written (bs ++ buf)) := by
    rw [hsize, List.take_left' rfl]
    exact writeAt_rest bs buf
  have hle : size ≤ (buf ++ tail).length := by
    rw [hsize, List.length_append]
    exact Nat.le_add_right _ _
  refine memcpy_safe rfl hsrc hle hw' (Safe.bind ?_)
  have hfree : (p, .bytes (written (bs ++ buf))) ::ₘ cells
      = (a, .bytes (written bs)) ::ₘ ((pt, .temperary ⟨some a, bs.length⟩) ::ₘ
        ((p, .bytes (written (bs ++ buf))) ::ₘ rest)) := by
    rw [hc]
    simp only [← Multiset.singleton_add]
    abel
  refine kfree_safe hfree (Safe.bind (storeTemperary_safe rfl (Safe.ret ?_)))
  exact hgot hk p

/-- **ADDING TO THE PENDING BUFFER**: the new bytes are in place and the old
    block is gone, or nothing changed.  The block they come from may be longer. -/
theorem addBy_safe {Q : Bool → Multiset (Nat × Block β) → Prop} {got : Bool}
    {data size : Nat} {pending buf tail : List β} (hc : cells = temperaryCells pt t t' rest)
    (hmalloc : Allocates cells (malloc (pending.length + size)) (pending.length + size) got)
    (ht : SameTemperary t t') (hholds : AesdTemperary.Holds t' pending)
    (hdata : (data, .bytes (written (buf ++ tail))) ∈ rest) (hsize : size = buf.length)
    (hwrap : pending.length + size < 2 ^ 64)
    (hq : ∀ t₂,
      SameTemperary t₂ (AesdTemperary.aesdTemperaryBufferAdd (fun _ => got) t' buf size).2 →
      Q (AesdTemperary.aesdTemperaryBufferAdd (fun _ => got) t' buf size).1
        (temperaryCells pt t₂
          (AesdTemperary.aesdTemperaryBufferAdd (fun _ => got) t' buf size).2 rest)) :
    Safe cells (aesdTemperaryBufferAddBy malloc (some pt) data size) Q := by
  have hrefused := @AesdTemperary.Holds.add_refused _ _ _ hholds (fun _ => false) buf _ rfl hwrap
  have hnull : got = false → Q false cells := by
    rintro rfl
    have hno := hq t
    rw [hrefused] at hno
    rw [hc]
    exact hno ht
  obtain ⟨ptr, n⟩ := t
  cases hholds with
  | null =>
      have hp : ptr = none := Option.not_isSome_iff_eq_none.mp (by
        rw [show ptr.isSome = false from ht.null]
        exact Bool.false_ne_true)
      subst hp
      rw [List.length_nil, Nat.zero_add] at hmalloc
      rw [temperaryCells, blockCells_null, zero_add] at hc
      refine add_first hc hmalloc hdata hsize hnull fun hk a => ?_
      subst hk
      have hyes := hq ⟨some a, size⟩ ⟨rfl, rfl⟩
      simp only [AesdTemperary.aesdTemperaryBufferAdd, if_true] at hyes
      rw [temperaryCells, blockCells_some, Multiset.singleton_add, hsize, List.take_length] at hyes
      rw [hsize]
      exact hyes
  | block =>
      have hsome : ptr.isSome = true := ht.null
      obtain ⟨a, rfl⟩ := Option.isSome_iff_exists.mp hsome
      have hn : n = pending.length := ht.size
      subst hn
      rw [temperaryCells, blockCells_some, Multiset.singleton_add] at hc
      refine add_next hc hmalloc hdata hsize hwrap hnull fun hk p => ?_
      subst hk
      have hyes := hq ⟨some p, pending.length + size⟩ ⟨rfl, (sizeAdd_eq hwrap).symm⟩
      simp only [AesdTemperary.aesdTemperaryBufferAdd, if_true, sizeAdd_eq hwrap,
        List.take_length] at hyes
      rw [temperaryCells, blockCells_some, Multiset.singleton_add, hsize, List.take_length]
        at hyes
      rw [hsize]
      exact hyes

/-- The same in the driver, whatever `kmalloc` answers. -/
theorem aesdTemperaryBufferAdd_safe {Q : Bool → Multiset (Nat × Block β) → Prop}
    {granted : Bool} {data size : Nat} {pending buf : List β}
    (hc : cells = temperaryCells pt t t' rest) (ht : SameTemperary t t')
    (hholds : AesdTemperary.Holds t' pending) (hdata : (data, .bytes (written buf)) ∈ rest)
    (hsize : size = buf.length) (hwrap : pending.length + size < 2 ^ 64)
    (hq : ∀ got t₂,
      Answers granted (totalSize Block.size cells) (pending.length + size) got →
      SameTemperary t₂ (AesdTemperary.aesdTemperaryBufferAdd (fun _ => got) t' buf size).2 →
      Q (AesdTemperary.aesdTemperaryBufferAdd (fun _ => got) t' buf size).1
        (temperaryCells pt t₂
          (AesdTemperary.aesdTemperaryBufferAdd (fun _ => got) t' buf size).2 rest)) :
    Safe cells (aesdTemperaryBufferAdd granted (some pt) data size) Q :=
  addBy_safe hc (kmalloc_allocates granted _) ht hholds
    (show (data, .bytes (written (buf ++ []))) ∈ rest by rwa [List.append_nil]) hsize hwrap
    fun t₂ => hq _ t₂ (answers_kmalloc (Nat.le_refl _) rfl)

end Temperary

/-! ## The ring -/

section Ring

variable {cells rest : Multiset (Nat × Block β)} {pc : Nat} {r : AesdCircularBuffer}
  {r' : AesdRing.AesdCircularBuffer β} {q : CyclicQueue.SlotQueue 10 (List β)}

/-- The memory of a ring beside other blocks. -/
def circularCells (pc : Nat) (r : AesdCircularBuffer) (r' : AesdRing.AesdCircularBuffer β)
    (rest : Multiset (Nat × Block β)) : Multiset (Nat × Block β) :=
  (pc, .circular r) ::ₘ (ringCells r.entry r'.entry + rest)

theorem totalSize_circularCells (hr : SameRing r r') (hrep : AesdRing.Represents r' q) :
    totalSize Block.size (circularCells pc r r' rest)
      = sizeofCircular + (q.items.flatten.length + totalSize Block.size rest) := by
  rw [circularCells, totalSize_cons, totalSize_add, totalSize_ringCells hr hrep]
  rfl

/-- Evicting frees the block of the slot, if it has one. -/
theorem freeOldest_safe {Q : AesdCircularBuffer → Multiset (Nat × Block β) → Prop}
    (hc : cells = ringCells r.entry r'.entry + rest) (hr : SameRing r r')
    (hout : r'.outOffs < 10)
    (hq : ∀ r₂, SameRing r₂ (if r'.full then AesdRing.freeOldest r' else r') →
      Q r₂ (ringCells r₂.entry (if r'.full then AesdRing.freeOldest r' else r').entry + rest)) :
    Safe cells (freeOldest r) Q := by
  rw [freeOldest]
  cases hf : r'.full with
  | false =>
      rw [hf] at hq
      rw [hr.full, hf, hc]
      exact Safe.ret (hq r hr)
  | true =>
      have hsame : SameRing
          { r with
            size := sizeSub r.size (r.entry r.outOffs).size
            entry := Function.update r.entry r.outOffs ⟨none, 0⟩
            outOffs := AesdRing.nextOffs r.outOffs } (AesdRing.freeOldest r') := by
        refine ⟨?_, hr.inOffs, ?_, hr.full, ?_⟩
        · rw [hr.outOffs]
          exact SameEntry.update hr.entry r'.outOffs ⟨rfl, rfl⟩
        · show AesdRing.nextOffs r.outOffs = AesdRing.nextOffs r'.outOffs
          rw [hr.outOffs]
        · show sizeSub r.size (r.entry r.outOffs).size
            = sizeSub r'.size (r'.entry r'.outOffs).size
          rw [hr.size, hr.outOffs, (hr.entry r'.outOffs).size]
      obtain ⟨others, hslot, hupd⟩ := ringCells_slot r.entry r'.entry hout
      rw [hf, if_pos rfl] at hq
      have hdone := hq _ hsame
      rw [show (AesdRing.freeOldest r').entry
        = Function.update r'.entry r'.outOffs ⟨none, 0⟩ from rfl] at hdone
      rw [hr.outOffs, hupd, blockCells_null, zero_add] at hdone
      rw [hslot] at hc
      rw [if_pos (hr.full.trans hf), hr.outOffs]
      refine Safe.bind ?_
      rcases pointer_cases (hr.entry r'.outOffs).null with ⟨hp, hb⟩ | ⟨a, bs, hp, hb⟩
      · rw [hp, hb, blockCells_null, zero_add] at hc
        rw [hp, hc]
        exact Safe.ret (Safe.ret hdone)
      · rw [hp, hb, blockCells_some, Multiset.singleton_add, Multiset.cons_add] at hc
        rw [hp]
        exact kfree_safe hc (Safe.ret hdone)

/-- The two outcomes of the allocation, once the ring is prepared: the slot at
    `in_offs` holds no block that an assignment to it could lose. -/
private theorem copyEntry_safe {Q : Unit → Multiset (Nat × Block β) → Prop} {granted : Bool}
    {x : Block β} {buffptr size : Nat} {bs : List β}
    (hc : cells = ringCells r.entry r'.entry + ((pc, x) ::ₘ rest)) (hr : SameRing r r')
    (hin : r'.inOffs < 10) (hfree : r'.entry r'.inOffs = AesdRing.freeSlot)
    (hsrc : (buffptr, .bytes (written bs)) ∈ rest) (hsize : size = bs.length)
    (hnull : AesdMachine.kmalloc granted (totalSize Block.size cells) size = false →
      Q () (circularCells pc
      { r with entry := Function.update r.entry r.inOffs ⟨none, (r.entry r.inOffs).size⟩ }
      { r' with entry := Function.update r'.entry r'.inOffs ⟨none, (r'.entry r'.inOffs).size⟩ }
      rest))
    (hgot : AesdMachine.kmalloc granted (totalSize Block.size cells) size = true →
      ∀ p, Q () (circularCells pc
      { r with
        entry := Function.update r.entry r.inOffs ⟨some p, size⟩
        size := sizeAdd r.size size
        inOffs := AesdRing.nextOffs r.inOffs
        full := decide (AesdRing.nextOffs r.inOffs = r.outOffs) }
      { r' with entry := Function.update r'.entry r'.inOffs ⟨some bs, size⟩ } rest)) :
    Safe cells (copyEntry granted (some pc) r buffptr size) Q := by
  obtain ⟨others, hslot, hupd⟩ := ringCells_slot r.entry r'.entry hin
  have hempty : ringCells r.entry r'.entry = others := by
    have hnone : (r.entry r'.inOffs).buffptr = none := by
      have hp := (hr.entry r'.inOffs).null
      rw [hfree] at hp
      exact Option.not_isSome_iff_eq_none.mp (by rw [hp]; exact Bool.false_ne_true)
    rw [hslot, hnone, blockCells_null, zero_add]
  rw [hempty] at hc
  refine Safe.bind (kmalloc_safe (fun hk p => ?_) (fun hk => ?_))
  · have hdone := hgot hk p
    rw [circularCells, hr.inOffs, hupd, blockCells_some, Multiset.singleton_add] at hdone
    have hmem : (buffptr, .bytes (written bs)) ∈ (p, .bytes (unwritten size)) ::ₘ cells := by
      rw [hc]
      exact Multiset.mem_cons_of_mem (Multiset.mem_add.mpr
        (Or.inr (Multiset.mem_cons_of_mem hsrc)))
    have hw : writeAt (unwritten size) 0 (bs.take size) = some (written bs) := by
      rw [hsize, List.take_length]
      exact writeAt_fill bs
    have hcells : (p, .bytes (written bs)) ::ₘ cells
        = (pc, x) ::ₘ ((p, .bytes (written bs)) ::ₘ others + rest) := by
      rw [hc]
      simp only [← Multiset.singleton_add]
      abel
    rw [hr.inOffs]
    exact Safe.bind (memcpy_safe rfl hmem (Nat.le_of_eq hsize) hw
      (storeCircular_safe hcells hdone))
  · have hcells : cells = (pc, x) ::ₘ (others + rest) := by
      rw [hc, Multiset.add_cons]
    have hdone := hnull hk
    rw [circularCells, hr.inOffs, hupd, blockCells_null, zero_add] at hdone
    rw [hr.inOffs]
    exact storeCircular_safe hcells hdone

/-- **ADDING TO THE RING**: the evicted block is freed, the new entry is a block
    of its own, and no pointer to a live block is overwritten. -/
theorem aesdCircularBufferAddEntry_safe {Q : Unit → Multiset (Nat × Block β) → Prop}
    {granted : Bool} {buffptr size : Nat} {bs : List β}
    (hc : cells = circularCells pc r r' rest) (hr : SameRing r r')
    (hrep : AesdRing.Represents r' q) (hsrc : (buffptr, .bytes (written bs)) ∈ rest)
    (hsize : size = bs.length)
    (hq : ∀ got r₂, Answers granted (totalSize Block.size cells) size got →
      SameRing r₂ (AesdRing.aesdCircularBufferAddEntry got r' ⟨some bs, size⟩) →
      Q () (circularCells pc r₂
        (AesdRing.aesdCircularBufferAddEntry got r' ⟨some bs, size⟩) rest)) :
    Safe cells (aesdCircularBufferAddEntry granted (some pc) buffptr size) Q := by
  have hin : (pc, .circular r) ∈ cells := by
    rw [hc]
    exact Multiset.mem_cons_self _ _
  have hc' : cells = ringCells r.entry r'.entry + ((pc, .circular r) ::ₘ rest) := by
    rw [hc, circularCells, Multiset.add_cons]
  have hprep := AesdRing.prepare_represents hrep
  refine Safe.bind (loadCircular_safe hin (Safe.bind
    (freeOldest_safe hc' hr hrep.out_lt fun r₂ hr₂ => ?_)))
  have hshrinks : totalSize Block.size (ringCells r₂.entry
      (if r'.full then AesdRing.freeOldest r' else r').entry + ((pc, .circular r) ::ₘ rest))
      ≤ totalSize Block.size cells := by
    have hle := AesdRing.add_items_length_le false q []
    rw [CyclicQueue.add_false_items, List.length_nil] at hle
    rw [hc', totalSize_add, totalSize_add, totalSize_ringCells hr hrep,
      totalSize_ringCells hr₂ hprep]
    omega
  simp only [AesdRing.aesdCircularBufferAddEntry] at hq
  generalize (if r'.full then AesdRing.freeOldest r' else r') = r₁ at hprep hr₂ hq hshrinks
  have hwriting := hprep.slot_writing (CyclicQueue.prepare_gap_pos q)
  refine copyEntry_safe rfl hr₂ hprep.in_lt hwriting hsrc hsize (fun hk => ?_) fun hk p => ?_
  · refine hq false _ (answers_kmalloc hshrinks hk)
      ⟨?_, hr₂.inOffs, hr₂.outOffs, hr₂.full, hr₂.size⟩
    rw [hr₂.inOffs]
    exact SameEntry.update hr₂.entry r₁.inOffs ⟨rfl, (hr₂.entry r₁.inOffs).size⟩
  · have hdone := hq true
      { r₂ with
        entry := Function.update r₂.entry r₂.inOffs ⟨some p, size⟩
        size := sizeAdd r₂.size size
        inOffs := AesdRing.nextOffs r₂.inOffs
        full := decide (AesdRing.nextOffs r₂.inOffs = r₂.outOffs) }
      (answers_kmalloc hshrinks hk) ?_
    · simp only [if_true, Option.getD_some, hsize, List.take_length] at hdone
      rw [hsize]
      exact hdone
    · refine ⟨?_, ?_, hr₂.outOffs, ?_, ?_⟩
      · show ∀ i, SameEntry (Function.update r₂.entry r₂.inOffs ⟨some p, size⟩ i)
          (Function.update r₁.entry r₁.inOffs _ i)
        rw [hr₂.inOffs]
        exact SameEntry.update hr₂.entry r₁.inOffs ⟨rfl, rfl⟩
      · show AesdRing.nextOffs r₂.inOffs = AesdRing.nextOffs r₁.inOffs
        rw [hr₂.inOffs]
      · show decide (AesdRing.nextOffs r₂.inOffs = r₂.outOffs)
          = decide (AesdRing.nextOffs r₁.inOffs = r₁.outOffs)
        rw [hr₂.inOffs, hr₂.outOffs]
      · show sizeAdd r₂.size size = sizeAdd r₁.size size
        rw [hr₂.size]

private theorem cleanupFrom_safe (hr : SameRing r r') :
    ∀ (left i : Nat), i + left = 10 → ∀ {cells : Multiset (Nat × Block β)}
      {Q : Unit → Multiset (Nat × Block β) → Prop},
      cells = (∑ j ∈ Finset.Ico i 10, blockCells (r.entry j).buffptr (r'.entry j).buffptr) + rest →
      Q () rest → Safe cells (cleanupFrom r left i) Q := by
  intro left
  induction left with
  | zero =>
      intro i hi cells Q hc hq
      rw [show i = 10 from hi, Finset.Ico_self, Finset.sum_empty, zero_add] at hc
      rw [hc]
      exact Safe.ret hq
  | succ left ih =>
      intro i hi cells Q hc hq
      rw [Finset.sum_eq_sum_Ico_succ_bot (show i < 10 by omega), add_assoc] at hc
      have hrest := @ih (i + 1) (by omega) _ Q rfl hq
      rw [cleanupFrom]
      refine Safe.bind ?_
      rcases pointer_cases (hr.entry i).null with ⟨hp, hb⟩ | ⟨a, bs, hp, hb⟩
      · rw [hp, blockCells_null, zero_add] at hc
        rw [hp, hc]
        exact Safe.ret hrest
      · rw [hp, hb, blockCells_some, Multiset.singleton_add] at hc
        rw [hp]
        exact kfree_safe hc hrest

/-- The cleanup frees the block of every slot and nothing else. -/
theorem aesdCircularBufferCleanup_safe {Q : Unit → Multiset (Nat × Block β) → Prop}
    (hc : cells = circularCells pc r r' rest) (hr : SameRing r r')
    (hq : Q () ((pc, .circular r) ::ₘ rest)) :
    Safe cells (aesdCircularBufferCleanup (some pc)) Q := by
  have hin : (pc, .circular r) ∈ cells := by
    rw [hc]
    exact Multiset.mem_cons_self _ _
  refine Safe.bind (loadCircular_safe hin (cleanupFrom_safe hr 10 0 rfl ?_ hq))
  rw [hc, circularCells, ringCells, ← Multiset.add_cons, Finset.range_eq_Ico]
  rfl

end Ring

end AesdKernel
