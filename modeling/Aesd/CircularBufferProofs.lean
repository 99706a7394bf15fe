import Aesd.BlockLookupProofs
import Aesd.CyclicWindowProofs
import Aesd.MachineProofs
import Aesd.SlotQueueProofs

/-! # The driver's ring of entries

    `aesd_circular_buffer.c`: ten slots, a writing position `in_offs`, a reading
    position `out_offs`, a `full` flag and a byte counter.  The definitions
    follow the source statement by statement; an allocation is a parameter, so
    an insertion that finds no memory is part of the model.

    `Represents` ties a ring to the queue it stands for (`CyclicQueue`): the ten
    slots, read from the writing position, are first the free ones and then the
    items in order.  **`addEntry_represents`** is the refinement: every
    insertion, stored or not, is the queue's insertion.  What a walk from
    `out_offs` meets is then a fact about queues. -/

namespace AesdRing

open AesdMachine CyclicWindow CyclicQueue BlockLookup

variable {β : Type}

/-- `AESDCHAR_MAX_WRITE_OPERATIONS_SUPPORTED`. -/
def aesdcharMaxWriteOperationsSupported : Nat := 10

/-- `struct aesd_buffer_entry`; a `NULL` pointer is `none`. -/
structure AesdBufferEntry (β : Type) where
  buffptr : Option (List β)
  size    : Nat

/-- `struct aesd_circular_buffer`.  Only the first ten slots are ever indexed. -/
structure AesdCircularBuffer (β : Type) where
  entry   : Nat → AesdBufferEntry β
  inOffs  : Nat
  outOffs : Nat
  full    : Bool
  size    : Nat

/-- `aesd_circular_buffer_init`: all bytes zero. -/
def aesdCircularBufferInit : AesdCircularBuffer β where
  entry := fun _ => ⟨none, 0⟩
  inOffs := 0
  outOffs := 0
  full := false
  size := 0

/-- `(i + 1) % AESDCHAR_MAX_WRITE_OPERATIONS_SUPPORTED`. -/
def nextOffs (i : Nat) : Nat := (i + 1) % aesdcharMaxWriteOperationsSupported

/-- The block of `aesd_circular_buffer_add_entry` that runs when the ring is
    marked full: free the slot at `out_offs` and advance. -/
def freeOldest (buffer : AesdCircularBuffer β) : AesdCircularBuffer β :=
  { buffer with
    size := sizeSub buffer.size (buffer.entry buffer.outOffs).size
    entry := Function.update buffer.entry buffer.outOffs ⟨none, 0⟩
    outOffs := nextOffs buffer.outOffs }

/-- `aesd_circular_buffer_add_entry`.  `malloc` is the answer of `my_malloc`: a
    failed allocation returns after the eviction and after `buffptr` was
    overwritten with `NULL`. -/
def aesdCircularBufferAddEntry (malloc : Bool) (buffer : AesdCircularBuffer β)
    (addEntry : AesdBufferEntry β) : AesdCircularBuffer β :=
  let buffer := if buffer.full then freeOldest buffer else buffer
  if malloc then
    { buffer with
      entry := Function.update buffer.entry buffer.inOffs
        ⟨some ((addEntry.buffptr.getD []).take addEntry.size), addEntry.size⟩
      size := sizeAdd buffer.size addEntry.size
      inOffs := nextOffs buffer.inOffs
      full := decide (nextOffs buffer.inOffs = buffer.outOffs) }
  else
    { buffer with
      entry := Function.update buffer.entry buffer.inOffs
        ⟨none, (buffer.entry buffer.inOffs).size⟩ }

/-- The reading position moves exactly on an insertion into a ring marked full. -/
theorem addEntry_outOffs (malloc : Bool) (buffer : AesdCircularBuffer β)
    (addEntry : AesdBufferEntry β) :
    (aesdCircularBufferAddEntry malloc buffer addEntry).outOffs
      = if buffer.full then nextOffs buffer.outOffs else buffer.outOffs := by
  rw [aesdCircularBufferAddEntry]
  cases hf : buffer.full with
  | false => cases malloc <;> rfl
  | true => cases malloc <;> rfl

/-- The writing position moves on when the entry is stored. -/
theorem addEntry_inOffs (buffer : AesdCircularBuffer β) (addEntry : AesdBufferEntry β) :
    (aesdCircularBufferAddEntry true buffer addEntry).inOffs = nextOffs buffer.inOffs := by
  rw [aesdCircularBufferAddEntry]
  cases hf : buffer.full with
  | false => rfl
  | true => rfl

/-! ## Contents -/

/-- The bytes of an entry. -/
def AesdBufferEntry.bytes (e : AesdBufferEntry β) : List β := (e.buffptr.getD []).take e.size

/-- The slots from the reading position on, one full turn. -/
def turn (buffer : AesdCircularBuffer β) : List (AesdBufferEntry β) :=
  window aesdcharMaxWriteOperationsSupported buffer.entry buffer.outOffs
    aesdcharMaxWriteOperationsSupported

/-- The live entries, oldest first: every slot with a block. -/
def liveEntries (buffer : AesdCircularBuffer β) : List (AesdBufferEntry β) :=
  (turn buffer).filter fun e => e.buffptr.isSome

/-- The entries a walk from `out_offs` meets before the first free slot. -/
def readableEntries (buffer : AesdCircularBuffer β) : List (AesdBufferEntry β) :=
  (turn buffer).takeWhile fun e => e.buffptr.isSome

/-- A slot that holds the byte string `b`. -/
def stored (b : List β) : AesdBufferEntry β := ⟨some b, b.length⟩

/-- A slot that holds nothing. -/
def freeSlot : AesdBufferEntry β := ⟨none, 0⟩

@[simp] theorem stored_bytes (b : List β) : (stored b).bytes = b := List.take_length

@[simp] theorem freeSlot_isSome : (freeSlot : AesdBufferEntry β).buffptr.isSome = false := rfl

@[simp] theorem map_stored_bytes (bs : List (List β)) :
    (bs.map stored).map AesdBufferEntry.bytes = bs := by
  rw [List.map_map]
  exact List.map_id'' stored_bytes bs

/-! ## The refinement to queues -/

/-- The ring stands for the queue `q`. -/
structure Represents (buffer : AesdCircularBuffer β) (q : SlotQueue 10 (List β)) : Prop where
  in_lt   : buffer.inOffs < 10
  out_eq  : buffer.outOffs = (buffer.inOffs + q.gap) % 10
  full_eq : buffer.full = q.full
  slots   : window 10 buffer.entry buffer.inOffs 10
      = List.replicate (10 - q.items.length) freeSlot ++ q.items.map stored
  size_eq : buffer.size = q.items.flatten.length % 2 ^ 64
  small   : ∀ b ∈ q.items, b.length < 2 ^ 64

theorem represents_init :
    Represents (aesdCircularBufferInit : AesdCircularBuffer β) CyclicQueue.empty where
  in_lt := Nat.zero_lt_succ 9
  out_eq := show 0 = (0 + 10) % 10 by decide
  full_eq := rfl
  slots := rfl
  size_eq := rfl
  small := fun b hb => nomatch hb

section Slots

variable {buffer : AesdCircularBuffer β} {q : SlotQueue 10 (List β)}

theorem Represents.out_lt (h : Represents buffer q) : buffer.outOffs < 10 := by
  rw [h.out_eq]
  exact Nat.mod_lt _ (by decide)

/-- The slot at offset `p` from the writing position. -/
theorem Represents.slot_at (h : Represents buffer q) {p : Nat} (hp : p < 10) :
    some (buffer.entry ((buffer.inOffs + p) % 10))
      = (List.replicate (10 - q.items.length) freeSlot ++ q.items.map stored)[p]? := by
  rw [← h.slots, getElem?_window _ hp]

/-- The slots before the items are free. -/
theorem Represents.slot_free (h : Represents buffer q) {p : Nat}
    (hp : p < 10 - q.items.length) :
    buffer.entry ((buffer.inOffs + p) % 10) = freeSlot := by
  have hslot := h.slot_at (p := p) (by omega)
  rw [List.getElem?_append_left (by rw [List.length_replicate]; exact hp),
    List.getElem?_replicate, if_pos hp] at hslot
  exact Option.some.inj hslot

/-- The slot at the reading position, when it is the oldest item. -/
theorem Represents.slot_oldest (h : Represents buffer q) {b : List β} {rest : List (List β)}
    (hitems : q.items = b :: rest) (ha : Aligned q) :
    buffer.entry buffer.outOffs = stored b := by
  have ha' : q.items.length + q.gap = 10 := ha
  have hlen : q.items.length = rest.length + 1 := by rw [hitems]; rfl
  have hslot := h.slot_at (p := q.gap) (by omega)
  rw [List.getElem?_append_right (by rw [List.length_replicate]; omega),
    List.length_replicate, show q.gap - (10 - q.items.length) = 0 by omega, hitems] at hslot
  rw [h.out_eq]
  exact Option.some.inj hslot

/-- The slot at the reading position, when it is not an item. -/
theorem Represents.slot_ahead (h : Represents buffer q) (ha : ¬ Aligned q ∨ q.items = []) :
    buffer.entry buffer.outOffs = freeSlot := by
  have hfits := q.fits
  rw [h.out_eq]
  by_cases hlt : q.gap < 10 - q.items.length
  · exact h.slot_free hlt
  · rcases ha with ha | hnil
    · exact absurd (show q.items.length + q.gap = 10 by omega) ha
    · -- the gap is a whole turn: the reading position is the writing position
      have hlen : q.items.length = 0 := by rw [hnil]; rfl
      have hgap : q.gap = 10 := by omega
      have hslot := h.slot_free (p := 0) (by omega)
      rw [Nat.add_zero] at hslot
      rw [hgap, Nat.add_mod_right]
      exact hslot

/-- The slot at `out_offs` is live exactly when it is the oldest item. -/
theorem Represents.oldest_live_iff (h : Represents buffer q) :
    (buffer.entry buffer.outOffs).buffptr.isSome = true ↔
      Aligned q ∧ q.items ≠ [] := by
  constructor
  · intro hsome
    by_cases hitem : Aligned q ∧ q.items ≠ []
    · exact hitem
    · rw [not_and_or, not_not] at hitem
      rw [h.slot_ahead hitem] at hsome
      exact nomatch hsome
  · rintro ⟨ha, hne⟩
    cases hitems : q.items with
    | nil => exact absurd hitems hne
    | cons b rest =>
        rw [h.slot_oldest hitems ha]
        rfl

end Slots

private theorem set_oldest (k : Nat) (b : List β) (rest : List (List β)) :
    (List.replicate k freeSlot ++ (b :: rest).map stored).set k freeSlot
      = List.replicate (k + 1) freeSlot ++ rest.map stored := by
  rw [List.set_append_right _ _ (by rw [List.length_replicate]), List.length_replicate,
    Nat.sub_self, List.map_cons, List.set_cons_zero, List.replicate_succ', List.append_assoc]
  rfl

/-- Freeing a free slot changes nothing. -/
private theorem update_free {f : Nat → AesdBufferEntry β} {i : Nat} (h : f i = freeSlot) :
    Function.update f i ⟨none, 0⟩ = f := by
  rw [show (⟨none, 0⟩ : AesdBufferEntry β) = f i from h.symm]
  exact Function.update_eq_self i f

section Evict

variable {buffer : AesdCircularBuffer β} {q : SlotQueue 10 (List β)}

private theorem Represents.size_lt (h : Represents buffer q) : buffer.size < 2 ^ 64 := by
  rw [h.size_eq]
  exact Nat.mod_lt _ (by decide)

/-- The reading position after an eviction. -/
private theorem Represents.evict_out_eq (h : Represents buffer q) :
    nextOffs buffer.outOffs = (buffer.inOffs + (evict q).gap) % 10 := by
  have hfits := q.fits
  have hout := h.out_eq
  show (buffer.outOffs + 1) % 10
    = (buffer.inOffs + if q.gap = 10 then 1 else q.gap + 1) % 10
  rw [hout]
  split <;> omega

/-- The oldest item leaves. -/
private theorem freeOldest_of_item (h : Represents buffer q) (ha : Aligned q)
    {b : List β} {rest : List (List β)} (hitems : q.items = b :: rest) :
    Represents (freeOldest buffer) (evict q) := by
  have ha' : q.items.length + q.gap = 10 := ha
  have hlen : q.items.length = rest.length + 1 := by rw [hitems]; rfl
  have hevict : (evict q).items = rest := by
    show (if Aligned q then q.items.tail else q.items) = rest
    rw [if_pos ha, hitems, List.tail_cons]
  have hold : buffer.entry buffer.outOffs = stored b := h.slot_oldest hitems ha
  have hb : b.length < 2 ^ 64 := h.small b (by rw [hitems]; exact List.mem_cons_self ..)
  refine ⟨h.in_lt, h.evict_out_eq, h.full_eq, ?_, ?_, ?_⟩
  · show window 10 (Function.update buffer.entry buffer.outOffs freeSlot) buffer.inOffs 10 = _
    rw [h.out_eq, window_set _ _ _ (show q.gap < 10 by omega), h.slots, hevict, hitems,
      show q.gap = 10 - (b :: rest).length by rw [List.length_cons]; omega, set_oldest,
      show 10 - (b :: rest).length + 1 = 10 - rest.length by
        rw [List.length_cons]; omega]
  · show sizeSub buffer.size (buffer.entry buffer.outOffs).size = _
    rw [hold, hevict]
    show sizeSub buffer.size b.length = _
    have hsum : buffer.size = (b.length + rest.flatten.length) % 2 ^ 64 := by
      rw [h.size_eq, hitems, List.flatten_cons, List.length_append]
    simp only [sizeSub]
    omega
  · intro x hx
    rw [hevict] at hx
    exact h.small x (by rw [hitems]; exact List.mem_cons_of_mem b hx)

/-- The slot is free already: only the reading position moves. -/
private theorem freeOldest_of_ahead (h : Represents buffer q)
    (hnot : ¬ Aligned q ∨ q.items = []) : Represents (freeOldest buffer) (evict q) := by
  have hfree : buffer.entry buffer.outOffs = freeSlot := h.slot_ahead hnot
  have hevict : (evict q).items = q.items := by
    show (if Aligned q then q.items.tail else q.items) = q.items
    rcases hnot with hna | hnil
    · rw [if_neg hna]
    · rw [hnil, List.tail_nil, ite_self]
  have hentry : (freeOldest buffer).entry = buffer.entry := update_free hfree
  refine ⟨h.in_lt, h.evict_out_eq, h.full_eq, ?_, ?_, ?_⟩
  · rw [hentry, hevict]
    exact h.slots
  · rw [hevict, ← h.size_eq]
    show sizeSub buffer.size (buffer.entry buffer.outOffs).size = buffer.size
    rw [hfree]
    exact sizeSub_eq h.size_lt (Nat.zero_le _)
  · rw [hevict]
    exact h.small

/-- Freeing the slot at `out_offs` is the queue's eviction. -/
theorem freeOldest_represents (h : Represents buffer q) :
    Represents (freeOldest buffer) (evict q) := by
  by_cases hitem : Aligned q ∧ q.items ≠ []
  · obtain ⟨ha, hne⟩ := hitem
    obtain ⟨b, rest, hitems⟩ := List.exists_cons_of_ne_nil hne
    exact freeOldest_of_item h ha hitems
  · rw [not_and_or, not_not] at hitem
    exact freeOldest_of_ahead h hitem

end Evict

/-- The preparation of an insertion is the queue's. -/
theorem prepare_represents {buffer : AesdCircularBuffer β} {q : SlotQueue 10 (List β)}
    (h : Represents buffer q) :
    Represents (if buffer.full then freeOldest buffer else buffer) (prepare q) := by
  rw [prepare]
  rw [h.full_eq]
  by_cases hf : q.full = true
  · rw [if_pos hf, if_pos hf]
    exact freeOldest_represents h
  · rw [if_neg hf, if_neg hf]
    exact h

private theorem turn_store (k : Nat) (items : List (List β)) (x : List β) :
    ((List.replicate (k + 1) freeSlot ++ items.map stored).set 0 (stored x)).drop 1
        ++ ((List.replicate (k + 1) freeSlot ++ items.map stored).set 0 (stored x)).take 1
      = List.replicate k freeSlot ++ (items ++ [x]).map stored := by
  rw [List.replicate_succ, List.cons_append, List.set_cons_zero, List.drop_one, List.tail_cons,
    List.map_append, List.append_assoc]
  rfl

section Insertion

variable {buffer : AesdCircularBuffer β} {q : SlotQueue 10 (List β)}

/-- With room left, the slot at `in_offs` is free. -/
theorem Represents.slot_writing (h : Represents buffer q) (hpos : 0 < q.gap) :
    buffer.entry buffer.inOffs = freeSlot := by
  have hfits := q.fits
  have hslot := h.slot_free (p := 0) (by omega)
  rw [Nat.add_zero, Nat.mod_eq_of_lt h.in_lt] at hslot
  exact hslot

/-- A failed allocation stores `NULL` where `NULL` was. -/
theorem Represents.refuse (h : Represents buffer q) (hpos : 0 < q.gap) :
    Represents
      { buffer with
        entry := Function.update buffer.entry buffer.inOffs
          ⟨none, (buffer.entry buffer.inOffs).size⟩ } q := by
  have hfree := h.slot_writing hpos
  have hentry : Function.update buffer.entry buffer.inOffs
      ⟨none, (buffer.entry buffer.inOffs).size⟩ = buffer.entry := by
    rw [hfree]
    exact update_free hfree
  refine ⟨h.in_lt, h.out_eq, h.full_eq, ?_, h.size_eq, h.small⟩
  show window 10 (Function.update buffer.entry buffer.inOffs
    ⟨none, (buffer.entry buffer.inOffs).size⟩) buffer.inOffs 10 = _
  rw [hentry]
  exact h.slots

/-- A stored entry is the queue's newest item. -/
theorem Represents.store (h : Represents buffer q) (hpos : 0 < q.gap) {bs : List β}
    (hbs : bs.length < 2 ^ 64) :
    Represents
      { buffer with
        entry := Function.update buffer.entry buffer.inOffs (stored bs)
        size := sizeAdd buffer.size bs.length
        inOffs := nextOffs buffer.inOffs
        full := decide (nextOffs buffer.inOffs = buffer.outOffs) } (push q hpos bs) := by
  have hfits := q.fits
  have hin := h.in_lt
  have hout := h.out_eq
  refine ⟨Nat.mod_lt _ (by decide), ?_, ?_, ?_, ?_, ?_⟩
  · show buffer.outOffs = ((buffer.inOffs + 1) % 10 + (q.gap - 1)) % 10
    omega
  · show decide ((buffer.inOffs + 1) % 10 = buffer.outOffs) = decide (q.gap = 1)
    exact decide_eq_decide.mpr (by omega)
  · show window 10 (Function.update buffer.entry buffer.inOffs (stored bs))
        ((buffer.inOffs + 1) % 10) 10
      = List.replicate (10 - (q.items ++ [bs]).length) freeSlot ++ (q.items ++ [bs]).map stored
    have hset := window_set (n := 10) (p := 0) buffer.entry buffer.inOffs (stored bs) (by decide)
    rw [Nat.add_zero, Nat.mod_eq_of_lt hin] at hset
    rw [window_mod, window_turn _ _ (by decide), hset, h.slots, List.length_append,
      List.length_singleton,
      show 10 - q.items.length = (10 - (q.items.length + 1)) + 1 by omega, turn_store]
  · show sizeAdd buffer.size bs.length = (q.items ++ [bs]).flatten.length % 2 ^ 64
    rw [h.size_eq, List.flatten_append, List.length_append, List.flatten_singleton]
    rw [sizeAdd]
    omega
  · intro b hb
    rcases List.mem_append.mp hb with hold | hnew
    · exact h.small b hold
    · rw [List.mem_singleton.mp hnew]
      exact hbs

end Insertion

/-- **THE RING REFINES THE QUEUE**: every insertion, whether its allocation
    succeeds or not, is the queue's insertion. -/
theorem addEntry_represents {buffer : AesdCircularBuffer β} {q : SlotQueue 10 (List β)}
    (h : Represents buffer q) (malloc : Bool) {bs : List β} (hbs : bs.length < 2 ^ 64) :
    Represents (aesdCircularBufferAddEntry malloc buffer ⟨some bs, bs.length⟩)
      (CyclicQueue.add malloc q bs) := by
  have hp := prepare_represents h
  have hpos := prepare_gap_pos q
  rw [aesdCircularBufferAddEntry]
  generalize (if buffer.full then freeOldest buffer else buffer) = r at hp
  cases malloc with
  | false => exact hp.refuse hpos
  | true =>
      have hblock : (⟨some (((some bs : Option (List β)).getD []).take bs.length), bs.length⟩ :
          AesdBufferEntry β) = stored bs := by
        show (⟨some (bs.take bs.length), bs.length⟩ : AesdBufferEntry β) = stored bs
        rw [List.take_length]
        rfl
      have hstore := hp.store hpos hbs
      rw [← hblock] at hstore
      exact hstore

/-- An insertion adds at most its own bytes. -/
theorem add_items_length_le (malloc : Bool) (q : SlotQueue 10 (List β)) (x : List β) :
    (CyclicQueue.add malloc q x).items.flatten.length
      ≤ q.items.flatten.length + x.length := by
  have hprep : (prepare q).items.flatten.length ≤ q.items.flatten.length := by
    rw [prepare_items]
    by_cases hfa : q.full = true ∧ Aligned q
    · rw [if_pos hfa]
      cases q.items with
      | nil => exact Nat.le_refl _
      | cons b rest =>
          rw [List.tail_cons, List.flatten_cons, List.length_append]
          omega
    · rw [if_neg hfa]
  cases malloc with
  | false =>
      rw [add_false_items]
      omega
  | true =>
      rw [add_true_items, List.flatten_append, List.length_append, List.flatten_singleton]
      omega

/-! ## What a walk from `out_offs` meets -/

section Walk

variable {buffer : AesdCircularBuffer β} {q : SlotQueue 10 (List β)}

/-- The slots from the reading position: free ones the position ran over, the
    items, the free ones up to the writing position and on. -/
theorem Represents.turn_eq (h : Represents buffer q) :
    turn buffer = List.replicate (10 - q.items.length - q.gap) freeSlot
      ++ (q.items.map stored ++ List.replicate q.gap freeSlot) := by
  have hfits := q.fits
  show window 10 buffer.entry buffer.outOffs 10 = _
  rw [h.out_eq, window_mod, window_turn _ _ (by omega), h.slots,
    List.drop_append_of_le_length (by rw [List.length_replicate]; omega),
    List.take_append_of_le_length (by rw [List.length_replicate]; omega),
    List.drop_replicate, List.take_replicate, Nat.min_eq_left (by omega), List.append_assoc]

/-- The slot at which the walk meets an item, by its age. -/
theorem Represents.slot_item (h : Represents buffer q) (ha : Aligned q) {j : Nat} {b : List β}
    (hj : q.items[j]? = some b) :
    buffer.entry ((buffer.outOffs + j) % 10) = stored b := by
  have ha' : q.items.length + q.gap = 10 := ha
  have hlt := (List.getElem?_eq_some_iff.mp hj).1
  have hslot : (turn buffer)[j]? = some (buffer.entry ((buffer.outOffs + j) % 10)) :=
    getElem?_window _ (show j < 10 by omega)
  rw [h.turn_eq, show 10 - q.items.length - q.gap = 0 by omega, List.replicate_zero,
    List.nil_append, List.getElem?_append_left (by rw [List.length_map]; exact hlt),
    List.getElem?_map, hj] at hslot
  exact (Option.some.inj hslot).symm

/-- The live entries are the items. -/
theorem Represents.liveEntries_eq (h : Represents buffer q) :
    liveEntries buffer = q.items.map stored := by
  have hitems : (q.items.map stored).filter (fun e => e.buffptr.isSome) = q.items.map stored := by
    rw [List.filter_eq_self]
    intro e he
    obtain ⟨b, -, rfl⟩ := List.mem_map.mp he
    rfl
  rw [liveEntries]
  rw [h.turn_eq, List.filter_append, List.filter_append, hitems]
  simp

/-- The entries met before a free slot are the readable items. -/
theorem Represents.readableEntries_eq (h : Represents buffer q) :
    readableEntries buffer = (readable q).map stored := by
  have hitems : (q.items.map stored).takeWhile (fun e => e.buffptr.isSome)
      = q.items.map stored := by
    rw [List.takeWhile_eq_self_iff]
    intro e he
    obtain ⟨b, -, rfl⟩ := List.mem_map.mp he
    rfl
  have hfits := q.fits
  rw [readableEntries, readable]
  rw [h.turn_eq]
  by_cases ha : Aligned q
  · have ha' : q.items.length + q.gap = 10 := ha
    rw [if_pos ha, show 10 - q.items.length - q.gap = 0 by omega, List.replicate_zero,
      List.nil_append, List.takeWhile_append, hitems, if_pos rfl]
    simp
  · have ha' : q.items.length + q.gap ≠ 10 := ha
    rw [if_neg ha, show 10 - q.items.length - q.gap
      = (10 - q.items.length - q.gap - 1) + 1 by omega, List.replicate_succ]
    rfl

end Walk

end AesdRing
