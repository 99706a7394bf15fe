import Aesd.LookupProofs

/-! # Runs of insertions into the ring

    The ring on its own, from `aesd_circular_buffer_init` on, under any pattern
    of failing allocations.  `WellFormed` is what the header promises: the slots
    in use are a run of consecutive ones that starts at `out_offs` and ends
    before `in_offs`, `full` and `size` say how many and how large they are.

    For a ring that stands for a queue this is `Regular`, said of the array
    (`wellFormed_iff`).  A refused allocation on a ring that is not full changes
    nothing; on a full one the oldest entry is gone and `full` stays set, and the
    promise is broken for good. -/

namespace AesdRingRuns

open AesdMachine AesdRing AesdLookup CyclicWindow CyclicQueue BlockLookup

variable {β : Type}

/-- The ring as its header describes it, with `k` entries. -/
structure WellFormed (buffer : AesdCircularBuffer β) (k : Nat) : Prop where
  count    : k ≤ 10
  in_lt    : buffer.inOffs < 10
  out_lt   : buffer.outOffs < 10
  live     : ∀ i < 10, (buffer.entry i).buffptr.isSome = true ↔
      ∃ j < k, i = (buffer.outOffs + j) % 10
  in_eq    : buffer.inOffs = (buffer.outOffs + k) % 10
  full_iff : buffer.full = true ↔ k = 10
  unused   : ∀ i < 10, (buffer.entry i).buffptr = none → (buffer.entry i).size = 0
  total    : buffer.size = ((List.range 10).map fun i => (buffer.entry i).size).sum

section Queue

variable {buffer : AesdCircularBuffer β} {q : SlotQueue 10 (List β)}

/-- The slot at distance `j` from the reading position is in use exactly when an
    item lies there. -/
theorem slot_isSome_iff (h : Represents buffer q) {j : Nat} (hj : j < 10) :
    (buffer.entry ((buffer.outOffs + j) % 10)).buffptr.isSome = true ↔
      10 - q.items.length - q.gap ≤ j ∧ j < 10 - q.gap := by
  have hfits := q.fits
  have hslot : (turn buffer)[j]? = some (buffer.entry ((buffer.outOffs + j) % 10)) :=
    getElem?_window _ hj
  rw [h.turn_eq] at hslot
  by_cases hbefore : j < 10 - q.items.length - q.gap
  · rw [List.getElem?_append_left (by rw [List.length_replicate]; exact hbefore),
      List.getElem?_replicate, if_pos hbefore] at hslot
    rw [← Option.some.inj hslot, freeSlot_isSome]
    constructor
    · rintro ⟨⟩
    · omega
  · rw [List.getElem?_append_right (by rw [List.length_replicate]; omega),
      List.length_replicate] at hslot
    by_cases hitem : j < 10 - q.gap
    · rw [List.getElem?_append_left (by rw [List.length_map]; omega), List.getElem?_map] at hslot
      obtain ⟨b, -, hb⟩ := Option.map_eq_some_iff.mp hslot
      rw [← hb]
      exact ⟨fun _ => ⟨Nat.not_lt.mp hbefore, hitem⟩, fun _ => rfl⟩
    · rw [List.getElem?_append_right (by rw [List.length_map]; omega), List.length_map,
        List.getElem?_replicate, if_pos (by omega)] at hslot
      rw [← Option.some.inj hslot, freeSlot_isSome]
      constructor
      · rintro ⟨⟩
      · omega

/-- Every slot is at some distance from the reading position. -/
theorem exists_distance {i s : Nat} (hi : i < 10) (hs : s < 10) :
    ∃ j < 10, i = (s + j) % 10 :=
  ⟨(i + 10 - s) % 10, Nat.mod_lt _ (by decide), by omega⟩

/-- The sizes of the slots add up to the bytes of the items. -/
theorem sum_sizes (h : Represents buffer q) :
    ((List.range 10).map fun i => (buffer.entry i).size).sum = q.items.flatten.length := by
  have hperm := (window_perm buffer.entry (Nat.le_of_lt h.out_lt)).map AesdBufferEntry.size
  have hturn : window 10 buffer.entry buffer.outOffs 10 = turn buffer := rfl
  rw [List.map_map, hturn, h.turn_eq] at hperm
  have hsum := hperm.sum_eq
  rw [show (AesdBufferEntry.size ∘ buffer.entry) = fun i => (buffer.entry i).size from rfl] at hsum
  rw [← hsum, List.map_append, List.map_append, List.map_replicate, List.map_replicate,
    List.map_map, List.length_flatten]
  show (List.replicate _ 0 ++ (q.items.map List.length ++ List.replicate _ 0)).sum = _
  simp

/-- A free slot has size zero. -/
theorem unused_size (h : Represents buffer q) {i : Nat} (hi : i < 10)
    (hnone : (buffer.entry i).buffptr = none) : (buffer.entry i).size = 0 := by
  obtain ⟨j, hj, rfl⟩ := exists_distance hi h.out_lt
  have hmem : buffer.entry ((buffer.outOffs + j) % 10) ∈ turn buffer :=
    List.mem_of_getElem? (getElem?_window _ hj)
  rw [h.turn_eq, List.mem_append, List.mem_append] at hmem
  rcases hmem with hfree | hitem | hfree
  · rw [List.eq_of_mem_replicate hfree]
    rfl
  · obtain ⟨b, -, hb⟩ := List.mem_map.mp hitem
    rw [← hb] at hnone
    exact nomatch hnone
  · rw [List.eq_of_mem_replicate hfree]
    rfl

/-- The slots in use, counted from the reading position in two ways. -/
theorem WellFormed.distance_iff {k : Nat} (hk : WellFormed buffer k) (h : Represents buffer q)
    {j : Nat} (hj : j < 10) :
    (10 - q.items.length - q.gap ≤ j ∧ j < 10 - q.gap) ↔ j < k := by
  have hcount := hk.count
  rw [← slot_isSome_iff h hj, hk.live _ (Nat.mod_lt _ (by decide))]
  constructor
  · rintro ⟨j', hj', heq⟩
    omega
  · intro hjk
    exact ⟨j, hjk, rfl⟩

/-- So there are as many items as slots in use, and the first is at the reading
    position. -/
theorem WellFormed.items_length {k : Nat} (hk : WellFormed buffer k) (h : Represents buffer q) :
    q.items.length = k ∧ (0 < k → q.items.length + q.gap = 10) := by
  have hfits := q.fits
  have hcount := hk.count
  by_cases hzero : q.items.length = 0
  · have hk0 : ¬ 0 < k := by
      intro hpos
      have hfirst := (hk.distance_iff h (j := 0) (by omega)).mpr hpos
      omega
    exact ⟨by omega, fun hpos => absurd hpos hk0⟩
  · have hfirst := (hk.distance_iff h (j := 10 - q.items.length - q.gap) (by omega)).mp (by omega)
    have hstart := (hk.distance_iff h (j := 0) (by omega)).mpr (by omega)
    have hlast := (hk.distance_iff h (j := q.items.length - 1) (by omega)).mp (by omega)
    by_cases hmore : q.items.length < k
    · have hnext := (hk.distance_iff h (j := q.items.length) (by omega)).mpr hmore
      omega
    · omega

theorem WellFormed.regular {k : Nat} (hk : WellFormed buffer k) (h : Represents buffer q) :
    Regular q := by
  have hfits := q.fits
  obtain ⟨hlen, haligned⟩ := hk.items_length h
  have hfull : q.full = true ↔ q.items.length = 10 := by
    rw [← h.full_eq, hlen]
    exact hk.full_iff
  refine ⟨?_, hfull⟩
  show q.items.length + q.gap = 10
  by_cases hpos : 0 < k
  · exact haligned hpos
  · -- no item: the ring is not marked full, so the gap is all of it
    have hin := hk.in_eq
    have hout := h.out_eq
    have hfree : q.full = false := by
      rw [← Bool.not_eq_true, hfull]
      omega
    have hgap := q.writable hfree
    omega

theorem wellFormed_of_regular (h : Represents buffer q)
    (hbound : q.items.flatten.length < 2 ^ 64) (hreg : Regular q) :
    WellFormed buffer q.items.length := by
  have ha : q.items.length + q.gap = 10 := hreg.aligned
  have hin := h.in_lt
  have hout := h.out_eq
  refine ⟨by omega, hin, h.out_lt, ?_, by omega, ?_, ?_, ?_⟩
  · intro i hi
    obtain ⟨j, hj, rfl⟩ := exists_distance hi h.out_lt
    rw [slot_isSome_iff h hj]
    constructor
    · rintro ⟨-, hlt⟩
      exact ⟨j, by omega, rfl⟩
    · rintro ⟨j', hj', heq⟩
      omega
  · rw [h.full_eq]
    exact hreg.full_iff
  · intro i hi hnone
    exact unused_size h hi hnone
  · rw [sum_sizes h, h.size_eq, Nat.mod_eq_of_lt hbound]

/-- **WELL FORMED MEANS REGULAR**: for a ring that stands for a queue of bytes that
    fit into memory. -/
theorem wellFormed_iff (h : Represents buffer q) (hbound : q.items.flatten.length < 2 ^ 64) :
    (∃ k, WellFormed buffer k) ↔ Regular q :=
  ⟨fun ⟨_, hk⟩ => hk.regular h, fun hreg => ⟨_, wellFormed_of_regular h hbound hreg⟩⟩

end Queue

/-! ## Runs -/

/-- Bytes of memory the entries take. -/
def ringBytes (buffer : AesdCircularBuffer β) : Nat :=
  ((liveEntries buffer).map AesdBufferEntry.bytes).flatten.length

/-- One call of `aesd_circular_buffer_add_entry`: the bytes of the entry, and
    whether the allocator is willing. -/
structure AddCall (β : Type) where
  entry   : List β
  granted : Bool

/-- The answer of `my_malloc` in the call, which asks after it has evicted. -/
def AddCall.malloc (call : AddCall β) (buffer : AesdCircularBuffer β) : Bool :=
  kmalloc call.granted (ringBytes (if buffer.full then freeOldest buffer else buffer))
    call.entry.length

/-- The ring after the call. -/
def addCall (buffer : AesdCircularBuffer β) (call : AddCall β) : AesdCircularBuffer β :=
  aesdCircularBufferAddEntry (call.malloc buffer) buffer ⟨some call.entry, call.entry.length⟩

/-- The ring after a list of calls on an initialised one. -/
def addAll (calls : List (AddCall β)) : AesdCircularBuffer β :=
  calls.foldl addCall aesdCircularBufferInit

theorem addAll_concat (calls : List (AddCall β)) (call : AddCall β) :
    addAll (calls ++ [call]) = addCall (addAll calls) call := by
  rw [addAll, List.foldl_append]
  rfl

section Steps

variable {buffer : AesdCircularBuffer β} {q : SlotQueue 10 (List β)} {call : AddCall β}

theorem ringBytes_eq (h : Represents buffer q) : ringBytes buffer = q.items.flatten.length := by
  rw [ringBytes, h.liveEntries_eq, map_stored_bytes]

theorem flatten_length_add_true (q : SlotQueue 10 (List β)) (x : List β) :
    (CyclicQueue.add true q x).items.flatten.length
      = (prepare q).items.flatten.length + x.length := by
  rw [add_true_items, List.flatten_append, List.length_append, List.flatten_singleton]

/-- A stored entry fits into memory beside the ones that stay. -/
theorem malloc_room (h : Represents buffer q) (hm : call.malloc buffer = true) :
    (prepare q).items.flatten.length + call.entry.length < 2 ^ 63 := by
  have hroom := (kmalloc_eq_true.mp hm).2
  rw [ringBytes_eq (prepare_represents h)] at hroom
  exact hroom

/-- One call, on the queue. -/
theorem addCall_represents (h : Represents buffer q) :
    Represents (addCall buffer call) (CyclicQueue.add (call.malloc buffer) q call.entry) := by
  cases hm : call.malloc buffer with
  | true =>
      have hroom := malloc_room h hm
      rw [addCall, hm]
      exact addEntry_represents h true (by omega)
  | false =>
      -- the entry is not looked at
      rw [addCall, hm]
      exact @addEntry_represents _ _ _ h false [] (Nat.two_pow_pos 64)

theorem addCall_bound (h : Represents buffer q) (hb : q.items.flatten.length < 2 ^ 63) :
    (CyclicQueue.add (call.malloc buffer) q call.entry).items.flatten.length < 2 ^ 63 := by
  cases hm : call.malloc buffer with
  | true =>
      have hroom := malloc_room h hm
      rw [flatten_length_add_true]
      exact hroom
  | false =>
      have hle := add_items_length_le false q ([] : List β)
      rw [List.length_nil, add_false_items] at hle
      rw [add_false_items]
      omega

end Steps

/-- Every run stands for some queue. -/
theorem addAll_represents (calls : List (AddCall β)) :
    ∃ q, Represents (addAll calls) q ∧ q.items.flatten.length < 2 ^ 63 := by
  induction calls using List.reverseRecOn with
  | nil => exact ⟨_, represents_init, Nat.two_pow_pos 63⟩
  | append_singleton calls call ih =>
      obtain ⟨q, hq, hb⟩ := ih
      rw [addAll_concat]
      exact ⟨_, addCall_represents hq, addCall_bound hq hb⟩

/-- The call frees an entry that is in use. -/
def EvictsLive (buffer : AesdCircularBuffer β) : Prop :=
  buffer.full = true ∧ (buffer.entry buffer.outOffs).buffptr.isSome = true

/-- What a call does to a ring as it should be: it evicts only with ten entries
    live, and every byte it stores is found behind the older ones. -/
structure SoundAdd (buffer : AesdCircularBuffer β) (call : AddCall β) : Prop where
  evicts : EvictsLive buffer → (liveEntries buffer).length = 10
  finds  : call.malloc buffer = true → ∀ o < call.entry.length,
    aesdCircularBufferFindEntryOffsetForFpos (addCall buffer call)
      ((addCall buffer call).size - call.entry.length + o) = some (buffer.inOffs, o)

/-- The ring is well formed all along the run, and every call does what it should. -/
def StaysWellFormed (calls : List (AddCall β)) : Prop :=
  ∀ pre, pre <+: calls → (∃ k, WellFormed (addAll pre) k) ∧
    ∀ call, pre ++ [call] <+: calls → SoundAdd (addAll pre) call

/-- No allocation fails while the ring is marked full. -/
def NoneLost (calls : List (AddCall β)) : Prop :=
  ∀ pre call, pre ++ [call] <+: calls → call.malloc (addAll pre) = false →
    (addAll pre).full = false

section Regular

variable {buffer : AesdCircularBuffer β} {q : SlotQueue 10 (List β)} {call : AddCall β}

/-- A call that loses nothing keeps the queue regular. -/
theorem addCall_regular (h : Represents buffer q) (hreg : Regular q)
    (hlost : call.malloc buffer = false → buffer.full = false) :
    Regular (CyclicQueue.add (call.malloc buffer) q call.entry) := by
  cases hm : call.malloc buffer with
  | true => exact hreg.add _
  | false =>
      have hfull : q.full = false := by
        rw [← h.full_eq]
        exact hlost hm
      have hsame : CyclicQueue.add false q call.entry = q := if_neg (Bool.eq_false_iff.mp hfull)
      rw [hsame]
      exact hreg

/-- A call that finds no memory on a full ring leaves nine entries marked full. -/
theorem not_regular_of_lost (hreg : Regular q) (hfull : q.full = true) (x : List β) :
    ¬ Regular (CyclicQueue.add false q x) := by
  intro hreg'
  have hlen : q.items.length = 10 := hreg.full_iff.mp hfull
  have hprep : prepare q = evict q := if_pos hfull
  have hmark : (CyclicQueue.add false q x).full = true := by
    show (prepare q).full = true
    rw [hprep]
    exact hfull
  have hlen' := hreg'.full_iff.mp hmark
  rw [add_false_items, prepare_items, if_pos ⟨hfull, hreg.aligned⟩, List.length_tail] at hlen'
  omega

/-- The newest entry lies in the slot that the writing position has moved past. -/
theorem addCall_newest_slot (h : Represents buffer q) (hreg : Regular q)
    (hm : call.malloc buffer = true) :
    ((addCall buffer call).outOffs + (prepare q).items.length) % 10 = buffer.inOffs := by
  have h' : Represents (addCall buffer call) (CyclicQueue.add true q call.entry) :=
    hm ▸ addCall_represents h
  have hreg' : Regular (CyclicQueue.add true q call.entry) := hreg.add _
  have ha : (CyclicQueue.add true q call.entry).items.length
      + (CyclicQueue.add true q call.entry).gap = 10 := hreg'.aligned
  have hin := h.in_lt
  have hout := h'.out_eq
  have hnext : (addCall buffer call).inOffs = nextOffs buffer.inOffs := by
    rw [addCall, hm]
    exact addEntry_inOffs buffer _
  rw [hnext, nextOffs, aesdcharMaxWriteOperationsSupported] at hout
  rw [add_true_items, List.length_append, List.length_singleton] at ha
  omega

/-- A call on a regular ring does what it should. -/
theorem soundAdd_of_regular (h : Represents buffer q) (hreg : Regular q) :
    SoundAdd buffer call := by
  constructor
  · rintro ⟨hfull, -⟩
    rw [h.full_eq] at hfull
    rw [h.liveEntries_eq, List.length_map]
    exact hreg.full_iff.mp hfull
  · intro hm o ho
    have hroom := malloc_room h hm
    have h' : Represents (addCall buffer call) (CyclicQueue.add true q call.entry) :=
      hm ▸ addCall_represents h
    have hread : readable (CyclicQueue.add true q call.entry)
        = (CyclicQueue.add true q call.entry).items := if_pos (hreg.add _).aligned
    have htotal := flatten_length_add_true q call.entry
    have hsize : (addCall buffer call).size
        = (prepare q).items.flatten.length + call.entry.length := by
      rw [h'.size_eq, htotal, Nat.mod_eq_of_lt (by omega)]
    rw [findEntryOffsetForFpos_eq h' (by rw [hread, htotal]; omega), hread, hsize,
      Nat.add_sub_cancel, add_true_items, locate_concat _ ho]
    show some (((addCall buffer call).outOffs + (prepare q).items.length) % 10, o) = _
    rw [addCall_newest_slot h hreg hm]

end Regular

/-- The run lemma: as long as nothing is lost the queue is regular. -/
theorem addAll_regular {calls : List (AddCall β)} (h : NoneLost calls) :
    ∀ pre, pre <+: calls → ∃ q, Represents (addAll pre) q ∧
      q.items.flatten.length < 2 ^ 63 ∧ Regular q := by
  intro pre
  induction pre using List.reverseRecOn with
  | nil =>
      intro _
      exact ⟨_, represents_init, Nat.two_pow_pos 63, regular_empty⟩
  | append_singleton pre call ih =>
      intro hpre
      obtain ⟨q, hq, hb, hreg⟩ := ih ((List.prefix_append _ _).trans hpre)
      rw [addAll_concat]
      exact ⟨_, addCall_represents hq, addCall_bound hq hb,
        addCall_regular hq hreg (h pre call hpre)⟩

/-- **WHEN THE RING STAYS WELL FORMED**: along a run of insertions, exactly when no
    allocation fails while the ring is marked full. -/
theorem staysWellFormed_iff (calls : List (AddCall β)) :
    StaysWellFormed calls ↔ NoneLost calls := by
  constructor
  · intro hwf pre call hpre hm
    obtain ⟨q, hq, hb⟩ := addAll_represents pre
    have hreg : Regular q :=
      (wellFormed_iff hq (by omega)).mp (hwf pre ((List.prefix_append _ _).trans hpre)).1
    rw [hq.full_eq, ← Bool.not_eq_true]
    intro hfull
    have hnext := (hwf (pre ++ [call]) hpre).1
    have hq' := @addCall_represents _ _ _ call hq
    have hb' := @addCall_bound _ _ _ call hq hb
    rw [hm] at hq' hb'
    rw [addAll_concat, wellFormed_iff hq' (by omega)] at hnext
    exact not_regular_of_lost hreg hfull _ hnext
  · intro hlost pre hpre
    obtain ⟨q, hq, hb, hreg⟩ := addAll_regular hlost pre hpre
    exact ⟨(wellFormed_iff hq (by omega)).mpr hreg, fun call _ => soundAdd_of_regular hq hreg⟩

/-- Ten lines `"\n"` and an eleventh for which there is no memory. -/
def eleventhRefused : List (AddCall UInt8) := List.replicate 10 ⟨[10], true⟩ ++ [⟨[10], false⟩]

/-- **A FULL RING WITH NINE ENTRIES**: the eleventh call has freed slot 0 and has left
    `full` set, so the twelfth, which is granted, evicts with nine entries live. -/
theorem ring_not_wellFormed :
    (addAll eleventhRefused).full = true ∧ (liveEntries (addAll eleventhRefused)).length = 9 ∧
      EvictsLive (addAll eleventhRefused) ∧ ¬ StaysWellFormed eleventhRefused := by
  have hfull : (addAll eleventhRefused).full = true := by decide +kernel
  have hnine : (liveEntries (addAll eleventhRefused)).length = 9 := by decide +kernel
  refine ⟨hfull, hnine, ⟨hfull, by decide +kernel⟩, ?_⟩
  intro hwf
  obtain ⟨k, hk⟩ := (hwf eleventhRefused List.prefix_rfl).1
  have hten := hk.full_iff.mp hfull
  -- slot 0 would be in use
  have hlive := (hk.live 0 (by decide)).mpr ⟨9, by omega, by decide +kernel⟩
  exact absurd hlive (by decide +kernel)

end AesdRingRuns
