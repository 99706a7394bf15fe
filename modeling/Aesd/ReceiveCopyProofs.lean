import Aesd.IsolationProofs

/-! # The copies behind a `recv`

    `clientHandler` hands the result of `recv` to `aesd_temperary_buffer_add`
    before it looks at its sign, so a failed `recv` arrives there as the size
    `2^64 - 1`.  On an empty buffer no allocator grants that.  On a buffer of `n`
    bytes the sum wraps to `n - 1`, and if that is granted the copies leave both
    the new block and the source.

    `aesdTemperaryBufferAddCalls` is the add with what it does to memory; taking
    the calls away again gives the add of the model.  Whether they are safe is
    then a fact about one call, and the invariant of the server, that a handler's
    buffer holds what it received, carries it to every reachable state. -/

namespace AesdReceiveCopy

open AesdMachine AesdTemperary AesdClient AesdServer AesdIsolation Transition

variable {β : Type} [Octet β]

/-- A `memcpy` of `count` bytes to an offset in a block, from the beginning of a
    source; the blocks by their sizes. -/
structure Memcpy where
  offset : Nat
  count  : Nat
  block  : Nat
  source : Nat
  deriving DecidableEq

/-- The copy stays inside both blocks. -/
def Memcpy.Inside (c : Memcpy) : Prop :=
  c.offset + c.count ≤ c.block ∧ c.count ≤ c.source

/-- What one add does to memory: the bytes it has to store, the size it asks
    `malloc` for, and its copies. -/
structure AddCalls where
  needed    : Nat
  requested : Nat
  copies    : List Memcpy
  deriving DecidableEq

/-- `aesd_temperary_buffer_add` with its memory operations.  `source` is the size
    of the block that `data` lies in. -/
def aesdTemperaryBufferAddCalls (malloc : Nat → Bool) (b : AesdTemperaryBuffer β)
    (source : Nat) (data : List β) (size : Nat) :
    (Bool × AesdTemperaryBuffer β) × AddCalls :=
  match b.buffptr with
  | none =>
      if malloc size then
        ((true, ⟨some (data.take size), size⟩), ⟨size, size, [⟨0, size, size, source⟩]⟩)
      else ((false, b), ⟨size, size, []⟩)
  | some buffptrLast =>
      let total := sizeAdd b.size size
      if malloc total then
        ((true, ⟨some (buffptrLast.take b.size ++ data.take size), total⟩),
          ⟨b.size + size, total,
            [⟨0, b.size, total, buffptrLast.length⟩, ⟨b.size, size, total, source⟩]⟩)
      else ((false, b), ⟨b.size + size, total, []⟩)

omit [Octet β] in
/-- Without its memory operations it is the add of the model. -/
theorem addCalls_fst (malloc : Nat → Bool) (b : AesdTemperaryBuffer β) (source : Nat)
    (data : List β) (size : Nat) :
    (aesdTemperaryBufferAddCalls malloc b source data size).1
      = aesdTemperaryBufferAdd malloc b data size := by
  obtain ⟨buffptr, old⟩ := b
  cases buffptr with
  | none =>
      simp only [aesdTemperaryBufferAddCalls, aesdTemperaryBufferAdd]
      by_cases hm : malloc size = true
      · rw [if_pos hm, if_pos hm]
      · rw [if_neg hm, if_neg hm]
  | some last =>
      simp only [aesdTemperaryBufferAddCalls, aesdTemperaryBufferAdd]
      by_cases hm : malloc (sizeAdd old size) = true
      · rw [if_pos hm, if_pos hm]
      · rw [if_neg hm, if_neg hm]

/-- `recvLen`: what `recv` returns. -/
def recvLen (received : Option (List β)) : Int :=
  match received with
  | none => -1
  | some buffer => buffer.length

/-- The add in `clientHandler`, out of the block that `calloc` gave. -/
def addReceived (granted : Bool) (bufferString : AesdTemperaryBuffer β)
    (received : Option (List β)) : (Bool × AesdTemperaryBuffer β) × AddCalls :=
  aesdTemperaryBufferAddCalls (malloc granted) bufferString bufferSize (received.getD [])
    (sizeOfInt (recvLen received))

/-- It is the add that `receive` makes before it tests the sign. -/
theorem receive_eq_addReceived (granted : Bool) (b : AesdTemperaryBuffer β)
    (received : Option (List β)) :
    receive granted b received =
      if (addReceived granted b received).1.1 = false then .fatal .addFailed
      else if recvLen received < 0 then .fatal .receiveFailed
      else if recvLen received = 0 then
        .closed (aesdTemperaryBufferClean (addReceived granted b received).1.2)
      else if checkForNewlineCharInString (addReceived granted b received).1.2.buffptr
          (recvLen received) then .commit (addReceived granted b received).1.2
      else .again (addReceived granted b received).1.2 := by
  rw [addReceived, addCalls_fst]
  rfl

/-! ## One call -/

/-- The add is safe: its size does not wrap, its copies stay inside, a successful
    one appends what was received, and nothing received changes nothing. -/
structure AddSafe (granted : Bool) (b : AesdTemperaryBuffer β) (received : Option (List β)) :
    Prop where
  noWrap    : (addReceived granted b received).2.requested
    = (addReceived granted b received).2.needed
  inside    : ∀ c ∈ (addReceived granted b received).2.copies, c.Inside
  appends   : ∀ chunk, received = some chunk → (addReceived granted b received).1.1 = true →
    (addReceived granted b received).1.2.bytes = b.bytes ++ chunk ∧
      (addReceived granted b received).1.2.size = b.size + chunk.length
  untouched : received = none → (addReceived granted b received).1.2 = b

section OneCall

variable {b : AesdTemperaryBuffer β} {bs : List β}

omit [Octet β]

/-- The size that a chunk becomes. -/
theorem sizeOfInt_recvLen_some {chunk : List β} (hlen : chunk.length < bufferSize) :
    sizeOfInt (recvLen (some chunk)) = chunk.length := by
  have hlen' : chunk.length < 512 := hlen
  exact sizeOfInt_natCast (by omega)

/-- A chunk: the sum is exact and both copies fit, whatever was accumulated. -/
theorem addReceived_memory (h : Holds b bs) (granted : Bool) {chunk : List β}
    (hlen : chunk.length < bufferSize) (hwrap : bs.length + chunk.length < 2 ^ 64) :
    (addReceived granted b (some chunk)).2.requested
        = (addReceived granted b (some chunk)).2.needed ∧
      ∀ c ∈ (addReceived granted b (some chunk)).2.copies, c.Inside := by
  rw [addReceived, sizeOfInt_recvLen_some hlen]
  cases h with
  | null =>
      simp only [aesdTemperaryBufferAddCalls]
      split
      · refine ⟨rfl, ?_⟩
        intro c hc
        rw [List.mem_singleton.mp hc]
        exact ⟨Nat.le_of_eq (Nat.zero_add _), Nat.le_of_lt hlen⟩
      · exact ⟨rfl, fun c hc => nomatch hc⟩
  | block =>
      simp only [aesdTemperaryBufferAddCalls, sizeAdd_eq hwrap]
      split
      · refine ⟨rfl, ?_⟩
        intro c hc
        rcases List.mem_pair.mp hc with rfl | rfl
        · refine ⟨?_, Nat.le_refl _⟩
          show 0 + bs.length ≤ bs.length + chunk.length
          omega
        · exact ⟨Nat.le_refl _, Nat.le_of_lt hlen⟩
      · exact ⟨rfl, fun c hc => nomatch hc⟩

/-- A chunk that was added is behind the bytes that were there. -/
theorem addReceived_holds (h : Holds b bs) (granted : Bool) {chunk : List β}
    (hlen : chunk.length < bufferSize) (hwrap : bs.length + chunk.length < 2 ^ 64)
    (hadded : (addReceived granted b (some chunk)).1.1 = true) :
    Holds (addReceived granted b (some chunk)).1.2 (bs ++ chunk) := by
  rw [addReceived, addCalls_fst, sizeOfInt_recvLen_some hlen, Option.getD_some] at hadded ⊢
  cases hm : malloc granted (bs.length + chunk.length) with
  | true =>
      have hadd := (h.add chunk hm (Nat.le_refl _) hwrap).2
      rw [List.take_length] at hadd
      exact hadd
  | false =>
      rw [h.add_refused chunk hm hwrap] at hadded
      cases hadded

theorem addSafe_some (h : Holds b bs) (hbs : bs.length < 2 ^ 63) (granted : Bool)
    {chunk : List β} (hlen : chunk.length < bufferSize) : AddSafe granted b (some chunk) := by
  have hlen' : chunk.length < 512 := hlen
  have hwrap : bs.length + chunk.length < 2 ^ 64 := by omega
  obtain ⟨hno, hinside⟩ := addReceived_memory h granted hlen hwrap
  refine ⟨hno, hinside, ?_, fun hnone => nomatch hnone⟩
  rintro _ ⟨⟩ hadded
  have hholds := addReceived_holds h granted hlen hwrap hadded
  rw [hholds.bytes_eq, hholds.size_eq, h.bytes_eq, h.size_eq, List.length_append]
  exact ⟨rfl, rfl⟩

/-- The size that a failed `recv` becomes. -/
theorem sizeOfInt_recvLen_none : sizeOfInt (recvLen (none : Option (List β))) = 2 ^ 64 - 1 := rfl

/-- No allocator grants that size, so a failed `recv` leaves an empty buffer
    alone. -/
theorem addSafe_none_of_empty (h : Holds b []) (granted : Bool) : AddSafe granted b none := by
  have hm : malloc granted (2 ^ 64 - 1) = false := by
    cases granted with
    | true => decide
    | false => rfl
  have hadd : addReceived granted b none = ((false, b), ⟨2 ^ 64 - 1, 2 ^ 64 - 1, []⟩) := by
    rw [addReceived, sizeOfInt_recvLen_none]
    generalize hnil : ([] : List β) = bs at h
    cases h with
    | null =>
        simp only [aesdTemperaryBufferAddCalls, hm]
        rfl
    | block =>
        rw [← hnil]
        simp only [aesdTemperaryBufferAddCalls, List.length_nil,
          show sizeAdd 0 (2 ^ 64 - 1) = 2 ^ 64 - 1 from rfl, hm]
        rfl
  constructor
  · rw [hadd]
  · rw [hadd]
    exact fun c hc => nomatch hc
  · exact fun _ hsome => nomatch hsome
  · rw [hadd]
    exact fun _ => rfl

/-- With something accumulated the requested size is one less than it. -/
theorem not_addSafe_none (h : Holds b bs) (hbs : bs.length < 2 ^ 63) (hpos : 0 < bs.length)
    (granted : Bool) : ¬ AddSafe granted b none := by
  intro hsafe
  have hno := hsafe.noWrap
  rw [addReceived, sizeOfInt_recvLen_none] at hno
  cases h with
  | null => exact absurd hpos (Nat.lt_irrefl 0)
  | block =>
      have hwraps : sizeAdd bs.length (2 ^ 64 - 1) = bs.length - 1 := by
        rw [sizeAdd]
        omega
      simp only [aesdTemperaryBufferAddCalls, hwraps] at hno
      split at hno
      · have hsame : bs.length - 1 = bs.length + (2 ^ 64 - 1) := hno
        omega
      · have hsame : bs.length - 1 = bs.length + (2 ^ 64 - 1) := hno
        omega

/-- **ONE ADD** is safe unless a failed `recv` meets accumulated bytes. -/
theorem addSafe_iff (h : Holds b bs) (hbs : bs.length < 2 ^ 63) (granted : Bool)
    {received : Option (List β)} (hlen : (received.getD []).length < bufferSize) :
    AddSafe granted b received ↔ ¬ (received = none ∧ 0 < b.size) := by
  cases received with
  | some chunk =>
      refine ⟨?_, fun _ => addSafe_some h hbs granted hlen⟩
      rintro - ⟨hnone, -⟩
      cases hnone
  | none =>
      rw [h.size_eq]
      by_cases hpos : 0 < bs.length
      · exact ⟨fun hsafe => absurd hsafe (not_addSafe_none h hbs hpos granted),
          fun hno => absurd ⟨rfl, hpos⟩ hno⟩
      · have hnil : bs = [] := List.eq_nil_of_length_eq_zero (by omega)
        subst hnil
        exact ⟨fun _ hboth => hpos hboth.2, fun _ => addSafe_none_of_empty h granted⟩

end OneCall

/-! ## Every reachable state -/

/-- A buffer in good order. -/
abbrev Sound (b : AesdTemperaryBuffer Tagged) : Prop := Filled (fun _ => True) b

/-- In every run a handler's buffer is in good order. -/
theorem sound_run {s t : Server} (hs : Starts s)
    (hrun : RunsTo next (fun _ _ => True) s t) :
    AllAt (fun _ h => Sound h.bufferString) t.handlers := by
  have hstart : AllAt (fun _ h => Sound h.bufferString) s.handlers := by
    rw [hs.handlers]
    exact allAt_nil _
  refine hrun.invariant (I := fun s => AllAt (fun _ h => Sound h.bufferString) s.handlers)
    ?_ hstart
  intro s a t hall _ hnext
  refine allAt_next hall hnext ?_ ?_
  · intro fd ok
    exact filled_init _
  · intro i ha hd sh' hd' _ _ hrule hb
    exact (filled_step hb (fun _ _ _ _ _ _ => trivial) hrule).1

/-- **ADDING WHAT WAS RECEIVED**: in every reachable state of the server, for every
    handler, every answer of `malloc` and every result of `recv`, the add made with
    that result is safe exactly when it is not a failure that meets accumulated
    bytes. -/
theorem addReceived_safe_iff {s t : Server} (hs : Starts s)
    (hrun : RunsTo next (fun _ _ => True) s t) {i : Nat} {h : Handler}
    (hget : t.handlers[i]? = some h) (granted : Bool) (received : Option (List UInt8))
    (hlen : (received.getD []).length < bufferSize) :
    AddSafe granted h.bufferString (received.map (tag i)) ↔
      ¬ (received = none ∧ 0 < h.bufferString.size) := by
  obtain ⟨bs, hholds, hbs, -⟩ := sound_run hs hrun i h hget
  have hlen' : ((received.map (tag i)).getD []).length < bufferSize := by
    rw [length_map_tag]
    exact hlen
  rw [addSafe_iff hholds hbs granted hlen', Option.map_eq_none_iff]

/-- A client sends `"ab"`, without a newline, and its socket is readable again. -/
def partialPacket : List Action :=
  List.flatten [connect, receives 0 [97, 98], [.handler 0 (.poll true .socket)]]

/-- The handler is then at `recv` with two bytes. -/
theorem exists_partialPacket :
    ∃ (t : Server) (h : Handler), RunsTo next (fun _ _ => True) (freshServer 5) t ∧
      t.handlers[0]? = some h ∧ h.pc = .recv ∧ h.bufferString = held (tag 0 [97, 98]) := by
  obtain ⟨t, hrun, hseen⟩ := @exists_runsTo _ _ next (fun _ _ => true) (freshServer 5)
    partialPacket _ (fun t => t.handlers.map
      fun h => (h.pc, h.bufferString.buffptr, h.bufferString.size))
    [(.recv, some (tag 0 [97, 98]), 2)] (by decide +kernel)
  obtain ⟨h, hhandlers, hsame⟩ := List.map_eq_singleton_iff.mp hseen
  obtain ⟨fd, ⟨buffptr, size⟩, pc⟩ := h
  cases hsame
  exact ⟨t, _, hrun.mono (fun _ _ _ => trivial), by rw [hhandlers]; rfl, rfl, rfl⟩

/-- The rest of the packet is added behind them. -/
theorem addReceived_safe_partialPacket :
    ∃ (t : Server) (h : Handler), RunsTo next (fun _ _ => True) (freshServer 5) t ∧
      t.handlers[0]? = some h ∧ h.pc = .recv ∧ 0 < h.bufferString.size ∧
      AddSafe true h.bufferString (some (tag 0 [99, 10])) := by
  obtain ⟨t, h, hrun, hget, hpc, hbuffer⟩ := exists_partialPacket
  refine ⟨t, h, hrun, hget, hpc, by rw [hbuffer]; decide, ?_⟩
  refine (addReceived_safe_iff (starts_freshServer 5) hrun hget true (some [99, 10])
    (by decide)).mpr ?_
  rintro ⟨hnone, -⟩
  cases hnone

/-- **A FAILED RECEIVE AFTER TWO BYTES**: the add asks for one byte, and when it
    gets it copies two bytes there and then `2^64 - 1` out of the 512 that `calloc`
    gave. -/
theorem addReceived_after_partialPacket :
    ∃ (t : Server) (h : Handler), RunsTo next (fun _ _ => True) (freshServer 5) t ∧
      t.handlers[0]? = some h ∧ h.pc = .recv ∧
      (addReceived true h.bufferString none).2
        = ⟨2 ^ 64 + 1, 1, [⟨0, 2, 1, 2⟩, ⟨2, 2 ^ 64 - 1, 1, 512⟩]⟩ ∧
      (addReceived true h.bufferString none).1.2.size = 1 ∧
      ¬ AddSafe true h.bufferString (none : Option (List Tagged)) := by
  obtain ⟨t, h, hrun, hget, hpc, hbuffer⟩ := exists_partialPacket
  refine ⟨t, h, hrun, hget, hpc, ?_, ?_, ?_⟩
  · rw [hbuffer]
    decide +kernel
  · rw [hbuffer]
    decide +kernel
  · rw [hbuffer]
    exact not_addSafe_none (.block _) (by decide) (by decide) true

end AesdReceiveCopy
