import Aesd.CircularBufferProofs

/-! # The two look-ups of the ring

    `aesd_circular_buffer_find_entry_offset_for_fpos` turns a byte position into
    a slot and an offset; `aesd_circular_buffer_find_entry_for_ioctl` turns an
    entry number and an offset into a byte position.  Both walk the ring from
    `out_offs` with a running offset and stop at the first free slot, the first
    comparing byte ranges and the second counting entries.

    Each walk is characterised once, as `BlockLookup` on the readable items: the
    slots from `out_offs` are those items followed by a free slot or by the end
    of the turn, and the induction is over the items. -/

namespace AesdLookup

open AesdMachine AesdRing CyclicWindow CyclicQueue BlockLookup

variable {β : Type}

/-- The loop of `aesd_circular_buffer_find_entry_offset_for_fpos`, with the
    number of iterations left. -/
def findEntryOffsetForFposLoop (buffer : AesdCircularBuffer β) (charOffset : Nat) :
    Nat → Nat → Nat → Option (Nat × Nat)
  | 0, _, _ => none
  | left + 1, currentOffset, bufferIndex =>
      match (buffer.entry bufferIndex).buffptr with
      | some _ =>
          if currentOffset ≤ charOffset ∧
              charOffset < sizeAdd currentOffset (buffer.entry bufferIndex).size then
            some (bufferIndex, charOffset - currentOffset)
          else
            findEntryOffsetForFposLoop buffer charOffset left
              (sizeAdd currentOffset (buffer.entry bufferIndex).size) (nextOffs bufferIndex)
      | none => none

/-- `aesd_circular_buffer_find_entry_offset_for_fpos`: the slot of the returned
    entry and the value stored through `entry_offset_byte_rtn`.  The `NULL` case
    returns without storing. -/
def aesdCircularBufferFindEntryOffsetForFpos (buffer : AesdCircularBuffer β)
    (charOffset : Nat) : Option (Nat × Nat) :=
  findEntryOffsetForFposLoop buffer charOffset aesdcharMaxWriteOperationsSupported 0
    buffer.outOffs

/-- The loop of `aesd_circular_buffer_find_entry_for_ioctl`; `i` counts the
    entries passed. -/
def findEntryForIoctlLoop (buffer : AesdCircularBuffer β) (writeCmd writeCmdOffset : Nat) :
    Nat → Nat → Nat → Nat → Option Nat × Nat
  | 0, _, _, _ => (none, 0)
  | left + 1, i, currentOffset, bufferIndex =>
      match (buffer.entry bufferIndex).buffptr with
      | some _ =>
          if i = writeCmd then
            if writeCmdOffset ≥ (buffer.entry bufferIndex).size then (none, 0)
            else (some bufferIndex, sizeAdd currentOffset writeCmdOffset)
          else
            findEntryForIoctlLoop buffer writeCmd writeCmdOffset left (i + 1)
              (sizeAdd currentOffset (buffer.entry bufferIndex).size) (nextOffs bufferIndex)
      | none => (none, 0)

/-- `aesd_circular_buffer_find_entry_for_ioctl`: the slot of the returned entry
    and what `*entry_offset_byte_rtn` holds afterwards, `rtn` being its value
    before the call. -/
def aesdCircularBufferFindEntryForIoctl (buffer : AesdCircularBuffer β)
    (writeCmd writeCmdOffset rtn : Nat) : Option Nat × Nat :=
  if writeCmd ≥ aesdcharMaxWriteOperationsSupported then (none, rtn)
  else
    findEntryForIoctlLoop buffer writeCmd writeCmdOffset aesdcharMaxWriteOperationsSupported 0 0
      buffer.outOffs

/-! ## The walk as a list -/

/-- A walk that has met its last item: no slot left, or a free one. -/
def Ends (tail : List (AesdBufferEntry β)) : Prop :=
  ∀ e, tail.head? = some e → e.buffptr = none

/-- The slots from `out_offs` are the readable items and then an end. -/
theorem turn_readable {buffer : AesdCircularBuffer β} {q : SlotQueue 10 (List β)}
    (h : Represents buffer q) :
    ∃ tail, turn buffer = (readable q).map stored ++ tail ∧ Ends tail := by
  refine ⟨(turn buffer).dropWhile fun e => e.buffptr.isSome, ?_, ?_⟩
  · rw [← h.readableEntries_eq]
    exact (List.takeWhile_append_dropWhile ..).symm
  · intro e he
    have hnot := List.head?_dropWhile_not (fun e => e.buffptr.isSome) (turn buffer)
    rw [he] at hnot
    exact Option.not_isSome_iff_eq_none.mp (by simpa using hnot)

private theorem window_cons {n s k : Nat} {f : Nat → AesdBufferEntry β}
    {e : AesdBufferEntry β} {es : List (AesdBufferEntry β)}
    (h : window n f s k = e :: es) (hs : s < n) :
    ∃ left, k = left + 1 ∧ f s = e ∧ window n f ((s + 1) % n) left = es := by
  cases k with
  | zero => exact nomatch h
  | succ left =>
      rw [window_succ, Nat.mod_eq_of_lt hs] at h
      refine ⟨left, rfl, (List.cons.inj h).1, ?_⟩
      rw [window_mod]
      exact (List.cons.inj h).2

private theorem findFpos_walk (buffer : AesdCircularBuffer β) (charOffset : Nat)
    (tail : List (AesdBufferEntry β)) (htail : Ends tail) :
    ∀ (items : List (List β)) (left cur idx : Nat),
      window 10 buffer.entry idx left = items.map stored ++ tail → idx < 10 →
      cur ≤ charOffset → cur + items.flatten.length < 2 ^ 64 →
      findEntryOffsetForFposLoop buffer charOffset left cur idx
        = (locate items (charOffset - cur)).map fun p => ((idx + p.1) % 10, p.2) := by
  intro items
  induction items with
  | nil =>
      intro left cur idx hwin hidx _ _
      show _ = none
      cases left with
      | zero => rfl
      | succ left =>
          rw [window_succ, Nat.mod_eq_of_lt hidx] at hwin
          have hnone : (buffer.entry idx).buffptr = none :=
            htail _ (by rw [show tail = _ from hwin.symm]; rfl)
          rw [findEntryOffsetForFposLoop]
          rw [hnone]
  | cons b items ih =>
      intro left cur idx hwin hidx hcur hsum
      obtain ⟨left', hleft, hslot, hrest⟩ := window_cons hwin hidx
      rw [List.flatten_cons, List.length_append] at hsum
      subst hleft
      rw [findEntryOffsetForFposLoop, locate]
      rw [hslot]
      show (if cur ≤ charOffset ∧ charOffset < sizeAdd cur b.length then
          some (idx, charOffset - cur)
        else findEntryOffsetForFposLoop buffer charOffset left' (sizeAdd cur b.length)
          ((idx + 1) % 10)) = _
      rw [sizeAdd_eq (by omega)]
      by_cases hin : charOffset < cur + b.length
      · rw [if_pos ⟨hcur, hin⟩, if_pos (by omega)]
        show some (idx, charOffset - cur) = some ((idx + 0) % 10, charOffset - cur)
        rw [Nat.add_zero, Nat.mod_eq_of_lt hidx]
      · rw [if_neg (fun h => hin h.2), if_neg (by omega)]
        rw [ih left' (cur + b.length) ((idx + 1) % 10) hrest (Nat.mod_lt _ (by decide))
          (by omega) (by omega), Nat.sub_sub, Option.map_map]
        refine congrArg (fun g => Option.map g (locate items (charOffset - (cur + b.length)))) ?_
        funext p
        show ((((idx + 1) % 10) + p.1) % 10, p.2) = ((idx + (p.1 + 1)) % 10, p.2)
        rw [Nat.mod_add_mod, show idx + 1 + p.1 = idx + (p.1 + 1) by omega]

/-- **POSITION TO ENTRY**: the look-up finds exactly what `locate` finds among
    the readable items. -/
theorem findEntryOffsetForFpos_eq {buffer : AesdCircularBuffer β} {q : SlotQueue 10 (List β)}
    (h : Represents buffer q) (hsum : (readable q).flatten.length < 2 ^ 64) (charOffset : Nat) :
    aesdCircularBufferFindEntryOffsetForFpos buffer charOffset
      = (locate (readable q) charOffset).map fun p => ((buffer.outOffs + p.1) % 10, p.2) := by
  obtain ⟨tail, hturn, htail⟩ := turn_readable h
  have hout := h.out_lt
  exact findFpos_walk buffer charOffset tail htail (readable q) 10 0 buffer.outOffs hturn hout
    (Nat.zero_le _) (by omega)

private theorem findIoctl_walk (buffer : AesdCircularBuffer β) (writeCmd writeCmdOffset : Nat)
    (tail : List (AesdBufferEntry β)) (htail : Ends tail) :
    ∀ (items : List (List β)) (left i cur idx : Nat),
      window 10 buffer.entry idx left = items.map stored ++ tail → idx < 10 →
      i ≤ writeCmd → cur + items.flatten.length < 2 ^ 64 →
      findEntryForIoctlLoop buffer writeCmd writeCmdOffset left i cur idx
        = match items[writeCmd - i]? with
          | some b =>
              if writeCmdOffset < b.length then
                (some ((idx + (writeCmd - i)) % 10),
                  cur + start items (writeCmd - i) + writeCmdOffset)
              else (none, 0)
          | none => (none, 0) := by
  intro items
  induction items with
  | nil =>
      intro left i cur idx hwin hidx _ _
      show _ = (none, 0)
      cases left with
      | zero => rfl
      | succ left =>
          rw [window_succ, Nat.mod_eq_of_lt hidx] at hwin
          have hnone : (buffer.entry idx).buffptr = none :=
            htail _ (by rw [show tail = _ from hwin.symm]; rfl)
          rw [findEntryForIoctlLoop]
          rw [hnone]
  | cons b items ih =>
      intro left i cur idx hwin hidx hi hsum
      obtain ⟨left', hleft, hslot, hrest⟩ := window_cons hwin hidx
      rw [List.flatten_cons, List.length_append] at hsum
      subst hleft
      rw [findEntryForIoctlLoop]
      rw [hslot]
      show (if i = writeCmd then
          if writeCmdOffset ≥ b.length then (none, 0)
          else (some idx, sizeAdd cur writeCmdOffset)
        else findEntryForIoctlLoop buffer writeCmd writeCmdOffset left' (i + 1)
          (sizeAdd cur b.length) ((idx + 1) % 10)) = _
      by_cases hcmd : i = writeCmd
      · subst hcmd
        rw [if_pos rfl, Nat.sub_self]
        show _ = if writeCmdOffset < b.length then _ else _
        by_cases hoff : writeCmdOffset < b.length
        · rw [if_neg (by omega), if_pos hoff, sizeAdd_eq (by omega), Nat.add_zero,
            Nat.mod_eq_of_lt hidx, start_zero, Nat.add_zero]
        · rw [if_pos (by omega), if_neg hoff]
      · rw [if_neg hcmd, sizeAdd_eq (by omega),
          ih left' (i + 1) (cur + b.length) ((idx + 1) % 10) hrest (Nat.mod_lt _ (by decide))
            (by omega) (by omega),
          show writeCmd - i = (writeCmd - (i + 1)) + 1 by omega, List.getElem?_cons_succ,
          start_cons_succ, Nat.mod_add_mod,
          show idx + 1 + (writeCmd - (i + 1)) = idx + (writeCmd - (i + 1) + 1) by omega,
          show cur + b.length + start items (writeCmd - (i + 1))
            = cur + (b.length + start items (writeCmd - (i + 1))) by omega]

/-- **ENTRY TO POSITION**: the other look-up answers with the start of the
    readable item plus the offset, or with `NULL` and position zero. -/
theorem findEntryForIoctl_eq {buffer : AesdCircularBuffer β} {q : SlotQueue 10 (List β)}
    (h : Represents buffer q) (hsum : (readable q).flatten.length < 2 ^ 64)
    {writeCmd : Nat} (hcmd : writeCmd < 10) (writeCmdOffset rtn : Nat) :
    aesdCircularBufferFindEntryForIoctl buffer writeCmd writeCmdOffset rtn
      = match (readable q)[writeCmd]? with
        | some b =>
            if writeCmdOffset < b.length then
              (some ((buffer.outOffs + writeCmd) % 10),
                start (readable q) writeCmd + writeCmdOffset)
            else (none, 0)
        | none => (none, 0) := by
  obtain ⟨tail, hturn, htail⟩ := turn_readable h
  have hout := h.out_lt
  have hwalk := findIoctl_walk buffer writeCmd writeCmdOffset tail htail (readable q) 10 0 0
    buffer.outOffs hturn hout (Nat.zero_le _) (by omega)
  rw [Nat.sub_zero, Nat.zero_add] at hwalk
  have hbound : ¬ writeCmd ≥ aesdcharMaxWriteOperationsSupported := Nat.not_le.mpr hcmd
  rw [aesdCircularBufferFindEntryForIoctl]
  rw [if_neg hbound]
  exact hwalk

end AesdLookup
