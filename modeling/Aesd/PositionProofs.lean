import Aesd.LookupProofs

/-! # Positions and entries

    A ring into which entries were stored one after another, every allocation
    granted, and the bytes it then stands for: the ten latest entries, end to
    end.  The two look-ups of the ring are compared with that byte string and
    with each other.

    `aesd_circular_buffer_find_entry_offset_for_fpos` is followed here with the
    cell behind `entry_offset_byte_rtn`, since its contract says when the cell is
    written. -/

namespace AesdPosition

open AesdMachine AesdRing AesdLookup CyclicWindow CyclicQueue BlockLookup

variable {β : Type}

/-- The ring after the entries `ws`, every allocation granted. -/
def storeAll (ws : List (List β)) : AesdCircularBuffer β :=
  ws.foldl (fun buffer w => aesdCircularBufferAddEntry true buffer ⟨some w, w.length⟩)
    aesdCircularBufferInit

/-- The entries fit: each has a size, and the ones that stay are together below
    `2^64` bytes. -/
structure Fits (ws : List (List β)) : Prop where
  sizes : ∀ w ∈ ws, w.length < 2 ^ 64
  total : (latest 10 ws).flatten.length < 2 ^ 64

theorem storeAll_concat (ws : List (List β)) (w : List β) :
    storeAll (ws ++ [w])
      = aesdCircularBufferAddEntry true (storeAll ws) ⟨some w, w.length⟩ := by
  rw [storeAll, List.foldl_append]
  rfl

/-- **STORED ENTRIES**: the ring stands for a regular queue of the ten latest. -/
theorem storeAll_represents (ws : List (List β)) (h : ∀ w ∈ ws, w.length < 2 ^ 64) :
    ∃ q, Represents (storeAll ws) q ∧ Regular q ∧ q.items = latest 10 ws := by
  induction ws using List.reverseRecOn with
  | nil => exact ⟨_, represents_init, regular_empty, rfl⟩
  | append_singleton ws w ih =>
      obtain ⟨q, hq, hreg, hitems⟩ := ih fun v hv => h v (List.mem_append_left _ hv)
      have hw : w.length < 2 ^ 64 :=
        h w (List.mem_append_right _ (List.mem_singleton_self w))
      rw [storeAll_concat]
      refine ⟨_, addEntry_represents hq true hw, hreg.add w, ?_⟩
      rw [hreg.add_items, hitems, latest_concat]

/-! ## The cell behind `entry_offset_byte_rtn` -/

/-- The loop of the look-up by position with the contents of the cell. -/
def findEntryOffsetForFposCellLoop (buffer : AesdCircularBuffer β) (charOffset : Nat) :
    Nat → Nat → Nat → Nat → Option Nat × Nat
  | 0, _, _, rtn => (none, rtn)
  | left + 1, currentOffset, bufferIndex, rtn =>
      match (buffer.entry bufferIndex).buffptr with
      | some _ =>
          if currentOffset ≤ charOffset ∧
              charOffset < sizeAdd currentOffset (buffer.entry bufferIndex).size then
            (some bufferIndex, sizeSub charOffset currentOffset)
          else
            findEntryOffsetForFposCellLoop buffer charOffset left
              (sizeAdd currentOffset (buffer.entry bufferIndex).size) (nextOffs bufferIndex) rtn
      | none => (none, rtn)

/-- The look-up by position: the slot of the returned entry and what
    `*entry_offset_byte_rtn` holds afterwards, `rtn` being its value before. -/
def findEntryOffsetForFposCell (buffer : AesdCircularBuffer β) (charOffset rtn : Nat) :
    Option Nat × Nat :=
  findEntryOffsetForFposCellLoop buffer charOffset aesdcharMaxWriteOperationsSupported 0
    buffer.outOffs rtn

private theorem cellLoop_eq (buffer : AesdCircularBuffer β) {charOffset : Nat}
    (hc : charOffset < 2 ^ 64) (rtn : Nat) :
    ∀ left cur idx, findEntryOffsetForFposCellLoop buffer charOffset left cur idx rtn
      = match findEntryOffsetForFposLoop buffer charOffset left cur idx with
        | some found => (some found.1, found.2)
        | none => (none, rtn) := by
  intro left
  induction left with
  | zero =>
      intro cur idx
      rfl
  | succ left ih =>
      intro cur idx
      rw [findEntryOffsetForFposCellLoop, findEntryOffsetForFposLoop]
      cases hslot : (buffer.entry idx).buffptr with
      | none => rfl
      | some b =>
          by_cases hin : cur ≤ charOffset ∧
              charOffset < sizeAdd cur (buffer.entry idx).size
          · simp only [if_pos hin]
            rw [sizeSub_eq hc hin.1]
          · simp only [if_neg hin]
            exact ih _ _

/-- The cell is written exactly when an entry is found. -/
theorem findEntryOffsetForFposCell_eq (buffer : AesdCircularBuffer β) {charOffset : Nat}
    (hc : charOffset < 2 ^ 64) (rtn : Nat) :
    findEntryOffsetForFposCell buffer charOffset rtn
      = match aesdCircularBufferFindEntryOffsetForFpos buffer charOffset with
        | some found => (some found.1, found.2)
        | none => (none, rtn) :=
  cellLoop_eq buffer hc rtn _ _ _

/-! ## One look-up against the bytes -/

/-- What the look-up answers, on a ring that holds `bytes`. -/
structure FindsBytes (buffer : AesdCircularBuffer β) (bytes : List β) (charOffset rtn : Nat) :
    Prop where
  found_iff : (∃ i o, findEntryOffsetForFposCell buffer charOffset rtn = (some i, o)) ↔
    charOffset < bytes.length
  found     : ∀ i o, findEntryOffsetForFposCell buffer charOffset rtn = (some i, o) →
    o < (buffer.entry i).size ∧
      (∃ b, ((buffer.entry i).buffptr.getD [])[o]? = some b ∧ bytes[charOffset]? = some b) ∧
      ∃ j, i = (buffer.outOffs + j) % 10 ∧
        (liveEntries buffer)[j]? = some (buffer.entry i) ∧
        (buffer.entry i).bytes.drop o
          ++ (((liveEntries buffer).drop (j + 1)).map AesdBufferEntry.bytes).flatten
          = bytes.drop charOffset
  missing   : bytes.length ≤ charOffset →
    findEntryOffsetForFposCell buffer charOffset rtn = (none, rtn)

section Regular

variable {buffer : AesdCircularBuffer β} {q : SlotQueue 10 (List β)}

/-- The look-up by position, on an aligned ring. -/
theorem findFpos_eq_some_iff (h : Represents buffer q) (ha : Aligned q)
    (hsum : q.items.flatten.length < 2 ^ 64) (p i o : Nat) :
    aesdCircularBufferFindEntryOffsetForFpos buffer p = some (i, o) ↔
      ∃ j b, q.items[j]? = some b ∧ o < b.length ∧ p = start q.items j + o ∧
        i = (buffer.outOffs + j) % 10 := by
  have hread : readable q = q.items := if_pos ha
  rw [findEntryOffsetForFpos_eq h (by rw [hread]; exact hsum), hread]
  constructor
  · intro hmap
    obtain ⟨⟨j, o'⟩, hloc, heq⟩ := Option.map_eq_some_iff.mp hmap
    have ho : o' = o := congrArg Prod.snd heq
    subst ho
    obtain ⟨b, hb, hlt, hp⟩ := (locate_eq_some_iff _ _ _ _).mp hloc
    exact ⟨j, b, hb, hlt, hp, (congrArg Prod.fst heq).symm⟩
  · rintro ⟨j, b, hb, hlt, hp, rfl⟩
    rw [(locate_eq_some_iff _ _ _ _).mpr ⟨b, hb, hlt, hp⟩]
    rfl

/-- The look-up by entry number, on an aligned ring. -/
theorem findIoctl_eq_some_iff (h : Represents buffer q) (ha : Aligned q)
    (hsum : q.items.flatten.length < 2 ^ 64) (writeCmd off rtn i p : Nat) :
    aesdCircularBufferFindEntryForIoctl buffer writeCmd off rtn = (some i, p) ↔
      ∃ b, q.items[writeCmd]? = some b ∧ off < b.length ∧ p = start q.items writeCmd + off ∧
        i = (buffer.outOffs + writeCmd) % 10 := by
  have hread : readable q = q.items := if_pos ha
  have ha' : q.items.length + q.gap = 10 := ha
  by_cases hcmd : writeCmd < 10
  · rw [findEntryForIoctl_eq h (by rw [hread]; exact hsum) hcmd, hread]
    cases hb : q.items[writeCmd]? with
    | none => simp
    | some b =>
        by_cases hoff : off < b.length
        · simp only [if_pos hoff, Prod.mk.injEq, Option.some.injEq]
          constructor
          · rintro ⟨rfl, rfl⟩
            exact ⟨b, rfl, hoff, rfl, rfl⟩
          · rintro ⟨b', rfl, -, hp, hi⟩
            exact ⟨hi.symm, hp.symm⟩
        · simp only [if_neg hoff, Prod.mk.injEq]
          constructor
          · rintro ⟨hfalse, -⟩
            exact nomatch hfalse
          · rintro ⟨b', heq, hlt, -⟩
            rw [← Option.some.inj heq] at hlt
            exact absurd hlt hoff
  · rw [aesdCircularBufferFindEntryForIoctl,
      if_pos (show writeCmd ≥ aesdcharMaxWriteOperationsSupported from Nat.not_lt.mp hcmd),
      List.getElem?_eq_none (by omega)]
    simp

/-- The look-up by position fails exactly at and past the end. -/
theorem findFpos_eq_none_iff (h : Represents buffer q) (ha : Aligned q)
    (hsum : q.items.flatten.length < 2 ^ 64) (p : Nat) :
    aesdCircularBufferFindEntryOffsetForFpos buffer p = none ↔ q.items.flatten.length ≤ p := by
  have hread : readable q = q.items := if_pos ha
  rw [findEntryOffsetForFpos_eq h (by rw [hread]; exact hsum), hread, Option.map_eq_none_iff,
    locate_eq_none_iff]

/-- The look-up answers as it should, on an aligned ring. -/
theorem findsBytes_of_aligned (h : Represents buffer q) (ha : Aligned q)
    (hsum : q.items.flatten.length < 2 ^ 64) {charOffset : Nat} (hc : charOffset < 2 ^ 64)
    (rtn : Nat) : FindsBytes buffer q.items.flatten charOffset rtn := by
  have hcell := findEntryOffsetForFposCell_eq buffer hc rtn
  have hsome : ∀ i o, findEntryOffsetForFposCell buffer charOffset rtn = (some i, o) ↔
      aesdCircularBufferFindEntryOffsetForFpos buffer charOffset = some (i, o) := by
    intro i o
    rw [hcell]
    cases aesdCircularBufferFindEntryOffsetForFpos buffer charOffset with
    | none => simp
    | some found => simp [Prod.ext_iff]
  refine ⟨?_, ?_, ?_⟩
  · simp only [hsome]
    rw [← Nat.not_le, ← findFpos_eq_none_iff h ha hsum]
    constructor
    · rintro ⟨i, o, hfind⟩ hnone
      exact nomatch hfind.symm.trans hnone
    · intro hne
      obtain ⟨⟨i, o⟩, hfind⟩ := Option.ne_none_iff_exists'.mp hne
      exact ⟨i, o, hfind⟩
  · intro i o hfound
    obtain ⟨j, b, hb, ho, rfl, rfl⟩ :=
      (findFpos_eq_some_iff h ha hsum _ _ _).mp ((hsome i o).mp hfound)
    have hrest := drop_start_add hb (Nat.le_of_lt ho)
    have hbyte : q.items.flatten[start q.items j + o]? = b[o]? := by
      have hhead := congrArg (fun bs => bs[0]?) hrest
      simp only [List.getElem?_drop, Nat.add_zero] at hhead
      rw [hhead, List.getElem?_append_left (by rw [List.length_drop]; omega),
        List.getElem?_drop, Nat.add_zero]
    rw [h.slot_item ha hb]
    refine ⟨ho, ⟨b[o], ?_, ?_⟩, j, rfl, ?_, ?_⟩
    · exact List.getElem?_eq_getElem ho
    · rw [hbyte]
      exact List.getElem?_eq_getElem ho
    · rw [h.liveEntries_eq, List.getElem?_map, hb]
      rfl
    · rw [h.liveEntries_eq, ← List.map_drop, map_stored_bytes, stored_bytes]
      exact hrest.symm
  · intro hend
    rw [hcell, (findFpos_eq_none_iff h ha hsum _).mpr hend]

end Regular

/-- **POSITION TO BYTE**: for any entries, stored one after another, any 64-bit
    position and whatever the cell held, the look-up finds a byte exactly inside
    the concatenation of the ten latest entries, it is that byte, with the bytes
    behind it, and outside the cell is left alone. -/
theorem storeAll_findsBytes {ws : List (List β)} (h : Fits ws) {charOffset : Nat}
    (hc : charOffset < 2 ^ 64) (rtn : Nat) :
    FindsBytes (storeAll ws) (latest 10 ws).flatten charOffset rtn := by
  obtain ⟨q, hq, hreg, hitems⟩ := storeAll_represents ws h.sizes
  rw [← hitems]
  exact findsBytes_of_aligned hq hreg.aligned (by rw [hitems]; exact h.total) hc rtn

/-- Position 2 of `"ab"`, the empty entry and `"c"` is byte 0 of slot 2. -/
theorem storeAll_findsBytes_abc :
    findEntryOffsetForFposCell (storeAll ([[97, 98], [], [99]] : List (List UInt8))) 2 7
        = (some 2, 0) ∧
      FindsBytes (storeAll ([[97, 98], [], [99]] : List (List UInt8))) [97, 98, 99] 2 7 := by
  have hfits : Fits ([[97, 98], [], [99]] : List (List UInt8)) :=
    ⟨by decide +kernel, by decide +kernel⟩
  exact ⟨by decide +kernel, storeAll_findsBytes hfits (by decide) 7⟩

/-! ## The two look-ups against each other -/

/-- The look-ups are inverse to each other on this ring. -/
structure Inverse (buffer : AesdCircularBuffer β) : Prop where
  answers_iff : ∀ writeCmd off p i rtn,
    aesdCircularBufferFindEntryForIoctl buffer writeCmd off rtn = (some i, p) ↔
      i = (buffer.outOffs + writeCmd) % 10 ∧ writeCmd < 10 ∧
        aesdCircularBufferFindEntryOffsetForFpos buffer p = some (i, off)
  distinct    : ∀ writeCmd off writeCmd' off' p i i' rtn,
    aesdCircularBufferFindEntryForIoctl buffer writeCmd off rtn = (some i, p) →
    aesdCircularBufferFindEntryForIoctl buffer writeCmd' off' rtn = (some i', p) →
    writeCmd = writeCmd' ∧ off = off'
  onto        : ∀ p found rtn, aesdCircularBufferFindEntryOffsetForFpos buffer p = some found →
    ∃! pair : Nat × Nat, ∃ i,
      aesdCircularBufferFindEntryForIoctl buffer pair.1 pair.2 rtn = (some i, p)

section Inverse

variable {buffer : AesdCircularBuffer β} {q : SlotQueue 10 (List β)}

/-- Each look-up answers with what the other is asked. -/
theorem findIoctl_iff_findFpos (h : Represents buffer q) (ha : Aligned q)
    (hsum : q.items.flatten.length < 2 ^ 64) (writeCmd off p i rtn : Nat) :
    aesdCircularBufferFindEntryForIoctl buffer writeCmd off rtn = (some i, p) ↔
      i = (buffer.outOffs + writeCmd) % 10 ∧ writeCmd < 10 ∧
        aesdCircularBufferFindEntryOffsetForFpos buffer p = some (i, off) := by
  have ha' : q.items.length + q.gap = 10 := ha
  rw [findIoctl_eq_some_iff h ha hsum, findFpos_eq_some_iff h ha hsum]
  constructor
  · rintro ⟨b, hb, hoff, hp, hi⟩
    have hlt := (List.getElem?_eq_some_iff.mp hb).1
    exact ⟨hi, by omega, writeCmd, b, hb, hoff, hp, hi⟩
  · rintro ⟨hi, hcmd, j, b, hb, hoff, hp, hi'⟩
    -- two entries below ten at the same slot are the same entry
    have hlt := (List.getElem?_eq_some_iff.mp hb).1
    have hj : j = writeCmd := by omega
    subst hj
    exact ⟨b, hb, hoff, hp, hi⟩

/-- A position comes from one pair only. -/
theorem findIoctl_injective (h : Represents buffer q) (ha : Aligned q)
    (hsum : q.items.flatten.length < 2 ^ 64) {writeCmd off writeCmd' off' p i i' rtn : Nat}
    (hfind : aesdCircularBufferFindEntryForIoctl buffer writeCmd off rtn = (some i, p))
    (hfind' : aesdCircularBufferFindEntryForIoctl buffer writeCmd' off' rtn = (some i', p)) :
    writeCmd = writeCmd' ∧ off = off' := by
  obtain ⟨hi, hcmd, hpos⟩ := (findIoctl_iff_findFpos h ha hsum _ _ _ _ _).mp hfind
  obtain ⟨hi', hcmd', hpos'⟩ := (findIoctl_iff_findFpos h ha hsum _ _ _ _ _).mp hfind'
  have hpair := Option.some.inj (hpos.symm.trans hpos')
  have hsame : i = i' := congrArg Prod.fst hpair
  exact ⟨by omega, congrArg Prod.snd hpair⟩

/-- Every position that can be read comes from a pair. -/
theorem exists_findIoctl (h : Represents buffer q) (ha : Aligned q)
    (hsum : q.items.flatten.length < 2 ^ 64) {p i off : Nat} (rtn : Nat)
    (hfind : aesdCircularBufferFindEntryOffsetForFpos buffer p = some (i, off)) :
    ∃ writeCmd, aesdCircularBufferFindEntryForIoctl buffer writeCmd off rtn = (some i, p) := by
  have ha' : q.items.length + q.gap = 10 := ha
  obtain ⟨j, b, hb, -, -, hi⟩ := (findFpos_eq_some_iff h ha hsum _ _ _).mp hfind
  have hlt := (List.getElem?_eq_some_iff.mp hb).1
  exact ⟨j, (findIoctl_iff_findFpos h ha hsum _ _ _ _ _).mpr ⟨hi, by omega, hfind⟩⟩

end Inverse

/-- **INVERSE LOOK-UPS**: for any entries, stored one after another. -/
theorem storeAll_inverse {ws : List (List β)} (h : Fits ws) : Inverse (storeAll ws) := by
  obtain ⟨q, hq, hreg, hitems⟩ := storeAll_represents ws h.sizes
  have ha := hreg.aligned
  have hsum : q.items.flatten.length < 2 ^ 64 := by
    rw [hitems]
    exact h.total
  refine ⟨findIoctl_iff_findFpos hq ha hsum, ?_, ?_⟩
  · intro writeCmd off writeCmd' off' p i i' rtn hfind hfind'
    exact findIoctl_injective hq ha hsum hfind hfind'
  · rintro p ⟨i, off⟩ rtn hfind
    obtain ⟨writeCmd, hback⟩ := exists_findIoctl hq ha hsum rtn hfind
    refine ⟨(writeCmd, off), ⟨i, hback⟩, ?_⟩
    rintro ⟨writeCmd', off'⟩ ⟨i', hother⟩
    obtain ⟨hcmd, hoff⟩ := findIoctl_injective hq ha hsum hother hback
    exact Prod.ext hcmd hoff

/-- Byte 2 of the second oldest of eleven entries, and back. -/
theorem storeAll_inverse_eleven :
    aesdCircularBufferFindEntryForIoctl
        (storeAll (List.replicate 11 ([97, 98, 10] : List UInt8))) 1 2 0 = (some 2, 5) ∧
      aesdCircularBufferFindEntryOffsetForFpos
        (storeAll (List.replicate 11 ([97, 98, 10] : List UInt8))) 5 = some (2, 2) := by
  have hfits : Fits (List.replicate 11 ([97, 98, 10] : List UInt8)) :=
    ⟨by decide +kernel, by decide +kernel⟩
  have hfind : aesdCircularBufferFindEntryForIoctl
      (storeAll (List.replicate 11 ([97, 98, 10] : List UInt8))) 1 2 0 = (some 2, 5) := by
    decide +kernel
  exact ⟨hfind, ((storeAll_inverse hfits).answers_iff 1 2 5 2 0).mp hfind |>.2.2⟩

end AesdPosition
