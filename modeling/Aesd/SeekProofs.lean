import Aesd.HistoryProofs

/-! # Seeking by entry number

    `AESDCHAR_IOCSEEKTO` names an entry by its age and a byte inside it.  The
    ioctl checks the request twice: first against the slot of the array with
    that index, then through the walk from `out_offs`, whose refusal is only
    logged.  The two agree as long as nothing was evicted; afterwards the ring
    is rotated and they look at different entries.

    The main result says for which requests the ioctl nevertheless does what the
    request means, on every device reached by granted writes. -/

namespace AesdSeek

open AesdMachine AesdRing AesdLookup AesdDriver AesdHistory CyclicWindow CyclicQueue BlockLookup

variable {β : Type} [Octet β]

/-- The request names a byte of a live entry, entries counted from the oldest. -/
def InRange (d : AesdDev β) (s : AesdSeekto) : Prop :=
  ∃ e, (liveEntries d.bufferCircular)[s.writeCmd.toNat]? = some e ∧
    s.writeCmdOffset.toNat < e.size

/-- The position of that byte: the sizes of the older entries plus the offset. -/
def seekTarget (d : AesdDev β) (s : AesdSeekto) : Nat :=
  (((liveEntries d.bufferCircular).take s.writeCmd.toNat).map AesdBufferEntry.size).sum
    + s.writeCmdOffset.toNat

/-- The ioctl serves the request: it succeeds exactly on requests in range, moves
    to the position they name, and otherwise fails and leaves the position. -/
structure Serves (d : AesdDev β) (fPos : Int) (s : AesdSeekto) (result : Int × Int) : Prop where
  succeeds_iff : result.1 = 0 ↔ InRange d s
  moves        : InRange d s → result.2 = seekTarget d s
  fails        : ¬ InRange d s → result = (-EINVAL, fPos)

/-- The slot the ioctl checks and the slot the walk reaches agree on whether the
    offset lies inside. -/
def SlotsAgree (d : AesdDev β) (s : AesdSeekto) : Prop :=
  s.writeCmd.toNat < 10 →
    (s.writeCmdOffset.toNat < (d.bufferCircular.entry s.writeCmd.toNat).size ↔
      s.writeCmdOffset.toNat <
        (d.bufferCircular.entry ((d.bufferCircular.outOffs + s.writeCmd.toNat) % 10)).size)

section Regular

variable {d : AesdDev β} {q : SlotQueue 10 (List β)} {pending : List β}

/-- On an aligned ring the walk meets the live entries and then free slots. -/
theorem turn_eq_of_aligned (hm : Models d q pending) (ha : Aligned q) :
    turn d.bufferCircular = liveEntries d.bufferCircular ++ List.replicate q.gap freeSlot := by
  have ha' : q.items.length + q.gap = 10 := ha
  rw [hm.ring.turn_eq, hm.ring.liveEntries_eq,
    show 10 - q.items.length - q.gap = 0 by omega, List.replicate_zero, List.nil_append]

/-- A request is in range exactly when the offset lies inside the slot the walk
    reaches; free slots have size zero. -/
theorem inRange_iff (hm : Models d q pending) (ha : Aligned q) {s : AesdSeekto}
    (hcmd : s.writeCmd.toNat < 10) :
    InRange d s ↔ s.writeCmdOffset.toNat <
      (d.bufferCircular.entry ((d.bufferCircular.outOffs + s.writeCmd.toNat) % 10)).size := by
  have hslot : (turn d.bufferCircular)[s.writeCmd.toNat]?
      = some (d.bufferCircular.entry
        ((d.bufferCircular.outOffs + s.writeCmd.toNat) % 10)) := getElem?_window _ hcmd
  rw [turn_eq_of_aligned hm ha] at hslot
  rw [InRange]
  by_cases hlive : s.writeCmd.toNat < (liveEntries d.bufferCircular).length
  · rw [List.getElem?_append_left hlive] at hslot
    rw [hslot]
    constructor
    · rintro ⟨e, he, hoff⟩
      rw [Option.some.inj he]
      exact hoff
    · intro hoff
      exact ⟨_, rfl, hoff⟩
  · rw [List.getElem?_append_right (by omega), List.getElem?_replicate] at hslot
    rw [List.getElem?_eq_none (by omega)]
    have hfree : d.bufferCircular.entry
        ((d.bufferCircular.outOffs + s.writeCmd.toNat) % 10) = freeSlot := by
      split at hslot
      · exact (Option.some.inj hslot).symm
      · exact nomatch hslot
    rw [hfree]
    constructor
    · rintro ⟨e, he, -⟩
      exact nomatch he
    · intro hoff
      exact absurd hoff (Nat.not_lt_zero _)

/-- The position the walk answers with, on a request in range. -/
theorem findEntryForIoctl_inRange (hm : Models d q pending) (ha : Aligned q) {s : AesdSeekto}
    (hcmd : s.writeCmd.toNat < 10) (h : InRange d s) :
    loff (aesdCircularBufferFindEntryForIoctl d.bufferCircular s.writeCmd.toNat
      s.writeCmdOffset.toNat 0).2 = seekTarget d s := by
  have hread : readable q = q.items := if_pos ha
  have hbound := hm.bound
  obtain ⟨e, he, hoff⟩ := h
  rw [hm.ring.liveEntries_eq, List.getElem?_map] at he
  obtain ⟨b, hb, hbe⟩ := Option.map_eq_some_iff.mp he
  have hoff' : s.writeCmdOffset.toNat < b.length := by
    rw [← hbe] at hoff
    exact hoff
  have hstart : seekTarget d s = start q.items s.writeCmd.toNat + s.writeCmdOffset.toNat := by
    rw [seekTarget, start]
    rw [hm.ring.liveEntries_eq, ← List.map_take, List.map_map, List.length_flatten]
    rfl
  have hle := start_add_length_le hb
  have hsum : (readable q).flatten.length < 2 ^ 64 := by rw [hread]; omega
  rw [findEntryForIoctl_eq hm.ring hsum hcmd, hread, hb, hstart]
  show loff ((if s.writeCmdOffset.toNat < b.length then _ else _ : Option Nat × Nat).2 : Nat) = _
  rw [if_pos hoff']
  exact loff_natCast (by omega)

/-- Entries are numbered below ten. -/
theorem not_inRange_of_le (hm : Models d q pending) {s : AesdSeekto}
    (hcmd : 10 ≤ s.writeCmd.toNat) : ¬ InRange d s := by
  rintro ⟨e, he, -⟩
  have hfits := q.fits
  rw [hm.ring.liveEntries_eq, List.getElem?_eq_none (by rw [List.length_map]; omega)] at he
  exact nomatch he

/-- The slots agree when the slot that is checked tells whether the request is in
    range. -/
theorem slotsAgree_iff (hm : Models d q pending) (ha : Aligned q) {s : AesdSeekto}
    (hcmd : s.writeCmd.toNat < 10) :
    SlotsAgree d s ↔
      (s.writeCmdOffset.toNat < (d.bufferCircular.entry s.writeCmd.toNat).size ↔
        InRange d s) := by
  rw [inRange_iff hm ha hcmd]
  exact ⟨fun hs => hs hcmd, fun hs _ => hs⟩

end Regular

section Answers

variable {d : AesdDev β} {s : AesdSeekto}

omit [Octet β]

/-- An error serves the requests that are not in range. -/
theorem serves_error_iff (fPos : Int) : Serves d fPos s (-EINVAL, fPos) ↔ ¬ InRange d s := by
  have herr : (-EINVAL : Int) ≠ 0 := by decide
  constructor
  · intro hs hin
    exact herr (hs.succeeds_iff.mpr hin)
  · intro hnot
    exact ⟨⟨fun h0 => absurd h0 herr, fun hin => absurd hin hnot⟩,
      fun hin => absurd hin hnot, fun _ => rfl⟩

/-- A success that moves where it should serves the requests in range. -/
theorem serves_success_iff (fPos : Int) {p : Int} (hp : InRange d s → p = seekTarget d s) :
    Serves d fPos s (0, p) ↔ InRange d s := by
  constructor
  · intro hs
    exact hs.succeeds_iff.mp rfl
  · intro hin
    exact ⟨⟨fun _ => hin, fun _ => rfl⟩, hp, fun hnot => absurd hin hnot⟩

end Answers

/-- **WHEN THE SEEK IS RIGHT**: on every device reached by granted writes, for
    every position and every pair of 32-bit values, the ioctl serves the request
    if and only if the two slots it looks at agree on it. -/
theorem aesdIoctl_serves_iff {ws : List (List β)} {d : AesdDev β} (h : GrantedWrites ws d)
    (fPos : Int) (s : AesdSeekto) :
    Serves d fPos s (aesdIoctl d fPos aesdcharIocseekto (some s)) ↔ SlotsAgree d s := by
  obtain ⟨q, hm, hreg, -⟩ := grantedWrites_simulate h
  have ha := hreg.aligned
  rw [aesdIoctl_seekto]
  rw [seekTo]
  by_cases hcmd : s.writeCmd.toNat < 10
  · rw [if_neg (show ¬ s.writeCmd.toNat ≥ aesdcharMaxWriteOperationsSupported from
      Nat.not_le.mpr hcmd), slotsAgree_iff hm ha hcmd]
    by_cases hslot : s.writeCmdOffset.toNat < (d.bufferCircular.entry s.writeCmd.toNat).size
    · -- the first check passes: the answer is zero whatever the walk finds
      rw [if_neg (Nat.not_le.mpr hslot)]
      show Serves d fPos s (0, loff (aesdCircularBufferFindEntryForIoctl d.bufferCircular
        s.writeCmd.toNat s.writeCmdOffset.toNat 0).2) ↔ _
      rw [serves_success_iff fPos (findEntryForIoctl_inRange hm ha hcmd)]
      exact ⟨fun hin => ⟨fun _ => hin, fun _ => hslot⟩, fun hiff => hiff.mp hslot⟩
    · -- the first check fails: the answer is an error whatever the walk would find
      rw [if_pos (Nat.not_lt.mp hslot), serves_error_iff]
      exact ⟨fun hnot => ⟨fun hoff => absurd hoff hslot, fun hin => absurd hin hnot⟩,
        fun hiff hin => hslot (hiff.mpr hin)⟩
  · have hnot := not_inRange_of_le hm (Nat.not_lt.mp hcmd)
    rw [if_pos (show s.writeCmd.toNat ≥ aesdcharMaxWriteOperationsSupported from
      Nat.not_lt.mp hcmd), serves_error_iff]
    exact ⟨fun _ hlt => absurd hlt hcmd, fun _ => hnot⟩

omit [Octet β] in
/-- Before the first eviction the two slots are the same. -/
theorem slotsAgree_of_outOffs_zero {d : AesdDev β} (h : d.bufferCircular.outOffs = 0)
    (s : AesdSeekto) : SlotsAgree d s := by
  intro hcmd
  rw [h, Nat.zero_add, Nat.mod_eq_of_lt hcmd]

/-- The four lines `test1` to `test4` of the driver's test program. -/
def testLines : List (List UInt8) :=
  [49, 50, 51, 52].map fun digit => [116, 101, 115, 116, digit, 10]

/-- Eleven lines, each a byte longer than the one before; the last one takes slot 0. -/
def elevenLines : List (List UInt8) :=
  (List.range 11).map fun n => List.replicate n 97 ++ [10]

/-- The test program's request, byte 3 of line 1, is served with position 9.  After an
    eviction byte 1 of line 2 is, behind the five bytes of the two older lines. -/
theorem aesdIoctl_serves_requests :
    (aesdIoctl (writeAll testLines) 0 aesdcharIocseekto (some ⟨1, 3⟩) = (0, 9) ∧
      Serves (writeAll testLines) 0 ⟨1, 3⟩
        (aesdIoctl (writeAll testLines) 0 aesdcharIocseekto (some ⟨1, 3⟩))) ∧
    (writeAll elevenLines).bufferCircular.outOffs = 1 ∧
      aesdIoctl (writeAll elevenLines) 0 aesdcharIocseekto (some ⟨2, 1⟩) = (0, 6) ∧
      Serves (writeAll elevenLines) 0 ⟨2, 1⟩
        (aesdIoctl (writeAll elevenLines) 0 aesdcharIocseekto (some ⟨2, 1⟩)) := by
  refine ⟨⟨by decide +kernel, ?_⟩, by decide +kernel, by decide +kernel, ?_⟩
  · exact (aesdIoctl_serves_iff (grantedWrites_writeAll testLines (by decide)).1 0 ⟨1, 3⟩).mpr
      (slotsAgree_of_outOffs_zero (by decide +kernel) _)
  · refine (aesdIoctl_serves_iff (grantedWrites_writeAll elevenLines (by decide)).1 0
      ⟨2, 1⟩).mpr ?_
    rintro -
    decide +kernel

/-- The ring after ten lines `"\n"` and the line `"ab\n"`, which took slot 0. -/
def rotated : List (List UInt8) := List.replicate 10 [10] ++ [[97, 98, 10]]

/-- **A ROTATED RING**: byte 2 of the oldest entry does not exist, and the ioctl
    reports success and moves to the start of the file. -/
theorem aesdIoctl_rotated :
    GrantedWrites rotated (writeAll rotated) ∧
      aesdIoctl (writeAll rotated) 5 aesdcharIocseekto (some ⟨0, 2⟩) = (0, 0) ∧
      ¬ Serves (writeAll rotated) 5 ⟨0, 2⟩
        (aesdIoctl (writeAll rotated) 5 aesdcharIocseekto (some ⟨0, 2⟩)) := by
  have hgranted : GrantedWrites rotated (writeAll rotated) :=
    (grantedWrites_writeAll rotated (by decide)).1
  have hioctl : aesdIoctl (writeAll rotated) 5 aesdcharIocseekto (some ⟨0, 2⟩) = (0, 0) := by
    decide +kernel
  have holdest : ((liveEntries (writeAll rotated).bufferCircular)[0]?).map
      AesdBufferEntry.size = some 1 := by
    decide +kernel
  refine ⟨hgranted, hioctl, ?_⟩
  intro hs
  obtain ⟨e, he, hoff⟩ := hs.succeeds_iff.mp (congrArg Prod.fst hioctl)
  rw [show (liveEntries (writeAll rotated).bufferCircular)[0]? = some e from he] at holdest
  have hsize : e.size = 1 := Option.some.inj holdest
  rw [hsize] at hoff
  exact absurd hoff (by decide)

end AesdSeek
