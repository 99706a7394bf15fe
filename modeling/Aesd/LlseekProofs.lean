import Aesd.ReaderProofs
import Aesd.RingRunsProofs

/-! # The file position

    `aesd_llseek` has one branch per `whence`.  The first two check the position
    before they store it; the third stores what comes out of `size + offset`,
    and an unknown `whence` is answered with the old position.

    An open file is a device and a position, moved by reads, seeks and ioctls
    while others write.  As long as every seek from the end stays inside the
    representable positions the position is never negative, and then a single
    call does what it should exactly under that same condition. -/

namespace AesdLlseek

open AesdMachine AesdRing AesdLookup AesdDriver AesdHistory AesdReader AesdRingRuns
open CyclicQueue BlockLookup

variable {β : Type} [Octet β]

/-- Bytes stored in the ring. -/
def storedSize (d : AesdDev β) : Nat := (content d).length

/-- What an offset is added to. -/
def seekBase (d : AesdDev β) (fPos whence : Int) : Option Int :=
  if whence = 0 then some 0
  else if whence = 1 then some fPos
  else if whence = 2 then some (storedSize d)
  else none

/-- The position is one a file can have. -/
def IsPosition (x : Int) : Prop := 0 ≤ x ∧ x ≤ 2 ^ 63 - 1

/-- The call moves to the position it names, or fails and stays. -/
structure SeeksRight (d : AesdDev β) (fPos offset whence : Int) (result : Int × Int) : Prop where
  moves   : ∀ base, seekBase d fPos whence = some base → IsPosition (base + offset) →
    result = (base + offset, base + offset)
  refuses : ∀ base, seekBase d fPos whence = some base → ¬ IsPosition (base + offset) →
    result = (-EINVAL, fPos)
  unknown : seekBase d fPos whence = none → result = (-EINVAL, fPos)

/-- The branch checks the position, or needs no check. -/
def SeekChecked (d : AesdDev β) (offset whence : Int) : Prop :=
  whence = 0 ∨ whence = 1 ∨ whence = 2 ∧ IsPosition (storedSize d + offset)

section Branches

variable {d : AesdDev β}

omit [Octet β]

/-- What a right call does, by its base. -/
theorem seeksRight_iff {fPos offset whence base : Int} (result : Int × Int)
    (hbase : seekBase d fPos whence = some base) :
    SeeksRight d fPos offset whence result ↔
      (IsPosition (base + offset) → result = (base + offset, base + offset)) ∧
        (¬ IsPosition (base + offset) → result = (-EINVAL, fPos)) := by
  constructor
  · intro h
    exact ⟨h.moves base hbase, h.refuses base hbase⟩
  · rintro ⟨hmoves, hrefuses⟩
    refine ⟨?_, ?_, fun hnone => nomatch hbase.symm.trans hnone⟩
    · intro b hb
      rw [← Option.some.inj (hbase.symm.trans hb)]
      exact hmoves
    · intro b hb
      rw [← Option.some.inj (hbase.symm.trans hb)]
      exact hrefuses

theorem seekSet_right (fPos : Int) (offset : Int64) :
    SeeksRight d fPos offset.toInt 0 (aesdLlseek d fPos offset.toInt 0) := by
  have hohigh := offset.toInt_lt
  have hcall : aesdLlseek d fPos offset.toInt 0
      = if offset.toInt < 0 then (-EINVAL, fPos) else (offset.toInt, offset.toInt) := rfl
  rw [seeksRight_iff _ (show seekBase d fPos 0 = some 0 from rfl), hcall, Int.zero_add]
  constructor
  · rintro ⟨hge, -⟩
    rw [if_neg (by omega)]
  · intro hno
    rw [if_pos]
    by_contra hnn
    exact hno ⟨by omega, by omega⟩

/-- The sum is checked after it has wrapped, which is enough: a sum that is too
    large wraps once and comes out negative. -/
theorem seekCur_right {fPos : Int} (hpos : IsPosition fPos) (offset : Int64) :
    SeeksRight d fPos offset.toInt 1 (aesdLlseek d fPos offset.toInt 1) := by
  obtain ⟨hlow, hhigh⟩ := hpos
  have holow := offset.le_toInt
  have hohigh := offset.toInt_lt
  have hcall : aesdLlseek d fPos offset.toInt 1
      = if loff (fPos + offset.toInt) < 0 then (-EINVAL, fPos)
        else (loff (fPos + offset.toInt), loff (fPos + offset.toInt)) := rfl
  rw [seeksRight_iff _ (show seekBase d fPos 1 = some fPos from rfl), hcall]
  constructor
  · rintro ⟨hge, hle⟩
    rw [loff_eq (by omega) (by omega), if_neg (by omega)]
  · intro hno
    rw [if_pos]
    by_cases hbig : 2 ^ 63 ≤ fPos + offset.toInt
    · exact loff_neg_of_le hbig (by omega)
    · rw [loff_eq (by omega) (by omega)]
      by_contra hnn
      exact hno ⟨by omega, by omega⟩

/-- An unknown `whence` is answered as if nothing was wrong. -/
theorem seekUnknown_wrong {fPos : Int} (hpos : IsPosition fPos) {whence : Int} (offset : Int)
    (hbase : seekBase d fPos whence = none) :
    ¬ SeeksRight d fPos offset whence (aesdLlseek d fPos offset whence) := by
  intro h
  have hcall : aesdLlseek d fPos offset whence = (fPos, fPos) := by
    rw [seekBase] at hbase
    rw [aesdLlseek]
    split_ifs at hbase ⊢
    rfl
  have hret : fPos = -22 := congrArg Prod.fst (hcall.symm.trans (h.unknown hbase))
  have hlow := hpos.1
  omega

end Branches

section OneCall

variable {d : AesdDev β} {q : SlotQueue 10 (List β)} {pending : List β}

theorem storedSize_eq (hm : Models d q pending) : storedSize d = q.items.flatten.length := by
  rw [storedSize, content_eq hm]

theorem storedSize_lt (hm : Models d q pending) : storedSize d < 2 ^ 63 := content_length_lt hm

/-- The byte counter counts the bytes. -/
theorem size_eq_storedSize (hm : Models d q pending) :
    d.bufferCircular.size = storedSize d := by
  have hbound := hm.bound
  rw [storedSize_eq hm, hm.ring.size_eq, Nat.mod_eq_of_lt (by omega)]

/-- The third branch has no check. -/
theorem seekEnd_right_iff (hm : Models d q pending) {fPos : Int} (hpos : IsPosition fPos)
    (offset : Int64) :
    SeeksRight d fPos offset.toInt 2 (aesdLlseek d fPos offset.toInt 2) ↔
      IsPosition (storedSize d + offset.toInt) := by
  have holow := offset.le_toInt
  have hohigh := offset.toInt_lt
  have hsize := storedSize_lt hm
  have hcall : aesdLlseek d fPos offset.toInt 2
      = (loff (storedSize d + offset.toInt), loff (storedSize d + offset.toInt)) := by
    rw [← size_eq_storedSize hm]
    rfl
  rw [seeksRight_iff _ (show seekBase d fPos 2 = some (storedSize d : Int) from rfl), hcall]
  constructor
  · rintro ⟨-, hrefuses⟩
    by_contra hno
    -- the file would be at the number of an error
    have hres : loff (storedSize d + offset.toInt) = -22 := congrArg Prod.fst (hrefuses hno)
    have hstay : loff (storedSize d + offset.toInt) = fPos := congrArg Prod.snd (hrefuses hno)
    have hlow := hpos.1
    omega
  · rintro ⟨hge, hle⟩
    rw [loff_eq (by omega) (by omega)]
    exact ⟨fun _ => rfl, fun hno => absurd ⟨hge, hle⟩ hno⟩

/-- **ONE SEEK**: from a position a file can have, a call does what it should
    exactly when it is checked. -/
theorem aesdLlseek_seeksRight_iff (hm : Models d q pending) {fPos : Int}
    (hpos : IsPosition fPos) (offset : Int64) (whence : Int) :
    SeeksRight d fPos offset.toInt whence (aesdLlseek d fPos offset.toInt whence) ↔
      SeekChecked d offset.toInt whence := by
  rw [SeekChecked]
  by_cases hset : whence = 0
  · subst hset
    exact ⟨fun _ => Or.inl rfl, fun _ => seekSet_right fPos offset⟩
  · by_cases hcur : whence = 1
    · subst hcur
      exact ⟨fun _ => Or.inr (Or.inl rfl), fun _ => seekCur_right hpos offset⟩
    · by_cases hend : whence = 2
      · subst hend
        rw [seekEnd_right_iff hm hpos]
        exact ⟨fun h => Or.inr (Or.inr ⟨rfl, h⟩),
          fun h => ((h.resolve_left hset).resolve_left hcur).2⟩
      · have hbase : seekBase d fPos whence = none := by
          rw [seekBase, if_neg hset, if_neg hcur, if_neg hend]
        constructor
        · intro h
          exact absurd h (seekUnknown_wrong hpos _ hbase)
        · rintro (hfalse | hfalse | ⟨hfalse, -⟩)
          · exact absurd hfalse hset
          · exact absurd hfalse hcur
          · exact absurd hfalse hend

end OneCall

/-! ## The other calls that move the position -/

section Moves

variable {d : AesdDev β} {q : SlotQueue 10 (List β)} {pending : List β}

/-- What a read copies ends inside the content. -/
theorem aesdReadSource_le (hm : Models d q pending) {count n off k : Nat} (hn : n < 2 ^ 64)
    {entry : AesdBufferEntry β} (hsource : aesdReadSource d count n = some (entry, off, k)) :
    n + k ≤ storedSize d := by
  by_cases ha : Aligned q
  · by_cases hin : n < (content d).length
    · obtain ⟨entry', off', k', hsource', -, -, -, -, hend⟩ := aesdReadSource_spec hm ha count hin
      have hsame := Option.some.inj (hsource.symm.trans hsource')
      rw [show k = k' from congrArg (fun x => x.2.2) hsame]
      exact hend
    · rw [aesdReadSource_past hm ha count hn (Nat.not_lt.mp hin)] at hsource
      exact nomatch hsource
  · rw [aesdReadSource_beside hm ha count hn] at hsource
    exact nomatch hsource

theorem aesdRead_isPosition (hm : Models d q pending) {fPos : Int} (hpos : IsPosition fPos)
    (copyToUser : Bool) (count : Nat) :
    IsPosition (aesdRead copyToUser d count fPos).fPos := by
  obtain ⟨hlow, hhigh⟩ := hpos
  obtain ⟨n, rfl⟩ := Int.eq_ofNat_of_zero_le hlow
  have hsize := storedSize_lt hm
  rw [aesdRead]
  cases hsource : aesdReadSource d count n with
  | none => exact ⟨hlow, hhigh⟩
  | some source =>
      obtain ⟨entry, off, k⟩ := source
      have hend := aesdReadSource_le hm (by omega) hsource
      cases copyToUser with
      | false => exact ⟨hlow, hhigh⟩
      | true =>
          have hloff : loff ((n : Int) + (k : Int)) = ((n + k : Nat) : Int) := by
            rw [← Int.natCast_add]
            exact loff_natCast (by omega)
          simp only [if_true, hloff]
          exact ⟨Int.natCast_nonneg _, by omega⟩

/-- The bytes of one slot are among the bytes stored. -/
theorem entry_size_le (hm : Models d q pending) {i : Nat} (hi : i < 10) :
    (d.bufferCircular.entry i).size ≤ storedSize d := by
  rw [storedSize_eq hm, ← sum_sizes hm.ring]
  exact List.single_le_sum (fun _ _ => Nat.zero_le _) _
    (List.mem_map.mpr ⟨i, List.mem_range.mpr hi, rfl⟩)

/-- The position the look-up leaves behind, found or not, is before the end. -/
theorem findEntryForIoctl_lt (hm : Models d q pending) {writeCmd writeCmdOffset : Nat}
    (hcmd : writeCmd < 10) (hsome : 0 < storedSize d) :
    (aesdCircularBufferFindEntryForIoctl d.bufferCircular writeCmd writeCmdOffset 0).2
      < storedSize d := by
  have hread := hm.readable_bound
  have hle : (readable q).flatten.length ≤ storedSize d := by
    rw [storedSize_eq hm, readable]
    by_cases ha : Aligned q
    · rw [if_pos ha]
    · rw [if_neg ha]
      exact Nat.zero_le _
  rw [findEntryForIoctl_eq hm.ring (by omega) hcmd]
  cases hb : (readable q)[writeCmd]? with
  | none => exact hsome
  | some b =>
      have hstart := start_add_length_le hb
      by_cases hoff : writeCmdOffset < b.length
      · simp only [if_pos hoff]
        omega
      · simp only [if_neg hoff]
        exact hsome

/-- The call fails and stays, or succeeds and moves before the end. -/
def SeeksInside (d : AesdDev β) (fPos : Int) (result : Int × Int) : Prop :=
  (result.1 < 0 ∧ result.2 = fPos) ∨
    (result.1 = 0 ∧ ∃ n : Nat, n < storedSize d ∧ result.2 = n)

omit [Octet β] in
theorem seeksInside_error (d : AesdDev β) (fPos : Int) {e : Int} (he : 0 < e) :
    SeeksInside d fPos (-e, fPos) :=
  Or.inl ⟨Int.neg_neg_of_pos he, rfl⟩

theorem seekTo_seeksInside (hm : Models d q pending) (fPos : Int) (seekto : AesdSeekto) :
    SeeksInside d fPos (seekTo d fPos seekto) := by
  rw [seekTo]
  by_cases hcmd : seekto.writeCmd.toNat ≥ aesdcharMaxWriteOperationsSupported
  · rw [if_pos hcmd]
    exact seeksInside_error d fPos (by decide)
  · rw [if_neg hcmd]
    have hcmd' : seekto.writeCmd.toNat < 10 := Nat.not_le.mp hcmd
    by_cases hoff : seekto.writeCmdOffset.toNat ≥
        (d.bufferCircular.entry seekto.writeCmd.toNat).size
    · rw [if_pos hoff]
      exact seeksInside_error d fPos (by decide)
    · rw [if_neg hoff]
      -- the slot that was checked has a byte
      have hslot := entry_size_le hm hcmd'
      have hlt := @findEntryForIoctl_lt _ _ _ _ _ hm _ seekto.writeCmdOffset.toNat hcmd'
        (by omega)
      have hsize := storedSize_lt hm
      simp only [loff_natCast (Nat.lt_trans hlt hsize)]
      exact Or.inr ⟨rfl, _, hlt, rfl⟩

/-- **WHAT AN IOCTL CAN DO**, whatever the request. -/
theorem aesdIoctl_seeksInside (hm : Models d q pending) (fPos : Int) (cmd : UInt32)
    (arg : Option AesdSeekto) : SeeksInside d fPos (aesdIoctl d fPos cmd arg) := by
  cases arg with
  | none =>
      rw [aesdIoctl]
      split_ifs
      · exact seeksInside_error d fPos (by decide)
      · exact seeksInside_error d fPos (by decide)
      · exact seeksInside_error d fPos (by decide)
      · exact seeksInside_error d fPos (by decide)
  | some seekto =>
      rw [aesdIoctl]
      split_ifs
      · exact seeksInside_error d fPos (by decide)
      · exact seeksInside_error d fPos (by decide)
      · exact seekTo_seeksInside hm fPos seekto
      · exact seeksInside_error d fPos (by decide)

end Moves

/-! ## Runs of an open file -/

/-- A file description: the device behind it, which others write too, and its
    position. -/
structure OpenFile (β : Type) where
  dev  : AesdDev β
  fPos : Int

/-- A call on the file, or a write to its device from anywhere. -/
inductive FileCall (β : Type) where
  | write (env : WriteEnv) (buf : List β)
  | read (copyToUser : Bool) (count : Nat)
  | ioctl (cmd : UInt32) (arg : Option AesdSeekto)
  | llseek (offset : Int64) (whence : Int)

/-- The file after the call. -/
def fileCall (file : OpenFile β) : FileCall β → OpenFile β
  | .write env buf => ⟨(aesdWrite env file.dev buf).1, file.fPos⟩
  | .read copyToUser count => ⟨file.dev, (aesdRead copyToUser file.dev count file.fPos).fPos⟩
  | .ioctl cmd arg => ⟨file.dev, (aesdIoctl file.dev file.fPos cmd arg).2⟩
  | .llseek offset whence => ⟨file.dev, (aesdLlseek file.dev file.fPos offset.toInt whence).2⟩

/-- The file after a list of calls. -/
def fileRun (file : OpenFile β) (calls : List (FileCall β)) : OpenFile β :=
  calls.foldl fileCall file

theorem fileRun_concat (file : OpenFile β) (calls : List (FileCall β)) (call : FileCall β) :
    fileRun file (calls ++ [call]) = fileCall (fileRun file calls) call := by
  rw [fileRun, List.foldl_append]
  rfl

/-- Every seek of the run satisfies `P`, the file being as the seek finds it. -/
def EverySeek (P : OpenFile β → Int → Int → Prop) (file : OpenFile β)
    (calls : List (FileCall β)) : Prop :=
  ∀ pre (offset : Int64) whence, pre ++ [.llseek offset whence] <+: calls →
    P (fileRun file pre) offset.toInt whence

theorem everySeek_nil (P : OpenFile β → Int → Int → Prop) (file : OpenFile β) :
    EverySeek P file [] := by
  intro pre offset whence hpre
  exact absurd (List.prefix_nil.mp hpre) (List.append_ne_nil_of_right_ne_nil _ (by simp))

theorem everySeek_concat {P : OpenFile β → Int → Int → Prop} {file : OpenFile β}
    {calls : List (FileCall β)} {call : FileCall β} :
    EverySeek P file (calls ++ [call]) ↔ EverySeek P file calls ∧
      ∀ offset whence, call = .llseek offset whence →
        P (fileRun file calls) offset.toInt whence := by
  constructor
  · intro h
    refine ⟨fun pre offset whence hpre => h pre offset whence
      (hpre.trans (List.prefix_append _ _)), ?_⟩
    rintro offset whence rfl
    exact h calls offset whence List.prefix_rfl
  · rintro ⟨hbefore, hlast⟩ pre offset whence hpre
    rcases List.prefix_concat_iff.mp hpre with heq | hin
    · obtain ⟨rfl, hcall⟩ := List.append_inj' heq rfl
      exact hlast offset whence (List.singleton_inj.mp hcall).symm
    · exact hbefore pre offset whence hin

/-- The seeks of the run all do what they should. -/
def AllSeekRight (file : OpenFile β) (calls : List (FileCall β)) : Prop :=
  EverySeek (fun f offset whence =>
    SeeksRight f.dev f.fPos offset whence (aesdLlseek f.dev f.fPos offset whence)) file calls

/-- The seeks of the run are all checked. -/
def AllSeekChecked (file : OpenFile β) (calls : List (FileCall β)) : Prop :=
  EverySeek (fun f offset whence => SeekChecked f.dev offset whence) file calls

section Runs

variable {d : AesdDev β} {fPos : Int}

omit [Octet β] in
/-- A right call leaves the file at a position. -/
theorem SeeksRight.isPosition {offset whence : Int} {result : Int × Int}
    (h : SeeksRight d fPos offset whence result) (hpos : IsPosition fPos) :
    IsPosition result.2 := by
  cases hbase : seekBase d fPos whence with
  | none =>
      rw [h.unknown hbase]
      exact hpos
  | some base =>
      by_cases hok : IsPosition (base + offset)
      · rw [h.moves base hbase hok]
        exact hok
      · rw [h.refuses base hbase hok]
        exact hpos

/-- The invariant of a file: its device stores something and its position is one. -/
structure Sound (file : OpenFile β) : Prop where
  stores : ∃ q pending, Models file.dev q pending
  isPos  : IsPosition file.fPos

/-- The step lemma. -/
theorem Sound.call {file : OpenFile β} (h : Sound file) (call : FileCall β)
    (hseek : ∀ offset whence, call = .llseek offset whence →
      SeekChecked file.dev offset.toInt whence) : Sound (fileCall file call) := by
  obtain ⟨⟨q, pending, hm⟩, hpos⟩ := h
  cases call with
  | write env buf => exact ⟨hm.write env buf, hpos⟩
  | read copyToUser count =>
      exact ⟨⟨q, pending, hm⟩, aesdRead_isPosition hm hpos copyToUser count⟩
  | ioctl cmd arg =>
      refine ⟨⟨q, pending, hm⟩, ?_⟩
      have hsize := storedSize_lt hm
      show IsPosition (aesdIoctl file.dev file.fPos cmd arg).2
      rcases aesdIoctl_seeksInside hm file.fPos cmd arg with ⟨-, hstay⟩ | ⟨-, n, hn, hmove⟩
      · rw [hstay]
        exact hpos
      · rw [hmove]
        exact ⟨Int.natCast_nonneg n, by omega⟩
  | llseek offset whence =>
      exact ⟨⟨q, pending, hm⟩, SeeksRight.isPosition
        ((aesdLlseek_seeksRight_iff hm hpos offset whence).mpr (hseek offset whence rfl)) hpos⟩

/-- A file just opened on a reachable device. -/
theorem sound_open (hd : Reachable d) : Sound ⟨d, 0⟩ :=
  ⟨hd.models, show IsPosition 0 from ⟨Int.le_refl 0, by decide⟩⟩

/-- The run lemma. -/
theorem fileRun_sound {file : OpenFile β} (h : Sound file) {calls : List (FileCall β)}
    (hseek : AllSeekChecked file calls) :
    ∀ pre, pre <+: calls → Sound (fileRun file pre) := by
  intro pre
  induction pre using List.reverseRecOn with
  | nil => exact fun _ => h
  | append_singleton pre call ih =>
      intro hpre
      rw [fileRun_concat]
      refine (ih ((List.prefix_append _ _).trans hpre)).call call ?_
      rintro offset whence rfl
      exact hseek pre offset whence hpre

end Runs

/-- A seek after checked seeks is right exactly when it is checked, so along a
    run the two go together. -/
theorem allSeekRight_iff {file : OpenFile β} (h : Sound file) (calls : List (FileCall β)) :
    AllSeekRight file calls ↔ AllSeekChecked file calls := by
  induction calls using List.reverseRecOn with
  | nil => exact ⟨fun _ => everySeek_nil _ _, fun _ => everySeek_nil _ _⟩
  | append_singleton calls call ih =>
      rw [AllSeekRight, AllSeekChecked, everySeek_concat, everySeek_concat]
      refine (and_congr_left' ih).trans (and_congr_right fun hchecked => ?_)
      obtain ⟨⟨q, pending, hm⟩, hpos⟩ := fileRun_sound h hchecked calls List.prefix_rfl
      have hone := aesdLlseek_seeksRight_iff hm hpos
      exact ⟨fun hr offset whence hc => (hone offset whence).mp (hr offset whence hc),
        fun hc offset whence heq => (hone offset whence).mpr (hc offset whence heq)⟩

/-- **WHEN SEEKING IS RIGHT**: on a file opened on any reachable device, in any run
    of its calls among writes, every seek does what it should exactly when every
    seek is checked, and then the position is never negative. -/
theorem fileRun_seeksRight {d : AesdDev β} (hd : Reachable d) (calls : List (FileCall β)) :
    (AllSeekRight ⟨d, 0⟩ calls ↔ AllSeekChecked ⟨d, 0⟩ calls) ∧
      (AllSeekChecked ⟨d, 0⟩ calls →
        ∀ pre, pre <+: calls → 0 ≤ (fileRun ⟨d, 0⟩ pre).fPos) :=
  ⟨allSeekRight_iff (sound_open hd) calls,
    fun hchecked pre hpre => (fileRun_sound (sound_open hd) hchecked pre hpre).isPos.1⟩

/-- On the line `"a\n"`: to its last byte, then further back than there is. -/
theorem fileRun_seeksRight_line :
    Reachable (writeAll [[97, 10]] : AesdDev UInt8) ∧
      AllSeekRight (⟨writeAll [[97, 10]], 0⟩ : OpenFile UInt8) [.llseek (-1) 2, .llseek (-2) 1] ∧
      (fileRun (⟨writeAll [[97, 10]], 0⟩ : OpenFile UInt8)
        [.llseek (-1) 2, .llseek (-2) 1]).fPos = 1 := by
  have hreach : Reachable (writeAll [[97, 10]] : AesdDev UInt8) := .write _ _ .init
  refine ⟨hreach, (fileRun_seeksRight hreach _).1.mpr ?_, by decide +kernel⟩
  refine (@everySeek_concat _ _ _ _ [.llseek (-1) 2] _).mpr ⟨?_, ?_⟩
  · refine (@everySeek_concat _ _ _ _ [] _).mpr ⟨everySeek_nil _ _, ?_⟩
    rintro offset whence ⟨⟩
    exact Or.inr (Or.inr ⟨rfl, by decide +kernel, by decide +kernel⟩)
  · rintro offset whence ⟨⟩
    exact Or.inr (Or.inl rfl)

/-- **A NEGATIVE POSITION**: one byte before the end of an empty device.  The call
    answers `-1`, which is no `-EINVAL`, and the file stays at position `-1`. -/
theorem aesdLlseek_negative :
    Reachable (aesdInitModule : AesdDev UInt8) ∧
      aesdLlseek (aesdInitModule : AesdDev UInt8) 0 (-1 : Int64).toInt 2 = (-1, -1) ∧
      (fileRun (⟨aesdInitModule, 0⟩ : OpenFile UInt8) [.llseek (-1) 2]).fPos < 0 ∧
      ¬ AllSeekRight (⟨aesdInitModule, 0⟩ : OpenFile UInt8) [.llseek (-1) 2] := by
  have hcall : aesdLlseek (aesdInitModule : AesdDev UInt8) 0 (-1 : Int64).toInt 2 = (-1, -1) := by
    decide +kernel
  refine ⟨.init, hcall, by decide +kernel, ?_⟩
  intro hright
  have hs : SeeksRight (aesdInitModule : AesdDev UInt8) 0 (-1 : Int64).toInt 2
      (aesdLlseek (aesdInitModule : AesdDev UInt8) 0 (-1 : Int64).toInt 2) :=
    hright [] (-1) 2 List.prefix_rfl
  have hrefused := hs.refuses 0 rfl (by rintro ⟨hge, -⟩; exact absurd hge (by decide))
  exact absurd (congrArg Prod.fst (hcall.symm.trans hrefused)) (by decide)

/-! ## The end of the file -/

/-- `E` is the end of the file for reads and for the seek ioctl. -/
structure EndsAt (d : AesdDev β) (E : Int) : Prop where
  inside : ∀ count, 0 < count → ∀ pos : Int, 0 ≤ pos → pos < E →
    1 ≤ (aesdRead true d count pos).ret
  past   : ∀ count, 0 < count → ∀ pos : Int, E ≤ pos → pos < 2 ^ 63 →
    (aesdRead true d count pos).ret = 0
  seeks  : ∀ fPos cmd arg, (aesdIoctl d fPos cmd arg).1 = 0 → (aesdIoctl d fPos cmd arg).2 < E

/-- The bytes stored are the end of the file, where the walk meets all of them. -/
theorem endsAt_storedSize {d : AesdDev β} {q : SlotQueue 10 (List β)} {pending : List β}
    (hm : Models d q pending) (ha : Aligned q) : EndsAt d (storedSize d) := by
  have hsize := storedSize_lt hm
  refine ⟨?_, ?_, ?_⟩
  · intro count hcount pos hlow hlt
    obtain ⟨n, rfl⟩ := Int.eq_ofNat_of_zero_le hlow
    rcases aesdRead_spec hm ha count (n := n) (by omega) with ⟨-, k, hk, -, hread⟩ | ⟨hend, -⟩
    · have hkpos := hk hcount
      rw [hread]
      show (1 : Int) ≤ (k : Int)
      omega
    · have hend' : storedSize d ≤ n := hend
      omega
  · intro count _ pos hge hlt
    obtain ⟨n, rfl⟩ := Int.eq_ofNat_of_zero_le (show 0 ≤ pos by omega)
    rcases aesdRead_spec hm ha count (n := n) (by omega) with ⟨hin, -⟩ | ⟨-, hread⟩
    · have hin' : n < storedSize d := hin
      omega
    · rw [hread]
  · intro fPos cmd arg hok
    rcases aesdIoctl_seeksInside hm fPos cmd arg with ⟨hneg, -⟩ | ⟨-, n, hn, hmove⟩
    · omega
    · rw [hmove]
      omega

/-- **ONE END OF FILE**: after any granted writes, the position that `SEEK_END`
    reports, from wherever it is asked, is the one at which reads end and which no
    seek ioctl reaches. -/
theorem seekEnd_endsAt {ws : List (List β)} {d : AesdDev β} (h : GrantedWrites ws d)
    (fPos : Int) : EndsAt d (aesdLlseek d fPos 0 2).1 := by
  obtain ⟨q, hm, hreg, -⟩ := grantedWrites_simulate h
  have hend : (aesdLlseek d fPos 0 2).1 = storedSize d := by
    rw [aesdLlseek, if_neg (by decide), if_neg (by decide), if_pos rfl]
    simp only [Int.add_zero, size_eq_storedSize hm, loff_natCast (storedSize_lt hm)]
  rw [hend]
  exact endsAt_storedSize hm hreg.aligned

/-- Eleven lines of two bytes: the oldest is gone and the file ends at 20. -/
theorem seekEnd_endsAt_eleven :
    GrantedWrites (List.replicate 11 [97, 10]) (writeAll (List.replicate 11 [97, 10]) :
        AesdDev UInt8) ∧
      aesdLlseek (writeAll (List.replicate 11 [97, 10]) : AesdDev UInt8) 3 0 2 = (20, 20) ∧
      EndsAt (writeAll (List.replicate 11 [97, 10]) : AesdDev UInt8) 20 := by
  have hgranted := (grantedWrites_writeAll (List.replicate 11 ([97, 10] : List UInt8))
    (by decide)).1
  have hend : aesdLlseek (writeAll (List.replicate 11 [97, 10]) : AesdDev UInt8) 3 0 2
      = (20, 20) := by decide +kernel
  have hends := seekEnd_endsAt hgranted 3
  rw [hend] at hends
  exact ⟨hgranted, hend, hends⟩

end AesdLlseek
