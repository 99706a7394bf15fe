import Aesd.KernelMemoryProofs

/-! # The file operations over kernel memory

    `main.c` of the driver, with its pointers: `aesd_write` and every path out of
    it, `aesd_read`, `aesd_llseek` and `aesd_ioctl`.

    `Backs rest dev d cells` says that `cells` is the memory of the device `d`
    behind the pointers `dev`, and `rest`.  Each operation has one lemma: from
    such cells it commits no memory error, returns what the operation of
    `DriverProofs` returns, and leaves the memory of the device afterwards.
    Runs of operations follow by induction. -/

namespace AesdKernel

open AesdMachine AesdDriver CheckedHeap

variable {β : Type} [Octet β]

/-! ## `aesd_write` -/

/-- The scan for a newline, from byte `i` on. -/
def scanNewline (kbuf : Nat) : Nat → Nat → KernelM β Bool
  | 0, _ => pure false
  | left + 1, i => do
      if (← loadBytes kbuf i 1).any isNewline then pure true else scanNewline kbuf left (i + 1)

/-- The branch of `aesd_write` for a newline with nothing pending. -/
def commitAlone (env : WriteEnv) (dev : AesdDevice) (kbuf count : Nat) : KernelM β Int := do
  aesdCircularBufferAddEntry env.entry dev.bufferCircular kbuf count
  kfree (some kbuf)
  pure count

/-- The branch of `aesd_write` for a newline that ends pending bytes. -/
def commitPending (env : WriteEnv) (dev : AesdDevice) (kbuf count : Nat) : KernelM β Int := do
  if ← aesdTemperaryBufferAdd env.temperary dev.bufferTemperary kbuf count then do
    let b ← loadTemperary dev.bufferTemperary
    aesdCircularBufferAddEntry env.entry dev.bufferCircular (← orFail b.buffptr) b.size
    aesdTemperaryBufferDelete dev.bufferTemperary
    kfree (some kbuf)
    pure count
  else do
    kfree (some kbuf)
    pure (-ENOMEM)

/-- The branch of `aesd_write` without a newline. -/
def keepPending (env : WriteEnv) (dev : AesdDevice) (kbuf count : Nat) : KernelM β Int := do
  if ← aesdTemperaryBufferAdd env.temperary dev.bufferTemperary kbuf count then do
    kfree (some kbuf)
    pure count
  else do
    kfree (some kbuf)
    pure (-ENOMEM)

/-- `aesd_write`. -/
def aesdWrite (env : WriteEnv) (dev : AesdDevice) (buf : List β) : KernelM β Int := do
  match ← kmalloc env.kbuf buf.length with
  | none => pure (-ENOMEM)
  | some kbuf =>
      if env.copyFromUser = false then do
        kfree (some kbuf)
        pure (-EFAULT)
      else do
        storeBytes kbuf 0 buf
        if ← scanNewline kbuf buf.length 0 then do
          if ← aesdTemperaryBufferIsEmpty dev.bufferTemperary then
            commitAlone env dev kbuf buf.length
          else commitPending env dev kbuf buf.length
        else keepPending env dev kbuf buf.length

/-! ## Reading and seeking -/

/-- The loop of `aesd_circular_buffer_find_entry_offset_for_fpos`. -/
def findEntryOffsetForFposLoop (buffer : AesdCircularBuffer) (charOffset : Nat) :
    Nat → Nat → Nat → Option (Nat × Nat)
  | 0, _, _ => none
  | left + 1, currentOffset, bufferIndex =>
      if (buffer.entry bufferIndex).buffptr.isSome then
        if currentOffset ≤ charOffset ∧
            charOffset < sizeAdd currentOffset (buffer.entry bufferIndex).size then
          some (bufferIndex, charOffset - currentOffset)
        else
          findEntryOffsetForFposLoop buffer charOffset left
            (sizeAdd currentOffset (buffer.entry bufferIndex).size) (AesdRing.nextOffs bufferIndex)
      else none

/-- `aesd_circular_buffer_find_entry_offset_for_fpos`. -/
def aesdCircularBufferFindEntryOffsetForFpos (buffer : AesdCircularBuffer) (charOffset : Nat) :
    Option (Nat × Nat) :=
  findEntryOffsetForFposLoop buffer charOffset AesdRing.aesdcharMaxWriteOperationsSupported 0
    buffer.outOffs

/-- The loop of `aesd_circular_buffer_find_entry_for_ioctl`. -/
def findEntryForIoctlLoop (buffer : AesdCircularBuffer) (writeCmd writeCmdOffset : Nat) :
    Nat → Nat → Nat → Nat → Option Nat × Nat
  | 0, _, _, _ => (none, 0)
  | left + 1, i, currentOffset, bufferIndex =>
      if (buffer.entry bufferIndex).buffptr.isSome then
        if i = writeCmd then
          if writeCmdOffset ≥ (buffer.entry bufferIndex).size then (none, 0)
          else (some bufferIndex, sizeAdd currentOffset writeCmdOffset)
        else
          findEntryForIoctlLoop buffer writeCmd writeCmdOffset left (i + 1)
            (sizeAdd currentOffset (buffer.entry bufferIndex).size) (AesdRing.nextOffs bufferIndex)
      else (none, 0)

/-- `aesd_circular_buffer_find_entry_for_ioctl`. -/
def aesdCircularBufferFindEntryForIoctl (buffer : AesdCircularBuffer)
    (writeCmd writeCmdOffset rtn : Nat) : Option Nat × Nat :=
  if writeCmd ≥ AesdRing.aesdcharMaxWriteOperationsSupported then (none, rtn)
  else
    findEntryForIoctlLoop buffer writeCmd writeCmdOffset
      AesdRing.aesdcharMaxWriteOperationsSupported 0 0 buffer.outOffs

/-- `aesd_read`.  A copy to user space that fails has still read the block. -/
def aesdRead (copyToUser : Bool) (dev : AesdDevice) (count : Nat) (fPos : Int) :
    KernelM β (ReadResult β) := do
  let ring ← loadCircular dev.bufferCircular
  match aesdCircularBufferFindEntryOffsetForFpos ring (sizeOfInt fPos) with
  | none => pure ⟨0, [], fPos⟩
  | some (i, entryOffset) => do
      let toCopy := min count (sizeSub (ring.entry i).size entryOffset)
      let data ← loadBytes (← orFail (ring.entry i).buffptr) entryOffset toCopy
      pure (if copyToUser then ⟨toCopy, data, loff (fPos + toCopy)⟩ else ⟨-EFAULT, [], fPos⟩)

/-- `aesd_llseek`; only `SEEK_END` reads the ring. -/
def aesdLlseek (dev : AesdDevice) (fPos offset whence : Int) : KernelM β (Int × Int) :=
  if whence = 0 then
    pure (if offset < 0 then (-EINVAL, fPos) else (offset, offset))
  else if whence = 1 then
    pure (if loff (fPos + offset) < 0 then (-EINVAL, fPos)
      else (loff (fPos + offset), loff (fPos + offset)))
  else if whence = 2 then do
    let ring ← loadCircular dev.bufferCircular
    pure (loff (ring.size + offset), loff (ring.size + offset))
  else pure (fPos, fPos)

/-- The part of `aesd_ioctl` that serves a request already copied in. -/
def seekTo (dev : AesdDevice) (fPos : Int) (seekto : AesdSeekto) : KernelM β (Int × Int) :=
  if seekto.writeCmd.toNat ≥ AesdRing.aesdcharMaxWriteOperationsSupported then
    pure (-EINVAL, fPos)
  else do
    let ring ← loadCircular dev.bufferCircular
    if seekto.writeCmdOffset.toNat ≥ (ring.entry seekto.writeCmd.toNat).size then
      pure (-EINVAL, fPos)
    else
      let found := aesdCircularBufferFindEntryForIoctl ring seekto.writeCmd.toNat
        seekto.writeCmdOffset.toNat 0
      pure (0, loff found.2)

/-- `aesd_ioctl`. -/
def aesdIoctl (dev : AesdDevice) (fPos : Int) (cmd : UInt32) (arg : Option AesdSeekto) :
    KernelM β (Int × Int) :=
  if (cmd >>> 8) &&& 0xff ≠ aesdIocMagic then pure (-EINVAL, fPos)
  else if cmd &&& 0xff > aesdcharIocMaxnr then pure (-EINVAL, fPos)
  else if cmd = aesdcharIocseekto then
    match arg with
    | none => pure (-EFAULT, fPos)
    | some seekto => seekTo dev fPos seekto
  else pure (-EINVAL, fPos)

/-! ## The memory of a device -/

/-- The cells are the memory of the device `d`, whose pointers are `dev`, and
    the blocks `rest`. -/
inductive Backs (rest : Multiset (Nat × Block β)) :
    AesdDevice → AesdDev β → Multiset (Nat × Block β) → Prop where
  | intro {pt pc : Nat} {t : AesdTemperaryBuffer} {r : AesdCircularBuffer} {d : AesdDev β} :
      SameTemperary t d.bufferTemperary → SameRing r d.bufferCircular →
      Backs rest ⟨some pt, some pc⟩ d
        (temperaryCells pt t d.bufferTemperary (circularCells pc r d.bufferCircular rest))

section Cells

variable {rest : Multiset (Nat × Block β)} {pt pc : Nat} {t : AesdTemperaryBuffer}
  {t' : AesdTemperary.AesdTemperaryBuffer β} {r : AesdCircularBuffer}
  {r' : AesdRing.AesdCircularBuffer β}

omit [Octet β] in
theorem cons_temperaryCells (c : Nat × Block β) :
    c ::ₘ temperaryCells pt t t' rest = temperaryCells pt t t' (c ::ₘ rest) := by
  simp only [temperaryCells, ← Multiset.singleton_add]
  abel

omit [Octet β] in
theorem cons_circularCells (c : Nat × Block β) :
    c ::ₘ circularCells pc r r' rest = circularCells pc r r' (c ::ₘ rest) := by
  simp only [circularCells, ← Multiset.singleton_add]
  abel

omit [Octet β] in
theorem temperaryCells_circularCells :
    temperaryCells pt t t' (circularCells pc r r' rest)
      = circularCells pc r r' (temperaryCells pt t t' rest) := by
  simp only [temperaryCells, circularCells, ← Multiset.singleton_add]
  abel

omit [Octet β] in
theorem mem_temperaryCells {c : Nat × Block β} (h : c ∈ rest) :
    c ∈ temperaryCells pt t t' rest :=
  Multiset.mem_cons_of_mem (Multiset.mem_add.mpr (Or.inr h))

omit [Octet β] in
theorem mem_circularCells {c : Nat × Block β} (h : c ∈ rest) : c ∈ circularCells pc r r' rest :=
  Multiset.mem_cons_of_mem (Multiset.mem_add.mpr (Or.inr h))

/-- How much memory a device takes. -/
theorem Backs.totalSize_eq {dev : AesdDevice} {d : AesdDev β} {cells : Multiset (Nat × Block β)}
    (h : Backs rest dev d cells) {q : CyclicQueue.SlotQueue 10 (List β)} {pending : List β}
    (hm : Models d q pending) :
    totalSize Block.size cells
      = sizeofTemperary + sizeofCircular + d.inUse + totalSize Block.size rest := by
  cases h with
  | intro ht hr =>
      rw [totalSize_temperaryCells ht hm.temp, totalSize_circularCells hr hm.ring, hm.inUse_eq]
      omega

end Cells

/-! ## What a write does -/

theorem scanNewline_safe {buf : List β} {kbuf : Nat} {cells : Multiset (Nat × Block β)}
    (hin : (kbuf, .bytes (written buf)) ∈ cells) :
    ∀ (left i : Nat), i + left = buf.length → ∀ {Q : Bool → Multiset (Nat × Block β) → Prop},
      Q (hasNewline (buf.drop i)) cells → Safe cells (scanNewline kbuf left i) Q := by
  intro left
  induction left with
  | zero =>
      intro i hi Q hq
      rw [List.drop_eq_nil_of_le (by omega)] at hq
      exact Safe.ret hq
  | succ left ih =>
      intro i hi Q hq
      have hlt : i < buf.length := by omega
      rw [scanNewline]
      refine Safe.bind (loadBytes_safe hin (by omega) ?_)
      rw [List.drop_eq_getElem_cons hlt] at hq ⊢
      rw [List.take_succ_cons, List.take_zero, List.any_cons, List.any_nil, Bool.or_false]
      rw [hasNewline, List.any_cons] at hq
      cases hb : isNewline buf[i] with
      | true =>
          rw [hb, Bool.true_or] at hq
          exact Safe.ret hq
      | false =>
          rw [hb, Bool.false_or] at hq
          exact ih (i + 1) (by omega) hq

/-- The kernel answered `env'` where `env` was granted: nothing beyond it, and
    all of it when there is room. -/
structure Serves (env env' : WriteEnv) (room : Prop) : Prop where
  kbuf         : env'.kbuf = true → env.kbuf = true
  copyFromUser : env'.copyFromUser = env.copyFromUser
  temperary    : env'.temperary = true → env.temperary = true
  entry        : env'.entry = true → env.entry = true
  all          : room → env' = env

/-- Room for everything a write can ask for at once. -/
def roomFor (used inUse count : Nat) : Prop := used + 3 * (inUse + count) < kernelSpace

/-- The result and the memory of a write of `DriverProofs`. -/
def Writes (rest : Multiset (Nat × Block β)) (used : Nat) (env : WriteEnv) (dev : AesdDevice)
    (d : AesdDev β) (buf : List β) (ret : Int) (cells : Multiset (Nat × Block β)) : Prop :=
  ∃ env', Serves env env' (roomFor used d.inUse buf.length) ∧
    ret = (AesdDriver.aesdWrite env' d buf).2 ∧
    Backs rest dev (AesdDriver.aesdWrite env' d buf).1 cells

theorem Answers.eq_of_room {granted got : Bool} {inUse size : Nat}
    (h : Answers granted inUse size got) (hroom : inUse + size < kernelSpace) :
    got = granted := by
  cases granted with
  | true => exact h.fits rfl hroom
  | false => exact Bool.eq_false_iff.mpr fun hgot => nomatch h.only hgot

section Write

variable {rest : Multiset (Nat × Block β)} {pt pc kbuf : Nat} {t : AesdTemperaryBuffer}
  {r : AesdCircularBuffer} {d : AesdDev β} {q : CyclicQueue.SlotQueue 10 (List β)}
  {pending buf : List β} {env : WriteEnv}

/-- The memory during a write: the device's, the kernel buffer and the rest. -/
private def duringWrite (pt pc : Nat) (t : AesdTemperaryBuffer) (r : AesdCircularBuffer)
    (t' : AesdTemperary.AesdTemperaryBuffer β) (r' : AesdRing.AesdCircularBuffer β) (kbuf : Nat)
    (buf : List β) (rest : Multiset (Nat × Block β)) : Multiset (Nat × Block β) :=
  temperaryCells pt t t' (circularCells pc r r' ((kbuf, .bytes (written buf)) ::ₘ rest))

omit [Octet β] in
private theorem duringWrite_kbuf (t' : AesdTemperary.AesdTemperaryBuffer β)
    (r' : AesdRing.AesdCircularBuffer β) :
    duringWrite pt pc t r t' r' kbuf buf rest
      = (kbuf, .bytes (written buf)) ::ₘ temperaryCells pt t t' (circularCells pc r r' rest) := by
  rw [duringWrite, ← cons_circularCells, ← cons_temperaryCells]

omit [Octet β] in
/-- The last step of every path. -/
private theorem kfree_kbuf {Q : Int → Multiset (Nat × Block β) → Prop} {ret : Int}
    {t' : AesdTemperary.AesdTemperaryBuffer β} {r' : AesdRing.AesdCircularBuffer β}
    (hq : Q ret (temperaryCells pt t t' (circularCells pc r r' rest))) :
    Safe (duringWrite pt pc t r t' r' kbuf buf rest)
      (do kfree (some kbuf); pure ret : KernelM β Int) Q := by
  rw [duringWrite_kbuf]
  exact Safe.bind (kfree_safe rfl (Safe.ret hq))

omit [Octet β] in
private theorem commitAlone_safe {Q : Int → Multiset (Nat × Block β) → Prop}
    (hr : SameRing r d.bufferCircular) (hrep : AesdRing.Represents d.bufferCircular q)
    (hq : ∀ got r₂, Answers env.entry
        (totalSize Block.size (duringWrite pt pc t r d.bufferTemperary d.bufferCircular kbuf buf
          rest)) buf.length got →
      SameRing r₂ (AesdRing.aesdCircularBufferAddEntry got d.bufferCircular
        ⟨some buf, buf.length⟩) →
      Q buf.length (temperaryCells pt t d.bufferTemperary (circularCells pc r₂
        (AesdRing.aesdCircularBufferAddEntry got d.bufferCircular ⟨some buf, buf.length⟩)
        rest))) :
    Safe (duringWrite pt pc t r d.bufferTemperary d.bufferCircular kbuf buf rest)
      (commitAlone env ⟨some pt, some pc⟩ kbuf buf.length) Q := by
  refine Safe.bind (aesdCircularBufferAddEntry_safe temperaryCells_circularCells hr hrep
    (mem_temperaryCells (Multiset.mem_cons_self _ _)) rfl fun got r₂ hans hr₂ => ?_)
  rw [← temperaryCells_circularCells]
  exact kfree_kbuf (hq got r₂ hans hr₂)

omit [Octet β] in
private theorem keepPending_safe {Q : Int → Multiset (Nat × Block β) → Prop}
    (ht : SameTemperary t d.bufferTemperary)
    (hholds : AesdTemperary.Holds d.bufferTemperary pending)
    (hwrap : pending.length + buf.length < 2 ^ 64)
    (hq : ∀ got t₂, Answers env.temperary
        (totalSize Block.size (duringWrite pt pc t r d.bufferTemperary d.bufferCircular kbuf buf
          rest)) (pending.length + buf.length) got →
      SameTemperary t₂ (AesdTemperary.aesdTemperaryBufferAdd (fun _ => got) d.bufferTemperary buf
        buf.length).2 →
      Q (if (AesdTemperary.aesdTemperaryBufferAdd (fun _ => got) d.bufferTemperary buf
          buf.length).1 = true then buf.length else -ENOMEM)
        (temperaryCells pt t₂ (AesdTemperary.aesdTemperaryBufferAdd (fun _ => got)
          d.bufferTemperary buf buf.length).2 (circularCells pc r d.bufferCircular rest))) :
    Safe (duringWrite pt pc t r d.bufferTemperary d.bufferCircular kbuf buf rest)
      (keepPending env ⟨some pt, some pc⟩ kbuf buf.length) Q := by
  refine Safe.bind (aesdTemperaryBufferAdd_safe rfl ht hholds
    (mem_circularCells (Multiset.mem_cons_self _ _)) rfl hwrap fun got t₂ hans ht₂ => ?_)
  have hdone := hq got t₂ hans ht₂
  cases hok : (AesdTemperary.aesdTemperaryBufferAdd (fun _ => got) d.bufferTemperary buf
      buf.length).1 with
  | true =>
      rw [hok, if_pos rfl] at hdone
      exact kfree_kbuf hdone
  | false =>
      rw [hok, if_neg Bool.false_ne_true] at hdone
      exact kfree_kbuf hdone

omit [Octet β] in
/-- A granted add leaves one block with all the bytes. -/
private theorem add_granted_eq {t' : AesdTemperary.AesdTemperaryBuffer β}
    (hholds : AesdTemperary.Holds t' pending) (hwrap : pending.length + buf.length < 2 ^ 64) :
    AesdTemperary.aesdTemperaryBufferAdd (fun _ => true) t' buf buf.length
      = (true, ⟨some (pending ++ buf), (pending ++ buf).length⟩) := by
  cases hholds with
  | null => simp [AesdTemperary.aesdTemperaryBufferAdd]
  | block => simp [AesdTemperary.aesdTemperaryBufferAdd, sizeAdd_eq hwrap]

omit [Octet β] in
private theorem commitPending_safe {Q : Int → Multiset (Nat × Block β) → Prop}
    (ht : SameTemperary t d.bufferTemperary) (hr : SameRing r d.bufferCircular)
    (hholds : AesdTemperary.Holds d.bufferTemperary pending)
    (hrep : AesdRing.Represents d.bufferCircular q)
    (hwrap : pending.length + buf.length < 2 ^ 64)
    (hnull : Answers env.temperary
        (totalSize Block.size (duringWrite pt pc t r d.bufferTemperary d.bufferCircular kbuf buf
          rest)) (pending.length + buf.length) false →
      ∀ t₂, SameTemperary t₂ d.bufferTemperary →
      Q (-ENOMEM) (temperaryCells pt t₂ d.bufferTemperary
        (circularCells pc r d.bufferCircular rest)))
    (hgot : Answers env.temperary
        (totalSize Block.size (duringWrite pt pc t r d.bufferTemperary d.bufferCircular kbuf buf
          rest)) (pending.length + buf.length) true →
      ∀ got t₂ r₂, Answers env.entry
        (totalSize Block.size (duringWrite pt pc t r d.bufferTemperary d.bufferCircular kbuf buf
          rest) + buf.length) (pending.length + buf.length) got →
      SameTemperary t₂ (⟨none, 0⟩ : AesdTemperary.AesdTemperaryBuffer β) →
      SameRing r₂ (AesdRing.aesdCircularBufferAddEntry got d.bufferCircular
        ⟨some (pending ++ buf), (pending ++ buf).length⟩) →
      Q buf.length (temperaryCells pt t₂ ⟨none, 0⟩ (circularCells pc r₂
        (AesdRing.aesdCircularBufferAddEntry got d.bufferCircular
          ⟨some (pending ++ buf), (pending ++ buf).length⟩) rest))) :
    Safe (duringWrite pt pc t r d.bufferTemperary d.bufferCircular kbuf buf rest)
      (commitPending env ⟨some pt, some pc⟩ kbuf buf.length) Q := by
  have hlen : (pending ++ buf).length = pending.length + buf.length := List.length_append
  refine Safe.bind (aesdTemperaryBufferAdd_safe rfl ht hholds
    (mem_circularCells (Multiset.mem_cons_self _ _)) rfl hwrap fun got t₂ hans ht₂ => ?_)
  cases got with
  | false =>
      rw [@AesdTemperary.Holds.add_refused _ _ _ hholds (fun _ => false) buf _ rfl hwrap] at ht₂ ⊢
      exact kfree_kbuf (hnull hans t₂ ht₂)
  | true =>
      rw [add_granted_eq hholds hwrap] at ht₂ ⊢
      obtain ⟨ptr, n⟩ := t₂
      obtain ⟨a, rfl⟩ := Option.isSome_iff_exists.mp (show ptr.isSome = true from ht₂.null)
      have hn : n = (pending ++ buf).length := ht₂.size
      subst hn
      refine Safe.bind (loadTemperary_safe (Multiset.mem_cons_self _ _)
        (Safe.bind (Safe.ret (Safe.bind ?_))))
      have hsrc : (a, .bytes (written (pending ++ buf))) ∈ temperaryCells pt
          ⟨some a, (pending ++ buf).length⟩ ⟨some (pending ++ buf), (pending ++ buf).length⟩
          ((kbuf, .bytes (written buf)) ::ₘ rest) :=
        Multiset.mem_cons_of_mem (Multiset.mem_add.mpr (Or.inl (Multiset.mem_singleton_self _)))
      refine aesdCircularBufferAddEntry_safe temperaryCells_circularCells hr hrep hsrc rfl
        fun got r₂ hans' hr₂ => ?_
      rw [← temperaryCells_circularCells]
      refine Safe.bind (aesdTemperaryBufferClean_safe rfl ht₂ fun t₃ ht₃ => ?_)
      have hgrown : totalSize Block.size (temperaryCells pt ⟨some a, (pending ++ buf).length⟩
            ⟨some (pending ++ buf), (pending ++ buf).length⟩
            (circularCells pc r d.bufferCircular ((kbuf, .bytes (written buf)) ::ₘ rest)))
          = totalSize Block.size (duringWrite pt pc t r d.bufferTemperary d.bufferCircular kbuf
            buf rest) + buf.length := by
        rw [duringWrite, totalSize_temperaryCells ht hholds,
          totalSize_temperaryCells ht₂ (.block (pending ++ buf)), hlen]
        omega
      rw [hgrown, hlen] at hans'
      exact kfree_kbuf (hgot hans got t₃ r₂ hans' ht₃ hr₂)

/-- An answer that was never asked for. -/
theorem answers_self (granted : Bool) (inUse size : Nat) : Answers granted inUse size granted :=
  ⟨id, fun h _ => h⟩

/-- The answers of one call, put together. -/
private theorem serves_of_answers (room : Prop) {inUse₁ size₁ inUse₂ size₂ : Nat}
    {temperary entry : Bool} (ht : Answers env.temperary inUse₁ size₁ temperary)
    (he : Answers env.entry inUse₂ size₂ entry) (hroom₁ : room → inUse₁ + size₁ < kernelSpace)
    (hroom₂ : room → inUse₂ + size₂ < kernelSpace) :
    Serves env ⟨env.kbuf, env.copyFromUser, temperary, entry⟩ room := by
  refine ⟨id, rfl, ht.only, he.only, fun h => ?_⟩
  rw [ht.eq_of_room (hroom₁ h), he.eq_of_room (hroom₂ h)]

/-- The write of `DriverProofs` that a call amounts to. -/
private theorem writes_of_eq {cells : Multiset (Nat × Block β)} {dev : AesdDevice} {used : Nat}
    {env' : WriteEnv} {d' : AesdDev β} {ret : Int}
    (hwrite : AesdDriver.aesdWrite env' d buf = (d', ret))
    (hserves : Serves env env' (roomFor used d.inUse buf.length)) (hb : Backs rest dev d' cells) :
    Writes rest used env dev d buf ret cells := by
  refine ⟨env', hserves, ?_, ?_⟩
  · rw [hwrite]
  · rw [hwrite]
    exact hb

/-- The kernel buffer was refused. -/
private theorem writes_noBuffer {cells : Multiset (Nat × Block β)} {dev : AesdDevice}
    {used : Nat} (hb : Backs rest dev d cells)
    (hk : AesdMachine.kmalloc env.kbuf used buf.length = false) :
    Writes rest used env dev d buf (-ENOMEM) cells := by
  have hans : Answers env.kbuf used buf.length false := answers_kmalloc (Nat.le_refl _) hk
  have hwrite : AesdDriver.aesdWrite { env with kbuf := false } d buf = (d, -ENOMEM) := by
    simp only [AesdDriver.aesdWrite, AesdMachine.kmalloc, Bool.false_and, if_true]
  refine writes_of_eq hwrite ⟨(by rintro ⟨⟩), rfl, id, id, fun hroom => ?_⟩ hb
  rw [roomFor] at hroom
  rw [hans.eq_of_room (by omega)]

section AfterCopy

variable {used : Nat}

private theorem writes_kept (hm : Models d q pending) (hr : SameRing r d.bufferCircular)
    (hvalue : AesdMachine.kmalloc env.kbuf d.inUse buf.length = true)
    (hcopy : env.copyFromUser = true) (hn : hasNewline buf = false) {got : Bool}
    {t₂ : AesdTemperaryBuffer}
    (hans : Answers env.temperary (used + buf.length) (pending.length + buf.length) got)
    (ht₂ : SameTemperary t₂ (AesdTemperary.aesdTemperaryBufferAdd (fun _ => got)
      d.bufferTemperary buf buf.length).2) :
    Writes rest used env ⟨some pt, some pc⟩ d buf
      (if (AesdTemperary.aesdTemperaryBufferAdd (fun _ => got) d.bufferTemperary buf
        buf.length).1 = true then buf.length else -ENOMEM)
      (temperaryCells pt t₂ (AesdTemperary.aesdTemperaryBufferAdd (fun _ => got)
        d.bufferTemperary buf buf.length).2 (circularCells pc r d.bufferCircular rest)) := by
  have hinUse := hm.inUse_eq
  have hwrite : AesdDriver.aesdWrite ⟨env.kbuf, env.copyFromUser, got, env.entry⟩ d buf
      = (⟨(AesdTemperary.aesdTemperaryBufferAdd (fun _ => got) d.bufferTemperary buf
          buf.length).2, d.bufferCircular⟩,
        if (AesdTemperary.aesdTemperaryBufferAdd (fun _ => got) d.bufferTemperary buf
          buf.length).1 = true then (buf.length : Int) else -ENOMEM) := by
    simp only [AesdDriver.aesdWrite, hvalue, hcopy, hn, Bool.false_and, Bool.true_eq_false,
      Bool.false_eq_true, if_false]
    cases (AesdTemperary.aesdTemperaryBufferAdd (fun _ => got) d.bufferTemperary buf
      buf.length).1 with
    | false => rfl
    | true => rfl
  have hserves := serves_of_answers (roomFor used d.inUse buf.length) hans
    (answers_self env.entry 0 0) (fun h => by rw [roomFor] at h; omega)
    (fun _ => Nat.two_pow_pos 63)
  exact writes_of_eq hwrite hserves (.intro ht₂ hr)

private theorem writes_alone (hm : Models d q pending) (ht : SameTemperary t d.bufferTemperary)
    (hvalue : AesdMachine.kmalloc env.kbuf d.inUse buf.length = true)
    (hcopy : env.copyFromUser = true) (hn : hasNewline buf = true)
    (he : AesdTemperary.aesdTemperaryBufferIsEmpty d.bufferTemperary = true) {got : Bool}
    {r₂ : AesdCircularBuffer} (hans : Answers env.entry (used + buf.length) buf.length got)
    (hr₂ : SameRing r₂ (AesdRing.aesdCircularBufferAddEntry got d.bufferCircular
      ⟨some buf, buf.length⟩)) :
    Writes rest used env ⟨some pt, some pc⟩ d buf buf.length
      (temperaryCells pt t d.bufferTemperary (circularCells pc r₂
        (AesdRing.aesdCircularBufferAddEntry got d.bufferCircular ⟨some buf, buf.length⟩)
        rest)) := by
  have hinUse := hm.inUse_eq
  have hwrite : AesdDriver.aesdWrite ⟨env.kbuf, env.copyFromUser, env.temperary, got⟩ d buf
      = (⟨d.bufferTemperary, AesdRing.aesdCircularBufferAddEntry got d.bufferCircular
          ⟨some buf, buf.length⟩⟩, (buf.length : Int)) := by
    simp only [AesdDriver.aesdWrite, hvalue, hcopy, hn, he, Bool.true_and, Bool.true_eq_false,
      if_false, if_true]
  have hserves := serves_of_answers (roomFor used d.inUse buf.length)
    (answers_self env.temperary 0 0) hans (fun _ => Nat.two_pow_pos 63)
    (fun h => by rw [roomFor] at h; omega)
  exact writes_of_eq hwrite hserves (.intro ht hr₂)

private theorem writes_refused (hm : Models d q pending) (hr : SameRing r d.bufferCircular)
    (hvalue : AesdMachine.kmalloc env.kbuf d.inUse buf.length = true)
    (hcopy : env.copyFromUser = true) (hn : hasNewline buf = true)
    (he : AesdTemperary.aesdTemperaryBufferIsEmpty d.bufferTemperary = false)
    (hwrap : pending.length + buf.length < 2 ^ 64) {t₂ : AesdTemperaryBuffer}
    (hans : Answers env.temperary (used + buf.length) (pending.length + buf.length) false)
    (ht₂ : SameTemperary t₂ d.bufferTemperary) :
    Writes rest used env ⟨some pt, some pc⟩ d buf (-ENOMEM)
      (temperaryCells pt t₂ d.bufferTemperary (circularCells pc r d.bufferCircular rest)) := by
  have hinUse := hm.inUse_eq
  have hrefused := @AesdTemperary.Holds.add_refused _ _ _ hm.temp (fun _ => false) buf _ rfl hwrap
  have hwrite : AesdDriver.aesdWrite ⟨env.kbuf, env.copyFromUser, false, env.entry⟩ d buf
      = (d, -ENOMEM) := by
    simp only [AesdDriver.aesdWrite, hvalue, hcopy, hn, he, hrefused, Bool.and_false,
      Bool.true_eq_false, Bool.false_eq_true, if_false, if_true]
  have hserves := serves_of_answers (roomFor used d.inUse buf.length) hans
    (answers_self env.entry 0 0) (fun h => by rw [roomFor] at h; omega)
    (fun _ => Nat.two_pow_pos 63)
  exact writes_of_eq hwrite hserves (.intro ht₂ hr)

private theorem writes_committed (hm : Models d q pending)
    (hvalue : AesdMachine.kmalloc env.kbuf d.inUse buf.length = true)
    (hcopy : env.copyFromUser = true) (hn : hasNewline buf = true)
    (he : AesdTemperary.aesdTemperaryBufferIsEmpty d.bufferTemperary = false)
    (hwrap : pending.length + buf.length < 2 ^ 64) {got : Bool} {t₂ : AesdTemperaryBuffer}
    {r₂ : AesdCircularBuffer}
    (hans : Answers env.temperary (used + buf.length) (pending.length + buf.length) true)
    (hans' : Answers env.entry (used + buf.length + buf.length) (pending.length + buf.length) got)
    (ht₂ : SameTemperary t₂ (⟨none, 0⟩ : AesdTemperary.AesdTemperaryBuffer β))
    (hr₂ : SameRing r₂ (AesdRing.aesdCircularBufferAddEntry got d.bufferCircular
      ⟨some (pending ++ buf), (pending ++ buf).length⟩)) :
    Writes rest used env ⟨some pt, some pc⟩ d buf buf.length
      (temperaryCells pt t₂ ⟨none, 0⟩ (circularCells pc r₂
        (AesdRing.aesdCircularBufferAddEntry got d.bufferCircular
          ⟨some (pending ++ buf), (pending ++ buf).length⟩) rest)) := by
  have hinUse := hm.inUse_eq
  have hadd := add_granted_eq hm.temp hwrap
  have hwrite : AesdDriver.aesdWrite ⟨env.kbuf, env.copyFromUser, true, got⟩ d buf
      = (⟨⟨none, 0⟩, AesdRing.aesdCircularBufferAddEntry got d.bufferCircular
          ⟨some (pending ++ buf), (pending ++ buf).length⟩⟩, (buf.length : Int)) := by
    simp only [AesdDriver.aesdWrite, hvalue, hcopy, hn, he, hadd, Bool.and_false,
      Bool.true_eq_false, Bool.false_eq_true, if_false, if_true]
    rfl
  have hserves := serves_of_answers (roomFor used d.inUse buf.length) hans hans'
    (fun h => by rw [roomFor] at h; omega) (fun h => by rw [roomFor] at h; omega)
  exact writes_of_eq hwrite hserves (.intro ht₂ hr₂)

/-- The call once its kernel buffer is filled. -/
private theorem afterCopy_safe (hm : Models d q pending)
    (ht : SameTemperary t d.bufferTemperary) (hr : SameRing r d.bufferCircular)
    (hused : totalSize Block.size (duringWrite pt pc t r d.bufferTemperary d.bufferCircular kbuf
      buf rest) = used + buf.length)
    (hvalue : AesdMachine.kmalloc env.kbuf d.inUse buf.length = true)
    (hcopy : env.copyFromUser = true) (hwrap : pending.length + buf.length < 2 ^ 64) :
    Safe (duringWrite pt pc t r d.bufferTemperary d.bufferCircular kbuf buf rest)
      (if hasNewline buf = true then do
        if ← aesdTemperaryBufferIsEmpty (some pt) then
          commitAlone env ⟨some pt, some pc⟩ kbuf buf.length
        else commitPending env ⟨some pt, some pc⟩ kbuf buf.length
      else keepPending env ⟨some pt, some pc⟩ kbuf buf.length)
      (Writes rest used env ⟨some pt, some pc⟩ d buf) := by
  cases hn : hasNewline buf with
  | false =>
      rw [if_neg Bool.false_ne_true]
      refine keepPending_safe ht hm.temp hwrap fun got t₂ hans ht₂ => ?_
      rw [hused] at hans
      exact writes_kept hm hr hvalue hcopy hn hans ht₂
  | true =>
      rw [if_pos rfl]
      refine Safe.bind (aesdTemperaryBufferIsEmpty_safe (Multiset.mem_cons_self _ _) ht ?_)
      cases he : AesdTemperary.aesdTemperaryBufferIsEmpty d.bufferTemperary with
      | true =>
          refine commitAlone_safe hr hm.ring fun got r₂ hans hr₂ => ?_
          rw [hused] at hans
          exact writes_alone hm ht hvalue hcopy hn he hans hr₂
      | false =>
          refine commitPending_safe ht hr hm.temp hm.ring hwrap (fun hans t₂ ht₂ => ?_)
            (fun hans got t₂ r₂ hans' ht₂ hr₂ => ?_)
          · rw [hused] at hans
            exact writes_refused hm hr hvalue hcopy hn he hwrap hans ht₂
          · rw [hused] at hans hans'
            exact writes_committed hm hvalue hcopy hn he hwrap hans hans' ht₂ hr₂

end AfterCopy

/-- **A WRITE OVER KERNEL MEMORY**: whatever the kernel answers, `aesd_write`
    commits no memory error, returns what the write of `DriverProofs` returns,
    and leaves exactly the memory of the device afterwards. -/
theorem aesdWrite_safe {dev : AesdDevice} {cells : Multiset (Nat × Block β)}
    (hb : Backs rest dev d cells) (hm : Models d q pending) (env : WriteEnv) (buf : List β) :
    Safe cells (aesdWrite env dev buf)
      (Writes rest (totalSize Block.size cells) env dev d buf) := by
  have htotal := hb.totalSize_eq hm
  have hinUse := hm.inUse_eq
  refine Safe.bind (kmalloc_safe (fun hk kbuf => ?_)
    (fun hk => Safe.ret (writes_noBuffer hb hk)))
  generalize hused : totalSize Block.size cells = used at htotal hk ⊢
  cases hb with
  | intro ht hr =>
  rename_i pt pc t r
  have hfits := (kmalloc_eq_true.mp hk).2
  have hwrap : pending.length + buf.length < 2 ^ 64 := by omega
  have hvalue : AesdMachine.kmalloc env.kbuf d.inUse buf.length = true :=
    kmalloc_eq_true.mpr ⟨(kmalloc_eq_true.mp hk).1, by omega⟩
  by_cases hcopy : env.copyFromUser = false
  · have hwrite : AesdDriver.aesdWrite env d buf = (d, -EFAULT) := by
      simp only [AesdDriver.aesdWrite, hvalue, hcopy, Bool.true_eq_false, if_false, if_true]
    simp only [hcopy, if_true]
    refine Safe.bind (kfree_safe rfl (Safe.ret ⟨env, ⟨id, rfl, id, id, fun _ => rfl⟩, ?_, ?_⟩))
    · rw [hwrite]
    · rw [hwrite]
      exact .intro ht hr
  · simp only [if_neg hcopy]
    refine Safe.bind (storeBytes_safe rfl (writeAt_fill buf) (Safe.bind
      (scanNewline_safe (Multiset.mem_cons_self _ _) _ 0 (Nat.zero_add _) ?_)))
    rw [List.drop_zero]
    have hduring : totalSize Block.size (duringWrite pt pc t r d.bufferTemperary d.bufferCircular
        kbuf buf rest) = used + buf.length := by
      rw [duringWrite_kbuf, totalSize_cons, hused]
      show (written buf).length + used = used + buf.length
      rw [length_written]
      omega
    rw [← duringWrite_kbuf]
    exact afterCopy_safe hm ht hr hduring hvalue (by simpa using hcopy) hwrap

end Write

/-! ## What a read and a seek do -/

section Look

variable {rest cells : Multiset (Nat × Block β)} {dev : AesdDevice} {d : AesdDev β}
  {q : CyclicQueue.SlotQueue 10 (List β)} {pending : List β} {r : AesdCircularBuffer}
  {r' : AesdRing.AesdCircularBuffer β}

omit [Octet β] in
private theorem findEntryOffsetForFposLoop_eq (hr : SameRing r r') (charOffset : Nat) :
    ∀ left cur idx, findEntryOffsetForFposLoop r charOffset left cur idx
      = AesdLookup.findEntryOffsetForFposLoop r' charOffset left cur idx := by
  intro left
  induction left with
  | zero => exact fun _ _ => rfl
  | succ left ih =>
      intro cur idx
      rw [findEntryOffsetForFposLoop, AesdLookup.findEntryOffsetForFposLoop]
      rw [(hr.entry idx).null, (hr.entry idx).size, ih]
      cases (r'.entry idx).buffptr with
      | none => rfl
      | some bs => rfl

omit [Octet β] in
private theorem findEntryForIoctlLoop_eq (hr : SameRing r r') (writeCmd writeCmdOffset : Nat) :
    ∀ left i cur idx, findEntryForIoctlLoop r writeCmd writeCmdOffset left i cur idx
      = AesdLookup.findEntryForIoctlLoop r' writeCmd writeCmdOffset left i cur idx := by
  intro left
  induction left with
  | zero => exact fun _ _ _ => rfl
  | succ left ih =>
      intro i cur idx
      rw [findEntryForIoctlLoop, AesdLookup.findEntryForIoctlLoop]
      rw [(hr.entry idx).null, (hr.entry idx).size, ih]
      cases (r'.entry idx).buffptr with
      | none => rfl
      | some bs => rfl

omit [Octet β] in
private theorem findEntryOffsetForFpos_same (hr : SameRing r r') (charOffset : Nat) :
    aesdCircularBufferFindEntryOffsetForFpos r charOffset
      = AesdLookup.aesdCircularBufferFindEntryOffsetForFpos r' charOffset := by
  rw [aesdCircularBufferFindEntryOffsetForFpos, findEntryOffsetForFposLoop_eq hr, hr.outOffs]
  rfl

omit [Octet β] in
private theorem findEntryForIoctl_same (hr : SameRing r r') (writeCmd writeCmdOffset rtn : Nat) :
    aesdCircularBufferFindEntryForIoctl r writeCmd writeCmdOffset rtn
      = AesdLookup.aesdCircularBufferFindEntryForIoctl r' writeCmd writeCmdOffset rtn := by
  rw [aesdCircularBufferFindEntryForIoctl, findEntryForIoctlLoop_eq hr, hr.outOffs]
  rfl

omit [Octet β] in
/-- The block of a live slot is there. -/
private theorem mem_ringCells (hr : SameRing r r') {i : Nat} (hi : i < 10) {b : List β}
    (hb : r'.entry i = AesdRing.stored b) :
    ∃ a, (r.entry i).buffptr = some a ∧ (a, .bytes (written b)) ∈ ringCells r.entry r'.entry := by
  have hsome : (r.entry i).buffptr.isSome = true := by
    rw [(hr.entry i).null, hb]
    rfl
  obtain ⟨a, ha⟩ := Option.isSome_iff_exists.mp hsome
  obtain ⟨others, hslot, -⟩ := ringCells_slot r.entry r'.entry hi
  refine ⟨a, ha, ?_⟩
  rw [hslot, ha, hb]
  exact Multiset.mem_add.mpr (Or.inl (Multiset.mem_singleton_self _))

/-- **A READ OVER KERNEL MEMORY**: the bytes asked for lie inside a live block
    and are the bytes of the read of `DriverProofs`, at every position. -/
theorem aesdRead_safe (hb : Backs rest dev d cells) (hm : Models d q pending)
    (copyToUser : Bool) (count : Nat) (fPos : Int) :
    Safe cells (aesdRead copyToUser dev count fPos) fun res cells' =>
      res = AesdDriver.aesdRead copyToUser d count fPos ∧ cells' = cells := by
  cases hb with
  | intro ht hr =>
  rename_i pt pc t r
  refine Safe.bind (loadCircular_safe (mem_temperaryCells (Multiset.mem_cons_self _ _)) ?_)
  have hbound := hm.readable_bound
  have hfind := AesdLookup.findEntryOffsetForFpos_eq hm.ring (by omega) (sizeOfInt fPos)
  rw [findEntryOffsetForFpos_same hr]
  cases hloc : BlockLookup.locate (CyclicQueue.readable q) (sizeOfInt fPos) with
  | none =>
      rw [hloc] at hfind
      have hread : AesdDriver.aesdRead copyToUser d count fPos = ⟨0, [], fPos⟩ := by
        rw [AesdDriver.aesdRead, aesdReadSource]
        rw [hfind]
        rfl
      rw [hfind, hread]
      exact Safe.ret ⟨rfl, rfl⟩
  | some found =>
      obtain ⟨j, off⟩ := found
      obtain ⟨b, hb, hoff, -⟩ := (BlockLookup.locate_eq_some_iff _ _ _ _).mp hloc
      have ha : CyclicQueue.Aligned q := by
        by_contra hna
        rw [show CyclicQueue.readable q = [] from if_neg hna] at hb
        exact nomatch hb
      rw [show CyclicQueue.readable q = q.items from if_pos ha] at hb
      have hslot := hm.ring.slot_item ha hb
      have hsmall := hm.ring.small b (List.mem_of_getElem? hb)
      obtain ⟨a, hptr, hmem⟩ := mem_ringCells hr (Nat.mod_lt _ (by decide)) hslot
      rw [hloc] at hfind
      change AesdLookup.aesdCircularBufferFindEntryOffsetForFpos d.bufferCircular (sizeOfInt fPos)
        = some ((d.bufferCircular.outOffs + j) % 10, off) at hfind
      have hsize : (r.entry ((d.bufferCircular.outOffs + j) % 10)).size = b.length := by
        rw [(hr.entry _).size, hslot]
        rfl
      have hsub : sizeSub b.length off = b.length - off := sizeSub_eq hsmall (Nat.le_of_lt hoff)
      have hread : AesdDriver.aesdRead copyToUser d count fPos
          = if copyToUser then ⟨((min count (b.length - off) : Nat) : Int),
              (b.drop off).take (min count (b.length - off)),
              loff (fPos + ((min count (b.length - off) : Nat) : Int))⟩
            else ⟨-EFAULT, [], fPos⟩ := by
        rw [AesdDriver.aesdRead, aesdReadSource]
        rw [hfind]
        show (if copyToUser then _ else _) = _
        rw [hslot]
        show (if copyToUser then (⟨((min count (sizeSub b.length off) : Nat) : Int),
            (b.drop off).take (min count (sizeSub b.length off)),
            loff (fPos + ((min count (sizeSub b.length off) : Nat) : Int))⟩ : ReadResult β)
          else ⟨-EFAULT, [], fPos⟩) = _
        rw [hsub]
      rw [hfind, hread]
      refine Safe.bind ?_
      rw [hptr, hsize, hsub]
      refine Safe.ret (Safe.bind (loadBytes_safe (mem_temperaryCells
        (Multiset.mem_cons_of_mem (Multiset.mem_add.mpr (Or.inl hmem)))) (by omega)
        (Safe.ret ⟨rfl, rfl⟩)))

omit [Octet β] in
theorem aesdLlseek_safe (hb : Backs rest dev d cells) (fPos offset whence : Int) :
    Safe cells (aesdLlseek dev fPos offset whence) fun res cells' =>
      res = AesdDriver.aesdLlseek d fPos offset whence ∧ cells' = cells := by
  cases hb with
  | intro ht hr =>
  rw [aesdLlseek, AesdDriver.aesdLlseek]
  by_cases h0 : whence = 0
  · rw [if_pos h0, if_pos h0]
    exact Safe.ret ⟨rfl, rfl⟩
  · rw [if_neg h0, if_neg h0]
    by_cases h1 : whence = 1
    · rw [if_pos h1, if_pos h1]
      exact Safe.ret ⟨rfl, rfl⟩
    · rw [if_neg h1, if_neg h1]
      by_cases h2 : whence = 2
      · rw [if_pos h2, if_pos h2]
        refine Safe.bind (loadCircular_safe (mem_temperaryCells (Multiset.mem_cons_self _ _)) ?_)
        rw [hr.size]
        exact Safe.ret ⟨rfl, rfl⟩
      · rw [if_neg h2, if_neg h2]
        exact Safe.ret ⟨rfl, rfl⟩

omit [Octet β] in
theorem aesdIoctl_safe (hb : Backs rest dev d cells) (fPos : Int) (cmd : UInt32)
    (arg : Option AesdSeekto) :
    Safe cells (aesdIoctl dev fPos cmd arg) fun res cells' =>
      res = AesdDriver.aesdIoctl d fPos cmd arg ∧ cells' = cells := by
  cases hb with
  | intro ht hr =>
  cases arg with
  | none =>
      rw [aesdIoctl, AesdDriver.aesdIoctl]
      split_ifs <;> exact Safe.ret ⟨rfl, rfl⟩
  | some seekto =>
      rw [aesdIoctl, AesdDriver.aesdIoctl]
      split_ifs with h0 h1 h2
      · exact Safe.ret ⟨rfl, rfl⟩
      · exact Safe.ret ⟨rfl, rfl⟩
      · show Safe _ (seekTo _ fPos seekto) fun res cells' =>
          res = AesdDriver.seekTo d fPos seekto ∧ cells' = _
        rw [seekTo, AesdDriver.seekTo]
        by_cases hcmd : seekto.writeCmd.toNat ≥ AesdRing.aesdcharMaxWriteOperationsSupported
        · rw [if_pos hcmd, if_pos hcmd]
          exact Safe.ret ⟨rfl, rfl⟩
        · rw [if_neg hcmd, if_neg hcmd]
          refine Safe.bind (loadCircular_safe
            (mem_temperaryCells (Multiset.mem_cons_self _ _)) ?_)
          rw [(hr.entry _).size, findEntryForIoctl_same hr]
          split_ifs <;> exact Safe.ret ⟨rfl, rfl⟩
      · exact Safe.ret ⟨rfl, rfl⟩

end Look

/-! ## Runs -/

/-- A file operation on the device. -/
inductive FileOp (β : Type) where
  | write (env : WriteEnv) (buf : List β)
  | read (copyToUser : Bool) (count : Nat)
  | llseek (offset whence : Int)
  | ioctl (cmd : UInt32) (arg : Option AesdSeekto)

/-- Call the operation through a file at position `fPos`: the result, the bytes
    handed out and the position of the file afterwards. -/
def fileOp (dev : AesdDevice) (fPos : Int) : FileOp β → KernelM β (ReadResult β)
  | .write env buf => do
      let ret ← aesdWrite env dev buf
      pure ⟨ret, [], fPos⟩
  | .read copyToUser count => aesdRead copyToUser dev count fPos
  | .llseek offset whence => do
      let ret ← aesdLlseek dev fPos offset whence
      pure ⟨ret.1, [], ret.2⟩
  | .ioctl cmd arg => do
      let ret ← aesdIoctl dev fPos cmd arg
      pure ⟨ret.1, [], ret.2⟩

/-- Calls through any files, one after another. -/
def fileOps (dev : AesdDevice) : List (Int × FileOp β) → KernelM β (List (ReadResult β))
  | [] => pure []
  | (fPos, op) :: ops => do
      let result ← fileOp dev fPos op
      let results ← fileOps dev ops
      pure (result :: results)

/-- What the operations of `DriverProofs` can return and do, `others` bytes of
    kernel memory being taken by others. -/
inductive Does (others : Nat) (d : AesdDev β) (fPos : Int) :
    FileOp β → ReadResult β → AesdDev β → Prop where
  | write {env env' : WriteEnv} (buf : List β) :
      Serves env env' (roomFor (sizeofTemperary + sizeofCircular + d.inUse + others) d.inUse
        buf.length) →
      Does others d fPos (.write env buf) ⟨(AesdDriver.aesdWrite env' d buf).2, [], fPos⟩
        (AesdDriver.aesdWrite env' d buf).1
  | read (copyToUser : Bool) (count : Nat) :
      Does others d fPos (.read copyToUser count) (AesdDriver.aesdRead copyToUser d count fPos) d
  | llseek (offset whence : Int) :
      Does others d fPos (.llseek offset whence)
        ⟨(AesdDriver.aesdLlseek d fPos offset whence).1, [],
          (AesdDriver.aesdLlseek d fPos offset whence).2⟩ d
  | ioctl (cmd : UInt32) (arg : Option AesdSeekto) :
      Does others d fPos (.ioctl cmd arg)
        ⟨(AesdDriver.aesdIoctl d fPos cmd arg).1, [], (AesdDriver.aesdIoctl d fPos cmd arg).2⟩ d

/-- The same for a list of calls. -/
inductive DoesAll (others : Nat) :
    AesdDev β → List (Int × FileOp β) → List (ReadResult β) → AesdDev β → Prop where
  | nil (d : AesdDev β) : DoesAll others d [] [] d
  | cons {d d₁ d₂ : AesdDev β} {fPos : Int} {op : FileOp β} {result : ReadResult β}
      {ops : List (Int × FileOp β)} {results : List (ReadResult β)} :
      Does others d fPos op result d₁ → DoesAll others d₁ ops results d₂ →
      DoesAll others d ((fPos, op) :: ops) (result :: results) d₂

/-- A device stays reachable. -/
theorem Does.reachable {others : Nat} {d d' : AesdDev β} {fPos : Int} {op : FileOp β}
    {result : ReadResult β} (h : Does others d fPos op result d') (hd : Reachable d) :
    Reachable d' := by
  cases h with
  | write buf hserves => exact .write _ buf hd
  | read copyToUser count => exact hd
  | llseek offset whence => exact hd
  | ioctl cmd arg => exact hd

/-- One call. -/
theorem fileOp_safe {rest cells : Multiset (Nat × Block β)} {dev : AesdDevice} {d : AesdDev β}
    (hb : Backs rest dev d cells) (hd : Reachable d) (fPos : Int) (op : FileOp β) :
    Safe cells (fileOp dev fPos op) fun result cells' => ∃ d',
      Does (totalSize Block.size rest) d fPos op result d' ∧ Backs rest dev d' cells' := by
  obtain ⟨q, pending, hm⟩ := hd.models
  cases op with
  | write env buf =>
      refine Safe.bind ((aesdWrite_safe hb hm env buf).imp fun ret cells' hw => Safe.ret ?_)
      obtain ⟨env', hserves, rfl, hb'⟩ := hw
      rw [hb.totalSize_eq hm] at hserves
      exact ⟨_, .write buf hserves, hb'⟩
  | read copyToUser count =>
      refine (aesdRead_safe hb hm copyToUser count fPos).imp fun res cells' hres => ?_
      obtain ⟨rfl, rfl⟩ := hres
      exact ⟨d, .read copyToUser count, hb⟩
  | llseek offset whence =>
      refine Safe.bind ((aesdLlseek_safe hb fPos offset whence).imp
        fun res cells' hres => Safe.ret ?_)
      obtain ⟨rfl, rfl⟩ := hres
      exact ⟨d, .llseek offset whence, hb⟩
  | ioctl cmd arg =>
      refine Safe.bind ((aesdIoctl_safe hb fPos cmd arg).imp fun res cells' hres => Safe.ret ?_)
      obtain ⟨rfl, rfl⟩ := hres
      exact ⟨d, .ioctl cmd arg, hb⟩

/-- **THE DRIVER OVER KERNEL MEMORY**: any calls on a reachable device, through
    files at any positions and whatever the kernel answers, commit no memory
    error; their results are those of the operations of `DriverProofs`, and what
    they leave is exactly the memory of the device those lead to and whatever
    was there beside it. -/
theorem fileOps_backs {rest : Multiset (Nat × Block β)} {dev : AesdDevice}
    (ops : List (Int × FileOp β)) :
    ∀ {cells : Multiset (Nat × Block β)} {d : AesdDev β}, Backs rest dev d cells → Reachable d →
      Safe cells (fileOps dev ops) fun results cells' => ∃ d',
        DoesAll (totalSize Block.size rest) d ops results d' ∧ Reachable d' ∧
          Backs rest dev d' cells' := by
  induction ops with
  | nil =>
      intro cells d hb hd
      exact Safe.ret ⟨d, .nil d, hd, hb⟩
  | cons call ops ih =>
      intro cells d hb hd
      obtain ⟨fPos, op⟩ := call
      refine Safe.bind ((fileOp_safe hb hd fPos op).imp fun result cells₁ hone => ?_)
      obtain ⟨d₁, hdoes, hb₁⟩ := hone
      have hd₁ := hdoes.reachable hd
      refine Safe.bind ((ih hb₁ hd₁).imp fun results cells₂ hall => Safe.ret ?_)
      obtain ⟨d₂, hdoesAll, hd₂, hb₂⟩ := hall
      exact ⟨d₂, .cons hdoes hdoesAll, hd₂, hb₂⟩

/-- A line written to a fresh device and read back. -/
theorem fileOps_backs_line :
    ∃ cells : Multiset (Nat × Block UInt8),
      Backs 0 ⟨some 1, some 0⟩ AesdDriver.aesdInitModule cells ∧
      Safe cells (fileOps ⟨some 1, some 0⟩
        [(0, .write WriteEnv.granted [97, 10]), (0, .read true 64)]) fun results cells' =>
          ∃ d', DoesAll (totalSize Block.size (0 : Multiset (Nat × Block UInt8)))
            AesdDriver.aesdInitModule
            [(0, .write WriteEnv.granted [97, 10]), (0, .read true 64)] results d' ∧
            Reachable d' ∧ Backs 0 ⟨some 1, some 0⟩ d' cells' := by
  have hb : Backs (0 : Multiset (Nat × Block UInt8)) ⟨some 1, some 0⟩ AesdDriver.aesdInitModule
      (temperaryCells 1 ⟨none, 0⟩ AesdTemperary.aesdTemperaryBufferInit
        (circularCells 0 ⟨fun _ => ⟨none, 0⟩, 0, 0, false, 0⟩ AesdRing.aesdCircularBufferInit 0)) :=
    .intro ⟨rfl, rfl⟩ ⟨fun _ => ⟨rfl, rfl⟩, rfl, rfl, rfl, rfl⟩
  exact ⟨_, hb, fileOps_backs _ hb .init⟩

end AesdKernel
