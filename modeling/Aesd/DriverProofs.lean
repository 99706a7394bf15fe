import Aesd.LookupProofs
import Aesd.TemperaryBufferProofs

/-! # The character driver

    `main.c` of the driver: the device is an accumulating buffer and a ring, and
    the file operations act on them and on the position of an open file.
    Everything the kernel decides inside a call (allocations and user copies) is
    a parameter of that call.

    `Models d q pending` ties a device to what it stores: a queue of committed
    entries and the pending bytes.  `aesdWrite_cases` says what `aesd_write` can
    do to them, with one lemma per outcome below it, and `Reachable.models` that
    every device reached from module load, by writes whose allocations may fail
    in any pattern, stores something. -/

namespace AesdDriver

open AesdMachine AesdTemperary AesdRing AesdLookup CyclicQueue

variable {β : Type} [Octet β]

/-- `struct aesd_dev`, less the `cdev`. -/
structure AesdDev (β : Type) where
  bufferTemperary : AesdTemperaryBuffer β
  bufferCircular  : AesdCircularBuffer β

/-- The device after `aesd_init_module` has succeeded. -/
def aesdInitModule : AesdDev β := ⟨aesdTemperaryBufferInit, aesdCircularBufferInit⟩

/-- The byte strings of the live ring entries, oldest first. -/
def AesdDev.retained (d : AesdDev β) : List (List β) :=
  (liveEntries d.bufferCircular).map AesdBufferEntry.bytes

/-- Bytes of kernel memory the device holds. -/
def AesdDev.inUse (d : AesdDev β) : Nat :=
  d.retained.flatten.length + d.bufferTemperary.bytes.length

/-- What the kernel answers inside one `aesd_write`: the three allocations, in
    the order in which the code can ask for them, and the user copy. -/
structure WriteEnv where
  kbuf         : Bool
  copyFromUser : Bool
  temperary    : Bool
  entry        : Bool
  deriving DecidableEq

/-- Every request is granted. -/
def WriteEnv.granted : WriteEnv := ⟨true, true, true, true⟩

/-- `aesd_write` of the bytes `buf`: the device afterwards and the result. -/
def aesdWrite (env : WriteEnv) (dev : AesdDev β) (buf : List β) : AesdDev β × Int :=
  let count := buf.length
  if kmalloc env.kbuf dev.inUse count = false then (dev, -ENOMEM)
  else if env.copyFromUser = false then (dev, -EFAULT)
  else if hasNewline buf && aesdTemperaryBufferIsEmpty dev.bufferTemperary then
    ({ dev with bufferCircular :=
        aesdCircularBufferAddEntry env.entry dev.bufferCircular ⟨some buf, count⟩ }, count)
  else
    -- the two remaining branches start with the same call
    let added := aesdTemperaryBufferAdd (fun _ => env.temperary) dev.bufferTemperary buf count
    if added.1 = false then ({ dev with bufferTemperary := added.2 }, -ENOMEM)
    else if hasNewline buf then
      ({ bufferTemperary := aesdTemperaryBufferDelete added.2
         bufferCircular := aesdCircularBufferAddEntry env.entry dev.bufferCircular
           ⟨added.2.buffptr, added.2.size⟩ }, count)
    else ({ dev with bufferTemperary := added.2 }, count)

/-! ## Reading and seeking -/

/-- What a call of `aesd_read` asks `copy_to_user` to copy: the entry, the offset
    in it and the number of bytes.  `none` when the position is past the end. -/
def aesdReadSource (dev : AesdDev β) (count : Nat) (fPos : Int) :
    Option (AesdBufferEntry β × Nat × Nat) :=
  (aesdCircularBufferFindEntryOffsetForFpos dev.bufferCircular (sizeOfInt fPos)).map fun found =>
    let entry := dev.bufferCircular.entry found.1
    (entry, found.2, min count (sizeSub entry.size found.2))

/-- The outcome of a read: the result, the bytes handed to user space and the
    file position. -/
structure ReadResult (β : Type) where
  ret  : Int
  data : List β
  fPos : Int

/-- `aesd_read`. -/
def aesdRead (copyToUser : Bool) (dev : AesdDev β) (count : Nat) (fPos : Int) : ReadResult β :=
  match aesdReadSource dev count fPos with
  | none => ⟨0, [], fPos⟩
  | some (entry, entryOffset, toCopy) =>
      if copyToUser then
        ⟨toCopy, ((entry.buffptr.getD []).drop entryOffset).take toCopy, loff (fPos + toCopy)⟩
      else ⟨-EFAULT, [], fPos⟩

/-- `aesd_llseek`: the result and the file position.  `whence` is 0, 1 and 2 for
    `SEEK_SET`, `SEEK_CUR` and `SEEK_END`. -/
def aesdLlseek (dev : AesdDev β) (fPos offset whence : Int) : Int × Int :=
  if whence = 0 then
    if offset < 0 then (-EINVAL, fPos) else (offset, offset)
  else if whence = 1 then
    if loff (fPos + offset) < 0 then (-EINVAL, fPos)
    else (loff (fPos + offset), loff (fPos + offset))
  else if whence = 2 then
    (loff (dev.bufferCircular.size + offset), loff (dev.bufferCircular.size + offset))
  else (fPos, fPos)

/-- `struct aesd_seekto`. -/
structure AesdSeekto where
  writeCmd       : UInt32
  writeCmdOffset : UInt32
  deriving DecidableEq

def aesdIocMagic : UInt32 := 0x16
def aesdcharIocMaxnr : UInt32 := 1

/-- `_IOWR`: direction, argument size, type and number packed into 32 bits. -/
def iowr (type nr size : UInt32) : UInt32 :=
  (3 : UInt32) <<< (30 : UInt32) ||| size <<< (16 : UInt32) ||| type <<< (8 : UInt32) ||| nr

/-- `_IOWR(AESD_IOC_MAGIC, 1, struct aesd_seekto)`. -/
def aesdcharIocseekto : UInt32 := iowr aesdIocMagic 1 8

/-- The part of `aesd_ioctl` that serves a request already copied in. -/
def seekTo (dev : AesdDev β) (fPos : Int) (seekto : AesdSeekto) : Int × Int :=
  if seekto.writeCmd.toNat ≥ aesdcharMaxWriteOperationsSupported then (-EINVAL, fPos)
  else if seekto.writeCmdOffset.toNat ≥
      (dev.bufferCircular.entry seekto.writeCmd.toNat).size then (-EINVAL, fPos)
  else
    -- a NULL answer is only logged: the offset it left behind becomes the position
    let found := aesdCircularBufferFindEntryForIoctl dev.bufferCircular seekto.writeCmd.toNat
      seekto.writeCmdOffset.toNat 0
    (0, loff found.2)

/-- `aesd_ioctl`: the result and the file position.  `arg` is what
    `copy_from_user` delivers, `none` when it fails. -/
def aesdIoctl (dev : AesdDev β) (fPos : Int) (cmd : UInt32) (arg : Option AesdSeekto) :
    Int × Int :=
  if (cmd >>> 8) &&& 0xff ≠ aesdIocMagic then (-EINVAL, fPos)
  else if cmd &&& 0xff > aesdcharIocMaxnr then (-EINVAL, fPos)
  else if cmd = aesdcharIocseekto then
    match arg with
    | none => (-EFAULT, fPos)
    | some seekto => seekTo dev fPos seekto
  else (-EINVAL, fPos)

omit [Octet β] in
/-- The request number passes both checks of its parts. -/
theorem aesdIoctl_seekto (dev : AesdDev β) (fPos : Int) (seekto : AesdSeekto) :
    aesdIoctl dev fPos aesdcharIocseekto (some seekto) = seekTo dev fPos seekto := by
  have htype : ¬ ((aesdcharIocseekto >>> 8) &&& 0xff ≠ aesdIocMagic) := by decide
  have hnr : ¬ (aesdcharIocseekto &&& 0xff > aesdcharIocMaxnr) := by decide
  rw [aesdIoctl]
  rw [if_neg htype, if_neg hnr, if_pos rfl]

/-! ## What a device stores -/

/-- The device stores the queue `q` of committed entries and the bytes `pending`:
    every entry has a newline, the pending bytes have none, and together they
    fit into the kernel's half of the address space. -/
structure Models (d : AesdDev β) (q : SlotQueue 10 (List β)) (pending : List β) : Prop where
  ring       : Represents d.bufferCircular q
  temp       : Holds d.bufferTemperary pending
  bound      : q.items.flatten.length + pending.length < 2 ^ 63
  lines      : ∀ b ∈ q.items, hasNewline b = true
  unfinished : hasNewline pending = false

theorem models_init : Models (aesdInitModule : AesdDev β) CyclicQueue.empty [] where
  ring := represents_init
  temp := holds_init
  bound := show 0 + 0 < 2 ^ 63 by decide
  lines := fun b hb => nomatch hb
  unfinished := rfl

section Stored

variable {d : AesdDev β} {q : SlotQueue 10 (List β)} {pending : List β}

theorem Models.retained_eq (h : Models d q pending) : d.retained = q.items := by
  rw [AesdDev.retained]
  rw [h.ring.liveEntries_eq, map_stored_bytes]

theorem Models.inUse_eq (h : Models d q pending) :
    d.inUse = q.items.flatten.length + pending.length := by
  rw [AesdDev.inUse]
  rw [h.retained_eq, h.temp.bytes_eq]

theorem Models.readable_bound (h : Models d q pending) :
    (readable q).flatten.length < 2 ^ 63 := by
  have hb := h.bound
  rw [readable]
  by_cases ha : Aligned q
  · rw [if_pos ha]
    omega
  · rw [if_neg ha]
    exact Nat.two_pow_pos 63

end Stored

/-- The call gets its kernel buffer, its user copy and, unless it can commit
    without it, the memory to grow the pending buffer. -/
def accepts (env : WriteEnv) (dev : AesdDev β) (buf : List β) : Bool :=
  kmalloc env.kbuf dev.inUse buf.length && env.copyFromUser &&
    ((hasNewline buf && aesdTemperaryBufferIsEmpty dev.bufferTemperary) || env.temperary)

section Write

variable {d : AesdDev β} {q : SlotQueue 10 (List β)} {pending buf : List β} {env : WriteEnv}

/-- What an accepted call knows. -/
theorem Models.of_accepts (h : Models d q pending) (ha : accepts env d buf = true) :
    kmalloc env.kbuf d.inUse buf.length = true ∧ env.copyFromUser = true ∧
      q.items.flatten.length + pending.length + buf.length < 2 ^ 63 := by
  rw [accepts] at ha
  rw [Bool.and_eq_true, Bool.and_eq_true] at ha
  obtain ⟨⟨hk, hc⟩, -⟩ := ha
  have hroom := (kmalloc_eq_true.mp hk).2
  rw [h.inUse_eq] at hroom
  exact ⟨hk, hc, hroom⟩

/-- The call to `aesd_temperary_buffer_add`, when its allocation is granted. -/
private theorem Models.grow (h : Models d q pending)
    (hroom : q.items.flatten.length + pending.length + buf.length < 2 ^ 63)
    (ht : env.temperary = true) :
    (aesdTemperaryBufferAdd (fun _ => env.temperary) d.bufferTemperary buf buf.length).1 = true ∧
      Holds (aesdTemperaryBufferAdd (fun _ => env.temperary) d.bufferTemperary buf
        buf.length).2 (pending ++ buf) := by
  have hwrap : pending.length + buf.length < 2 ^ 64 := by omega
  have hadd := @Holds.add _ _ _ h.temp (fun _ => env.temperary) buf buf.length ht
    (Nat.le_refl _) hwrap
  rw [List.take_length] at hadd
  exact hadd

/-- A call that is not accepted returns an error and changes nothing. -/
theorem aesdWrite_refused (h : Models d q pending) (ha : accepts env d buf = false) :
    (aesdWrite env d buf).1 = d ∧ (aesdWrite env d buf).2 < 0 := by
  rw [aesdWrite]
  by_cases hk : kmalloc env.kbuf d.inUse buf.length = false
  · simp only [if_pos hk]
    exact ⟨trivial, by decide⟩
  · have hk' : kmalloc env.kbuf d.inUse buf.length = true := by
      rw [← Bool.not_eq_false]; exact hk
    have hroom := (kmalloc_eq_true.mp hk').2
    rw [h.inUse_eq] at hroom
    simp only [if_neg hk]
    by_cases hc : env.copyFromUser = false
    · simp only [if_pos hc]
      exact ⟨trivial, by decide⟩
    · have hc' : env.copyFromUser = true := by rw [← Bool.not_eq_false]; exact hc
      rw [accepts] at ha
      rw [hk', hc', Bool.true_and, Bool.true_and, Bool.or_eq_false_iff] at ha
      have hwrap : pending.length + buf.length < 2 ^ 64 := by omega
      have hadd : aesdTemperaryBufferAdd (fun _ => env.temperary) d.bufferTemperary buf
          buf.length = (false, d.bufferTemperary) := h.temp.add_refused buf ha.2 hwrap
      simp only [if_neg hc, ha.1, hadd, Bool.false_eq_true, if_false, if_true]
      exact ⟨trivial, by decide⟩

/-- An accepted call without a newline extends the pending bytes. -/
theorem aesdWrite_pending (h : Models d q pending) (ha : accepts env d buf = true)
    (hn : hasNewline buf = false) :
    (aesdWrite env d buf).2 = buf.length ∧
      Models (aesdWrite env d buf).1 q (pending ++ buf) := by
  obtain ⟨hk, hc, hroom⟩ := h.of_accepts ha
  have ht : env.temperary = true := by
    rw [accepts] at ha
    rw [hn, Bool.false_and, Bool.false_or, Bool.and_eq_true] at ha
    exact ha.2
  have hgrow := h.grow hroom ht
  rw [aesdWrite]
  simp only [hk, hc, hn, hgrow.1, Bool.false_and, Bool.true_eq_false, Bool.false_eq_true,
    if_false]
  refine ⟨trivial, ⟨h.ring, hgrow.2, ?_, h.lines, ?_⟩⟩
  · rw [List.length_append]
    omega
  · rw [hasNewline_append, h.unfinished, hn]
    rfl

/-- What a commit does to the stored queue, whichever branch it came from. -/
private theorem Models.commit (h : Models d q pending) (env : WriteEnv)
    (hroom : q.items.flatten.length + pending.length + buf.length < 2 ^ 63)
    (hn : hasNewline buf = true) {t : AesdTemperaryBuffer β} (ht : Holds t []) :
    Models ⟨t, aesdCircularBufferAddEntry env.entry d.bufferCircular
      ⟨some (pending ++ buf), (pending ++ buf).length⟩⟩
      (CyclicQueue.add env.entry q (pending ++ buf)) [] := by
  have hlen : (pending ++ buf).length = pending.length + buf.length := List.length_append
  refine ⟨addEntry_represents h.ring env.entry (by omega), ht, ?_, ?_, rfl⟩
  · have hle := add_items_length_le env.entry q (pending ++ buf)
    rw [List.length_nil]
    omega
  · intro b hb
    rcases mem_add_items hb with hold | rfl
    · exact h.lines b hold
    · rw [hasNewline_append, hn, Bool.or_true]

/-- An accepted call with a newline hands the pending bytes and its own to the
    ring, whose allocation may still fail. -/
theorem aesdWrite_commit (h : Models d q pending) (ha : accepts env d buf = true)
    (hn : hasNewline buf = true) :
    (aesdWrite env d buf).2 = buf.length ∧
      (aesdWrite env d buf).1.bufferCircular = aesdCircularBufferAddEntry env.entry
        d.bufferCircular ⟨some (pending ++ buf), (pending ++ buf).length⟩ ∧
      Models (aesdWrite env d buf).1 (CyclicQueue.add env.entry q (pending ++ buf)) [] := by
  obtain ⟨hk, hc, hroom⟩ := h.of_accepts ha
  rw [aesdWrite]
  by_cases he : aesdTemperaryBufferIsEmpty d.bufferTemperary = true
  · -- nothing pending: the entry is the kernel buffer itself
    have hnil : pending = [] := h.temp.isEmpty_iff.mp he
    have htemp := h.temp
    have hcommit := h.commit env hroom hn (hnil ▸ htemp)
    simp only [hk, hc, hn, he, Bool.true_and, Bool.true_eq_false, if_false, if_true]
    rw [hnil, List.nil_append] at hcommit ⊢
    exact ⟨trivial, rfl, hcommit⟩
  · have he' : aesdTemperaryBufferIsEmpty d.bufferTemperary = false := Bool.eq_false_iff.mpr he
    have ht : env.temperary = true := by
      rw [accepts] at ha
      rw [he', Bool.and_false, Bool.false_or, Bool.and_eq_true] at ha
      exact ha.2
    obtain ⟨hok, hholds⟩ := h.grow hroom ht
    have hentry : (⟨(aesdTemperaryBufferAdd (fun _ => env.temperary) d.bufferTemperary buf
          buf.length).2.buffptr, (aesdTemperaryBufferAdd (fun _ => env.temperary)
          d.bufferTemperary buf buf.length).2.size⟩ : AesdBufferEntry β)
        = ⟨some (pending ++ buf), (pending ++ buf).length⟩ := by
      have hpos := length_pos_of_hasNewline hn
      generalize (aesdTemperaryBufferAdd (fun _ => env.temperary) d.bufferTemperary buf
        buf.length).2 = t at hholds
      generalize hbs : pending ++ buf = bs at hholds
      cases hholds with
      | null =>
          have hlen := congrArg List.length hbs
          rw [List.length_append, List.length_nil] at hlen
          omega
      | block => rfl
    have hcommit := h.commit env hroom hn hholds.clean
    simp only [hk, hc, hn, he', hok, hentry, Bool.and_false, Bool.true_eq_false,
      Bool.false_eq_true, if_false, if_true]
    exact ⟨trivial, trivial, hcommit⟩

/-- **WHAT A WRITE CAN DO**: be refused and change nothing, extend the pending
    bytes, or hand them to the ring together with its own. -/
theorem aesdWrite_cases (h : Models d q pending) (env : WriteEnv) (buf : List β) :
    (accepts env d buf = false ∧ (aesdWrite env d buf).1 = d ∧ (aesdWrite env d buf).2 < 0) ∨
    (accepts env d buf = true ∧ hasNewline buf = false ∧ (aesdWrite env d buf).2 = buf.length ∧
      Models (aesdWrite env d buf).1 q (pending ++ buf)) ∨
    (accepts env d buf = true ∧ hasNewline buf = true ∧ (aesdWrite env d buf).2 = buf.length ∧
      (aesdWrite env d buf).1.bufferCircular = aesdCircularBufferAddEntry env.entry
        d.bufferCircular ⟨some (pending ++ buf), (pending ++ buf).length⟩ ∧
      Models (aesdWrite env d buf).1 (CyclicQueue.add env.entry q (pending ++ buf)) []) := by
  cases ha : accepts env d buf with
  | false => exact Or.inl ⟨rfl, aesdWrite_refused h ha⟩
  | true =>
      cases hn : hasNewline buf with
      | false =>
          obtain ⟨hret, hm⟩ := aesdWrite_pending h ha hn
          exact Or.inr (Or.inl ⟨rfl, rfl, hret, hm⟩)
      | true => exact Or.inr (Or.inr ⟨rfl, rfl, aesdWrite_commit h ha hn⟩)

end Write

/-! ## Reachable devices -/

/-- Devices reached from module load by writes, whatever the kernel answers.  No
    other file operation changes the device. -/
inductive Reachable : AesdDev β → Prop where
  | init : Reachable aesdInitModule
  | write {d : AesdDev β} (env : WriteEnv) (buf : List β) : Reachable d →
      Reachable (aesdWrite env d buf).1

/-- One write keeps a device that stores something in that condition. -/
theorem Models.write {d : AesdDev β} {q : SlotQueue 10 (List β)} {pending : List β}
    (h : Models d q pending) (env : WriteEnv) (buf : List β) :
    ∃ q' pending', Models (aesdWrite env d buf).1 q' pending' := by
  rcases aesdWrite_cases h env buf with ⟨-, hsame, -⟩ | ⟨-, -, -, hm⟩ | ⟨-, -, -, -, hm⟩
  · rw [hsame]
    exact ⟨q, pending, h⟩
  · exact ⟨q, _, hm⟩
  · exact ⟨_, _, hm⟩

/-- **EVERY REACHABLE DEVICE STORES SOMETHING**, after any pattern of failed
    allocations. -/
theorem Reachable.models {d : AesdDev β} (h : Reachable d) :
    ∃ q pending, Models d q pending := by
  induction h with
  | init => exact ⟨_, _, models_init⟩
  | write env buf _ ih =>
      obtain ⟨q, pending, hm⟩ := ih
      exact hm.write env buf

/-- `GrantedWrites ws d`: the device after the writes `ws` on a freshly loaded
    module, all allocations and user copies succeeding. -/
inductive GrantedWrites : List (List β) → AesdDev β → Prop where
  | nil : GrantedWrites [] aesdInitModule
  | snoc {ws : List (List β)} {d : AesdDev β} (w : List β) : GrantedWrites ws d →
      kmalloc true d.inUse w.length = true →
      GrantedWrites (ws ++ [w]) (aesdWrite WriteEnv.granted d w).1

/-- A write whose kernel buffer fits is accepted when everything is granted. -/
theorem accepts_granted {d : AesdDev β} {w : List β}
    (h : kmalloc true d.inUse w.length = true) : accepts WriteEnv.granted d w = true := by
  rw [accepts]
  show (kmalloc true d.inUse w.length && true &&
    ((hasNewline w && aesdTemperaryBufferIsEmpty d.bufferTemperary) || true)) = true
  rw [h, Bool.or_true]
  rfl

theorem GrantedWrites.reachable {ws : List (List β)} {d : AesdDev β}
    (h : GrantedWrites ws d) : Reachable d := by
  induction h with
  | nil => exact .init
  | snoc w _ _ ih => exact .write _ w ih

/-- The device after the writes `ws`, everything granted. -/
def writeAll (ws : List (List β)) : AesdDev β :=
  ws.foldl (fun d w => (aesdWrite WriteEnv.granted d w).1) aesdInitModule

/-- Writes that fit into the kernel's memory all together are all granted. -/
theorem grantedWrites_writeAll (ws : List (List β)) (h : ws.flatten.length < 2 ^ 63) :
    GrantedWrites ws (writeAll ws) ∧ ∃ q pending, Models (writeAll ws) q pending ∧
      q.items.flatten.length + pending.length ≤ ws.flatten.length := by
  induction ws using List.reverseRecOn with
  | nil => exact ⟨.nil, _, _, models_init, Nat.le_refl _⟩
  | append_singleton ws w ih =>
      rw [List.flatten_append, List.length_append, List.flatten_singleton] at h ⊢
      obtain ⟨hg, q, pending, hm, hle⟩ := ih (by omega)
      have hroom : kmalloc true (writeAll ws).inUse w.length = true := by
        rw [kmalloc_eq_true, hm.inUse_eq]
        exact ⟨rfl, by omega⟩
      have hstep : writeAll (ws ++ [w]) = (aesdWrite WriteEnv.granted (writeAll ws) w).1 := by
        rw [writeAll]
        rw [List.foldl_append]
        rfl
      rw [hstep]
      refine ⟨.snoc w hg hroom, ?_⟩
      rcases aesdWrite_cases hm WriteEnv.granted w with
        ⟨-, hsame, -⟩ | ⟨-, -, -, hm'⟩ | ⟨-, -, -, -, hm'⟩
      · rw [hsame]
        exact ⟨q, pending, hm, Nat.le_add_right_of_le hle⟩
      · refine ⟨_, _, hm', ?_⟩
        rw [List.length_append]
        omega
      · refine ⟨_, _, hm', ?_⟩
        have hadd := add_items_length_le WriteEnv.granted.entry q (pending ++ w)
        rw [List.length_append] at hadd
        rw [List.length_nil]
        omega

end AesdDriver
