import Aesd.BufferedStreamProofs
import Aesd.LlseekProofs
import Aesd.LockProofs
import Aesd.OwnershipProofs

/-! # Sending the device back

    The end of the critical section in `clientHandler`: the device is read in
    blocks of `BUFFER_SIZE` bytes, each of which is sent, until `fread` hands out
    nothing.  Three ways of cutting the bytes meet there.  A read of the device
    ends at the end of a ring entry, stdio asks for as much as it likes at a time,
    and the blocks are cut out of what stdio has collected.

    The device is a source in the sense of `BufferedStream`, whose rest is what
    the walk from `out_offs` meets behind the file position; nobody writes while
    the mutex is held.  So the loop sends exactly that, and the content whenever
    the walk starts at the oldest entry. -/

namespace AesdReadBack

open AesdMachine AesdTemperary AesdRing AesdLookup AesdDriver AesdHistory AesdReader AesdLlseek
open AesdClient AesdServer AesdLock AesdOwnership CyclicQueue BufferedStream Transition

variable {β : Type} [Octet β]

/-- How the C library reads ahead: the size of each `read` call, and whether it
    asks again after the end. -/
structure Stdio where
  sizes    : Nat → Nat
  sticky   : Bool
  positive : ∀ k, 0 < sizes k

/-- A `read` on the device, as stdio sees it: the bytes it delivered, `none` when
    it failed, and the file position. -/
def readDevice (copyToUser : Bool) (d : AesdDev β) (fPos : Int) (count : Nat) :
    Option (List β) × Int :=
  let result := aesdRead copyToUser d count fPos
  (if result.ret < 0 then none else some (result.data.take result.ret.toNat), result.fPos)

/-- What the loop did: the buffers it passed to `send`, and the message with which
    it ended the process, if it did. -/
structure ReadBack (β : Type) where
  sent  : List (List β)
  fatal : Option Fatal

/-- The read-back loop.  `bufferSend` is an array of `BUFFER_SIZE` bytes that is
    zeroed before every `fread`. -/
def readBack (zero : β) (stdio : Stdio) (copyToUser : Bool) (d : AesdDev β) :
    Nat → InStream Int β → Option (ReadBack β)
  | 0, _ => none
  | fuel + 1, fptr =>
      match fread (readDevice copyToUser d) stdio.sizes stdio.sticky bufferSize fuel fptr with
      | none => none
      | some (block, fptr') =>
          let bufferSend := block ++ List.replicate (bufferSize - block.length) zero
          let bytesRead := block.length
          if bytesRead = 0 then
            if fptr'.eof then some ⟨[], none⟩ else some ⟨[], some .readFailed⟩
          else
            (readBack zero stdio copyToUser d fuel fptr').map fun rest =>
              { rest with sent := bufferSend.take bytesRead :: rest.sent }

/-! ## The device as a source -/

section Source

variable {d : AesdDev β} {q : SlotQueue 10 (List β)} {pending : List β}

/-- The outcome of a read, against what the walk meets. -/
theorem aesdRead_readable (hm : Models d q pending) (count : Nat) {n : Nat} (hn : n < 2 ^ 64) :
    (n < (readable q).flatten.length ∧ ∃ k, (0 < count → 0 < k) ∧
      n + k ≤ (readable q).flatten.length ∧
      aesdRead true d count n = ⟨k, ((readable q).flatten.drop n).take k, ((n + k : Nat) : Int)⟩) ∨
    ((readable q).flatten.length ≤ n ∧ aesdRead true d count n = ⟨0, [], n⟩) := by
  by_cases ha : Aligned q
  · rw [show readable q = q.items from if_pos ha, ← content_eq hm]
    exact aesdRead_spec hm ha count hn
  · have hend : (readable q).flatten.length ≤ n := by
      rw [show readable q = [] from if_neg ha]
      exact Nat.zero_le n
    refine Or.inr ⟨hend, ?_⟩
    rw [aesdRead]
    rw [aesdReadSource_beside hm ha count hn]

/-- **THE DEVICE IS A SOURCE** of what the walk meets behind the file position. -/
theorem delivers_readDevice (hm : Models d q pending) :
    Delivers (readDevice true d) (fun fPos => (readable q).flatten.drop fPos.toNat)
      IsPosition := by
  constructor
  rintro fPos count ⟨hlow, hhigh⟩ hcount
  obtain ⟨n, rfl⟩ := Int.eq_ofNat_of_zero_le hlow
  have hbound := hm.readable_bound
  rcases aesdRead_readable hm count (n := n) (by omega) with
    ⟨hin, k, hk, hend, hread⟩ | ⟨hend, hread⟩
  · have hcall : readDevice true d n count
        = (some (((readable q).flatten.drop n).take k), ((n + k : Nat) : Int)) := by
      have hret : ¬ ((k : Int) < 0) := by omega
      simp only [readDevice, hread, if_neg hret, Int.toNat_natCast, List.take_take, Nat.min_self]
    refine ⟨_, _, hcall, ⟨Int.natCast_nonneg _, by omega⟩, ?_, ?_⟩
    · simp only [Int.toNat_natCast]
      rw [← List.drop_drop, List.take_append_drop]
    · -- a call that asks for something delivers something
      intro hnil
      have hlen := congrArg List.length hnil
      have hkpos := hk hcount
      rw [List.length_take, List.length_drop, List.length_nil] at hlen
      omega
  · have hcall : readDevice true d n count = (some [], (n : Int)) := by
      simp only [readDevice, hread]
      rfl
    refine ⟨_, _, hcall, ⟨hlow, hhigh⟩, rfl, fun _ => ?_⟩
    exact List.drop_of_length_le hend

end Source

/-! ## The loop -/

section Loop

variable {d : AesdDev β} {rest : Int → List β} {ok : Int → Prop}

omit [Octet β] in
/-- **WHAT THE LOOP SENDS**: on a source that keeps its promise it ends without an
    error, having sent all that remained. -/
theorem readBack_spec (hread : Delivers (readDevice true d) rest ok) (zero : β) (stdio : Stdio)
    {fptr : InStream Int β} (hs : fptr.Sound rest ok) :
    ∃ sent, sent.flatten = fptr.remaining rest ∧
      ∀ fuel, (fptr.remaining rest).length + 2 ≤ fuel →
        readBack zero stdio true d fuel fptr = some ⟨sent, none⟩ := by
  -- by induction on what remains, of which every block takes some
  generalize hm : (fptr.remaining rest).length = m
  induction m using Nat.strongRecOn generalizing fptr with
  | ind m ih =>
      obtain ⟨fptr', hhanded, hfread⟩ := @fread_spec _ _ (readDevice true d) rest ok stdio.sizes
        stdio.sticky bufferSize hread stdio.positive fptr hs
      have hrest : (rest fptr.source).length ≤ m := by
        rw [← hm, InStream.remaining, List.length_append]
        exact Nat.le_add_left _ _
      by_cases hnil : fptr.remaining rest = []
      · have hsize : 0 < bufferSize := by decide
        have heof : fptr'.eof = true := hhanded.short (by rw [hnil]; exact hsize)
        refine ⟨[], hnil.symm, ?_⟩
        intro fuel hfuel
        obtain ⟨fuel, rfl⟩ := Nat.exists_eq_add_one_of_ne_zero (n := fuel) (by omega)
        rw [readBack, hfread fuel (by omega), hnil]
        simp only [List.take_nil, List.length_nil, heof, if_true]
      · have hpos : 0 < m := by
          rw [← hm]
          exact List.length_pos_of_ne_nil hnil
        have hblock : 0 < ((fptr.remaining rest).take bufferSize).length := by
          rw [List.length_take, bufferSize]
          omega
        have hleft : (fptr'.remaining rest).length < m := by
          rw [hhanded.left, List.length_drop, bufferSize]
          omega
        obtain ⟨sent, hsent, hloop⟩ := ih _ hleft hhanded.sound rfl
        refine ⟨(fptr.remaining rest).take bufferSize :: sent, ?_, ?_⟩
        · rw [List.flatten_cons, hsent, hhanded.left, List.take_append_drop]
        · intro fuel hfuel
          obtain ⟨fuel, rfl⟩ := Nat.exists_eq_add_one_of_ne_zero (n := fuel) (by omega)
          rw [readBack, hfread fuel (by omega)]
          simp only [if_neg (Nat.ne_of_gt hblock), hloop fuel (by omega), Option.map_some,
            List.take_left]

end Loop

/-- **WHERE THE LOOP FAILS**: when the user copy of a read inside the content fails,
    the loop sends nothing and ends the process, and `fileMutex` is still held. -/
theorem readBack_fails {d : AesdDev β} {q : SlotQueue 10 (List β)} {pending : List β}
    (hm : Models d q pending) (ha : Aligned q) {n : Nat} (hin : n < (content d).length)
    (zero : β) (stdio : Stdio) (fuel : Nat) :
    readBack zero stdio false d (fuel + 2) (opened (n : Int))
      = some ⟨[], some .readFailed⟩ := by
  have hcall : readDevice false d n (stdio.sizes 0) = (none, (n : Int)) := by
    obtain ⟨entry, off, k, hsource, -⟩ := aesdReadSource_spec hm ha (stdio.sizes 0) hin
    simp only [readDevice, aesdRead, hsource]
    rfl
  have hfread : fread (readDevice false d) stdio.sizes stdio.sticky bufferSize (fuel + 1)
      (opened (n : Int)) = some ([], ⟨[], n, false, 1⟩) := by
    have hsize : ¬ bufferSize ≤ 0 := by decide
    simp only [fread, opened, List.length_nil, if_neg hsize, Bool.and_false, Bool.false_eq_true,
      if_false, hcall]
  rw [readBack, hfread]
  rfl

/-! ## Every reachable device -/

/-- Where the file stands when the loop begins: at 0 after `fopen`, or where a
    successful ioctl put it. -/
def StartPosition (d : AesdDev β) (p : Int) : Prop :=
  p = 0 ∨ ∃ fPos cmd arg, aesdIoctl d fPos cmd arg = (0, p)

/-- However stdio cuts its calls, the loop ends without an error and what it sends
    is the content from `p` on. -/
def ReadsBack (d : AesdDev β) (p : Int) : Prop :=
  ∀ (zero : β) (stdio : Stdio), ∃ sent,
    (∃ enough, ∀ fuel, enough ≤ fuel →
      readBack zero stdio true d fuel (opened p) = some ⟨sent, none⟩) ∧
    sent.flatten = (content d).drop p.toNat

/-- The slot at `out_offs` holds an entry, unless no slot does. -/
def OldestAtOutOffs (d : AesdDev β) : Prop :=
  (d.bufferCircular.entry d.bufferCircular.outOffs).buffptr.isSome = true ∨ d.retained = []

section Reached

variable {d : AesdDev β} {q : SlotQueue 10 (List β)} {pending : List β} {p : Int}

theorem oldestAtOutOffs_iff (hm : Models d q pending) :
    OldestAtOutOffs d ↔ Aligned q ∨ q.items = [] := by
  rw [OldestAtOutOffs, hm.ring.oldest_live_iff, hm.retained_eq]
  constructor
  · rintro (⟨ha, -⟩ | hnil)
    · exact Or.inl ha
    · exact Or.inr hnil
  · rintro (ha | hnil)
    · by_cases hnil : q.items = []
      · exact Or.inr hnil
      · exact Or.inl ⟨ha, hnil⟩
    · exact Or.inr hnil

/-- Where the loop can begin: at 0, or inside the content. -/
theorem StartPosition.cases (hm : Models d q pending) (hp : StartPosition d p) :
    p = 0 ∨ ∃ n : Nat, p = n ∧ n < storedSize d := by
  rcases hp with rfl | ⟨fPos, cmd, arg, hseek⟩
  · exact Or.inl rfl
  · have hinside := aesdIoctl_seeksInside hm fPos cmd arg
    rw [hseek] at hinside
    rcases hinside with ⟨hneg, -⟩ | ⟨-, n, hn, hpos⟩
    · exact absurd hneg (Int.lt_irrefl 0)
    · exact Or.inr ⟨n, hpos, hn⟩

theorem StartPosition.isPosition (hm : Models d q pending) (hp : StartPosition d p) :
    IsPosition p := by
  have hsize := storedSize_lt hm
  rcases hp.cases hm with rfl | ⟨n, rfl, hn⟩
  · exact ⟨by omega, by omega⟩
  · exact ⟨by omega, by omega⟩

/-- The loop on a device: it sends what the walk meets from `p` on. -/
theorem readBack_sends (hm : Models d q pending) (hp : IsPosition p) (zero : β) (stdio : Stdio) :
    ∃ sent, (∃ enough, ∀ fuel, enough ≤ fuel →
        readBack zero stdio true d fuel (opened p) = some ⟨sent, none⟩) ∧
      sent.flatten = (readable q).flatten.drop p.toNat := by
  obtain ⟨sent, hsent, hloop⟩ := readBack_spec (delivers_readDevice hm) zero stdio
    (sound_opened hp)
  exact ⟨sent, ⟨_, hloop⟩, hsent⟩

/-- The walk meets all of the content: the loop sends it. -/
theorem readsBack_of_oldest (hd : Reachable d) (hp : StartPosition d p)
    (hold : OldestAtOutOffs d) : ReadsBack d p := by
  obtain ⟨q, pending, hm⟩ := hd.models
  have hread : (readable q).flatten = q.items.flatten := by
    by_cases ha : Aligned q
    · rw [show readable q = q.items from if_pos ha]
    · have hnil := ((oldestAtOutOffs_iff hm).mp hold).resolve_left ha
      rw [show readable q = [] from if_neg ha, hnil]
  intro zero stdio
  rw [content_eq hm, ← hread]
  exact readBack_sends hm (hp.isPosition hm) zero stdio

/-- On a device with entries the loop begins before one of their bytes. -/
theorem StartPosition.lt_content (hm : Models d q pending) (hp : StartPosition d p)
    (hne : q.items ≠ []) : p.toNat < (content d).length := by
  rcases hp.cases hm with rfl | ⟨n, rfl, hn⟩
  · exact content_length_pos hm hne
  · exact hn

/-- The walk meets nothing: the loop sends nothing, and bytes are missing. -/
theorem not_readsBack (hd : Reachable d) (hp : StartPosition d p) (hold : ¬ OldestAtOutOffs d) :
    ¬ ReadsBack d p := by
  intro hreads
  obtain ⟨q, pending, hm⟩ := hd.models
  rw [oldestAtOutOffs_iff hm, not_or] at hold
  have hlt := hp.lt_content hm hold.2
  obtain ⟨zero, -⟩ := List.exists_mem_of_length_pos (Nat.zero_lt_of_lt hlt)
  have stdio : Stdio := ⟨fun _ => 1, false, fun _ => Nat.one_pos⟩
  obtain ⟨sent, ⟨enough, hloop⟩, hsent⟩ := hreads zero stdio
  obtain ⟨sent', ⟨enough', hloop'⟩, hsent'⟩ := readBack_sends hm (hp.isPosition hm) zero stdio
  have hsame := (hloop (max enough enough') (Nat.le_max_left ..)).symm.trans
    (hloop' (max enough enough') (Nat.le_max_right ..))
  have heq : sent = sent' := congrArg ReadBack.sent (Option.some.inj hsame)
  rw [heq, hsent', show readable q = [] from if_neg hold.1, List.flatten_nil,
    List.drop_nil] at hsent
  exact absurd hlt (Nat.not_lt.mpr (List.drop_eq_nil_iff.mp hsent.symm))

end Reached

/-- **THE CONTENT IS SENT BACK**: on every reachable device and from every start
    position the loop ends without an error and sends the content from there on,
    each byte once, exactly when the slot at `out_offs` holds an entry or no slot
    does.  As long as no allocation fails that is always so. -/
theorem readsBack_iff {d : AesdDev β} (hd : Reachable d) :
    (∀ p, StartPosition d p → (ReadsBack d p ↔ OldestAtOutOffs d)) ∧
      ((∃ ws, GrantedWrites ws d) → OldestAtOutOffs d) := by
  constructor
  · intro p hp
    constructor
    · intro hreads
      by_contra hold
      exact not_readsBack hd hp hold hreads
    · exact readsBack_of_oldest hd hp
  · rintro ⟨ws, hws⟩
    obtain ⟨q, hm, hreg, -⟩ := grantedWrites_simulate hws
    exact (oldestAtOutOffs_iff hm).mpr (Or.inl hreg.aligned)

/-- Three lines, and a request for byte 1 of the second. -/
theorem readsBack_iff_seek :
    Reachable (writeAll [[97, 10], [98, 99, 10], [100, 10]] : AesdDev UInt8) ∧
      aesdIoctl (writeAll [[97, 10], [98, 99, 10], [100, 10]] : AesdDev UInt8) 0
        aesdcharIocseekto (some ⟨1, 1⟩) = (0, 3) ∧
      ReadsBack (writeAll [[97, 10], [98, 99, 10], [100, 10]] : AesdDev UInt8) 3 := by
  have hgranted := (grantedWrites_writeAll ([[97, 10], [98, 99, 10], [100, 10]] :
    List (List UInt8)) (by decide)).1
  have hseek : aesdIoctl (writeAll [[97, 10], [98, 99, 10], [100, 10]] : AesdDev UInt8) 0
      aesdcharIocseekto (some ⟨1, 1⟩) = (0, 3) := by decide +kernel
  obtain ⟨hiff, hold⟩ := readsBack_iff hgranted.reachable
  exact ⟨hgranted.reachable, hseek,
    (hiff 3 (Or.inr ⟨_, _, _, hseek⟩)).mpr (hold ⟨_, hgranted⟩)⟩

/-- **A LINE THAT IS NOT SENT BACK**: on a ring that failed allocations have emptied,
    the line `"a\n"` is stored, and the loop ends at once. -/
theorem readBack_sends_nothing :
    Reachable (aesdWrite WriteEnv.granted emptied [97, 10]).1 ∧
      content (aesdWrite WriteEnv.granted emptied [97, 10]).1 = [97, 10] ∧
      (readBack 0 ⟨fun _ => 4096, true, fun _ => by decide⟩ true
        (aesdWrite WriteEnv.granted emptied [97, 10]).1 9 (opened 0)).map ReadBack.sent
          = some [] ∧
      ¬ ReadsBack (aesdWrite WriteEnv.granted emptied [97, 10]).1 0 := by
  have hreach : Reachable (aesdWrite WriteEnv.granted emptied [97, 10]).1 :=
    .write _ _ reachable_emptied
  refine ⟨hreach, by decide +kernel, by decide +kernel, ?_⟩
  refine not_readsBack hreach (Or.inl rfl) ?_
  rintro (hlive | hnil)
  · exact absurd hlive (by decide +kernel)
  · exact absurd hnil (by decide +kernel)

/-! ## In the server -/

section InServer

variable {s t u : Server} {a : Action} {i fd : Nat} {h : Handler}

/-- The handler is in the loop, at `fread` or at `send`. -/
def readingBack : Pc → Bool
  | .readBack _ | .send _ => true
  | _ => false

/-- While a handler reads back, no thread writes to the device. -/
theorem next_dev_of_readingBack (hs : Locked s) (hget : s.handlers[i]? = some h)
    (hloop : readingBack h.pc = true) (hnext : next s a = some t) :
    t.shared.dev = s.shared.dev := by
  rcases next_cases hnext with ⟨-, rfl⟩ | ⟨m, rfl, hmain⟩ |
    ⟨j, ha, hd, sh', hd', rfl, hgetj, hstep, rfl⟩
  · rfl
  · exact (mainStep_frame hmain).2.1
  · rcases dev_cases hstep with hdev | ⟨-, fd', piece, pieces, hwrite, -⟩
    · exact hdev
    · -- the writer would be inside too, so it would be the same thread
      have hin : inside h.pc = true := by
        cases hpc : h.pc <;> rw [hpc] at hloop <;> first | rfl | cases hloop
      have hi := hs i h hget hin
      have hj := hs j hd hgetj (by rw [hwrite]; rfl)
      rw [Option.some.inj (hi.symm.trans hj), hgetj] at hget
      rw [← Option.some.inj hget, hwrite] at hloop
      cases hloop

/-- **THE DEVICE STANDS STILL**: from any reachable state, through any steps of any
    threads, as long as the handler is in its loop. -/
theorem dev_fixed_during_readBack (hs : Starts s) (hrun : RunsTo next (fun _ _ => True) s t)
    (hloop : RunsTo next (fun u _ => ∃ h, u.handlers[i]? = some h ∧ readingBack h.pc = true) t u) :
    u.shared.dev = t.shared.dev := by
  have hinv : Locked u ∧ u.shared.dev = t.shared.dev := by
    refine hloop.invariant (I := fun u => Locked u ∧ u.shared.dev = t.shared.dev) ?_
      ⟨locked_run hs hrun, rfl⟩
    rintro v a w ⟨hv, hdev⟩ ⟨h, hget, hback⟩ hnext
    exact ⟨hv.next hnext, (next_dev_of_readingBack hv hget hback hnext).trans hdev⟩
  exact hinv.2

/-- The server's device is one the driver can reach. -/
theorem reachable_dev_run (hdev : Reachable s.shared.dev)
    (hrun : RunsTo next (fun _ _ => True) s t) : Reachable t.shared.dev := by
  refine hrun.invariant (I := fun t => Reachable t.shared.dev) ?_ hdev
  intro v a w hv _ hnext
  rcases next_cases hnext with ⟨-, rfl⟩ | ⟨m, rfl, hmain⟩ |
    ⟨j, ha, hd, sh', hd', rfl, hgetj, hstep, rfl⟩
  · exact hv
  · rw [(mainStep_frame hmain).2.1]
    exact hv
  · rcases dev_cases hstep with hsame | ⟨env, fd', piece, pieces, -, hwrite⟩
    · show Reachable sh'.dev
      rw [hsame]
      exact hv
    · show Reachable sh'.dev
      rw [hwrite]
      exact .write env piece hv

/-- One step of a handler that has a result. -/
theorem next_handler {sh' : Shared} {h' : Handler} {ha : HandlerAction}
    (hlive : s.shared.exited = false) (hget : s.handlers[i]? = some h)
    (hstep : handlerStep (canJoin s (some i)) i s.shared h ha = some (sh', h')) :
    next s (.handler i ha) = some { s with shared := sh', handlers := s.handlers.set i h' } := by
  simp only [next, hlive, Bool.false_eq_true, if_false, hget, Option.bind_some, hstep,
    Option.map_some]

/-- A block is read and sent: the handler is where it was. -/
theorem next_fread_send (hlive : s.shared.exited = false) (hget : s.handlers[i]? = some h)
    (hpc : h.pc = .readBack fd) :
    ((next s (.handler i (.fread .data))).bind fun t => next t (.handler i .send)) = some s := by
  have hread : handlerStep (canJoin s (some i)) i s.shared h (.fread .data)
      = some (s.shared, { h with pc := .send fd }) := by
    simp only [handlerStep, hpc]
  obtain ⟨hlt, hself⟩ := List.getElem?_eq_some_iff.mp hget
  have hset : (s.handlers.set i { h with pc := .send fd })[i]? = some { h with pc := .send fd } :=
    List.getElem?_set_self hlt
  have hsend := @next_handler
    { s with handlers := s.handlers.set i { h with pc := .send fd } }
    i { h with pc := .send fd } _ _ .send hlive hset rfl
  have hback : { h with pc := .readBack fd } = h := by rw [← hpc]
  rw [next_handler hlive hget hread, Option.bind_some, hsend, List.set_set, hback, ← hself,
    List.set_getElem_self]

/-- The last two steps: the file is closed and the mutex released. -/
theorem checkedRun_readsBack_zero (hlive : s.shared.exited = false)
    (hget : s.handlers[i]? = some h) (hpc : h.pc = .readBack fd) :
    checkedRun next (fun _ _ => true) s (readsBack i 0) = some
      { s with
        shared := { closeFd s.shared i fd with fileMutex := none }
        handlers := s.handlers.set i
          { h with bufferString := aesdTemperaryBufferClean h.bufferString, pc := .poll } } := by
  have hlt : i < s.handlers.length := (List.getElem?_eq_some_iff.mp hget).1
  have heof : handlerStep (canJoin s (some i)) i s.shared h (.fread .eof)
      = some (closeFd s.shared i fd, { h with pc := .unlock }) := by
    simp only [handlerStep, hpc]
  have hset : (s.handlers.set i { h with pc := .unlock })[i]? = some { h with pc := .unlock } :=
    List.getElem?_set_self hlt
  have hunlock := @next_handler
    { s with
      shared := closeFd s.shared i fd
      handlers := s.handlers.set i { h with pc := .unlock } }
    i { h with pc := .unlock } _ _ .unlock hlive hset rfl
  show ((next s (.handler i (.fread .eof))).bind fun t =>
    (next t (.handler i .unlock)).bind fun u => some u) = _
  rw [next_handler hlive hget heof, Option.bind_some, hunlock, Option.bind_some, List.set_set]

/-- The loop as steps of the server: `n` blocks, the end of the file, unlock. -/
theorem checkedRun_readsBack (hlive : s.shared.exited = false) (hget : s.handlers[i]? = some h)
    (hpc : h.pc = .readBack fd) (n : Nat) :
    checkedRun next (fun _ _ => true) s (readsBack i n) = some
      { s with
        shared := { closeFd s.shared i fd with fileMutex := none }
        handlers := s.handlers.set i
          { h with bufferString := aesdTemperaryBufferClean h.bufferString, pc := .poll } } := by
  induction n with
  | zero => exact checkedRun_readsBack_zero hlive hget hpc
  | succ n ih =>
      show ((next s (.handler i (.fread .data))).bind fun t => (next t (.handler i .send)).bind
        fun u => checkedRun next (fun _ _ => true) u (readsBack i n)) = _
      rw [← Option.bind_assoc, next_fread_send hlive hget hpc, Option.bind_some]
      exact ih

/-- **THE ANSWER TO A CLIENT**: in every state that the server reaches without a stray
    close and in which a handler is in its loop, the loop reads the device; if the
    oldest entry is at `out_offs`, it sends the content from its start position on, and
    that many blocks later the handler is back at `poll`, with the mutex released and
    the device as it was. -/
theorem handler_reads_back (hs : Starts s) (hdev : Reachable s.shared.dev)
    (hrun : RunsTo next (fun s a => closesOwn s a = true) s t) (hlive : t.shared.exited = false)
    (hget : t.handlers[i]? = some h) (hpc : h.pc = .readBack fd)
    (hold : OldestAtOutOffs t.shared.dev) {p : Int} (hp : StartPosition t.shared.dev p)
    (zero : Tagged) (stdio : Stdio) :
    onDevice t.shared fd = true ∧ ∃ sent u, (∃ enough, ∀ fuel, enough ≤ fuel →
        readBack zero stdio true t.shared.dev fuel (opened p) = some ⟨sent, none⟩) ∧
      sent.flatten = (content t.shared.dev).drop p.toNat ∧
      checkedRun next (fun _ _ => true) t (readsBack i sent.length) = some u ∧
      u.shared.dev = t.shared.dev ∧ u.shared.fileMutex = none ∧
      (u.handlers[i]?.map Handler.pc) = some .poll := by
  have hreach := reachable_dev_run hdev (hrun.mono fun _ _ _ => trivial)
  have hreads := readsBack_of_oldest hreach hp hold
  have hfile := ((allHeld_run hs hrun).handlers i h hget).file fd (by rw [hpc]; rfl)
  obtain ⟨sent, hloop, hsent⟩ := hreads zero stdio
  have hlt : i < t.handlers.length := (List.getElem?_eq_some_iff.mp hget).1
  refine ⟨onDevice_file hfile, sent, _, hloop, hsent,
    checkedRun_readsBack hlive hget hpc sent.length, rfl, rfl, ?_⟩
  rw [List.getElem?_set_self hlt]
  rfl

end InServer

end AesdReadBack
