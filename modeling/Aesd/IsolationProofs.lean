import Aesd.LockProofs
import Aesd.OwnershipProofs

/-! # Bytes of different connections

    Three layers decide whether a ring entry can hold bytes of two connections:
    what `clientHandler` commits, how stdio cuts it into `write` calls, and which
    of these calls the driver commits or keeps pending.  The driver's pending
    buffer outlives the critical section when the last of the calls has no
    newline, which takes a commit of more than one block whose newline lies in
    the blocks.

    The invariant follows the mutex: while it is free the pending buffer is
    empty, and while handler `i` writes, what is pending and what is still to be
    written came from connection `i`, and the last of it has a newline.  It rests on
    every handler's having its own descriptors: a stray `close` would let one handler
    receive from another one's client. -/

namespace AesdIsolation

open AesdMachine AesdTemperary AesdRing AesdDriver AesdClient AesdServer AesdLock AesdOwnership
open CyclicQueue DescriptorTable Transition

/-- All bytes were received on connection `i`. -/
def From (i : Nat) (bs : List Tagged) : Prop := ∀ x ∈ bs, x.conn = i

theorem From.append {i : Nat} {xs ys : List Tagged} (hx : From i xs) (hy : From i ys) :
    From i (xs ++ ys) := by
  intro x h
  rcases List.mem_append.mp h with h | h
  · exact hx x h
  · exact hy x h

theorem from_tag (i : Nat) (chunk : List UInt8) : From i (tag i chunk) := by
  intro x hx
  obtain ⟨c, -, rfl⟩ := List.mem_map.mp hx
  rfl

/-! ## How stdio cuts a commit -/

/-- The last `write` call of a commit has a newline: everything fits into whole
    blocks, or the rest has one. -/
def whole (bytes : List Tagged) : Bool :=
  bytes.length % blockSize == 0 || hasNewline (remainder bytes)

theorem remainder_eq_nil {bytes : List Tagged} (h : bytes.length % blockSize = 0) :
    bytes.take (bytes.length / blockSize * blockSize) = bytes ∧ remainder bytes = [] := by
  have hlen : bytes.length / blockSize * blockSize = bytes.length :=
    Nat.div_mul_cancel (Nat.dvd_of_mod_eq_zero h)
  rw [remainder, hlen]
  exact ⟨List.take_length, List.drop_length⟩

theorem getLast?_stdioWrites {bytes piece : List Tagged} (hn : hasNewline bytes = true)
    (hwhole : whole bytes = true) (h : (stdioWrites bytes).getLast? = some piece) :
    hasNewline piece = true := by
  have hpos := length_pos_of_hasNewline hn
  by_cases hmod : bytes.length % blockSize = 0
  · obtain ⟨htake, hrem⟩ := remainder_eq_nil hmod
    have hne : bytes.isEmpty = false := by
      cases bytes with
      | nil => exact absurd hpos (Nat.lt_irrefl 0)
      | cons _ _ => rfl
    simp only [stdioWrites, htake, hrem, List.filter_cons, hne] at h
    rw [← Option.some.inj h]
    exact hn
  · have hrem : hasNewline (remainder bytes) = true := by
      simp only [whole, beq_eq_false_iff_ne.mpr hmod, Bool.false_or] at hwhole
      exact hwhole
    have hne : (remainder bytes).isEmpty = false := by
      have hrpos := length_pos_of_hasNewline hrem
      cases hr : remainder bytes with
      | nil =>
          rw [hr] at hrpos
          exact absurd hrpos (Nat.lt_irrefl 0)
      | cons _ _ => rfl
    rw [stdioWrites, ← List.singleton_append, List.filter_append] at h
    simp only [List.filter_cons, hne, List.filter_nil, Bool.not_false, if_true,
      List.getLast?_concat] at h
    rw [← Option.some.inj h]
    exact hrem

theorem from_stdioWrites {i : Nat} {bytes : List Tagged} (h : From i bytes) :
    ∀ piece ∈ stdioWrites bytes, From i piece := by
  intro piece hp x hx
  have hmem := List.mem_of_mem_filter hp
  simp only [List.mem_cons, List.not_mem_nil, or_false] at hmem
  rcases hmem with rfl | rfl
  · exact h x (List.mem_of_mem_take hx)
  · exact h x (List.mem_of_mem_drop hx)

/-! ## The invariant -/

/-- What is pending and what is still to be written, of connection `i`, ends in a
    call that commits it. -/
structure Finishes (i : Nat) (pieces : List (List Tagged)) (pending : List Tagged) : Prop where
  waiting : From i pending
  ahead   : ∀ piece ∈ pieces, From i piece
  nothing : pieces = [] → pending = []
  last    : ∀ piece, pieces.getLast? = some piece → hasNewline piece = true

/-- The driver's pending bytes, seen from the place of the holder of the mutex. -/
def PendingAt (i : Nat) (pc : Pc) (pending : List Tagged) : Prop :=
  match pc with
  | .write _ pieces => Finishes i pieces pending
  | _ => pending = []

/-- The buffer is in good order, and its bytes are all of one kind. -/
def Filled (kind : Tagged → Prop) (b : AesdTemperaryBuffer Tagged) : Prop :=
  ∃ bs, Holds b bs ∧ bs.length < 2 ^ 63 ∧ ∀ x ∈ bs, kind x

/-- The buffer holds bytes of connection `i`. -/
def OwnBuffer (i : Nat) (b : AesdTemperaryBuffer Tagged) : Prop := Filled (fun x => x.conn = i) b

/-- The handler of connection `i`, its buffer and the device. -/
structure Isolated (sh : Shared) (i : Nat) (h : Handler) : Prop where
  buffer  : OwnBuffer i h.bufferString
  newline : h.pc = .lock ∨ h.pc = .command → hasNewline h.bufferString.bytes = true
  locked  : inside h.pc = true → sh.fileMutex = some i
  pending : sh.fileMutex = some i → PendingAt i h.pc sh.dev.bufferTemperary.bytes

/-- Every entry is of one connection, and nothing is pending while the mutex is
    free. -/
structure DeviceIsolated (sh : Shared) : Prop where
  stores : ∃ q pending, Models sh.dev q pending ∧ ∀ b ∈ q.items, ∃ i, From i b
  idle   : sh.fileMutex = none → sh.dev.bufferTemperary.bytes = []

section Others

variable {canJoin : Option Nat → Bool} {i : Nat} {sh sh' : Shared} {h h' : Handler}
  {a : HandlerAction}

/-- **STABILITY**: a step of handler `i` changes neither what another handler holds
    nor, while it holds it, the device. -/
theorem Isolated.stable {j : Nat} {k : Handler} (hk : Isolated sh j k) (hji : j ≠ i)
    (hlocked : inside h.pc = true → sh.fileMutex = some i)
    (hstep : HandlerStep canJoin i sh h a sh' h') : Isolated sh' j k := by
  have hother := mutex_other_iff hji hlocked hstep
  refine ⟨hk.buffer, hk.newline, fun hin => hother.mpr (hk.locked hin), ?_⟩
  intro hheld
  have hheld' := hother.mp hheld
  rcases dev_cases hstep with hdev | ⟨-, fd, piece, pieces, hpc, -⟩
  · rw [hdev]
    exact hk.pending hheld'
  · have hin : inside h.pc = true := by rw [hpc]; rfl
    exact absurd (Option.some.inj ((hlocked hin).symm.trans hheld')).symm hji

end Others

/-! ## The handler's own steps -/

section OwnSteps

variable {canJoin : Option Nat → Bool} {i : Nat} {sh sh' : Shared} {h h' : Handler}
  {a : HandlerAction}

/-- A chunk leaves the buffer with bytes of its kind, and a committed buffer has a
    newline. -/
theorem Filled.receive {kind : Tagged → Prop} {granted : Bool} {b b' : AesdTemperaryBuffer Tagged}
    {data : Option (List Tagged)} (hb : Filled kind b)
    (hkind : ∀ bytes, data = some bytes → ∀ x ∈ bytes, kind x)
    (hlen : (data.getD []).length < bufferSize) :
    (receive granted b data = .commit b' → Filled kind b' ∧ hasNewline b'.bytes = true) ∧
    (receive granted b data = .again b' → Filled kind b') ∧
    (receive granted b data = .closed b' → Filled kind b') := by
  obtain ⟨bs, hholds, hbs, hall⟩ := hb
  rcases receive_cases hholds hbs granted data hlen with
    ⟨why, heq⟩ | heq | ⟨bytes, hbytes, hroom, heq⟩
  · rw [heq]
    exact ⟨(fun h => nomatch h), (fun h => nomatch h), (fun h => nomatch h)⟩
  · rw [heq]
    refine ⟨(fun h => nomatch h), (fun h => nomatch h), fun h => ?_⟩
    rw [← Received.closed.inj h]
    exact ⟨[], holds_init, Nat.two_pow_pos 63, fun _ hx => nomatch hx⟩
  · have hfilled : Filled kind (held (bs ++ bytes)) := by
      refine ⟨_, .block _, hroom, fun x hx => ?_⟩
      rcases List.mem_append.mp hx with hx | hx
      · exact hall x hx
      · exact hkind bytes hbytes x hx
    rw [heq]
    cases ht : takes bs bytes with
    | false =>
        refine ⟨(fun h => nomatch h), fun h => ?_, (fun h => nomatch h)⟩
        rw [← Received.again.inj h]
        exact hfilled
    | true =>
        refine ⟨fun h => ?_, (fun h => nomatch h), (fun h => nomatch h)⟩
        -- the scan saw a newline among the first bytes
        obtain ⟨x, hx, hnl⟩ := List.any_eq_true.mp ht
        rw [← Received.commit.inj h, held_bytes]
        exact ⟨hfilled, List.any_eq_true.mpr ⟨x, List.mem_of_mem_take hx, hnl⟩⟩

theorem Filled.clean {kind : Tagged → Prop} {b : AesdTemperaryBuffer Tagged}
    (hb : Filled kind b) : Filled kind (aesdTemperaryBufferClean b) := by
  obtain ⟨bs, hholds, -, -⟩ := hb
  exact ⟨[], hholds.clean, Nat.two_pow_pos 63, fun _ hx => nomatch hx⟩

theorem filled_init (kind : Tagged → Prop) : Filled kind aesdTemperaryBufferInit :=
  ⟨[], holds_init, Nat.two_pow_pos 63, fun _ hx => nomatch hx⟩

/-- A thread inside its critical section holds the mutex and knows what is
    pending. -/
theorem Isolated.holding (hi : Isolated sh i h) {pc : Pc} (hpc : h.pc = pc)
    (hin : inside pc = true) :
    sh.fileMutex = some i ∧ PendingAt i pc sh.dev.bufferTemperary.bytes := by
  subst hpc
  have hheld := hi.locked hin
  exact ⟨hheld, hi.pending hheld⟩

/-- A step that leaves the mutex and the device alone. -/
theorem Isolated.move (hi : Isolated sh i h) (hdev : sh'.dev = sh.dev)
    (hmutex : sh'.fileMutex = sh.fileMutex)
    (hbuffer : OwnBuffer i h'.bufferString)
    (hnewline : h'.pc = .lock ∨ h'.pc = .command → hasNewline h'.bufferString.bytes = true)
    (hin : inside h'.pc = true → inside h.pc = true)
    (hpending : ∀ p, PendingAt i h.pc p → PendingAt i h'.pc p) : Isolated sh' i h' := by
  refine ⟨hbuffer, hnewline, ?_, ?_⟩
  · intro hin'
    rw [hmutex]
    exact hi.locked (hin hin')
  · rw [hmutex, hdev]
    exact fun hheld => hpending _ (hi.pending hheld)

theorem Isolated.congr (hi : Isolated sh i h) (hdev : sh'.dev = sh.dev)
    (hmutex : sh'.fileMutex = sh.fileMutex) : Isolated sh' i h :=
  hi.move hdev hmutex hi.buffer hi.newline id fun _ hp => hp

theorem DeviceIsolated.congr (hd : DeviceIsolated sh) (hdev : sh'.dev = sh.dev)
    (hmutex : sh'.fileMutex = sh.fileMutex) : DeviceIsolated sh' := by
  constructor
  · rw [hdev]
    exact hd.stores
  · rw [hmutex, hdev]
    exact hd.idle

/-- What is left to write ends as the whole did. -/
theorem Finishes.tail {piece : List Tagged} {pieces : List (List Tagged)}
    {pending pending' : List Tagged} (h : Finishes i (piece :: pieces) pending)
    (hwaiting : From i pending') (hnothing : pieces = [] → pending' = []) :
    Finishes i pieces pending' := by
  refine ⟨hwaiting, fun p hp => h.ahead p (List.mem_cons_of_mem _ hp), hnothing, ?_⟩
  intro p hp
  cases pieces with
  | nil => exact nomatch hp
  | cons c cs => exact h.last p (by rw [List.getLast?_cons_cons]; exact hp)

/-- One granted `write` call: the piece joins what is pending, or both are
    committed as an entry of connection `i`. -/
theorem write_outcome {dev : AesdDev Tagged} {q : SlotQueue 10 (List Tagged)}
    {pending piece : List Tagged} {pieces : List (List Tagged)} (hm : Models dev q pending)
    (hmono : ∀ b ∈ q.items, ∃ i, From i b) (hfin : Finishes i (piece :: pieces) pending)
    (hroom : kmalloc true dev.inUse piece.length = true) :
    ∃ q' pending', Models (aesdWrite WriteEnv.granted dev piece).1 q' pending' ∧
      (∀ b ∈ q'.items, ∃ i, From i b) ∧ Finishes i pieces pending' ∧
      (aesdWrite WriteEnv.granted dev piece).2 = piece.length := by
  have hpiece : From i piece := hfin.ahead piece (List.mem_cons_self ..)
  have ha := accepts_granted hroom
  cases hn : hasNewline piece with
  | true =>
      obtain ⟨hret, -, hm'⟩ := aesdWrite_commit hm ha hn
      refine ⟨_, _, hm', ?_, hfin.tail (fun x hx => nomatch hx) (fun _ => rfl), hret⟩
      intro b hb
      rcases mem_add_items hb with hold | rfl
      · exact hmono b hold
      · exact ⟨i, hfin.waiting.append hpiece⟩
  | false =>
      obtain ⟨hret, hm'⟩ := aesdWrite_pending hm ha hn
      refine ⟨q, _, hm', hmono, hfin.tail (hfin.waiting.append hpiece) ?_, hret⟩
      -- a piece without a newline is not the last one
      rintro rfl
      have hsome := hfin.last piece rfl
      rw [hn] at hsome
      exact nomatch hsome

/-- One `write` call of a commit, with its allocations granted. -/
theorem write_step (hd : DeviceIsolated sh) (hi : Isolated sh i h) {fd : Nat}
    {piece : List Tagged} {pieces : List (List Tagged)} (hpc : h.pc = .write fd (piece :: pieces))
    (hroom : kmalloc true sh.dev.inUse piece.length = true) :
    DeviceIsolated { sh with dev := (aesdWrite WriteEnv.granted sh.dev piece).1 } ∧
      Isolated { sh with dev := (aesdWrite WriteEnv.granted sh.dev piece).1 } i
        { h with pc := .write fd (if (aesdWrite WriteEnv.granted sh.dev piece).2 < 0 then []
          else pieces) } := by
  obtain ⟨hheld, hfin⟩ := hi.holding hpc rfl
  obtain ⟨q, pending, hm, hmono⟩ := hd.stores
  have hfin' : Finishes i (piece :: pieces) pending := hm.temp.bytes_eq ▸ hfin
  obtain ⟨q', pending', hm', hmono', hleft, hret⟩ := write_outcome hm hmono hfin' hroom
  -- the call reported its length, so stdio goes on
  have hpieces : (if (aesdWrite WriteEnv.granted sh.dev piece).2 < 0 then [] else pieces)
      = pieces := if_neg (by rw [hret]; omega)
  rw [hpieces]
  refine ⟨⟨⟨q', pending', hm', hmono'⟩, fun hfree => nomatch hheld.symm.trans hfree⟩,
    ⟨hi.buffer, ?_, fun _ => hheld, fun _ => ?_⟩⟩
  · rintro (heq | heq) <;> exact nomatch heq
  · show Finishes i pieces (aesdWrite WriteEnv.granted sh.dev piece).1.bufferTemperary.bytes
    rw [hm'.temp.bytes_eq]
    exact hleft

theorem deviceAction_write {after : List UInt8} {b : AesdTemperaryBuffer Tagged}
    {bytes : List Tagged} (hact : deviceAction after b = .write bytes) : bytes = b.bytes := by
  simp only [deviceAction] at hact
  split at hact
  · exact nomatch hact
  · exact (DeviceAction.write.inj hact).symm

/-- The handler's buffer holds bytes of its kind after any of its steps, if `recv` gives
    it such bytes. -/
theorem filled_step {kind : Tagged → Prop} (hb : Filled kind h.bufferString)
    (hrecv : h.pc = .recv → ∀ chunk bytes, recvFrom sh h chunk = some bytes → ∀ x ∈ bytes, kind x)
    (hstep : HandlerStep canJoin i sh h a sh' h') :
    Filled kind h'.bufferString ∧
      (h'.pc = .lock → hasNewline h'.bufferString.bytes = true) := by
  cases hstep with
  | receivedClosed granted chunk b hpc hlen hclosed =>
      have hle := length_recvFrom_le sh h chunk
      exact ⟨(hb.receive (hrecv hpc chunk) (by omega)).2.2 hclosed, fun heq => nomatch heq⟩
  | receivedCommit granted chunk b hpc hlen hcommit =>
      have hle := length_recvFrom_le sh h chunk
      obtain ⟨hfilled, hnl⟩ := (hb.receive (hrecv hpc chunk) (by omega)).1 hcommit
      exact ⟨hfilled, fun _ => hnl⟩
  | receivedAgain granted chunk b hpc hlen hagain =>
      have hle := length_recvFrom_le sh h chunk
      exact ⟨(hb.receive (hrecv hpc chunk) (by omega)).2.1 hagain, fun heq => nomatch heq⟩
  | seekFailed copied fd command hpc hdev hneg => exact ⟨hb.clean, fun heq => nomatch heq⟩
  | seekElsewhere fd command hpc hdev => exact ⟨hb.clean, fun heq => nomatch heq⟩
  | unlock hpc => exact ⟨hb.clean, fun heq => nomatch heq⟩
  | finish hpc => exact ⟨hb.clean, fun heq => nomatch heq⟩
  | pollNeither hpc => exact ⟨hb, fun heq => nomatch hpc.symm.trans heq⟩
  | _ => exact ⟨hb, fun heq => nomatch heq⟩

/-- It holds bytes of its own connection, as long as it has that. -/
theorem ownBuffer_step (hheld : Held sh i h) (hb : OwnBuffer i h.bufferString)
    (hstep : HandlerStep canJoin i sh h a sh' h') : OwnBuffer i h'.bufferString ∧
      (h'.pc = .lock → hasNewline h'.bufferString.bytes = true) := by
  refine filled_step hb ?_ hstep
  intro hpc chunk bytes hbytes
  rw [recvFrom_conn (hheld.sock (by rw [hpc]; rfl))] at hbytes
  obtain ⟨data, -, rfl⟩ := Option.map_eq_some_iff.mp hbytes
  exact from_tag i data

/-- A commit of data begins: its `write` calls come from the handler's buffer, and the
    last of them has a newline. -/
theorem data_step (hi : Isolated sh i h) {after : List UInt8} {bytes : List Tagged}
    (hpc : h.pc = .command) (hact : deviceAction after h.bufferString = .write bytes)
    (hwhole : whole bytes = true) :
    Isolated (fopen sh i) i { h with pc := .write (lowestFree sh.fds) (stdioWrites bytes) } := by
  obtain ⟨hheld, hnone⟩ := hi.holding hpc rfl
  have hnl := hi.newline (Or.inr hpc)
  obtain ⟨bs, hholds, -, hfrom⟩ := hi.buffer
  have hbytes : bytes = bs := (deviceAction_write hact).trans hholds.bytes_eq
  rw [hholds.bytes_eq, ← hbytes] at hnl
  refine ⟨hi.buffer, by simp, fun _ => hheld, fun _ => ?_⟩
  refine ⟨?_, from_stdioWrites (hbytes ▸ hfrom), fun _ => hnone, fun piece hlast =>
    getLast?_stdioWrites hnl hwhole hlast⟩
  rw [show (fopen sh i).dev.bufferTemperary.bytes = [] from hnone]
  rintro x ⟨⟩

/-- The step lemma of a handler: its device writes are granted, and what it
    commits as data ends in a call with a newline. -/
theorem isolated_step (hheld : Held sh i h) (hd : DeviceIsolated sh) (hi : Isolated sh i h)
    (hgranted : ∀ env, a = .write env → env = WriteEnv.granted ∧ ∀ fd piece pieces,
      h.pc = .write fd (piece :: pieces) → kmalloc true sh.dev.inUse piece.length = true)
    (hwhole : ∀ after bytes, a = .command after →
      deviceAction after h.bufferString = .write bytes → whole bytes = true)
    (hstep : HandlerStep canJoin i sh h a sh' h') :
    DeviceIsolated sh' ∧ Isolated sh' i h' := by
  obtain ⟨hbuffer, hnl⟩ := ownBuffer_step hheld hi.buffer hstep
  cases hstep with
  | receivedCommit granted chunk b hpc hlen hcommit =>
      exact ⟨hd, hi.move rfl rfl hbuffer (fun _ => hnl rfl) (by rintro ⟨⟩)
        (fun p hp => by rw [hpc] at hp; exact hp)⟩
  | receivedAgain granted chunk b hpc hlen hagain =>
      exact ⟨hd, hi.move rfl rfl hbuffer (by simp) (by rintro ⟨⟩)
        (fun p hp => by rw [hpc] at hp; exact hp)⟩
  | receivedClosed granted chunk b hpc hlen hclosed =>
      exact ⟨hd.congr rfl rfl, hi.move rfl rfl hbuffer (by simp) (by rintro ⟨⟩)
        (fun p hp => by rw [hpc] at hp; exact hp)⟩
  | lock hpc hfree =>
      have hidle := hd.idle hfree
      exact ⟨⟨hd.stores, by rintro ⟨⟩⟩, ⟨hbuffer, fun _ => hi.newline (Or.inl hpc),
        fun _ => rfl, fun _ => hidle⟩⟩
  | data after bytes hpc hact =>
      exact ⟨hd.congr rfl rfl, data_step hi hpc hact (hwhole after bytes rfl hact)⟩
  | seekFailed copied fd command hpc hdev hneg =>
      obtain ⟨-, hnone⟩ := hi.holding hpc rfl
      exact ⟨⟨hd.stores, fun _ => hnone⟩, ⟨hbuffer, by simp [seekExit, Handler.exit],
        (by rintro ⟨⟩), by rintro ⟨⟩⟩⟩
  | seekElsewhere fd command hpc hdev =>
      exact absurd hdev (hheld.not_elsewhere (by rw [hpc]; rfl))
  | writeElsewhere ok fd piece pieces hpc hdev =>
      exact absurd hdev (hheld.not_elsewhere (by rw [hpc]; rfl))
  | unlock hpc =>
      obtain ⟨-, hnone⟩ := hi.holding hpc rfl
      exact ⟨⟨hd.stores, fun _ => hnone⟩, ⟨hbuffer, by simp, (by rintro ⟨⟩), by rintro ⟨⟩⟩⟩
  | write env fd piece pieces hpc hdev =>
      obtain ⟨rfl, hroom⟩ := hgranted env rfl
      exact write_step hd hi hpc (hroom fd piece pieces hpc)
  | reopen fd hpc =>
      obtain ⟨hheld, hfin⟩ := hi.holding hpc rfl
      exact ⟨hd.congr rfl rfl, ⟨hbuffer, by simp, fun _ => hheld, fun _ => hfin.nothing rfl⟩⟩
  | finish hpc =>
      have hclose : (if 0 < h.newSockFd then closeFd sh i h.newSockFd else sh).dev = sh.dev ∧
          (if 0 < h.newSockFd then closeFd sh i h.newSockFd else sh).fileMutex
            = sh.fileMutex := by
        split <;> exact ⟨rfl, rfl⟩
      exact ⟨hd.congr hclose.1 hclose.2, hi.move hclose.1 hclose.2 hbuffer (by simp)
        (by rintro ⟨⟩) (fun p hp => by rw [hpc] at hp; exact hp)⟩
  | cleanup why stage sh' stage' hpc hclean =>
      have hframe := cleanupStep_frame hclean
      exact ⟨hd.congr hframe.dev hframe.mutex, hi.move hframe.dev hframe.mutex hbuffer (by simp)
        (by rintro ⟨⟩) (fun p hp => by rw [hpc] at hp; exact hp)⟩
  | pollNeither hpc => exact ⟨hd, hi⟩
  | _ =>
      exact ⟨hd.congr rfl rfl, hi.move rfl rfl hbuffer (by simp [Handler.exit])
        (by simp_all [inside, Handler.exit])
        (fun p hp => by simp_all [PendingAt, Handler.exit])⟩

end OwnSteps

/-! ## Whole runs -/

/-- The bytes of the next `write` call. -/
def nextPiece (h : Handler) : Option (List Tagged) :=
  match h.pc with
  | .write _ (piece :: _) => some piece
  | _ => none

/-- The allocations and the user copy of a device write succeed. -/
def writesGranted (s : Server) : Action → Bool
  | .handler i (.write env) =>
      env == WriteEnv.granted &&
        (s.handlers[i]?.bind nextPiece).all fun piece =>
          kmalloc true s.shared.dev.inUse piece.length
  | _ => true

/-- What a handler commits as data ends in a `write` call with a newline. -/
def commitsWhole (s : Server) : Action → Bool
  | .handler i (.command after) =>
      s.handlers[i]?.all fun h =>
        match deviceAction after h.bufferString with
        | .write bytes => whole bytes
        | .seek _ => true
  | _ => true

structure AllIsolated (s : Server) : Prop where
  held     : AllHeld s
  device   : DeviceIsolated s.shared
  holder   : ∀ i, s.shared.fileMutex = some i → i < s.handlers.length
  handlers : AllAt (Isolated s.shared) s.handlers

/-- The main thread only adds handlers. -/
theorem AllIsolated.main {s t : Server} {m : MainAction} (hs : AllIsolated s)
    (hheld : AllHeld t) (hmain : MainStep s m t) : AllIsolated t := by
  obtain ⟨hmutex, hdev, -⟩ := mainStep_frame hmain
  have hold : AllAt (Isolated t.shared) s.handlers :=
    hs.handlers.mono fun j k _ hk => hk.congr hdev hmutex
  have hholder : ∀ i, t.shared.fileMutex = some i → i < s.handlers.length := by
    rw [hmutex]
    exact hs.holder
  have hdevice := hs.device.congr hdev hmutex
  cases hmain with
  | created fd ok hpc =>
      refine ⟨hheld, hdevice, ?_, hold.append ?_ fun j k _ _ hk => hk⟩
      · intro i hi
        rw [List.length_append]
        exact Nat.lt_add_right _ (hholder i hi)
      · refine ⟨filled_init _, ?_, ?_, ?_⟩
        · cases ok <;> simp
        · cases ok <;> exact fun hin => nomatch hin
        · intro hheld
          exact absurd (hholder _ hheld) (Nat.lt_irrefl _)
  | _ => exact ⟨hheld, hdevice, hholder, hold⟩

/-- A handler moves; the others keep what they hold. -/
theorem AllIsolated.handler {s : Server} {i : Nat} {a : HandlerAction} {hd hd' : Handler}
    {sh' : Shared} (hs : AllIsolated s) (hgranted : writesGranted s (.handler i a) = true)
    (hwhole : commitsWhole s (.handler i a) = true)
    (hheld : AllHeld { s with shared := sh', handlers := s.handlers.set i hd' })
    (hget : s.handlers[i]? = some hd)
    (hstep : HandlerStep (canJoin s (some i)) i s.shared hd a sh' hd') :
    AllIsolated { s with shared := sh', handlers := s.handlers.set i hd' } := by
  have hi := hs.handlers i hd hget
  have hlt : i < s.handlers.length := (List.getElem?_eq_some_iff.mp hget).1
  have hroom : ∀ env, a = .write env → env = WriteEnv.granted ∧ ∀ fd piece pieces,
      hd.pc = .write fd (piece :: pieces) →
        kmalloc true s.shared.dev.inUse piece.length = true := by
    rintro env rfl
    simp only [writesGranted, hget, Option.bind_some, Bool.and_eq_true, beq_iff_eq] at hgranted
    refine ⟨hgranted.1, fun fd piece pieces hpc => ?_⟩
    simpa [nextPiece, hpc] using hgranted.2
  have hlast : ∀ after bytes, a = .command after →
      deviceAction after hd.bufferString = .write bytes → whole bytes = true := by
    rintro after bytes rfl hact
    simpa [commitsWhole, hget, hact] using hwhole
  obtain ⟨hdev', hi'⟩ :=
    isolated_step (hs.held.handlers i hd hget) hs.device hi hroom hlast hstep
  refine ⟨hheld, hdev', ?_, hs.handlers.set hi' ?_⟩
  · intro k hk
    rw [List.length_set]
    by_cases hki : k = i
    · rw [hki]
      exact hlt
    · exact hs.holder k ((mutex_other_iff hki hi.locked hstep).mp hk)
  · intro j k hji _ hk
    exact hk.stable hji hi.locked hstep

theorem AllIsolated.next {s t : Server} {a : Action} (hs : AllIsolated s)
    (hgranted : writesGranted s a = true) (hwhole : commitsWhole s a = true)
    (hcloses : closesOwn s a = true) (hnext : next s a = some t) : AllIsolated t := by
  have hheld := hs.held.next hcloses hnext
  rcases next_cases hnext with ⟨-, rfl⟩ | ⟨m, rfl, hmain⟩ |
    ⟨i, ha, hd, sh', hd', rfl, hget, hstep, rfl⟩
  · exact ⟨hheld, hs.device, hs.holder, hs.handlers⟩
  · exact hs.main hheld hmain
  · exact hs.handler hgranted hwhole hheld hget hstep

/-- **ONE CONNECTION PER ENTRY**: the server is the only writer of a freshly loaded
    device, and its device writes are granted.  In every run in which each commit
    of data fills whole blocks or has a newline in the rest, and no second `close`
    hits a number handed out again, the driver has nothing pending while `fileMutex`
    is free, and no ring entry has bytes of two connections. -/
theorem ring_entries_isolated {s t : Server} (hs : Starts s)
    (hdev : s.shared.dev = aesdInitModule)
    (hrun : RunsTo next (fun s a => writesGranted s a = true ∧ commitsWhole s a = true ∧
      closesOwn s a = true) s t) :
    (t.shared.fileMutex = none →
      aesdTemperaryBufferIsEmpty t.shared.dev.bufferTemperary = true) ∧
      ∀ entry ∈ t.shared.dev.retained, ∃ i, From i entry := by
  have hstart : AllIsolated s := by
    refine ⟨.of_starts hs, ⟨⟨CyclicQueue.empty, [], ?_, fun b hb => absurd hb List.not_mem_nil⟩,
      fun _ => ?_⟩, ?_, ?_⟩
    · rw [hdev]
      exact models_init
    · rw [hdev]
      rfl
    · intro i hi
      exact nomatch hs.mutex.symm.trans hi
    · rw [hs.handlers]
      exact allAt_nil _
  have hinv : AllIsolated t :=
    hrun.invariant (fun s a t hinv hok hnext => hinv.next hok.1 hok.2.1 hok.2.2 hnext) hstart
  obtain ⟨q, pending, hm, hmono⟩ := hinv.device.stores
  constructor
  · intro hfree
    rw [hm.temp.isEmpty_iff, ← hm.temp.bytes_eq]
    exact hinv.device.idle hfree
  · rw [hm.retained_eq]
    exact hmono

/-- Two clients send a line each; the second one's chunk arrives while the first one's
    handler writes, and it ends its stream. -/
def answeredLines : List Action :=
  List.flatten [connect, connect, receives 0 [97, 10],
    [.handler 0 .lock, .handler 0 (.command [])], receives 1 [98, 10],
    [.handler 0 (.write WriteEnv.granted), .handler 0 .reopen], readsBack 0 1, writesLine 1,
    readsBack 1 2, receives 1 [], [.handler 1 .finish]]

/-- Each line is an entry of its own, with nothing left pending. -/
theorem ring_entries_isolated_answeredLines :
    ∃ t, RunsTo next (fun s a => writesGranted s a = true ∧ commitsWhole s a = true ∧
        closesOwn s a = true) (freshServer 5) t ∧
      t.shared.dev.retained = [tag 0 [97, 10], tag 1 [98, 10]] ∧
      aesdTemperaryBufferIsEmpty t.shared.dev.bufferTemperary = true ∧
      ∀ entry ∈ t.shared.dev.retained, ∃ i, From i entry := by
  obtain ⟨t, hrun, hseen⟩ := @exists_runsTo _ _ next
    (fun s a => writesGranted s a && (commitsWhole s a && closesOwn s a)) (freshServer 5)
    answeredLines _ (fun t => (t.shared.fileMutex, t.shared.dev.retained))
    (none, [tag 0 [97, 10], tag 1 [98, 10]]) (by decide +kernel)
  obtain ⟨hfree, hretained⟩ := Prod.mk.inj hseen
  have hrun' := hrun.mono (fun _ _ hok => ((Bool.and_eq_true_iff).mp hok).imp_right
    (Bool.and_eq_true_iff).mp)
  obtain ⟨hempty, hown⟩ := ring_entries_isolated (starts_freshServer 5) rfl hrun'
  exact ⟨t, hrun', hretained, hempty hfree, hown⟩

/-- 4511 bytes in nine chunks.  The only newline is at index 500: the first eight
    scans, of 500 bytes each, miss it and the ninth, of 511, finds it. -/
def longPacket : List Action :=
  List.flatten [receives 0 (List.replicate 500 97), receives 0 (10 :: List.replicate 499 97),
    (List.replicate 6 (receives 0 (List.replicate 500 97))).flatten,
    receives 0 (List.replicate 511 97)]

/-- The commit of the long packet, in a full block and a rest, and its answer. -/
def longCommit : List Action :=
  List.flatten [connect, longPacket,
    [.handler 0 .lock, .handler 0 (.command []), .handler 0 (.write WriteEnv.granted),
      .handler 0 (.write WriteEnv.granted), .handler 0 .reopen], readsBack 0 8]

/-- Then a second client commits the line `"b\n"`. -/
def secondCommit : List Action :=
  List.flatten [connect, receives 1 [98, 10], writesLine 1]

/-- **A MIXED ENTRY**: after the long commit the mutex is free and 415 bytes are
    pending; the commit of the second client joins them with its line. -/
theorem ring_entry_of_two_connections :
    ∃ t u, RunsTo next (fun s a => writesGranted s a = true) (freshServer 5) t ∧
      t.shared.fileMutex = none ∧ t.shared.dev.bufferTemperary.bytes.length = 415 ∧
      RunsTo next (fun s a => writesGranted s a = true) t u ∧
      ∃ entry ∈ u.shared.dev.retained, ∀ i, ¬ From i entry := by
  obtain ⟨t, hrun, hseen⟩ := @exists_runsTo _ _ next writesGranted (freshServer 5) longCommit _
    (fun t => (t.shared.fileMutex, t.shared.dev.bufferTemperary.bytes.length,
      (checkedRun next writesGranted t secondCommit).map fun u =>
        u.shared.dev.retained.map fun entry =>
          entry.any (fun x => x.conn == 0) && entry.any (fun x => x.conn == 1)))
    (none, 415, some [false, true]) (by decide +kernel)
  simp only [Prod.mk.injEq] at hseen
  obtain ⟨hfree, hpending, hsecond⟩ := hseen
  obtain ⟨u, hrun', hentries⟩ := exists_runsTo hsecond
  obtain ⟨entry, hentry, hboth⟩ := List.mem_map.mp (hentries ▸ by simp : true ∈
    u.shared.dev.retained.map fun entry =>
      entry.any (fun x => x.conn == 0) && entry.any (fun x => x.conn == 1))
  obtain ⟨hzero, hone⟩ := Bool.and_eq_true_iff.mp hboth
  refine ⟨t, u, hrun, hfree, hpending, hrun', entry, hentry, ?_⟩
  intro i hfrom
  obtain ⟨x, hx, hx0⟩ := List.any_eq_true.mp hzero
  obtain ⟨y, hy, hy1⟩ := List.any_eq_true.mp hone
  have h0 : x.conn = 0 := eq_of_beq hx0
  have h1 : y.conn = 1 := eq_of_beq hy1
  rw [hfrom x hx] at h0
  rw [hfrom y hy, h0] at h1
  exact nomatch h1

end AesdIsolation
