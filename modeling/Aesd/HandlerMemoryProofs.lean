import Aesd.KernelDriverProofs
import Aesd.ReceiveCopyProofs

/-! # The memory of a handler

    `clientHandler` works on four pieces of memory: the `clientData` that `main`
    allocated for it, its local `bufferString`, the block behind `bufferString`, and
    a block of 512 bytes that every pass through the loop asks `calloc` for.  The
    last one is freed after `recv`; a pass that does not come to `recv` leaves it.

    The handler is written here over the checked heap, pass by pass, each with what
    the environment answers.  `handler_leaks` says that it makes no memory error,
    that it comes to where `receive` and `deviceAction` send it, and what it leaves
    there: one block for each pass without a `recv`, and at the end nothing else.

    What the command parser reads behind the accumulated bytes is the subject of
    `CommandReadsProofs`; here it is given the bytes it finds.  The result of `fopen`
    is used unseen: a NULL is a memory error (`commit_null`), so it is asked of the
    passes that every `fopen` succeeds. -/

namespace AesdHandlerMemory

open AesdMachine AesdClient AesdDriver AesdKernel AesdReceiveCopy CheckedHeap

/-- What the critical section may run into. -/
structure Critical where
  /-- the first `fopen` gives a file, for the seek or the write -/
  opens      : Bool
  /-- the second one, behind the write -/
  reopens    : Bool
  ioctlFails : Bool
  freadFails : Bool

/-- One pass through the loop of `clientHandler`, and what the environment answers. -/
inductive Pass where
  | callocFailed
  | pollError
  | pipe
  /-- an event other than `POLLIN` -/
  | neither
  /-- `received` is `none` when `recv` returns -1, `after` what lies behind the
      buffer that the command is searched in -/
  | socket (granted : Bool) (received : Option (List UInt8)) (after : List UInt8)
      (critical : Critical)

/-- Where a pass goes. -/
inductive Flow where
  | again
  | leave
  | exit (why : Fatal)
  deriving DecidableEq

/-- What became of the handler. -/
inductive End where
  /-- back at the top of the loop -/
  | running
  | done
  | exited (why : Fatal)
  deriving DecidableEq

/-! ## The C library -/

/-- `malloc`. -/
def malloc (granted : Bool) (size : Nat) : KernelM UInt8 (Option Nat) :=
  if AesdMachine.malloc granted size then some <$> alloc (.bytes (unwritten size)) else pure none

/-- The bytes `calloc` gives. -/
def zeros : List UInt8 := List.replicate bufferSize 0

/-- `calloc(BUFFER_SIZE, sizeof(char))`. -/
def calloc (granted : Bool) : KernelM UInt8 (Option Nat) :=
  if granted then some <$> alloc (.bytes (written zeros)) else pure none

/-- `fopen`; what a file consists of is the C library's. -/
def fopen (granted : Bool) : Option Unit := if granted then some () else none

/-! ## `clientHandler` -/

/-- `checkForNullCharInString` and `checkForNewlineCharInString`, from index `i` on. -/
def scanFor (p : UInt8 → Bool) (str : Nat) : Nat → Nat → KernelM UInt8 Bool
  | 0, _ => pure false
  | left + 1, i => do
      if (← loadBytes str i 1).any p then pure true else scanFor p str left (i + 1)

/-- The same with the checks before the loop. -/
def checkForCharInString (p : UInt8 → Bool) (str : Option Nat) (len : Int) :
    KernelM UInt8 Bool :=
  match str with
  | none => pure true
  | some str => if len ≤ 0 then pure true else scanFor p str len.toNat 0

/-- The two reading loops and what follows them. -/
def readDevice (bufferString : Nat) (critical : Critical) : KernelM UInt8 Flow :=
  if critical.freadFails then pure (.exit .readFailed)
  else do
    aesdTemperaryBufferClean (some bufferString)
    pure .again

/-- The critical section. -/
def commit (bufferString : Nat) (after : List UInt8) (critical : Critical) :
    KernelM UInt8 Flow := do
  let b ← loadTemperary (some bufferString)
  let bytes ← loadBytes (← orFail b.buffptr) 0 b.size
  match deviceAction after ⟨some bytes, b.size⟩ with
  | .seek _ => do
      orFail (fopen critical.opens) -- fileno(fptr)
      if critical.ioctlFails then do
        aesdTemperaryBufferClean (some bufferString)
        pure (.exit .seekFailed)
      else readDevice bufferString critical
  | .write _ => do
      orFail (fopen critical.opens) -- fwrite
      orFail (fopen critical.reopens) -- fread
      readDevice bufferString critical

/-- From the test of `recvLen` on. -/
def afterAdd (clientData bufferString : Nat) (recvLen : Int) (after : List UInt8)
    (critical : Critical) : KernelM UInt8 Flow :=
  if recvLen < 0 then do
    aesdTemperaryBufferClean (some bufferString)
    pure (.exit .receiveFailed)
  else if recvLen = 0 then do
    let _ ← loadBytes clientData 8 16 -- clientAddr
    aesdTemperaryBufferClean (some bufferString)
    let _ ← loadBytes clientData 0 4 -- newSockFd
    pure .leave
  else do
    let _ ← loadBytes clientData 8 16 -- clientAddr
    let b ← loadTemperary (some bufferString)
    let _ ← checkForCharInString (· == 0) b.buffptr recvLen
    if ← checkForCharInString isNewline b.buffptr recvLen then commit bufferString after critical
    else pure .again

/-- `recv` into the block and its terminating zero. -/
def recvInto (buffer : Nat) : Option (List UInt8) → KernelM UInt8 Unit
  | none => pure ()
  | some chunk => do
      storeBytes buffer 0 chunk
      storeBytes buffer chunk.length [0]

/-- The branch for data on the socket. -/
def receiveInto (clientData bufferString buffer : Nat) (granted : Bool)
    (received : Option (List UInt8)) (after : List UInt8) (critical : Critical) :
    KernelM UInt8 Flow := do
  let _ ← loadBytes clientData 0 4 -- newSockFd
  recvInto buffer received
  if ← aesdTemperaryBufferAddBy (malloc granted) (some bufferString) buffer
      (sizeOfInt (recvLen received)) then do
    kfree (some buffer)
    afterAdd clientData bufferString (recvLen received) after critical
  else do
    kfree (some buffer)
    pure (.exit .addFailed)

/-- One pass through the loop. -/
def pass (clientData bufferString : Nat) : Pass → KernelM UInt8 Flow
  | .callocFailed => do
      match ← calloc false with
      | none => pure (.exit .callocFailed)
      | some _ => pure .again
  | .pollError => do
      let _ ← calloc true
      pure .leave
  | .pipe => do
      let _ ← calloc true
      pure .leave
  | .neither => do
      let _ ← calloc true
      pure .again
  | .socket granted received after critical => do
      match ← calloc true with
      | none => pure (.exit .callocFailed)
      | some buffer =>
          receiveInto clientData bufferString buffer granted received after critical

/-- `cleanupClientHandler`, and the end of the local `bufferString` with the thread. -/
def cleanupClientHandler (clientData bufferString : Nat) : KernelM UInt8 Unit := do
  aesdTemperaryBufferClean (some bufferString)
  let _ ← loadBytes clientData 0 4 -- newSockFd
  kfree (some clientData)
  free bufferString

/-- The loop. -/
def handlerLoop (clientData bufferString : Nat) : List Pass → KernelM UInt8 End
  | [] => pure .running
  | p :: ps => do
      match ← pass clientData bufferString p with
      | .again => handlerLoop clientData bufferString ps
      | .leave => do
          cleanupClientHandler clientData bufferString
          pure .done
      | .exit why => pure (.exited why)

/-- `clientHandler`. -/
def clientHandler (clientData : Nat) (ps : List Pass) : KernelM UInt8 End := do
  let bufferString ← alloc (.temperary ⟨none, 0⟩)
  aesdTemperaryBufferInit (some bufferString)
  let _ ← loadBytes clientData 0 4 -- newSockFd
  handlerLoop clientData bufferString ps

/-! ## What it is compared with -/

/-- What a pass makes of the accumulated bytes. -/
inductive Result where
  | again (bufferString : AesdTemperary.AesdTemperaryBuffer UInt8)
  | leave
  | exit (why : Fatal)

/-- The critical section. -/
def Critical.result (critical : Critical) : DeviceAction UInt8 → Result
  | .seek _ =>
      if critical.ioctlFails then .exit .seekFailed
      else if critical.freadFails then .exit .readFailed
      else .again AesdTemperary.aesdTemperaryBufferInit
  | .write _ =>
      if critical.freadFails then .exit .readFailed
      else .again AesdTemperary.aesdTemperaryBufferInit

/-- One pass, on the bytes themselves. -/
def Pass.result (b : AesdTemperary.AesdTemperaryBuffer UInt8) : Pass → Result
  | .callocFailed => .exit .callocFailed
  | .pollError => .leave
  | .pipe => .leave
  | .neither => .again b
  | .socket granted received after critical =>
      match receive granted b received with
      | .fatal why => .exit why
      | .closed _ => .leave
      | .again b' => .again b'
      | .commit b' => critical.result (deviceAction after b')

/-- What becomes of the handler. -/
def handlerEnd (b : AesdTemperary.AesdTemperaryBuffer UInt8) : List Pass → End
  | [] => .running
  | p :: ps =>
      match p.result b with
      | .again b' => handlerEnd b' ps
      | .leave => .done
      | .exit why => .exited why

/-- The pass leaves its block of 512 bytes. -/
def Pass.leaves : Pass → Nat
  | .pollError => 1
  | .pipe => 1
  | .neither => 1
  | _ => 0

/-- The passes that the handler makes and that leave their block. -/
def leaks (b : AesdTemperary.AesdTemperaryBuffer UInt8) : List Pass → Nat
  | [] => 0
  | p :: ps =>
      p.leaves + match p.result b with
        | .again b' => leaks b' ps
        | _ => 0

/-- Every `fopen` gives a file. -/
def Critical.Opens (critical : Critical) : Prop :=
  critical.opens = true ∧ critical.reopens = true

instance (critical : Critical) : Decidable critical.Opens := inferInstanceAs (Decidable (_ ∧ _))

/-- `recv` delivers at most 511 bytes, and fails only while nothing is accumulated;
    `fopen` does not fail. -/
def Pass.Proper (b : AesdTemperary.AesdTemperaryBuffer UInt8) : Pass → Prop
  | .socket _ received _ critical =>
      (received.getD []).length < bufferSize ∧ (received = none → b.buffptr = none) ∧
        critical.Opens
  | _ => True

/-- Every pass the handler makes. -/
def AllProper (b : AesdTemperary.AesdTemperaryBuffer UInt8) : List Pass → Prop
  | [] => True
  | p :: ps =>
      p.Proper b ∧ match p.result b with
        | .again b' => AllProper b' ps
        | _ => True

instance decidableProper (b : AesdTemperary.AesdTemperaryBuffer UInt8) :
    (p : Pass) → Decidable (p.Proper b)
  | .callocFailed => isTrue trivial
  | .pollError => isTrue trivial
  | .pipe => isTrue trivial
  | .neither => isTrue trivial
  | .socket _ _ _ _ => inferInstanceAs (Decidable (_ ∧ _))

instance decidableAllProper : (b : AesdTemperary.AesdTemperaryBuffer UInt8) → (ps : List Pass) →
    Decidable (AllProper b ps)
  | _, [] => isTrue trivial
  | b, p :: ps =>
      @instDecidableAnd _ _ _ (match p.result b with
        | .again b' => decidableAllProper b' ps
        | .leave => isTrue trivial
        | .exit _ => isTrue trivial)

/-! ## The rules of the calls -/

section Calls

variable {cells rest : Multiset (Nat × Block UInt8)} {p : Nat} {bs : List UInt8}

theorem malloc_allocates (granted : Bool) (size : Nat) :
    Allocates cells (malloc granted size) size (AesdMachine.malloc granted size) := by
  intro Q hgot hnull
  rw [malloc]
  by_cases hk : AesdMachine.malloc granted size = true
  · rw [if_pos hk]
    exact Safe.bind (Safe.alloc fun p => Safe.ret (hgot hk p))
  · rw [if_neg hk]
    exact Safe.ret (hnull (Bool.eq_false_iff.mpr hk))

theorem calloc_safe {Q : Option Nat → Multiset (Nat × Block UInt8) → Prop}
    (hq : ∀ p, Q (some p) ((p, .bytes (written zeros)) ::ₘ cells)) :
    Safe cells (calloc true) Q := by
  rw [calloc, if_pos rfl]
  exact Safe.bind (Safe.alloc fun p => Safe.ret (hq p))

/-- What comes before an error does not matter. -/
theorem bind_none {α δ : Type} {m : KernelM UInt8 α} {f : α → KernelM UInt8 δ}
    (hf : ∀ a h', f a h' = none) (h : Heap (Block UInt8)) : (m >>= f) h = none := by
  show (m h).bind (fun r => f r.1 r.2) = none
  cases m h with
  | none => rfl
  | some r => exact hf r.1 r.2

/-- The scan reads inside the block and stops at the first byte it looks for. -/
theorem scanFor_safe {f : UInt8 → Bool} (hin : (p, .bytes (written bs)) ∈ cells) :
    ∀ (left i : Nat), i + left ≤ bs.length →
      ∀ {Q : Bool → Multiset (Nat × Block UInt8) → Prop},
        Q (((bs.drop i).take left).any f) cells → Safe cells (scanFor f p left i) Q := by
  intro left
  induction left with
  | zero => exact fun i _ Q hq => Safe.ret hq
  | succ left ih =>
      intro i hi Q hq
      have hlt : i < bs.length := by omega
      rw [scanFor]
      refine Safe.bind (loadBytes_safe hin (by omega) ?_)
      rw [List.drop_eq_getElem_cons hlt] at hq ⊢
      rw [List.take_succ_cons, List.any_cons] at hq
      rw [List.take_succ_cons, List.take_zero, List.any_cons, List.any_nil, Bool.or_false]
      cases hb : f bs[i] with
      | true =>
          rw [hb, Bool.true_or] at hq
          exact Safe.ret hq
      | false =>
          rw [hb, Bool.false_or] at hq
          exact ih (i + 1) (by omega) hq

theorem checkForCharInString_safe {f : UInt8 → Bool} {n : Nat}
    (hin : (p, .bytes (written bs)) ∈ cells) (hpos : 0 < n) (hn : n ≤ bs.length)
    {Q : Bool → Multiset (Nat × Block UInt8) → Prop} (hq : Q ((bs.take n).any f) cells) :
    Safe cells (checkForCharInString f (some p) n) Q := by
  show Safe cells (if (n : Int) ≤ 0 then pure true else scanFor f p (n : Int).toNat 0) Q
  rw [if_neg (by omega), Int.toNat_natCast]
  exact scanFor_safe hin n 0 (by omega) hq

end Calls

/-! ## The memory at the top of the loop -/

/-- `sizeof(clientData_t)`: two words of four bytes and an address of 16. -/
def sizeofClientData : Nat := 24

/-- The memory of a handler that has accumulated `b`, beside other blocks. -/
def Working (clientData bufferString : Nat) (data : List UInt8)
    (b : AesdTemperary.AesdTemperaryBuffer UInt8) (rest cells : Multiset (Nat × Block UInt8)) :
    Prop :=
  ∃ t, SameTemperary t b ∧
    cells = temperaryCells bufferString t b ((clientData, .bytes (written data)) ::ₘ rest)

/-- `n` blocks as `calloc` gave them. -/
def LeftOver (n : Nat) (leaked : Multiset (Nat × Block UInt8)) : Prop :=
  Multiset.card leaked = n ∧ ∀ c ∈ leaked, c.2 = .bytes (written zeros)

theorem leftOver_zero : LeftOver 0 0 := ⟨rfl, fun _ hc => absurd hc (Multiset.notMem_zero _)⟩

theorem leftOver_one (p : Nat) : LeftOver 1 {(p, .bytes (written zeros))} := by
  refine ⟨Multiset.card_singleton _, fun c hc => ?_⟩
  rw [Multiset.mem_singleton.mp hc]

theorem LeftOver.add {n m : Nat} {leaked leaked' : Multiset (Nat × Block UInt8)}
    (h : LeftOver n leaked) (h' : LeftOver m leaked') : LeftOver (n + m) (leaked + leaked') := by
  refine ⟨by rw [Multiset.card_add, h.1, h'.1], fun c hc => ?_⟩
  rcases Multiset.mem_add.mp hc with hin | hin
  · exact h.2 c hin
  · exact h'.2 c hin

/-- Where a pass with this result goes and the memory it leaves; at an exit the
    process is over. -/
def Lands (clientData bufferString : Nat) (data : List UInt8)
    (rest : Multiset (Nat × Block UInt8)) (n : Nat) (r : Result) (f : Flow)
    (cells : Multiset (Nat × Block UInt8)) : Prop :=
  match r with
  | .again b => f = .again ∧ ∃ leaked, LeftOver n leaked ∧
      Working clientData bufferString data b (leaked + rest) cells
  | .leave => f = .leave ∧ ∃ b leaked, LeftOver n leaked ∧
      Working clientData bufferString data b (leaked + rest) cells
  | .exit why => f = .exit why

section Passes

variable {cells rest : Multiset (Nat × Block UInt8)} {cd pt : Nat} {data bs : List UInt8}
  {b : AesdTemperary.AesdTemperaryBuffer UInt8}

/-- The handler finds its `clientData`. -/
theorem Working.clientData_mem (h : Working cd pt data b rest cells) :
    (cd, .bytes (written data)) ∈ cells := by
  obtain ⟨t, -, rfl⟩ := h
  exact mem_temperaryCells (Multiset.mem_cons_self _ _)

theorem loadClientData {α : Type} {off n : Nat} {m : KernelM UInt8 α}
    {Q : α → Multiset (Nat × Block UInt8) → Prop} (hw : Working cd pt data b rest cells)
    (hdata : data.length = sizeofClientData) (hn : off + n ≤ sizeofClientData)
    (hm : Safe cells m Q) : Safe cells (do let _ ← loadBytes cd off n; m) Q :=
  Safe.bind (loadBytes_safe hw.clientData_mem (hdata ▸ hn) hm)

/-- The accumulated bytes are one block. -/
theorem Working.buffer_mem (h : Working cd pt data (held bs) rest cells) :
    ∃ a, (pt, .temperary ⟨some a, bs.length⟩) ∈ cells ∧ (a, .bytes (written bs)) ∈ cells := by
  obtain ⟨⟨ptr, n⟩, ht, rfl⟩ := h
  obtain ⟨a, ha⟩ := Option.isSome_iff_exists.mp ht.null
  change ptr = some a at ha
  have hn : n = bs.length := ht.size
  subst ha hn
  refine ⟨a, Multiset.mem_cons_self _ _, Multiset.mem_cons_of_mem ?_⟩
  exact Multiset.mem_add.mpr (Or.inl (Multiset.mem_singleton_self _))

theorem clean_safe {Q : Unit → Multiset (Nat × Block UInt8) → Prop}
    (hw : Working cd pt data b rest cells)
    (hq : ∀ cells', Working cd pt data (AesdTemperary.aesdTemperaryBufferClean b) rest cells' →
      Q () cells') : Safe cells (aesdTemperaryBufferClean (some pt)) Q := by
  obtain ⟨t, ht, hc⟩ := hw
  exact aesdTemperaryBufferClean_safe hc ht fun t₂ ht₂ => hq _ ⟨t₂, ht₂, rfl⟩

/-- A result that leaves no block. -/
theorem lands_again (hw : Working cd pt data b rest cells) :
    Lands cd pt data rest 0 (.again b) .again cells :=
  ⟨rfl, 0, leftOver_zero, by rw [zero_add]; exact hw⟩

theorem lands_leave (hw : Working cd pt data b rest cells) :
    Lands cd pt data rest 0 .leave .leave cells :=
  ⟨rfl, b, 0, leftOver_zero, by rw [zero_add]; exact hw⟩

theorem readDevice_safe (hw : Working cd pt data (held bs) rest cells) (critical : Critical) :
    Safe cells (readDevice pt critical)
      (Lands cd pt data rest 0 (if critical.freadFails then .exit .readFailed
        else .again AesdTemperary.aesdTemperaryBufferInit)) := by
  rw [readDevice]
  by_cases hf : critical.freadFails = true
  · rw [if_pos hf, if_pos hf]
    exact Safe.ret rfl
  · rw [if_neg hf, if_neg hf]
    exact Safe.bind (clean_safe hw fun _ hclean => Safe.ret (lands_again hclean))

theorem Critical.result_again {critical : Critical} {action : DeviceAction UInt8}
    {b' : AesdTemperary.AesdTemperaryBuffer UInt8} (hr : critical.result action = .again b') :
    b' = AesdTemperary.aesdTemperaryBufferInit := by
  cases action with
  | write bytes =>
      rw [Critical.result] at hr
      split at hr
      · cases hr
      · cases hr
        rfl
  | seek command =>
      rw [Critical.result] at hr
      split at hr
      · cases hr
      · split at hr
        · cases hr
        · cases hr
          rfl

/-- The critical section reads the accumulated bytes and no more of that block. -/
theorem commit_safe (hw : Working cd pt data (held bs) rest cells) (after : List UInt8)
    {critical : Critical} (hopens : critical.Opens) :
    Safe cells (commit pt after critical)
      (Lands cd pt data rest 0 (critical.result (deviceAction after (held bs)))) := by
  obtain ⟨a, hpt, ha⟩ := hw.buffer_mem
  refine Safe.bind (loadTemperary_safe hpt (Safe.bind (Safe.ret (Safe.bind
    (loadBytes_safe ha (Nat.le_of_eq (Nat.zero_add _)) ?_)))))
  rw [List.drop_zero, List.take_length]
  show Safe cells (match deviceAction after (held bs) with
    | .seek _ => _
    | .write _ => _) _
  cases deviceAction after (held bs) with
  | write bytes =>
      rw [hopens.1, hopens.2]
      exact Safe.bind (Safe.ret (Safe.bind (Safe.ret (readDevice_safe hw critical))))
  | seek command =>
      rw [hopens.1]
      refine Safe.bind (Safe.ret ?_)
      rw [Critical.result]
      by_cases hi : critical.ioctlFails = true
      · rw [if_pos hi, if_pos hi]
        exact Safe.bind (clean_safe hw fun _ _ => Safe.ret rfl)
      · rw [if_neg hi, if_neg hi]
        exact readDevice_safe hw critical

/-- **A NULL FROM `fopen`** is a memory error. -/
theorem commit_null (after : List UInt8) {critical : Critical} (hnull : critical.opens = false)
    (h : Heap (Block UInt8)) : commit pt after critical h = none := by
  refine bind_none (fun b h₁ => bind_none (fun str h₂ => bind_none (fun bytes h₃ => ?_) h₂) h₁) h
  cases deviceAction after ⟨some bytes, b.size⟩ with
  | seek command =>
      show (orFail (fopen critical.opens) >>= _) h₃ = none
      rw [hnull]
      rfl
  | write bytes =>
      show (orFail (fopen critical.opens) >>= _) h₃ = none
      rw [hnull]
      rfl

/-- From the test of `recvLen` on, with a chunk of `n` bytes added. -/
theorem afterAdd_safe (hw : Working cd pt data (held bs) rest cells)
    (hdata : data.length = sizeofClientData) {n : Nat} (hn : n ≤ bs.length)
    (after : List UInt8) {critical : Critical} (hopens : critical.Opens) :
    Safe cells (afterAdd cd pt n after critical)
      (Lands cd pt data rest 0 (if n = 0 then .leave
        else if hasNewline (bs.take n) then critical.result (deviceAction after (held bs))
        else .again (held bs))) := by
  rw [afterAdd, if_neg (by omega)]
  by_cases hzero : n = 0
  · rw [if_pos (by omega), if_pos hzero]
    refine loadClientData hw hdata (Nat.le_refl _) ?_
    refine Safe.bind (clean_safe hw fun cells' hclean => ?_)
    exact loadClientData hclean hdata (by decide) (Safe.ret (lands_leave hclean))
  · rw [if_neg (by omega), if_neg hzero]
    obtain ⟨a, hpt, ha⟩ := hw.buffer_mem
    have hpos := Nat.pos_of_ne_zero hzero
    refine loadClientData hw hdata (Nat.le_refl _) (Safe.bind (loadTemperary_safe hpt ?_))
    refine Safe.bind (checkForCharInString_safe ha hpos hn (Safe.bind ?_))
    refine checkForCharInString_safe ha hpos hn ?_
    show Safe cells (if hasNewline (bs.take n) then _ else _) _
    cases hasNewline (bs.take n) with
    | true => exact commit_safe hw after hopens
    | false => exact Safe.ret (lands_again hw)

/-! ## One pass -/

theorem Working.cons (c : Nat × Block UInt8) (h : Working cd pt data b rest cells) :
    Working cd pt data b (c ::ₘ rest) (c ::ₘ cells) := by
  obtain ⟨t, ht, rfl⟩ := h
  exact ⟨t, ht, by rw [cons_temperaryCells, Multiset.cons_swap]⟩

theorem Working.uncons {c : Nat × Block UInt8} (h : Working cd pt data b (c ::ₘ rest) cells) :
    ∃ cells', cells = c ::ₘ cells' ∧ Working cd pt data b rest cells' := by
  obtain ⟨t, ht, rfl⟩ := h
  exact ⟨_, by rw [cons_temperaryCells, Multiset.cons_swap], t, ht, rfl⟩

/-- A chunk and its terminating zero fit in the 512 bytes. -/
theorem recvInto_safe {buffer : Nat} {chunk : List UInt8} (hlen : chunk.length < bufferSize)
    {Q : Unit → Multiset (Nat × Block UInt8) → Prop}
    (hq : ∀ tail, Q () ((buffer, .bytes (written (chunk ++ tail))) ::ₘ cells)) :
    Safe ((buffer, .bytes (written zeros)) ::ₘ cells) (recvInto buffer (some chunk)) Q := by
  have hzeros : zeros.length = bufferSize := List.length_replicate
  refine Safe.bind (storeBytes_safe rfl (writeAt_written (by omega)) ?_)
  rw [List.take_zero, List.nil_append, Nat.zero_add]
  refine storeBytes_safe rfl (writeAt_written ?_) ?_
  · rw [List.length_append, List.length_drop, List.length_singleton]
    omega
  · rw [List.take_left' rfl]
    exact hq _

/-- The add of the model, for a chunk. -/
theorem add_chunk (h : AesdTemperary.Holds b bs) {malloc : Nat → Bool} {chunk : List UInt8}
    (hwrap : bs.length + chunk.length < 2 ^ 64) :
    AesdTemperary.aesdTemperaryBufferAdd malloc b chunk chunk.length
      = if malloc (bs.length + chunk.length) then (true, held (bs ++ chunk)) else (false, b) := by
  cases h with
  | null => simp [AesdTemperary.aesdTemperaryBufferAdd, held]
  | block => simp [AesdTemperary.aesdTemperaryBufferAdd, sizeAdd_eq hwrap, held]

/-- A pass with a chunk, said with the bytes instead of the buffer. -/
theorem result_chunk (h : AesdTemperary.Holds b bs) (hbs : bs.length < 2 ^ 63)
    {chunk : List UInt8} (hlen : chunk.length < bufferSize) (granted : Bool)
    (after : List UInt8) (critical : Critical) :
    (Pass.socket granted (some chunk) after critical).result b
      = if AesdMachine.malloc granted (bs.length + chunk.length) then
          if chunk.length = 0 then .leave
          else if hasNewline ((bs ++ chunk).take chunk.length) then
            critical.result (deviceAction after (held (bs ++ chunk)))
          else .again (held (bs ++ chunk))
        else .exit .addFailed := by
  have hlen' : chunk.length < 512 := hlen
  rw [Pass.result, receive_eq_addReceived, addReceived, addCalls_fst, sizeOfInt_recvLen_some hlen,
    Option.getD_some, add_chunk h (by omega)]
  cases AesdMachine.malloc granted (bs.length + chunk.length) with
  | false => rfl
  | true =>
      simp only [recvLen, if_true, Bool.true_eq_false, if_false]
      rw [if_neg (by omega)]
      by_cases hzero : chunk.length = 0
      · rw [if_pos (by omega), if_pos hzero]
      · have hscan : checkForNewlineCharInString (held (bs ++ chunk)).buffptr chunk.length
            = hasNewline ((bs ++ chunk).take chunk.length) := by
          show (if (chunk.length : Int) ≤ 0 then true else _) = _
          rw [if_neg (by omega), Int.toNat_natCast]
        rw [if_neg (by omega), if_neg hzero, hscan]
        cases hasNewline ((bs ++ chunk).take chunk.length) with
        | true => rfl
        | false => rfl

/-- No allocator grants the size that a failed `recv` becomes. -/
theorem malloc_minusOne (granted : Bool) : AesdMachine.malloc granted (2 ^ 64 - 1) = false := by
  rw [Bool.eq_false_iff, ne_eq, AesdMachine.malloc_eq_true]
  omega

/-- A failed `recv` with nothing accumulated: the add is refused. -/
theorem addNone_safe {Q : Bool → Multiset (Nat × Block UInt8) → Prop} {buffer : Nat}
    (hw : Working cd pt data b rest cells) (hnone : b.buffptr = none) (granted : Bool)
    (hq : Q false cells) :
    Safe cells (aesdTemperaryBufferAddBy (malloc granted) (some pt) buffer
      (sizeOfInt (recvLen (none : Option (List UInt8))))) Q := by
  obtain ⟨⟨ptr, n⟩, ht, rfl⟩ := hw
  have hnull := ht.null
  rw [hnone] at hnull
  change ptr.isSome = false at hnull
  obtain rfl : ptr = none :=
    Option.not_isSome_iff_eq_none.mp (by rw [hnull]; exact Bool.false_ne_true)
  rw [sizeOfInt_recvLen_none]
  refine Safe.bind (loadTemperary_safe (Multiset.mem_cons_self _ _) (Safe.bind ?_))
  refine malloc_allocates granted _ _ (fun hk => ?_) (fun _ => Safe.ret hq)
  rw [malloc_minusOne] at hk
  cases hk

/-- A pass with a failed `recv` and nothing accumulated. -/
theorem result_none (hnone : b.buffptr = none) (granted : Bool) (after : List UInt8)
    (critical : Critical) :
    (Pass.socket granted none after critical).result b = .exit .addFailed := by
  rw [Pass.result, receive_eq_addReceived, addReceived, addCalls_fst, sizeOfInt_recvLen_none,
    AesdTemperary.aesdTemperaryBufferAdd, hnone]
  simp only [malloc_minusOne, Bool.false_eq_true, if_false, if_true]

/-- **THE BRANCH FOR THE SOCKET**: its block is gone when it ends. -/
theorem receiveInto_safe {buffer : Nat} (hw : Working cd pt data b rest cells)
    (hdata : data.length = sizeofClientData) (h : AesdTemperary.Holds b bs)
    (hbs : bs.length < 2 ^ 63) (granted : Bool) {received : Option (List UInt8)}
    (after : List UInt8) (critical : Critical)
    (hproper : (Pass.socket granted received after critical).Proper b) :
    Safe ((buffer, .bytes (written zeros)) ::ₘ cells)
      (receiveInto cd pt buffer granted received after critical)
      (Lands cd pt data rest 0 ((Pass.socket granted received after critical).result b)) := by
  refine loadClientData (hw.cons _) hdata (by decide) ?_
  cases received with
  | none =>
      have hnone := hproper.2.1 rfl
      rw [result_none hnone]
      refine Safe.bind (Safe.ret (Safe.bind (addNone_safe (hw.cons _) hnone granted ?_)))
      exact Safe.bind (kfree_safe rfl (Safe.ret rfl))
  | some chunk =>
      have hlen : chunk.length < bufferSize := hproper.1
      have hlen' : chunk.length < 512 := hlen
      rw [result_chunk h hbs hlen]
      refine Safe.bind (recvInto_safe hlen fun tail => Safe.bind ?_)
      obtain ⟨t, ht, hc⟩ := hw.cons (buffer, .bytes (written (chunk ++ tail)))
      rw [sizeOfInt_recvLen_some hlen]
      refine addBy_safe hc (malloc_allocates granted _) ht h
        (Multiset.mem_cons_of_mem (Multiset.mem_cons_self _ _)) rfl (by omega) fun t₂ ht₂ => ?_
      rw [add_chunk h (by omega)] at ht₂ ⊢
      -- either way the block of the chunk is freed next
      obtain ⟨cells', hc', hw'⟩ := Working.uncons ⟨t₂, ht₂, rfl⟩
      cases hm : AesdMachine.malloc granted (bs.length + chunk.length) with
      | false =>
          rw [hm] at hc'
          exact Safe.bind (kfree_safe hc' (Safe.ret rfl))
      | true =>
          rw [hm] at hc' hw'
          refine Safe.bind (kfree_safe hc' ?_)
          refine afterAdd_safe hw' hdata ?_ after hproper.2.2
          rw [List.length_append]
          exact Nat.le_add_left _ _

/-- **ONE PASS** makes no memory error, and leaves its block or nothing. -/
theorem pass_safe (hw : Working cd pt data b rest cells) (hdata : data.length = sizeofClientData)
    (h : AesdTemperary.Holds b bs) (hbs : bs.length < 2 ^ 63) (p : Pass) (hproper : p.Proper b) :
    Safe cells (pass cd pt p) (Lands cd pt data rest p.leaves (p.result b)) := by
  have hleft : ∀ a, ∃ leaked, LeftOver 1 leaked ∧
      Working cd pt data b (leaked + rest) ((a, .bytes (written zeros)) ::ₘ cells) := by
    intro a
    exact ⟨_, leftOver_one a, by rw [Multiset.singleton_add]; exact hw.cons _⟩
  cases p with
  | callocFailed => exact Safe.bind (Safe.ret (Safe.ret rfl))
  | pollError => exact Safe.bind (calloc_safe fun a => Safe.ret ⟨rfl, b, hleft a⟩)
  | pipe => exact Safe.bind (calloc_safe fun a => Safe.ret ⟨rfl, b, hleft a⟩)
  | neither => exact Safe.bind (calloc_safe fun a => Safe.ret ⟨rfl, hleft a⟩)
  | socket granted received after critical =>
      exact Safe.bind (calloc_safe fun a =>
        receiveInto_safe hw hdata h hbs granted after critical hproper)

/-- Back at the top the accumulated bytes are again one block. -/
theorem result_again (h : AesdTemperary.Holds b bs) (hbs : bs.length < 2 ^ 63) {p : Pass}
    (hproper : p.Proper b) {b' : AesdTemperary.AesdTemperaryBuffer UInt8}
    (hr : p.result b = .again b') :
    ∃ bs', AesdTemperary.Holds b' bs' ∧ bs'.length < 2 ^ 63 := by
  cases p with
  | callocFailed => cases hr
  | pollError => cases hr
  | pipe => cases hr
  | neither =>
      cases hr
      exact ⟨bs, h, hbs⟩
  | socket granted received after critical =>
      rw [Pass.result] at hr
      rcases receive_cases h hbs granted received hproper.1 with
        ⟨why, hw⟩ | hc | ⟨chunk, -, hlt, hc⟩
      · rw [hw] at hr
        cases hr
      · rw [hc] at hr
        cases hr
      · rw [hc] at hr
        cases htakes : takes bs chunk with
        | false =>
            rw [htakes] at hr
            cases hr
            exact ⟨_, .block _, hlt⟩
        | true =>
            rw [htakes] at hr
            have hinit := Critical.result_again hr
            rw [hinit]
            exact ⟨[], AesdTemperary.holds_init, by decide⟩

/-! ## The whole handler -/

/-- `cleanupClientHandler` frees the block behind the buffer, the `clientData` and
    the buffer itself. -/
theorem cleanupClientHandler_safe {Q : Unit → Multiset (Nat × Block UInt8) → Prop}
    (hw : Working cd pt data b rest cells) (hdata : data.length = sizeofClientData)
    (hq : Q () rest) : Safe cells (cleanupClientHandler cd pt) Q := by
  refine Safe.bind (clean_safe hw fun cells' hclean => ?_)
  refine loadClientData hclean hdata (by decide) ?_
  obtain ⟨⟨ptr, n⟩, ht, rfl⟩ := hclean
  have hnone : (AesdTemperary.aesdTemperaryBufferClean b).buffptr = none := by
    rw [AesdTemperary.aesdTemperaryBufferClean]
    split
    · rfl
    · next hb => exact hb
  rcases pointer_cases ht.null with ⟨hp, -⟩ | ⟨a, bs, -, hb⟩
  · change ptr = none at hp
    subst hp
    rw [temperaryCells, blockCells_null, zero_add, Multiset.cons_swap]
    exact Safe.bind (kfree_safe rfl (Safe.free rfl hq))
  · rw [hnone] at hb
    cases hb

end Passes

/-- What is left of a handler with `n` passes that left their block. -/
def LeavesBehind (clientData : Nat) (data : List UInt8) (rest : Multiset (Nat × Block UInt8))
    (n : Nat) (e : End) (cells : Multiset (Nat × Block UInt8)) : Prop :=
  match e with
  | .running => ∃ bufferString b leaked, LeftOver n leaked ∧
      Working clientData bufferString data b (leaked + rest) cells
  | .done => ∃ leaked, LeftOver n leaked ∧ cells = leaked + rest
  | .exited _ => True

theorem LeavesBehind.add {cd n m : Nat} {data : List UInt8} {e : End}
    {leaked rest cells : Multiset (Nat × Block UInt8)}
    (h : LeavesBehind cd data (leaked + rest) m e cells) (hleft : LeftOver n leaked) :
    LeavesBehind cd data rest (n + m) e cells := by
  cases e with
  | running =>
      obtain ⟨pt, b, leaked', hleft', hw⟩ := h
      refine ⟨pt, b, leaked + leaked', hleft.add hleft', ?_⟩
      rw [add_right_comm, add_comm (leaked + rest)]
      exact hw
  | done =>
      obtain ⟨leaked', hleft', rfl⟩ := h
      refine ⟨leaked + leaked', hleft.add hleft', ?_⟩
      rw [add_right_comm, add_comm (leaked + rest)]
  | exited why => trivial

theorem handlerLoop_safe {cd pt : Nat} {data : List UInt8} (hdata : data.length = sizeofClientData)
    (ps : List Pass) : ∀ {b : AesdTemperary.AesdTemperaryBuffer UInt8} {bs : List UInt8}
      {rest cells : Multiset (Nat × Block UInt8)}, Working cd pt data b rest cells →
      AesdTemperary.Holds b bs → bs.length < 2 ^ 63 → AllProper b ps →
      Safe cells (handlerLoop cd pt ps) fun e cells' =>
        e = handlerEnd b ps ∧ LeavesBehind cd data rest (leaks b ps) e cells' := by
  induction ps with
  | nil =>
      intro b bs rest cells hw h hbs hall
      exact Safe.ret ⟨rfl, pt, b, 0, leftOver_zero, by rw [zero_add]; exact hw⟩
  | cons p ps ih =>
      intro b bs rest cells hw h hbs hall
      obtain ⟨hproper, hrest⟩ := hall
      refine Safe.bind (Safe.imp (pass_safe hw hdata h hbs p hproper) ?_)
      intro f cells' hlands
      rw [handlerEnd, leaks]
      cases hr : p.result b with
      | again b' =>
          rw [hr] at hlands hrest
          obtain ⟨rfl, leaked, hleft, hw'⟩ := hlands
          obtain ⟨bs', h', hbs'⟩ := result_again h hbs hproper hr
          refine Safe.imp (ih hw' h' hbs' hrest) ?_
          rintro e cells'' ⟨he, hbehind⟩
          exact ⟨he, hbehind.add hleft⟩
      | leave =>
          rw [hr] at hlands
          obtain ⟨rfl, b', leaked, hleft, hw'⟩ := hlands
          exact Safe.bind (cleanupClientHandler_safe hw' hdata
            (Safe.ret ⟨rfl, leaked, hleft, rfl⟩))
      | exit why =>
          rw [hr] at hlands
          cases hlands
          exact Safe.ret ⟨rfl, trivial⟩

/-- **WHAT A HANDLER LEAVES**: for every sequence of passes in which `recv` does
    not fail on accumulated bytes and every `fopen` succeeds, the handler makes no memory
    error and ends as `receive` and `deviceAction` say.  When it has ended it leaves as
    many blocks of 512 bytes as it made passes without a `recv`, and nothing else of its
    memory. -/
theorem handler_leaks {clientData : Nat} {data : List UInt8}
    (rest : Multiset (Nat × Block UInt8)) (hdata : data.length = sizeofClientData)
    (passes : List Pass) (hproper : AllProper AesdTemperary.aesdTemperaryBufferInit passes) :
    Safe ((clientData, .bytes (written data)) ::ₘ rest) (clientHandler clientData passes)
      fun e cells => e = handlerEnd AesdTemperary.aesdTemperaryBufferInit passes ∧
        LeavesBehind clientData data rest (leaks AesdTemperary.aesdTemperaryBufferInit passes)
          e cells := by
  refine Safe.bind (Safe.alloc fun pt => Safe.bind (storeTemperary_safe rfl ?_))
  have hw : Working clientData pt data AesdTemperary.aesdTemperaryBufferInit rest
      ((pt, .temperary ⟨none, 0⟩) ::ₘ (clientData, .bytes (written data)) ::ₘ rest) :=
    ⟨⟨none, 0⟩, ⟨rfl, rfl⟩, by rw [temperaryCells, blockCells_null, zero_add]⟩
  exact loadClientData hw hdata (by decide)
    (handlerLoop_safe hdata passes hw AesdTemperary.holds_init (by decide) hproper)

/-- A wakeup for nothing, a packet in two chunks, a wakeup for nothing between them,
    and the end of the stream. -/
def twoIdle : List Pass :=
  [.neither, .socket true (some [97]) [] ⟨true, true, false, false⟩, .neither,
    .socket true (some [98, 10]) [] ⟨true, true, false, false⟩,
    .socket true (some []) [] ⟨true, true, false, false⟩]

/-- Two blocks are left, in a process that goes on. -/
theorem handler_leaks_twoIdle :
    Safe {(7, .bytes (written (List.replicate sizeofClientData 0)))} (clientHandler 7 twoIdle)
      fun e cells => e = .done ∧ Multiset.card cells = 2 := by
  have hproper : AllProper AesdTemperary.aesdTemperaryBufferInit twoIdle := by
    decide +kernel
  have hend : handlerEnd AesdTemperary.aesdTemperaryBufferInit twoIdle = .done := by
    decide +kernel
  have hleaks : leaks AesdTemperary.aesdTemperaryBufferInit twoIdle = 2 := by
    decide +kernel
  refine Safe.imp (handler_leaks 0 List.length_replicate twoIdle hproper) ?_
  rintro e cells ⟨he, hbehind⟩
  rw [hend] at he
  rw [hleaks] at hbehind
  subst he
  obtain ⟨leaked, hleft, rfl⟩ := hbehind
  exact ⟨rfl, by rw [add_zero]; exact hleft.1⟩

end AesdHandlerMemory
