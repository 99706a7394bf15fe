import Aesd.ShutdownProofs

/-! # Who closes which descriptor

    Each handler owns the number of its connection until it closes it.  The loop
    of `clientHandler` closes the socket when the client ends the stream, and
    `cleanupClientHandler` closes the same number again; in between the number is
    free, or belongs to whoever opened something in the meantime.  In the same way
    every thread that runs `cleanupMain` closes the listening socket.

    Where no second close hits a number that was handed out again (`closesOwn`), a
    handler in its loop has its own connection and its own device file (`Held`),
    whatever the others do (`Kept`): `recv` receives from its client, and the calls on
    the device reach the device.

    In runs in which no stream ends that way, every `pthread_create` succeeds and nobody
    calls `logAndExit`, every close hits its own descriptor and happens once. -/

namespace AesdOwnership

open AesdMachine AesdTemperary AesdDriver AesdClient AesdServer AesdThreadTable AesdShutdown
open DescriptorTable Transition

/-- The device file a handler has open. -/
def fileOf : Pc → Option Nat
  | .ioctl fd _ | .write fd _ | .readBack fd | .send fd => some fd
  | _ => none

/-- It has it open in its loop. -/
theorem inLoop_of_fileOf {pc : Pc} {fd : Nat} (h : fileOf pc = some fd) : inLoop pc = true := by
  cases pc <;> first | rfl | cases h

/-- The handler that opened the descriptor. -/
def whose : Owner → Option Nat
  | .conn i | .file i => some i
  | .process | .log => none

/-- Only descriptors of `mine` are taken away. -/
def Kept (mine : Owner → Prop) (sh sh' : Shared) : Prop :=
  ∀ n w, ¬ mine w → owner sh.fds n = some w → owner sh'.fds n = some w

section Kept

variable {mine mine' : Owner → Prop} {sh sh' sh'' : Shared}

theorem Kept.same (hfds : sh'.fds = sh.fds) : Kept mine sh sh' := by
  intro n w _ hown
  rw [hfds]
  exact hown

theorem Kept.trans (h : Kept mine sh sh') (h' : Kept mine sh' sh'') : Kept mine sh sh'' :=
  fun n w hw hown => h' n w hw (h n w hw hown)

theorem Kept.mono (h : Kept mine sh sh') (himp : ∀ w, mine w → mine' w) : Kept mine' sh sh' :=
  fun n w hw hown => h n w (fun hmine => hw (himp w hmine)) hown

/-- Opening takes nothing away. -/
theorem Kept.opened {w : Owner} (hfds : sh'.fds = openAs sh.fds w) : Kept mine sh sh' := by
  intro n w' _ hown
  rw [hfds]
  exact owner_openAs_of_owned hown _

/-- Closing a number that is free or one's own. -/
theorem Kept.closed {fd : Nat} (hfds : sh'.fds = close sh.fds fd)
    (hown : ∀ w, owner sh.fds fd = some w → mine w) : Kept mine sh sh' := by
  intro n w hw hn
  have hne : n ≠ fd := by
    rintro rfl
    exact hw (hown w hn)
  rw [hfds, owner_close, if_neg hne]
  exact hn

theorem Kept.onlyOpens (h : OnlyOpens sh sh') : Kept mine sh sh' :=
  fun n w _ hown => h.opened n w hown

end Kept

/-! ## When the second close is harmless -/

/-- The number is free, or the owner's. -/
def freeOrOf (sh : Shared) (fd : Nat) (w : Owner) : Bool :=
  owner sh.fds fd == none || owner sh.fds fd == some w

theorem eq_of_freeOrOf {sh : Shared} {fd : Nat} {w w' : Owner} (h : freeOrOf sh fd w = true)
    (hown : owner sh.fds fd = some w') : w' = w := by
  rcases Bool.or_eq_true_iff.mp h with hfree | heq
  · cases hown.symm.trans (beq_iff_eq.mp hfree)
  · exact Option.some.inj (hown.symm.trans (beq_iff_eq.mp heq))

/-- `cleanupMain` at this stage does not close a number that now is another's. -/
def serverCloses (sh : Shared) (stage : Cleanup) : Bool :=
  stage != .closeServer || freeOrOf sh sh.serverSockFd.toNat .process

/-- Nor does `cleanupClientHandler`, or a handler in `cleanupMain`. -/
def handlerCloses (sh : Shared) (i : Nat) (h : Handler) : HandlerAction → Bool
  | .finish => freeOrOf sh h.newSockFd (.conn i)
  | .cleanup =>
      match h.pc with
      | .logAndExit _ stage => serverCloses sh stage
      | _ => true
  | _ => true

/-- **NO STRAY CLOSE**: the step does not close a number that was closed before and has
    been handed out again. -/
def closesOwn (s : Server) : Action → Bool
  | .handler i a => s.handlers[i]?.all fun h => handlerCloses s.shared i h a
  | .main .cleanup =>
      match s.main with
      | .cleanup stage => serverCloses s.shared stage
      | _ => true
  | _ => true

/-- What a handler may close: its own, and in `cleanupMain` the listening socket. -/
def touches (i : Nat) (a : HandlerAction) (w : Owner) : Prop :=
  whose w = some i ∨ a = .cleanup ∧ w = .process

/-- A handler in its loop has its own connection, and in the critical section its own
    device file. -/
structure Held (sh : Shared) (i : Nat) (h : Handler) : Prop where
  sock : inLoop h.pc = true → owner sh.fds h.newSockFd = some (.conn i)
  file : ∀ fd, fileOf h.pc = some fd → owner sh.fds fd = some (.file i)

section Held

variable {mine : Owner → Prop} {canJoin : Option Nat → Bool} {i : Nat} {sh sh' : Shared}
  {h h' : Handler} {a : HandlerAction}

/-- `recv` receives what the client sent. -/
theorem recvFrom_conn (hown : owner sh.fds h.newSockFd = some (.conn i))
    (chunk : Option (List UInt8)) : recvFrom sh h chunk = chunk.map (tag i) := by
  rw [recvFrom, hown]

/-- The calls on the device reach the device. -/
theorem onDevice_file {fd : Nat} (hown : owner sh.fds fd = some (.file i)) :
    onDevice sh fd = true := by
  rw [onDevice, hown]

theorem Held.not_elsewhere (hheld : Held sh i h) {fd : Nat} (hfd : fileOf h.pc = some fd) :
    onDevice sh fd ≠ false := by
  rw [onDevice_file (hheld.file fd hfd)]
  exact fun heq => nomatch heq

/-- **STABILITY**: a step that takes nothing of this handler's is not noticed. -/
theorem Held.stable (hheld : Held sh i h) (hkept : Kept mine sh sh')
    (hmine : ∀ w, whose w = some i → ¬ mine w) : Held sh' i h :=
  ⟨fun hin => hkept _ _ (hmine _ rfl) (hheld.sock hin),
    fun fd hfd => hkept _ _ (hmine _ rfl) (hheld.file fd hfd)⟩

/-- Outside the loop nothing is asked. -/
theorem held_of_out (hout : inLoop h.pc = false) : Held sh i h := by
  constructor
  · intro hin
    exact nomatch hout.symm.trans hin
  · intro fd hfd
    exact nomatch hout.symm.trans (inLoop_of_fileOf hfd)

/-- A step that opens and closes nothing. -/
theorem Held.move (hheld : Held sh i h) (hfds : sh'.fds = sh.fds)
    (hsock : h'.newSockFd = h.newSockFd) (hin : inLoop h.pc = true)
    (hfile : ∀ fd, fileOf h'.pc = some fd → fileOf h.pc = some fd) : Held sh' i h' := by
  constructor
  · intro _
    rw [hfds, hsock]
    exact hheld.sock hin
  · intro fd hfd
    rw [hfds]
    exact hheld.file fd (hfile fd hfd)

/-- `fopen`. -/
theorem Held.fopen (hown : owner sh.fds h.newSockFd = some (.conn i))
    (hsock : h'.newSockFd = h.newSockFd) (hfile : fileOf h'.pc = some (lowestFree sh.fds)) :
    Held (fopen sh i) i h' := by
  constructor
  · intro _
    rw [hsock]
    exact owner_openAs_of_owned hown _
  · intro fd hfd
    rw [hfile] at hfd
    rw [← Option.some.inj hfd]
    exact (owner_openAs ..).trans (if_pos rfl)

/-- `fclose` leaves the connection. -/
theorem Held.sock_fclose (hheld : Held sh i h) {fd : Nat} (hfd : fileOf h.pc = some fd)
    (hin : inLoop h.pc = true) : owner (closeFd sh i fd).fds h.newSockFd = some (.conn i) :=
  owner_close_of_ne (hheld.sock hin) (hheld.file fd hfd) (fun heq => nomatch heq)

theorem kept_fclose (hheld : Held sh i h) {fd : Nat} (hfd : fileOf h.pc = some fd) :
    Kept (touches i a) sh (closeFd sh i fd) := by
  refine Kept.closed rfl ?_
  intro w hown
  rw [hheld.file fd hfd] at hown
  rw [← Option.some.inj hown]
  exact Or.inl rfl

/-- `cleanupMain` may close the listening socket. -/
theorem kept_cleanup {stage : Cleanup} {stage' : Option Cleanup}
    (hok : serverCloses sh stage = true)
    (hclean : cleanupStep canJoin sh stage = some (sh', stage')) :
    Kept (fun w => w = .process) sh sh' := by
  have hfds := cleanupStep_fds hclean
  by_cases hstage : stage = .closeServer
  · rw [if_pos hstage, closeServer] at hfds
    rw [hstage, serverCloses] at hok
    by_cases hpos : 0 < sh.serverSockFd
    · rw [if_pos hpos] at hfds
      exact Kept.closed hfds fun w hown => eq_of_freeOrOf hok hown
    · rw [if_neg hpos] at hfds
      exact Kept.same hfds
  · rw [if_neg hstage] at hfds
    exact Kept.same hfds

/-- The step lemma of a handler. -/
theorem Held.step (hheld : Held sh i h) (hok : handlerCloses sh i h a = true)
    (hstep : HandlerStep canJoin i sh h a sh' h') :
    Held sh' i h' ∧ Kept (touches i a) sh sh' := by
  cases hstep with
  | pollNeither hpc => exact ⟨hheld, .same rfl⟩
  | receivedClosed granted chunk b hpc hlen hrecv =>
      have hown := hheld.sock (by rw [hpc]; rfl)
      refine ⟨held_of_out rfl, .closed rfl ?_⟩
      intro w hw
      rw [hown] at hw
      rw [← Option.some.inj hw]
      exact Or.inl rfl
  | seek after command hpc hact =>
      exact ⟨.fopen (hheld.sock (by rw [hpc]; rfl)) rfl rfl, .opened rfl⟩
  | data after bytes hpc hact =>
      exact ⟨.fopen (hheld.sock (by rw [hpc]; rfl)) rfl rfl, .opened rfl⟩
  | reopen fd hpc =>
      -- closed and opened again: in between the handler has no file
      have hfile : fileOf h.pc = some fd := by rw [hpc]; rfl
      have hown := hheld.sock_fclose hfile (by rw [hpc]; rfl)
      exact ⟨Held.fopen hown rfl rfl, (kept_fclose hheld hfile).trans (.opened rfl)⟩
  | readEnd fd hpc =>
      have hfile : fileOf h.pc = some fd := by rw [hpc]; rfl
      have hown := hheld.sock_fclose hfile (by rw [hpc]; rfl)
      exact ⟨⟨fun _ => hown, fun fd hfd => nomatch hfd⟩, kept_fclose hheld hfile⟩
  | finish hpc =>
      refine ⟨held_of_out rfl, ?_⟩
      by_cases hpos : 0 < h.newSockFd
      · rw [if_pos hpos]
        refine .closed rfl ?_
        intro w hown
        rw [eq_of_freeOrOf hok hown]
        exact Or.inl rfl
      · rw [if_neg hpos]
        exact .same rfl
  | cleanup why stage sh' stage' hpc hclean =>
      rw [handlerCloses, hpc] at hok
      exact ⟨held_of_out rfl, (kept_cleanup hok hclean).mono fun w hw => Or.inr ⟨rfl, hw⟩⟩
  | callocFailed r hpc => exact ⟨held_of_out rfl, .same rfl⟩
  | pollError hpc => exact ⟨held_of_out rfl, .same rfl⟩
  | pipeRead hpc hpipe => exact ⟨held_of_out rfl, .same rfl⟩
  | receivedFatal granted chunk why hpc hlen hrecv => exact ⟨held_of_out rfl, .same rfl⟩
  | seekFailed copied fd command hpc hdev hneg => exact ⟨held_of_out rfl, .same rfl⟩
  | seekElsewhere fd command hpc hdev => exact ⟨held_of_out rfl, .same rfl⟩
  | readFailed fd hpc => exact ⟨held_of_out rfl, .same rfl⟩
  | _ =>
      have hpc := ‹h.pc = _›
      exact ⟨hheld.move rfl rfl (by rw [hpc]; rfl) (fun fd' hfd => by rw [hpc]; exact hfd),
        .same rfl⟩

end Held

/-- What every handler has, and the main thread between `accept` and `pthread_create`. -/
structure AllHeld (s : Server) : Prop where
  handlers : AllAt (Held s.shared) s.handlers
  accepted : ∀ fd, s.main = .create fd ∨ s.main = .start fd →
    owner s.shared.fds fd = some (.conn s.handlers.length)

/-- The main thread closes the listening socket -/
theorem mainStep_opens {s t : Server} {m : MainAction} (hmain : MainStep s m t)
    (hne : s.main ≠ .cleanup .closeServer) : Kept (fun _ => False) s.shared t.shared := by
  cases hmain with
  | accepted hpc => exact .onlyOpens (accepted_frame _ _)
  | notListening hpc hgo hclosed => exact .onlyOpens (logged_frame _)
  | acceptFailed result hpc hno => exact .onlyOpens (logged_frame _)
  | cleanup stage sh' stage' hpc hclean =>
      have hfds := cleanupStep_fds hclean
      have hstage : stage ≠ .closeServer := by
        rintro rfl
        exact hne hpc
      rw [if_neg hstage] at hfds
      exact .same hfds
  | _ => exact .same rfl

/-- and nothing else. -/
theorem mainStep_kept {s t : Server} {m : MainAction} (hok : closesOwn s (.main m) = true)
    (hmain : MainStep s m t) : Kept (fun w => w = .process) s.shared t.shared := by
  by_cases hne : s.main = .cleanup .closeServer
  · obtain ⟨rfl, sh', stage', hclean, rfl⟩ := mainStep_at_cleanup hmain hne
    rw [closesOwn, hne] at hok
    exact kept_cleanup hok hclean
  · exact (mainStep_opens hmain hne).mono fun _ hno => hno.elim

/-- The step lemma. -/
theorem AllHeld.next {s t : Server} {a : Action} (hs : AllHeld s)
    (hok : closesOwn s a = true) (hnext : next s a = some t) : AllHeld t := by
  rcases next_cases hnext with ⟨-, rfl⟩ | ⟨m, rfl, hmain⟩ |
    ⟨i, ha, hd, sh', hd', rfl, hget, hstep, rfl⟩
  · exact ⟨hs.handlers, hs.accepted⟩
  · have hkept := mainStep_kept hok hmain
    have hnot : ∀ (w : Owner) (j : Nat), whose w = some j → w ≠ .process := by
      rintro w j hw rfl
      exact nomatch hw
    have hold : AllAt (Held t.shared) s.handlers :=
      hs.handlers.mono fun j h _ hheld => hheld.stable hkept fun w hw => hnot w j hw
    cases hmain with
    | accepted hpc =>
        refine ⟨hold, ?_⟩
        rintro fd (hfd | hfd)
        · rw [← MainPc.create.inj hfd]
          exact (logged_frame _).opened _ _ ((owner_openAs ..).trans (if_pos rfl))
        · exact nomatch hfd
    | counted fd hpc =>
        refine ⟨hold, ?_⟩
        rintro fd' (hfd | hfd)
        · exact nomatch hfd
        · rw [← MainPc.start.inj hfd]
          exact hs.accepted fd (Or.inl hpc)
    | created fd ok hpc =>
        refine ⟨hold.append ⟨?_, ?_⟩ fun _ _ _ _ hheld => hheld, ?_⟩
        · exact fun _ => hs.accepted fd (Or.inr hpc)
        · cases ok <;> exact fun fd' hfd => nomatch hfd
        · rintro fd' (hfd | hfd) <;> exact nomatch hfd
    | _ => exact ⟨hold, fun fd hfd => hfd.elim (fun heq => nomatch heq) fun heq => nomatch heq⟩
  · have hlt : i < s.handlers.length := (List.getElem?_eq_some_iff.mp hget).1
    rw [closesOwn, hget] at hok
    obtain ⟨hheld', hkept⟩ := (hs.handlers i hd hget).step hok hstep
    refine ⟨hs.handlers.set hheld' ?_, ?_⟩
    · intro j h hji _ hheld
      refine hheld.stable hkept ?_
      rintro w hw (hi | ⟨-, rfl⟩)
      · exact hji (Option.some.inj (hw.symm.trans hi))
      · exact nomatch hw
    · intro fd hfd
      rw [List.length_set]
      refine hkept _ _ ?_ (hs.accepted fd hfd)
      rintro (heq | ⟨-, heq⟩)
      · exact Nat.ne_of_gt hlt (Option.some.inj heq)
      · exact nomatch heq

theorem AllHeld.of_starts {s : Server} (hs : Starts s) : AllHeld s := by
  constructor
  · rw [hs.handlers]
    exact allAt_nil _
  · intro fd hfd
    rw [hs.main] at hfd
    rcases hfd with heq | heq <;> exact nomatch heq

/-- **EVERY HANDLER HAS ITS OWN**: in every run without a stray close. -/
theorem allHeld_run {s t : Server} (hs : Starts s)
    (hrun : RunsTo next (fun s a => closesOwn s a = true) s t) : AllHeld t :=
  hrun.invariant (fun _ _ _ hinv hok hnext => hinv.next hok hnext) (.of_starts hs)

/-! ## When there is no second close -/

/-- How often handler `i` closed a number that was its connection's. -/
def ownCloses (closes : List CloseCall) (i : Nat) : Nat :=
  closes.countP fun c => c.handler == i && c.hit == some (.conn i)

/-- The call hit a descriptor of the handler that made it. -/
def HitsOwn (c : CloseCall) : Prop :=
  c.hit = some (.conn c.handler) ∨ c.hit = some (.file c.handler)

/-- `recv` returns 0, and the buffer takes it. -/
def endsStream : Action → Bool
  | .handler _ (.recv granted chunk) => granted && chunk == some []
  | _ => false

/-- The step is not the end of a client's stream, no failed `pthread_create`, and takes no
    handler to `logAndExit`. -/
def keepsOwners (s : Server) (a : Action) : Bool := !endsStream a && creates a && noneExits s a

/-- The handler of connection `i` has its connection to the end, and closes it there. -/
structure Once (sh : Shared) (i : Nat) (h : Handler) : Prop where
  started : h.pc ≠ .notStarted
  leaves  : h.pc = .leave → owner sh.fds h.newSockFd = some (.conn i)
  count   : ownCloses sh.closes i = if h.pc = .done then 1 else 0

section Once

variable {canJoin : Option Nat → Bool} {i j : Nat} {sh sh' : Shared} {h h' : Handler}
  {a : HandlerAction} {closes new : List CloseCall}

/-- What the step puts on the record. -/
structure Records (i : Nat) (sh sh' : Shared) (own : Nat) (new : List CloseCall) : Prop where
  appended : sh'.closes = sh.closes ++ new
  hits     : ∀ c ∈ new, c.handler = i ∧ HitsOwn c
  own      : ownCloses new i = own

theorem records_nothing (hcloses : sh'.closes = sh.closes) : Records i sh sh' 0 [] :=
  ⟨by rw [hcloses, List.append_nil], fun c hc => absurd hc List.not_mem_nil, rfl⟩

/-- `fclose` of one's own file. -/
theorem records_file {fd : Nat} (hown : owner sh.fds fd = some (.file i))
    (hcloses : sh'.closes = (closeFd sh i fd).closes) :
    Records i sh sh' 0 [⟨i, some (.file i)⟩] := by
  refine ⟨?_, ?_, ?_⟩
  · rw [hcloses, closeFd, hown]
  · intro c hc
    rw [List.mem_singleton.mp hc]
    exact ⟨rfl, Or.inr rfl⟩
  · simp [ownCloses]

/-- `close` of one's own connection. -/
theorem records_conn {fd : Nat} (hown : owner sh.fds fd = some (.conn i)) :
    Records i sh (closeFd sh i fd) 1 [⟨i, some (.conn i)⟩] := by
  refine ⟨?_, ?_, ?_⟩
  · rw [closeFd, hown]
  · intro c hc
    rw [List.mem_singleton.mp hc]
    exact ⟨rfl, Or.inl rfl⟩
  · simp [ownCloses]

/-- Only an empty chunk, and only with the memory to add it, ends the stream. -/
theorem receive_closed {granted : Bool} {b b' : AesdTemperaryBuffer Tagged}
    {data : Option (List Tagged)} (h : receive granted b data = .closed b') :
    granted = true ∧ data = some [] := by
  cases data with
  | none =>
      simp only [receive] at h
      split at h <;> cases h
  | some bytes =>
      simp only [receive] at h
      split at h
      · cases h
      · next hadd =>
          have hgranted : granted = true := by
            rw [← Bool.not_eq_false]
            rintro rfl
            apply hadd
            cases hb : b.buffptr <;> simp [aesdTemperaryBufferAdd, hb, malloc]
          refine ⟨hgranted, ?_⟩
          split at h
          · cases h
          · split at h
            · next hzero => rw [List.eq_nil_of_length_eq_zero (Int.natCast_eq_zero.mp hzero)]
            · split at h <;> cases h

/-- Then the client has ended its stream. -/
theorem endsStream_of_closed {granted : Bool} {chunk : Option (List UInt8)}
    {b : AesdTemperaryBuffer Tagged}
    (hown : owner sh.fds h.newSockFd = some (.conn i))
    (hrecv : receive granted h.bufferString (recvFrom sh h chunk) = .closed b) :
    endsStream (.handler i (.recv granted chunk)) = true := by
  obtain ⟨hgranted, hnil⟩ := receive_closed hrecv
  rw [recvFrom_conn hown] at hnil
  obtain ⟨data, hchunk, hdata⟩ := Option.map_eq_some_iff.mp hnil
  rw [hchunk, hgranted, List.map_eq_nil_iff.mp hdata]
  rfl

/-- **WHAT A HANDLER CLOSES**: its own files, and at its end its connection. -/
theorem Once.step (hheld : Held sh i h) (honce : Once sh i h)
    (hpos : ∀ fd w, owner sh.fds fd = some (.conn w) → 0 < fd)
    (hends : endsStream (.handler i a) = false) (hcalm : h'.pc.inCleanup = false)
    (hstep : HandlerStep canJoin i sh h a sh' h') :
    ∃ new, Records i sh sh' (if h'.pc = .done then 1 else 0) new := by
  cases hstep with
  | receivedClosed granted chunk b hpc hlen hrecv =>
      have hown := hheld.sock (by rw [hpc]; rfl)
      exact absurd (endsStream_of_closed hown hrecv) (Bool.eq_false_iff.mp hends)
  | reopen fd hpc => exact ⟨_, records_file (hheld.file fd (by rw [hpc]; rfl)) rfl⟩
  | readEnd fd hpc => exact ⟨_, records_file (hheld.file fd (by rw [hpc]; rfl)) rfl⟩
  | finish hpc =>
      have hown := honce.leaves hpc
      rw [if_pos (hpos _ _ hown)]
      exact ⟨_, records_conn hown⟩
  | pollNeither hpc =>
      rw [hpc]
      exact ⟨_, records_nothing rfl⟩
  | cleanup why stage sh' stage' hpc hclean => exact nomatch hcalm
  | _ => exact ⟨_, records_nothing rfl⟩

/-- Whoever leaves the loop still has its connection. -/
theorem owner_of_leaves (hheld : Held sh i h) (hends : endsStream (.handler i a) = false)
    (hstep : HandlerStep canJoin i sh h a sh' h') (hleave : h'.pc = .leave) :
    owner sh'.fds h'.newSockFd = some (.conn i) := by
  cases hstep with
  | pollError hpc => exact hheld.sock (by rw [hpc]; rfl)
  | pipeRead hpc hpipe => exact hheld.sock (by rw [hpc]; rfl)
  | receivedClosed granted chunk b hpc hlen hrecv =>
      have hown := hheld.sock (by rw [hpc]; rfl)
      exact absurd (endsStream_of_closed hown hrecv) (Bool.eq_false_iff.mp hends)
  | pollNeither hpc => exact nomatch hpc.symm.trans hleave
  | _ => exact nomatch hleave

theorem ownCloses_append_of_ne (hij : j ≠ i) (hnew : ∀ c ∈ new, c.handler = i) :
    ownCloses (closes ++ new) j = ownCloses closes j := by
  have hzero : new.countP (fun c => c.handler == j && c.hit == some (.conn j)) = 0 := by
    rw [List.countP_eq_zero]
    intro c hc
    have hne : c.handler ≠ j := by
      rw [hnew c hc]
      exact hij.symm
    simp [hne]
  simp only [ownCloses, List.countP_append, hzero, Nat.add_zero]

/-- The others do not notice. -/
theorem Once.stable {mine : Owner → Prop} {own : Nat} (honce : Once sh j h)
    (hkept : Kept mine sh sh') (hmine : ¬ mine (.conn j)) (hij : j ≠ i)
    (hrec : Records i sh sh' own new) : Once sh' j h := by
  refine ⟨honce.started, fun hpc => hkept _ _ hmine (honce.leaves hpc), ?_⟩
  rw [hrec.appended, ownCloses_append_of_ne hij fun c hc => (hrec.hits c hc).1]
  exact honce.count

/-- The main thread does not notice either. -/
theorem Once.main {mine : Owner → Prop} (honce : Once sh i h) (hkept : Kept mine sh sh')
    (hmine : ¬ mine (.conn i)) (hcloses : sh'.closes = sh.closes) : Once sh' i h := by
  refine ⟨honce.started, fun hpc => hkept _ _ hmine (honce.leaves hpc), ?_⟩
  rw [hcloses]
  exact honce.count

end Once

/-- The invariant of the whole process. -/
structure AllOnce (s : Server) : Prop where
  held      : AllHeld s
  counted   : Counted s
  stored    : Stored s
  joined    : Joined s
  handlers  : AllAt (Once s.shared) s.handlers
  zero      : owner s.shared.fds 0 = some .process
  listening : s.main ≠ .cleanup .exit →
    owner s.shared.fds s.shared.serverSockFd.toNat = some .process
  closes    : ∀ c ∈ s.shared.closes, c.handler < s.handlers.length ∧ HitsOwn c

/-- Number 0 is the process's own, so no connection gets it. -/
theorem AllOnce.pos {s : Server} (hs : AllOnce s) {fd i : Nat}
    (hown : owner s.shared.fds fd = some (.conn i)) : 0 < fd := by
  rw [Nat.pos_iff_ne_zero]
  rintro rfl
  exact nomatch hs.zero.symm.trans hown

/-- Nobody closes a number a second time. -/
theorem AllOnce.no_stray {s t : Server} {a : Action} (hs : AllOnce s)
    (hnext : next s a = some t) : closesOwn s a = true := by
  rcases next_cases hnext with ⟨rfl, -⟩ | ⟨m, rfl, hmain⟩ |
    ⟨i, ha, hd, sh', hd', rfl, hget, hstep, -⟩
  · rfl
  · cases hmain with
    | cleanup stage sh' stage' hpc hclean =>
        rw [closesOwn, hpc]
        show serverCloses s.shared stage = true
        by_cases hstage : stage = .closeServer
        · have hown := hs.listening (by rw [hpc, hstage]; exact fun heq => nomatch heq)
          rw [serverCloses, freeOrOf, hown, beq_self_eq_true, Bool.or_true, Bool.or_true]
        · rw [serverCloses, bne_iff_ne.mpr hstage, Bool.true_or]
    | _ => rfl
  · rw [closesOwn, hget]
    show handlerCloses s.shared i hd ha = true
    cases hstep with
    | finish hpc =>
        have hown := (hs.handlers i hd hget).leaves hpc
        rw [handlerCloses, freeOrOf, hown, beq_self_eq_true, Bool.or_true]
    | cleanup why stage sh' stage' hpc hclean =>
        have hout := hs.joined.calm hd (List.mem_of_getElem? hget)
        rw [hpc] at hout
        exact nomatch hout
    | _ => rfl

/-- The main thread closes nothing of a handler's. -/
theorem mainStep_closes {s t : Server} {m : MainAction} (hmain : MainStep s m t) :
    t.shared.closes = s.shared.closes := by
  cases hmain with
  | accepted hpc => exact (accepted_frame _ _).closes
  | notListening hpc hgo hclosed => exact (logged_frame _).closes
  | acceptFailed result hpc hne => exact (logged_frame _).closes
  | cleanup stage sh' stage' hpc hclean => exact (cleanupStep_frame hclean).closes
  | _ => rfl

/-- Number 0 is not closed: `cleanupMain` asks whether `serverSockFd` is positive. -/
theorem zero_closeServer {fds : List (Option Owner)} {serverSockFd : Int} {w : Owner}
    (hzero : owner fds 0 = some w) : owner (closeServer fds serverSockFd) 0 = some w := by
  rw [closeServer]
  by_cases hpos : 0 < serverSockFd
  · rw [if_pos hpos, owner_close, if_neg (by omega), hzero]
  · rw [if_neg hpos, hzero]

/-- The main thread's part of the invariant. -/
theorem AllOnce.main {s t : Server} {m : MainAction} (hs : AllOnce s)
    (hok : keepsOwners s (.main m) = true) (hnext : next s (.main m) = some t)
    (hmain : MainStep s m t) : AllAt (Once t.shared) t.handlers ∧
      owner t.shared.fds 0 = some .process ∧
      (t.main ≠ .cleanup .exit →
        owner t.shared.fds t.shared.serverSockFd.toNat = some .process) := by
  have hkept := mainStep_kept (hs.no_stray hnext) hmain
  have hcloses := mainStep_closes hmain
  have hold : AllAt (Once t.shared) s.handlers := hs.handlers.mono fun j h _ honce =>
    honce.main hkept (fun heq => nomatch heq) hcloses
  refine ⟨?_, ?_⟩
  · rcases mainStep_threads hmain with ⟨-, hhandlers, -, -⟩ | ⟨-, -, -, -, hhandlers⟩ |
      ⟨fd, ok, rfl, -, -, -, hhandlers⟩
    · rw [hhandlers]
      exact hold
    · rw [hhandlers]
      exact hold
    · -- a new handler has closed nothing
      have hsome : ok = true := by
        obtain ⟨hcreates, -⟩ := Bool.and_eq_true_iff.mp hok
        exact (Bool.and_eq_true_iff.mp hcreates).2
      have hnone : ownCloses s.shared.closes s.handlers.length = 0 := by
        rw [ownCloses, List.countP_eq_zero]
        intro c hc
        have hlt := (hs.closes c hc).1
        simp [Nat.ne_of_lt hlt]
      rw [hhandlers, hsome]
      refine hold.append ⟨(fun heq => nomatch heq), (fun heq => nomatch heq), ?_⟩
        fun _ _ _ _ honce => honce
      rw [hcloses]
      exact hnone
  · by_cases hclose : s.main = .cleanup .closeServer
    · obtain ⟨rfl, sh', stage', hclean, rfl⟩ := mainStep_at_cleanup hmain hclose
      cases hclean
      exact ⟨zero_closeServer hs.zero, fun hne => absurd rfl hne⟩
    · have hopens := mainStep_opens hmain hclose
      refine ⟨hopens _ _ id hs.zero, ?_⟩
      intro hne
      have hserver : t.shared.serverSockFd = s.shared.serverSockFd := by
        cases hmain with
        | accepted hpc => exact (accepted_frame _ _).server
        | notListening hpc hgo hclosed => exact (logged_frame _).server
        | acceptFailed result hpc hno => exact (logged_frame _).server
        | cleanup stage sh' stage' hpc hclean => exact (cleanupStep_frame hclean).server
        | _ => rfl
      rw [hserver]
      refine hopens _ _ id (hs.listening ?_)
      intro hexit
      -- at `exit` the main thread stays there
      obtain ⟨rfl, sh', stage', hclean, rfl⟩ := mainStep_at_cleanup hmain hexit
      cases hclean
      exact hne rfl

/-- A handler's part: the others keep what they own. -/
theorem AllOnce.handler {s : Server} {i : Nat} {a : HandlerAction} {hd hd' : Handler}
    {sh' : Shared} (hs : AllOnce s) (hok : closesOwn s (.handler i a) = true)
    (hends : endsStream (.handler i a) = false) (hcalm : hd'.pc.inCleanup = false)
    (hget : s.handlers[i]? = some hd)
    (hstep : HandlerStep (canJoin s (some i)) i s.shared hd a sh' hd') :
    AllAt (Once sh') (s.handlers.set i hd') ∧ Kept (fun w => whose w = some i) s.shared sh' ∧
      ∀ c ∈ sh'.closes, c.handler < s.handlers.length ∧ HitsOwn c := by
  have hlt : i < s.handlers.length := (List.getElem?_eq_some_iff.mp hget).1
  have hheld := hs.held.handlers i hd hget
  have honce := hs.handlers i hd hget
  rw [closesOwn, hget] at hok
  obtain ⟨-, hkept⟩ := hheld.step hok hstep
  obtain ⟨new, hrec⟩ := honce.step hheld (fun fd w hown => hs.pos hown) hends hcalm hstep
  have hown : Kept (fun w => whose w = some i) s.shared sh' := by
    refine hkept.mono ?_
    rintro w (hw | ⟨rfl, -⟩)
    · exact hw
    · cases hstep with
      | cleanup why stage sh' stage' hpc hclean => exact nomatch hcalm
  refine ⟨hs.handlers.set ⟨?_, ?_, ?_⟩ ?_, hown, ?_⟩
  · exact handlerStep_started hstep
  · exact owner_of_leaves hheld hends hstep
  · have hcount := honce.count
    rw [if_neg (handlerStep_not_done hstep)] at hcount
    rw [hrec.appended, ownCloses, List.countP_append]
    show ownCloses s.shared.closes i + ownCloses new i = _
    rw [hcount, hrec.own, Nat.zero_add]
  · intro j h hji _ honce'
    refine honce'.stable hown ?_ hji hrec
    exact fun heq => hji (Option.some.inj heq)
  · intro c hc
    rw [hrec.appended] at hc
    rcases List.mem_append.mp hc with hold | hc
    · exact hs.closes c hold
    · rw [(hrec.hits c hc).1]
      exact ⟨hlt, (hrec.hits c hc).2⟩

/-- The step lemma. -/
theorem AllOnce.next {s t : Server} {a : Action} (hs : AllOnce s)
    (hok : keepsOwners s a = true) (hnext : next s a = some t) : AllOnce t := by
  have hcloses := hs.no_stray hnext
  obtain ⟨hboth, hnone⟩ := Bool.and_eq_true_iff.mp hok
  obtain ⟨hends, hcreates⟩ := Bool.and_eq_true_iff.mp hboth
  have hheld := hs.held.next hcloses hnext
  have hcounted := hs.counted.next hnext
  have hstored := hs.stored.next hs.counted hcreates hnext
  have hjoined := hs.joined.next hnone hnext
  rcases next_cases hnext with ⟨-, rfl⟩ | ⟨m, rfl, hmain⟩ |
    ⟨i, ha, hd, sh', hd', rfl, hget, hstep, rfl⟩
  · exact ⟨hheld, hcounted, hstored, hjoined, hs.handlers, hs.zero, hs.listening, hs.closes⟩
  · obtain ⟨hhandlers, hzero, hlistening⟩ := hs.main hok hnext hmain
    refine ⟨hheld, hcounted, hstored, hjoined, hhandlers, hzero, hlistening, ?_⟩
    obtain ⟨-, -, more, hmore⟩ := mainStep_frame hmain
    intro c hc
    rw [mainStep_closes hmain] at hc
    obtain ⟨hlt, hhits⟩ := hs.closes c hc
    rw [hmore, List.length_append]
    exact ⟨Nat.lt_add_right _ hlt, hhits⟩
  · have hlt : i < s.handlers.length := (List.getElem?_eq_some_iff.mp hget).1
    have hcalm := hjoined.calm hd' (List.mem_set hlt hd')
    obtain ⟨hhandlers, hown, hhits⟩ :=
      hs.handler hcloses (Bool.not_eq_true' _ ▸ hends) hcalm hget hstep
    have hserver : sh'.serverSockFd = s.shared.serverSockFd := by
      cases hstep with
      | cleanup why stage sh' stage' hpc hclean => exact (cleanupStep_frame hclean).server
      | finish hpc => split <;> rfl
      | _ => rfl
    refine ⟨hheld, hcounted, hstored, hjoined, hhandlers, ?_, ?_, ?_⟩
    · exact hown _ _ (fun heq => nomatch heq) hs.zero
    · intro hne
      show owner sh'.fds sh'.serverSockFd.toNat = _
      rw [hserver]
      exact hown _ _ (fun heq => nomatch heq) (hs.listening hne)
    · intro c hc
      rw [List.length_set]
      exact hhits c hc

theorem AllOnce.of_starts {s : Server} (hs : Starts s) : AllOnce s := by
  refine ⟨.of_starts hs, .of_starts hs, ?_, .of_starts hs, ?_, hs.zero, ?_, ?_⟩
  · exact (Table.of_starts hs).stored
  · rw [hs.handlers]
    exact allAt_nil _
  · exact fun _ => beq_iff_eq.mp hs.listening
  · rw [hs.closes]
    exact fun c hc => absurd hc List.not_mem_nil

/-- Two clients connect.  The first sends one line and reads the answer; then the signal
    arrives, and both handlers leave. -/
def oneLine : List Action :=
  List.flatten [connect, connect, receives 0 [97, 10], writesLine 0, readsBack 0 1,
    [.signal, .main .checkStop], List.replicate 3 (.main .cleanup),
    [.handler 0 (.poll true .pipe), .handler 0 .pipeRead, .handler 1 (.poll true .pipe),
      .handler 1 .pipeRead, .handler 1 .finish, .handler 0 .finish],
    List.replicate 5 (.main .cleanup)]

/-- The first client ends its stream; before its handler has finished, a second
    client connects. -/
def endOfStream : List Action :=
  List.flatten [connect, receives 0 [], connect, [.handler 0 .finish]]

end AesdOwnership
