import Aesd.LockProofs
import Aesd.ReadBackProofs
import Aesd.ShutdownProofs

/-! # From the signal to the end of the process

    `SIGINT` and `SIGTERM` set `stop`, and the main thread goes from `accept` to
    `cleanupMain` with at most one more connection.  What every thread then has to do
    is a number: `toGo` for a handler that receives nothing more, `toEnd` for the
    main thread.

    Two facts make the end of the process.  Every step that is not waiting lowers the
    sum of these numbers, except that a chunk received gives its handler up to nine
    steps more, and a block of the device two (`remaining_step`).  And some step is
    possible (`exists_step`): the handler that the main thread joins can move, or waits
    for `fileMutex`, whose holder can move, unless it is in `send` and its client does
    not read.  Once every handler has its byte in the pipe, `poll` shows it to
    all of them before their sockets, and nobody receives (`received_step`). -/

namespace AesdTermination

open AesdDriver AesdTemperary AesdClient AesdServer AesdLock AesdReadBack AesdShutdown
open AesdThreadTable AesdOwnership Transition

/-- Steps that leave every thread where it is: a signal, a `poll` that reports
    neither the pipe nor the socket. -/
def waits : Action → Bool
  | .signal => true
  | .handler _ (.poll true .neither) => true
  | _ => false

/-- The step, unless it is waiting. -/
def work (a : Action) : List Action := if waits a then [] else [a]

/-- The step waits for nobody outside: `send` may wait for its client. -/
def unblocked (a : Action) : Bool :=
  match a with
  | .handler _ .send => false
  | a => !waits a

/-- `poll` sends a handler to `recv`. -/
def goesToRecv : Action → Bool
  | .handler _ (.poll true .socket) => true
  | _ => false

/-- `fread` hands out a block of the device. -/
def readsBlock : Action → Bool
  | .handler _ (.fread .data) => true
  | _ => false

/-- How often handlers went to `recv`. -/
def received (as : List Action) : Nat := as.countP goesToRecv

/-- How many blocks of the device were read back. -/
def blocksRead (as : List Action) : Nat := as.countP readsBlock

/-- The steps that these make possible. -/
def worth (as : List Action) : Nat := 9 * received as + 2 * blocksRead as

/-- `pthread_create` succeeds with an index left, nobody calls `logAndExit`, and no
    number is closed a second time that was handed out again. -/
def calm (s : Server) (a : Action) : Bool :=
  createsInside s a && noneExits s a && closesOwn s a

/-- The thread that holds `fileMutex` is in `send`. -/
def Sending (s : Server) : Prop :=
  ∃ (i : Nat) (h : Handler) (fd : Nat), s.shared.fileMutex = some i ∧
    s.handlers[i]? = some h ∧ h.pc = .send fd

/-- The steps a handler has to go when it receives nothing more, and reads no further
    block. -/
def toGo : Pc → Nat
  | .notStarted | .done | .logAndExit _ _ => 0
  | .leave => 1
  | .pipeRead => 2
  | .poll => 3
  | .unlock => 4
  | .readBack _ => 5
  | .send _ => 6
  | .write _ pieces => 6 + pieces.length
  | .ioctl _ _ => 6
  -- stdio makes at most two `write` calls
  | .command => 9
  | .lock => 10
  | .recv => 11

/-- The steps the main thread has to go after the signal, with `n` threads counted: a
    byte and a join for each, and as many for a connection it still accepts. -/
def toEnd (n : Nat) : MainPc → Nat
  | .accept => 2 * n + 13
  | .create _ => 2 * n + 12
  | .start _ => 2 * n + 9
  | .loop => 2 * n + 5
  | .cleanup (.pipeWrite k) => (n - k) + n + 4
  | .cleanup (.join k) => n - k + 3
  | .cleanup .closeServer => 2
  | .cleanup .exit => 1

/-- The steps all handlers have to go. -/
def allToGo (hs : List Handler) : Nat := (hs.map fun h => toGo h.pc).sum

/-- The steps the process has to go. -/
def remaining (s : Server) : Nat :=
  allToGo s.handlers
    + if s.shared.exited = true then 0 else toEnd s.shared.clientThreads.length s.main

/-- The connections the main thread still accepts after the signal. -/
def admits : MainPc → Nat
  | .accept | .create _ | .start _ => 1
  | _ => 0

/-! ## Every step is progress -/

/-- **A HANDLER MOVES ON**: a step of a handler that is not waiting brings it nearer to
    its end, or to `recv`, or is one more block. -/
theorem handlerStep_toGo {canJoin : Option Nat → Bool} {i : Nat} {sh sh' : Shared}
    {h h' : Handler} {a : HandlerAction} (hstep : HandlerStep canJoin i sh h a sh' h')
    (hcalm : h'.pc.inCleanup = false) :
    (work (.handler i a)).length + toGo h'.pc ≤ toGo h.pc + worth (work (.handler i a)) := by
  cases hstep with
  | pollNeither hpc => exact Nat.le_of_eq (Nat.zero_add _)
  | data after bytes hpc hact =>
      have hle : (stdioWrites bytes).length ≤ 2 := List.length_filter_le _ _
      rw [hpc]
      show 1 + (6 + (stdioWrites bytes).length) ≤ 9
      omega
  | write env fd piece pieces hpc hdev =>
      rw [hpc]
      show 1 + (6 + List.length (if _ then [] else pieces)) ≤ 6 + (pieces.length + 1)
      split
      · show 1 + (6 + 0) ≤ _
        omega
      · omega
  | writeElsewhere ok fd piece pieces hpc hdev =>
      rw [hpc]
      show 1 + (6 + List.length (if ok then pieces else [])) ≤ 6 + (pieces.length + 1)
      split
      · omega
      · show 1 + (6 + 0) ≤ _
        omega
  | callocFailed r hpc => exact nomatch hcalm
  | receivedFatal granted chunk why hpc hlen hrecv => exact nomatch hcalm
  | seekFailed copied fd command hpc hdev hneg => exact nomatch hcalm
  | seekElsewhere fd command hpc hdev => exact nomatch hcalm
  | readFailed fd hpc => exact nomatch hcalm
  | cleanup why stage sh' stage' hpc hclean => exact nomatch hcalm
  | _ =>
      have hpc := ‹h.pc = _›
      rw [hpc]
      exact Nat.le_of_ble_eq_true rfl

/-- The main thread writes, joins, closes the listening socket or ends the process. -/
theorem cleanupStep_toEnd {canJoin : Option Nat → Bool} {sh sh' : Shared} {stage : Cleanup}
    {stage' : Option Cleanup} (hclean : cleanupStep canJoin sh stage = some (sh', stage')) :
    1 + (if sh'.exited = true then 0
        else toEnd sh'.clientThreads.length (.cleanup (stage'.getD stage)))
      ≤ toEnd sh.clientThreads.length (.cleanup stage) := by
  have hthreads := (cleanupStep_frame hclean).threads
  have hle : ∀ n, 1 + (if sh'.exited = true then 0 else n) ≤ 1 + n := by
    intro n
    split
    · exact Nat.le_add_right _ _
    · exact Nat.le_refl _
  rw [hthreads]
  cases stage with
  | pipeWrite k =>
      refine Nat.le_trans (hle _) ?_
      simp only [cleanupStep] at hclean
      split at hclean
      · next hlt =>
          cases hclean
          show 1 + ((sh.clientThreads.length - (k + 1)) + sh.clientThreads.length + 4)
            ≤ (sh.clientThreads.length - k) + sh.clientThreads.length + 4
          omega
      · next hge =>
          cases hclean
          show 1 + (sh.clientThreads.length - 0 + 3)
            ≤ (sh.clientThreads.length - k) + sh.clientThreads.length + 4
          omega
  | join k =>
      refine Nat.le_trans (hle _) ?_
      simp only [cleanupStep] at hclean
      split at hclean
      · next thread hthread =>
          have hlt := (List.getElem?_eq_some_iff.mp hthread).1
          obtain ⟨-, heq⟩ := Option.ite_none_right_eq_some.mp hclean
          cases heq
          show 1 + (sh.clientThreads.length - (k + 1) + 3) ≤ sh.clientThreads.length - k + 3
          omega
      · cases hclean
        show 1 + 2 ≤ sh.clientThreads.length - k + 3
        omega
  | closeServer =>
      refine Nat.le_trans (hle _) ?_
      cases hclean
      exact Nat.le_refl _
  | exit =>
      cases hclean
      exact Nat.le_refl _

/-- Before `exit` the main thread has its steps to go, and never more. -/
theorem remaining_of_live {s : Server} (hlive : s.shared.exited = false) :
    remaining s = allToGo s.handlers
      + toEnd s.shared.clientThreads.length s.main := by
  rw [remaining, hlive, if_neg Bool.false_ne_true]

theorem remaining_le_live (s : Server) :
    remaining s ≤ allToGo s.handlers
      + toEnd s.shared.clientThreads.length s.main := by
  rw [remaining]
  split
  · exact Nat.le_add_right _ _
  · exact Nat.le_refl _

/-- The main thread goes on after the signal. -/
theorem mainStep_remaining {s t : Server} {m : MainAction} (hmain : MainStep s m t)
    (hlive : s.shared.exited = false) (hstop : s.stop = true) :
    1 + remaining t ≤ remaining s := by
  rw [remaining_of_live hlive]
  have hbound := Nat.add_le_add_left (remaining_le_live t) 1
  cases hmain with
  | goesOn hpc hgo hopen => exact nomatch hgo.symm.trans hstop
  | notListening hpc hgo hclosed => exact nomatch hgo.symm.trans hstop
  | stopped hpc _ =>
      refine Nat.le_trans hbound ?_
      rw [hpc]
      show 1 + (allToGo s.handlers
        + ((s.shared.clientThreads.length - 0) + s.shared.clientThreads.length + 4))
        ≤ _ + (2 * s.shared.clientThreads.length + 5)
      omega
  | accepted hpc =>
      refine Nat.le_trans hbound ?_
      rw [hpc]
      show 1 + (allToGo s.handlers + (2 * (logged _).clientThreads.length + 12)) ≤ _
      rw [(accepted_frame s.shared (.conn s.handlers.length)).threads]
      show _ ≤ _ + (2 * s.shared.clientThreads.length + 13)
      omega
  | acceptStopped hpc _ =>
      refine Nat.le_trans hbound ?_
      rw [hpc]
      show 1 + (allToGo s.handlers
        + ((s.shared.clientThreads.length - 0) + s.shared.clientThreads.length + 4))
        ≤ _ + (2 * s.shared.clientThreads.length + 13)
      omega
  | acceptFailed result hpc hne =>
      refine Nat.le_trans hbound ?_
      rw [hpc]
      show 1 + (allToGo s.handlers
        + (((logged _).clientThreads.length - 0) + (logged _).clientThreads.length + 4)) ≤ _
      rw [(logged_frame s.shared).threads]
      show _ ≤ _ + (2 * s.shared.clientThreads.length + 13)
      omega
  | counted fd hpc =>
      refine Nat.le_trans hbound ?_
      rw [hpc]
      show 1 + (allToGo s.handlers + (2 * (s.shared.clientThreads ++ [none]).length + 9))
        ≤ _ + (2 * s.shared.clientThreads.length + 12)
      rw [List.length_append, List.length_singleton]
      show 1 + (allToGo s.handlers + _) ≤ _
      omega
  | created fd ok hpc =>
      have hnew : toGo (if ok = true then .poll else .notStarted) ≤ 3 := by
        cases ok <;> exact Nat.le_of_ble_eq_true rfl
      refine Nat.le_trans hbound ?_
      rw [hpc]
      show 1 + (allToGo (s.handlers ++ [_])
        + (2 * (storeHandle s.shared.clientThreads ok s.handlers.length).length + 5))
          ≤ _ + (2 * s.shared.clientThreads.length + 9)
      rw [length_storeHandle, allToGo, List.map_append, List.sum_append]
      show 1 + (allToGo s.handlers + (toGo (if ok = true then .poll else .notStarted) + 0) + _) ≤ _
      omega
  | cleanup stage sh' stage' hpc hclean =>
      have hend := cleanupStep_toEnd hclean
      rw [hpc, remaining]
      show 1 + (allToGo s.handlers + if sh'.exited = true then 0
        else toEnd sh'.clientThreads.length (.cleanup (stage'.getD stage))) ≤ _
      omega

/-- The signal stays. -/
theorem stop_step {s t : Server} {a : Action} (hstop : s.stop = true)
    (hnext : next s a = some t) : t.stop = true := by
  rcases next_cases hnext with ⟨-, rfl⟩ | ⟨m, -, hmain⟩ | ⟨i, ha, hd, sh', hd', -, -, -, rfl⟩
  · rfl
  · cases hmain with
    | _ => exact hstop
  · exact hstop

/-- **EVERY STEP IS PROGRESS**: after the signal, what is not waiting brings the process
    nearer to its end, or a handler to `recv`, or is one more block of the device. -/
theorem remaining_step {s t : Server} {a : Action} (hstop : s.stop = true)
    (hok : noneExits s a = true) (hnext : next s a = some t) :
    (work a).length + remaining t ≤ remaining s + worth (work a) := by
  have hcalm := calm_of_noneExits hok hnext
  have hlive := live_of_next hnext
  rcases next_cases hnext with ⟨rfl, rfl⟩ | ⟨m, rfl, hmain⟩ |
    ⟨i, ha, hd, sh', hd', rfl, hget, hstep, rfl⟩
  · exact Nat.le_of_eq (Nat.zero_add _)
  · exact Nat.le_trans (mainStep_remaining hmain hlive hstop) (Nat.le_add_right _ _)
  · have hlt : i < s.handlers.length := (List.getElem?_eq_some_iff.mp hget).1
    have hgo := handlerStep_toGo hstep (hcalm hd' (List.mem_set hlt hd'))
    have hsum : allToGo (s.handlers.set i hd') + toGo hd.pc
        = allToGo s.handlers + toGo hd'.pc := sum_map_set_add hget hd'
    have hbound := remaining_le_live { s with shared := sh', handlers := s.handlers.set i hd' }
    have hthreads : sh'.clientThreads = s.shared.clientThreads := handlerStep_threads hstep
    rw [remaining_of_live hlive]
    simp only [hthreads] at hbound
    omega

/-- At most one more connection. -/
theorem admits_step {s t : Server} {a : Action} (hstop : s.stop = true)
    (hnext : next s a = some t) :
    t.handlers.length + admits t.main ≤ s.handlers.length + admits s.main := by
  rcases next_cases hnext with ⟨rfl, rfl⟩ | ⟨m, rfl, hmain⟩ |
    ⟨i, ha, hd, sh', hd', rfl, hget, hstep, rfl⟩
  · exact Nat.le_refl _
  · cases hmain with
    | goesOn hpc hgo hopen => exact nomatch hgo.symm.trans hstop
    | accepted hpc => rw [hpc]; exact Nat.le_refl _
    | counted fd hpc => rw [hpc]; exact Nat.le_refl _
    | created fd ok hpc =>
        rw [hpc]
        show (s.handlers ++ [_]).length + 0 ≤ _
        rw [List.length_append]
        exact Nat.le_refl _
    | _ => exact Nat.le_add_right _ _
  · show (s.handlers.set i hd').length + _ ≤ _
    rw [List.length_set]

/-! ## The number of steps -/

/-- Wherever a handler is, it has at most eleven steps to go. -/
theorem toGo_le_next {s t : Server} {a : Action}
    (hs : AllAt (fun _ h => toGo h.pc ≤ 11) s.handlers) (hnext : next s a = some t) :
    AllAt (fun _ h => toGo h.pc ≤ 11) t.handlers := by
  refine allAt_next hs hnext ?_ ?_
  · intro fd ok
    cases ok <;> exact Nat.le_of_ble_eq_true rfl
  · intro i ha hd sh' hd' _ _ hstep hle
    cases hstep with
    | data after bytes hpc hact =>
        have hlen : (stdioWrites bytes).length ≤ 2 := List.length_filter_le _ _
        show 6 + (stdioWrites bytes).length ≤ 11
        omega
    | write env fd piece pieces hpc hdev =>
        rw [hpc] at hle
        have hpieces : 6 + (pieces.length + 1) ≤ 11 := hle
        show 6 + List.length (if _ then [] else pieces) ≤ 11
        split
        · exact Nat.le_of_ble_eq_true rfl
        · omega
    | writeElsewhere ok fd piece pieces hpc hdev =>
        rw [hpc] at hle
        have hpieces : 6 + (pieces.length + 1) ≤ 11 := hle
        show 6 + List.length (if ok then pieces else []) ≤ 11
        split
        · omega
        · exact Nat.le_of_ble_eq_true rfl
    | pollNeither hpc => exact hle
    | _ => exact Nat.le_of_ble_eq_true rfl

theorem sum_map_le {κ : Type} {w : κ → Nat} {b : Nat} {ks : List κ}
    (h : ∀ k ∈ ks, w k ≤ b) : (ks.map w).sum ≤ b * ks.length := by
  have hsum := List.sum_le_card_nsmul (ks.map w) b (by
    intro x hx
    obtain ⟨k, hk, rfl⟩ := List.mem_map.mp hx
    exact h k hk)
  rw [List.length_map, smul_eq_mul, Nat.mul_comm] at hsum
  exact hsum

/-- The process has at most thirteen steps to go for every connection, and thirteen. -/
theorem remaining_le {s : Server} (hs : AllAt (fun _ h => toGo h.pc ≤ 11) s.handlers)
    (hcount : Counted s) : remaining s ≤ 13 * s.handlers.length + 13 := by
  have hsum : allToGo s.handlers ≤ 11 * s.handlers.length := by
    refine sum_map_le fun h hmem => ?_
    obtain ⟨i, hget⟩ := List.mem_iff_getElem?.mp hmem
    exact hs i h hget
  have hend : toEnd s.shared.clientThreads.length s.main ≤ 2 * s.handlers.length + 13 := by
    rw [Counted] at hcount
    rw [hcount]
    cases s.main with
    | cleanup stage =>
        show toEnd (s.handlers.length + 0) (.cleanup stage) ≤ _
        cases stage with
        | pipeWrite k =>
            show (s.handlers.length + 0 - k) + (s.handlers.length + 0) + 4 ≤ _
            omega
        | join k =>
            show s.handlers.length + 0 - k + 3 ≤ _
            omega
        | closeServer => exact Nat.le_add_left_of_le (Nat.le_of_ble_eq_true rfl)
        | exit => exact Nat.le_add_left_of_le (Nat.le_of_ble_eq_true rfl)
    | accept => exact Nat.le_refl _
    | create fd => exact Nat.le_succ _
    | start fd =>
        show 2 * (s.handlers.length + 1) + 9 ≤ _
        omega
    | loop =>
        show 2 * (s.handlers.length + 0) + 5 ≤ _
        omega
  have hle := remaining_le_live s
  omega

/-! ## Some step is possible -/

/-- **A HANDLER CAN MOVE**: a thread that has started and not ended, and is not in
    `send`, is blocked at most by an empty pipe or a taken mutex. -/
theorem handler_can_move {canJoin : Option Nat → Bool} {i : Nat} {sh : Shared} {h : Handler}
    (hstarted : h.pc ≠ .notStarted) (hdone : h.pc ≠ .done) (hcalm : h.pc.inCleanup = false)
    (hheld : Held sh i h) (hsend : ∀ fd, h.pc ≠ .send fd)
    (hpipe : inLoop h.pc = true → 0 < sh.pipe) (hmutex : h.pc = .lock → sh.fileMutex = none) :
    ∃ a, unblocked (.handler i a) = true ∧ (handlerStep canJoin i sh h a).isSome = true := by
  cases hpc : h.pc with
  | notStarted => exact absurd hpc hstarted
  | done => exact absurd hpc hdone
  | send fd => exact absurd hpc (hsend fd)
  | logAndExit why stage =>
      rw [hpc] at hcalm
      exact nomatch hcalm
  | poll =>
      have hpos := hpipe (by rw [hpc]; rfl)
      refine ⟨.poll true .pipe, rfl, ?_⟩
      simp only [handlerStep, hpc, if_pos hpos]
      rfl
  | pipeRead =>
      have hpos := hpipe (by rw [hpc]; rfl)
      refine ⟨.pipeRead, rfl, ?_⟩
      simp only [handlerStep, hpc, if_pos hpos]
      rfl
  | recv =>
      -- the peer closes the connection
      have hown := hheld.sock (by rw [hpc]; rfl)
      refine ⟨.recv true (some []), rfl, ?_⟩
      simp only [handlerStep, hpc, recvFrom_conn hown, Option.map_some]
      cases receive true h.bufferString (some (tag i [])) <;> rfl
  | lock =>
      refine ⟨.lock, rfl, ?_⟩
      simp only [handlerStep, hpc, if_pos (hmutex hpc)]
      rfl
  | command =>
      refine ⟨.command [], rfl, ?_⟩
      simp only [handlerStep, hpc]
      cases deviceAction [] h.bufferString <;> rfl
  | ioctl fd command =>
      have hdev := onDevice_file (hheld.file fd (by rw [hpc]; rfl))
      refine ⟨.ioctl true, rfl, ?_⟩
      simp only [handlerStep, hpc, if_pos hdev]
      split <;> rfl
  | write fd pieces =>
      cases pieces with
      | nil =>
          refine ⟨.reopen, rfl, ?_⟩
          simp only [handlerStep, hpc]
          rfl
      | cons piece pieces =>
          have hdev := onDevice_file (hheld.file fd (by rw [hpc]; rfl))
          refine ⟨.write WriteEnv.granted, rfl, ?_⟩
          simp only [handlerStep, hpc, if_pos hdev]
          rfl
  | readBack fd =>
      refine ⟨.fread .eof, rfl, ?_⟩
      simp only [handlerStep, hpc]
      rfl
  | unlock =>
      refine ⟨.unlock, rfl, ?_⟩
      simp only [handlerStep, hpc]
      rfl
  | leave =>
      refine ⟨.finish, rfl, ?_⟩
      simp only [handlerStep, hpc]
      rfl

/-- The invariant: what shutdown rests on. -/
structure Quiet (s : Server) : Prop where
  balanced : Balanced s
  table    : Table s
  holder   : HolderInside s
  locked   : Locked s
  held     : AllHeld s
  joinable : ∀ h ∈ s.handlers, h.pc.inCleanup = false
  short    : AllAt (fun _ h => toGo h.pc ≤ 11) s.handlers

theorem readSucceeds_of_noneExits {s t : Server} {a : Action} (hok : noneExits s a = true)
    (hnext : next s a = some t) : readSucceeds a = true := by
  have hcalm := calm_of_noneExits hok hnext
  rcases next_cases hnext with ⟨rfl, -⟩ | ⟨m, rfl, -⟩ | ⟨i, ha, hd, sh', hd', rfl, hget, hstep, rfl⟩
  · rfl
  · rfl
  · have hlt : i < s.handlers.length := (List.getElem?_eq_some_iff.mp hget).1
    have hout := hcalm hd' (List.mem_set hlt hd')
    cases hstep with
    | readFailed fd hpc => exact nomatch hout
    | _ => rfl

/-- The step lemma. -/
theorem Quiet.next {s t : Server} {a : Action} (hs : Quiet s) (hok : calm s a = true)
    (hnext : next s a = some t) : Quiet t := by
  obtain ⟨hboth, hcloses⟩ := Bool.and_eq_true_iff.mp hok
  obtain ⟨hcreates, hnone⟩ := Bool.and_eq_true_iff.mp hboth
  constructor
  · exact hs.balanced.next hnone hnext
  · exact hs.table.next hcreates hnext
  · exact hs.holder.next (readSucceeds_of_noneExits hnone hnext) hnext
  · exact hs.locked.next hnext
  · exact hs.held.next hcloses hnext
  · exact calm_of_noneExits hnone hnext
  · exact toGo_le_next hs.short hnext

theorem Quiet.of_starts {s : Server} (hs : Starts s) : Quiet s := by
  constructor
  · exact balanced_of_written_zero (.of_starts hs) (by rw [written, hs.main])
  · exact .of_starts hs
  · intro j hj
    cases hs.mutex.symm.trans hj
  · rw [Locked, hs.handlers]
    exact allAt_nil _
  · exact .of_starts hs
  · intro h hmem
    rw [hs.handlers] at hmem
    cases hmem
  · rw [hs.handlers]
    exact allAt_nil _

/-- There is a byte for a handler in its loop. -/
theorem pipe_pos {s : Server} (hs : Balanced s) (hall : AllWritten s) {i : Nat} {h : Handler}
    (hget : s.handlers[i]? = some h) (hin : inLoop h.pc = true) : 0 < s.shared.pipe := by
  obtain ⟨stage, hmain, hlast⟩ := hall
  have hwritten : written s = s.shared.clientThreads.length := by
    rw [written, hmain]
    cases stage with
    | pipeWrite k => exact hlast k rfl
    | _ => rfl
  have hpos : 0 < looping s := List.countP_pos_iff.mpr ⟨h, List.mem_of_getElem? hget, hin⟩
  have htokens := hs.tokens
  have hthreads : s.shared.clientThreads.length = s.handlers.length + 0 := by
    have hcount := hs.counted
    rw [Counted, hmain] at hcount
    exact hcount
  have hsum := looping_add_left_le s
  omega

/-- In `cleanupMain` the last byte stays the last. -/
theorem AllWritten.cleanup {s : Server} {stage : Cleanup} {sh' : Shared} {stage' : Option Cleanup}
    {canJoin : Option Nat → Bool} (hlast : ∀ k, stage = .pipeWrite k →
      k = s.shared.clientThreads.length)
    (hclean : cleanupStep canJoin s.shared stage = some (sh', stage')) :
    AllWritten { s with shared := sh', main := .cleanup (stage'.getD stage) } := by
  refine ⟨_, rfl, ?_⟩
  intro m hm
  cases stage with
  | pipeWrite k =>
      have hk : ¬ k < s.shared.clientThreads.length := by
        rw [hlast k rfl]
        exact Nat.lt_irrefl _
      simp only [cleanupStep, if_neg hk] at hclean
      cases hclean
      cases hm
  | join k =>
      simp only [cleanupStep] at hclean
      split at hclean
      · obtain ⟨-, heq⟩ := Option.ite_none_right_eq_some.mp hclean
        cases heq
        cases hm
      · cases hclean
        cases hm
  | closeServer =>
      cases hclean
      cases hm
  | exit =>
      cases hclean
      cases hm

/-- Nobody receives after the last byte, and there is no way back. -/
theorem received_step {s t : Server} {a : Action} (hs : Quiet s) (hall : AllWritten s)
    (hnext : next s a = some t) : AllWritten t ∧ received (work a) = 0 := by
  obtain ⟨stage, hpc, hlast⟩ := hall
  rcases next_cases hnext with ⟨rfl, rfl⟩ | ⟨m, rfl, hmain⟩ |
    ⟨i, ha, hd, sh', hd', rfl, hget, hstep, rfl⟩
  · exact ⟨⟨stage, hpc, hlast⟩, rfl⟩
  · obtain ⟨rfl, sh', stage', hclean, rfl⟩ := mainStep_at_cleanup hmain hpc
    exact ⟨AllWritten.cleanup hlast hclean, rfl⟩
  · refine ⟨⟨stage, hpc, ?_⟩, ?_⟩
    · show ∀ k, stage = .pipeWrite k → k = sh'.clientThreads.length
      rw [handlerStep_threads hstep]
      exact hlast
    · cases hstep with
      | pollSocket hpoll hempty =>
          -- `poll` shows the pipe first
          have hpos := pipe_pos hs.balanced ⟨stage, hpc, hlast⟩ hget (by rw [hpoll]; rfl)
          omega
      | _ => rfl

/-- A handler that can move moves the server. -/
theorem exists_handler_step {s : Server} (hlive : s.shared.exited = false) {i : Nat} {h : Handler}
    (hget : s.handlers[i]? = some h)
    (hmove : ∃ a, unblocked (.handler i a) = true ∧
      (handlerStep (canJoin s (some i)) i s.shared h a).isSome = true) :
    ∃ a t, unblocked a = true ∧ next s a = some t := by
  obtain ⟨a, hfree, hsome⟩ := hmove
  obtain ⟨⟨sh', h'⟩, hstep⟩ := Option.isSome_iff_exists.mp hsome
  exact ⟨_, _, hfree, next_handler hlive hget hstep⟩

/-- So does the main thread. -/
theorem exists_main_step {s : Server} (hlive : s.shared.exited = false) {m : MainAction}
    (hmove : (mainStep s m).isSome = true) : ∃ a t, unblocked a = true ∧ next s a = some t := by
  obtain ⟨t, hstep⟩ := Option.isSome_iff_exists.mp hmove
  refine ⟨.main m, t, rfl, ?_⟩
  simp only [next, hlive, Bool.false_eq_true, if_false, hstep]

/-- **THE HOLDER OF THE MUTEX** is in `send` or can move. -/
theorem exists_step_holder {s : Server} (hs : Quiet s) (hlive : s.shared.exited = false)
    (hall : AllWritten s) {j : Nat} (hmutex : s.shared.fileMutex = some j) :
    Sending s ∨ ∃ a t, unblocked a = true ∧ next s a = some t := by
  obtain ⟨holder, hget, hin⟩ := hs.holder j hmutex
  by_cases hsend : ∃ fd, holder.pc = .send fd
  · obtain ⟨fd, hpc⟩ := hsend
    exact Or.inl ⟨j, holder, fd, hmutex, hget, hpc⟩
  · have hne : ∀ pc, inside pc = false → holder.pc ≠ pc := by
      rintro pc hpc rfl
      cases hpc.symm.trans hin
    refine Or.inr (exists_handler_step hlive hget (handler_can_move (hne _ rfl) (hne _ rfl)
      (hs.joinable holder (List.mem_of_getElem? hget)) (hs.held.handlers j holder hget)
      (fun fd hpc => hsend ⟨fd, hpc⟩) ?_ ?_))
    · exact pipe_pos hs.balanced hall hget
    · exact fun hpc => absurd hpc (hne _ rfl)

/-- **A JOIN IS NEVER STUCK**: the handler has ended, or it can move, or the holder of
    the mutex it waits for can, or that one is in `send`. -/
theorem exists_step_join {s : Server} (hs : Quiet s) (hlive : s.shared.exited = false) {k : Nat}
    (hmain : s.main = .cleanup (.join k)) :
    Sending s ∨ ∃ a t, unblocked a = true ∧ next s a = some t := by
  have hall : AllWritten s := ⟨_, hmain, by rintro _ ⟨⟩⟩
  have hcount := hs.table.counted
  rw [Counted, hmain] at hcount
  by_cases hk : k < s.handlers.length
  · have hthread := hs.table.stored k hk
    have hget := List.getElem?_eq_getElem hk
    by_cases hdone : s.handlers[k].pc = .done
    · have hjoin : canJoin s none (some k) = true := by
        simp only [canJoin, hget, hdone]
        rfl
      refine Or.inr (@exists_main_step _ hlive .cleanup ?_)
      simp only [mainStep, hmain, cleanupStep, hthread, if_pos hjoin]
      rfl
    · cases hfree : s.shared.fileMutex with
      | none =>
          have hsend : ∀ fd, s.handlers[k].pc ≠ .send fd := by
            intro fd hpc
            have hmutex := hs.locked k _ hget (by rw [hpc]; rfl)
            cases hfree.symm.trans hmutex
          refine Or.inr (exists_handler_step hlive hget
            (handler_can_move (hs.table.started k _ hget) hdone
              (hs.joinable _ (List.getElem_mem hk)) (hs.held.handlers k _ hget) hsend ?_ ?_))
          · exact pipe_pos hs.balanced hall hget
          · exact fun _ => hfree
      | some j => exact exists_step_holder hs hlive hall hfree
  · have hnone : s.shared.clientThreads[k]? = none :=
      List.getElem?_eq_none (Nat.le_trans (Nat.le_of_eq hcount) (Nat.not_lt.mp hk))
    refine Or.inr (@exists_main_step _ hlive .cleanup ?_)
    simp only [mainStep, hmain, cleanupStep, hnone]
    rfl

/-- **SOME STEP IS POSSIBLE** before `exit`, unless the main thread waits for a connection
    or a signal, or the holder of the mutex for its client. -/
theorem exists_step {s : Server} (hs : Quiet s) (hlive : s.shared.exited = false)
    (haccept : s.main ≠ .accept) :
    Sending s ∨ ∃ a t, unblocked a = true ∧ next s a = some t := by
  cases hmain : s.main with
  | loop =>
      refine Or.inr (@exists_main_step _ hlive .checkStop ?_)
      simp only [mainStep, if_pos hmain]
      split
      · rfl
      · split <;> rfl
  | accept => exact absurd hmain haccept
  | create fd =>
      refine Or.inr (@exists_main_step _ hlive .count ?_)
      simp only [mainStep, hmain]
      rfl
  | start fd =>
      refine Or.inr (@exists_main_step _ hlive (.create true) ?_)
      simp only [mainStep, hmain]
      rfl
  | cleanup stage =>
      cases stage with
      | pipeWrite k =>
          refine Or.inr (@exists_main_step _ hlive .cleanup ?_)
          simp only [mainStep, hmain, cleanupStep]
          split <;> rfl
      | join k => exact exists_step_join hs hlive hmain
      | closeServer =>
          refine Or.inr (@exists_main_step _ hlive .cleanup ?_)
          simp only [mainStep, hmain]
          rfl
      | exit =>
          refine Or.inr (@exists_main_step _ hlive .cleanup ?_)
          simp only [mainStep, hmain]
          rfl

/-! ## From the signal to the end -/

theorem admits_run {ok : Server → Action → Prop} {s t : Server} (hstop : s.stop = true)
    (hrun : RunsTo next ok s t) :
    t.handlers.length + admits t.main ≤ s.handlers.length + admits s.main := by
  have hinv : t.stop = true ∧
      t.handlers.length + admits t.main ≤ s.handlers.length + admits s.main := by
    refine @RunsTo.invariant _ _ _ _ (fun v => v.stop = true ∧
      v.handlers.length + admits v.main ≤ s.handlers.length + admits s.main) ?_ _ _ hrun
      ⟨hstop, Nat.le_refl _⟩
    rintro u a v ⟨hset, hbound⟩ - hnext
    exact ⟨stop_step hset hnext, Nat.le_trans (admits_step hset hnext) hbound⟩
  exact hinv.2

theorem received_append (as bs : List Action) :
    received (as ++ bs) = received as + received bs := List.countP_append

theorem worth_append (as bs : List Action) : worth (as ++ bs) = worth as + worth bs := by
  simp only [worth, received, blocksRead, List.countP_append]
  omega

/-- **THE SIGNAL ENDS THE PROCESS**: in every run from the start of the process in which
    every handler is created with an index left, none calls `logAndExit` and no second
    close hits a number that was handed out again, from the moment `stop` is set
    - at most one more connection is accepted,
    - at most thirteen steps for every connection, and thirteen, and nine for every time
      a handler goes to `recv`, and two for every block of the device that is read back,
      are not waiting,
    - nobody goes to `recv` any more once the last byte is in the pipe, and
    - as long as the process has not ended, a step is possible that waits for nobody, or
      the main thread is in `accept`, or the holder of `fileMutex` is in `send`. -/
theorem signal_ends {s t u : Server} {os : List Action} (hs : Starts s)
    (hrun : RunsTo next (fun s a => calm s a = true) s t) (hstop : t.stop = true)
    (hrest : Emits next (fun s a => calm s a = true) (fun _ a => work a) t os u) :
    u.handlers.length ≤ t.handlers.length + 1 ∧
      os.length ≤ 13 * t.handlers.length + 13 + 9 * received os + 2 * blocksRead os ∧
      (AllWritten t → received os = 0) ∧
      (u.shared.exited = true ∨ u.main = .accept ∨ Sending u ∨
        ∃ a v, unblocked a = true ∧ next u a = some v) := by
  have hquiet : Quiet t :=
    hrun.invariant (fun s a t hinv hok hnext => hinv.next hok hnext) (Quiet.of_starts hs)
  have hpaid : ∀ (s : Server) (a : Action) (t : Server), s.stop = true → calm s a = true →
      next s a = some t → t.stop = true ∧
        (work a).length + remaining t ≤ remaining s + worth (work a) := by
    intro s a t hset hok hnext
    obtain ⟨hboth, -⟩ := Bool.and_eq_true_iff.mp hok
    exact ⟨stop_step hset hnext, remaining_step hset (Bool.and_eq_true_iff.mp hboth).2 hnext⟩
  obtain ⟨-, hlength⟩ :=
    @Emits.ranked _ _ _ _ _ _ _ _ worth rfl worth_append hpaid _ _ _ hrest hstop
  have hle := remaining_le hquiet.short hquiet.balanced.counted
  have hquiet' : Quiet u :=
    hrest.runsTo.invariant (fun s a t hinv hok hnext => hinv.next hok hnext) hquiet
  refine ⟨?_, ?_, ?_, ?_⟩
  · have hadmits : admits t.main ≤ 1 := by
      cases t.main <;> exact Nat.le_of_ble_eq_true rfl
    have hbound := admits_run hstop hrest.runsTo
    omega
  · rw [worth] at hlength
    omega
  · intro hall
    have hinv : Quiet u ∧ AllWritten u ∧ received os = 0 := by
      refine @Emits.invariant _ _ _ _ _ _ (fun os u => Quiet u ∧ AllWritten u ∧ received os = 0)
        ?_ _ _ _ hrest ⟨hquiet, hall, rfl⟩
      rintro os s a v ⟨hq, hwritten, hzero⟩ hok hnext
      obtain ⟨hwritten', hnone⟩ := received_step hq hwritten hnext
      refine ⟨hq.next hok hnext, hwritten', ?_⟩
      rw [received_append, hzero, hnone]
    exact hinv.2.2
  · by_cases hexit : u.shared.exited = true
    · exact Or.inl hexit
    · by_cases haccept : u.main = .accept
      · exact Or.inr (Or.inl haccept)
      · exact Or.inr (Or.inr (exists_step hquiet' (Bool.eq_false_iff.mpr hexit) haccept))

/-- Two clients have connected and the first has sent a line; while its handler is about
    to read the device back, the signal arrives in `accept`. -/
def signalled : List Action :=
  List.flatten [connect, connect, receives 0 [97, 10], writesLine 0,
    [.main .checkStop, .signal]]

/-- The second handler still receives before it is sent out. -/
def shutDown : List Action :=
  List.flatten [[.handler 1 (.poll true .socket), .main (.accept .interrupted)],
    List.replicate 3 (.main .cleanup), readsBack 0 1,
    [.handler 1 (.recv true (some [98])), .handler 1 (.poll true .pipe), .handler 1 .pipeRead,
      .handler 1 .finish, .handler 0 (.poll true .pipe), .handler 0 .pipeRead,
      .handler 0 .finish],
    List.replicate 5 (.main .cleanup)]

/-- Twenty-one of at most fifty steps end the process. -/
theorem signal_ends_twoClients :
    ∃ t u os, RunsTo next (fun s a => calm s a = true) (freshServer 5) t ∧ t.stop = true ∧
      Emits next (fun s a => calm s a = true) (fun _ a => work a) t os u ∧
      os = shutDown ∧ u.shared.exited = true ∧
      os.length ≤ 13 * 2 + 13 + 9 * received os + 2 * blocksRead os := by
  obtain ⟨t, hrun, hseen⟩ := @exists_runsTo _ _ next calm (freshServer 5) signalled _
    (fun t => (t.stop, t.handlers.length,
      (checkedEmits next calm (fun _ a => work a) [] t shutDown).map
        fun r => (r.1, r.2.shared.exited)))
    (true, 2, some (shutDown, true)) (by decide +kernel)
  simp only [Prod.mk.injEq] at hseen
  obtain ⟨hstop, hcount, hrest⟩ := hseen
  obtain ⟨os, u, hemits, hend⟩ := exists_emits hrest
  obtain ⟨hos, hexit⟩ := Prod.mk.inj hend
  have hlength := (signal_ends (starts_freshServer 5) hrun hstop hemits).2.1
  rw [hcount] at hlength
  exact ⟨t, u, os, hrun, hstop, hemits, hos, hexit, hlength⟩

end AesdTermination
