import Aesd.ThreadTableProofs

/-! # Shutdown and the pipe

    `cleanupMain` writes one byte into `pipeClientHandler` for every handle and then
    joins them.  All handlers poll the same pipe, so which of them reads which byte
    is open, and a handler may leave its loop without reading any; but none reads a
    byte without leaving.

    A step that takes a byte out of the pipe takes a handler out of its loop
    (`handlerStep_tokens`).  So the bytes written so far never exceed the bytes
    unread plus the handlers that have left (`Balanced`), and once there is a byte
    for every handler, there is one left for every handler still in its loop.

    `Joined` is the other half: as long as the main thread is the only one that joins,
    the handlers whose handles it has passed have ended, and the process ends only with
    the main thread. -/

namespace AesdShutdown

open AesdTemperary AesdClient AesdServer AesdThreadTable Transition

/-- The thread runs and has not left the loop of `clientHandler`. -/
def inLoop : Pc → Bool
  | .notStarted | .leave | .done | .logAndExit _ _ => false
  | _ => true

/-- The thread has left the loop. -/
def hasLeft : Pc → Bool
  | .leave | .done => true
  | _ => false

/-- The handlers that have left. -/
def left (s : Server) : Nat := s.handlers.countP fun h => hasLeft h.pc

/-- The handlers still in their loop. -/
def looping (s : Server) : Nat := s.handlers.countP fun h => inLoop h.pc

/-- No handler is in `logAndExit` after the step. -/
def noneExits (s : Server) (a : Action) : Bool :=
  match next s a with
  | some t => t.handlers.all fun h => !h.pc.inCleanup
  | none => true

/-- The bytes that the main thread has written. -/
def written (s : Server) : Nat :=
  match s.main with
  | .cleanup (.pipeWrite k) => k
  | .cleanup _ => s.shared.clientThreads.length
  | _ => 0

/-- The main thread has written the last byte. -/
def AllWritten (s : Server) : Prop :=
  ∃ stage, s.main = .cleanup stage ∧
    ∀ k, stage = .pipeWrite k → k = s.shared.clientThreads.length

/-! ## One step -/

/-- **A BYTE FOR A HANDLER**: outside `logAndExit`, a step of a handler lowers the
    number of unread bytes only by leaving the loop, and nobody comes back. -/
theorem handlerStep_tokens {canJoin : Option Nat → Bool} {i : Nat} {sh sh' : Shared}
    {h h' : Handler} {a : HandlerAction} (hstep : HandlerStep canJoin i sh h a sh' h')
    (hcalm : h'.pc.inCleanup = false) :
    sh.pipe + (if hasLeft h.pc = true then 1 else 0)
      ≤ sh'.pipe + (if hasLeft h'.pc = true then 1 else 0) := by
  cases hstep with
  | pipeRead hpc hpipe =>
      rw [hpc]
      show sh.pipe + 0 ≤ sh.pipe - 1 + 1
      omega
  | finish hpc =>
      rw [hpc]
      show sh.pipe + 1 ≤ (if 0 < h.newSockFd then closeFd sh i h.newSockFd else sh).pipe + 1
      split <;> exact Nat.le_refl _
  | cleanup why stage sh' stage' hpc hclean => exact nomatch hcalm
  | pollNeither hpc => exact Nat.le_refl _
  | _ => simp_all [hasLeft, Handler.exit, seekExit, closeFd, fopen]

/-- The invariant: what was written is unread or has sent a handler out. -/
structure Balanced (s : Server) : Prop where
  counted : Counted s
  bound   : written s ≤ s.shared.clientThreads.length
  tokens  : written s ≤ s.shared.pipe + left s

/-- A thread outside `cleanupMain` has written nothing. -/
theorem balanced_of_written_zero {s : Server}
    (hcount : Counted s) (hzero : written s = 0) : Balanced s := by
  refine ⟨hcount, ?_, ?_⟩
  · rw [hzero]
    exact Nat.zero_le _
  · rw [hzero]
    exact Nat.zero_le _

/-- The main thread writes its bytes and then joins. -/
theorem Balanced.cleanup {s : Server} {stage : Cleanup} {sh' : Shared} {stage' : Option Cleanup}
    {canJoin : Option Nat → Bool} (hs : Balanced s) (hpc : s.main = .cleanup stage)
    (hclean : cleanupStep canJoin s.shared stage = some (sh', stage'))
    (hcount : Counted { s with shared := sh', main := .cleanup (stage'.getD stage) }) :
    Balanced { s with shared := sh', main := .cleanup (stage'.getD stage) } := by
  obtain ⟨-, hbound, htokens⟩ := hs
  cases stage with
  | pipeWrite k =>
      have hk : written s = k := by rw [written, hpc]
      rw [hk] at hbound htokens
      simp only [cleanupStep] at hclean
      split at hclean
      · next hlt =>
          cases hclean
          refine ⟨hcount, hlt, ?_⟩
          show k + 1 ≤ s.shared.pipe + 1 + left s
          omega
      · next hge =>
          cases hclean
          -- the loop ends at the number of handles
          refine ⟨hcount, Nat.le_refl _, ?_⟩
          show s.shared.clientThreads.length ≤ s.shared.pipe + left s
          omega
  | join k =>
      have hk : written s = s.shared.clientThreads.length := by rw [written, hpc]
      rw [hk] at hbound htokens
      simp only [cleanupStep] at hclean
      split at hclean
      · obtain ⟨-, heq⟩ := Option.ite_none_right_eq_some.mp hclean
        cases heq
        exact ⟨hcount, Nat.le_refl _, htokens⟩
      · cases hclean
        exact ⟨hcount, Nat.le_refl _, htokens⟩
  | closeServer =>
      have hk : written s = s.shared.clientThreads.length := by rw [written, hpc]
      rw [hk] at hbound htokens
      cases hclean
      exact ⟨hcount, Nat.le_refl _, htokens⟩
  | exit =>
      have hk : written s = s.shared.clientThreads.length := by rw [written, hpc]
      rw [hk] at hbound htokens
      cases hclean
      exact ⟨hcount, Nat.le_refl _, htokens⟩

/-- A handler moves: the byte it may have taken is outweighed by its leaving. -/
theorem Balanced.handler {s : Server} {i : Nat} {a : HandlerAction} {hd hd' : Handler}
    {sh' : Shared} {canJoin : Option Nat → Bool} (hs : Balanced s)
    (hget : s.handlers[i]? = some hd) (hstep : HandlerStep canJoin i s.shared hd a sh' hd')
    (hcalm : hd'.pc.inCleanup = false)
    (hcount : Counted { s with shared := sh', handlers := s.handlers.set i hd' }) :
    Balanced { s with shared := sh', handlers := s.handlers.set i hd' } := by
  have hthreads := handlerStep_threads hstep
  have htoken := handlerStep_tokens hstep hcalm
  have hleft := @countP_set_add _ (fun h => hasLeft h.pc) _ _ _ hget hd'
  have hwritten : written { s with shared := sh', handlers := s.handlers.set i hd' }
      = written s := by
    rw [written, written]
    show (match s.main with
      | .cleanup (.pipeWrite k) => k
      | .cleanup _ => sh'.clientThreads.length
      | _ => 0) = _
    rw [hthreads]
  have htokens := hs.tokens
  refine ⟨hcount, ?_, ?_⟩
  · rw [hwritten]
    show written s ≤ sh'.clientThreads.length
    rw [hthreads]
    exact hs.bound
  · rw [hwritten]
    show written s ≤ sh'.pipe + (s.handlers.set i hd').countP fun h => hasLeft h.pc
    rw [left] at htokens
    omega

/-- After a step that no handler exits in, none is in `logAndExit`. -/
theorem calm_of_noneExits {s t : Server} {a : Action} (hok : noneExits s a = true)
    (hnext : next s a = some t) : ∀ h ∈ t.handlers, h.pc.inCleanup = false := by
  rw [noneExits, hnext] at hok
  intro h hmem
  have hnot := List.all_eq_true.mp hok h hmem
  rw [Bool.not_eq_true'] at hnot
  exact hnot

/-- The step lemma. -/
theorem Balanced.next {s t : Server} {a : Action} (hs : Balanced s)
    (hok : noneExits s a = true) (hnext : next s a = some t) : Balanced t := by
  have hcalm := calm_of_noneExits hok hnext
  have hcount := hs.counted.next hnext
  rcases next_cases hnext with ⟨-, rfl⟩ | ⟨m, rfl, hmain⟩ |
    ⟨i, ha, hd, sh', hd', rfl, hget, hstep, rfl⟩
  · exact ⟨hs.counted, hs.bound, hs.tokens⟩
  · cases hmain with
    | cleanup stage sh' stage' hpc hclean => exact hs.cleanup hpc hclean hcount
    | _ => exact balanced_of_written_zero hcount rfl
  · have hlt : i < s.handlers.length := (List.getElem?_eq_some_iff.mp hget).1
    exact hs.handler hget hstep (hcalm hd' (List.mem_set hlt hd')) hcount

/-! ## After the last byte -/

/-- A handler is in its loop, or has left it, or neither. -/
theorem looping_add_left_le (s : Server) : looping s + left s ≤ s.handlers.length := by
  have hsplit := List.length_eq_countP_add_countP (fun h : Handler => hasLeft h.pc)
    (l := s.handlers)
  have hle : looping s ≤ s.handlers.countP fun h => decide ¬ hasLeft h.pc = true := by
    refine List.countP_mono_left fun h _ hin => ?_
    cases hpc : h.pc <;> simp_all [inLoop, hasLeft]
  rw [left]
  omega

/-- **NOBODY IS STRANDED**: in every run from the start of the process in which no
    handler calls `logAndExit`, once the main thread has written its last byte there
    is an unread byte for every handler still in its loop; so the main thread never
    waits in `pthread_join` for a handler in its loop with an empty pipe. -/
theorem shutdown_strands_nobody {s t : Server} (hs : Starts s)
    (hrun : RunsTo next (fun s a => noneExits s a = true) s t) (hall : AllWritten t) :
    looping t ≤ t.shared.pipe ∧
      ∀ k j h, t.main = .cleanup (.join k) → t.shared.clientThreads[k]? = some (some j) →
        t.handlers[j]? = some h → inLoop h.pc = true → 0 < t.shared.pipe := by
  have hstart : Balanced s :=
    balanced_of_written_zero (Counted.of_starts hs) (by rw [written, hs.main])
  have hinv : Balanced t :=
    hrun.invariant (fun s a t hinv hok hnext => hinv.next hok hnext) hstart
  obtain ⟨stage, hstage, hlast⟩ := hall
  have hwritten : written t = t.shared.clientThreads.length := by
    rw [written, hstage]
    cases stage with
    | pipeWrite k => exact hlast k rfl
    | _ => rfl
  have htokens := hinv.tokens
  have hthreads := hinv.counted
  rw [Counted, hstage] at hthreads
  have hnone : (if starting (.cleanup stage) = true then 1 else 0) = 0 := rfl
  have hsum := looping_add_left_le t
  have hmain : looping t ≤ t.shared.pipe := by omega
  refine ⟨hmain, ?_⟩
  intro k j h _ _ hget hin
  have hpos : 0 < looping t :=
    List.countP_pos_iff.mpr ⟨h, List.mem_of_getElem? hget, hin⟩
  omega

/-- Two clients connect and the signal arrives; both handlers see the first byte,
    and the second one reads it. -/
def twoClients : List Action :=
  List.flatten [connect, connect, [.signal, .main .checkStop, .main .cleanup,
    .handler 0 (.poll true .pipe), .handler 1 (.poll true .pipe), .handler 1 .pipeRead,
    .main .cleanup, .main .cleanup]]

/-- The main thread waits for the first handler, for which the second byte is left. -/
theorem shutdown_strands_nobody_twoClients :
    ∃ t, RunsTo next (fun s a => noneExits s a = true) (freshServer 5) t ∧
      t.main = .cleanup (.join 0) ∧ t.handlers.map Handler.pc = [.pipeRead, .leave] ∧
      looping t ≤ t.shared.pipe := by
  obtain ⟨t, hrun, hseen⟩ := @exists_runsTo _ _ next noneExits (freshServer 5) twoClients _
    (fun t => (t.main, t.handlers.map Handler.pc)) (.cleanup (.join 0), [.pipeRead, .leave])
    (by decide +kernel)
  obtain ⟨hmain, hpcs⟩ := Prod.mk.inj hseen
  exact ⟨t, hrun, hmain, hpcs,
    (shutdown_strands_nobody (starts_freshServer 5) hrun ⟨_, hmain, fun _ heq => nomatch heq⟩).1⟩

/-! ## Who has been joined -/

/-- The handles that the main thread has joined. -/
def joined (s : Server) : Nat :=
  match s.main with
  | .cleanup (.pipeWrite _) => 0
  | .cleanup (.join k) => k
  | .cleanup _ => s.shared.clientThreads.length
  | _ => 0

/-- Nobody is in `logAndExit`, the handlers whose handles were joined have ended, and the
    process ends with the main thread. -/
structure Joined (s : Server) : Prop where
  calm  : ∀ h ∈ s.handlers, h.pc.inCleanup = false
  ended : ∀ k j h, k < joined s → s.shared.clientThreads[k]? = some (some j) →
    s.handlers[j]? = some h → h.pc = .done
  last  : s.shared.exited = true → s.main = .cleanup .exit

/-- `pthread_join` waits for the end of the thread, as long as the main thread is the
    only one that joins. -/
theorem done_of_canJoin {s : Server} (hcalm : ∀ h ∈ s.handlers, h.pc.inCleanup = false)
    {j : Nat} {h : Handler} (hget : s.handlers[j]? = some h)
    (hjoin : canJoin s none (some j) = true) : h.pc = .done := by
  have hnobody : otherInCleanup s none = false := by
    rw [← Bool.not_eq_true]
    intro hother
    obtain ⟨⟨h', i⟩, hmem, hin⟩ := List.any_eq_true.mp hother
    have hout := hcalm h' (List.fst_mem_of_mem_zipIdx hmem)
    rw [hout] at hin
    exact nomatch hin
  simp only [canJoin, hget, hnobody, Bool.or_false] at hjoin
  rcases Bool.or_eq_true_iff.mp hjoin with hdone | hself
  · exact beq_iff_eq.mp hdone
  · exact nomatch hself

/-- A thread that has ended takes no step. -/
theorem handlerStep_not_done {canJoin : Option Nat → Bool} {i : Nat} {sh sh' : Shared}
    {h h' : Handler} {a : HandlerAction} (hstep : HandlerStep canJoin i sh h a sh' h') :
    h.pc ≠ .done := by
  intro hdone
  cases hstep with
  | _ =>
      have hpc := ‹h.pc = _›
      cases hpc.symm.trans hdone

/-- The main thread joins one handle after another. -/
theorem Joined.cleanup {s : Server} {stage : Cleanup} {sh' : Shared} {stage' : Option Cleanup}
    (hs : Joined s) (hpc : s.main = .cleanup stage)
    (hclean : cleanupStep (canJoin s none) s.shared stage = some (sh', stage')) :
    ∀ k j h, k < joined { s with shared := sh', main := .cleanup (stage'.getD stage) } →
      sh'.clientThreads[k]? = some (some j) → s.handlers[j]? = some h → h.pc = .done := by
  intro k j h hk hthread hget
  have hold : k < joined s → h.pc = .done := by
    rw [(cleanupStep_frame hclean).threads] at hthread
    exact fun hlt => hs.ended k j h hlt hthread hget
  cases stage with
  | pipeWrite m =>
      simp only [cleanupStep] at hclean
      split at hclean <;> cases hclean <;> exact absurd hk (Nat.not_lt_zero k)
  | join m =>
      have hm : joined s = m := by rw [joined, hpc]
      rw [hm] at hold
      simp only [cleanupStep] at hclean
      split at hclean
      · next thread hentry =>
          obtain ⟨hjoin, heq⟩ := Option.ite_none_right_eq_some.mp hclean
          cases heq
          by_cases hlt : k < m
          · exact hold hlt
          · -- this is the handle just joined
            have hkm : k = m := Nat.le_antisymm (Nat.le_of_lt_succ hk) (Nat.not_lt.mp hlt)
            rw [hkm, hentry] at hthread
            rw [Option.some.inj hthread] at hjoin
            exact done_of_canJoin hs.calm hget hjoin
      · next hnone =>
          cases hclean
          exact hold (Nat.lt_of_lt_of_le hk (List.getElem?_eq_none_iff.mp hnone))
  | closeServer =>
      have hm : joined s = s.shared.clientThreads.length := by rw [joined, hpc]
      cases hclean
      exact hold (hm ▸ hk)
  | exit =>
      have hm : joined s = s.shared.clientThreads.length := by rw [joined, hpc]
      cases hclean
      exact hold (hm ▸ hk)

/-- It ends the process where it is at `exit`. -/
theorem cleanupStep_exited {canJoin : Option Nat → Bool} {sh sh' : Shared} {stage : Cleanup}
    {stage' : Option Cleanup} (hclean : cleanupStep canJoin sh stage = some (sh', stage'))
    (hlive : sh.exited = false) : sh'.exited = true → stage'.getD stage = .exit := by
  intro hexited
  cases stage with
  | pipeWrite k =>
      simp only [cleanupStep] at hclean
      split at hclean <;> cases hclean <;> cases hlive.symm.trans hexited
  | join k =>
      simp only [cleanupStep] at hclean
      split at hclean
      · obtain ⟨-, heq⟩ := Option.ite_none_right_eq_some.mp hclean
        cases heq
        cases hlive.symm.trans hexited
      · cases hclean
        cases hlive.symm.trans hexited
  | closeServer =>
      cases hclean
      rfl
  | exit =>
      cases hclean
      rfl

/-- Nobody else does. -/
theorem handlerStep_exited {canJoin : Option Nat → Bool} {i : Nat} {sh sh' : Shared}
    {h h' : Handler} {a : HandlerAction} (hstep : HandlerStep canJoin i sh h a sh' h')
    (hcalm : h'.pc.inCleanup = false) : sh'.exited = sh.exited := by
  cases hstep with
  | finish hpc => split <;> rfl
  | cleanup why stage sh' stage' hpc hclean => exact nomatch hcalm
  | _ => rfl

theorem mainStep_exited {s t : Server} {m : MainAction} (hmain : MainStep s m t)
    (hlive : s.shared.exited = false) : t.shared.exited = true → t.main = .cleanup .exit := by
  intro hexited
  cases hmain with
  | accepted hpc =>
      cases ((accepted_frame s.shared _).exited.trans hlive).symm.trans hexited
  | notListening hpc hgo hclosed => cases ((logged_frame _).exited.trans hlive).symm.trans hexited
  | acceptFailed result hpc hne => cases ((logged_frame _).exited.trans hlive).symm.trans hexited
  | cleanup stage sh' stage' hpc hclean =>
      exact congrArg MainPc.cleanup (cleanupStep_exited hclean hlive hexited)
  | _ => cases hlive.symm.trans hexited

/-- The step lemma. -/
theorem Joined.next {s t : Server} {a : Action} (hs : Joined s) (hok : noneExits s a = true)
    (hnext : next s a = some t) : Joined t := by
  have hcalm := calm_of_noneExits hok hnext
  have hlive := live_of_next hnext
  rcases next_cases hnext with ⟨-, rfl⟩ | ⟨m, rfl, hmain⟩ |
    ⟨i, ha, hd, sh', hd', rfl, hget, hstep, rfl⟩
  · exact ⟨hs.calm, hs.ended, hs.last⟩
  · refine ⟨hcalm, ?_, mainStep_exited hmain hlive⟩
    cases hmain with
    | cleanup stage sh' stage' hpc hclean => exact hs.cleanup hpc hclean
    | _ => exact fun k _ _ hk => absurd hk (Nat.not_lt_zero k)
  · have hlt : i < s.handlers.length := (List.getElem?_eq_some_iff.mp hget).1
    have hsame := handlerStep_exited hstep (hcalm hd' (List.mem_set hlt hd'))
    refine ⟨hcalm, ?_, fun hexited => hs.last (hsame ▸ hexited)⟩
    intro k j h hk hthread hget'
    have hthread' : s.shared.clientThreads[k]? = some (some j) :=
      handlerStep_threads hstep ▸ hthread
    have hk' : k < joined s := by
      have hjoined : joined { s with shared := sh', handlers := s.handlers.set i hd' }
          = joined s := by
        rw [joined, joined]
        show (match s.main with
          | .cleanup (.pipeWrite _) => 0
          | .cleanup (.join k) => k
          | .cleanup _ => sh'.clientThreads.length
          | _ => 0) = _
        rw [handlerStep_threads hstep]
      exact hjoined ▸ hk
    by_cases hji : j = i
    · -- the handler that moves has not ended
      exact absurd (hs.ended k j hd hk' hthread' (hji ▸ hget)) (handlerStep_not_done hstep)
    · have hkeep : (s.handlers.set i hd')[j]? = s.handlers[j]? :=
        List.getElem?_set_ne (fun heq => hji heq.symm)
      exact hs.ended k j h hk' hthread' (hkeep ▸ hget')

theorem Joined.of_starts {s : Server} (hs : Starts s) : Joined s := by
  constructor
  · intro h hmem
    rw [hs.handlers] at hmem
    exact nomatch hmem
  · intro k j h hk
    rw [joined, hs.main] at hk
    exact absurd hk (Nat.not_lt_zero k)
  · intro hexited
    exact nomatch hs.live.symm.trans hexited

end AesdShutdown
