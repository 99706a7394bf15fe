import Aesd.ServerProofs

/-! # Who holds `fileMutex`

    `cleanupMain` joins every handler, so a thread that enters it while it holds
    `fileMutex` waits for handlers that wait for it.  The branch for a refused
    seek releases the mutex before `logAndExit`; the two branches for a failed
    `fread` do not.

    `mutex_cases` says what a step does to the mutex: nothing, lock,
    unlock, or leave the critical section without unlocking.  Without the fourth
    the holder is always inside the critical section. -/

namespace AesdLock

open AesdDriver AesdClient AesdServer Transition

/-- The places between `pthread_mutex_lock` and `pthread_mutex_unlock`. -/
def inside : Pc → Bool
  | .command | .ioctl _ _ | .write _ _ | .readBack _ | .send _ | .unlock => true
  | _ => false

/-- **WHAT A STEP DOES TO THE MUTEX.** -/
theorem mutex_cases {canJoin : Option Nat → Bool} {i : Nat} {sh sh' : Shared}
    {h h' : Handler} {a : HandlerAction} (hstep : HandlerStep canJoin i sh h a sh' h') :
    (sh'.fileMutex = sh.fileMutex ∧ inside h'.pc = inside h.pc) ∨
    (sh.fileMutex = none ∧ sh'.fileMutex = some i ∧ inside h'.pc = true) ∨
    (inside h.pc = true ∧ sh'.fileMutex = none ∧ inside h'.pc = false) ∨
    (a = .fread .failed ∧ inside h.pc = true ∧ sh'.fileMutex = sh.fileMutex) := by
  cases hstep with
  | lock hpc hfree => exact Or.inr (Or.inl ⟨hfree, rfl, rfl⟩)
  | seekFailed _ _ _ hpc _ _ => exact Or.inr (Or.inr (Or.inl ⟨by rw [hpc]; rfl, rfl, rfl⟩))
  | seekElsewhere _ _ hpc _ => exact Or.inr (Or.inr (Or.inl ⟨by rw [hpc]; rfl, rfl, rfl⟩))
  | unlock hpc => exact Or.inr (Or.inr (Or.inl ⟨by rw [hpc]; rfl, rfl, rfl⟩))
  | readFailed _ hpc => exact Or.inr (Or.inr (Or.inr ⟨rfl, by rw [hpc]; rfl, rfl⟩))
  | pollNeither hpc => exact Or.inl ⟨rfl, rfl⟩
  | readMore _ hpc => exact Or.inl ⟨rfl, by rw [hpc]; rfl⟩
  | finish hpc =>
      refine Or.inl ⟨?_, by rw [hpc]; rfl⟩
      split <;> rfl
  | cleanup why stage sh' stage' hpc hclean =>
      exact Or.inl ⟨(cleanupStep_frame hclean).mutex, by rw [hpc]; rfl⟩
  | _ => exact Or.inl ⟨rfl, by simp_all [inside, Handler.exit]⟩

/-- **WHAT A STEP DOES TO THE DEVICE**: nothing, or one `write` call of the thread that
    is at it. -/
theorem dev_cases {canJoin : Option Nat → Bool} {i : Nat} {sh sh' : Shared} {h h' : Handler}
    {a : HandlerAction} (hstep : HandlerStep canJoin i sh h a sh' h') :
    sh'.dev = sh.dev ∨ ∃ env fd piece pieces, h.pc = .write fd (piece :: pieces) ∧
      sh'.dev = (aesdWrite env sh.dev piece).1 := by
  cases hstep with
  | write env fd piece pieces hpc _ => exact Or.inr ⟨env, fd, piece, pieces, hpc, rfl⟩
  | finish hpc =>
      refine Or.inl ?_
      split <;> rfl
  | cleanup _ _ _ _ _ hclean => exact Or.inl (cleanupStep_frame hclean).dev
  | _ => exact Or.inl rfl

/-! ## Inside the critical section -/

section Inside

variable {canJoin : Option Nat → Bool} {i j : Nat} {sh sh' : Shared} {h h' : Handler}
  {a : HandlerAction}

/-- Another thread holds the mutex after a step exactly when it did before. -/
theorem mutex_other_iff (hji : j ≠ i) (hlocked : inside h.pc = true → sh.fileMutex = some i)
    (hstep : HandlerStep canJoin i sh h a sh' h') :
    sh'.fileMutex = some j ↔ sh.fileMutex = some j := by
  have hne : ∀ o : Option Nat, o = some i → o ≠ some j := by
    rintro o rfl heq
    exact hji (Option.some.inj heq).symm
  rcases mutex_cases hstep with ⟨hm, -⟩ | ⟨hfree, hm, -⟩ | ⟨hin, hm, -⟩ | ⟨-, -, hm⟩
  · rw [hm]
  · rw [hfree]
    exact ⟨fun heq => absurd heq (hne _ hm), fun heq => nomatch heq⟩
  · rw [hm]
    exact ⟨(fun heq => nomatch heq), fun heq => absurd heq (hne _ (hlocked hin))⟩
  · rw [hm]

/-- The thread itself is inside only with the mutex. -/
theorem locked_step (hlocked : inside h.pc = true → sh.fileMutex = some i)
    (hstep : HandlerStep canJoin i sh h a sh' h') :
    inside h'.pc = true → sh'.fileMutex = some i := by
  intro hin'
  rcases mutex_cases hstep with ⟨hm, hin⟩ | ⟨-, hm, -⟩ | ⟨-, -, hout⟩ | ⟨-, hin, hm⟩
  · rw [hm]
    exact hlocked (hin.symm.trans hin')
  · exact hm
  · exact nomatch hout.symm.trans hin'
  · rw [hm]
    exact hlocked hin

end Inside

/-- Every handler in its critical section holds the mutex. -/
def Locked (s : Server) : Prop :=
  AllAt (fun i h => inside h.pc = true → s.shared.fileMutex = some i) s.handlers

/-- The step lemma. -/
theorem Locked.next {s t : Server} {a : Action} (hs : Locked s) (hnext : next s a = some t) :
    Locked t := by
  rcases next_cases hnext with ⟨-, rfl⟩ | ⟨m, rfl, hmain⟩ |
    ⟨i, ha, hd, sh', hd', rfl, hget, hstep, rfl⟩
  · exact hs
  · have hold : AllAt (fun i h => inside h.pc = true → t.shared.fileMutex = some i)
        s.handlers := by
      rw [(mainStep_frame hmain).1]
      exact hs
    cases hmain with
    | created fd ok hpc =>
        refine hold.append ?_ fun _ _ _ _ hk => hk
        cases ok <;> rintro ⟨⟩
    | _ => exact hold
  · have hi := hs i hd hget
    refine hs.set (locked_step hi hstep) ?_
    intro j k hji _ hk hin
    exact (mutex_other_iff hji hi hstep).mpr (hk hin)

/-- **MUTUAL EXCLUSION**, in every run from the start of the process. -/
theorem locked_run {s t : Server} (hs : Starts s) (hrun : RunsTo next (fun _ _ => True) s t) :
    Locked t := by
  refine hrun.invariant (fun s a t hinv _ hnext => hinv.next hnext) ?_
  rw [Locked, hs.handlers]
  exact allAt_nil _

/-- The holder of the mutex is a handler in its critical section. -/
def HolderInside (s : Server) : Prop :=
  ∀ i, s.shared.fileMutex = some i → ∃ h, s.handlers[i]? = some h ∧ inside h.pc = true

/-- The step is not a failed `fread`. -/
def readSucceeds : Action → Bool
  | .handler _ (.fread .failed) => false
  | _ => true

/-- The step lemma. -/
theorem HolderInside.next {s t : Server} {a : Action} (hs : HolderInside s)
    (hread : readSucceeds a = true) (hnext : next s a = some t) : HolderInside t := by
  rcases next_cases hnext with ⟨-, rfl⟩ | ⟨m, rfl, hmain⟩ |
    ⟨i, ha, hd, sh', hd', rfl, hget, hstep, rfl⟩
  · exact hs
  · obtain ⟨hmutex, -, more, hmore⟩ := mainStep_frame hmain
    intro i hi
    rw [hmutex] at hi
    obtain ⟨h, hget, hin⟩ := hs i hi
    refine ⟨h, ?_, hin⟩
    rw [hmore, List.getElem?_append_left (List.getElem?_eq_some_iff.mp hget).1]
    exact hget
  · have hlt : i < s.handlers.length := (List.getElem?_eq_some_iff.mp hget).1
    have hself : (s.handlers.set i hd')[i]? = some hd' := List.getElem?_set_self hlt
    rcases mutex_cases hstep with ⟨hmutex, hin⟩ | ⟨-, hmutex, hin⟩ | ⟨-, hmutex, -⟩ | ⟨rfl, -, -⟩
    · -- the mutex keeps its holder, who is this thread or another one
      intro k hk
      obtain ⟨h, hgetk, hink⟩ := hs k (hmutex ▸ hk)
      by_cases hki : k = i
      · subst hki
        rw [hget] at hgetk
        cases hgetk
        exact ⟨hd', hself, hin.trans hink⟩
      · refine ⟨h, ?_, hink⟩
        rw [← hgetk]
        exact List.getElem?_set_ne (fun h => hki h.symm)
    · intro k hk
      rw [show k = i from Option.some.inj (hk.symm.trans hmutex)]
      exact ⟨hd', hself, hin⟩
    · intro k hk
      exact nomatch hk.symm.trans hmutex
    · exact nomatch hread

/-- **NO JOINER HOLDS THE MUTEX**: in every run without a failed `fread`, from the
    start of the process, no thread in the join loop of `cleanupMain` holds
    `fileMutex`, so none waits for a handler that waits for it.  (The main thread
    joins too, but never locks.) -/
theorem joiner_does_not_hold_fileMutex {s t : Server} (hs : Starts s)
    (hrun : RunsTo next (fun _ a => readSucceeds a = true) s t) :
    ∀ i h why k, t.handlers[i]? = some h → h.pc = .logAndExit why (.join k) →
      t.shared.fileMutex ≠ some i ∧
        ¬ ∃ j hj, t.shared.clientThreads[k]? = some (some j) ∧ t.handlers[j]? = some hj ∧
          hj.pc = .lock ∧ t.shared.fileMutex = some i := by
  have hstart : HolderInside s := by
    intro j hj
    exact nomatch hs.mutex.symm.trans hj
  have hinv : HolderInside t :=
    hrun.invariant (fun s a t hinv hread hnext => hinv.next hread hnext) hstart
  intro i h why k hget hpc
  have hfree : t.shared.fileMutex ≠ some i := by
    intro hheld
    obtain ⟨h', hget', hin⟩ := hinv i hheld
    rw [hget] at hget'
    cases hget'
    rw [hpc] at hin
    exact nomatch hin
  exact ⟨hfree, fun ⟨_, _, _, _, _, hheld⟩ => hfree hheld⟩

/-- A client asks for byte 0 of line 0 of an empty device; the refused seek takes
    the handler into the join loop. -/
def refusedSeek : List Action :=
  List.flatten [connect, receives 0 seekLine, seeks 0, [.handler 0 .cleanup, .handler 0 .cleanup]]

/-- The mutex was released before. -/
theorem joiner_does_not_hold_fileMutex_refusedSeek :
    ∃ t, RunsTo next (fun _ a => readSucceeds a = true) (freshServer 5) t ∧
      t.handlers.map Handler.pc = [.logAndExit .seekFailed (.join 0)] ∧
      t.shared.fileMutex ≠ some 0 := by
  obtain ⟨t, hrun, hpcs⟩ := @exists_runsTo _ _ next (fun _ a => readSucceeds a) (freshServer 5)
    refusedSeek _ (fun t => t.handlers.map Handler.pc) [.logAndExit .seekFailed (.join 0)]
    (by decide +kernel)
  refine ⟨t, hrun, hpcs, ?_⟩
  obtain ⟨h, hget, hpc⟩ := exists_handler_at hpcs (i := 0) rfl
  exact (joiner_does_not_hold_fileMutex (starts_freshServer 5) hrun 0 h _ _ hget hpc).1

/-- Two clients send a line each.  The second handler waits for the mutex while
    the first one fails to read the device back. -/
def failedRead : List Action :=
  List.flatten [connect, connect, receives 0 [97, 10], receives 1 [98, 10], writesLine 0,
    [.handler 0 (.fread .failed)], List.replicate 4 (.handler 0 .cleanup)]

/-- **A JOINER THAT HOLDS THE MUTEX**: the first handler waits in `pthread_join` for
    the second, which waits for the mutex of the first; neither can move. -/
theorem joiner_holds_fileMutex :
    ∃ t, RunsTo next (fun _ _ => True) (freshServer 5) t ∧
      t.handlers.map Handler.pc = [.logAndExit .readFailed (.join 1), .lock] ∧
      t.shared.fileMutex = some 0 ∧ t.shared.clientThreads[1]? = some (some 1) ∧
      (next t (.handler 0 .cleanup)).isNone ∧ (next t (.handler 1 .lock)).isNone := by
  obtain ⟨t, hrun, hseen⟩ := @exists_runsTo _ _ next (fun _ _ => true) (freshServer 5)
    failedRead _ (fun t => (t.handlers.map Handler.pc, t.shared.fileMutex,
      t.shared.clientThreads[1]?, (next t (.handler 0 .cleanup)).isNone,
      (next t (.handler 1 .lock)).isNone))
    ([.logAndExit .readFailed (.join 1), .lock], some 0, some (some 1), true, true)
    (by decide +kernel)
  simp only [Prod.mk.injEq] at hseen
  obtain ⟨hpcs, hmutex, hthread, hjoin, hlock⟩ := hseen
  exact ⟨t, hrun.mono (fun _ _ _ => trivial), hpcs, hmutex, hthread, hjoin, hlock⟩

end AesdLock
