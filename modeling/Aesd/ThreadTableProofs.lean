import Aesd.ServerProofs

/-! # The table of thread handles

    `main` has the handle of every new handler stored at `clientThreads[threadCount++]`
    and never gives an index back, so the index counts the connections the process
    has ever accepted.  `pthread_create` may fail; the counter moves all the same,
    and `cleanupMain` joins every index below it.  The counter also moves before
    `pthread_create` stores the handle, so a handler in `logAndExit` can find it ahead
    of the table.

    `Table` is the invariant of the runs in which none of this happens: the table is
    not yet exhausted when a connection arrives, its handler starts, and no handler
    joins while the main thread is in `pthread_create`. -/

namespace AesdThreadTable

open AesdTemperary AesdClient AesdServer Transition

/-- `MAX_THREADS`. -/
def maxThreads : Nat := 128

/-- Some thread is about to join the handle at index `k`. -/
def JoinsAt (s : Server) (k : Nat) : Prop :=
  k < s.shared.clientThreads.length ∧
    (s.main = .cleanup (.join k) ∨
      ∃ h ∈ s.handlers, ∃ why, h.pc = .logAndExit why (.join k))

/-- Handles are stored inside the array, and those that are joined belong to
    threads. -/
structure TableSafe (s : Server) : Prop where
  stores : ∀ k thread, s.shared.clientThreads[k]? = some thread → k < maxThreads
  joins  : ∀ k, JoinsAt s k → k < maxThreads ∧ ∃ j h,
    s.shared.clientThreads[k]? = some (some j) ∧ s.handlers[j]? = some h ∧ h.pc ≠ .notStarted

/-- The thread is in the join loop of `cleanupMain`. -/
def joining : Pc → Bool
  | .logAndExit _ (.join _) => true
  | _ => false

/-- The main thread is in `pthread_create`. -/
def starting : MainPc → Bool
  | .start _ => true
  | _ => false

/-- A connection finds a free index, its handler starts, and from the moment it is
    counted no handler joins or comes nearer to it. -/
def createsInside (s : Server) : Action → Bool
  | .main .count => decide (s.shared.clientThreads.length < maxThreads) &&
      s.handlers.all fun h => !joining h.pc
  | .main (.create ok) => ok
  | .handler _ .cleanup => !starting s.main
  | _ => true

section Steps

variable {canJoin : Option Nat → Bool} {i : Nat} {sh sh' : Shared} {h h' : Handler}
  {a : HandlerAction}

/-- No handler touches the table. -/
theorem handlerStep_threads (hstep : HandlerStep canJoin i sh h a sh' h') :
    sh'.clientThreads = sh.clientThreads := by
  cases hstep with
  | finish hpc => split <;> rfl
  | cleanup why stage sh' stage' hpc hclean => exact (cleanupStep_frame hclean).threads
  | _ => rfl

/-- A thread that exists goes on existing. -/
theorem handlerStep_started (hstep : HandlerStep canJoin i sh h a sh' h') :
    h'.pc ≠ .notStarted := by
  cases hstep with
  | pollNeither hpc =>
      rw [hpc]
      exact fun heq => nomatch heq
  | _ => exact fun heq => nomatch heq

/-- Nobody enters the join loop but by a step of `cleanupMain`. -/
theorem handlerStep_joining (hstep : HandlerStep canJoin i sh h a sh' h') :
    a = .cleanup ∨ joining h'.pc = false := by
  cases hstep with
  | cleanup why stage sh' stage' hpc hclean => exact Or.inl rfl
  | pollNeither hpc => exact Or.inr (by rw [hpc]; rfl)
  | _ => exact Or.inr rfl

end Steps

/-- **WHAT THE MAIN THREAD DOES TO THE TABLE**: it counts a thread, it creates it, or it
    does something else. -/
theorem mainStep_threads {s t : Server} {m : MainAction} (h : MainStep s m t) :
    (t.shared.clientThreads = s.shared.clientThreads ∧ t.handlers = s.handlers ∧
      starting s.main = false ∧ starting t.main = false) ∨
    (m = .count ∧ starting s.main = false ∧ starting t.main = true ∧
      t.shared.clientThreads = s.shared.clientThreads ++ [none] ∧ t.handlers = s.handlers) ∨
    ∃ fd ok, m = .create ok ∧ starting s.main = true ∧ starting t.main = false ∧
      t.shared.clientThreads = storeHandle s.shared.clientThreads ok s.handlers.length ∧
      t.handlers = s.handlers ++
        [⟨fd, aesdTemperaryBufferInit, if ok then .poll else .notStarted⟩] := by
  cases h with
  | counted fd hpc => exact Or.inr (Or.inl ⟨rfl, by rw [hpc]; rfl, rfl, rfl, rfl⟩)
  | created fd ok hpc => exact Or.inr (Or.inr ⟨fd, ok, rfl, by rw [hpc]; rfl, rfl, rfl, rfl⟩)
  | accepted hpc => exact Or.inl ⟨(accepted_frame _ _).threads, rfl, by rw [hpc]; rfl, rfl⟩
  | notListening hpc hgo hclosed =>
      exact Or.inl ⟨(logged_frame _).threads, rfl, by rw [hpc]; rfl, rfl⟩
  | acceptFailed result hpc hne =>
      exact Or.inl ⟨(logged_frame _).threads, rfl, by rw [hpc]; rfl, rfl⟩
  | cleanup stage sh' stage' hpc hclean =>
      exact Or.inl ⟨(cleanupStep_frame hclean).threads, rfl, by rw [hpc]; rfl, rfl⟩
  | stopped hpc hstop => exact Or.inl ⟨rfl, rfl, by rw [hpc]; rfl, rfl⟩
  | goesOn hpc hgo hopen => exact Or.inl ⟨rfl, rfl, by rw [hpc]; rfl, rfl⟩
  | acceptStopped hpc hstop => exact Or.inl ⟨rfl, rfl, by rw [hpc]; rfl, rfl⟩

/-- `pthread_create` writes into the last place counted. -/
theorem length_storeHandle (threads : List (Option Nat)) (ok : Bool) (i : Nat) :
    (storeHandle threads ok i).length = threads.length := by
  cases ok with
  | true => exact List.length_set
  | false => rfl

/-- Every connection has an index, and every index a connection, but for the one that
    the main thread is creating. -/
def Counted (s : Server) : Prop :=
  s.shared.clientThreads.length = s.handlers.length + if starting s.main = true then 1 else 0

theorem Counted.of_starts {s : Server} (hs : Starts s) : Counted s := by
  rw [Counted, hs.threads, hs.handlers, hs.main]
  rfl

theorem Counted.next {s t : Server} {a : Action} (hs : Counted s) (hnext : next s a = some t) :
    Counted t := by
  rcases next_cases hnext with ⟨-, rfl⟩ | ⟨m, rfl, hmain⟩ |
    ⟨i, ha, hd, sh', hd', rfl, hget, hstep, rfl⟩
  · exact hs
  · rw [Counted] at hs ⊢
    rcases mainStep_threads hmain with ⟨hthreads, hhandlers, hbefore, hafter⟩ |
      ⟨-, hbefore, hafter, hthreads, hhandlers⟩ | ⟨fd, ok, -, hbefore, hafter, hthreads, hhandlers⟩
    · rw [hthreads, hhandlers, hafter, hs, hbefore]
    · rw [hthreads, hhandlers, hafter, List.length_append, hs, hbefore]
      rfl
    · rw [hthreads, hhandlers, hafter, length_storeHandle, List.length_append, hs, hbefore]
      rfl
  · show sh'.clientThreads.length = (s.handlers.set i hd').length + _
    rw [handlerStep_threads hstep, List.length_set]
    exact hs

/-- Index `k` holds the handle of handler `k`, up to the last handler. -/
def Stored (s : Server) : Prop :=
  ∀ k < s.handlers.length, s.shared.clientThreads[k]? = some (some k)

/-- The step is not a failed `pthread_create`. -/
def creates : Action → Bool
  | .main (.create ok) => ok
  | _ => true

theorem Stored.next {s t : Server} {a : Action} (hs : Stored s) (hcount : Counted s)
    (hok : creates a = true) (hnext : next s a = some t) : Stored t := by
  rcases next_cases hnext with ⟨-, rfl⟩ | ⟨m, rfl, hmain⟩ |
    ⟨i, ha, hd, sh', hd', rfl, hget, hstep, rfl⟩
  · exact hs
  · rw [Counted] at hcount
    intro k hk
    rcases mainStep_threads hmain with ⟨hthreads, hhandlers, -, -⟩ |
      ⟨-, -, -, hthreads, hhandlers⟩ | ⟨fd, ok, rfl, hbefore, -, hthreads, hhandlers⟩
    · rw [hhandlers] at hk
      rw [hthreads]
      exact hs k hk
    · rw [hhandlers] at hk
      rw [hthreads, List.getElem?_append_left (by omega)]
      exact hs k hk
    · have hsome : ok = true := hok
      rw [hhandlers, List.length_append, List.length_singleton] at hk
      rw [if_pos hbefore] at hcount
      rw [hthreads, hsome, storeHandle, if_pos rfl, hcount, Nat.add_sub_cancel]
      by_cases hnew : k = s.handlers.length
      · rw [hnew, List.getElem?_set_self (by omega)]
      · rw [List.getElem?_set_ne (fun heq => hnew heq.symm)]
        exact hs k (by omega)
  · intro k hk
    show sh'.clientThreads[k]? = _
    have hlt : k < (s.handlers.set i hd').length := hk
    rw [List.length_set] at hlt
    rw [handlerStep_threads hstep]
    exact hs k hlt

/-- All threads have started, their handles are where they belong, and nobody joins
    while there is one to come. -/
structure Table (s : Server) : Prop where
  counted : Counted s
  stored  : Stored s
  fits    : s.shared.clientThreads.length ≤ maxThreads
  started : AllAt (fun _ h => h.pc ≠ .notStarted) s.handlers
  waits   : starting s.main = true → ∀ h ∈ s.handlers, joining h.pc = false

/-- The main thread counts with room left and nobody joining, or creates. -/
theorem Table.main {s t : Server} {m : MainAction} (hs : Table s)
    (hok : createsInside s (.main m) = true) (hmain : MainStep s m t) :
    t.shared.clientThreads.length ≤ maxThreads ∧
      AllAt (fun _ h => h.pc ≠ .notStarted) t.handlers ∧
      (starting t.main = true → ∀ h ∈ t.handlers, joining h.pc = false) := by
  rcases mainStep_threads hmain with ⟨hthreads, hhandlers, -, hafter⟩ |
    ⟨rfl, -, -, hthreads, hhandlers⟩ | ⟨fd, ok, rfl, -, hafter, hthreads, hhandlers⟩
  · rw [hthreads, hhandlers, hafter]
    exact ⟨hs.fits, hs.started, fun heq => absurd heq Bool.false_ne_true⟩
  · obtain ⟨hroom, hnone⟩ := Bool.and_eq_true_iff.mp hok
    rw [hthreads, hhandlers, List.length_append]
    refine ⟨of_decide_eq_true hroom, hs.started, ?_⟩
    intro _ h hmem
    have hnot := List.all_eq_true.mp hnone h hmem
    rw [Bool.not_eq_true'] at hnot
    exact hnot
  · have hsome : ok = true := hok
    rw [hthreads, hhandlers, hafter, length_storeHandle, hsome]
    exact ⟨hs.fits, hs.started.append (fun heq => nomatch heq) fun _ _ _ _ hk => hk,
      fun heq => absurd heq Bool.false_ne_true⟩

/-- The step lemma. -/
theorem Table.next {s t : Server} {a : Action} (hs : Table s) (hok : createsInside s a = true)
    (hnext : next s a = some t) : Table t := by
  have hcreates : creates a = true := by
    rcases a with _ | m | ⟨i, ha⟩
    · rfl
    · cases m with
      | create ok => exact hok
      | _ => rfl
    · rfl
  have hcount := hs.counted.next hnext
  have hstored := hs.stored.next hs.counted hcreates hnext
  rcases next_cases hnext with ⟨-, rfl⟩ | ⟨m, rfl, hmain⟩ |
    ⟨i, ha, hd, sh', hd', rfl, hget, hstep, rfl⟩
  · exact ⟨hcount, hstored, hs.fits, hs.started, hs.waits⟩
  · obtain ⟨hfits, hstarted, hwaits⟩ := hs.main hok hmain
    exact ⟨hcount, hstored, hfits, hstarted, hwaits⟩
  · refine ⟨hcount, hstored, ?_, ?_, ?_⟩
    · show sh'.clientThreads.length ≤ maxThreads
      rw [handlerStep_threads hstep]
      exact hs.fits
    · exact hs.started.set (handlerStep_started hstep) fun _ _ _ _ hk => hk
    · intro hstart h hmem
      rcases List.mem_or_eq_of_mem_set hmem with hold | rfl
      · exact hs.waits hstart h hold
      · rcases handlerStep_joining hstep with rfl | hnot
        · rw [createsInside, show starting s.main = true from hstart] at hok
          exact absurd hok Bool.false_ne_true
        · exact hnot

theorem Table.safe {s : Server} (hs : Table s) : TableSafe s := by
  have hfits := hs.fits
  have hcount := hs.counted
  rw [Counted] at hcount
  constructor
  · intro k thread hk
    have hlt := (List.getElem?_eq_some_iff.mp hk).1
    omega
  · rintro k ⟨hk, hjoins⟩
    -- whoever joins, the main thread is not in pthread_create
    have hidle : starting s.main = false := by
      rw [← Bool.not_eq_true]
      intro hstart
      rcases hjoins with hmain | ⟨h, hmem, why, hpc⟩
      · rw [hmain] at hstart
        exact nomatch hstart
      · have hnot := hs.waits hstart h hmem
        rw [hpc] at hnot
        exact nomatch hnot
    rw [hidle] at hcount
    have hlt : k < s.handlers.length := by
      rw [hcount] at hk
      exact hk
    have hhandler := List.getElem?_eq_getElem hlt
    exact ⟨by omega, k, _, hs.stored k hlt, hhandler, hs.started k _ hhandler⟩

theorem Table.of_starts {s : Server} (hs : Starts s) : Table s := by
  refine ⟨.of_starts hs, ?_, ?_, ?_, ?_⟩
  · intro k hk
    rw [hs.handlers] at hk
    exact nomatch hk
  · rw [hs.threads]
    exact Nat.zero_le _
  · rw [hs.handlers]
    exact allAt_nil _
  · intro hstart
    rw [hs.main] at hstart
    exact nomatch hstart

/-- **THE TABLE IS LARGE ENOUGH**: in every run of the process in which every thread is
    counted with fewer than `MAX_THREADS` before it and nobody in the join loop, every
    `pthread_create` succeeds, and no handler goes on in `cleanupMain` while the main
    thread is in `pthread_create`, all handles are stored inside the array, and every
    join is of a thread that was started. -/
theorem clientThreads_safe {s t : Server} (hs : Starts s)
    (hrun : RunsTo next (fun s a => createsInside s a = true) s t) : TableSafe t := by
  have hinv : Table t :=
    hrun.invariant (fun s a t hinv hok hnext => hinv.next hok hnext) (Table.of_starts hs)
  exact hinv.safe

/-- A client connects, and the signal ends the server. -/
def oneClient : List Action :=
  connect ++ [.signal, .main .checkStop, .main .cleanup, .main .cleanup]

/-- The main thread joins the one handler. -/
theorem clientThreads_safe_oneClient :
    ∃ t, RunsTo next (fun s a => createsInside s a = true) (freshServer 5) t ∧
      t.main = .cleanup (.join 0) ∧ t.shared.clientThreads = [some 0] ∧ TableSafe t := by
  obtain ⟨t, hrun, hseen⟩ := @exists_runsTo _ _ next createsInside (freshServer 5) oneClient _
    (fun t => (t.main, t.shared.clientThreads)) (.cleanup (.join 0), [some 0])
    (by decide +kernel)
  obtain ⟨hmain, hthreads⟩ := Prod.mk.inj hseen
  exact ⟨t, hrun, hmain, hthreads, clientThreads_safe (starts_freshServer 5) hrun⟩

/-- The client's handler cannot be started, and the signal ends the server. -/
def noHandler : List Action :=
  [.main .checkStop, .main (.accept .connected), .main .count, .main (.create false), .signal,
    .main .checkStop, .main .cleanup, .main .cleanup]

/-- A handler that finds no memory is in the join loop, having joined itself, when the
    main thread counts the next thread. -/
def countedTooEarly : List Action :=
  connect ++ [.main .checkStop, .main (.accept .connected), .handler 0 (.poll false .error)] ++
    List.replicate 3 (.handler 0 .cleanup) ++ [.main .count]

/-- **THE 129TH CLIENT**, a client without a handler, and one without a handle as yet:
    one hundred and twenty-nine connections, one after another, store a handle behind
    the array; after a single connection whose `pthread_create` fails, shutdown joins a
    handle that was never stored; and a handler in `logAndExit` joins one that the main
    thread is about to store. -/
theorem clientThreads_exhausted :
    (∃ t, RunsTo next (fun _ _ => True) (freshServer 5) t ∧
      t.shared.clientThreads[128]? = some (some 128) ∧ ¬ TableSafe t) ∧
    (∃ t, RunsTo next (fun _ _ => True) (freshServer 5) t ∧
      t.main = .cleanup (.join 0) ∧ t.shared.clientThreads = [none] ∧ ¬ TableSafe t) ∧
    ∃ t, RunsTo next (fun _ _ => True) (freshServer 5) t ∧
      t.handlers.map Handler.pc = [.logAndExit .callocFailed (.join 1)] ∧
      t.shared.clientThreads = [some 0, none] ∧ ¬ TableSafe t := by
  refine ⟨?_, ?_, ?_⟩
  · obtain ⟨t, hrun, hthread⟩ := @exists_runsTo _ _ next (fun _ _ => true) (freshServer 5)
      (List.replicate 129 connect).flatten _ (fun t => t.shared.clientThreads[128]?)
      (some (some 128)) (by decide +kernel)
    refine ⟨t, hrun.mono (fun _ _ _ => trivial), hthread, ?_⟩
    intro hsafe
    exact absurd (hsafe.stores 128 _ hthread) (by decide)
  · obtain ⟨t, hrun, hseen⟩ := @exists_runsTo _ _ next (fun _ _ => true) (freshServer 5) noHandler
      _ (fun t => (t.main, t.shared.clientThreads)) (.cleanup (.join 0), [none])
      (by decide +kernel)
    obtain ⟨hmain, hthreads⟩ := Prod.mk.inj hseen
    refine ⟨t, hrun.mono (fun _ _ _ => trivial), hmain, hthreads, ?_⟩
    intro hsafe
    obtain ⟨-, j, h, hj, -⟩ := hsafe.joins 0 ⟨by rw [hthreads]; decide, Or.inl hmain⟩
    rw [hthreads] at hj
    cases hj
  · obtain ⟨t, hrun, hseen⟩ := @exists_runsTo _ _ next (fun _ _ => true) (freshServer 5)
      countedTooEarly _ (fun t => (t.handlers.map Handler.pc, t.shared.clientThreads))
      ([.logAndExit .callocFailed (.join 1)], [some 0, none]) (by decide +kernel)
    obtain ⟨hpcs, hthreads⟩ := Prod.mk.inj hseen
    refine ⟨t, hrun.mono (fun _ _ _ => trivial), hpcs, hthreads, ?_⟩
    intro hsafe
    obtain ⟨h, hget, hpc⟩ := exists_handler_at hpcs (i := 0) rfl
    obtain ⟨-, j, hj, hnone, -⟩ := hsafe.joins 1
      ⟨by rw [hthreads]; decide, Or.inr ⟨h, List.mem_of_getElem? hget, _, hpc⟩⟩
    rw [hthreads] at hnone
    cases hnone

end AesdThreadTable
