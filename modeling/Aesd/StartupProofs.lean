import Aesd.OwnershipProofs

/-! # From `main` to the accept loop

    What `main` does before it accepts: it may become a daemon, which closes the
    standard streams and opens `/dev/null` in their place, then it creates the
    listening socket and the pipe.  Each of these steps may fail, and the kernel
    hands out the lowest free number each time, so what a descriptor refers to
    depends on what was open before: at `exec`, or since then by `syslog`, which a
    daemon calls before it forks.

    `startup_wires` says which descriptor is what when the accept loop is reached,
    and that the state is then one from which the server was shown to be correct.
    `own_descriptors_stay` follows these descriptors through every run of the
    server: handlers close each other's numbers, but none of these. -/

namespace AesdStartup

open AesdTemperary AesdServer AesdOwnership DescriptorTable Transition

/-- What a descriptor of the process refers to before the first connection. -/
inductive Target where
  /-- whatever was open before -/
  | inherited
  | devNull
  | listening
  | pipeRead
  | pipeWrite
  deriving DecidableEq

inductive Fork where
  | failed
  | parent
  | child
  deriving DecidableEq

/-- What the environment answers, call by call. -/
structure StartEnv where
  fork       : Fork
  setsid     : Bool
  devNull    : Bool
  socket     : Bool
  setsockopt : Bool
  bind       : Bool
  pipe       : Bool

/-- The variables of `main` and the process's descriptors. -/
structure Process where
  fds               : List (Option Target)
  serverSockFd      : Int
  pipeClientHandler : Nat × Nat

/-- The end of the process: `EXIT_SUCCESS` or not, and what is still open. -/
structure Exit where
  success : Bool
  fds     : List (Option Target)

/-- `argc == 2 && strcmp(argv[1], "-d") == 0` -/
def runAsDaemon (argv : List String) : Bool := argv.length == 2 && argv[1]? == some "-d"

/-- `cleanupMain` without a handler. -/
def cleanupMain (p : Process) : List (Option Target) := closeServer p.fds p.serverSockFd

def logAndExit (p : Process) : Exit := ⟨false, cleanupMain p⟩

/-- The standard streams of the daemon. -/
def redirectStreams (devNull : Bool) (fds : List (Option Target)) : List (Option Target) :=
  let closed := close (close (close fds 0) 1) 2
  if devNull then
    let nullfd := lowestFree closed
    let redirected := dup2 (dup2 (dup2 (openAs closed .devNull) nullfd 0) nullfd 1) nullfd 2
    if 2 < nullfd then close redirected nullfd else redirected
  else closed

/-- `if (runAsDaemon)` -/
def detach (argv : List String) (env : StartEnv) (p : Process) : Except Exit Process :=
  if runAsDaemon argv then
    match env.fork with
    | .failed => .error (logAndExit p)
    | .parent => .error ⟨true, p.fds⟩
    | .child =>
        if env.setsid then .ok { p with fds := redirectStreams env.devNull p.fds }
        else .error (logAndExit p)
  else .ok p

def createSocket (env : StartEnv) (p : Process) : Except Exit Process :=
  if env.socket then
    .ok { p with fds := openAs p.fds .listening, serverSockFd := lowestFree p.fds }
  else .error (logAndExit { p with serverSockFd := -1 })

/-- `setsockopt`, then `bind`; the result of `listen` is ignored. -/
def bindSocket (env : StartEnv) (p : Process) : Except Exit Process :=
  if env.setsockopt && env.bind then .ok p else .error (logAndExit p)

def createPipe (env : StartEnv) (p : Process) : Except Exit Process :=
  if env.pipe then
    .ok { p with
      fds := openAs (openAs p.fds .pipeRead) .pipeWrite
      pipeClientHandler := (lowestFree p.fds, lowestFree (openAs p.fds .pipeRead)) }
  else .error (logAndExit p)

/-- The table before `fork`. -/
def inherit (opened : List Bool) : List (Option Target) :=
  opened.map fun o => if o then some .inherited else none

/-- **`main` BEFORE THE ACCEPT LOOP.** -/
def startup (argv : List String) (env : StartEnv) (opened : List Bool) : Except Exit Process :=
  detach argv env ⟨inherit opened, 0, (0, 0)⟩ >>= createSocket env >>= bindSocket env
    >>= createPipe env

/-- The server in the accept loop, with whatever the device stores, whether or not a
    signal has come, and whether or not `syslog` has still to connect. -/
def serverOf (p : Process) (dev : AesdDriver.AesdDev Tagged) (stop syslog : Bool) : Server where
  shared :=
    { dev := dev, fileMutex := none, fds := p.fds.map (Option.map fun _ => .process)
      serverSockFd := p.serverSockFd, syslog := syslog, pipe := 0, clientThreads := []
      closes := [], exited := false }
  main := .loop
  stop := stop
  handlers := []

/-! ## The steps -/

/-- Number `n` was open before. -/
def wasOpen (opened : List Bool) (n : Nat) : Bool := opened.getD n false

theorem owner_inherit (opened : List Bool) (n : Nat) :
    owner (inherit opened) n = if wasOpen opened n = true then some .inherited else none := by
  rw [owner, inherit, wasOpen, List.getD_eq_getElem?_getD, List.getD_eq_getElem?_getD,
    List.getElem?_map]
  cases opened[n]? with
  | none => rfl
  | some o => rfl

/-- The daemon's standard streams are `/dev/null`, or closed. -/
theorem owner_redirectStreams (devNull : Bool) (fds : List (Option Target)) (n : Nat) :
    owner (redirectStreams devNull fds) n
      = if n ≤ 2 then (if devNull = true then some .devNull else none) else owner fds n := by
  have hclosed : ∀ m, owner (close (close (close fds 0) 1) 2) m
      = if m ≤ 2 then none else owner fds m := by
    intro m
    rw [owner_close, owner_close, owner_close]
    split_ifs <;> first | rfl | omega
  cases devNull with
  | false => exact hclosed n
  | true =>
      -- 0 is free, so it is what `open` returns
      have hzero : lowestFree (close (close (close fds 0) 1) 2) = 0 :=
        Nat.le_zero.mp (lowestFree_le (hclosed 0))
      have hopen : ∀ m, owner (openAs (close (close (close fds 0) 1) 2) Target.devNull) m
          = if m = 0 then some .devNull else if m ≤ 2 then none else owner fds m := by
        intro m
        rw [owner_openAs, hzero, hclosed]
      have hdup₀ := fun m => (owner_dup2 (hopen 0) 0 m).trans
        (congrArg (fun o => if m = 0 then some Target.devNull else o) (hopen m))
      have hdup₁ := fun m => (owner_dup2 (hdup₀ 0) 1 m).trans
        (congrArg (fun o => if m = 1 then some Target.devNull else o) (hdup₀ m))
      have hdup₂ := fun m => (owner_dup2 (hdup₁ 0) 2 m).trans
        (congrArg (fun o => if m = 2 then some Target.devNull else o) (hdup₁ m))
      simp only [redirectStreams, if_true, hzero]
      rw [if_neg (by omega), hdup₂ n]
      split_ifs <;> first | rfl | omega

/-- What the process starts to open descriptors with: the daemon has replaced the first
    three. -/
def before (daemon devNull : Bool) (opened : List Bool) (n : Nat) : Option Target :=
  if daemon = true ∧ n ≤ 2 then (if devNull = true then some .devNull else none)
  else if wasOpen opened n = true then some .inherited else none

/-- Once detached, nothing is open yet but these. -/
theorem detach_ok {argv : List String} {env : StartEnv} {opened : List Bool} {q : Process}
    (h : detach argv env ⟨inherit opened, 0, (0, 0)⟩ = .ok q) (n : Nat) :
    owner q.fds n = before (runAsDaemon argv) env.devNull opened n := by
  rw [before]
  by_cases hd : runAsDaemon argv = true
  · simp only [detach, if_pos hd] at h
    split at h
    · cases h
    · cases h
    · split at h
      · cases h
        show owner (redirectStreams env.devNull (inherit opened)) n = _
        rw [owner_redirectStreams, owner_inherit]
        simp only [hd, true_and]
      · cases h
  · simp only [detach, if_neg hd] at h
    cases h
    have hno : ¬ (runAsDaemon argv = true ∧ n ≤ 2) := fun hboth => hd hboth.1
    rw [if_neg hno]
    exact owner_inherit opened n

/-- The parent does not go on. -/
theorem detach_child {argv : List String} {env : StartEnv} {p q : Process}
    (h : detach argv env p = .ok q) : ¬ (runAsDaemon argv = true ∧ env.fork = .parent) := by
  rintro ⟨hd, hfork⟩
  simp only [detach, if_pos hd, hfork] at h
  cases h

/-- The process that does not detach has opened nothing, and only the parent succeeds. -/
theorem detach_error {argv : List String} {env : StartEnv} {opened : List Bool} {e : Exit}
    (h : detach argv env ⟨inherit opened, 0, (0, 0)⟩ = .error e) :
    runAsDaemon argv = true ∧ (e.success = true ↔ env.fork = .parent) ∧
      e.fds = inherit opened := by
  by_cases hd : runAsDaemon argv = true
  · refine ⟨hd, ?_⟩
    simp only [detach, if_pos hd] at h
    split at h
    · next hfork =>
        cases h
        rw [hfork]
        exact ⟨⟨(fun heq => nomatch heq), fun heq => nomatch heq⟩, rfl⟩
    · next hfork =>
        cases h
        exact ⟨⟨fun _ => hfork, fun _ => rfl⟩, rfl⟩
    · next hfork =>
        split at h
        · cases h
        · cases h
          rw [hfork]
          exact ⟨⟨(fun heq => nomatch heq), fun heq => nomatch heq⟩, rfl⟩
  · simp only [detach, if_neg hd] at h
    cases h

/-- The accept loop is reached when every call succeeds. -/
theorem startup_ok {argv : List String} {env : StartEnv} {opened : List Bool} {p : Process}
    (h : startup argv env opened = .ok p) :
    ∃ q, detach argv env ⟨inherit opened, 0, (0, 0)⟩ = .ok q ∧
      p = ⟨openAs (openAs (openAs q.fds .listening) .pipeRead) .pipeWrite, lowestFree q.fds,
        (lowestFree (openAs q.fds .listening),
          lowestFree (openAs (openAs q.fds .listening) .pipeRead))⟩ := by
  rw [startup] at h
  cases hq : detach argv env ⟨inherit opened, 0, (0, 0)⟩ with
  | error e =>
      rw [hq] at h
      cases h
  | ok q =>
      refine ⟨q, rfl, ?_⟩
      rw [hq] at h
      by_cases hsocket : env.socket = true
      · by_cases hbind : (env.setsockopt && env.bind) = true
        · by_cases hpipe : env.pipe = true
          · simp only [bind, Except.bind, createSocket, if_pos hsocket, bindSocket, if_pos hbind,
              createPipe, if_pos hpipe] at h
            cases h
            rfl
          · simp only [bind, Except.bind, createSocket, if_pos hsocket, bindSocket, if_pos hbind,
              createPipe, if_neg hpipe] at h
            cases h
        · simp only [bind, Except.bind, createSocket, if_pos hsocket, bindSocket, if_neg hbind] at h
          cases h
      · simp only [bind, Except.bind, createSocket, if_neg hsocket] at h
        cases h

/-- Otherwise the process ends before it detaches, or with at most the listening socket
    to close. -/
theorem startup_error {argv : List String} {env : StartEnv} {opened : List Bool} {e : Exit}
    (h : startup argv env opened = .error e) :
    detach argv env ⟨inherit opened, 0, (0, 0)⟩ = .error e ∨
      ∃ q, detach argv env ⟨inherit opened, 0, (0, 0)⟩ = .ok q ∧
        (e = logAndExit { q with serverSockFd := -1 } ∨
          e = logAndExit
            { q with fds := openAs q.fds .listening, serverSockFd := lowestFree q.fds }) := by
  rw [startup] at h
  cases hq : detach argv env ⟨inherit opened, 0, (0, 0)⟩ with
  | error e' =>
      rw [hq] at h
      exact Or.inl h
  | ok q =>
      refine Or.inr ⟨q, rfl, ?_⟩
      rw [hq] at h
      by_cases hsocket : env.socket = true
      · refine Or.inr ?_
        by_cases hbind : (env.setsockopt && env.bind) = true
        · by_cases hpipe : env.pipe = true
          · simp only [bind, Except.bind, createSocket, if_pos hsocket, bindSocket, if_pos hbind,
              createPipe, if_pos hpipe] at h
            cases h
          · simp only [bind, Except.bind, createSocket, if_pos hsocket, bindSocket, if_pos hbind,
              createPipe, if_neg hpipe] at h
            cases h
            rfl
        · simp only [bind, Except.bind, createSocket, if_pos hsocket, bindSocket, if_neg hbind] at h
          cases h
          rfl
      · refine Or.inl ?_
        simp only [bind, Except.bind, createSocket, if_neg hsocket] at h
        cases h
        rfl

/-! ## The accept loop is reached -/

section Opened

variable {t : List (Option Target)}

/-- The listening socket and the pipe. -/
def wire (t : List (Option Target)) : List (Option Target) :=
  openAs (openAs (openAs t .listening) .pipeRead) .pipeWrite

/-- What is free afterwards was free before. -/
theorem owner_none_of_openAs {w : Target} {n : Nat} (h : owner (openAs t w) n = none) :
    owner t n = none := by
  cases hown : owner t n with
  | none => rfl
  | some w' => exact nomatch (owner_openAs_of_owned hown w).symm.trans h

/-- Three new descriptors, and those from before. -/
theorem owner_wire_iff (n : Nat) (x : Target) : owner (wire t) n = some x ↔
    (n = lowestFree t ∧ x = .listening) ∨
    (n = lowestFree (openAs t .listening) ∧ x = .pipeRead) ∨
    (n = lowestFree (openAs (openAs t .listening) .pipeRead) ∧ x = .pipeWrite) ∨
    owner t n = some x := by
  have hread := lowestFree_lt_openAs t .listening
  have hwrite := lowestFree_lt_openAs (openAs t .listening) .pipeRead
  have hfree := owner_lowestFree t
  have hfree₁ := owner_none_of_openAs (owner_lowestFree (openAs t .listening))
  have hfree₂ := owner_none_of_openAs
    (owner_none_of_openAs (owner_lowestFree (openAs (openAs t .listening) .pipeRead)))
  rw [wire, owner_openAs, owner_openAs, owner_openAs]
  generalize lowestFree (openAs (openAs t .listening) .pipeRead) = w at *
  generalize lowestFree (openAs t .listening) = r at *
  generalize lowestFree t = l at *
  by_cases hw : n = w
  · subst hw
    rw [if_pos rfl, hfree₂, Option.some.injEq, eq_comm]
    have hr : n ≠ r := by omega
    have hl : n ≠ l := by omega
    simp [hr, hl]
  · by_cases hr : n = r
    · subst hr
      rw [if_neg hw, if_pos rfl, hfree₁, Option.some.injEq, eq_comm]
      have hl : n ≠ l := by omega
      simp [hw, hl]
    · by_cases hl : n = l
      · subst hl
        rw [if_neg hw, if_neg hr, if_pos rfl, hfree, Option.some.injEq, eq_comm]
        simp [hw, hr]
      · rw [if_neg hw, if_neg hr, if_neg hl]
        simp [hw, hr, hl]

/-- What was free below 3 is taken: three numbers were handed out. -/
theorem wire_taken {n : Nat} (hn : n ≤ 2) : owner (wire t) n ≠ none := by
  have hread := lowestFree_lt_openAs t .listening
  have hwrite := lowestFree_lt_openAs (openAs t .listening) .pipeRead
  have hmore := lowestFree_lt_openAs (openAs (openAs t .listening) .pipeRead) .pipeWrite
  exact (lt_lowestFree_iff (wire t) n).mp (by rw [wire]; omega) n (Nat.le_refl n)

/-- The three numbers are 0, 1 and 2 exactly when these were free. -/
theorem wire_streams_iff :
    lowestFree (openAs (openAs t .listening) .pipeRead) = 2 ↔ ∀ n ≤ 2, owner t n = none := by
  have hread := lowestFree_lt_openAs t .listening
  have hwrite := lowestFree_lt_openAs (openAs t .listening) .pipeRead
  constructor
  · intro htwo
    have hfree := owner_lowestFree t
    have hfree₁ := owner_lowestFree (openAs t .listening)
    have hfree₂ := owner_lowestFree (openAs (openAs t .listening) .pipeRead)
    have hone : lowestFree (openAs t .listening) = 1 := by omega
    have hzero : lowestFree t = 0 := by omega
    rw [htwo, owner_openAs, hone, owner_openAs, hzero] at hfree₂
    rw [hone, owner_openAs, hzero] at hfree₁
    rw [hzero] at hfree
    intro n hn
    interval_cases n
    · exact hfree
    · exact hfree₁
    · exact hfree₂
  · intro hfree
    have hzero : lowestFree t ≤ 0 := lowestFree_le (hfree 0 (by omega))
    have hone : lowestFree (openAs t .listening) ≤ 1 := by
      refine lowestFree_le ?_
      rw [owner_openAs, if_neg (by omega)]
      exact hfree 1 (by omega)
    have htwo : lowestFree (openAs (openAs t .listening) .pipeRead) ≤ 2 := by
      refine lowestFree_le ?_
      rw [owner_openAs, if_neg (by omega), owner_openAs, if_neg (by omega)]
      exact hfree 2 (by omega)
    omega

end Opened

/-- Which descriptor is what in the accept loop. -/
structure Wired (daemon devNull : Bool) (opened : List Bool) (p : Process) : Prop where
  listening : ∀ n, owner p.fds n = some .listening ↔ (n : Int) = p.serverSockFd
  pipeRead  : ∀ n, owner p.fds n = some .pipeRead ↔ n = p.pipeClientHandler.1
  pipeWrite : ∀ n, owner p.fds n = some .pipeWrite ↔ n = p.pipeClientHandler.2
  order     : 0 ≤ p.serverSockFd ∧ p.serverSockFd < p.pipeClientHandler.1 ∧
    p.pipeClientHandler.1 < p.pipeClientHandler.2
  devNull   : ∀ n, owner p.fds n = some .devNull ↔ daemon = true ∧ devNull = true ∧ n ≤ 2
  inherited : ∀ n, owner p.fds n = some .inherited ↔
    wasOpen opened n = true ∧ ¬ (daemon = true ∧ n ≤ 2)
  streams   : ∀ n ≤ 2, owner p.fds n ≠ none

theorem before_cases (daemon devNull : Bool) (opened : List Bool) (n : Nat) :
    before daemon devNull opened n = none ∨ before daemon devNull opened n = some .devNull ∨
      before daemon devNull opened n = some .inherited := by
  rw [before]
  split_ifs
  · exact Or.inr (Or.inl rfl)
  · exact Or.inl rfl
  · exact Or.inr (Or.inr rfl)
  · exact Or.inl rfl

theorem before_devNull_iff (daemon devNull : Bool) (opened : List Bool) (n : Nat) :
    before daemon devNull opened n = some .devNull ↔
      daemon = true ∧ devNull = true ∧ n ≤ 2 := by
  rw [before]
  split_ifs <;> simp_all

theorem before_inherited_iff (daemon devNull : Bool) (opened : List Bool) (n : Nat) :
    before daemon devNull opened n = some .inherited ↔
      wasOpen opened n = true ∧ ¬ (daemon = true ∧ n ≤ 2) := by
  rw [before]
  split_ifs <;> simp_all

/-- What is free when the sockets are created. -/
theorem before_none_iff {daemon devNull : Bool} {opened : List Bool} {n : Nat} (hn : n ≤ 2) :
    before daemon devNull opened n = none ↔
      (if daemon = true then devNull else wasOpen opened n) = false := by
  rw [before]
  split_ifs <;> simp_all

theorem wired_wire {daemon devNull : Bool} {opened : List Bool} {t : List (Option Target)}
    (ht : ∀ n, owner t n = before daemon devNull opened n) :
    Wired daemon devNull opened ⟨wire t, lowestFree t, (lowestFree (openAs t .listening),
      lowestFree (openAs (openAs t .listening) .pipeRead))⟩ := by
  have hread := lowestFree_lt_openAs t .listening
  have hwrite := lowestFree_lt_openAs (openAs t .listening) .pipeRead
  -- a new target is none of those from before
  have hnew : ∀ n x, x ≠ .devNull → x ≠ .inherited → owner t n ≠ some x := by
    intro n x hnull hinherited hown
    rw [ht] at hown
    rcases before_cases daemon devNull opened n with hn | hn | hn
    · exact nomatch hn.symm.trans hown
    · exact hnull (Option.some.inj (hown.symm.trans hn))
    · exact hinherited (Option.some.inj (hown.symm.trans hn))
  constructor
  · intro n
    have hold := hnew n .listening (fun heq => nomatch heq) (fun heq => nomatch heq)
    show owner (wire t) n = some .listening ↔ (n : Int) = (lowestFree t : Int)
    rw [owner_wire_iff, Int.natCast_inj]
    simp [hold]
  · intro n
    have hold := hnew n .pipeRead (fun heq => nomatch heq) (fun heq => nomatch heq)
    show owner (wire t) n = some .pipeRead ↔ n = lowestFree (openAs t .listening)
    rw [owner_wire_iff]
    simp [hold]
  · intro n
    have hold := hnew n .pipeWrite (fun heq => nomatch heq) (fun heq => nomatch heq)
    show owner (wire t) n = some .pipeWrite ↔
      n = lowestFree (openAs (openAs t .listening) .pipeRead)
    rw [owner_wire_iff]
    simp [hold]
  · refine ⟨Int.natCast_nonneg _, Int.ofNat_lt.mpr hread, hwrite⟩
  · intro n
    show owner (wire t) n = some .devNull ↔ _
    rw [owner_wire_iff, ht, before_devNull_iff]
    simp
  · intro n
    show owner (wire t) n = some .inherited ↔ _
    rw [owner_wire_iff, ht, before_inherited_iff]
    simp
  · intro n hn
    exact wire_taken hn

theorem startup_wired {argv : List String} {env : StartEnv} {opened : List Bool} {p : Process}
    (h : startup argv env opened = .ok p) : Wired (runAsDaemon argv) env.devNull opened p := by
  obtain ⟨q, hq, rfl⟩ := startup_ok h
  exact wired_wire (detach_ok hq)

/-- The starting state of the server: only descriptors of the process, and number 0 is
    one of them. -/
theorem starts_serverOf {daemon devNull : Bool} {opened : List Bool} {p : Process}
    (hp : Wired daemon devNull opened p) (dev : AesdDriver.AesdDev Tagged) (stop syslog : Bool) :
    Starts (serverOf p dev stop syslog) := by
  refine ⟨rfl, rfl, rfl, rfl, rfl, rfl, rfl, ?_, ?_, ?_⟩
  · intro fd w hown
    rw [serverOf, owner_map] at hown
    obtain ⟨x, -, hx⟩ := Option.map_eq_some_iff.mp hown
    exact hx.symm
  · rw [serverOf, owner_map]
    cases hzero : owner p.fds 0 with
    | none => exact absurd hzero (hp.streams 0 (Nat.zero_le 2))
    | some x => rfl
  · have hnumber : (p.serverSockFd.toNat : Int) = p.serverSockFd := Int.toNat_of_nonneg hp.order.1
    rw [listens, beq_iff_eq, serverOf, owner_map, (hp.listening _).mpr hnumber]
    rfl

/-- What `cleanupMain` leaves open of a listening socket. -/
theorem owner_cleanupMain {q : Process} {n : Nat} {x : Target}
    (h : owner (cleanupMain { q with
      fds := openAs q.fds .listening, serverSockFd := lowestFree q.fds }) n = some x) :
    owner q.fds n = some x ∨ (x = .listening ∧ n = 0) := by
  rw [cleanupMain, closeServer] at h
  by_cases hpos : (0 : Int) < (lowestFree q.fds : Int)
  · have hclosed : owner (close (openAs q.fds .listening) (lowestFree q.fds)) n = some x := by
      rw [if_pos hpos] at h
      exact h
    rw [owner_close, owner_openAs] at hclosed
    by_cases hn : n = lowestFree q.fds
    · rw [if_pos hn] at hclosed
      cases hclosed
    · rw [if_neg hn, if_neg hn] at hclosed
      exact Or.inl hclosed
  · have hzero : lowestFree q.fds = 0 := by omega
    have hopen : owner (openAs q.fds .listening) n = some x := by
      rw [if_neg hpos] at h
      exact h
    rw [owner_openAs, hzero] at hopen
    by_cases hn : n = 0
    · rw [if_pos hn] at hopen
      exact Or.inr ⟨(Option.some.inj hopen).symm, hn⟩
    · rw [if_neg hn] at hopen
      exact Or.inl hopen

/-! ## What the numbers decide -/

section Decided

variable {argv : List String} {env : StartEnv} {opened : List Bool}

/-- `cleanupMain` closes the listening socket unless number 0 was free. -/
theorem serverSockFd_pos_iff {p : Process} (hp : startup argv env opened = .ok p) :
    0 < p.serverSockFd ↔
      (if runAsDaemon argv = true then env.devNull else wasOpen opened 0) = true := by
  obtain ⟨q, hq, rfl⟩ := startup_ok hp
  show (0 : Int) < (lowestFree q.fds : Int) ↔ _
  rw [Int.natCast_pos, ← Bool.not_eq_false, ← before_none_iff (Nat.zero_le 2), ← detach_ok hq,
    Nat.pos_iff_ne_zero]
  refine not_congr ⟨?_, ?_⟩
  · intro hzero
    rw [← hzero]
    exact owner_lowestFree q.fds
  · intro hfree
    exact Nat.le_zero.mp (lowestFree_le hfree)

/-- The pipe takes the number of standard error when no standard stream is open. -/
theorem pipe_stderr_iff {p : Process} (hp : startup argv env opened = .ok p) :
    p.pipeClientHandler.2 = 2 ↔ ∀ n ≤ 2,
      (if runAsDaemon argv = true then env.devNull else wasOpen opened n) = false := by
  obtain ⟨q, hq, rfl⟩ := startup_ok hp
  show lowestFree (openAs (openAs q.fds .listening) .pipeRead) = 2 ↔ _
  rw [wire_streams_iff]
  refine forall₂_congr fun n hn => ?_
  rw [detach_ok hq, before_none_iff hn]

/-- After `detach` nothing is open that `main` has created, `/dev/null` apart. -/
theorem detach_owner {q : Process} (hq : detach argv env ⟨inherit opened, 0, (0, 0)⟩ = .ok q)
    {n : Nat} {x : Target} (hown : owner q.fds n = some x) : x = .inherited ∨ x = .devNull := by
  rw [detach_ok hq] at hown
  rcases before_cases (runAsDaemon argv) env.devNull opened n with hn | hn | hn
  · exact nomatch hn.symm.trans hown
  · exact Or.inr (Option.some.inj (hown.symm.trans hn))
  · exact Or.inl (Option.some.inj (hown.symm.trans hn))

/-- An end before the accept loop. -/
theorem startup_error_leaves {e : Exit} (he : startup argv env opened = .error e) :
    (e.success = true ↔ runAsDaemon argv = true ∧ env.fork = .parent) ∧
      ∀ n x, owner e.fds n = some x →
        x = .inherited ∨ x = .devNull ∨ (x = .listening ∧ n = 0) := by
  rcases startup_error he with herror | ⟨q, hq, hexit⟩
  · obtain ⟨hd, hsuccess, hfds⟩ := detach_error herror
    refine ⟨?_, ?_⟩
    · rw [hsuccess]
      exact ⟨fun hfork => ⟨hd, hfork⟩, fun hboth => hboth.2⟩
    · intro n x hown
      rw [hfds, owner_inherit] at hown
      obtain ⟨-, hx⟩ := Option.ite_none_right_eq_some.mp hown
      exact Or.inl (Option.some.inj hx).symm
  · have hfailed : e.success = false := by
      rcases hexit with rfl | rfl
      · rfl
      · rfl
    refine ⟨?_, ?_⟩
    · rw [hfailed]
      exact ⟨fun h => absurd h Bool.false_ne_true, fun hparent => absurd hparent (detach_child hq)⟩
    · intro n x hown
      have hold : owner q.fds n = some x →
          x = .inherited ∨ x = .devNull ∨ (x = .listening ∧ n = 0) :=
        fun hown => (detach_owner hq hown).imp_right Or.inl
      rcases hexit with rfl | rfl
      · exact hold hown
      · rcases owner_cleanupMain hown with hown' | hx
        · exact hold hown'
        · exact Or.inr (Or.inr hx)

end Decided

/-- **STARTUP**: for every command line, every set of descriptors that are open before,
    and whatever the environment answers:
    - where the accept loop is reached, `serverSockFd` and the two ends of the pipe are
      descriptors of their own, the daemon's standard streams are `/dev/null`, and
      everything else is as it was;
    - `cleanupMain` will close the listening socket unless number 0 was free, and
      standard error is the end of the pipe that wakes the handlers exactly when no
      standard stream was open;
    - the server is then in its starting state, whatever the device stores;
    - where the process ends before, it succeeds only as the parent of the daemon, and
      of what it has created it leaves open at most the daemon's `/dev/null` streams and
      a listening socket with number 0. -/
theorem startup_wires (argv : List String) (env : StartEnv) (opened : List Bool) :
    (∀ p, startup argv env opened = .ok p →
      Wired (runAsDaemon argv) env.devNull opened p ∧
      (0 < p.serverSockFd ↔
        (if runAsDaemon argv = true then env.devNull else wasOpen opened 0) = true) ∧
      (p.pipeClientHandler.2 = 2 ↔ ∀ n ≤ 2,
        (if runAsDaemon argv = true then env.devNull else wasOpen opened n) = false) ∧
      ∀ dev stop syslog, Starts (serverOf p dev stop syslog)) ∧
    ∀ e, startup argv env opened = .error e →
      (e.success = true ↔ runAsDaemon argv = true ∧ env.fork = .parent) ∧
      ∀ n x, owner e.fds n = some x → x = .inherited ∨ x = .devNull ∨ (x = .listening ∧ n = 0) := by
  refine ⟨?_, fun e he => startup_error_leaves he⟩
  intro p hp
  have hwired := startup_wired hp
  exact ⟨hwired, serverSockFd_pos_iff hp, pipe_stderr_iff hp, starts_serverOf hwired⟩

/-! ## And the descriptors stay -/

/-- The number is neither the process's own nor `syslog`'s. -/
def Spared (sh : Shared) (fd : Nat) : Prop := ∀ w, owner sh.fds fd = some w → whose w ≠ none

/-- What a step does to the process's own descriptors and `syslog`'s; `closing` says that
    it is the one that closes the listening socket. -/
structure Spares (closing : Prop) (sh sh' : Shared) : Prop where
  server  : sh'.serverSockFd = sh.serverSockFd
  syslog  : sh'.syslog = true → sh.syslog = true
  noneNew : ∀ n w, whose w = none → owner sh'.fds n = some w →
    owner sh.fds n = some w ∨ w = .log ∧ sh.syslog = true
  stays   : ∀ n w, whose w = none → owner sh.fds n = some w →
    owner sh'.fds n = some w ∨ closing ∧ 0 < sh.serverSockFd ∧ (n : Int) = sh.serverSockFd
  closes  : ∀ c ∈ sh'.closes, c ∈ sh.closes ∨ ∀ w, c.hit = some w → whose w ≠ none

section Spares

variable {closing : Prop} {sh sh' sh'' : Shared} {fd : Nat}

/-- A free number is not the process's. -/
theorem spared_of_free (h : owner sh.fds fd = none) : Spared sh fd := by
  intro w hown
  exact nomatch h.symm.trans hown

/-- Where `syslog` has nothing left to open, no number becomes the process's or its. -/
theorem Spared.step (h : Spared sh fd) (hs : Spares closing sh sh') (hlog : sh.syslog = false) :
    Spared sh' fd := by
  intro w hown hw
  rcases hs.noneNew fd w hw hown with hold | ⟨-, hno⟩
  · exact h w hold hw
  · exact nomatch hlog.symm.trans hno

theorem Spares.mono {closing' : Prop} (h : Spares closing sh sh') (himp : closing → closing') :
    Spares closing' sh sh' := by
  refine ⟨h.server, h.syslog, h.noneNew, ?_, h.closes⟩
  intro n w hw hown
  exact (h.stays n w hw hown).imp_right fun hclose => ⟨himp hclose.1, hclose.2⟩

theorem Spares.trans (h : Spares False sh sh') (h' : Spares False sh' sh'')
    (hlog : sh'.syslog = sh.syslog) : Spares False sh sh'' := by
  refine ⟨h'.server.trans h.server, fun hs => h.syslog (h'.syslog hs), ?_, ?_, ?_⟩
  · intro n w hw hown
    rcases h'.noneNew n w hw hown with hmid | ⟨heq, hno⟩
    · exact h.noneNew n w hw hmid
    · exact Or.inr ⟨heq, hlog ▸ hno⟩
  · intro n w hw hown
    rcases h.stays n w hw hown with hmid | ⟨hno, -⟩
    · exact (h'.stays n w hw hmid).imp_right fun hno => hno.1.elim
    · exact hno.elim
  · intro c hc
    rcases h'.closes c hc with hmid | hhit
    · exact h.closes c hmid
    · exact Or.inr hhit

theorem Spares.same (hserver : sh'.serverSockFd = sh.serverSockFd) (hlog : sh'.syslog = sh.syslog)
    (hfds : sh'.fds = sh.fds) (hcloses : sh'.closes = sh.closes) : Spares closing sh sh' := by
  refine ⟨hserver, fun hs => hlog ▸ hs, ?_, ?_, ?_⟩
  · rw [hfds]
    exact fun _ _ _ hown => Or.inl hown
  · rw [hfds]
    exact fun _ _ _ hown => Or.inl hown
  · rw [hcloses]
    exact fun _ hc => Or.inl hc

/-- A connection, or a device file. -/
theorem spares_openAs {w : Owner} (hw : whose w ≠ none) :
    Spares False sh { sh with fds := openAs sh.fds w } := by
  refine ⟨rfl, id, ?_, fun n _ _ hown => Or.inl (owner_openAs_of_owned hown w),
    fun _ hc => Or.inl hc⟩
  intro n w' hw' hown
  have hown' : owner (openAs sh.fds w) n = some w' := hown
  rw [owner_openAs] at hown'
  by_cases hn : n = lowestFree sh.fds
  · rw [if_pos hn] at hown'
    rw [Option.some.inj hown'] at hw
    exact absurd hw' hw
  · rw [if_neg hn] at hown'
    exact Or.inl hown'

theorem noneNew_close {n : Nat} {w : Owner} (hown : owner (close sh.fds fd) n = some w) :
    owner sh.fds n = some w := by
  rw [owner_close] at hown
  by_cases hn : n = fd
  · rw [if_pos hn] at hown
    exact nomatch hown
  · rw [if_neg hn] at hown
    exact hown

theorem spares_closeFd {i : Nat} (hfd : Spared sh fd) : Spares False sh (closeFd sh i fd) := by
  refine ⟨rfl, id, fun n w _ hown => Or.inl (noneNew_close hown), ?_, ?_⟩
  · intro n w hw hown
    have hne : n ≠ fd := by
      rintro rfl
      exact hfd w hown hw
    refine Or.inl ?_
    show owner (close sh.fds fd) n = some w
    rw [owner_close, if_neg hne, hown]
  · intro c hc
    rcases List.mem_append.mp hc with hc | hc
    · exact Or.inl hc
    · rw [List.mem_singleton.mp hc]
      exact Or.inr hfd

/-- `syslog` opens its own connection at most. -/
theorem spares_logged : Spares False sh (logged sh) := by
  have hframe := logged_frame sh
  refine ⟨hframe.server, ?_, ?_, fun n w _ hown => Or.inl (hframe.opened n w hown), ?_⟩
  · intro hs
    by_contra hno
    rw [logged, if_neg hno] at hs
    exact hno hs
  · intro n w hw hown
    by_cases hlog : sh.syslog = true
    · rw [logged, if_pos hlog] at hown
      have hown' : owner (openAs sh.fds .log) n = some w := hown
      rw [owner_openAs] at hown'
      by_cases hn : n = lowestFree sh.fds
      · rw [if_pos hn] at hown'
        exact Or.inr ⟨(Option.some.inj hown').symm, hlog⟩
      · rw [if_neg hn] at hown'
        exact Or.inl hown'
    · rw [logged, if_neg hlog] at hown
      exact Or.inl hown
  · rw [hframe.closes]
    exact fun _ hc => Or.inl hc

/-- `cleanupMain` closes the listening socket at most. -/
theorem spares_cleanup {canJoin : Option Nat → Bool} {stage : Cleanup} {stage' : Option Cleanup}
    (hclean : cleanupStep canJoin sh stage = some (sh', stage')) :
    Spares (stage = .closeServer) sh sh' := by
  have hframe := cleanupStep_frame hclean
  have hfds := cleanupStep_fds hclean
  by_cases hclosing : stage = .closeServer ∧ 0 < sh.serverSockFd
  · obtain ⟨hstage, hpos⟩ := hclosing
    rw [if_pos hstage, closeServer, if_pos hpos] at hfds
    refine ⟨hframe.server, fun hs => hframe.syslog ▸ hs, ?_, ?_, ?_⟩
    · intro n w _ hown
      rw [hfds] at hown
      exact Or.inl (noneNew_close hown)
    · intro n w _ hown
      rw [hfds, owner_close]
      by_cases hn : n = sh.serverSockFd.toNat
      · exact Or.inr ⟨hstage, hpos, by omega⟩
      · rw [if_neg hn]
        exact Or.inl hown
    · rw [hframe.closes]
      exact fun _ hc => Or.inl hc
  · refine .same hframe.server hframe.syslog ?_ hframe.closes
    by_cases hstage : stage = .closeServer
    · rw [if_pos hstage, closeServer, if_neg fun hpos => hclosing ⟨hstage, hpos⟩] at hfds
      exact hfds
    · rw [if_neg hstage] at hfds
      exact hfds

/-- The handler is about to close the listening socket. -/
def closesServer (pc : Pc) : Prop := ∃ why, pc = .logAndExit why .closeServer

/-- What a handler has open is neither the process's nor `syslog`'s. -/
def HandlerSpares (sh : Shared) (h : Handler) : Prop :=
  Spared sh h.newSockFd ∧ ∀ fd, fileOf h.pc = some fd → Spared sh fd

/-- The step lemma of a handler: it opens numbers that were free, and closes its own. -/
theorem spares_step {canJoin : Option Nat → Bool} {i : Nat} {h h' : Handler}
    {a : HandlerAction} (hlog : sh.syslog = false) (hh : HandlerSpares sh h)
    (hstep : HandlerStep canJoin i sh h a sh' h') :
    Spares (closesServer h.pc) sh sh' ∧ HandlerSpares sh' h' := by
  obtain ⟨hsock, hfile⟩ := hh
  have hopens : Spares False sh (fopen sh i) := spares_openAs (fun heq => nomatch heq)
  have hopened : HandlerSpares (fopen sh i) { h with pc := .readBack (lowestFree sh.fds) } := by
    refine ⟨hsock.step hopens hlog, ?_⟩
    intro fd hfd
    rw [← Option.some.inj hfd]
    exact (spared_of_free (owner_lowestFree sh.fds)).step hopens hlog
  cases hstep with
  | receivedClosed granted chunk b hpc hlen hrecv =>
      have hclose := spares_closeFd (i := i) hsock
      exact ⟨hclose.mono False.elim, hsock.step hclose hlog, fun fd hfd => nomatch hfd⟩
  | seek after command hpc hact => exact ⟨hopens.mono False.elim, hopened.1, hopened.2⟩
  | data after bytes hpc hact => exact ⟨hopens.mono False.elim, hopened.1, hopened.2⟩
  | reopen fd hpc =>
      have hclose := spares_closeFd (i := i) (hfile fd (by rw [hpc]; rfl))
      have hagain : Spares False (closeFd sh i fd) (fopen (closeFd sh i fd) i) :=
        spares_openAs (fun heq => nomatch heq)
      refine ⟨(hclose.trans hagain rfl).mono False.elim,
        (hsock.step hclose hlog).step hagain hlog, ?_⟩
      intro fd' hfd
      rw [← Option.some.inj hfd]
      exact (spared_of_free (owner_lowestFree (closeFd sh i fd).fds)).step hagain hlog
  | readEnd fd hpc =>
      have hclose := spares_closeFd (i := i) (hfile fd (by rw [hpc]; rfl))
      exact ⟨hclose.mono False.elim, hsock.step hclose hlog, fun fd' hfd => nomatch hfd⟩
  | finish hpc =>
      have hclose : Spares False sh (if 0 < h.newSockFd then closeFd sh i h.newSockFd else sh) := by
        split
        · exact spares_closeFd hsock
        · exact .same rfl rfl rfl rfl
      exact ⟨hclose.mono False.elim, hsock.step hclose hlog, fun fd hfd => nomatch hfd⟩
  | cleanup why stage sh' stage' hpc hclean =>
      have hs := spares_cleanup hclean
      refine ⟨hs.mono ?_, hsock.step hs hlog, fun fd hfd => nomatch hfd⟩
      rintro rfl
      exact ⟨why, hpc⟩
  | pollNeither hpc => exact ⟨.same rfl rfl rfl rfl, hsock, hfile⟩
  | seekDone copied fd command hpc hdev hpos =>
      exact ⟨.same rfl rfl rfl rfl, hsock, fun fd' hfd => hfile fd' (by rw [hpc]; exact hfd)⟩
  | write env fd piece pieces hpc hdev =>
      exact ⟨.same rfl rfl rfl rfl, hsock, fun fd' hfd => hfile fd' (by rw [hpc]; exact hfd)⟩
  | writeElsewhere ok fd piece pieces hpc hdev =>
      exact ⟨.same rfl rfl rfl rfl, hsock, fun fd' hfd => hfile fd' (by rw [hpc]; exact hfd)⟩
  | readMore fd hpc =>
      exact ⟨.same rfl rfl rfl rfl, hsock, fun fd' hfd => hfile fd' (by rw [hpc]; exact hfd)⟩
  | sent fd hpc =>
      exact ⟨.same rfl rfl rfl rfl, hsock, fun fd' hfd => hfile fd' (by rw [hpc]; exact hfd)⟩
  | _ => exact ⟨.same rfl rfl rfl rfl, hsock, fun fd hfd => nomatch hfd⟩

/-- So does the main thread. -/
theorem spares_main {s t : Server} {m : MainAction} (hmain : MainStep s m t) :
    Spares (s.main = .cleanup .closeServer) s.shared t.shared := by
  cases hmain with
  | accepted hpc =>
      have hopens : Spares False s.shared
          { s.shared with fds := openAs s.shared.fds (.conn s.handlers.length) } :=
        spares_openAs (fun heq => nomatch heq)
      exact (hopens.trans spares_logged rfl).mono False.elim
  | notListening hpc hgo hclosed => exact spares_logged.mono False.elim
  | acceptFailed result hpc hne => exact spares_logged.mono False.elim
  | cleanup stage sh' stage' hpc hclean =>
      refine (spares_cleanup hclean).mono ?_
      rintro rfl
      exact hpc
  | _ => exact .same rfl rfl rfl rfl

end Spares

/-- No thread has closed the listening socket: none is past that place in `cleanupMain`. -/
def ServerOpen (s : Server) : Prop :=
  s.main ≠ .cleanup .exit ∧ ∀ h ∈ s.handlers, ∀ why, h.pc ≠ .logAndExit why .exit

/-- The invariant: `own` is what the process owns, but for the listening socket once it
    has been closed, and no handler has a number of it. -/
structure KeepsOwn (own : Nat → Prop) (listening : Int) (s : Server) : Prop where
  server   : s.shared.serverSockFd = listening
  owned    : ∀ n, owner s.shared.fds n = some .process → own n
  kept     : ∀ n, own n → (n : Int) ≠ listening ∨ listening ≤ 0 ∨ ServerOpen s →
    owner s.shared.fds n = some .process
  handlers : AllAt (fun _ h => HandlerSpares s.shared h) s.handlers
  accepted : ∀ fd, s.main = .create fd ∨ s.main = .start fd → Spared s.shared fd
  fresh    : s.shared.syslog = true →
    s.handlers = [] ∧ ∀ fd, s.main ≠ .create fd ∧ s.main ≠ .start fd
  closes   : ∀ c ∈ s.shared.closes, ∀ w, c.hit = some w → whose w ≠ none

section KeepsOwn

variable {own : Nat → Prop} {listening : Int} {s t : Server} {a : Action}

/-- Whoever closes the listening socket, or has closed it, has closed it afterwards. -/
theorem main_past {m : MainAction} {stage : Cleanup} (hmain : MainStep s m t)
    (hpc : s.main = .cleanup stage) (hstage : stage = .closeServer ∨ stage = .exit) :
    t.main = .cleanup .exit := by
  obtain ⟨rfl, sh', stage', hclean, rfl⟩ := mainStep_at_cleanup hmain hpc
  rcases hstage with rfl | rfl
  · cases hclean
    rfl
  · cases hclean
    rfl

theorem handler_past {canJoin : Option Nat → Bool} {i : Nat} {sh sh' : Shared} {h h' : Handler}
    {a : HandlerAction} {why : AesdClient.Fatal} {stage : Cleanup}
    (hstep : HandlerStep canJoin i sh h a sh' h') : h.pc = .logAndExit why stage →
      stage = .closeServer ∨ stage = .exit → h'.pc = .logAndExit why .exit := by
  cases hstep with
  | cleanup why₁ stage₁ sh' stage' hpc hclean =>
      intro hat hstage
      cases hpc.symm.trans hat
      rcases hstage with rfl | rfl
      · cases hclean
        rfl
      · cases hclean
        rfl
  | _ =>
      have hpc := ‹h.pc = _›
      intro hat
      cases hpc.symm.trans hat

theorem ServerOpen.back (hnext : next s a = some t) (hopen : ServerOpen t) : ServerOpen s := by
  obtain ⟨hmain', hhandlers'⟩ := hopen
  rcases next_cases hnext with ⟨-, rfl⟩ | ⟨m, rfl, hmain⟩ |
    ⟨i, ha, hd, sh', hd', rfl, hget, hstep, rfl⟩
  · exact ⟨hmain', hhandlers'⟩
  · obtain ⟨-, -, more, hmore⟩ := mainStep_frame hmain
    refine ⟨fun hpc => hmain' (main_past hmain hpc (Or.inr rfl)), ?_⟩
    intro h hmem
    refine hhandlers' h ?_
    rw [hmore]
    exact List.mem_append_left more hmem
  · have hlt : i < s.handlers.length := (List.getElem?_eq_some_iff.mp hget).1
    refine ⟨hmain', ?_⟩
    intro h hmem why hpc
    obtain ⟨j, hj⟩ := List.mem_iff_getElem?.mp hmem
    by_cases hji : j = i
    · cases (hji ▸ hj).symm.trans hget
      exact hhandlers' hd' (List.mem_set hlt hd') why (handler_past hstep hpc (Or.inr rfl))
    · have hkeep : (s.handlers.set i hd')[j]? = some h :=
        (List.getElem?_set_ne (fun heq => hji heq.symm)).trans hj
      exact hhandlers' h (List.mem_of_getElem? hkeep) why hpc

/-- Once there is a handler, `syslog` has connected. -/
theorem KeepsOwn.connected (hs : KeepsOwn own listening s) {i : Nat} {h : Handler}
    (hget : s.handlers[i]? = some h) : s.shared.syslog = false := by
  rw [← Bool.not_eq_true]
  intro hlog
  rw [(hs.fresh hlog).1] at hget
  exact nomatch hget

/-- Number 0 is never closed: `cleanupMain` asks whether `serverSockFd` is positive. -/
theorem KeepsOwn.zero (hs : KeepsOwn own listening s) (hzero : own 0) :
    owner s.shared.fds 0 = some .process := by
  refine hs.kept 0 hzero ?_
  by_cases hlistening : listening = 0
  · exact Or.inr (Or.inl (Int.le_of_eq hlistening))
  · exact Or.inl fun heq => hlistening heq.symm

/-- What the step does to the process's own. -/
theorem KeepsOwn.table (hs : KeepsOwn own listening s) {closing : Prop}
    (hspares : Spares closing s.shared t.shared) (hclosing : closing → ¬ ServerOpen t)
    (hback : ServerOpen t → ServerOpen s) :
    (∀ n, owner t.shared.fds n = some .process → own n) ∧
      (∀ n, own n → (n : Int) ≠ listening ∨ listening ≤ 0 ∨ ServerOpen t →
        owner t.shared.fds n = some .process) ∧
      ∀ c ∈ t.shared.closes, ∀ w, c.hit = some w → whose w ≠ none := by
  refine ⟨?_, ?_, ?_⟩
  · intro n hown
    rcases hspares.noneNew n _ rfl hown with hold | ⟨hno, -⟩
    · exact hs.owned n hold
    · exact nomatch hno
  · intro n hn hcase
    have hold := hs.kept n hn (hcase.imp_right (Or.imp_right hback))
    rcases hspares.stays n _ rfl hold with hstays | ⟨hclose, hpos, heq⟩
    · exact hstays
    · rw [hs.server] at hpos heq
      rcases hcase with hne | hzero | hopen
      · exact absurd heq hne
      · exact absurd hpos (Int.not_lt.mpr hzero)
      · exact absurd hopen (hclosing hclose)
  · intro c hc
    rcases hspares.closes c hc with hold | hhit
    · exact hs.closes c hold
    · exact hhit

/-- The main thread's numbers: a connection that it has accepted and not yet handed on. -/
theorem KeepsOwn.main {m : MainAction} (hs : KeepsOwn own listening s) (hmain : MainStep s m t) :
    AllAt (fun _ h => HandlerSpares t.shared h) t.handlers ∧
      (∀ fd, t.main = .create fd ∨ t.main = .start fd → Spared t.shared fd) ∧
      (t.shared.syslog = true → t.handlers = [] ∧
        ∀ fd, t.main ≠ .create fd ∧ t.main ≠ .start fd) := by
  have hspares := spares_main hmain
  have hold : AllAt (fun _ h => HandlerSpares t.shared h) s.handlers := by
    intro j h hget
    have hlog := hs.connected hget
    obtain ⟨hsock, hfile⟩ := hs.handlers j h hget
    exact ⟨hsock.step hspares hlog, fun fd hfd => (hfile fd hfd).step hspares hlog⟩
  cases hmain with
  | accepted hpc =>
      refine ⟨hold, ?_, ?_⟩
      · rintro fd (hfd | hfd)
        · rw [← MainPc.create.inj hfd]
          intro w hown
          have hconn := (logged_frame { s.shared with
            fds := openAs s.shared.fds (.conn s.handlers.length) }).opened
            (lowestFree s.shared.fds) _ ((owner_openAs ..).trans (if_pos rfl))
          rw [Option.some.inj (hown.symm.trans hconn)]
          rintro ⟨⟩
        · cases hfd
      · intro hlog
        have hbefore := hspares.syslog hlog
        have hafter : (logged { s.shared with
            fds := openAs s.shared.fds (.conn s.handlers.length) }).syslog = true := hlog
        rw [logged, if_pos hbefore] at hafter
        cases hafter
  | counted fd hpc =>
      refine ⟨hold, ?_, ?_⟩
      · rintro fd' (hfd | hfd)
        · cases hfd
        · rw [← MainPc.start.inj hfd]
          exact hs.accepted fd (Or.inl hpc)
      · intro hlog
        exact absurd hpc ((hs.fresh hlog).2 fd).1
  | created fd ok hpc =>
      refine ⟨hold.append ⟨hs.accepted fd (Or.inr hpc), ?_⟩ fun _ _ _ _ hk => hk,
        ?_, ?_⟩
      · cases ok <;> rintro fd' ⟨⟩
      · rintro fd' (hfd | hfd) <;> cases hfd
      · intro hlog
        exact absurd hpc ((hs.fresh hlog).2 fd).2
  | _ =>
      refine ⟨hold, ?_, ?_⟩
      · rintro fd (hfd | hfd) <;> cases hfd
      · exact fun hlog => ⟨(hs.fresh (hspares.syslog hlog)).1,
          fun fd => ⟨by rintro ⟨⟩, by rintro ⟨⟩⟩⟩

/-- The step lemma. -/
theorem KeepsOwn.next (hs : KeepsOwn own listening s) (hnext : next s a = some t) :
    KeepsOwn own listening t := by
  have hback : ServerOpen t → ServerOpen s := ServerOpen.back hnext
  rcases next_cases hnext with ⟨-, rfl⟩ | ⟨m, rfl, hmain⟩ |
    ⟨i, ha, hd, sh', hd', rfl, hget, hstep, rfl⟩
  · exact ⟨hs.server, hs.owned,
      fun n hn hcase => hs.kept n hn (hcase.imp_right (Or.imp_right hback)),
      hs.handlers, hs.accepted, hs.fresh, hs.closes⟩
  · have hspares := spares_main hmain
    obtain ⟨howned, hkept, hcloses⟩ := hs.table hspares
      (fun hpc hopen => hopen.1 (main_past hmain hpc (Or.inl rfl))) hback
    obtain ⟨hhandlers, haccepted, hfresh⟩ := hs.main hmain
    exact ⟨hspares.server.trans hs.server, howned, hkept, hhandlers, haccepted, hfresh, hcloses⟩
  · have hlt : i < s.handlers.length := (List.getElem?_eq_some_iff.mp hget).1
    have hlog := hs.connected hget
    obtain ⟨hspares, hself⟩ := spares_step hlog (hs.handlers i hd hget) hstep
    obtain ⟨howned, hkept, hcloses⟩ := @KeepsOwn.table own listening s
      { s with shared := sh', handlers := s.handlers.set i hd' } hs _ hspares
      (fun ⟨why, hpc⟩ hopen => hopen.2 hd' (List.mem_set hlt hd') why
        (handler_past hstep hpc (Or.inl rfl))) hback
    refine ⟨hspares.server.trans hs.server, howned, hkept, hs.handlers.set hself ?_, ?_, ?_,
      hcloses⟩
    · rintro j k - - ⟨hsock, hfile⟩
      exact ⟨hsock.step hspares hlog, fun fd hfd => (hfile fd hfd).step hspares hlog⟩
    · exact fun fd hfd => (hs.accepted fd hfd).step hspares hlog
    · intro hafter
      exact nomatch hlog.symm.trans (hspares.syslog hafter)

theorem KeepsOwn.of_starts (hs : Starts s) :
    KeepsOwn (fun n => owner s.shared.fds n = some .process) s.shared.serverSockFd s := by
  refine ⟨rfl, fun _ hown => hown, fun _ hown _ => hown, ?_, ?_, ?_, ?_⟩
  · rw [hs.handlers]
    exact allAt_nil _
  · intro fd hfd
    rw [hs.main] at hfd
    rcases hfd with heq | heq <;> exact nomatch heq
  · rw [hs.main]
    exact fun _ => ⟨hs.handlers, fun fd => ⟨fun heq => (nomatch heq), fun heq => (nomatch heq)⟩⟩
  · rw [hs.closes]
    exact fun c hc => absurd hc List.not_mem_nil

end KeepsOwn

/-- What is open when the accept loop is reached. -/
theorem Wired.open_iff {daemon devNull : Bool} {opened : List Bool} {p : Process}
    (hp : Wired daemon devNull opened p) (n : Nat) : owner p.fds n ≠ none ↔
      (n : Int) = p.serverSockFd ∨ n = p.pipeClientHandler.1 ∨ n = p.pipeClientHandler.2 ∨
        n ≤ 2 ∨ wasOpen opened n = true := by
  constructor
  · intro hopen
    obtain ⟨x, hx⟩ := Option.ne_none_iff_exists'.mp hopen
    cases x with
    | listening => exact Or.inl ((hp.listening n).mp hx)
    | pipeRead => exact Or.inr (Or.inl ((hp.pipeRead n).mp hx))
    | pipeWrite => exact Or.inr (Or.inr (Or.inl ((hp.pipeWrite n).mp hx)))
    | devNull => exact Or.inr (Or.inr (Or.inr (Or.inl ((hp.devNull n).mp hx).2.2)))
    | inherited => exact Or.inr (Or.inr (Or.inr (Or.inr ((hp.inherited n).mp hx).1)))
  · rintro (hn | hn | hn | hn | hn)
    · rw [(hp.listening n).mpr hn]
      exact Option.some_ne_none _
    · rw [(hp.pipeRead n).mpr hn]
      exact Option.some_ne_none _
    · rw [(hp.pipeWrite n).mpr hn]
      exact Option.some_ne_none _
    · exact hp.streams n hn
    · by_cases hstream : n ≤ 2
      · exact hp.streams n hstream
      · rw [(hp.inherited n).mpr ⟨hn, fun hboth => hstream hboth.2⟩]
        exact Option.some_ne_none _

/-- Every call succeeds. -/
def StartEnv.granted : StartEnv := ⟨.child, true, true, true, true, true, true⟩

/-- The daemon: the socket is 3, the pipe 4 and 5. -/
def daemonProcess : Process :=
  ⟨[some .devNull, some .devNull, some .devNull, some .listening, some .pipeRead, some .pipeWrite],
    3, (4, 5)⟩

end AesdStartup
