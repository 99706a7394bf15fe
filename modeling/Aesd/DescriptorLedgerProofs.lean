import Aesd.LockProofs
import Aesd.StartupProofs

/-! # No descriptor outlives its connection

    A connection costs two descriptors, its socket and, inside the critical
    section, the device file.  The handler of another connection may close them
    (`AesdOwnership`), but nothing keeps one open that nobody uses: `HeldBy` says
    of a handler that what is open for its connection is the number it still has
    to close.

    A handler opens only for its own connection (`OpensOnly`), so the others keep
    `HeldBy`, and what the process then has open is bounded by the threads that
    have not ended, however many connections it has served before. -/

namespace AesdLedger

open AesdClient AesdServer AesdTemperary AesdLock AesdThreadTable AesdOwnership DescriptorTable
open Transition
open AesdStartup (KeepsOwn StartEnv daemonProcess runAsDaemon serverOf starts_serverOf startup
  startup_wired)

/-- In `logAndExit`, from between `fopen` and `fclose`. -/
def leftOpen : Pc → Bool
  | .logAndExit .seekFailed _ | .logAndExit .readFailed _ => true
  | _ => false

/-- A thread that has a file to close is not in `logAndExit`. -/
theorem leftOpen_of_fileOf {pc : Pc} {fd : Nat} (h : fileOf pc = some fd) :
    leftOpen pc = false := by
  cases pc with
  | logAndExit why stage => exact nomatch h
  | _ => rfl

/-- The thread still has to run `cleanupClientHandler`, or was never started. -/
def unfinished (h : Handler) : Bool := h.pc != .done

/-- What is open for connection `i`, whose handler is `h`. -/
structure HeldBy (fds : List (Option Owner)) (i : Nat) (h : Handler) : Prop where
  sock : ∀ n, owner fds n = some (.conn i) → h.newSockFd = n ∧ h.pc ≠ .done
  file : ∀ n, owner fds n = some (.file i) → fileOf h.pc = some n ∨ leftOpen h.pc = true
  once : ∀ n m, owner fds n = some (.file i) → owner fds m = some (.file i) → n = m

/-- Nothing is opened but for `new`. -/
def OpensOnly (new : Owner → Prop) (fds fds' : List (Option Owner)) : Prop :=
  ∀ n w, ¬ new w → owner fds' n = some w → owner fds n = some w

section Table

variable {new : Owner → Prop} {fds fds' fds'' : List (Option Owner)} {i : Nat} {h h' : Handler}

theorem owner_of_close {fd n : Nat} {w : Owner} (hown : owner (close fds fd) n = some w) :
    n ≠ fd ∧ owner fds n = some w := by
  rw [owner_close] at hown
  by_cases hn : n = fd
  · rw [if_pos hn] at hown
    exact nomatch hown
  · rw [if_neg hn] at hown
    exact ⟨hn, hown⟩

theorem owner_of_openAs {n : Nat} {w w' : Owner} (hown : owner (openAs fds w') n = some w) :
    n = lowestFree fds ∧ w = w' ∨ owner fds n = some w := by
  rw [owner_openAs] at hown
  by_cases hn : n = lowestFree fds
  · rw [if_pos hn] at hown
    exact Or.inl ⟨hn, (Option.some.inj hown).symm⟩
  · rw [if_neg hn] at hown
    exact Or.inr hown

theorem opensOnly_refl : OpensOnly new fds fds := fun _ _ _ hown => hown

theorem opensOnly_close (fd : Nat) : OpensOnly new fds (close fds fd) :=
  fun _ _ _ hown => (owner_of_close hown).2

theorem opensOnly_openAs {w : Owner} (hw : new w) : OpensOnly new fds (openAs fds w) := by
  intro n w' hnew hown
  rcases owner_of_openAs hown with ⟨-, heq⟩ | hold
  · exact absurd (heq ▸ hw) hnew
  · exact hold

theorem OpensOnly.trans (h : OpensOnly new fds fds') (h' : OpensOnly new fds' fds'') :
    OpensOnly new fds fds'' :=
  fun n w hnew hown => h n w hnew (h' n w hnew hown)

theorem opensOnly_closeServer (serverSockFd : Int) :
    OpensOnly new fds (closeServer fds serverSockFd) := by
  rw [closeServer]
  split
  · exact opensOnly_close _
  · exact opensOnly_refl

/-- **STABILITY**: what others open is not for this connection. -/
theorem HeldBy.stable (hheld : HeldBy fds i h) (hnew : ∀ w, whose w = some i → ¬ new w)
    (hopens : OpensOnly new fds fds') : HeldBy fds' i h := by
  have hconn := hnew (.conn i) rfl
  have hfile := hnew (.file i) rfl
  refine ⟨?_, ?_, ?_⟩
  · exact fun n hown => hheld.sock n (hopens n _ hconn hown)
  · exact fun n hown => hheld.file n (hopens n _ hfile hown)
  · exact fun n m hn hm => hheld.once n m (hopens n _ hfile hn) (hopens m _ hfile hm)

/-- `cleanupMain` opens nothing. -/
theorem opensOnly_cleanup {canJoin : Option Nat → Bool} {sh sh' : Shared} {stage : Cleanup}
    {stage' : Option Cleanup} (hclean : cleanupStep canJoin sh stage = some (sh', stage')) :
    OpensOnly new sh.fds sh'.fds := by
  rw [cleanupStep_fds hclean]
  split
  · exact opensOnly_closeServer _
  · exact opensOnly_refl

/-- A step that opens and closes nothing. -/
theorem HeldBy.move (hheld : HeldBy fds i h) (hsock : h'.newSockFd = h.newSockFd)
    (hdone : h'.pc ≠ .done)
    (hfile : ∀ n, fileOf h.pc = some n ∨ leftOpen h.pc = true →
      fileOf h'.pc = some n ∨ leftOpen h'.pc = true) : HeldBy fds i h' := by
  refine ⟨?_, fun n hown => hfile n (hheld.file n hown), hheld.once⟩
  intro n hown
  exact ⟨hsock.trans (hheld.sock n hown).1, hdone⟩

/-- A place without a file. -/
theorem HeldBy.noFile (hheld : HeldBy fds i h) (hfile : fileOf h.pc = none)
    (hleft : leftOpen h.pc = false) (n : Nat) : owner fds n ≠ some (.file i) := by
  intro hown
  rcases hheld.file n hown with hn | hl
  · exact nomatch hfile.symm.trans hn
  · exact nomatch hleft.symm.trans hl

/-- `fopen`, when no file is open. -/
theorem HeldBy.fopen (hheld : HeldBy fds i h) (hnone : ∀ n, owner fds n ≠ some (.file i))
    (hsock : h'.newSockFd = h.newSockFd) (hfile : fileOf h'.pc = some (lowestFree fds)) :
    HeldBy (openAs fds (.file i)) i h' := by
  have honly : ∀ n, owner (openAs fds (.file i)) n = some (.file i) → n = lowestFree fds := by
    intro n hown
    rcases owner_of_openAs hown with ⟨hn, -⟩ | hold
    · exact hn
    · exact absurd hold (hnone n)
  refine ⟨?_, ?_, ?_⟩
  · intro n hown
    rcases owner_of_openAs hown with ⟨-, heq⟩ | hold
    · exact nomatch heq
    · refine ⟨hsock.trans (hheld.sock n hold).1, ?_⟩
      intro hpc
      rw [hpc] at hfile
      exact nomatch hfile
  · intro n hown
    exact Or.inl ((honly n hown) ▸ hfile)
  · intro n m hn hm
    rw [honly n hn, honly m hm]

/-- `fclose` takes the only file away. -/
theorem HeldBy.noFile_close (hheld : HeldBy fds i h) {fd : Nat} (hfd : fileOf h.pc = some fd)
    (n : Nat) : owner (close fds fd) n ≠ some (.file i) := by
  intro hown
  obtain ⟨hn, hold⟩ := owner_of_close hown
  rcases hheld.file n hold with hfile | hleft
  · exact hn (Option.some.inj (hfile.symm.trans hfd))
  · exact nomatch (leftOpen_of_fileOf hfd).symm.trans hleft

theorem HeldBy.close (hheld : HeldBy fds i h) (fd : Nat) : HeldBy (close fds fd) i h := by
  refine ⟨?_, ?_, ?_⟩
  · exact fun n hown => hheld.sock n (owner_of_close hown).2
  · exact fun n hown => hheld.file n (owner_of_close hown).2
  · exact fun n m hn hm => hheld.once n m (owner_of_close hn).2 (owner_of_close hm).2

/-- The step lemma of a handler. -/
theorem HeldBy.step {canJoin : Option Nat → Bool} {sh sh' : Shared} {a : HandlerAction}
    (hheld : HeldBy sh.fds i h) (hpos : h.newSockFd ≠ 0)
    (hstep : HandlerStep canJoin i sh h a sh' h') :
    HeldBy sh'.fds i h' ∧ OpensOnly (fun w => whose w = some i) sh.fds sh'.fds := by
  cases hstep with
  | pollNeither hpc => exact ⟨hheld, opensOnly_refl⟩
  | receivedClosed granted chunk b hpc hlen hrecv =>
      refine ⟨(hheld.close _).move rfl (fun heq => nomatch heq) ?_, opensOnly_close _⟩
      rw [hpc]
      exact fun n hn => hn
  | seek after command hpc hact =>
      have hnone := hheld.noFile (by rw [hpc]; rfl) (by rw [hpc]; rfl)
      exact ⟨hheld.fopen hnone rfl rfl, opensOnly_openAs rfl⟩
  | data after bytes hpc hact =>
      have hnone := hheld.noFile (by rw [hpc]; rfl) (by rw [hpc]; rfl)
      exact ⟨hheld.fopen hnone rfl rfl, opensOnly_openAs rfl⟩
  | reopen fd hpc =>
      have hnone := hheld.noFile_close (show fileOf h.pc = some fd by rw [hpc]; rfl)
      exact ⟨(hheld.close fd).fopen hnone rfl rfl,
        (opensOnly_close fd).trans (opensOnly_openAs rfl)⟩
  | readEnd fd hpc =>
      have hnone := hheld.noFile_close (show fileOf h.pc = some fd by rw [hpc]; rfl)
      refine ⟨⟨?_, fun n hown => absurd hown (hnone n), (hheld.close fd).once⟩, opensOnly_close fd⟩
      exact fun n hown => ⟨((hheld.close fd).sock n hown).1, fun heq => nomatch heq⟩
  | finish hpc =>
      have hnone := hheld.noFile (by rw [hpc]; rfl) (by rw [hpc]; rfl)
      rw [if_pos (Nat.pos_of_ne_zero hpos)]
      refine ⟨⟨?_, ?_, (hheld.close _).once⟩, opensOnly_close _⟩
      · intro n hown
        obtain ⟨hn, hold⟩ := owner_of_close hown
        exact absurd (hheld.sock n hold).1.symm hn
      · exact fun n hown => absurd (owner_of_close hown).2 (hnone n)
  | cleanup why stage sh' stage' hpc hclean =>
      have hnothing : OpensOnly (fun _ => False) sh.fds sh'.fds := opensOnly_cleanup hclean
      have hstill := hheld.stable (fun _ _ => id) hnothing
      refine ⟨hstill.move rfl (fun heq => nomatch heq) ?_, opensOnly_cleanup hclean⟩
      rw [hpc]
      intro n hn
      cases why <;> exact hn
  | seekElsewhere fd command hpc hdev =>
      exact ⟨hheld.move rfl (fun heq => nomatch heq) fun _ _ => Or.inr rfl, opensOnly_refl⟩
  | seekFailed copied fd command hpc hdev hneg =>
      exact ⟨hheld.move rfl (fun heq => nomatch heq) fun _ _ => Or.inr rfl, opensOnly_refl⟩
  | readFailed fd hpc =>
      exact ⟨hheld.move rfl (fun heq => nomatch heq) fun _ _ => Or.inr rfl, opensOnly_refl⟩
  | receivedFatal granted chunk why hpc hlen hrecv =>
      refine ⟨hheld.move rfl (fun heq => nomatch heq) ?_, opensOnly_refl⟩
      rw [hpc]
      rintro n (hn | hn) <;> exact nomatch hn
  | _ =>
      have hpc := ‹h.pc = _›
      refine ⟨hheld.move rfl (fun heq => nomatch heq) ?_, opensOnly_refl⟩
      rw [hpc]
      exact fun n hn => hn

end Table

/-! ## The whole process -/

/-- The invariant: the handlers' part, what a connection without a handler has, and the
    connection of `syslog`, which was opened if `log` says that it could be. -/
structure Ledger (log : Bool) (s : Server) : Prop where
  handlers : AllAt (HeldBy s.shared.fds) s.handlers
  socks    : ∀ n i, s.handlers.length ≤ i → owner s.shared.fds n = some (.conn i) →
    (s.main = .create n ∨ s.main = .start n) ∧ i = s.handlers.length
  files    : ∀ n i, s.handlers.length ≤ i → owner s.shared.fds n ≠ some (.file i)
  logs     : ∀ n, owner s.shared.fds n = some .log → log = true ∧ s.shared.syslog = false
  logOnce  : ∀ n m, owner s.shared.fds n = some .log → owner s.shared.fds m = some .log → n = m
  syslog   : s.shared.syslog = true → log = true

section Ledger

variable {log : Bool} {s t : Server}

/-- Nothing new is open, and who was handing over a connection still is. -/
theorem Ledger.fewer (hs : Ledger log s)
    (hopens : OpensOnly (fun _ => False) s.shared.fds t.shared.fds)
    (hhandlers : t.handlers = s.handlers)
    (hmain : ∀ n, s.main = .create n ∨ s.main = .start n → t.main = .create n ∨ t.main = .start n)
    (hlog : t.shared.syslog = s.shared.syslog) : Ledger log t := by
  refine ⟨?_, ?_, ?_, ?_, ?_, ?_⟩
  · rw [hhandlers]
    exact hs.handlers.mono fun j h _ hheld => hheld.stable (fun _ _ => id) hopens
  · intro n i hi hown
    rw [hhandlers] at hi ⊢
    obtain ⟨hn, hlen⟩ := hs.socks n i hi (hopens n _ id hown)
    exact ⟨hmain n hn, hlen⟩
  · intro n i hi hown
    rw [hhandlers] at hi
    exact hs.files n i hi (hopens n _ id hown)
  · intro n hown
    rw [hlog]
    exact hs.logs n (hopens n _ id hown)
  · exact fun n m hn hm => hs.logOnce n m (hopens n _ id hn) (hopens m _ id hm)
  · rw [hlog]
    exact hs.syslog

/-- `syslog` opens its connection when it is not open. -/
theorem Ledger.logged (hs : Ledger log s) (main : MainPc)
    (hmain : ∀ n, s.main = .create n ∨ s.main = .start n → main = .create n ∨ main = .start n) :
    Ledger log { s with main := main, shared := logged s.shared } := by
  by_cases hlog : s.shared.syslog = true
  · rw [AesdServer.logged, if_pos hlog]
    have hopens : OpensOnly (fun w => w = .log) s.shared.fds (openAs s.shared.fds .log) :=
      opensOnly_openAs rfl
    have hnone : ∀ n, owner s.shared.fds n ≠ some .log := by
      intro n hown
      cases hlog.symm.trans (hs.logs n hown).2
    have honly : ∀ n, owner (openAs s.shared.fds .log) n = some .log →
        n = lowestFree s.shared.fds := by
      intro n hown
      rcases owner_of_openAs hown with ⟨hn, -⟩ | hold
      · exact hn
      · exact absurd hold (hnone n)
    refine ⟨?_, ?_, ?_, ?_, ?_, ?_⟩
    · refine hs.handlers.mono fun j h _ hheld => hheld.stable ?_ hopens
      rintro w hw rfl
      cases hw
    · intro n i hi hown
      obtain ⟨hn, hlen⟩ := hs.socks n i hi (hopens n _ (by rintro ⟨⟩) hown)
      exact ⟨hmain n hn, hlen⟩
    · exact fun n i hi hown => hs.files n i hi (hopens n _ (by rintro ⟨⟩) hown)
    · exact fun n _ => ⟨hs.syslog hlog, rfl⟩
    · exact fun n m hn hm => (honly n hn).trans (honly m hm).symm
    · rintro ⟨⟩
  · rw [AesdServer.logged, if_neg hlog]
    exact hs.fewer opensOnly_refl rfl hmain rfl

/-- The socket of an accepted connection is the one `main` is about to hand over. -/
theorem Ledger.accept (hs : Ledger log s) (hmain : s.main = .accept) :
    Ledger log { s with
      main := .create (lowestFree s.shared.fds)
      shared := { s.shared with fds := openAs s.shared.fds (.conn s.handlers.length) } } := by
  have hopens : OpensOnly (fun w => w = .conn s.handlers.length) s.shared.fds
      (openAs s.shared.fds (.conn s.handlers.length)) := opensOnly_openAs rfl
  refine ⟨?_, ?_, ?_, ?_, ?_, hs.syslog⟩
  · intro j h hget
    have hlt := (List.getElem?_eq_some_iff.mp hget).1
    refine (hs.handlers j h hget).stable ?_ hopens
    rintro w hw rfl
    exact Nat.ne_of_gt hlt (Option.some.inj hw)
  · intro n i hi hown
    rcases owner_of_openAs hown with ⟨hn, hw⟩ | hold
    · exact ⟨Or.inl (congrArg MainPc.create hn.symm), Owner.conn.inj hw⟩
    · rcases (hs.socks n i hi hold).1 with heq | heq
      · exact nomatch hmain.symm.trans heq
      · exact nomatch hmain.symm.trans heq
  · exact fun n i hi hown => hs.files n i hi (hopens n _ (fun heq => nomatch heq) hown)
  · exact fun n hown => hs.logs n (hopens n _ (fun heq => nomatch heq) hown)
  · exact fun n m hn hm => hs.logOnce n m (hopens n _ (fun heq => nomatch heq) hn)
      (hopens m _ (fun heq => nomatch heq) hm)

/-- Its handler takes it over, even when there is no thread to run it. -/
theorem Ledger.create (hs : Ledger log s) {fd : Nat} (hmain : s.main = .start fd)
    (ok : Bool) (threads : List (Option Nat)) :
    Ledger log { s with
      main := .loop
      shared := { s.shared with clientThreads := threads }
      handlers := s.handlers ++
        [⟨fd, aesdTemperaryBufferInit, if ok then .poll else .notStarted⟩] } := by
  have hfile := fun n => hs.files n s.handlers.length (Nat.le_refl _)
  refine ⟨hs.handlers.append ⟨?_, ?_, ?_⟩ (fun _ _ _ _ hk => hk), ?_, ?_, hs.logs, hs.logOnce,
    hs.syslog⟩
  · intro n hown
    refine ⟨?_, ?_⟩
    · rcases (hs.socks n _ (Nat.le_refl _) hown).1 with heq | heq
      · exact nomatch hmain.symm.trans heq
      · exact MainPc.start.inj (hmain.symm.trans heq)
    · cases ok <;> exact fun heq => nomatch heq
  · exact fun n hown => absurd hown (hfile n)
  · exact fun n _ hown => absurd hown (hfile n)
  · intro n i hi hown
    rw [List.length_append, List.length_singleton] at hi
    have heq := (hs.socks n i (by omega) hown).2
    omega
  · intro n i hi
    rw [List.length_append] at hi
    exact hs.files n i (by omega)

theorem Ledger.main {m : MainAction} (hs : Ledger log s) (hmain : MainStep s m t) :
    Ledger log t := by
  cases hmain with
  | accepted hpc => exact (hs.accept hpc).logged _ fun _ hn => hn
  | notListening hpc hgo hclosed =>
      exact hs.logged _ fun n hn => by rw [hpc] at hn; rcases hn with heq | heq <;> cases heq
  | acceptFailed result hpc hne =>
      exact hs.logged _ fun n hn => by rw [hpc] at hn; rcases hn with heq | heq <;> cases heq
  | counted fd hpc =>
      refine hs.fewer opensOnly_refl rfl ?_ rfl
      rintro n (hn | hn)
      · exact Or.inr (congrArg MainPc.start (MainPc.create.inj (hpc.symm.trans hn)))
      · exact nomatch hpc.symm.trans hn
  | created fd ok hpc => exact hs.create hpc ok _
  | cleanup stage sh' stage' hpc hclean =>
      refine hs.fewer (opensOnly_cleanup hclean) rfl ?_ (cleanupStep_frame hclean).syslog
      rintro n (hn | hn) <;> exact nomatch hpc.symm.trans hn
  | stopped hpc hstop =>
      refine hs.fewer opensOnly_refl rfl ?_ rfl
      rintro n (hn | hn) <;> exact nomatch hpc.symm.trans hn
  | goesOn hpc hgo hopen =>
      refine hs.fewer opensOnly_refl rfl ?_ rfl
      rintro n (hn | hn) <;> exact nomatch hpc.symm.trans hn
  | acceptStopped hpc hstop =>
      refine hs.fewer opensOnly_refl rfl ?_ rfl
      rintro n (hn | hn) <;> exact nomatch hpc.symm.trans hn

/-- No handler opens the connection of `syslog`. -/
theorem handlerStep_syslog {canJoin : Option Nat → Bool} {i : Nat} {sh sh' : Shared}
    {h h' : Handler} {a : HandlerAction} (hstep : HandlerStep canJoin i sh h a sh' h') :
    sh'.syslog = sh.syslog := by
  cases hstep with
  | finish hpc => split <;> rfl
  | cleanup why stage sh' stage' hpc hclean => exact (cleanupStep_frame hclean).syslog
  | _ => rfl

/-- A handler moves; what is open for others it can only close. -/
theorem Ledger.handler {i : Nat} {a : HandlerAction} {hd hd' : Handler}
    {sh' : Shared} (hs : Ledger log s) (hpos : hd.newSockFd ≠ 0) (hget : s.handlers[i]? = some hd)
    (hstep : HandlerStep (canJoin s (some i)) i s.shared hd a sh' hd') :
    Ledger log { s with shared := sh', handlers := s.handlers.set i hd' } := by
  have hlt := (List.getElem?_eq_some_iff.mp hget).1
  have hlog := handlerStep_syslog hstep
  obtain ⟨hself, hopens⟩ := (hs.handlers i hd hget).step hpos hstep
  have hlogs : ∀ n, owner sh'.fds n = some .log → owner s.shared.fds n = some .log :=
    fun n hown => hopens n _ (fun heq => nomatch heq) hown
  refine ⟨hs.handlers.set hself fun j h hji _ hheld => hheld.stable ?_ hopens, ?_, ?_, ?_, ?_, ?_⟩
  · exact fun w hw hi => hji (Option.some.inj (hw.symm.trans hi))
  · intro n j hj hown
    rw [List.length_set] at hj ⊢
    refine hs.socks n j hj (hopens n _ ?_ hown)
    exact fun heq => Nat.ne_of_gt (Nat.lt_of_lt_of_le hlt hj) (Option.some.inj heq)
  · intro n j hj hown
    rw [List.length_set] at hj
    refine hs.files n j hj (hopens n _ ?_ hown)
    exact fun heq => Nat.ne_of_gt (Nat.lt_of_lt_of_le hlt hj) (Option.some.inj heq)
  · intro n hown
    show _ ∧ sh'.syslog = false
    rw [hlog]
    exact hs.logs n (hlogs n hown)
  · exact fun n m hn hm => hs.logOnce n m (hlogs n hn) (hlogs m hm)
  · show sh'.syslog = true → _
    rw [hlog]
    exact hs.syslog

/-- The step lemma; number 0 is the process's, so `cleanupClientHandler` closes. -/
theorem Ledger.next {own : Nat → Prop} {listening : Int} {a : Action} (hs : Ledger log s)
    (hkept : KeepsOwn own listening s) (hzero : own 0) (hnext : next s a = some t) :
    Ledger log t := by
  rcases next_cases hnext with ⟨-, rfl⟩ | ⟨m, rfl, hmain⟩ |
    ⟨i, ha, hd, sh', hd', rfl, hget, hstep, rfl⟩
  · exact ⟨hs.handlers, hs.socks, hs.files, hs.logs, hs.logOnce, hs.syslog⟩
  · exact hs.main hmain
  · refine hs.handler ?_ hget hstep
    intro hsock
    exact (hkept.handlers i hd hget).1 _ (hsock ▸ hkept.zero hzero) rfl

/-- Every run, from the start of the process. -/
theorem ledger_run (hs : Starts s) (hrun : RunsTo next (fun _ _ => True) s t) :
    KeepsOwn (fun n => owner s.shared.fds n = some .process) s.shared.serverSockFd t ∧
      Ledger s.shared.syslog t := by
  have hnone : ∀ n w, w ≠ .process → owner s.shared.fds n ≠ some w :=
    fun n w hw hown => hw (hs.own n w hown)
  have hledger : Ledger s.shared.syslog s := by
    refine ⟨?_, ?_, ?_, ?_, ?_, id⟩
    · rw [hs.handlers]
      exact allAt_nil _
    · exact fun n i _ hown => absurd hown (hnone n _ fun heq => nomatch heq)
    · exact fun n i _ => hnone n _ fun heq => nomatch heq
    · exact fun n hown => absurd hown (hnone n _ fun heq => nomatch heq)
    · exact fun n _ hown => absurd hown (hnone n _ fun heq => nomatch heq)
  refine hrun.invariant (I := fun t => KeepsOwn _ _ t ∧ Ledger _ t) ?_ ⟨.of_starts hs, hledger⟩
  rintro u a v ⟨hku, hlu⟩ _ hnext
  exact ⟨hku.next hnext, hlu.next hku hs.zero hnext⟩

end Ledger

/-! ## What is open, and how much -/

/-- Why number `n` is open in `t`, in a process that started as `s`. -/
def Accounted (s t : Server) (n : Nat) : Owner → Prop
  | .process => owner s.shared.fds n = some .process
  | .log => s.shared.syslog = true
  | .conn i =>
      ((t.main = .create n ∨ t.main = .start n) ∧ i = t.handlers.length) ∨
        ∃ h : Handler, t.handlers[i]? = some h ∧ h.newSockFd = n ∧ h.pc ≠ .done
  | .file i => ∃ h : Handler, t.handlers[i]? = some h ∧
      ((fileOf h.pc = some n ∧ t.shared.fileMutex = some i) ∨ leftOpen h.pc = true)

/-- Between `fopen` and `fclose` a thread holds the mutex. -/
theorem inside_of_fileOf {pc : Pc} {fd : Nat} (h : fileOf pc = some fd) : inside pc = true := by
  cases pc with
  | ioctl fd command => rfl
  | write fd pieces => rfl
  | readBack fd => rfl
  | send fd => rfl
  | _ => exact nomatch h

theorem accounted_run {s t : Server} (hs : Starts s) (hrun : RunsTo next (fun _ _ => True) s t)
    {n : Nat} {w : Owner} (hown : owner t.shared.fds n = some w) : Accounted s t n w := by
  obtain ⟨hkept, hledger⟩ := ledger_run hs hrun
  cases w with
  | process => exact hkept.owned n hown
  | log => exact (hledger.logs n hown).1
  | conn i =>
      by_cases hlt : i < t.handlers.length
      · have hget := List.getElem?_eq_getElem hlt
        exact Or.inr ⟨_, hget, (hledger.handlers i _ hget).sock n hown⟩
      · exact Or.inl (hledger.socks n i (Nat.le_of_not_lt hlt) hown)
  | file i =>
      by_cases hlt : i < t.handlers.length
      · have hget := List.getElem?_eq_getElem hlt
        refine ⟨_, hget, ?_⟩
        rcases (hledger.handlers i _ hget).file n hown with hfile | hleft
        · exact Or.inl ⟨hfile, locked_run hs hrun i _ hget (inside_of_fileOf hfile)⟩
        · exact Or.inr hleft
      · exact absurd hown (hledger.files n i (Nat.le_of_not_lt hlt))

/-- No connection has two sockets open, or two files. -/
theorem accounted_once {s t : Server} (hs : Starts s) (hrun : RunsTo next (fun _ _ => True) s t)
    {n m : Nat} {w : Owner} (hw : w ≠ .process) (hn : owner t.shared.fds n = some w)
    (hm : owner t.shared.fds m = some w) : n = m := by
  have hledger := (ledger_run hs hrun).2
  cases w with
  | process => exact absurd rfl hw
  | log => exact hledger.logOnce n m hn hm
  | conn i =>
      by_cases hlt : i < t.handlers.length
      · have hheld := hledger.handlers i _ (List.getElem?_eq_getElem hlt)
        exact (hheld.sock n hn).1.symm.trans (hheld.sock m hm).1
      · have hle := Nat.le_of_not_lt hlt
        rcases (hledger.socks n i hle hn).1 with heq | heq
        · rcases (hledger.socks m i hle hm).1 with heq' | heq'
          · exact MainPc.create.inj (heq.symm.trans heq')
          · exact nomatch heq.symm.trans heq'
        · rcases (hledger.socks m i hle hm).1 with heq' | heq'
          · exact nomatch heq.symm.trans heq'
          · exact MainPc.start.inj (heq.symm.trans heq')
  | file i =>
      by_cases hlt : i < t.handlers.length
      · exact (hledger.handlers i _ (List.getElem?_eq_getElem hlt)).once n m hn hm
      · exact absurd hn (hledger.files n i (Nat.le_of_not_lt hlt))

/-- The handlers that `p` selects, by connection. -/
def selected (p : Handler → Bool) (hs : List Handler) : List Nat :=
  (hs.zipIdx.filter fun x => p x.1).map Prod.snd

theorem length_selected (p : Handler → Bool) (hs : List Handler) :
    (selected p hs).length = hs.countP p := by
  have hfst : hs.countP p = (hs.zipIdx.map Prod.fst).countP p := by rw [List.zipIdx_map_fst]
  rw [selected, List.length_map, ← List.countP_eq_length_filter, hfst, List.countP_map]
  rfl

theorem mem_selected {p : Handler → Bool} {hs : List Handler} {i : Nat} {h : Handler}
    (hget : hs[i]? = some h) (hp : p h = true) : i ∈ selected p hs := by
  refine List.mem_map.mpr ⟨(h, i), List.mem_filter.mpr ⟨?_, hp⟩, rfl⟩
  exact List.mk_mem_zipIdx_iff_getElem?.mpr hget

/-- Who may have a descriptor open, the process apart. -/
def holders (s t : Server) : List Owner :=
  .conn t.handlers.length :: .file (t.shared.fileMutex.getD 0) ::
    ((selected unfinished t.handlers).map .conn ++
      ((selected (fun h => leftOpen h.pc) t.handlers).map .file ++
        List.replicate s.shared.syslog.toNat .log))

theorem mem_holders {s t : Server} {n : Nat} {w : Owner} (h : Accounted s t n w)
    (hw : w ≠ .process) : w ∈ holders s t := by
  cases w with
  | process => exact absurd rfl hw
  | log =>
      refine List.mem_cons_of_mem _ (List.mem_cons_of_mem _ (List.mem_append_right _
        (List.mem_append_right _ ?_)))
      rw [show s.shared.syslog = true from h]
      exact List.mem_cons_self
  | conn i =>
      rcases h with ⟨-, rfl⟩ | ⟨h, hget, -, hpc⟩
      · exact List.mem_cons_self
      · refine List.mem_cons_of_mem _ (List.mem_cons_of_mem _ (List.mem_append_left _ ?_))
        exact List.mem_map_of_mem (mem_selected hget (bne_iff_ne.mpr hpc))
  | file i =>
      obtain ⟨h, hget, ⟨-, hmutex⟩ | hleft⟩ := h
      · refine List.mem_cons_of_mem _ (List.mem_cons.mpr (Or.inl ?_))
        rw [hmutex]
        rfl
      · refine List.mem_cons_of_mem _ (List.mem_cons_of_mem _ (List.mem_append_right _
          (List.mem_append_left _ ?_)))
        exact List.mem_map_of_mem (mem_selected hget hleft)

/-- One client is served and leaves; another connects. -/
def oneServed : List Action :=
  List.flatten [connect, receives 0 [97, 10], writesLine 0, readsBack 0 1,
    [.handler 0 (.poll true .error), .handler 0 .finish], connect]

end AesdLedger
