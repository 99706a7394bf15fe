import Aesd.ClientHandlerProofs
import Aesd.DescriptorTableProofs
import Aesd.TransitionProofs

/-! # The server: one accept loop, any number of handlers

    `aesdsocket.c` as a transition system.  Every action is one step of one
    thread, up to its next call that another thread can observe, and carries
    what the environment answers there: results of system calls, allocations,
    and the memory behind a buffer.  An action that is not enabled (a taken
    mutex, an empty pipe, a thread that has not finished) is a blocked call.

    A call on a descriptor number goes to whatever the number then refers to.
    Handlers close each other's numbers, so a step looks into the table: `recv`
    receives from the connection that has the number, or fails, and the calls on
    a device file reach the driver only where the number is still one.

    Bytes are tagged with the connection on which they were received, so that
    a statement can speak about their origin; no step looks at the tag.

    `handlerStep` is the executable step of a handler.  `HandlerStep` lists what
    such a step can do, one rule per outcome, and `handlerStep_sound` is the
    only place where the function is taken apart: every invariant is proved by
    cases on the rules. -/

namespace AesdServer

open AesdMachine AesdTemperary AesdDriver AesdCommand AesdClient DescriptorTable Transition

/-- A byte and the connection on which it was received. -/
structure Tagged where
  conn : Nat
  byte : UInt8
  deriving DecidableEq

instance : Octet Tagged := ⟨Tagged.byte⟩

/-- The bytes of a chunk received on connection `i`. -/
def tag (i : Nat) (chunk : List UInt8) : List Tagged := chunk.map (Tagged.mk i)

/-- Tagging does not change how much was received. -/
theorem length_map_tag (i : Nat) (chunk : Option (List UInt8)) :
    ((chunk.map (tag i)).getD []).length = (chunk.getD []).length := by
  cases chunk with
  | none => rfl
  | some data => exact List.length_map _

/-- Whose descriptor it is: the process's own (listening socket, pipe, standard
    streams), the connection of `syslog` to the log daemon, the socket of a connection,
    or the device file of its handler. -/
inductive Owner where
  | process
  | log
  | conn (i : Nat)
  | file (i : Nat)
  deriving DecidableEq

/-- A `close` or `fclose` in `clientHandler` or `cleanupClientHandler`, for which
    connection, and whose number it hit. -/
structure CloseCall where
  handler : Nat
  hit     : Option Owner
  deriving DecidableEq

/-- `cleanupMain`: the loop of pipe writes, the loop of joins, `close(serverSockFd)`,
    and from there to the end of the process. -/
inductive Cleanup where
  | pipeWrite (i : Nat)
  | join (i : Nat)
  | closeServer
  | exit
  deriving DecidableEq

/-- Where a handler thread is. -/
inductive Pc where
  /-- `pthread_create` failed: there is no thread. -/
  | notStarted
  | poll
  | pipeRead
  | recv
  /-- the scan found a newline: at `pthread_mutex_lock` -/
  | lock
  /-- from here to `unlock` the thread holds `fileMutex` -/
  | command
  | ioctl (fd : Nat) (command : AesdSeekto)
  /-- the `write` calls that `fwrite` and `fclose` still have to make -/
  | write (fd : Nat) (pieces : List (List Tagged))
  | readBack (fd : Nat)
  /-- at `send`, with a block of the device; the peer may not take it -/
  | send (fd : Nat)
  | unlock
  /-- out of the loop, before `cleanupClientHandler` -/
  | leave
  | done
  /-- in `logAndExit`, which runs `cleanupMain` -/
  | logAndExit (why : Fatal) (stage : Cleanup)
  deriving DecidableEq

/-- What all threads share. -/
structure Shared where
  dev           : AesdDev Tagged
  fileMutex     : Option Nat
  fds           : List (Option Owner)
  serverSockFd  : Int
  /-- `syslog` has not been called, and a log daemon will take its connection -/
  syslog        : Bool
  /-- unread bytes in `pipeClientHandler` -/
  pipe          : Nat
  /-- the array up to `threadCount`; `none` where no handle was stored -/
  clientThreads : List (Option Nat)
  closes        : List CloseCall
  exited        : Bool

/-- A handler thread and its own variables. -/
structure Handler where
  newSockFd    : Nat
  bufferString : AesdTemperaryBuffer Tagged
  pc           : Pc

/-- `fopen` of the device.  Where it fails, the process dies on the `NULL` that the
    source passes on, and the run ends before the step. -/
def fopen (sh : Shared) (i : Nat) : Shared := { sh with fds := openAs sh.fds (.file i) }

/-- `close(fd)`, also as the last act of `fclose`. -/
def closeFd (sh : Shared) (i fd : Nat) : Shared :=
  { sh with fds := close sh.fds fd, closes := sh.closes ++ [⟨i, owner sh.fds fd⟩] }

/-- The number is an open file of the device. -/
def onDevice (sh : Shared) (fd : Nat) : Bool :=
  match owner sh.fds fd with
  | some (.file _) => true
  | _ => false

/-- What `recv` returns to a handler when the peer has sent `chunk`: it comes from the
    connection that has the number, and a number that is no socket gives -1. -/
def recvFrom (sh : Shared) (h : Handler) (chunk : Option (List UInt8)) : Option (List Tagged) :=
  match owner sh.fds h.newSockFd with
  | some (.conn i) => chunk.map (tag i)
  | _ => none

/-- `recv` returns no more than what was sent. -/
theorem length_recvFrom_le (sh : Shared) (h : Handler) (chunk : Option (List UInt8)) :
    ((recvFrom sh h chunk).getD []).length ≤ (chunk.getD []).length := by
  simp only [recvFrom]
  split
  · exact Nat.le_of_eq (length_map_tag _ chunk)
  · exact Nat.zero_le _

/-- The first `syslog` opens the connection to the log daemon. -/
def logged (sh : Shared) : Shared :=
  if sh.syslog then { sh with fds := openAs sh.fds .log, syslog := false } else sh

/-- The number `serverSockFd` is still the listening socket: `accept` can be entered. -/
def listens (sh : Shared) : Bool := owner sh.fds sh.serverSockFd.toNat == some .process

/-- `if (serverSockFd > 0) close(serverSockFd)` -/
def closeServer {ω : Type} (fds : List (Option ω)) (serverSockFd : Int) : List (Option ω) :=
  if 0 < serverSockFd then close fds serverSockFd.toNat else fds

/-- stdio's block size for the device. -/
def blockSize : Nat := 4096

/-- The bytes `fclose` still has to write after `fwrite`: what does not fill a
    block. -/
def remainder {β : Type} (bytes : List β) : List β :=
  bytes.drop (bytes.length / blockSize * blockSize)

/-- The `write` calls behind `fwrite(bytes)` and `fclose`. -/
def stdioWrites {β : Type} (bytes : List β) : List (List β) :=
  [bytes.take (bytes.length / blockSize * blockSize), remainder bytes].filter (!·.isEmpty)

/-- One step of `cleanupMain`; `none` in the second place is the end of the
    process, `closelog` included.  `canJoin` says which `pthread_join` comes back. -/
def cleanupStep (canJoin : Option Nat → Bool) (sh : Shared) :
    Cleanup → Option (Shared × Option Cleanup)
  | .pipeWrite k =>
      if k < sh.clientThreads.length then
        some ({ sh with pipe := sh.pipe + 1 }, some (.pipeWrite (k + 1)))
      else some (sh, some (.join 0))
  | .join k =>
      match sh.clientThreads[k]? with
      | some thread => if canJoin thread then some (sh, some (.join (k + 1))) else none
      | none => some (sh, some .closeServer)
  | .closeServer => some ({ sh with fds := closeServer sh.fds sh.serverSockFd }, some .exit)
  | .exit => some ({ sh with exited := true }, none)

inductive PollResult where
  | error
  | pipe
  | socket
  /-- an event other than `POLLIN` -/
  | neither
  deriving DecidableEq

inductive FreadResult where
  | data
  | eof
  | failed
  deriving DecidableEq

/-- The steps of a handler, with what the environment answers. -/
inductive HandlerAction where
  | poll (calloc : Bool) (result : PollResult)
  | pipeRead
  /-- `none`: `recv` returns -1 -/
  | recv (granted : Bool) (chunk : Option (List UInt8))
  | lock
  | command (after : List UInt8)
  | ioctl (copyFromUser : Bool)
  | write (env : WriteEnv)
  /-- a call for the device on a number that is no file of it any more -/
  | elsewhere (ok : Bool)
  | reopen
  | fread (result : FreadResult)
  | send
  | unlock
  | finish
  | cleanup
  deriving DecidableEq

/-- Enter `logAndExit`. -/
def Handler.exit (h : Handler) (why : Fatal) : Handler :=
  { h with pc := .logAndExit why (.pipeWrite 0) }

/-- The branch for a failed `ioctl`: unlock, clean the buffer, `logAndExit`. -/
def seekExit (sh : Shared) (h : Handler) : Shared × Handler :=
  ({ sh with fileMutex := none },
    { h.exit .seekFailed with bufferString := aesdTemperaryBufferClean h.bufferString })

/-- `ioctl(fileno(fptr), AESDCHAR_IOCSEEKTO, &command)` on the file just opened. -/
def ioctlSeekto (dev : AesdDev Tagged) (command : AesdSeekto) (copyFromUser : Bool) : Int :=
  (aesdIoctl dev 0 aesdcharIocseekto (if copyFromUser then some command else none)).1

/-- One step of the handler of connection `i`. -/
def handlerStep (canJoin : Option Nat → Bool) (i : Nat) (sh : Shared) (h : Handler)
    (a : HandlerAction) : Option (Shared × Handler) :=
  match h.pc, a with
  | .poll, .poll false _ => some (sh, h.exit .callocFailed)
  | .poll, .poll true .error => some (sh, { h with pc := .leave })
  | .poll, .poll true .pipe =>
      if 0 < sh.pipe then some (sh, { h with pc := .pipeRead }) else none
  | .poll, .poll true .socket =>
      -- the pipe is looked at first, so its byte wins
      if sh.pipe = 0 then some (sh, { h with pc := .recv }) else none
  | .poll, .poll true .neither => some (sh, h)
  | .pipeRead, .pipeRead =>
      if 0 < sh.pipe then some ({ sh with pipe := sh.pipe - 1 }, { h with pc := .leave })
      else none
  | .recv, .recv granted chunk =>
      if bufferSize ≤ (chunk.getD []).length then none
      else match receive granted h.bufferString (recvFrom sh h chunk) with
        | .fatal why => some (sh, h.exit why)
        | .closed b =>
            some (closeFd sh i h.newSockFd, { h with bufferString := b, pc := .leave })
        | .commit b => some (sh, { h with bufferString := b, pc := .lock })
        | .again b => some (sh, { h with bufferString := b, pc := .poll })
  | .lock, .lock =>
      if sh.fileMutex = none then
        some ({ sh with fileMutex := some i }, { h with pc := .command })
      else none
  | .command, .command after =>
      match deviceAction after h.bufferString with
      | .seek command =>
          some (fopen sh i, { h with pc := .ioctl (lowestFree sh.fds) command })
      | .write bytes =>
          some (fopen sh i, { h with pc := .write (lowestFree sh.fds) (stdioWrites bytes) })
  | .ioctl fd command, .ioctl copyFromUser =>
      if onDevice sh fd then
        if ioctlSeekto sh.dev command copyFromUser < 0 then some (seekExit sh h)
        else some (sh, { h with pc := .readBack fd })
      else none
  | .ioctl fd _, .elsewhere ok =>
      -- neither a free number nor a socket takes this request
      if onDevice sh fd || ok then none else some (seekExit sh h)
  | .write fd (piece :: pieces), .write env =>
      -- after a failed write stdio gives the rest up; nobody looks at the result
      let written := aesdWrite env sh.dev piece
      if onDevice sh fd then
        some ({ sh with dev := written.1 },
          { h with pc := .write fd (if written.2 < 0 then [] else pieces) })
      else none
  | .write fd (_ :: pieces), .elsewhere ok =>
      -- a socket may take the bytes, a free number takes none
      if onDevice sh fd || (ok && owner sh.fds fd == none) then none
      else some (sh, { h with pc := .write fd (if ok then pieces else []) })
  | .write fd [], .reopen =>
      some (fopen (closeFd sh i fd) i,
        { h with pc := .readBack (lowestFree (close sh.fds fd)) })
  | .readBack fd, .fread .data => some (sh, { h with pc := .send fd })
  | .readBack fd, .fread .eof => some (closeFd sh i fd, { h with pc := .unlock })
  | .readBack _, .fread .failed => some (sh, h.exit .readFailed)
  | .send fd, .send => some (sh, { h with pc := .readBack fd })
  | .unlock, .unlock =>
      some ({ sh with fileMutex := none },
        { h with bufferString := aesdTemperaryBufferClean h.bufferString, pc := .poll })
  | .leave, .finish =>
      -- cleanupClientHandler, then pthread_exit
      some (if 0 < h.newSockFd then closeFd sh i h.newSockFd else sh,
        { h with bufferString := aesdTemperaryBufferClean h.bufferString, pc := .done })
  | .logAndExit why stage, .cleanup =>
      (cleanupStep canJoin sh stage).map fun r =>
        (r.1, { h with pc := .logAndExit why (r.2.getD stage) })
  | _, _ => none

/-- What a step of the handler of connection `i` can do. -/
inductive HandlerStep (canJoin : Option Nat → Bool) (i : Nat) (sh : Shared) (h : Handler) :
    HandlerAction → Shared → Handler → Prop where
  | callocFailed (r : PollResult) : h.pc = .poll →
      HandlerStep canJoin i sh h (.poll false r) sh (h.exit .callocFailed)
  | pollError : h.pc = .poll →
      HandlerStep canJoin i sh h (.poll true .error) sh { h with pc := .leave }
  | pollPipe : h.pc = .poll → 0 < sh.pipe →
      HandlerStep canJoin i sh h (.poll true .pipe) sh { h with pc := .pipeRead }
  | pollSocket : h.pc = .poll → sh.pipe = 0 →
      HandlerStep canJoin i sh h (.poll true .socket) sh { h with pc := .recv }
  | pollNeither : h.pc = .poll → HandlerStep canJoin i sh h (.poll true .neither) sh h
  | pipeRead : h.pc = .pipeRead → 0 < sh.pipe →
      HandlerStep canJoin i sh h .pipeRead { sh with pipe := sh.pipe - 1 } { h with pc := .leave }
  | receivedFatal (granted : Bool) (chunk : Option (List UInt8)) (why : Fatal) :
      h.pc = .recv → (chunk.getD []).length < bufferSize →
      receive granted h.bufferString (recvFrom sh h chunk) = .fatal why →
      HandlerStep canJoin i sh h (.recv granted chunk) sh (h.exit why)
  | receivedClosed (granted : Bool) (chunk : Option (List UInt8))
      (b : AesdTemperaryBuffer Tagged) :
      h.pc = .recv → (chunk.getD []).length < bufferSize →
      receive granted h.bufferString (recvFrom sh h chunk) = .closed b →
      HandlerStep canJoin i sh h (.recv granted chunk) (closeFd sh i h.newSockFd)
        { h with bufferString := b, pc := .leave }
  | receivedCommit (granted : Bool) (chunk : Option (List UInt8))
      (b : AesdTemperaryBuffer Tagged) :
      h.pc = .recv → (chunk.getD []).length < bufferSize →
      receive granted h.bufferString (recvFrom sh h chunk) = .commit b →
      HandlerStep canJoin i sh h (.recv granted chunk) sh { h with bufferString := b, pc := .lock }
  | receivedAgain (granted : Bool) (chunk : Option (List UInt8))
      (b : AesdTemperaryBuffer Tagged) :
      h.pc = .recv → (chunk.getD []).length < bufferSize →
      receive granted h.bufferString (recvFrom sh h chunk) = .again b →
      HandlerStep canJoin i sh h (.recv granted chunk) sh { h with bufferString := b, pc := .poll }
  | lock : h.pc = .lock → sh.fileMutex = none →
      HandlerStep canJoin i sh h .lock { sh with fileMutex := some i } { h with pc := .command }
  | seek (after : List UInt8) (command : AesdSeekto) : h.pc = .command →
      deviceAction after h.bufferString = .seek command →
      HandlerStep canJoin i sh h (.command after) (fopen sh i)
        { h with pc := .ioctl (lowestFree sh.fds) command }
  | data (after : List UInt8) (bytes : List Tagged) : h.pc = .command →
      deviceAction after h.bufferString = .write bytes →
      HandlerStep canJoin i sh h (.command after) (fopen sh i)
        { h with pc := .write (lowestFree sh.fds) (stdioWrites bytes) }
  | seekFailed (copied : Bool) (fd : Nat) (command : AesdSeekto) : h.pc = .ioctl fd command →
      onDevice sh fd = true → ioctlSeekto sh.dev command copied < 0 →
      HandlerStep canJoin i sh h (.ioctl copied) (seekExit sh h).1 (seekExit sh h).2
  | seekDone (copied : Bool) (fd : Nat) (command : AesdSeekto) : h.pc = .ioctl fd command →
      onDevice sh fd = true → ¬ ioctlSeekto sh.dev command copied < 0 →
      HandlerStep canJoin i sh h (.ioctl copied) sh { h with pc := .readBack fd }
  | seekElsewhere (fd : Nat) (command : AesdSeekto) : h.pc = .ioctl fd command →
      onDevice sh fd = false →
      HandlerStep canJoin i sh h (.elsewhere false) (seekExit sh h).1 (seekExit sh h).2
  | write (env : WriteEnv) (fd : Nat) (piece : List Tagged) (pieces : List (List Tagged)) :
      h.pc = .write fd (piece :: pieces) → onDevice sh fd = true →
      HandlerStep canJoin i sh h (.write env) { sh with dev := (aesdWrite env sh.dev piece).1 }
        { h with pc := .write fd (if (aesdWrite env sh.dev piece).2 < 0 then [] else pieces) }
  | writeElsewhere (ok : Bool) (fd : Nat) (piece : List Tagged) (pieces : List (List Tagged)) :
      h.pc = .write fd (piece :: pieces) → onDevice sh fd = false →
      HandlerStep canJoin i sh h (.elsewhere ok) sh
        { h with pc := .write fd (if ok then pieces else []) }
  | reopen (fd : Nat) : h.pc = .write fd [] →
      HandlerStep canJoin i sh h .reopen (fopen (closeFd sh i fd) i)
        { h with pc := .readBack (lowestFree (close sh.fds fd)) }
  | readMore (fd : Nat) : h.pc = .readBack fd →
      HandlerStep canJoin i sh h (.fread .data) sh { h with pc := .send fd }
  | readEnd (fd : Nat) : h.pc = .readBack fd →
      HandlerStep canJoin i sh h (.fread .eof) (closeFd sh i fd) { h with pc := .unlock }
  | readFailed (fd : Nat) : h.pc = .readBack fd →
      HandlerStep canJoin i sh h (.fread .failed) sh (h.exit .readFailed)
  | sent (fd : Nat) : h.pc = .send fd →
      HandlerStep canJoin i sh h .send sh { h with pc := .readBack fd }
  | unlock : h.pc = .unlock →
      HandlerStep canJoin i sh h .unlock { sh with fileMutex := none }
        { h with bufferString := aesdTemperaryBufferClean h.bufferString, pc := .poll }
  | finish : h.pc = .leave →
      HandlerStep canJoin i sh h .finish
        (if 0 < h.newSockFd then closeFd sh i h.newSockFd else sh)
        { h with bufferString := aesdTemperaryBufferClean h.bufferString, pc := .done }
  | cleanup (why : Fatal) (stage : Cleanup) (sh' : Shared) (stage' : Option Cleanup) :
      h.pc = .logAndExit why stage → cleanupStep canJoin sh stage = some (sh', stage') →
      HandlerStep canJoin i sh h .cleanup sh' { h with pc := .logAndExit why (stage'.getD stage) }

/-- **THE RULES**: every executed step is one of them. -/
theorem handlerStep_sound {canJoin : Option Nat → Bool} {i : Nat} {sh sh' : Shared}
    {h h' : Handler} {a : HandlerAction}
    (hstep : handlerStep canJoin i sh h a = some (sh', h')) :
    HandlerStep canJoin i sh h a sh' h' := by
  simp only [handlerStep] at hstep
  split at hstep
  · next hpc => cases hstep; exact .callocFailed _ hpc
  · next hpc => cases hstep; exact .pollError hpc
  · next hpc =>
      obtain ⟨hpipe, heq⟩ := Option.ite_none_right_eq_some.mp hstep
      cases heq
      exact .pollPipe hpc hpipe
  · next hpc =>
      obtain ⟨hpipe, heq⟩ := Option.ite_none_right_eq_some.mp hstep
      cases heq
      exact .pollSocket hpc hpipe
  · next hpc => cases hstep; exact .pollNeither hpc
  · next hpc =>
      obtain ⟨hpipe, heq⟩ := Option.ite_none_right_eq_some.mp hstep
      cases heq
      exact .pipeRead hpc hpipe
  · next granted chunk hpc =>
      obtain ⟨hlen, heq⟩ := Option.ite_none_left_eq_some.mp hstep
      have hlt := Nat.lt_of_not_le hlen
      split at heq
      · next why hrecv => cases heq; exact .receivedFatal _ _ why hpc hlt hrecv
      · next b hrecv => cases heq; exact .receivedClosed _ _ b hpc hlt hrecv
      · next b hrecv => cases heq; exact .receivedCommit _ _ b hpc hlt hrecv
      · next b hrecv => cases heq; exact .receivedAgain _ _ b hpc hlt hrecv
  · next hpc =>
      obtain ⟨hfree, heq⟩ := Option.ite_none_right_eq_some.mp hstep
      cases heq
      exact .lock hpc hfree
  · next after hpc =>
      split at hstep
      · next command hact => cases hstep; exact .seek after command hpc hact
      · next bytes hact => cases hstep; exact .data after bytes hpc hact
  · next fd command copied hpc =>
      obtain ⟨hdev, heq⟩ := Option.ite_none_right_eq_some.mp hstep
      split at heq
      · next hneg => cases heq; exact .seekFailed copied fd command hpc hdev hneg
      · next hpos => cases heq; exact .seekDone copied fd command hpc hdev hpos
  · next fd command ok hpc =>
      obtain ⟨hno, heq⟩ := Option.ite_none_left_eq_some.mp hstep
      obtain ⟨hdev, hok⟩ := Bool.or_eq_false_iff.mp (Bool.eq_false_iff.mpr hno)
      cases heq
      rw [hok]
      exact .seekElsewhere fd command hpc hdev
  · next fd piece pieces env hpc =>
      obtain ⟨hdev, heq⟩ := Option.ite_none_right_eq_some.mp hstep
      cases heq
      exact .write env fd piece pieces hpc hdev
  · next fd piece pieces ok hpc =>
      obtain ⟨hno, heq⟩ := Option.ite_none_left_eq_some.mp hstep
      obtain ⟨hdev, -⟩ := Bool.or_eq_false_iff.mp (Bool.eq_false_iff.mpr hno)
      cases heq
      exact .writeElsewhere ok fd piece pieces hpc hdev
  · next fd hpc => cases hstep; exact .reopen fd hpc
  · next fd hpc => cases hstep; exact .readMore fd hpc
  · next fd hpc => cases hstep; exact .readEnd fd hpc
  · next fd hpc => cases hstep; exact .readFailed fd hpc
  · next fd hpc => cases hstep; exact .sent fd hpc
  · next hpc => cases hstep; exact .unlock hpc
  · next hpc => cases hstep; exact .finish hpc
  · next why stage hpc =>
      obtain ⟨⟨sh₁, stage'⟩, hclean, heq⟩ := Option.map_eq_some_iff.mp hstep
      cases heq
      exact .cleanup why stage sh₁ stage' hpc hclean
  · exact nomatch hstep

/-! ## The whole process -/

/-- Where the main thread is. -/
inductive MainPc where
  /-- at `while (!stop)` -/
  | loop
  | accept
  /-- before `threadCount++`, the argument of `pthread_create` -/
  | create (newSockFd : Nat)
  /-- in `pthread_create` -/
  | start (newSockFd : Nat)
  | cleanup (stage : Cleanup)
  deriving DecidableEq

structure Server where
  shared   : Shared
  main     : MainPc
  stop     : Bool
  /-- one for every connection handed to `pthread_create`, in order -/
  handlers : List Handler

/-- What `accept` returns: a descriptor, or -1 with `EINTR` or another error. -/
inductive AcceptResult where
  | connected
  | interrupted
  | failed
  deriving DecidableEq

inductive MainAction where
  | checkStop
  | accept (result : AcceptResult)
  | count
  | create (ok : Bool)
  | cleanup
  deriving DecidableEq

inductive Action where
  /-- `SIGINT` or `SIGTERM` -/
  | signal
  | main (a : MainAction)
  | handler (i : Nat) (a : HandlerAction)
  deriving DecidableEq

def MainPc.inCleanup : MainPc → Bool
  | .cleanup _ => true
  | _ => false

def Pc.inCleanup : Pc → Bool
  | .logAndExit _ _ => true
  | _ => false

/-- Some thread other than `self` (`none` for the main thread) runs `cleanupMain`. -/
def otherInCleanup (s : Server) (self : Option Nat) : Bool :=
  (self.isSome && s.main.inCleanup) ||
    s.handlers.zipIdx.any fun h => h.1.pc.inCleanup && self != some h.2

/-- `pthread_join` comes back: the thread has ended, or it is the caller itself, or the
    call may fail at once because a second thread joins as well.  Where no handle was
    stored the array has a zero, and the call answers that there is no such thread. -/
def canJoin (s : Server) (self : Option Nat) : Option Nat → Bool
  | none => true
  | some j =>
      (match s.handlers[j]? with
        | some h => h.pc == .done
        | none => false) || self == some j || otherInCleanup s self

/-- `pthread_create` stores the handle of thread `i` in the last place counted. -/
def storeHandle (threads : List (Option Nat)) (ok : Bool) (i : Nat) : List (Option Nat) :=
  if ok then threads.set (threads.length - 1) (some i) else threads

/-- One step of the main thread. -/
def mainStep (s : Server) : MainAction → Option Server
  | .checkStop =>
      if s.main = .loop then
        if s.stop then some { s with main := .cleanup (.pipeWrite 0) }
        else if listens s.shared then some { s with main := .accept }
        -- accept fails at once: logAndExit
        else some { s with main := .cleanup (.pipeWrite 0), shared := logged s.shared }
      else none
  | .accept result =>
      if s.main = .accept then
        match result with
        | .connected =>
            some { s with
              main := .create (lowestFree s.shared.fds)
              shared := logged { s.shared with
                fds := openAs s.shared.fds (.conn s.handlers.length) } }
        | .interrupted =>
            -- `break` after a signal; without one, logAndExit
            some { s with
              main := .cleanup (.pipeWrite 0)
              shared := if s.stop then s.shared else logged s.shared }
        | .failed =>
            some { s with main := .cleanup (.pipeWrite 0), shared := logged s.shared }
      else none
  | .count =>
      match s.main with
      | .create fd =>
          some { s with
            main := .start fd
            shared := { s.shared with clientThreads := s.shared.clientThreads ++ [none] } }
      | _ => none
  | .create ok =>
      match s.main with
      | .start fd =>
          some { s with
            main := .loop
            shared := { s.shared with
              clientThreads := storeHandle s.shared.clientThreads ok s.handlers.length }
            handlers := s.handlers ++
              [⟨fd, aesdTemperaryBufferInit, if ok then .poll else .notStarted⟩] }
      | _ => none
  | .cleanup =>
      match s.main with
      | .cleanup stage =>
          (cleanupStep (canJoin s none) s.shared stage).map fun r =>
            { s with shared := r.1, main := .cleanup (r.2.getD stage) }
      | _ => none

/-- **ONE STEP OF THE SERVER**; after `exit` there is none. -/
def next (s : Server) (a : Action) : Option Server :=
  if s.shared.exited then none
  else
    match a with
    | .signal => some { s with stop := true }
    | .main a => mainStep s a
    | .handler i a =>
        s.handlers[i]?.bind fun h =>
          (handlerStep (canJoin s (some i)) i s.shared h a).map fun r =>
            { s with shared := r.1, handlers := s.handlers.set i r.2 }

/-- What a step of the main thread can do. -/
inductive MainStep (s : Server) : MainAction → Server → Prop where
  | stopped : s.main = .loop → s.stop = true →
      MainStep s .checkStop { s with main := .cleanup (.pipeWrite 0) }
  | goesOn : s.main = .loop → s.stop = false → listens s.shared = true →
      MainStep s .checkStop { s with main := .accept }
  | notListening : s.main = .loop → s.stop = false → listens s.shared = false →
      MainStep s .checkStop { s with main := .cleanup (.pipeWrite 0), shared := logged s.shared }
  | accepted : s.main = .accept → MainStep s (.accept .connected) { s with
        main := .create (lowestFree s.shared.fds)
        shared := logged { s.shared with
          fds := openAs s.shared.fds (.conn s.handlers.length) } }
  | acceptStopped : s.main = .accept → s.stop = true →
      MainStep s (.accept .interrupted) { s with main := .cleanup (.pipeWrite 0) }
  | acceptFailed (result : AcceptResult) : s.main = .accept → result ≠ .connected →
      MainStep s (.accept result)
        { s with main := .cleanup (.pipeWrite 0), shared := logged s.shared }
  | counted (fd : Nat) : s.main = .create fd →
      MainStep s .count { s with
        main := .start fd
        shared := { s.shared with clientThreads := s.shared.clientThreads ++ [none] } }
  | created (fd : Nat) (ok : Bool) : s.main = .start fd →
      MainStep s (.create ok) { s with
        main := .loop
        shared := { s.shared with
          clientThreads := storeHandle s.shared.clientThreads ok s.handlers.length }
        handlers := s.handlers ++
          [⟨fd, aesdTemperaryBufferInit, if ok then .poll else .notStarted⟩] }
  | cleanup (stage : Cleanup) (sh' : Shared) (stage' : Option Cleanup) :
      s.main = .cleanup stage → cleanupStep (canJoin s none) s.shared stage = some (sh', stage') →
      MainStep s .cleanup { s with shared := sh', main := .cleanup (stage'.getD stage) }

theorem mainStep_sound {s t : Server} {m : MainAction} (h : mainStep s m = some t) :
    MainStep s m t := by
  cases m with
  | checkStop =>
      obtain ⟨hmain, heq⟩ := Option.ite_none_right_eq_some.mp h
      by_cases hstop : s.stop = true
      · rw [if_pos hstop] at heq
        cases heq
        exact .stopped hmain hstop
      · have hgo := Bool.eq_false_iff.mpr hstop
        rw [if_neg hstop] at heq
        by_cases hopen : listens s.shared = true
        · rw [if_pos hopen] at heq
          cases heq
          exact .goesOn hmain hgo hopen
        · rw [if_neg hopen] at heq
          cases heq
          exact .notListening hmain hgo (Bool.eq_false_iff.mpr hopen)
  | accept result =>
      obtain ⟨hmain, heq⟩ := Option.ite_none_right_eq_some.mp h
      cases result with
      | connected =>
          cases heq
          exact .accepted hmain
      | interrupted =>
          cases heq
          by_cases hstop : s.stop = true
          · rw [if_pos hstop]
            exact .acceptStopped hmain hstop
          · rw [if_neg hstop]
            exact .acceptFailed .interrupted hmain (fun hno => nomatch hno)
      | failed =>
          cases heq
          exact .acceptFailed .failed hmain (fun hno => nomatch hno)
  | count =>
      simp only [mainStep] at h
      split at h
      · next fd hmain => cases h; exact .counted fd hmain
      · exact nomatch h
  | create ok =>
      simp only [mainStep] at h
      split at h
      · next fd hmain => cases h; exact .created fd ok hmain
      · exact nomatch h
  | cleanup =>
      simp only [mainStep] at h
      split at h
      · next stage hmain =>
          obtain ⟨⟨sh', stage'⟩, hclean, rfl⟩ := Option.map_eq_some_iff.mp h
          exact .cleanup stage sh' stage' hmain hclean
      · exact nomatch h

/-- The process before its first `accept`: no connection, only descriptors of its
    own, the listening socket among them, and whatever the device then stores. -/
structure Starts (s : Server) : Prop where
  main      : s.main = .loop
  handlers  : s.handlers = []
  threads   : s.shared.clientThreads = []
  mutex     : s.shared.fileMutex = none
  pipe      : s.shared.pipe = 0
  closes    : s.shared.closes = []
  live      : s.shared.exited = false
  own       : ∀ fd w, owner s.shared.fds fd = some w → w = .process
  zero      : owner s.shared.fds 0 = some .process
  listening : listens s.shared = true

/-- A process that was started with a freshly loaded driver and has `n + 1`
    descriptors of its own, the last of them the listening socket. -/
def freshServer (n : Nat) : Server where
  shared :=
    { dev := aesdInitModule, fileMutex := none, fds := List.replicate (n + 1) (some .process)
      serverSockFd := n, syslog := false, pipe := 0, clientThreads := [], closes := []
      exited := false }
  main := .loop
  stop := false
  handlers := []

theorem starts_freshServer (n : Nat) : Starts (freshServer n) where
  main := rfl
  handlers := rfl
  threads := rfl
  mutex := rfl
  pipe := rfl
  closes := rfl
  live := rfl
  own := by
    intro fd w h
    simp only [owner, freshServer, List.getD_eq_getElem?_getD, List.getElem?_replicate] at h
    split at h
    · exact (Option.some.inj h).symm
    · cases h
  zero := rfl
  listening := by
    rw [listens, beq_iff_eq]
    show owner (List.replicate (n + 1) _) n = _
    rw [owner, List.getD_eq_getElem?_getD, List.getElem?_replicate, if_pos (Nat.lt_succ_self n)]
    rfl

/-- A handler, found by its place in the list of program counters. -/
theorem exists_handler_at {s : Server} {pcs : List Pc} (h : s.handlers.map Handler.pc = pcs)
    {i : Nat} {pc : Pc} (hi : pcs[i]? = some pc) :
    ∃ hd, s.handlers[i]? = some hd ∧ hd.pc = pc := by
  rw [← h, List.getElem?_map] at hi
  exact Option.map_eq_some_iff.mp hi

/-- A connection is accepted, up to its handler's first `poll`. -/
def connect : List Action :=
  [.main .checkStop, .main (.accept .connected), .main .count, .main (.create true)]

/-- The handler of connection `i` receives a chunk. -/
def receives (i : Nat) (chunk : List UInt8) : List Action :=
  [.handler i (.poll true .socket), .handler i (.recv true (some chunk))]

/-- It commits its buffer as data, in one `write`. -/
def writesLine (i : Nat) : List Action :=
  [.handler i .lock, .handler i (.command []), .handler i (.write WriteEnv.granted),
    .handler i .reopen]

/-- It reads the device back in `n` blocks and leaves the critical section. -/
def readsBack (i n : Nat) : List Action :=
  (List.replicate n [.handler i (.fread .data), .handler i .send]).flatten ++
    [.handler i (.fread .eof), .handler i .unlock]

/-- It commits its buffer as a seek request. -/
def seeks (i : Nat) : List Action :=
  [.handler i .lock, .handler i (.command []), .handler i (.ioctl true)]

/-- The line that asks for byte 0 of the first line. -/
def seekLine : List UInt8 := seekCmdPrefix ++ [48, 44, 48, 10]

/-- What a step of the server does, by thread. -/
theorem next_cases {s t : Server} {a : Action} (h : next s a = some t) :
    (a = .signal ∧ t = { s with stop := true }) ∨
    (∃ m, a = .main m ∧ MainStep s m t) ∨
    ∃ i ha hd sh' hd', a = .handler i ha ∧ s.handlers[i]? = some hd ∧
      HandlerStep (canJoin s (some i)) i s.shared hd ha sh' hd' ∧
      t = { s with shared := sh', handlers := s.handlers.set i hd' } := by
  simp only [next] at h
  obtain ⟨-, h⟩ := Option.ite_none_left_eq_some.mp h
  cases a with
  | signal => exact Or.inl ⟨rfl, (Option.some.inj h).symm⟩
  | main m => exact Or.inr (Or.inl ⟨m, rfl, mainStep_sound h⟩)
  | handler i ha =>
      obtain ⟨hd, hget, hstep⟩ := Option.bind_eq_some_iff.mp h
      obtain ⟨⟨sh', hd'⟩, hhandler, rfl⟩ := Option.map_eq_some_iff.mp hstep
      exact Or.inr (Or.inr ⟨i, ha, hd, sh', hd', rfl, hget, handlerStep_sound hhandler, rfl⟩)

/-- **LOCAL INVARIANTS**: what a new handler satisfies and its own steps preserve,
    every handler satisfies after any step of the server. -/
theorem allAt_next {L : Nat → Handler → Prop} {s t : Server} {a : Action}
    (hs : AllAt L s.handlers) (hnext : next s a = some t)
    (hnew : ∀ fd ok, L s.handlers.length
      ⟨fd, aesdTemperaryBufferInit, if ok = true then .poll else .notStarted⟩)
    (hstep : ∀ i ha hd sh' hd', a = .handler i ha → s.handlers[i]? = some hd →
      HandlerStep (canJoin s (some i)) i s.shared hd ha sh' hd' → L i hd → L i hd') :
    AllAt L t.handlers := by
  rcases next_cases hnext with ⟨-, rfl⟩ | ⟨m, rfl, hmain⟩ |
    ⟨i, ha, hd, sh', hd', rfl, hget, hrule, rfl⟩
  · exact hs
  · cases hmain with
    | created fd ok hpc => exact hs.append (hnew fd ok) fun _ _ _ _ hk => hk
    | _ => exact hs
  · exact hs.set (hstep i ha hd sh' hd' rfl hget hrule (hs i hd hget)) fun _ _ _ _ hk => hk

/-- What only opens descriptors leaves alone. -/
structure OnlyOpens (sh sh' : Shared) : Prop where
  dev     : sh'.dev = sh.dev
  mutex   : sh'.fileMutex = sh.fileMutex
  server  : sh'.serverSockFd = sh.serverSockFd
  pipe    : sh'.pipe = sh.pipe
  threads : sh'.clientThreads = sh.clientThreads
  closes  : sh'.closes = sh.closes
  exited  : sh'.exited = sh.exited
  opened  : ∀ n w, owner sh.fds n = some w → owner sh'.fds n = some w

/-- The first `syslog`. -/
theorem logged_frame (sh : Shared) : OnlyOpens sh (logged sh) := by
  by_cases hlog : sh.syslog = true
  · rw [logged, if_pos hlog]
    exact ⟨rfl, rfl, rfl, rfl, rfl, rfl, rfl, fun _ _ hown => owner_openAs_of_owned hown _⟩
  · rw [logged, if_neg hlog]
    exact ⟨rfl, rfl, rfl, rfl, rfl, rfl, rfl, fun _ _ hown => hown⟩

/-- So does `accept`, with the `syslog` behind it. -/
theorem accepted_frame (sh : Shared) (w : Owner) :
    OnlyOpens sh (logged { sh with fds := openAs sh.fds w }) := by
  obtain ⟨hdev, hmutex, hserver, hpipe, hthreads, hcloses, hexited, hopened⟩ :=
    logged_frame { sh with fds := openAs sh.fds w }
  exact ⟨hdev, hmutex, hserver, hpipe, hthreads, hcloses, hexited,
    fun n w' hown => hopened n w' (owner_openAs_of_owned hown w)⟩

/-- What `cleanupMain` leaves alone: everything but the pipe, the listening socket and
    the process itself. -/
structure OnlyCleans (sh sh' : Shared) : Prop where
  dev     : sh'.dev = sh.dev
  mutex   : sh'.fileMutex = sh.fileMutex
  server  : sh'.serverSockFd = sh.serverSockFd
  syslog  : sh'.syslog = sh.syslog
  threads : sh'.clientThreads = sh.clientThreads
  closes  : sh'.closes = sh.closes

section Cleanups

variable {canJoin : Option Nat → Bool} {sh sh' : Shared} {stage : Cleanup}
  {stage' : Option Cleanup}

theorem cleanupStep_frame (h : cleanupStep canJoin sh stage = some (sh', stage')) :
    OnlyCleans sh sh' := by
  cases stage with
  | pipeWrite k =>
      simp only [cleanupStep] at h
      split at h <;> cases h <;> exact ⟨rfl, rfl, rfl, rfl, rfl, rfl⟩
  | join k =>
      simp only [cleanupStep] at h
      split at h
      · obtain ⟨-, heq⟩ := Option.ite_none_right_eq_some.mp h
        cases heq
        exact ⟨rfl, rfl, rfl, rfl, rfl, rfl⟩
      · cases h
        exact ⟨rfl, rfl, rfl, rfl, rfl, rfl⟩
  | closeServer =>
      cases h
      exact ⟨rfl, rfl, rfl, rfl, rfl, rfl⟩
  | exit =>
      cases h
      exact ⟨rfl, rfl, rfl, rfl, rfl, rfl⟩

/-- It closes no descriptor but the listening socket's. -/
theorem cleanupStep_fds (h : cleanupStep canJoin sh stage = some (sh', stage')) :
    sh'.fds = if stage = .closeServer then closeServer sh.fds sh.serverSockFd else sh.fds := by
  cases stage with
  | pipeWrite k =>
      simp only [cleanupStep] at h
      split at h <;> cases h <;> rfl
  | join k =>
      simp only [cleanupStep] at h
      split at h
      · obtain ⟨-, heq⟩ := Option.ite_none_right_eq_some.mp h
        cases heq
        rfl
      · cases h
        rfl
  | closeServer =>
      cases h
      rfl
  | exit =>
      cases h
      rfl

end Cleanups

/-- In `cleanupMain` the main thread does nothing else. -/
theorem mainStep_at_cleanup {s t : Server} {m : MainAction} {stage : Cleanup}
    (h : MainStep s m t) : s.main = .cleanup stage → m = .cleanup ∧ ∃ sh' stage',
      cleanupStep (canJoin s none) s.shared stage = some (sh', stage') ∧
        t = { s with shared := sh', main := .cleanup (stage'.getD stage) } := by
  cases h with
  | cleanup stage₁ sh' stage' hpc hclean =>
      intro hstage
      cases hpc.symm.trans hstage
      exact ⟨rfl, sh', stage', hclean, rfl⟩
  | _ =>
      have hpc := ‹s.main = _›
      intro hstage
      cases hpc.symm.trans hstage

/-- After `exit` nothing happens. -/
theorem live_of_next {s t : Server} {a : Action} (h : next s a = some t) :
    s.shared.exited = false := by
  simp only [next] at h
  obtain ⟨hlive, -⟩ := Option.ite_none_left_eq_some.mp h
  exact Bool.eq_false_iff.mpr hlive

/-- The main thread never touches the mutex or the device, and keeps the handlers
    it has. -/
theorem mainStep_frame {s t : Server} {m : MainAction} (h : MainStep s m t) :
    t.shared.fileMutex = s.shared.fileMutex ∧ t.shared.dev = s.shared.dev ∧
      ∃ more, t.handlers = s.handlers ++ more := by
  cases h with
  | accepted hmain =>
      have hframe := accepted_frame s.shared (.conn s.handlers.length)
      exact ⟨hframe.mutex, hframe.dev, [], (List.append_nil _).symm⟩
  | notListening hmain hgo hclosed =>
      have hframe := logged_frame s.shared
      exact ⟨hframe.mutex, hframe.dev, [], (List.append_nil _).symm⟩
  | acceptFailed result hmain hne =>
      have hframe := logged_frame s.shared
      exact ⟨hframe.mutex, hframe.dev, [], (List.append_nil _).symm⟩
  | created fd ok hmain => exact ⟨rfl, rfl, _, rfl⟩
  | cleanup stage sh' stage' hmain hclean =>
      have hframe := cleanupStep_frame hclean
      exact ⟨hframe.mutex, hframe.dev, [], (List.append_nil _).symm⟩
  | _ => exact ⟨rfl, rfl, [], (List.append_nil _).symm⟩

end AesdServer
