import Aesd.ServerProofs

/-! # What a client can do to the service

    A handler that enters `logAndExit` ends the process for everybody.  Most of
    its branches there answer a failed system call or allocation; the one a
    client can reach with the bytes it sends is the branch for a seek request
    that the driver refuses.

    `benign` leaves only that one: every other call of the step succeeds.  In
    runs of benign steps a handler enters `logAndExit` exactly by an `ioctl`
    whose command, parsed from the committed buffer, the driver refuses. -/

namespace AesdService

open AesdMachine AesdTemperary AesdRing AesdDriver AesdCommand AesdClient AesdServer Transition

/-- The driver refuses the request: no such slot, or no such byte in the slot. -/
def refuses (dev : AesdDev Tagged) (command : AesdSeekto) : Bool :=
  aesdcharMaxWriteOperationsSupported ≤ command.writeCmd.toNat ||
    (dev.bufferCircular.entry command.writeCmd.toNat).size ≤ command.writeCmdOffset.toNat

theorem ioctlSeekto_neg_iff (dev : AesdDev Tagged) (command : AesdSeekto) :
    ioctlSeekto dev command true < 0 ↔ refuses dev command = true := by
  have herr : (-EINVAL : Int) < 0 := by decide
  simp only [ioctlSeekto, if_true, aesdIoctl_seekto, seekTo, refuses, Bool.or_eq_true,
    decide_eq_true_iff]
  by_cases hcmd : command.writeCmd.toNat ≥ aesdcharMaxWriteOperationsSupported
  · rw [if_pos hcmd]
    exact ⟨fun _ => Or.inl hcmd, fun _ => herr⟩
  · rw [if_neg hcmd]
    by_cases hoff : command.writeCmdOffset.toNat ≥
        (dev.bufferCircular.entry command.writeCmd.toNat).size
    · rw [if_pos hoff]
      exact ⟨fun _ => Or.inr hoff, fun _ => herr⟩
    · rw [if_neg hoff]
      refine ⟨fun h => absurd h (Int.lt_irrefl 0), ?_⟩
      rintro (h | h)
      · exact absurd h hcmd
      · exact absurd h hoff

/-- Every system call and allocation of the step succeeds, the driver's check of a
    seek request apart, and an `accept` that the signal interrupts. -/
def benign (s : Server) : Action → Bool
  | .main .checkStop => s.stop || listens s.shared
  | .main (.accept result) => result == .connected || (result == .interrupted && s.stop)
  | .main (.create ok) => ok
  | .handler _ (.poll calloc result) => calloc && result != .error
  | .handler i (.recv granted chunk) =>
      s.handlers[i]?.all fun h =>
        match recvFrom s.shared h chunk with
        | some data => malloc granted (h.bufferString.size + data.length)
        | none => false
  | .handler _ (.ioctl copyFromUser) => copyFromUser
  | .handler _ (.elsewhere ok) => ok
  | .handler _ (.write env) => env == WriteEnv.granted
  | .handler _ (.fread result) => result != .failed
  | _ => true

/-- The step is a seek request that the driver refuses. -/
def seekRefused (s : Server) : Action → Bool
  | .handler i (.ioctl _) =>
      match s.handlers[i]?.map Handler.pc with
      | some (.ioctl _ command) => refuses s.shared.dev command
      | _ => false
  | _ => false

/-- The handler is in `logAndExit`. -/
def exits (h : Handler) : Bool := h.pc.inCleanup

/-- A chunk whose memory is granted is added. -/
theorem receive_not_fatal {b : AesdTemperaryBuffer Tagged} {chunk : List Tagged} {granted : Bool}
    (hm : malloc granted (b.size + chunk.length) = true) (why : Fatal) :
    receive granted b (some chunk) ≠ .fatal why := by
  obtain ⟨rfl, hroom⟩ := malloc_eq_true.mp hm
  have hsize : sizeOfInt (chunk.length : Int) = chunk.length := sizeOfInt_natCast (by omega)
  have hadd : (aesdTemperaryBufferAdd (malloc true) b chunk chunk.length).1 = true := by
    have hself : malloc true chunk.length = true := malloc_eq_true.mpr ⟨rfl, by omega⟩
    have hwrap : b.size + chunk.length < 2 ^ 64 := by omega
    cases hb : b.buffptr with
    | none => simp [aesdTemperaryBufferAdd, hb, hself]
    | some last => simp [aesdTemperaryBufferAdd, hb, sizeAdd_eq hwrap, hm]
  have hneg : ¬ ((chunk.length : Int) < 0) := by omega
  simp only [receive, Option.getD_some, hsize, hadd, Bool.true_eq_false, if_false, if_neg hneg]
  split
  · rintro ⟨⟩
  · split <;> rintro ⟨⟩

/-- The step lemma of a handler. -/
theorem exits_step {s : Server} {i : Nat} {hd hd' : Handler} {sh' : Shared} {a : HandlerAction}
    {join : Option Nat → Bool} (hget : s.handlers[i]? = some hd)
    (hbenign : benign s (.handler i a) = true) (hserved : seekRefused s (.handler i a) = false)
    (hstep : HandlerStep join i s.shared hd a sh' hd') (hexits : exits hd' = true) :
    exits hd = true := by
  cases hstep with
  | callocFailed r hpc => exact nomatch hbenign
  | receivedFatal granted chunk why hpc hlen hrecv =>
      simp only [benign, hget, Option.all_some] at hbenign
      cases hdata : recvFrom s.shared hd chunk with
      | none =>
          rw [hdata] at hbenign
          exact nomatch hbenign
      | some data =>
          rw [hdata] at hbenign hrecv
          exact absurd hrecv (receive_not_fatal hbenign why)
  | seekElsewhere fd command hpc hdev => exact nomatch hbenign
  | seekFailed copied fd command hpc hdev hneg =>
      have hcopied : copied = true := hbenign
      subst hcopied
      rw [ioctlSeekto_neg_iff] at hneg
      simp only [seekRefused, hget, Option.map_some, hpc] at hserved
      exact nomatch hneg.symm.trans hserved
  | readFailed fd hpc => exact nomatch hbenign
  | cleanup why stage sh' stage' hpc hclean =>
      rw [exits, hpc]
      rfl
  | pollNeither hpc => exact hexits
  | _ => exact nomatch hexits

/-- No handler is in `logAndExit` that was not there at the start. -/
def NoneEntered (s t : Server) : Prop :=
  ∀ (i : Nat) (h : Handler), t.handlers[i]? = some h → exits h = true →
    ∃ h₀, s.handlers[i]? = some h₀ ∧ exits h₀ = true

theorem NoneEntered.next {s t u : Server} {a : Action} (hs : NoneEntered s t)
    (hbenign : benign t a = true) (hserved : seekRefused t a = false)
    (hnext : next t a = some u) : NoneEntered s u := by
  refine allAt_next hs hnext ?_ ?_
  · -- a new handler starts outside
    intro fd ok
    cases ok <;> rintro ⟨⟩
  · rintro i ha hd sh' hd' rfl hget hstep hold hexits
    exact hold (exits_step hget hbenign hserved hstep hexits)

/-- The request of a handler at its `ioctl` was parsed from its buffer. -/
def ParsedAt (h : Handler) : Prop :=
  ∀ fd command, h.pc = .ioctl fd command →
    ∃ after, checkForCommandInString (h.bufferString.buffptr.map (List.map Octet.octet))
      h.bufferString.size after = some command

theorem deviceAction_seek {after : List UInt8} {b : AesdTemperaryBuffer Tagged}
    {command : AesdSeekto} (h : deviceAction after b = .seek command) :
    checkForCommandInString (b.buffptr.map (List.map Octet.octet)) b.size after
      = some command := by
  simp only [deviceAction] at h
  split at h
  · next found hfound =>
      rw [← DeviceAction.seek.inj h]
      exact hfound
  · exact nomatch h

theorem ParsedAt.step {join : Option Nat → Bool} {i : Nat} {sh sh' : Shared} {h h' : Handler}
    {a : HandlerAction} (hp : ParsedAt h) (hstep : HandlerStep join i sh h a sh' h') :
    ParsedAt h' := by
  cases hstep with
  | seek after command hpc hact =>
      intro fd command' hpc'
      cases hpc'
      exact ⟨after, deviceAction_seek hact⟩
  | pollNeither hpc => exact hp
  | _ =>
      intro fd command hpc
      exact nomatch hpc

theorem parsedAt_next {s t : Server} {a : Action} (hs : AllAt (fun _ => ParsedAt) s.handlers)
    (hnext : next s a = some t) : AllAt (fun _ => ParsedAt) t.handlers := by
  refine allAt_next hs hnext ?_ ?_
  · intro fd ok fd' command hpc
    cases ok <;> exact nomatch hpc
  · intro i ha hd sh' hd' _ _ hstep hp
    exact hp.step hstep

/-- The `ioctl` step of a handler, by the driver's answer. -/
theorem exits_iff_refuses {s u : Server} {i fd : Nat} {h : Handler} {command : AesdSeekto}
    (hget : s.handlers[i]? = some h) (hpc : h.pc = .ioctl fd command)
    (hnext : next s (.handler i (.ioctl true)) = some u) :
    (∃ h', u.handlers[i]? = some h' ∧ exits h' = true) ↔ refuses s.shared.dev command = true := by
  rcases next_cases hnext with ⟨heq, -⟩ | ⟨m, heq, -⟩ |
    ⟨j, ha, hd, sh', hd', heq, hgetj, hstep, rfl⟩
  · exact nomatch heq
  · exact nomatch heq
  · cases heq
    cases hget.symm.trans hgetj
    have hlt := (List.getElem?_eq_some_iff.mp hget).1
    have hself : (s.handlers.set i hd')[i]? = some hd' := List.getElem?_set_self hlt
    cases hstep with
    | seekFailed _ fd' command' hpc' hdev hneg =>
        cases hpc.symm.trans hpc'
        exact ⟨fun _ => (ioctlSeekto_neg_iff _ _).mp hneg, fun _ => ⟨_, hself, rfl⟩⟩
    | seekDone _ fd' command' hpc' hdev hpos =>
        cases hpc.symm.trans hpc'
        rw [ioctlSeekto_neg_iff] at hpos
        refine ⟨?_, fun hrefuses => absurd hrefuses hpos⟩
        rintro ⟨h', hget', hexits⟩
        cases hself.symm.trans hget'
        exact nomatch hexits

/-- **ONLY A REFUSED SEEK ENDS THE SERVICE**: take any reachable state `s` of the
    server, over any device.  In every run of benign steps from it without a
    refused seek no handler enters `logAndExit`; and a handler at its `ioctl` got
    the command from its buffer by the parser, and enters `logAndExit` exactly
    when the driver refuses it. -/
theorem only_refused_seeks_exit {s₀ s : Server} (hs₀ : Starts s₀)
    (hreach : RunsTo next (fun _ _ => True) s₀ s) :
    (∀ t, RunsTo next (fun s a => benign s a = true ∧ seekRefused s a = false) s t →
      NoneEntered s t) ∧
    ∀ (i fd : Nat) (h : Handler) (command : AesdSeekto), s.handlers[i]? = some h →
      h.pc = .ioctl fd command →
      (∃ after, checkForCommandInString (h.bufferString.buffptr.map (List.map Octet.octet))
        h.bufferString.size after = some command) ∧
      ∀ u, next s (.handler i (.ioctl true)) = some u →
        ((∃ h', u.handlers[i]? = some h' ∧ exits h' = true) ↔
          refuses s.shared.dev command = true) := by
  constructor
  · intro t hrun
    exact hrun.invariant (I := NoneEntered s)
      (fun _ _ _ hinv hok hnext => hinv.next hok.1 hok.2 hnext) (fun i h hget hexits =>
        ⟨h, hget, hexits⟩)
  · intro i fd h command hget hpc
    have hparsed : AllAt (fun _ => ParsedAt) s.handlers :=
      hreach.invariant (I := fun s => AllAt (fun _ => ParsedAt) s.handlers)
        (fun _ _ _ hinv _ hnext => parsedAt_next hinv hnext)
        (by rw [hs₀.handlers]; exact allAt_nil _)
    exact ⟨hparsed i h hget fd command hpc, fun u hnext => exits_iff_refuses hget hpc hnext⟩

/-- A client stores the line `"a\n"`, reads it back, and seeks to its byte 0. -/
def acceptedSeek : List Action :=
  List.flatten [connect, receives 0 [97, 10], writesLine 0, readsBack 0 1, receives 0 seekLine,
    seeks 0]

/-- The service goes on. -/
theorem only_refused_seeks_exit_acceptedSeek :
    ∃ t, RunsTo next (fun s a => benign s a = true ∧ seekRefused s a = false)
        (freshServer 5) t ∧
      t.handlers.map Handler.pc = [.readBack 7] ∧ NoneEntered (freshServer 5) t := by
  obtain ⟨t, hrun, hpcs⟩ := @exists_runsTo _ _ next (fun s a => benign s a && !seekRefused s a)
    (freshServer 5) acceptedSeek _ (fun t => t.handlers.map Handler.pc) [.readBack 7]
    (by decide +kernel)
  have hrun' : RunsTo next (fun s a => benign s a = true ∧ seekRefused s a = false)
      (freshServer 5) t :=
    hrun.mono (fun _ _ hok => by simpa using hok)
  exact ⟨t, hrun', hpcs, (only_refused_seeks_exit (starts_freshServer 5) .refl).1 t hrun'⟩

/-- A client asks for byte 0 of the first line of an empty device. -/
def outOfRangeSeek : List Action := List.flatten [connect, receives 0 seekLine, seeks 0]

/-- **ONE REQUEST ENDS THE SERVICE**: every call but the driver's check succeeds,
    and the handler enters `logAndExit`. -/
theorem seek_out_of_range_exits :
    ∃ t, RunsTo next (fun s a => benign s a = true) (freshServer 5) t ∧
      t.handlers.map Handler.pc = [.logAndExit .seekFailed (.pipeWrite 0)] :=
  @exists_runsTo _ _ next benign (freshServer 5) outOfRangeSeek _
    (fun t => t.handlers.map Handler.pc) _ (by decide +kernel)

end AesdService
