import Aesd.HistoryProofs
import Aesd.IsolationProofs
import Aesd.ReadBackProofs

/-! # The server as a log

    What the server is for, without its threads: a log to which critical sections
    are appended one after another, each of them the commit of a payload or a
    seek.  A payload is cut into writes by stdio, the writes are grouped into
    entries at the newlines (`Commits.run`), and a client is answered with the
    ten latest entries.

    The sections of a run are collected in the order of their `command` steps.
    The invariant ties the device to them while a commit is on its way: the
    writes made so far, and then those the holder of the mutex still has to
    make, are the writes of the log; its writes reach the device because nobody
    closes a number that is another's.  So whenever nobody is in the middle of a
    commit the device is exactly what the log says, and a client that reads
    back finds its own section at the end of the log. -/

namespace AesdLog

open AesdMachine AesdTemperary AesdRing AesdDriver AesdHistory AesdReader AesdLlseek
open AesdClient AesdServer AesdLock AesdThreadTable AesdOwnership AesdIsolation AesdReadBack
open CyclicQueue DescriptorTable BufferedStream Transition

/-- The device writes are granted, and the step closes no number that is another's. -/
def undisturbed (s : Server) (a : Action) : Bool := writesGranted s a && closesOwn s a

/-- A critical section: whose it is and the payload it commits, `none` for a seek. -/
structure Section where
  conn    : Nat
  payload : Option (List Tagged)

/-- The section a step opens. -/
def opens (s : Server) : Action → List Section
  | .handler i (.command after) =>
      match s.handlers[i]? with
      | some h =>
          match deviceAction after h.bufferString with
          | .write bytes => [⟨i, some bytes⟩]
          | .seek _ => [⟨i, none⟩]
      | none => []
  | _ => []

theorem opens_data {s : Server} {i : Nat} {h : Handler} {after : List UInt8}
    {bytes : List Tagged} (hget : s.handlers[i]? = some h)
    (hact : deviceAction after h.bufferString = .write bytes) :
    opens s (.handler i (.command after)) = [⟨i, some bytes⟩] := by
  simp only [opens, hget, hact]

theorem opens_seek {s : Server} {i : Nat} {h : Handler} {after : List UInt8}
    {command : AesdSeekto} (hget : s.handlers[i]? = some h)
    (hact : deviceAction after h.bufferString = .seek command) :
    opens s (.handler i (.command after)) = [⟨i, none⟩] := by
  simp only [opens, hget, hact]

/-- The `write` calls of the sections, in order. -/
def writesOf (log : List Section) : List (List Tagged) :=
  (log.filterMap Section.payload).flatMap stdioWrites

/-- The entries that the sections amount to, all of them since the module was
    loaded, and the bytes that still wait for a newline. -/
def committed (log : List Section) : Commits Tagged := Commits.run (writesOf log)

theorem writesOf_append (log log' : List Section) :
    writesOf (log ++ log') = writesOf log ++ writesOf log' := by
  rw [writesOf]
  rw [List.filterMap_append, List.flatMap_append]
  rfl

/-- The `write` calls that a thread still has to make. -/
def pieces : Pc → List (List Tagged)
  | .write _ ps => ps
  | _ => []

/-- The `write` calls that the holder of the mutex still has to make. -/
def ahead (s : Server) : List (List Tagged) :=
  match s.shared.fileMutex with
  | some i => (s.handlers[i]?.map fun h => pieces h.pc).getD []
  | none => []

/-! ## What a step does to the writes ahead -/

section Ahead

variable {s t : Server} {i : Nat} {h h' : Handler}

theorem ahead_of_free (hm : t.shared.fileMutex = none) : ahead t = [] := by
  rw [ahead]
  rw [hm]

theorem ahead_of_held (hm : t.shared.fileMutex = some i) (hget : t.handlers[i]? = some h) :
    ahead t = pieces h.pc := by
  rw [ahead]
  rw [hm]
  show (t.handlers[i]?.map fun h => pieces h.pc).getD [] = pieces h.pc
  rw [hget]
  rfl

/-- The holder of the mutex moves. -/
theorem ahead_moved {sh' : Shared} (hm : sh'.fileMutex = some i) (hget : s.handlers[i]? = some h) :
    ahead { s with shared := sh', handlers := s.handlers.set i h' } = pieces h'.pc :=
  ahead_of_held hm (List.getElem?_set_self (List.getElem?_eq_some_iff.mp hget).1)

/-- A handler moves and has as much to write as before. -/
theorem ahead_kept {sh' : Shared} (hm : sh'.fileMutex = s.shared.fileMutex)
    (hget : s.handlers[i]? = some h) (hpieces : pieces h'.pc = pieces h.pc) :
    ahead { s with shared := sh', handlers := s.handlers.set i h' } = ahead s := by
  have hlt : i < s.handlers.length := (List.getElem?_eq_some_iff.mp hget).1
  rw [ahead, ahead]
  rw [hm]
  cases s.shared.fileMutex with
  | none => rfl
  | some k =>
      show ((s.handlers.set i h')[k]?.map fun h => pieces h.pc).getD []
        = (s.handlers[k]?.map fun h => pieces h.pc).getD []
      by_cases hki : i = k
      · subst hki
        rw [List.getElem?_set_self hlt, hget]
        exact hpieces
      · rw [List.getElem?_set_ne hki]

/-- A handler joins, with nothing to write. -/
theorem ahead_append (hm : t.shared.fileMutex = s.shared.fileMutex)
    (happend : t.handlers = s.handlers ++ [h]) (hpieces : pieces h.pc = []) :
    ahead t = ahead s := by
  rw [ahead, ahead]
  rw [hm, happend]
  cases s.shared.fileMutex with
  | none => rfl
  | some k =>
      show ((s.handlers ++ [h])[k]?.map fun h => pieces h.pc).getD []
        = (s.handlers[k]?.map fun h => pieces h.pc).getD []
      by_cases hk : k < s.handlers.length
      · rw [List.getElem?_append_left hk]
      · rw [List.getElem?_append_right (Nat.not_lt.mp hk),
          List.getElem?_eq_none (Nat.not_lt.mp hk)]
        cases k - s.handlers.length with
        | zero => exact hpieces
        | succ n => rfl

end Ahead

/-! ## The writes of the log -/

/-- The device has seen the writes of the log, less those ahead. -/
def Made (log : List Section) (s : Server) : Prop :=
  ∃ ws, GrantedWrites ws s.shared.dev ∧ ws ++ ahead s = writesOf log

/-- A step that opens no section and leaves the device and the writes ahead alone. -/
theorem Made.congr {log : List Section} {s t : Server} (h : Made log s)
    (hdev : t.shared.dev = s.shared.dev) (hahead : ahead t = ahead s) : Made log t := by
  obtain ⟨ws, hg, hcut⟩ := h
  refine ⟨ws, ?_, ?_⟩
  · rw [hdev]
    exact hg
  · rw [hahead]
    exact hcut

theorem Made.opensNone {log : List Section} {s t : Server} {a : Action} (h : Made log s)
    (hopens : opens s a = []) (hdev : t.shared.dev = s.shared.dev)
    (hahead : ahead t = ahead s) : Made (log ++ opens s a) t := by
  rw [hopens, List.append_nil]
  exact h.congr hdev hahead

/-- What the condition on device writes says about one of them. -/
theorem writesGranted_write {s : Server} {i : Nat} {h : Handler} {env : WriteEnv} {fd : Nat}
    {piece : List Tagged} {ps : List (List Tagged)}
    (hok : writesGranted s (.handler i (.write env)) = true) (hget : s.handlers[i]? = some h)
    (hpc : h.pc = .write fd (piece :: ps)) :
    env = WriteEnv.granted ∧ kmalloc true s.shared.dev.inUse piece.length = true := by
  simp only [writesGranted, hget, Option.bind_some, Bool.and_eq_true, beq_iff_eq] at hok
  exact ⟨hok.1, by simpa [nextPiece, hpc] using hok.2⟩

/-- A granted write reports its length. -/
theorem granted_result {d : AesdDev Tagged} {piece : List Tagged} (hd : Reachable d)
    (hroom : kmalloc true d.inUse piece.length = true) :
    ¬ (aesdWrite WriteEnv.granted d piece).2 < 0 := by
  obtain ⟨q, pending, hm⟩ := hd.models
  rcases aesdWrite_cases hm WriteEnv.granted piece with
    ⟨hno, -⟩ | ⟨-, -, hret, -⟩ | ⟨-, -, hret, -⟩
  · rw [accepts_granted hroom] at hno
    exact nomatch hno
  · rw [hret]
    omega
  · rw [hret]
    omega

section Steps

variable {log : List Section} {s : Server} {i : Nat} {a : HandlerAction} {h h' : Handler}
  {sh' : Shared}

/-- A step of a handler keeps the log and the device together. -/
theorem Made.handler (hmade : Made log s) (hlocked : Locked s) (hown : Held s.shared i h)
    (hgranted : writesGranted s (.handler i a) = true) (hget : s.handlers[i]? = some h)
    (hstep : HandlerStep (canJoin s (some i)) i s.shared h a sh' h') :
    Made (log ++ opens s (.handler i a))
      { s with shared := sh', handlers := s.handlers.set i h' } := by
  have hheld : inside h.pc = true → s.shared.fileMutex = some i ∧ ahead s = pieces h.pc := by
    intro hin
    have hm := hlocked i h hget hin
    exact ⟨hm, ahead_of_held hm hget⟩
  cases hstep with
  | lock hpc hfree =>
      refine hmade.opensNone rfl rfl ?_
      rw [ahead_of_free hfree, ahead_moved rfl hget]
      rfl
  | data after bytes hpc hact =>
      obtain ⟨hm, hnow⟩ := hheld (by rw [hpc]; rfl)
      obtain ⟨ws, hg, hcut⟩ := hmade
      refine ⟨ws, hg, ?_⟩
      rw [hnow, hpc] at hcut
      rw [ahead_moved (show (fopen s.shared i).fileMutex = some i from hm) hget,
        opens_data hget hact, writesOf_append, ← hcut]
      show ws ++ stdioWrites bytes = ws ++ [] ++ (stdioWrites bytes ++ [])
      rw [List.append_nil, List.append_nil]
  | seek after command hpc hact =>
      obtain ⟨ws, hg, hcut⟩ := hmade
      refine ⟨ws, hg, ?_⟩
      rw [opens_seek hget hact, writesOf_append, ← hcut,
        ahead_kept (show (fopen s.shared i).fileMutex = _ from rfl) hget (by rw [hpc]; rfl)]
      exact (List.append_nil _).symm
  | write env fd piece ps hpc hdev =>
      obtain ⟨hm, hnow⟩ := hheld (by rw [hpc]; rfl)
      obtain ⟨rfl, hroom⟩ := writesGranted_write hgranted hget hpc
      obtain ⟨ws, hg, hcut⟩ := hmade
      rw [show opens s (.handler i (.write WriteEnv.granted)) = [] from rfl, List.append_nil]
      refine ⟨ws ++ [piece], .snoc piece hg hroom, ?_⟩
      rw [hnow, hpc] at hcut
      have hm' : ({ s.shared with
          dev := (aesdWrite WriteEnv.granted s.shared.dev piece).1 } : Shared).fileMutex
          = some i := hm
      rw [ahead_moved hm' hget, ← hcut, if_neg (granted_result hg.reachable hroom),
        List.append_assoc]
      rfl
  | writeElsewhere ok fd piece ps hpc hdev =>
      exact absurd hdev (hown.not_elsewhere (by rw [hpc]; rfl))
  | seekElsewhere fd command hpc hdev =>
      exact absurd hdev (hown.not_elsewhere (by rw [hpc]; rfl))
  | seekFailed copied fd command hpc hdev hneg =>
      obtain ⟨-, hnow⟩ := hheld (by rw [hpc]; rfl)
      refine hmade.opensNone rfl rfl ?_
      rw [hnow, hpc]
      exact ahead_of_free rfl
  | unlock hpc =>
      obtain ⟨-, hnow⟩ := hheld (by rw [hpc]; rfl)
      refine hmade.opensNone rfl rfl ?_
      rw [hnow, hpc]
      exact ahead_of_free rfl
  | finish hpc =>
      have hclose : (if 0 < h.newSockFd then closeFd s.shared i h.newSockFd else s.shared).dev
            = s.shared.dev ∧
          (if 0 < h.newSockFd then closeFd s.shared i h.newSockFd else s.shared).fileMutex
            = s.shared.fileMutex := by
        split <;> exact ⟨rfl, rfl⟩
      exact hmade.opensNone rfl hclose.1 (ahead_kept hclose.2 hget (by rw [hpc]; rfl))
  | cleanup why stage sh' stage' hpc hclean =>
      have hframe := cleanupStep_frame hclean
      exact hmade.opensNone rfl hframe.dev (ahead_kept hframe.mutex hget (by rw [hpc]; rfl))
  | pollNeither hpc =>
      exact hmade.opensNone rfl rfl (ahead_kept rfl hget rfl)
  | _ =>
      exact hmade.opensNone rfl rfl (ahead_kept rfl hget (by simp_all [pieces, Handler.exit]))

end Steps

/-! ## Whose section is the last one -/

/-- The last section of the log, seen from a handler. -/
def LastAt (log : List Section) (i : Nat) (h : Handler) : Prop :=
  match h.pc with
  | .ioctl _ _ => log.getLast? = some ⟨i, none⟩
  | .write _ _ => log.getLast? = some ⟨i, some h.bufferString.bytes⟩
  | .readBack _ | .send _ | .unlock => ∃ payload, log.getLast? = some ⟨i, payload⟩ ∧
      ∀ bytes, payload = some bytes → bytes = h.bufferString.bytes
  | _ => True

theorem lastAt_outside {log : List Section} {i : Nat} {h : Handler}
    (hout : inside h.pc = false ∨ h.pc = .command) : LastAt log i h := by
  rw [LastAt]
  rcases hout with hout | hpc
  · cases hpc : h.pc with
    | ioctl fd command => rw [hpc] at hout; exact nomatch hout
    | write fd ps => rw [hpc] at hout; exact nomatch hout
    | readBack fd => rw [hpc] at hout; exact nomatch hout
    | send fd => rw [hpc] at hout; exact nomatch hout
    | unlock => rw [hpc] at hout; exact nomatch hout
    | _ => trivial
  · rw [hpc]
    trivial

section LastSteps

variable {log : List Section} {s : Server} {i : Nat} {a : HandlerAction} {h h' : Handler}
  {sh' : Shared}

theorem LastAt.handler (hlast : LastAt log i h) (hown : Held s.shared i h)
    (hget : s.handlers[i]? = some h)
    (hstep : HandlerStep (canJoin s (some i)) i s.shared h a sh' h') :
    LastAt (log ++ opens s (.handler i a)) i h' := by
  cases hstep with
  | data after bytes hpc hact =>
      show (log ++ opens s (.handler i (.command after))).getLast? = _
      rw [opens_data hget hact, List.getLast?_concat, deviceAction_write hact]
  | seek after command hpc hact =>
      show (log ++ opens s (.handler i (.command after))).getLast? = _
      rw [opens_seek hget hact, List.getLast?_concat]
  | write env fd piece ps hpc hdev =>
      rw [show opens s (.handler i (.write env)) = [] from rfl, List.append_nil]
      simp only [LastAt, hpc] at hlast ⊢
      exact hlast
  | writeElsewhere ok fd piece ps hpc hdev =>
      exact absurd hdev (hown.not_elsewhere (by rw [hpc]; rfl))
  | reopen fd hpc =>
      rw [show opens s (.handler i .reopen) = [] from rfl, List.append_nil]
      simp only [LastAt, hpc] at hlast
      exact ⟨_, hlast, fun bytes heq => (Option.some.inj heq).symm⟩
  | seekDone copied fd command hpc hdev hpos =>
      rw [show opens s (.handler i (.ioctl copied)) = [] from rfl, List.append_nil]
      simp only [LastAt, hpc] at hlast
      exact ⟨_, hlast, fun bytes heq => nomatch heq⟩
  | readMore fd hpc =>
      rw [show opens s (.handler i (.fread .data)) = [] from rfl, List.append_nil]
      simp only [LastAt, hpc] at hlast
      exact hlast
  | sent fd hpc =>
      rw [show opens s (.handler i .send) = [] from rfl, List.append_nil]
      simp only [LastAt, hpc] at hlast
      exact hlast
  | readEnd fd hpc =>
      rw [show opens s (.handler i (.fread .eof)) = [] from rfl, List.append_nil]
      simp only [LastAt, hpc] at hlast
      exact hlast
  | lock hpc hfree => exact lastAt_outside (Or.inr rfl)
  | pollNeither hpc => exact lastAt_outside (Or.inl (by rw [hpc]; rfl))
  | _ => exact lastAt_outside (Or.inl rfl)

/-- Another handler's step: it opens a section only when nobody else is inside. -/
theorem LastAt.stable {j : Nat} {k : Handler} (hlast : LastAt log j k) (hji : j ≠ i)
    (hlocked : Locked s) (hget : s.handlers[i]? = some h) (hgetj : s.handlers[j]? = some k)
    (hstep : HandlerStep (canJoin s (some i)) i s.shared h a sh' h') :
    LastAt (log ++ opens s (.handler i a)) j k := by
  have halone : h.pc = .command → LastAt (log ++ opens s (.handler i a)) j k := by
    intro hpc
    refine lastAt_outside (Or.inl (Bool.eq_false_iff.mpr fun hin => hji ?_))
    have hi := hlocked i h hget (by rw [hpc]; rfl)
    exact Option.some.inj ((hlocked j k hgetj hin).symm.trans hi)
  cases hstep with
  | data after bytes hpc hact => exact halone hpc
  | seek after command hpc hact => exact halone hpc
  | _ =>
      rw [show opens s (.handler i _) = [] from rfl, List.append_nil]
      exact hlast

end LastSteps

/-! ## Payloads -/

/-- The buffer is the connection's own, and has a newline once it is committed. -/
structure Payload (i : Nat) (h : Handler) : Prop where
  own     : OwnBuffer i h.bufferString
  newline : h.pc = .lock ∨ inside h.pc = true → hasNewline h.bufferString.bytes = true

theorem Payload.handler {canJoin : Option Nat → Bool} {i : Nat} {sh sh' : Shared}
    {h h' : Handler} {a : HandlerAction} (hp : Payload i h) (hheld : Held sh i h)
    (hstep : HandlerStep canJoin i sh h a sh' h') : Payload i h' := by
  obtain ⟨hown, hnl⟩ := ownBuffer_step hheld hp.own hstep
  refine ⟨hown, ?_⟩
  rintro (hlock | hin)
  · exact hnl hlock
  · -- inside the critical section the buffer stays as it was committed
    cases hstep with
    | lock hpc hfree => exact hp.newline (Or.inl hpc)
    | pollNeither hpc => exact hp.newline (Or.inr hin)
    | data after bytes hpc hact => exact hp.newline (Or.inr (by rw [hpc]; rfl))
    | seek after command hpc hact => exact hp.newline (Or.inr (by rw [hpc]; rfl))
    | write env fd piece ps hpc hdev => exact hp.newline (Or.inr (by rw [hpc]; rfl))
    | writeElsewhere ok fd piece ps hpc hdev => exact hp.newline (Or.inr (by rw [hpc]; rfl))
    | reopen fd hpc => exact hp.newline (Or.inr (by rw [hpc]; rfl))
    | seekDone copied fd command hpc hdev hpos => exact hp.newline (Or.inr (by rw [hpc]; rfl))
    | readMore fd hpc => exact hp.newline (Or.inr (by rw [hpc]; rfl))
    | sent fd hpc => exact hp.newline (Or.inr (by rw [hpc]; rfl))
    | readEnd fd hpc => exact hp.newline (Or.inr (by rw [hpc]; rfl))
    | _ => exact nomatch hin

theorem payload_next {s t : Server} {a : Action} (hs : AllAt Payload s.handlers)
    (hheld : AllHeld s) (hnext : next s a = some t) : AllAt Payload t.handlers := by
  refine allAt_next hs hnext (fun fd ok => ⟨filled_init _, ?_⟩)
    fun i ha hd sh' hd' _ hget hstep hp => hp.handler (hheld.handlers i hd hget) hstep
  · cases ok with
    | true => rintro (hlock | hin) <;> contradiction
    | false => rintro (hlock | hin) <;> contradiction

/-! ## Whole runs -/

/-- The log, the device and the handlers belong together. -/
structure Logged (log : List Section) (s : Server) : Prop where
  held     : AllHeld s
  locked   : Locked s
  made     : Made log s
  last     : AllAt (LastAt log) s.handlers
  payloads : AllAt Payload s.handlers

theorem Logged.next {log : List Section} {s t : Server} {a : Action} (hs : Logged log s)
    (hok : undisturbed s a = true) (hnext : next s a = some t) :
    Logged (log ++ opens s a) t := by
  obtain ⟨hgranted, hcloses⟩ := Bool.and_eq_true_iff.mp hok
  have hheld := hs.held.next hcloses hnext
  have hlocked := hs.locked.next hnext
  have hpayloads := payload_next hs.payloads hs.held hnext
  rcases next_cases hnext with ⟨rfl, rfl⟩ | ⟨m, rfl, hmain⟩ |
    ⟨i, ha, hd, sh', hd', rfl, hget, hstep, rfl⟩
  · rw [show opens s .signal = [] from rfl, List.append_nil]
    exact ⟨hheld, hlocked, hs.made, hs.last, hs.payloads⟩
  · rw [show opens s (.main m) = [] from rfl, List.append_nil]
    obtain ⟨hmutex, hdev, -⟩ := mainStep_frame hmain
    have hsame : t.handlers = s.handlers → ahead t = ahead s := by
      intro hhandlers
      rw [ahead, ahead]
      rw [hmutex, hhandlers]
    rcases mainStep_threads hmain with ⟨-, hhandlers, -, -⟩ | ⟨-, -, -, -, hhandlers⟩ |
      ⟨fd, ok, -, -, -, -, hhandlers⟩
    · refine ⟨hheld, hlocked, hs.made.congr hdev (hsame hhandlers), ?_, hpayloads⟩
      rw [hhandlers]
      exact hs.last
    · refine ⟨hheld, hlocked, hs.made.congr hdev (hsame hhandlers), ?_, hpayloads⟩
      rw [hhandlers]
      exact hs.last
    · refine ⟨hheld, hlocked, hs.made.congr hdev (ahead_append hmutex hhandlers ?_), ?_,
        hpayloads⟩
      · cases ok <;> rfl
      · rw [hhandlers]
        refine hs.last.append (lastAt_outside (Or.inl ?_)) fun _ _ _ _ hk => hk
        cases ok <;> rfl
  · have hown := hs.held.handlers i hd hget
    refine ⟨hheld, hlocked, hs.made.handler hs.locked hown hgranted hget hstep, ?_, hpayloads⟩
    exact hs.last.set ((hs.last i hd hget).handler hown hget hstep) fun j k hji hgetj hk =>
      hk.stable hji hs.locked hget hgetj hstep

theorem logged_run {s t : Server} {log : List Section} (hs : Starts s)
    (hdev : s.shared.dev = aesdInitModule)
    (hrun : Emits next (fun s a => undisturbed s a = true) opens s log t) : Logged log t := by
  refine hrun.invariant (fun log s a t hinv hok hnext => hinv.next hok hnext)
    ⟨.of_starts hs, ?_, ?_, ?_, ?_⟩
  · rw [Locked, hs.handlers]
    exact allAt_nil _
  · refine ⟨[], ?_, ?_⟩
    · rw [hdev]
      exact .nil
    · rw [ahead_of_free hs.mutex]
      rfl
  · rw [hs.handlers]
    exact allAt_nil _
  · rw [hs.handlers]
    exact allAt_nil _

/-! ## What the log says -/

/-- Writes cut what they are given into entries and a rest, and lose nothing. -/
theorem foldl_write_cut {β : Type} [Octet β] (ws : List (List β)) (c : Commits β) :
    ∃ entries, (ws.foldl Commits.write c).history = c.history ++ entries ∧
      entries.length ≤ ws.length ∧
      entries.flatten ++ (ws.foldl Commits.write c).pending = c.pending ++ ws.flatten := by
  induction ws generalizing c with
  | nil => exact ⟨[], (List.append_nil _).symm, Nat.le_refl _, (List.append_nil _).symm⟩
  | cons w ws ih =>
      obtain ⟨entries, hhistory, hlen, hcut⟩ := ih (c.write w)
      rw [List.foldl_cons, hhistory]
      rw [Commits.write] at hcut ⊢
      by_cases hn : hasNewline w = true
      · rw [if_pos hn] at hcut ⊢
        refine ⟨(c.pending ++ w) :: entries, by rw [List.append_assoc]; rfl,
          Nat.succ_le_succ hlen, ?_⟩
        rw [List.nil_append] at hcut
        rw [List.flatten_cons, List.append_assoc, hcut, List.flatten_cons, List.append_assoc]
      · rw [if_neg hn] at hcut ⊢
        refine ⟨entries, rfl, Nat.le_succ_of_le hlen, ?_⟩
        rw [hcut, List.flatten_cons, List.append_assoc]

/-- Nothing waits after a write with a newline. -/
theorem foldl_write_pending {β : Type} [Octet β] {ws : List (List β)} (c : Commits β)
    {w : List β} (hlast : ws.getLast? = some w) (hn : hasNewline w = true) :
    (ws.foldl Commits.write c).pending = [] := by
  obtain ⟨before, rfl⟩ := List.getLast?_eq_some_iff.mp hlast
  rw [List.foldl_append, List.foldl_cons, List.foldl_nil, Commits.write]
  rw [if_pos hn]

theorem flatten_stdioWrites (bytes : List Tagged) : (stdioWrites bytes).flatten = bytes := by
  have hcut : bytes.take (bytes.length / blockSize * blockSize) ++ remainder bytes = bytes :=
    List.take_append_drop _ _
  rw [stdioWrites]
  cases htake : bytes.take (bytes.length / blockSize * blockSize) with
  | nil =>
      rw [htake, List.nil_append] at hcut
      rw [hcut]
      cases bytes with
      | nil => rfl
      | cons b bs => exact List.append_nil _
  | cons b bs =>
      rw [htake] at hcut
      cases hrem : remainder bytes with
      | nil =>
          rw [hrem, List.append_nil] at hcut
          rw [← hcut]
          exact List.append_nil _
      | cons c cs =>
          rw [hrem] at hcut
          rw [← hcut]
          show (b :: bs) ++ ((c :: cs) ++ []) = _
          rw [List.append_nil]

theorem length_stdioWrites_le (bytes : List Tagged) : (stdioWrites bytes).length ≤ 2 :=
  List.length_filter_le _ _

/-- The entries at the end of a list are among the latest. -/
theorem suffix_latest {α : Type} {n : Nat} (xs ys : List α) (h : ys.length ≤ n) :
    ys <:+ latest n (xs ++ ys) := by
  rw [latest]
  rw [List.length_append, List.drop_append_of_le_length (by omega)]
  exact List.suffix_append _ _

/-- A payload that ends in a write with a newline is at the end of the content. -/
theorem suffix_of_payload {log : List Section} {i : Nat} {bytes : List Tagged}
    (hlast : log.getLast? = some ⟨i, some bytes⟩) (hn : hasNewline bytes = true)
    (hwhole : whole bytes = true) :
    bytes <:+ (latest 10 (committed log).history).flatten := by
  obtain ⟨before, rfl⟩ := List.getLast?_eq_some_iff.mp hlast
  have hwrites : writesOf (before ++ [⟨i, some bytes⟩]) = writesOf before ++ stdioWrites bytes := by
    rw [writesOf_append]
    show _ ++ (stdioWrites bytes ++ []) = _
    rw [List.append_nil]
  have hrun : committed (before ++ [⟨i, some bytes⟩])
      = (stdioWrites bytes).foldl Commits.write (committed before) := by
    rw [committed, hwrites, Commits.run, List.foldl_append]
    rfl
  obtain ⟨entries, hhistory, hlen, hcut⟩ :=
    foldl_write_cut (stdioWrites bytes) (committed before)
  have hne : stdioWrites bytes ≠ [] := by
    intro hnil
    have hflat := flatten_stdioWrites bytes
    rw [hnil] at hflat
    rw [← hflat] at hn
    cases hn
  obtain ⟨w, hw⟩ := Option.isSome_iff_exists.mp (List.getLast?_isSome.mpr hne)
  rw [foldl_write_pending _ hw (getLast?_stdioWrites hn hwhole hw), List.append_nil,
    flatten_stdioWrites] at hcut
  rw [hrun, hhistory]
  have hshort : entries.length ≤ 10 := by
    have htwo := length_stdioWrites_le bytes
    omega
  obtain ⟨older, holder⟩ := suffix_latest (committed before).history entries hshort
  rw [← holder, List.flatten_append, hcut]
  exact ⟨older.flatten ++ (committed before).pending, List.append_assoc _ _ _⟩

/-- Nobody is in the middle of a commit: the writes of the log have been made. -/
theorem Logged.granted {log : List Section} {t : Server} (hl : Logged log t)
    (hquiet : ahead t = []) : GrantedWrites (writesOf log) t.shared.dev := by
  obtain ⟨ws, hg, hcut⟩ := hl.made
  rw [hquiet, List.append_nil] at hcut
  rw [hcut] at hg
  exact hg

theorem Logged.simulates {log : List Section} {t : Server} (hl : Logged log t)
    (hquiet : ahead t = []) :
    ∃ q, Models t.shared.dev q (committed log).pending ∧ Regular q ∧
      q.items = latest 10 (committed log).history :=
  grantedWrites_simulate (hl.granted hquiet)

theorem flatten_writesOf (log : List Section) :
    (writesOf log).flatten = (log.filterMap Section.payload).flatten := by
  rw [writesOf]
  induction log.filterMap Section.payload with
  | nil => rfl
  | cons bytes payloads ih =>
      rw [List.flatMap_cons, List.flatten_append, flatten_stdioWrites, ih, List.flatten_cons]

/-- **THE SERVER IS A LOG**: the driver is freshly loaded and the server its only
    writer, whose writes are granted.  In every run in which no second `close` hits a
    number handed out again, with any number of clients and in any interleaving of
    their handlers, whenever no handler is between two of its device writes, the ring
    holds the ten latest entries of the log of critical sections, the driver's buffer
    what waits for a newline, and the entries and the rest are the payloads one after
    another: none is lost, repeated or mixed into another. -/
theorem server_is_log {s t : Server} {log : List Section} (hs : Starts s)
    (hdev : s.shared.dev = aesdInitModule)
    (hrun : Emits next (fun s a => undisturbed s a = true) opens s log t)
    (hquiet : ∀ (i : Nat) (h : Handler), t.handlers[i]? = some h → pieces h.pc = []) :
    t.shared.dev.retained = latest 10 (committed log).history ∧
      t.shared.dev.bufferTemperary.bytes = (committed log).pending ∧
      (committed log).history.flatten ++ (committed log).pending
        = (log.filterMap Section.payload).flatten := by
  have hahead : ahead t = [] := by
    rw [ahead]
    cases t.shared.fileMutex with
    | none => rfl
    | some i =>
        cases hget : t.handlers[i]? with
        | none =>
            show (t.handlers[i]?.map fun h => pieces h.pc).getD [] = []
            rw [hget]
            rfl
        | some h =>
            show (t.handlers[i]?.map fun h => pieces h.pc).getD [] = []
            rw [hget]
            exact hquiet i h hget
  obtain ⟨q, hm, -, hitems⟩ := (logged_run hs hdev hrun).simulates hahead
  obtain ⟨entries, hhistory, -, hcut⟩ := foldl_write_cut (writesOf log) Commits.start
  refine ⟨?_, hm.temp.bytes_eq, ?_⟩
  · rw [hm.retained_eq, hitems]
  · rw [flatten_writesOf] at hcut
    rw [committed, Commits.run, hhistory]
    exact hcut

/-- Two clients send a line each; the second is served first and ends its stream, and
    the first is about to read the device back. -/
def twoClients : List Action :=
  List.flatten [connect, connect, receives 0 [97, 10], receives 1 [98, 10], writesLine 1,
    readsBack 1 1, receives 1 [], [.handler 1 .finish], writesLine 0]

/-- The log of the two clients. -/
theorem server_is_log_twoClients :
    ∃ log t, Emits next (fun s a => undisturbed s a = true) opens (freshServer 5) log t ∧
      log.map Section.conn = [1, 0] ∧
      t.shared.dev.retained = latest 10 (committed log).history ∧
      (committed log).history.flatten ++ (committed log).pending
        = tag 1 [98, 10] ++ tag 0 [97, 10] := by
  obtain ⟨log, t, hrun, hseen⟩ := @exists_emits _ _ _ next undisturbed opens (freshServer 5)
    twoClients _ (fun r => (r.1.map Section.conn, r.1.filterMap Section.payload,
      r.2.handlers.map fun h => pieces h.pc))
    ([1, 0], [tag 1 [98, 10], tag 0 [97, 10]], [[], []]) (by decide +kernel)
  simp only [Prod.mk.injEq] at hseen
  obtain ⟨hconns, hpayloads, hpieces⟩ := hseen
  have hquiet : ∀ (i : Nat) (h : Handler), t.handlers[i]? = some h → pieces h.pc = [] := by
    intro i h hget
    have hmem : pieces h.pc ∈ t.handlers.map fun h => pieces h.pc :=
      List.mem_map.mpr ⟨h, List.mem_of_getElem? hget, rfl⟩
    rw [hpieces] at hmem
    simpa using hmem
  obtain ⟨hretained, -, hflat⟩ := server_is_log (starts_freshServer 5) rfl hrun hquiet
  refine ⟨log, t, hrun, hconns, hretained, ?_⟩
  rw [hflat, hpayloads]
  rfl

/-- **AN ANSWER SHOWS THE LOG**: in such a run, whenever a handler is about to send the
    device back, its file is the device, the last section of the log is its own, and
    what it sends is the ten latest entries of the log, from where its file stands.
    After a commit that ends in a write with a newline, the answer ends with the bytes
    just committed. -/
theorem answer_shows_log {s t : Server} {log : List Section} {i fd : Nat} {h : Handler}
    (hs : Starts s) (hdev : s.shared.dev = aesdInitModule)
    (hrun : Emits next (fun s a => undisturbed s a = true) opens s log t)
    (hget : t.handlers[i]? = some h) (hpc : h.pc = .readBack fd) {p : Int}
    (hp : StartPosition t.shared.dev p) (zero : Tagged) (stdio : Stdio) :
    onDevice t.shared fd = true ∧ ∃ payload sent, log.getLast? = some ⟨i, payload⟩ ∧
      (∃ enough, ∀ fuel, enough ≤ fuel →
        readBack zero stdio true t.shared.dev fuel (opened p) = some ⟨sent, none⟩) ∧
      sent.flatten = (latest 10 (committed log).history).flatten.drop p.toNat ∧
      ∀ bytes, payload = some bytes → whole bytes = true → p = 0 →
        bytes = h.bufferString.bytes ∧ bytes <:+ sent.flatten := by
  have hl := logged_run hs hdev hrun
  have hlast := hl.last i h hget
  simp only [LastAt, hpc] at hlast
  obtain ⟨payload, hpayload, hbytes⟩ := hlast
  have hahead : ahead t = [] := by
    rw [ahead_of_held (hl.locked i h hget (by rw [hpc]; rfl)) hget, hpc]
    rfl
  obtain ⟨q, hm, hreg, hitems⟩ := hl.simulates hahead
  obtain ⟨sent, hloop, hsent⟩ := readBack_sends hm (hp.isPosition hm) zero stdio
  rw [show readable q = q.items from if_pos hreg.aligned, hitems] at hsent
  refine ⟨onDevice_file ((hl.held.handlers i h hget).file fd (by rw [hpc]; rfl)), payload, sent,
    hpayload, hloop, hsent, ?_⟩
  rintro bytes rfl hwhole rfl
  have hown := hbytes bytes rfl
  refine ⟨hown, ?_⟩
  have hn := (hl.payloads i h hget).newline (Or.inr (by rw [hpc]; rfl))
  rw [← hown] at hn
  rw [hsent]
  exact suffix_of_payload hpayload hn hwhole

/-- The answer to the client that is served last. -/
theorem answer_shows_log_twoClients :
    ∃ log t sent, Emits next (fun s a => undisturbed s a = true) opens (freshServer 5) log t ∧
      (∃ enough, ∀ fuel, enough ≤ fuel →
        readBack ⟨0, 0⟩ ⟨fun _ => blockSize, false, fun _ => by decide⟩ true t.shared.dev fuel
          (opened 0) = some ⟨sent, none⟩) ∧
      sent.flatten = (latest 10 (committed log).history).flatten := by
  obtain ⟨log, t, hrun, hseen⟩ := @exists_emits _ _ _ next undisturbed opens (freshServer 5)
    twoClients _ (fun r => r.2.handlers.map Handler.pc) [.readBack 7, .done] (by decide +kernel)
  obtain ⟨h, hget, hpc⟩ := exists_handler_at hseen (i := 0) rfl
  obtain ⟨-, _, sent, -, hloop, hsent, -⟩ := answer_shows_log (starts_freshServer 5) rfl hrun
    hget hpc (Or.inl rfl) ⟨0, 0⟩ ⟨fun _ => blockSize, false, fun _ => by decide⟩
  exact ⟨log, t, sent, hrun, hloop, hsent⟩

end AesdLog
