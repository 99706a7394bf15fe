import Aesd.CommandGrammarProofs
import Aesd.SeekProofs
import Aesd.ServerLogProofs
import Aesd.ServiceProofs

/-! # The answer to a seek command

    A client that sends a seek command is answered with a part of what the server
    has stored.  Which part depends on the parser, on the two look-ups of the ioctl
    and on the read-back loop, and on every section committed before by anybody.

    `seekAnswer` says it from the history of the log alone.  The ioctl checks the
    offset against the slot of the array with the number it was given, and an entry
    that is evicted moves all later ones one slot away from their number; so the
    answer is the one that was asked for (`asked`) as long as at most ten entries
    were ever committed, and afterwards when the two entries agree on the offset. -/

namespace AesdSeekAnswer

open AesdMachine AesdTemperary AesdRing AesdLookup AesdDriver AesdHistory AesdSeek
open AesdClient AesdCommand AesdCommandGrammar AesdServer AesdLock AesdService AesdReadBack
open AesdLlseek AesdLog AesdOwnership AesdIsolation CyclicQueue CyclicWindow BlockLookup
open BufferedStream Transition

variable {β : Type} [Octet β]

/-! ## From the history alone -/

section Answer

omit [Octet β]

/-- The slot of the oldest entry: one further for every entry that was evicted. -/
def firstSlot (history : List (List β)) : Nat := (history.length - 10) % 10

/-- The entry in a slot of the array, and nothing in a free one. -/
def inSlot (history : List (List β)) (i : Nat) : List β :=
  ((latest 10 history)[(i + 10 - firstSlot history) % 10]?).getD []

/-- The entry with the number `k` from its byte `offset` on, and all later ones. -/
def fromByte (kept : List (List β)) (k offset : Nat) : Option (List β) :=
  (kept[k]?).bind fun e =>
    if offset < e.length then some (e.drop offset ++ (kept.drop (k + 1)).flatten) else none

/-- What a seek command asks for; `none` when there is no such byte. -/
def asked (history : List (List β)) (s : AesdSeekto) : Option (List β) :=
  fromByte (latest 10 history) s.writeCmd.toNat s.writeCmdOffset.toNat

/-- What it is answered with; `none` when the driver refuses it. -/
def seekAnswer (history : List (List β)) (s : AesdSeekto) : Option (List β) :=
  if 10 ≤ s.writeCmd.toNat ∨ (inSlot history s.writeCmd.toNat).length ≤ s.writeCmdOffset.toNat
  then none
  else some ((asked history s).getD (latest 10 history).flatten)

/-- No entry has a number from ten on. -/
theorem asked_eq_none {history : List (List β)} {s : AesdSeekto} (h : 10 ≤ s.writeCmd.toNat) :
    asked history s = none := by
  have hlen := length_latest 10 history
  rw [asked, fromByte, List.getElem?_eq_none (by omega)]
  rfl

theorem asked_isSome {history : List (List β)} {s : AesdSeekto} :
    (asked history s).isSome = true ↔
      s.writeCmdOffset.toNat < ((latest 10 history)[s.writeCmd.toNat]?.getD []).length := by
  rw [asked, fromByte]
  cases (latest 10 history)[s.writeCmd.toNat]? with
  | none =>
      constructor
      · rintro ⟨⟩
      · intro h
        exact absurd h (Nat.not_lt_zero _)
  | some e =>
      show (if s.writeCmdOffset.toNat < e.length then some _ else none).isSome = true ↔ _
      by_cases hoff : s.writeCmdOffset.toNat < e.length
      · rw [if_pos hoff]
        exact ⟨fun _ => hoff, fun _ => rfl⟩
      · rw [if_neg hoff]
        exact ⟨fun h => absurd h Bool.false_ne_true, fun h => absurd h hoff⟩

/-- **WHEN THE ANSWER IS THE ONE ASKED FOR**: exactly when the entry in the slot and
    the entry with the number agree on whether there is such a byte. -/
theorem seekAnswer_eq_asked_iff {history : List (List β)} {s : AesdSeekto}
    (hcmd : s.writeCmd.toNat < 10) :
    seekAnswer history s = asked history s ↔
      (s.writeCmdOffset.toNat < (inSlot history s.writeCmd.toNat).length ↔
        s.writeCmdOffset.toNat < ((latest 10 history)[s.writeCmd.toNat]?.getD []).length) := by
  rw [← asked_isSome, seekAnswer]
  by_cases hslot : s.writeCmdOffset.toNat < (inSlot history s.writeCmd.toNat).length
  · rw [if_neg (by omega)]
    cases asked history s with
    | some answer => exact ⟨fun _ => ⟨fun _ => rfl, fun _ => hslot⟩, fun _ => rfl⟩
    | none =>
        constructor
        · rintro ⟨⟩
        · intro hiff
          exact absurd (hiff.mp hslot) Bool.false_ne_true
  · rw [if_pos (by omega)]
    cases asked history s with
    | some answer =>
        constructor
        · rintro ⟨⟩
        · intro hiff
          exact absurd (hiff.mpr rfl) hslot
    | none =>
        refine ⟨fun _ => ⟨fun h => absurd h hslot, fun h => absurd h Bool.false_ne_true⟩, ?_⟩
        exact fun _ => rfl

/-- Before the first eviction every entry is in the slot of its number. -/
theorem seekAnswer_of_short {history : List (List β)} (hshort : history.length ≤ 10)
    (s : AesdSeekto) : seekAnswer history s = asked history s := by
  by_cases hcmd : s.writeCmd.toNat < 10
  · rw [seekAnswer_eq_asked_iff hcmd, inSlot, firstSlot, show history.length - 10 = 0 by omega]
    rw [Nat.zero_mod, Nat.sub_zero, Nat.add_mod_right, Nat.mod_eq_of_lt hcmd]
  · rw [asked_eq_none (by omega), seekAnswer, if_pos (Or.inl (by omega))]

/-- After ten lines `"\n"` and the line `"ab\n"` the request for byte 2 of the oldest line,
    which has one byte, is answered with everything. -/
example : seekAnswer (List.replicate 10 [10] ++ [[97, 98, 10]]) ⟨0, 2⟩
    = some (List.replicate 9 10 ++ [97, 98, 10]) := by decide

end Answer

/-! ## Where the ring stands -/

section Ring

variable {ws : List (List β)} {d : AesdDev β}

/-- A write moves the reading position when it commits into a full ring. -/
theorem aesdWrite_outOffs {q : SlotQueue 10 (List β)} {pending w : List β}
    (hm : Models d q pending) (ha : accepts WriteEnv.granted d w = true) :
    (aesdWrite WriteEnv.granted d w).1.bufferCircular.outOffs
      = if hasNewline w ∧ q.full then nextOffs d.bufferCircular.outOffs
        else d.bufferCircular.outOffs := by
  cases hn : hasNewline w with
  | true =>
      rw [(aesdWrite_commit hm ha hn).2.1, addEntry_outOffs, hm.ring.full_eq]
      simp
  | false =>
      rw [if_neg (fun h => absurd h.1 Bool.false_ne_true), aesdWrite]
      simp only [hn, Bool.false_and, Bool.false_eq_true, if_false]
      split_ifs <;> rfl

/-- **THE READING POSITION COUNTS THE EVICTIONS**. -/
theorem outOffs_eq (h : GrantedWrites ws d) :
    d.bufferCircular.outOffs = firstSlot (Commits.run ws).history := by
  induction h with
  | nil => rfl
  | @snoc ws d w hws hroom ih =>
      obtain ⟨q, hm, hreg, hitems⟩ := grantedWrites_simulate hws
      rw [aesdWrite_outOffs hm (accepts_granted hroom), ih, Commits.run_concat, Commits.write]
      cases hn : hasNewline w with
      | false =>
          rw [if_neg (fun h => absurd h.1 Bool.false_ne_true), if_neg Bool.false_ne_true]
      | true =>
          have hlen := length_latest 10 (Commits.run ws).history
          rw [← hitems] at hlen
          have hfull := hreg.full_iff
          rw [if_pos rfl]
          show _ = (((Commits.run ws).history ++ [_]).length - 10) % 10
          rw [List.length_append, List.length_singleton]
          by_cases hf : q.full = true
          · rw [if_pos ⟨rfl, hf⟩]
            have hten := hfull.mp hf
            show (firstSlot (Commits.run ws).history + 1) % 10 = _
            rw [firstSlot]
            omega
          · rw [if_neg (fun h => hf h.2)]
            have hne : q.items.length ≠ 10 := fun h => hf (hfull.mpr h)
            rw [firstSlot]
            omega

/-- A slot of the array, from the history. -/
theorem entry_size (h : GrantedWrites ws d) {i : Nat} (hi : i < 10) :
    (d.bufferCircular.entry i).size = (inSlot (Commits.run ws).history i).length := by
  obtain ⟨q, hm, hreg, hitems⟩ := grantedWrites_simulate h
  have hfirst : firstSlot (Commits.run ws).history < 10 := Nat.mod_lt _ (by decide)
  have hslot : (turn d.bufferCircular)[(i + 10 - firstSlot (Commits.run ws).history) % 10]?
      = some (d.bufferCircular.entry i) := by
    have hlt := Nat.mod_lt (i + 10 - firstSlot (Commits.run ws).history) (show 0 < 10 by decide)
    have hwindow := getElem?_window (n := 10) (s := firstSlot (Commits.run ws).history)
      d.bufferCircular.entry hlt
    rw [turn, outOffs_eq h]
    exact hwindow.trans (by rw [show (firstSlot (Commits.run ws).history
      + (i + 10 - firstSlot (Commits.run ws).history) % 10) % 10 = i by omega])
  rw [turn_eq_of_aligned hm hreg.aligned, hm.ring.liveEntries_eq, hitems] at hslot
  rw [inSlot]
  by_cases hlive : (i + 10 - firstSlot (Commits.run ws).history) % 10
      < (latest 10 (Commits.run ws).history).length
  · rw [List.getElem?_append_left (by rw [List.length_map]; exact hlive), List.getElem?_map]
      at hslot
    obtain ⟨b, hb, hbe⟩ := Option.map_eq_some_iff.mp hslot
    rw [hb, ← hbe]
    rfl
  · rw [List.getElem?_append_right (by rw [List.length_map]; omega), List.getElem?_replicate]
      at hslot
    rw [List.getElem?_eq_none (by omega)]
    split at hslot
    · rw [← Option.some.inj hslot]
      rfl
    · exact nomatch hslot

/-- **THE IOCTL**: it refuses, or moves to where the answer begins. -/
theorem seekTo_answer (h : GrantedWrites ws d) (fPos : Int) (s : AesdSeekto) :
    match seekAnswer (Commits.run ws).history s with
    | none => (seekTo d fPos s).1 < 0
    | some answer => ∃ p, seekTo d fPos s = (0, p) ∧
        (latest 10 (Commits.run ws).history).flatten.drop p.toNat = answer := by
  have herr : (-EINVAL : Int) < 0 := by decide
  obtain ⟨q, hm, hreg, hitems⟩ := grantedWrites_simulate h
  rw [seekAnswer, seekTo]
  by_cases hcmd : 10 ≤ s.writeCmd.toNat
  · rw [if_pos (Or.inl hcmd), if_pos (show _ ≥ aesdcharMaxWriteOperationsSupported from hcmd)]
    exact herr
  · rw [if_neg (show ¬ _ ≥ aesdcharMaxWriteOperationsSupported from hcmd),
      entry_size h (Nat.not_le.mp hcmd)]
    by_cases hslot : (inSlot (Commits.run ws).history s.writeCmd.toNat).length
        ≤ s.writeCmdOffset.toNat
    · rw [if_pos (Or.inr hslot), if_pos hslot]
      exact herr
    · rw [if_neg (by omega), if_neg hslot]
      have hread : readable q = latest 10 (Commits.run ws).history := by
        rw [show readable q = q.items from if_pos hreg.aligned, hitems]
      have hbound := hm.readable_bound
      rw [findEntryForIoctl_eq hm.ring (by omega) (Nat.not_le.mp hcmd)]
      rw [hread] at hbound ⊢
      have hzero : loff ((0 : Nat) : Int) = 0 := loff_natCast (by decide)
      rw [asked, fromByte]
      cases hk : (latest 10 (Commits.run ws).history)[s.writeCmd.toNat]? with
      | none =>
          refine ⟨0, ?_, rfl⟩
          rw [← hzero]
      | some e =>
          by_cases hoff : s.writeCmdOffset.toNat < e.length
          · have hle := start_add_length_le hk
            refine ⟨_, rfl, ?_⟩
            simp only [if_pos hoff, Option.bind_some, Option.getD_some]
            rw [loff_natCast (by omega), Int.toNat_natCast, drop_start_add hk (Nat.le_of_lt hoff)]
          · refine ⟨0, ?_, ?_⟩
            · simp only [if_neg hoff]
              rw [← hzero]
            · simp only [if_neg hoff, Option.bind_some, Option.getD_none]
              rfl

end Ring

/-! ## In the server -/

/-- The text of a handler's buffer. -/
def text (h : Handler) : List UInt8 := h.bufferString.bytes.map Tagged.byte

/-- What the parser is given. -/
theorem buffer_text {b : AesdTemperaryBuffer Tagged} {bs : List Tagged} (hholds : Holds b bs)
    (hline : hasNewline b.bytes = true) :
    b.buffptr.map (List.map Octet.octet) = some (b.bytes.map Tagged.byte) ∧
      b.size = (b.bytes.map Tagged.byte).length := by
  have hbytes := hholds.bytes_eq
  cases hholds with
  | null => exact nomatch hline
  | block =>
      rw [hbytes, List.length_map]
      exact ⟨rfl, rfl⟩

/-- The command found in a buffer is the one it spells. -/
theorem parsed_of_spells {i : Nat} {h : Handler} {command spelled : AesdSeekto}
    {ds es r : List UInt8} {after : List UInt8} (hown : OwnBuffer i h.bufferString)
    (hline : hasNewline h.bufferString.bytes = true)
    (hparse : checkForCommandInString (h.bufferString.buffptr.map (List.map Octet.octet))
      h.bufferString.size after = some command)
    (hspells : Spells (text h) spelled ds es r) : command = spelled := by
  obtain ⟨bs, hholds, -, -⟩ := hown
  have hne : r ≠ [] := by
    rintro rfl
    have hquiet := hspells.line
    rw [← List.append_nil (_ ++ es), ← hspells.text, text, hasNewline, List.any_map] at hquiet
    cases hline.symm.trans hquiet
  obtain ⟨found, hfound, hfirst, hsecond⟩ := checkForCommandInString_complete hspells.first
    hspells.second (UInt32.toNat_lt _) (UInt32.toNat_lt _) hne hspells.ends after
  obtain ⟨hbytes, hsize⟩ := buffer_text hholds hline
  rw [hbytes, hsize] at hparse
  rw [← hspells.text] at hfound
  have hsame : found = command := Option.some.inj (hfound.symm.trans hparse)
  rw [← hsame]
  obtain ⟨writeCmd, writeCmdOffset⟩ := found
  obtain ⟨writeCmd', writeCmdOffset'⟩ := spelled
  rw [AesdSeekto.mk.injEq]
  exact ⟨UInt32.toNat_inj.mp hfirst, UInt32.toNat_inj.mp hsecond⟩

/-- How the handler that makes the request goes on: it ends the process, or it sends
    the answer. -/
def GoesOn (u : Server) (i fd : Nat) (command : AesdSeekto) : Option (List Tagged) → Prop
  | none => u.handlers[i]?.map Handler.pc = some (.logAndExit .seekFailed (.pipeWrite 0))
  | some answer => u.handlers[i]?.map Handler.pc = some (.readBack fd) ∧
      onDevice u.shared fd = true ∧
      ∃ p, aesdIoctl u.shared.dev 0 aesdcharIocseekto (some command) = (0, p) ∧
        ∀ (zero : Tagged) (stdio : Stdio), ∃ sent,
          (∃ enough, ∀ fuel, enough ≤ fuel →
            readBack zero stdio true u.shared.dev fuel (opened p) = some ⟨sent, none⟩) ∧
          sent.flatten = answer

/-- **ONE IOCTL**: it leads to what the writes say. -/
theorem goesOn_ioctl {t : Server} {i fd : Nat} {h : Handler} {command : AesdSeekto}
    {ws : List (List Tagged)} (hg : GrantedWrites ws t.shared.dev)
    (hlive : t.shared.exited = false) (hget : t.handlers[i]? = some h)
    (hpc : h.pc = .ioctl fd command) (hopen : onDevice t.shared fd = true) :
    ∃ u, next t (.handler i (.ioctl true)) = some u ∧
      GoesOn u i fd command (seekAnswer (Commits.run ws).history command) := by
  have hlt : i < t.handlers.length := (List.getElem?_eq_some_iff.mp hget).1
  have hioctl : ioctlSeekto t.shared.dev command true = (seekTo t.shared.dev 0 command).1 := by
    rw [ioctlSeekto, if_pos rfl, aesdIoctl_seekto]
  have hanswer := seekTo_answer hg 0 command
  cases hseek : seekAnswer (Commits.run ws).history command with
  | none =>
      rw [hseek] at hanswer
      have hstep : handlerStep (canJoin t (some i)) i t.shared h (.ioctl true)
          = some (seekExit t.shared h) := by
        simp only [handlerStep, hpc, hopen, if_true, hioctl]
        exact if_pos hanswer
      refine ⟨_, next_handler hlive hget hstep, ?_⟩
      show (t.handlers.set i _)[i]?.map Handler.pc = _
      rw [List.getElem?_set_self hlt]
      rfl
  | some answer =>
      rw [hseek] at hanswer
      obtain ⟨p, hp, hdrop⟩ := hanswer
      have hstep : handlerStep (canJoin t (some i)) i t.shared h (.ioctl true)
          = some (t.shared, { h with pc := .readBack fd }) := by
        simp only [handlerStep, hpc, hopen, if_true, hioctl, hp]
        exact if_neg (Int.lt_irrefl 0)
      have hmoved : aesdIoctl t.shared.dev 0 aesdcharIocseekto (some command) = (0, p) := by
        rw [aesdIoctl_seekto]
        exact hp
      have hstart : StartPosition t.shared.dev p := Or.inr ⟨_, _, _, hmoved⟩
      obtain ⟨q, hm, hreg, hitems⟩ := grantedWrites_simulate hg
      refine ⟨_, next_handler hlive hget hstep, ?_, hopen, p, hmoved, ?_⟩
      · show (t.handlers.set i _)[i]?.map Handler.pc = _
        rw [List.getElem?_set_self hlt]
        rfl
      · intro zero stdio
        obtain ⟨sent, hloop, hsent⟩ := readBack_sends hm (hstart.isPosition hm) zero stdio
        refine ⟨sent, hloop, ?_⟩
        rw [hsent, show readable q = q.items from if_pos hreg.aligned, hitems]
        exact hdrop

/-- In every run a handler at its ioctl has parsed its own buffer. -/
theorem parsedAt_run {s t : Server} (hs : Starts s)
    (hrun : RunsTo next (fun _ _ => True) s t) : AllAt (fun _ => ParsedAt) t.handlers := by
  refine hrun.invariant (I := fun t => AllAt (fun _ => ParsedAt) t.handlers)
    (fun _ _ _ hinv _ hnext => parsedAt_next hinv hnext) ?_
  rw [hs.handlers]
  exact allAt_nil _

/-- **THE ANSWER TO A SEEK COMMAND**: the driver is freshly loaded and the server its
    only writer, whose writes are granted.  In every run in which no second `close`
    hits a number handed out again, with any number of clients and in any
    interleaving, a handler at its ioctl has the last section of the log, its command is
    the one its buffer spells, if it spells one, and the ioctl leads to what the log
    says: to the end of the process or to the answer.  Until an entry is evicted that is
    what the command asks for. -/
theorem seek_answered {s t : Server} {log : List Section} {i fd : Nat} {h : Handler}
    {command : AesdSeekto} (hs : Starts s) (hdev : s.shared.dev = aesdInitModule)
    (hrun : Emits next (fun s a => undisturbed s a = true) opens s log t)
    (hlive : t.shared.exited = false) (hget : t.handlers[i]? = some h)
    (hpc : h.pc = .ioctl fd command) :
    log.getLast? = some ⟨i, none⟩ ∧
      (∀ spelled ds es r, Spells (text h) spelled ds es r → command = spelled) ∧
      (∃ u, next t (.handler i (.ioctl true)) = some u ∧
        GoesOn u i fd command (seekAnswer (committed log).history command)) ∧
      ((committed log).history.length ≤ 10 →
        seekAnswer (committed log).history command = asked (committed log).history command) := by
  have hl := logged_run hs hdev hrun
  have hin : inside h.pc = true := by rw [hpc]; rfl
  have hpayload := hl.payloads i h hget
  have hlast := hl.last i h hget
  simp only [LastAt, hpc] at hlast
  refine ⟨hlast, ?_, ?_, fun hshort => seekAnswer_of_short hshort command⟩
  · have hparsed := parsedAt_run hs (hrun.runsTo.mono fun _ _ _ => trivial)
    obtain ⟨after, hparse⟩ := hparsed i h hget fd command hpc
    intro spelled ds es r hspells
    exact parsed_of_spells hpayload.own (hpayload.newline (Or.inr hin)) hparse hspells
  · have hahead : ahead t = [] := by
      rw [ahead_of_held (hl.locked i h hget hin) hget, hpc]
      rfl
    have hfile := (hl.held.handlers i h hget).file fd (by rw [hpc]; rfl)
    exact goesOn_ioctl (hl.granted hahead) hlive hget hpc (onDevice_file hfile)

/-- A client stores the line `"a\n"`, reads it back, and asks for its byte 0. -/
def asksForFirst : List Action :=
  List.flatten [connect, receives 0 [97, 10], writesLine 0, readsBack 0 1, receives 0 seekLine,
    [.handler 0 .lock, .handler 0 (.command [])]]

/-- It is answered with the line. -/
theorem seek_answered_asksForFirst :
    ∃ log t u p sent, Emits next (fun s a => undisturbed s a = true) opens (freshServer 5) log t ∧
      next t (.handler 0 (.ioctl true)) = some u ∧
      (∃ enough, ∀ fuel, enough ≤ fuel →
        readBack ⟨0, 0⟩ ⟨fun _ => blockSize, false, fun _ => by decide⟩ true u.shared.dev fuel
          (opened p) = some ⟨sent, none⟩) ∧
      sent.flatten = tag 0 [97, 10] := by
  obtain ⟨log, t, hrun, hseen⟩ := @exists_emits _ _ _ next undisturbed opens (freshServer 5)
    asksForFirst _ (fun r => (r.2.handlers.map Handler.pc, r.2.shared.exited,
      seekAnswer (committed r.1).history ⟨0, 0⟩))
    ([.ioctl 7 ⟨0, 0⟩], false, some (tag 0 [97, 10])) (by decide +kernel)
  simp only [Prod.mk.injEq] at hseen
  obtain ⟨hpcs, hlive, hanswer⟩ := hseen
  obtain ⟨h, hget, hpc⟩ := exists_handler_at hpcs (i := 0) rfl
  obtain ⟨-, -, ⟨u, hnext, hgoes⟩, -⟩ :=
    seek_answered (starts_freshServer 5) rfl hrun hlive hget hpc
  rw [hanswer] at hgoes
  obtain ⟨-, -, p, -, hsends⟩ := hgoes
  obtain ⟨sent, hloop, hsent⟩ := hsends ⟨0, 0⟩ ⟨fun _ => blockSize, false, fun _ => by decide⟩
  exact ⟨log, t, u, p, sent, hrun, hnext, hloop, hsent⟩

end AesdSeekAnswer
