import Aesd.ClientHandlerProofs
import Aesd.CommandGrammarProofs

/-! # What the segmentation of a stream changes

    The handler is meant to commit a packet in the iteration in which its newline
    arrives.  It does so exactly when the newline lies within the first bytes the
    scan looks at (`Scanned`): the bytes pending before the chunk, plus those in
    front of the chunk's first newline, have to be fewer than the chunk has.  A
    newline that arrives later stays in `bufferString`, which is why the effect
    of a stream depends on how it was cut.

    Both results go through `Packets`: along a scanned cutting the pending bytes
    never have a newline and are the bytes received since the last chunk that
    had one (`Quiet`).

    A seek command asks for more.  It is recognised only at the start of the buffer,
    and what the buffer has behind it is discarded, so a newline in the middle of a
    chunk hides a command or drops a line (`commands_hidden`).  Where newlines end
    their chunks, the commits are the lines of the stream (`does_lines`). -/

namespace AesdSegmentation

open AesdMachine AesdTemperary AesdCommand AesdCommandGrammar AesdClient Scanner

variable {β : Type} [Octet β]

/-- Bytes received since the last chunk with a newline. -/
def sinceNewline (chunks : List (List β)) : Nat :=
  ((chunks.reverse.takeWhile fun c => !hasNewline c).map List.length).sum

/-- The first newline of the accumulated data, when the chunk brings it, is among
    the bytes the scan looks at. -/
def InSight (pre : List (List β)) (chunk : List β) : Prop :=
  hasNewline chunk = true → sinceNewline pre + chunk.findIdx isNewline < chunk.length

/-- Every newline that arrives is in sight of its scan. -/
def Scanned (chunks : List (List β)) : Prop :=
  ∀ pre chunk, pre ++ [chunk] <+: chunks → InSight pre chunk

theorem sinceNewline_concat (chunks : List (List β)) (chunk : List β) :
    sinceNewline (chunks ++ [chunk])
      = if hasNewline chunk then 0 else chunk.length + sinceNewline chunks := by
  simp only [sinceNewline, List.reverse_append, List.reverse_singleton, List.singleton_append,
    List.takeWhile_cons]
  cases hasNewline chunk <;> simp

/-- Among the first `k` bytes there is a newline exactly when the first one is. -/
theorem hasNewline_take_iff (bs : List β) (k : Nat) (hk : k ≤ bs.length) :
    hasNewline (bs.take k) = true ↔ bs.findIdx isNewline < k := by
  induction bs generalizing k with
  | nil =>
      have hk0 : k = 0 := Nat.le_zero.mp hk
      simp [hk0]
  | cons b bs ih =>
      cases k with
      | zero => simp
      | succ k =>
          have hk' : k ≤ bs.length := Nat.le_of_succ_le_succ hk
          rw [List.take_succ_cons, List.findIdx_cons]
          cases hb : isNewline b with
          | true => simp [hasNewline, hb]
          | false =>
              have htail := ih k hk'
              simp only [hasNewline, List.any_cons, hb, Bool.false_or, cond_false] at htail ⊢
              rw [htail, Nat.succ_lt_succ_iff]

/-- The scan against the first newline of the chunk, when nothing older has one. -/
theorem takes_iff {old : List β} (chunk : List β) (hold : hasNewline old = false) :
    takes old chunk = true ↔ old.length + chunk.findIdx isNewline < chunk.length := by
  have htake : hasNewline (old.take chunk.length) = false := by
    rw [Bool.eq_false_iff] at hold ⊢
    intro h
    obtain ⟨b, hb, hnl⟩ := List.any_eq_true.mp h
    exact hold (List.any_eq_true.mpr ⟨b, List.mem_of_mem_take hb, hnl⟩)
  simp only [takes, List.take_append, hasNewline_append, htake, Bool.false_or]
  rw [hasNewline_take_iff _ _ (Nat.sub_le _ _)]
  omega

/-! ## Prompt commits -/

/-- The handler commits in time: along these chunks, whenever it is at `poll` its
    buffer has no newline, it takes the branch only when the accumulated data has
    one, and goes back to `poll` only when it has none. -/
def Prompt (chunks : List (List β)) : Prop :=
  ∀ pre, pre <+: chunks → ∀ b commits, AtPoll pre b commits →
    hasNewline b.bytes = false ∧
      ∀ chunk, pre ++ [chunk] <+: chunks → ∀ granted b',
        (receive granted b (some chunk) = .commit b' → hasNewline (b.bytes ++ chunk) = true) ∧
        (receive granted b (some chunk) = .again b' → hasNewline (b.bytes ++ chunk) = false)

/-- The pending bytes are those since the last newline. -/
structure Quiet (pre : List (List β)) : Prop where
  silent : hasNewline (Packets.run pre).pending = false
  length : (Packets.run pre).pending.length = sinceNewline pre

theorem quiet_nil : Quiet ([] : List (List β)) := ⟨rfl, rfl⟩

section Step

variable {pre : List (List β)} {chunk : List β}

/-- In a quiet state the scan sees a newline exactly when it is there to be seen,
    if and only if the chunk's first newline is in sight. -/
theorem Quiet.takes_eq_iff (h : Quiet pre) :
    takes (Packets.run pre).pending chunk = hasNewline ((Packets.run pre).pending ++ chunk) ↔
      InSight pre chunk := by
  have htakes := takes_iff chunk h.silent
  rw [h.length] at htakes
  rw [hasNewline_append, h.silent, Bool.false_or]
  simp only [InSight, ← htakes]
  constructor
  · intro heq hn
    rw [heq, hn]
  · intro himp
    cases hn : hasNewline chunk with
    | true => exact himp hn
    | false =>
        rw [Bool.eq_false_iff]
        intro ht
        -- a newline in front of the chunk's end is a newline of the chunk
        have hidx := htakes.mp ht
        have hsome : hasNewline (chunk.take chunk.length) = true :=
          (hasNewline_take_iff chunk _ (Nat.le_refl _)).mpr (by omega)
        rw [List.take_length, hn] at hsome
        exact nomatch hsome

/-- A chunk whose newline is in sight leaves a quiet state. -/
theorem Quiet.receive (h : Quiet pre) (hsight : InSight pre chunk) : Quiet (pre ++ [chunk]) := by
  have heq := h.takes_eq_iff.mpr hsight
  have happ : hasNewline ((Packets.run pre).pending ++ chunk) = hasNewline chunk := by
    rw [hasNewline_append, h.silent, Bool.false_or]
  rw [happ] at heq
  have hrun : Packets.run (pre ++ [chunk]) = if hasNewline chunk then
      ⟨[], (Packets.run pre).commits ++ [(Packets.run pre).pending ++ chunk]⟩
      else ⟨(Packets.run pre).pending ++ chunk, (Packets.run pre).commits⟩ := by
    rw [Packets.run_concat, Packets.receive, heq]
  cases hn : hasNewline chunk with
  | true =>
      rw [hn, if_pos rfl] at hrun
      refine ⟨by rw [hrun]; rfl, ?_⟩
      rw [hrun, sinceNewline_concat, hn]
      rfl
  | false =>
      rw [hn, if_neg Bool.false_ne_true] at hrun
      refine ⟨by rw [hrun]; exact happ.trans hn, ?_⟩
      rw [hrun, sinceNewline_concat, hn, List.length_append, h.length]
      exact Nat.add_comm _ _

end Step

/-- The run lemma: all the way along a scanned cutting the state is quiet. -/
theorem Scanned.quiet {chunks : List (List β)} (h : Scanned chunks) :
    ∀ pre, pre <+: chunks → Quiet pre := by
  intro pre
  induction pre using List.reverseRecOn with
  | nil => exact fun _ => quiet_nil
  | append_singleton pre chunk ih =>
      intro hpre
      exact (ih ((List.prefix_append _ _).trans hpre)).receive (h pre chunk hpre)

section Converse

variable {chunks pre : List (List β)} {chunk : List β}

/-- A handler that commits in time had the newline in sight: the chunk is really
    received, and its branch compares with what the buffer then has. -/
theorem Prompt.inSight (hprompt : Prompt chunks) (hchunks : ∀ c ∈ chunks, IsChunk c)
    (hlen : chunks.flatten.length < 2 ^ 63) (hquiet : Quiet pre)
    (hpre : pre ++ [chunk] <+: chunks) : InSight pre chunk := by
  have hpre' : pre <+: chunks := (List.prefix_append _ _).trans hpre
  have hmem : IsChunk chunk :=
    hchunks chunk (hpre.subset (List.mem_append_right _ (List.mem_singleton_self _)))
  have hroom : pre.flatten.length + chunk.length < 2 ^ 63 := by
    obtain ⟨tail, rfl⟩ := hpre
    simp only [List.flatten_append, List.length_append, List.flatten_singleton] at hlen
    omega
  obtain ⟨b, commits, hat⟩ := exists_atPoll [] pre
    (fun c hc => hchunks c (hpre'.subset hc)) (by omega)
  obtain ⟨hholds, hlt, -, -⟩ := hat.simulates
  have hm : malloc true ((Packets.run pre).pending.length + chunk.length) = true := by
    have hle := Packets.pending_length_le pre
    exact malloc_eq_true.mpr ⟨rfl, by omega⟩
  have hturn := (hprompt pre hpre' b commits hat).2 chunk hpre true
    (held ((Packets.run pre).pending ++ chunk))
  rw [hholds.bytes_eq, receive_eq hholds hlt hmem.1 hmem.2, if_pos hm] at hturn
  rw [← hquiet.takes_eq_iff]
  cases ht : takes (Packets.run pre).pending chunk with
  | true => exact (hturn.1 (by rw [ht, if_pos rfl])).symm
  | false => exact (hturn.2 (by rw [ht, if_neg Bool.false_ne_true])).symm

theorem Prompt.quiet (hprompt : Prompt chunks) (hchunks : ∀ c ∈ chunks, IsChunk c)
    (hlen : chunks.flatten.length < 2 ^ 63) : ∀ pre, pre <+: chunks → Quiet pre := by
  intro pre
  induction pre using List.reverseRecOn with
  | nil => exact fun _ => quiet_nil
  | append_singleton pre chunk ih =>
      intro hpre
      have hquiet := ih ((List.prefix_append _ _).trans hpre)
      exact hquiet.receive (hprompt.inSight hchunks hlen hquiet hpre)

end Converse

/-- **WHEN COMMITS ARE PROMPT**: along every cutting whose newlines are all in
    sight of their scans, and, as long as the stream fits into memory, along no
    other. -/
theorem clientHandler_prompt {chunks : List (List β)} (hchunks : ∀ c ∈ chunks, IsChunk c) :
    (Scanned chunks → Prompt chunks) ∧
      (chunks.flatten.length < 2 ^ 63 → Prompt chunks → Scanned chunks) := by
  constructor
  · intro hscan pre hpre b commits hat
    obtain ⟨hholds, hlt, -, -⟩ := hat.simulates
    have hquiet := hscan.quiet pre hpre
    rw [hholds.bytes_eq]
    refine ⟨hquiet.silent, ?_⟩
    intro chunk hchunk granted b'
    have hmem : IsChunk chunk :=
      hchunks chunk (hchunk.subset (List.mem_append_right _ (List.mem_singleton_self _)))
    rw [← hquiet.takes_eq_iff.mpr (hscan pre chunk hchunk),
      receive_eq hholds hlt hmem.1 hmem.2]
    cases malloc granted ((Packets.run pre).pending.length + chunk.length) <;>
      cases takes (Packets.run pre).pending chunk <;> simp
  · intro hlen hprompt pre chunk hpre
    have hquiet := hprompt.quiet hchunks hlen pre ((List.prefix_append _ _).trans hpre)
    exact hprompt.inSight hchunks hlen hquiet hpre

theorem scanned_nil : Scanned ([] : List (List β)) := by
  rintro pre chunk ⟨tail, htail⟩
  simp at htail

/-- One chunk more. -/
theorem scanned_concat {chunks : List (List β)} {chunk : List β} (h : Scanned chunks)
    (hsight : InSight chunks chunk) : Scanned (chunks ++ [chunk]) := by
  intro pre c hpre
  rcases List.prefix_concat_iff.mp hpre with heq | hold
  · obtain ⟨rfl, hc⟩ := List.append_inj' heq rfl
    rw [List.singleton_inj.mp hc]
    exact hsight
  · exact h pre c hold

/-- `"a"`, and then the rest of its packet with the beginning of the next one. -/
def accumulating : List (List UInt8) := [[97], [98, 10, 99, 99, 99]]

/-- Both bytes in front of the newline are among the five that the scan looks at. -/
theorem clientHandler_prompt_accumulating : Scanned accumulating ∧ Prompt accumulating := by
  have hscan : Scanned ([] ++ [[97]] ++ [[98, 10, 99, 99, 99]] : List (List UInt8)) := by
    refine scanned_concat (scanned_concat scanned_nil ?_) ?_
    · rintro ⟨⟩
    · rintro -
      decide
  refine ⟨hscan, (clientHandler_prompt ?_).1 hscan⟩
  intro c hc
  simp only [accumulating, List.mem_cons, List.not_mem_nil, or_false] at hc
  rcases hc with rfl | rfl <;> exact ⟨by decide, by decide⟩

/-- **A NEWLINE LEFT BEHIND**: after `"ab"` and `"c\n"` the handler is back at
    `poll` with the whole packet in its buffer. -/
theorem clientHandler_leaves_newline :
    ∃ b commits, AtPoll ([[97, 98], [99, 10]] : List (List UInt8)) b commits ∧
      b.bytes = [97, 98, 99, 10] ∧ commits = [] ∧
      ¬ Prompt ([[97, 98], [99, 10]] : List (List UInt8)) := by
  obtain ⟨b, commits, hat⟩ := exists_atPoll [] ([[97, 98], [99, 10]] : List (List UInt8))
    (by intro c hc; simp at hc; rcases hc with rfl | rfl <;> exact ⟨by decide, by decide⟩)
    (by decide)
  obtain ⟨hholds, -, hfst, -⟩ := hat.simulates
  have hbytes : b.bytes = [97, 98, 99, 10] := hholds.bytes_eq
  refine ⟨b, commits, hat, hbytes, List.map_eq_nil_iff.mp hfst, ?_⟩
  intro hprompt
  have hno := (hprompt _ List.prefix_rfl b commits hat).1
  rw [hbytes] at hno
  exact nomatch hno

/-! ## Two cuttings of one stream -/

/-- The chunks are a cutting of the stream `s`. -/
def Cuts (chunks : List (List β)) (s : List β) : Prop :=
  chunks.flatten = s ∧ ∀ c ∈ chunks, IsChunk c

/-- Join adjacent writes. -/
def joined : List (DeviceAction β) → List (DeviceAction β)
  | [] => []
  | .seek command :: actions => .seek command :: joined actions
  | .write bytes :: actions =>
      match joined actions with
      | .write more :: rest => .write (bytes ++ more) :: rest
      | rest => .write bytes :: rest

/-- The commit used all bytes of its buffer: as data, or as a seek line with
    nothing behind its newline. -/
def Undropped (c : List β × DeviceAction β) : Prop :=
  match c.2 with
  | .write bytes => bytes = c.1
  | .seek _ => hasNewline c.1.dropLast = false

/-- Two cuttings have the same effect on the device, and neither drops a byte nor
    leaves one in the buffer. -/
def SameEffect (chunks chunks' : List (List β)) : Prop :=
  ∀ b commits b' commits', AtPoll chunks b commits → AtPoll chunks' b' commits' →
    joined (commits.map Prod.snd) = joined (commits'.map Prod.snd) ∧
      (b.bytes = [] ∧ b'.bytes = []) ∧ ∀ c ∈ commits ++ commits', Undropped c

omit [Octet β] in
theorem joined_writes (bs : List β) (bss : List (List β)) :
    joined ((bs :: bss).map DeviceAction.write) = [.write (bs :: bss).flatten] := by
  induction bss generalizing bs with
  | nil => simp [joined]
  | cons cs bss ih =>
      rw [List.map_cons]
      simp only [joined, ih cs, List.flatten_cons]

/-- One-byte chunks: from the first byte that is no newline on, everything stays
    pending. -/
theorem run_singletons (s : List β) :
    (Packets.run (s.map fun b => [b])).pending = s.dropWhile isNewline := by
  induction s using List.reverseRecOn with
  | nil => rfl
  | append_singleton s b ih =>
      rw [List.map_append, List.map_singleton, Packets.run_concat, Packets.receive, ih,
        List.dropWhile_append]
      cases hdrop : s.dropWhile isNewline with
      | nil =>
          -- nothing pending: the one byte decides
          cases hb : isNewline b <;> simp [takes, hasNewline, hb]
      | cons x rest =>
          have hx : isNewline x = false := by
            have hhead := List.head?_dropWhile_not isNewline s
            simpa [hdrop] using hhead
          simp [takes, hasNewline, hx]

section Data

variable {s : List UInt8} {chunks : List (List UInt8)}

/-- Along a scanned cutting nothing is left of a stream that ends in a newline. -/
theorem Scanned.pending_nil (hscan : Scanned chunks) (hcut : Cuts chunks s)
    (hend : s.getLast? = some newline) : (Packets.run chunks).pending = [] := by
  have hquiet := (hscan.quiet chunks List.prefix_rfl).silent
  have hflat := (Packets.run_flatten chunks).trans hcut.1
  by_cases hnil : (Packets.run chunks).pending = []
  · exact hnil
  · rw [← hflat, List.getLast?_append_of_ne_nil _ hnil] at hend
    have hmem := List.mem_of_getLast? hend
    have hnl : hasNewline (Packets.run chunks).pending = true :=
      List.any_eq_true.mpr ⟨_, hmem, rfl⟩
    rw [hquiet] at hnl
    exact nomatch hnl

/-- A committed piece of a stream without the command prefix is written as data. -/
theorem write_of_not_infix {c : List UInt8 × DeviceAction UInt8} (hc : Committed c)
    (hno : ¬ seekCmdPrefix <:+: c.1) : c.2 = .write c.1 := by
  obtain ⟨after, hact⟩ := hc
  rw [hact]
  simp only [deviceAction, held, Option.map_some]
  have hoctets : c.1.map Octet.octet = c.1 := List.map_id c.1
  rw [hoctets]
  cases hparse : checkForCommandInString (some c.1) c.1.length after with
  | none => exact congrArg DeviceAction.write (held_bytes c.1)
  | some command => exact absurd (prefix_of_checkForCommandInString hparse).isInfix hno

/-- **DATA IN SIGHT**: a stream without the command prefix, along a scanned
    cutting, is written whole. -/
theorem Scanned.writes_stream (hscan : Scanned chunks) (hcut : Cuts chunks s)
    (hend : s.getLast? = some newline) (hno : ¬ seekCmdPrefix <:+: s)
    {b : AesdTemperaryBuffer UInt8} {commits : List (List UInt8 × DeviceAction UInt8)}
    (hat : AtPoll chunks b commits) :
    joined (commits.map Prod.snd) = [.write s] ∧ b.bytes = [] ∧
      ∀ c ∈ commits, Undropped c := by
  obtain ⟨hholds, -, hfst, hcommitted⟩ := hat.simulates
  have hnil := hscan.pending_nil hcut hend
  have hflat : (commits.map Prod.fst).flatten = s := by
    rw [hfst, ← hcut.1, ← Packets.run_flatten chunks, hnil, List.append_nil]
  have hwrite : ∀ c ∈ commits, c.2 = .write c.1 := by
    intro c hc
    refine write_of_not_infix (hcommitted c hc) fun hin => hno (hin.trans ?_)
    rw [← hflat]
    exact List.infix_of_mem_flatten (List.mem_map_of_mem hc)
  refine ⟨?_, hholds.bytes_eq.trans hnil, ?_⟩
  · have hmap : commits.map Prod.snd = (commits.map Prod.fst).map DeviceAction.write := by
      rw [List.map_map]
      exact List.map_congr_left hwrite
    cases hcs : commits.map Prod.fst with
    | nil =>
        rw [hcs] at hflat
        rw [← hflat] at hend
        exact nomatch hend
    | cons bs bss => rw [hmap, hcs, joined_writes, ← hcs, hflat]
  · intro c hc
    simp only [Undropped, hwrite c hc]

/-- A stream of newlines is in sight however it is cut. -/
theorem scanned_of_newlines (hcut : Cuts chunks s) (hs : ∀ x ∈ s, x = newline) :
    Scanned chunks := by
  have hall : ∀ c ∈ chunks, ∀ x ∈ c, isNewline x = true := by
    intro c hc x hx
    rw [hs x (hcut.1 ▸ List.mem_flatten_of_mem hc hx)]
    rfl
  intro pre chunk hpre hn
  -- every chunk has a newline, so nothing is pending in front of one
  have hsince : sinceNewline pre = 0 := by
    cases pre using List.reverseRecOn with
    | nil => rfl
    | append_singleton pre c =>
        have hc : c ∈ chunks := hpre.subset (by simp)
        obtain ⟨x, rest, rfl⟩ := List.exists_cons_of_length_pos (hcut.2 c hc).1
        have hx := hall _ hc x (List.mem_cons_self ..)
        rw [sinceNewline_concat, if_pos (by simp [hasNewline, hx])]
  have hchunk : chunk ∈ chunks := hpre.subset (by simp)
  obtain ⟨x, rest, rfl⟩ := List.exists_cons_of_length_pos (hcut.2 _ hchunk).1
  rw [hsince, List.findIdx_cons, hall _ hchunk x (List.mem_cons_self ..)]
  simp

/-- Nor does it contain the command prefix. -/
theorem not_infix_of_newlines (hs : ∀ x ∈ s, x = newline) : ¬ seekCmdPrefix <:+: s := by
  intro hin
  have hA : (65 : UInt8) = newline := hs 65 (hin.subset (List.mem_cons_self ..))
  exact absurd hA (by decide)

theorem cuts_singletons (s : List UInt8) : Cuts (s.map fun b => [b]) s := by
  refine ⟨by simp [← List.flatMap_def], ?_⟩
  intro c hc
  obtain ⟨b, -, rfl⟩ := List.mem_map.mp hc
  exact ⟨Nat.one_pos, show 1 < 512 by decide⟩

end Data

/-- **WHEN SEGMENTATION DOES NOT MATTER**: for a stream that ends in a newline, any
    two cuttings have the same effect exactly when the stream has no other byte.
    Two cuttings whose newlines are all in sight have the same effect whenever
    the command prefix occurs nowhere in the stream. -/
theorem clientHandler_segmentation {s : List UInt8} (hend : s.getLast? = some newline)
    (hlen : s.length < 2 ^ 63) :
    ((∀ chunks chunks', Cuts chunks s → Cuts chunks' s → SameEffect chunks chunks') ↔
      ∀ x ∈ s, x = newline) ∧
    (¬ seekCmdPrefix <:+: s → ∀ chunks chunks', Cuts chunks s → Cuts chunks' s →
      Scanned chunks → Scanned chunks' → SameEffect chunks chunks') := by
  have hdata : ¬ seekCmdPrefix <:+: s → ∀ chunks chunks', Cuts chunks s → Cuts chunks' s →
      Scanned chunks → Scanned chunks' → SameEffect chunks chunks' := by
    intro hno chunks chunks' hcut hcut' hscan hscan' b commits b' commits' hat hat'
    obtain ⟨hjoin, hleft, hdrop⟩ := hscan.writes_stream hcut hend hno hat
    obtain ⟨hjoin', hleft', hdrop'⟩ := hscan'.writes_stream hcut' hend hno hat'
    refine ⟨hjoin.trans hjoin'.symm, ⟨hleft, hleft'⟩, ?_⟩
    intro c hc
    rcases List.mem_append.mp hc with hc | hc
    · exact hdrop c hc
    · exact hdrop' c hc
  refine ⟨⟨?_, ?_⟩, hdata⟩
  · intro hsame
    -- one byte at a time, everything after the first other byte is left behind
    have hcut := cuts_singletons s
    obtain ⟨b, commits, hat⟩ := exists_atPoll [] (s.map fun b => [b]) hcut.2
      (by rw [hcut.1]; exact hlen)
    have hleft := (hsame _ _ hcut hcut b commits b commits hat hat).2.1.1
    rw [hat.simulates.1.bytes_eq, run_singletons, List.dropWhile_eq_nil_iff] at hleft
    intro x hx
    exact eq_of_beq (hleft x hx)
  · intro hs chunks chunks' hcut hcut'
    exact hdata (not_infix_of_newlines hs) chunks chunks' hcut hcut'
      (scanned_of_newlines hcut hs) (scanned_of_newlines hcut' hs)

/-- Two empty lines in one chunk and in two. -/
theorem clientHandler_segmentation_empty_lines :
    Cuts [[10, 10]] ([10, 10] : List UInt8) ∧ Cuts [[10], [10]] ([10, 10] : List UInt8) ∧
      SameEffect ([[10, 10]] : List (List UInt8)) [[10], [10]] := by
  have hone : Cuts [[10, 10]] ([10, 10] : List UInt8) := by
    refine ⟨rfl, fun c hc => ?_⟩
    rw [List.mem_singleton.mp hc]
    exact ⟨by decide, by decide⟩
  have htwo : Cuts [[10], [10]] ([10, 10] : List UInt8) := cuts_singletons [10, 10]
  have hnewlines : ∀ x ∈ ([10, 10] : List UInt8), x = newline := by
    intro x hx
    simpa [newline] using hx
  exact ⟨hone, htwo,
    (clientHandler_segmentation rfl (by decide)).1.mpr hnewlines _ _ hone htwo⟩

/-- **THE SAME LINE, CUT**: `"a\n"` in one chunk is written to the device; in two
    chunks nothing is written and both bytes stay in the buffer. -/
theorem clientHandler_segmentation_matters :
    Cuts [[97, 10]] ([97, 10] : List UInt8) ∧ Cuts [[97], [10]] ([97, 10] : List UInt8) ∧
      (∃ b commits b' commits', AtPoll ([[97, 10]] : List (List UInt8)) b commits ∧
        AtPoll ([[97], [10]] : List (List UInt8)) b' commits' ∧
        commits.map Prod.snd = [.write [97, 10]] ∧ commits' = [] ∧ b'.bytes = [97, 10]) ∧
      ¬ SameEffect ([[97, 10]] : List (List UInt8)) [[97], [10]] := by
  have hone : Cuts [[97, 10]] ([97, 10] : List UInt8) := by
    refine ⟨rfl, fun c hc => ?_⟩
    rw [List.mem_singleton.mp hc]
    exact ⟨by decide, by decide⟩
  have htwo : Cuts [[97], [10]] ([97, 10] : List UInt8) := cuts_singletons [97, 10]
  obtain ⟨b, commits, hat⟩ := exists_atPoll [] _ hone.2 (by decide)
  obtain ⟨b', commits', hat'⟩ := exists_atPoll [] _ htwo.2 (by decide)
  obtain ⟨-, -, hfst, hcommitted⟩ := hat.simulates
  obtain ⟨hholds', -, hfst', -⟩ := hat'.simulates
  have hbytes' : b'.bytes = [97, 10] := hholds'.bytes_eq
  have hsnd : commits.map Prod.snd = [.write [97, 10]] := by
    have hlist : commits.map Prod.fst = [[97, 10]] := hfst
    obtain ⟨c, rest, rfl⟩ := List.exists_cons_of_ne_nil
      (fun h : commits = [] => by rw [h] at hlist; exact nomatch hlist)
    rw [List.map_cons, List.cons.injEq, List.map_eq_nil_iff] at hlist
    obtain ⟨hc, rfl⟩ := hlist
    have hno : ¬ seekCmdPrefix <:+: c.1 := by
      rw [hc]
      exact fun hin => absurd hin.length_le (by decide)
    rw [List.map_singleton, write_of_not_infix (hcommitted c (List.mem_singleton_self c)) hno, hc]
  refine ⟨hone, htwo, ⟨b, commits, b', commits', hat, hat', hsnd,
    List.map_eq_nil_iff.mp hfst', hbytes'⟩, ?_⟩
  intro hsame
  have hleft := (hsame b commits b' commits' hat hat').2.1.2
  rw [hbytes'] at hleft
  exact nomatch hleft

/-! ## Commands among the lines -/

/-- The newlines are at the ends of the chunks. -/
def LineEnds (chunks : List (List β)) : Prop := ∀ c ∈ chunks, hasNewline c.dropLast = false

/-- One newline, at the end. -/
def IsLine (l : List β) : Prop := hasNewline l = true ∧ hasNewline l.dropLast = false

/-- The stream cut behind each newline. -/
def linesOf : List β → List (List β)
  | [] => []
  | b :: bs =>
      if isNewline b then [b] :: linesOf bs
      else match linesOf bs with
        | [] => [[b]]
        | l :: ls => (b :: l) :: ls

/-- A line in front of a stream is the first of its lines. -/
theorem linesOf_append {l : List β} (hl : IsLine l) (s : List β) :
    linesOf (l ++ s) = l :: linesOf s := by
  induction l with
  | nil => exact nomatch hl.1
  | cons b l ih =>
      rw [List.cons_append, linesOf]
      cases l with
      | nil =>
          have hb : isNewline b = true := by simpa [hasNewline] using hl.1
          rw [if_pos hb, List.nil_append]
      | cons c l =>
          have hsplit : isNewline b = false ∧ hasNewline (c :: l).dropLast = false := by
            simpa [hasNewline] using hl.2
          have hline : IsLine (c :: l) := by
            refine ⟨?_, hsplit.2⟩
            simpa [hasNewline, hsplit.1] using hl.1
          rw [if_neg (Bool.eq_false_iff.mp hsplit.1), ih hline]

theorem linesOf_flatten {ls : List (List β)} (h : ∀ l ∈ ls, IsLine l) :
    linesOf ls.flatten = ls := by
  induction ls with
  | nil => rfl
  | cons l ls ih =>
      rw [List.flatten_cons, linesOf_append (h l (List.mem_cons_self ..)),
        ih fun l' hl' => h l' (List.mem_cons_of_mem _ hl')]

/-- **THE COMMITS ARE LINES**, along a scanned cutting with newlines only at the ends of
    its chunks. -/
theorem Scanned.commits_lines {chunks : List (List β)} (hscan : Scanned chunks)
    (hends : LineEnds chunks) :
    ∀ pre, pre <+: chunks → ∀ l ∈ (Packets.run pre).commits, IsLine l := by
  intro pre
  induction pre using List.reverseRecOn with
  | nil => rintro - l ⟨⟩
  | append_singleton pre chunk ih =>
      intro hpre l hl
      have hpre' : pre <+: chunks := (List.prefix_append _ _).trans hpre
      have hquiet := hscan.quiet pre hpre'
      rw [Packets.run_concat, Packets.receive, hquiet.takes_eq_iff.mpr (hscan pre chunk hpre),
        hasNewline_append, hquiet.silent, Bool.false_or] at hl
      cases hn : hasNewline chunk with
      | false =>
          rw [hn, if_neg Bool.false_ne_true] at hl
          exact ih hpre' l hl
      | true =>
          rw [hn, if_pos rfl] at hl
          rcases List.mem_append.mp hl with hold | hnew
          · exact ih hpre' l hold
          · -- the pending bytes have no newline, and the chunk has one at its end
            have hne : chunk ≠ [] := by
              rintro rfl
              cases hn
            have hend := hends chunk
              (hpre.subset (List.mem_append_right _ (List.mem_singleton_self _)))
            rw [List.mem_singleton.mp hnew]
            refine ⟨?_, ?_⟩
            · rw [hasNewline_append, hn, Bool.or_true]
            · rw [List.dropLast_append_of_ne_nil hne, hasNewline_append, hquiet.silent, hend]
              rfl

/-- What the line does to the device does not depend on the memory behind it. -/
def Settled (l : List UInt8) : Prop :=
  ∀ after, deviceAction after (held l) = deviceAction [] (held l)

/-- The branch of the critical section, for bytes. -/
theorem deviceAction_held (after l : List UInt8) :
    deviceAction after (held l) = match checkForCommandInString (some l) l.length after with
      | some command => .seek command
      | none => .write l := by
  have hoctets : l.map Octet.octet = l := List.map_id l
  simp only [deviceAction, held, Option.map_some, hoctets]
  cases checkForCommandInString (some l) l.length after with
  | none => exact congrArg DeviceAction.write (held_bytes l)
  | some command => rfl

/-- A line of data is settled -/
theorem settled_of_data {l : List UInt8} (h : ¬ seekCmdPrefix <+: l) : Settled l := by
  intro after
  rw [deviceAction_held, deviceAction_held, checkForCommandInString_eq_none h,
    checkForCommandInString_eq_none h]

/-- and so is a line that spells a command. -/
theorem settled_of_command {ds es : List UInt8} {x y : Nat} (hds : IsDecimal ds x)
    (hes : IsDecimal es y) (hx : x < 2 ^ 32) (hy : y < 2 ^ 32) :
    Settled (seekCmdPrefix ++ (ds ++ 44 :: (es ++ [newline]))) := by
  have hstops : Stops isdigit [newline] := by
    intro c hc
    rw [← Option.some.inj hc]
    decide
  intro after
  rw [deviceAction_held, deviceAction_held, checkForCommandInString_behind,
    checkForCommandInString_behind,
    parseArguments_plain hds hes (List.cons_ne_nil _ _) hstops hx hy,
    parseArguments_plain hds hes (List.cons_ne_nil _ _) hstops hx hy]

section Lines

variable {s : List UInt8} {chunks chunks' : List (List UInt8)}

/-- **LINE BY LINE**: a stream of settled lines, commands among them, along a scanned
    cutting with newlines only at the ends of its chunks, does to the device what its
    lines do, one after another, and nothing is dropped or left. -/
theorem does_lines (hscan : Scanned chunks) (hends : LineEnds chunks) (hcut : Cuts chunks s)
    (hend : s.getLast? = some newline) (hsettled : ∀ l ∈ linesOf s, Settled l)
    {b : AesdTemperaryBuffer UInt8} {commits : List (List UInt8 × DeviceAction UInt8)}
    (hat : AtPoll chunks b commits) :
    commits.map Prod.snd = (linesOf s).map (fun l => deviceAction [] (held l)) ∧
      b.bytes = [] ∧ ∀ c ∈ commits, Undropped c := by
  obtain ⟨hholds, -, hfst, hcommitted⟩ := hat.simulates
  have hnil := hscan.pending_nil hcut hend
  have hlines := hscan.commits_lines hends chunks List.prefix_rfl
  have hall : commits.map Prod.fst = linesOf s := by
    rw [hfst, ← linesOf_flatten hlines, ← hcut.1, ← Packets.run_flatten chunks, hnil,
      List.append_nil]
  have hact : ∀ c ∈ commits, c.2 = deviceAction [] (held c.1) := by
    intro c hc
    obtain ⟨after, hafter⟩ := hcommitted c hc
    rw [hafter]
    exact hsettled c.1 (hall ▸ List.mem_map_of_mem hc) after
  refine ⟨?_, hholds.bytes_eq.trans hnil, ?_⟩
  · rw [← hall, List.map_map]
    exact List.map_congr_left hact
  · intro c hc
    have hline : IsLine c.1 := hlines c.1 (hfst ▸ List.mem_map_of_mem hc)
    rw [Undropped, hact c hc, deviceAction_held]
    cases checkForCommandInString (some c.1) c.1.length [] with
    | none => rfl
    | some command => exact hline.2

/-- Two such cuttings have the same effect. -/
theorem sameEffect_of_settled (hend : s.getLast? = some newline)
    (hsettled : ∀ l ∈ linesOf s, Settled l) (hcut : Cuts chunks s) (hcut' : Cuts chunks' s)
    (hscan : Scanned chunks) (hscan' : Scanned chunks') (hends : LineEnds chunks)
    (hends' : LineEnds chunks') : SameEffect chunks chunks' := by
  intro b commits b' commits' hat hat'
  obtain ⟨hsnd, hleft, hdrop⟩ := does_lines hscan hends hcut hend hsettled hat
  obtain ⟨hsnd', hleft', hdrop'⟩ := does_lines hscan' hends' hcut' hend hsettled hat'
  refine ⟨by rw [hsnd, hsnd'], ⟨hleft, hleft'⟩, ?_⟩
  intro c hc
  rcases List.mem_append.mp hc with hc | hc
  · exact hdrop c hc
  · exact hdrop' c hc

end Lines

/-- A line of data, and a seek request. -/
def dataLine : List UInt8 := [120, 10]

def requestLine : List UInt8 := seekCmdPrefix ++ [48, 44, 48, 10]

/-- Two lines received at once, or one by one: with all newlines in sight either way. -/
theorem scanned_twoLines {l m : List UInt8} (hl : l ∈ [dataLine, requestLine])
    (hm : m ∈ [dataLine, requestLine]) :
    Scanned ([] ++ [l ++ m]) ∧ Scanned ([] ++ [l] ++ [m]) := by
  have hone : InSight [] l ∧ InSight [l] m ∧ InSight [] (l ++ m) := by
    simp only [List.mem_cons, List.not_mem_nil, or_false] at hl hm
    rcases hl with rfl | rfl <;> rcases hm with rfl | rfl <;>
      exact ⟨fun _ => by decide, fun _ => by decide, fun _ => by decide⟩
  exact ⟨scanned_concat scanned_nil hone.2.2,
    scanned_concat (scanned_concat scanned_nil hone.1) hone.2.1⟩

/-- **A COMMAND IS ALONE IN ITS BUFFER**: received together with the line in front of it,
    a request is written to the device as data; received together with the line behind
    it, that line is dropped. -/
theorem commands_hidden :
    (Scanned [dataLine ++ requestLine] ∧ Scanned [dataLine, requestLine] ∧
      ¬ SameEffect [dataLine ++ requestLine] [dataLine, requestLine]) ∧
    (Scanned [requestLine ++ dataLine] ∧ Scanned [requestLine, dataLine] ∧
      ¬ SameEffect [requestLine ++ dataLine] [requestLine, dataLine]) := by
  have hdata : dataLine ∈ [dataLine, requestLine] := List.mem_cons_self ..
  have hrequest : requestLine ∈ [dataLine, requestLine] :=
    List.mem_cons_of_mem _ (List.mem_singleton_self _)
  obtain ⟨hone, htwo⟩ := scanned_twoLines hdata hrequest
  obtain ⟨hone', htwo'⟩ := scanned_twoLines hrequest hdata
  refine ⟨⟨hone, htwo, ?_⟩, hone', htwo', ?_⟩
  · have hat : AtPoll ([] ++ [dataLine ++ requestLine]) _ _ :=
      .commit true [] .start ⟨by decide, by decide⟩ rfl
    have hat' : AtPoll ([] ++ [dataLine] ++ [requestLine]) _ _ :=
      .commit true [] (.commit true [] .start ⟨by decide, by decide⟩ rfl)
        ⟨by decide, by decide⟩ rfl
    intro hsame
    exact absurd (hsame _ _ _ _ hat hat').1 (by decide +kernel)
  · have hat : AtPoll ([] ++ [requestLine ++ dataLine]) _ _ :=
      .commit true [] .start ⟨by decide, by decide⟩ rfl
    have hat' : AtPoll ([] ++ [requestLine] ++ [dataLine]) _ _ :=
      .commit true [] (.commit true [] .start ⟨by decide, by decide⟩ rfl)
        ⟨by decide, by decide⟩ rfl
    intro hsame
    exact absurd (hsame _ _ _ _ hat hat').1 (by decide +kernel)

end AesdSegmentation
