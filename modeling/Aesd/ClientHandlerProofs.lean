import Aesd.CommandParserProofs

/-! # One connection: receiving, scanning and committing

    The receive part of `clientHandler`: each chunk is appended to `bufferString`
    and the buffer is scanned for a newline.  The scan starts at the beginning of
    the accumulated buffer but is given the length of the last chunk, so it sees
    only that many of the oldest bytes.  When it answers true the buffer is
    committed to the device, as a seek request or as data, and cleaned.

    `Packets` is what remains when buffers are replaced by the byte strings they
    hold, and `AtPoll.simulates` and `exists_atPoll` say that the handler, back at
    `poll`, is in that state after exactly the chunks it was given. -/

namespace AesdClient

open AesdMachine AesdTemperary AesdDriver AesdCommand

variable {β : Type} [Octet β]

/-- `BUFFER_SIZE`; `recv` is asked for one byte less. -/
def bufferSize : Nat := 512

/-- `checkForNewlineCharInString`; the position it stores is never read. -/
def checkForNewlineCharInString (str : Option (List β)) (len : Int) : Bool :=
  match str with
  | none => true
  | some bytes => if len ≤ 0 then true else hasNewline (bytes.take len.toNat)

/-- The calls of `logAndExit` in `clientHandler`. -/
inductive Fatal where
  /-- "Failed to allocate memory for buffer" -/
  | callocFailed
  /-- "Failed to add data to temporary buffer" -/
  | addFailed
  /-- "Failed to receive data" -/
  | receiveFailed
  /-- "Failed to seek in file" -/
  | seekFailed
  /-- "Failed to read from file" -/
  | readFailed
  deriving DecidableEq

/-- What the handler does after a `recv`. -/
inductive Received (β : Type) where
  | fatal (why : Fatal)
  /-- end of stream: close the socket and leave the loop -/
  | closed (bufferString : AesdTemperaryBuffer β)
  /-- the scan found a newline: enter the critical section -/
  | commit (bufferString : AesdTemperaryBuffer β)
  /-- back to `poll` -/
  | again (bufferString : AesdTemperaryBuffer β)

/-- From `recv` to the newline scan.  `received` is `none` when `recv` returns -1;
    the length reaches `aesd_temperary_buffer_add` as a `size_t` before its sign
    is tested. -/
def receive (granted : Bool) (bufferString : AesdTemperaryBuffer β)
    (received : Option (List β)) : Received β :=
  let recvLen : Int := match received with
    | none => -1
    | some buffer => buffer.length
  let added := aesdTemperaryBufferAdd (malloc granted) bufferString (received.getD [])
    (sizeOfInt recvLen)
  if added.1 = false then .fatal .addFailed
  else if recvLen < 0 then .fatal .receiveFailed
  else if recvLen = 0 then .closed (aesdTemperaryBufferClean added.2)
  else if checkForNewlineCharInString added.2.buffptr recvLen then .commit added.2
  else .again added.2

/-- What a commit does to the device. -/
inductive DeviceAction (β : Type) where
  | write (bytes : List β)
  | seek (command : AesdSeekto)
  deriving DecidableEq

/-- The branch of the critical section. -/
def deviceAction (after : List UInt8) (bufferString : AesdTemperaryBuffer β) :
    DeviceAction β :=
  match checkForCommandInString (bufferString.buffptr.map (List.map Octet.octet))
      bufferString.size after with
  | some command => .seek command
  | none => .write bufferString.bytes

/-! ## One iteration -/

/-- The scan answers true: the newline is among as many bytes of the accumulated
    data as the last chunk has. -/
def takes (old chunk : List β) : Bool := hasNewline ((old ++ chunk).take chunk.length)

/-- The buffer that holds `bs` after an add. -/
def held (bs : List β) : AesdTemperaryBuffer β := ⟨some bs, bs.length⟩

omit [Octet β] in
theorem held_bytes (bs : List β) : (held bs).bytes = bs := Holds.bytes_eq (.block bs)

/-- **ONE ITERATION**, for a chunk of one to 511 bytes. -/
theorem receive_eq {b : AesdTemperaryBuffer β} {bs chunk : List β} (h : Holds b bs)
    (hbs : bs.length < 2 ^ 63) (hpos : 0 < chunk.length) (hlen : chunk.length < bufferSize)
    (granted : Bool) :
    receive granted b (some chunk) =
      if malloc granted (bs.length + chunk.length) then
        if takes bs chunk then .commit (held (bs ++ chunk)) else .again (held (bs ++ chunk))
      else .fatal .addFailed := by
  have hlen' : chunk.length < 512 := hlen
  have hwrap : bs.length + chunk.length < 2 ^ 64 := by omega
  have hsize : sizeOfInt (chunk.length : Int) = chunk.length :=
    sizeOfInt_natCast (by omega)
  have hadd : aesdTemperaryBufferAdd (malloc granted) b chunk chunk.length =
      if malloc granted (bs.length + chunk.length) then (true, held (bs ++ chunk))
      else (false, b) := by
    cases h with
    | null => simp [aesdTemperaryBufferAdd, held]
    | block => simp [aesdTemperaryBufferAdd, sizeAdd_eq hwrap, held]
  simp only [receive, Option.getD_some, hsize, hadd]
  by_cases hm : malloc granted (bs.length + chunk.length) = true
  · have hnonneg : ¬ ((chunk.length : Int) < 0) := by omega
    have hzero : ¬ ((chunk.length : Int) = 0) := by omega
    have hscan : checkForNewlineCharInString (held (bs ++ chunk)).buffptr (chunk.length : Int)
        = takes bs chunk := by
      simp only [checkForNewlineCharInString, held, takes]
      rw [if_neg (by omega), Int.toNat_natCast]
    simp only [if_pos hm, Bool.true_eq_false, if_false, if_neg hnonneg, if_neg hzero, hscan]
  · simp only [if_neg hm, if_true]

/-- **WHAT RECEIVING CAN DO**: end the process, end the connection, or add a chunk
    and scan. -/
theorem receive_cases {b : AesdTemperaryBuffer β} {bs : List β} (h : Holds b bs)
    (hbs : bs.length < 2 ^ 63) (granted : Bool) (received : Option (List β))
    (hlen : (received.getD []).length < bufferSize) :
    (∃ why, receive granted b received = .fatal why) ∨
    receive granted b received = .closed aesdTemperaryBufferInit ∨
    ∃ chunk, received = some chunk ∧ (bs ++ chunk).length < 2 ^ 63 ∧
      receive granted b received =
        if takes bs chunk then .commit (held (bs ++ chunk)) else .again (held (bs ++ chunk)) := by
  cases received with
  | none =>
      refine Or.inl ?_
      simp only [receive]
      split
      · exact ⟨_, rfl⟩
      · exact ⟨_, rfl⟩
  | some chunk =>
      by_cases hpos : 0 < chunk.length
      · rw [receive_eq h hbs hpos hlen]
        cases hm : malloc granted (bs.length + chunk.length) with
        | false => exact Or.inl ⟨_, rfl⟩
        | true =>
            refine Or.inr (Or.inr ⟨chunk, rfl, ?_, rfl⟩)
            rw [List.length_append]
            exact (malloc_eq_true.mp hm).2
      · have hzero : chunk = [] := List.eq_nil_of_length_eq_zero (by omega)
        subst hzero
        have hclean : aesdTemperaryBufferClean (aesdTemperaryBufferAdd (malloc granted) b []
            (sizeOfInt (([] : List β).length : Int))).2 = aesdTemperaryBufferInit := by
          cases h with
          | null =>
              simp only [aesdTemperaryBufferAdd]
              split <;> rfl
          | block =>
              simp only [aesdTemperaryBufferAdd]
              split <;> rfl
        simp only [receive, Option.getD_some, hclean]
        split
        · exact Or.inl ⟨_, rfl⟩
        · exact Or.inr (Or.inl rfl)

/-- A chunk as `recv` delivers it. -/
def IsChunk (chunk : List β) : Prop := 0 < chunk.length ∧ chunk.length < bufferSize

section GoesOn

variable {b b' : AesdTemperaryBuffer β} {bs chunk : List β} {granted : Bool}

/-- An iteration that goes back to `poll` keeps everything and saw no newline. -/
theorem receive_again (h : Holds b bs) (hbs : bs.length < 2 ^ 63) (hchunk : IsChunk chunk)
    (hrecv : receive granted b (some chunk) = .again b') :
    takes bs chunk = false ∧ b' = held (bs ++ chunk) ∧ (bs ++ chunk).length < 2 ^ 63 := by
  rw [receive_eq h hbs hchunk.1 hchunk.2] at hrecv
  split at hrecv
  · next hm =>
      split at hrecv
      · cases hrecv
      · next ht =>
          cases hrecv
          rw [List.length_append]
          exact ⟨Bool.eq_false_iff.mpr ht, rfl, (malloc_eq_true.mp hm).2⟩
  · cases hrecv

/-- An iteration that commits keeps everything and saw a newline. -/
theorem receive_commit (h : Holds b bs) (hbs : bs.length < 2 ^ 63) (hchunk : IsChunk chunk)
    (hrecv : receive granted b (some chunk) = .commit b') :
    takes bs chunk = true ∧ b' = held (bs ++ chunk) := by
  rw [receive_eq h hbs hchunk.1 hchunk.2] at hrecv
  split at hrecv
  · split at hrecv
    · next ht =>
        cases hrecv
        exact ⟨ht, rfl⟩
    · cases hrecv
  · cases hrecv

end GoesOn

/-! ## Whole runs -/

/-- `AtPoll chunks b commits`: after these chunks the handler is back at `poll`
    with buffer `b`, and has committed the listed buffers by the listed actions. -/
inductive AtPoll : List (List β) → AesdTemperaryBuffer β → List (List β × DeviceAction β) →
    Prop where
  | start : AtPoll [] aesdTemperaryBufferInit []
  | again {chunks : List (List β)} {b b' : AesdTemperaryBuffer β}
      {commits : List (List β × DeviceAction β)} {chunk : List β} (granted : Bool) :
      AtPoll chunks b commits → IsChunk chunk → receive granted b (some chunk) = .again b' →
      AtPoll (chunks ++ [chunk]) b' commits
  | commit {chunks : List (List β)} {b b' : AesdTemperaryBuffer β}
      {commits : List (List β × DeviceAction β)} {chunk : List β} (granted : Bool)
      (after : List UInt8) :
      AtPoll chunks b commits → IsChunk chunk → receive granted b (some chunk) = .commit b' →
      AtPoll (chunks ++ [chunk]) (aesdTemperaryBufferClean b')
        (commits ++ [(b'.bytes, deviceAction after b')])

/-- A connection without its buffers: the pending bytes and the committed byte
    strings, oldest first. -/
structure Packets (β : Type) where
  pending : List β
  commits : List (List β)

def Packets.receive (p : Packets β) (chunk : List β) : Packets β :=
  if takes p.pending chunk then ⟨[], p.commits ++ [p.pending ++ chunk]⟩
  else ⟨p.pending ++ chunk, p.commits⟩

def Packets.run (chunks : List (List β)) : Packets β :=
  chunks.foldl Packets.receive ⟨[], []⟩

theorem Packets.run_concat (chunks : List (List β)) (chunk : List β) :
    Packets.run (chunks ++ [chunk]) = (Packets.run chunks).receive chunk := by
  simp [Packets.run]

/-- No byte is lost on the way into the commits. -/
theorem Packets.run_flatten (chunks : List (List β)) :
    (Packets.run chunks).commits.flatten ++ (Packets.run chunks).pending
      = chunks.flatten := by
  induction chunks using List.reverseRecOn with
  | nil => rfl
  | append_singleton chunks chunk ih =>
      rw [Packets.run_concat, List.flatten_append, List.flatten_singleton, ← ih]
      simp only [Packets.receive]
      cases takes (Packets.run chunks).pending chunk <;> simp

theorem Packets.pending_length_le (chunks : List (List β)) :
    (Packets.run chunks).pending.length ≤ chunks.flatten.length := by
  rw [← Packets.run_flatten chunks, List.length_append]
  exact Nat.le_add_left _ _

/-- The pair was committed by the branch the code takes for it, whatever follows
    the buffer in memory. -/
def Committed (c : List β × DeviceAction β) : Prop :=
  ∃ after, c.2 = deviceAction after (held c.1)

/-- **THE HANDLER IS ITS PACKETS**: back at `poll` it holds the pending bytes and
    has committed the commits. -/
theorem AtPoll.simulates {chunks : List (List β)} {b : AesdTemperaryBuffer β}
    {commits : List (List β × DeviceAction β)} (h : AtPoll chunks b commits) :
    Holds b (Packets.run chunks).pending ∧ (Packets.run chunks).pending.length < 2 ^ 63 ∧
      commits.map Prod.fst = (Packets.run chunks).commits ∧ ∀ c ∈ commits, Committed c := by
  induction h with
  | start => exact ⟨holds_init, Nat.two_pow_pos 63, rfl, fun c hc => nomatch hc⟩
  | again granted _ hchunk hrecv ih =>
      obtain ⟨hholds, hlt, hfst, hact⟩ := ih
      obtain ⟨ht, rfl, hroom⟩ := receive_again hholds hlt hchunk hrecv
      rw [Packets.run_concat, Packets.receive, ht]
      exact ⟨.block _, hroom, hfst, hact⟩
  | commit granted after _ hchunk hrecv ih =>
      obtain ⟨hholds, hlt, hfst, hact⟩ := ih
      obtain ⟨ht, rfl⟩ := receive_commit hholds hlt hchunk hrecv
      rw [Packets.run_concat, Packets.receive, ht, held_bytes]
      refine ⟨.null, Nat.two_pow_pos 63, by simp [hfst], ?_⟩
      intro c hc
      rcases List.mem_append.mp hc with hold | hnew
      · exact hact c hold
      · rw [List.mem_singleton.mp hnew]
        exact ⟨after, rfl⟩

/-- Chunks that fit into memory all together are received, whatever memory the
    parser finds behind each buffer. -/
theorem exists_atPoll (after : List UInt8) (chunks : List (List β))
    (hchunks : ∀ c ∈ chunks, IsChunk c) (hlen : chunks.flatten.length < 2 ^ 63) :
    ∃ b commits, AtPoll chunks b commits := by
  induction chunks using List.reverseRecOn with
  | nil => exact ⟨_, _, .start⟩
  | append_singleton chunks chunk ih =>
      rw [List.flatten_append, List.length_append, List.flatten_singleton] at hlen
      obtain ⟨b, commits, hat⟩ := ih
        (fun c hc => hchunks c (List.mem_append_left _ hc)) (by omega)
      have hchunk : IsChunk chunk :=
        hchunks chunk (List.mem_append_right _ (List.mem_singleton_self _))
      obtain ⟨hholds, hlt, -, -⟩ := hat.simulates
      have hle := Packets.pending_length_le chunks
      have hm : malloc true ((Packets.run chunks).pending.length + chunk.length) = true :=
        malloc_eq_true.mpr ⟨rfl, by omega⟩
      have hrecv := receive_eq hholds hlt hchunk.1 hchunk.2 true
      rw [if_pos hm] at hrecv
      cases ht : takes (Packets.run chunks).pending chunk with
      | true =>
          rw [ht, if_pos rfl] at hrecv
          exact ⟨_, _, .commit true after hat hchunk hrecv⟩
      | false =>
          rw [ht, if_neg Bool.false_ne_true] at hrecv
          exact ⟨_, _, .again true hat hchunk hrecv⟩

end AesdClient
