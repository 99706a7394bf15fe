import Aesd.DriverProofs

/-! # Is a write all or nothing?

    `aesd_write` can meet three failing allocations.  Two of them it reports,
    with the device untouched.  The third is the ring's own, inside a function
    that returns nothing: by then the oldest entry may be gone, the pending
    bytes are dropped, and the call still reports success.

    A failed insertion into a full ring also leaves the ring marked full with
    fewer than ten entries, so that a later insertion evicts an entry it had no
    need to evict.  The main result gives the exact condition, over every
    reachable device and every pattern of failures. -/

namespace AesdAtomicity

open AesdMachine AesdRing AesdTemperary AesdDriver CyclicQueue

variable {β : Type} [Octet β]

/-- The logical stream: the live entries, oldest first, and the pending bytes. -/
def stream (d : AesdDev β) : List β := d.retained.flatten ++ d.bufferTemperary.bytes

/-- The stream was extended by `buf`.  At most an oldest entry was dropped, and
    that only with ten entries live and a new entry stored in its place. -/
def Extends (d d' : AesdDev β) (buf : List β) : Prop :=
  ∃ dropped, dropped ++ stream d' = stream d ++ buf ∧
    (dropped = [] ∨ d.retained.length = 10 ∧ ∃ rest entry,
      d.retained = dropped :: rest ∧ d'.retained = rest ++ [entry])

/-- A call that reports all its bytes has stored them, one that reports an error
    has changed nothing. -/
structure AllOrNothing (d : AesdDev β) (buf : List β) (result : AesdDev β × Int) : Prop where
  stores : result.2 = buf.length → Extends d result.1 buf
  keeps  : result.2 < 0 → result.1 = d

/-- If the call gets as far as the ring, the ring's allocation succeeds, and no
    entry is evicted while slots are free. -/
def RingStores (env : WriteEnv) (d : AesdDev β) (buf : List β) : Prop :=
  accepts env d buf = true → hasNewline buf = true →
    env.entry = true ∧
      (d.bufferCircular.full = true →
        (d.bufferCircular.entry d.bufferCircular.outOffs).buffptr.isSome = true →
        d.retained.length = 10)

section Commit

variable {d d' : AesdDev β} {q q' : SlotQueue 10 (List β)} {pending buf : List β}

/-- What `Extends` says of a commit, in terms of the stored queues. -/
theorem extends_commit_iff (h : Models d q pending) (h' : Models d' q' []) :
    Extends d d' buf ↔
      ∃ dropped, dropped ++ q'.items.flatten = q.items.flatten ++ (pending ++ buf) ∧
        (dropped = [] ∨ q.items.length = 10 ∧ ∃ rest entry,
          q.items = dropped :: rest ∧ q'.items = rest ++ [entry]) := by
  simp only [Extends, stream]
  rw [h.retained_eq, h'.retained_eq, h.temp.bytes_eq, h'.temp.bytes_eq, List.append_nil,
    List.append_assoc]

/-- A commit whose ring allocation fails loses the bytes it reports. -/
theorem not_extends_of_failed (h : Models d q pending)
    (h' : Models d' (CyclicQueue.add false q (pending ++ buf)) [])
    (hn : hasNewline buf = true) : ¬ Extends d d' buf := by
  have hpos := length_pos_of_hasNewline hn
  rw [extends_commit_iff h h', add_false_items]
  rintro ⟨dropped, hbytes, hnil | ⟨hten, rest, entry, hitems, hitems'⟩⟩
  · have hle := add_items_length_le false q ([] : List β)
    rw [add_false_items] at hle
    have hlen := congrArg List.length hbytes
    rw [hnil, List.nil_append, List.length_append, List.length_append] at hlen
    rw [List.length_nil] at hle
    omega
  · -- with ten items the preparation drops one, and nothing took its place
    obtain ⟨hf, ha⟩ := full_of_length hten
    rw [prepare_items, if_pos ⟨hf, ha⟩, hitems, List.tail_cons] at hitems'
    have hlen := congrArg List.length hitems'
    rw [List.length_append, List.length_singleton] at hlen
    omega

/-- A stored commit extends the stream, unless it evicts below ten entries. -/
theorem extends_of_stored_iff (h : Models d q pending)
    (h' : Models d' (CyclicQueue.add true q (pending ++ buf)) []) :
    Extends d d' buf ↔
      (q.full = true → Aligned q ∧ q.items ≠ [] → q.items.length = 10) := by
  rw [extends_commit_iff h h', add_true_items, prepare_items]
  by_cases hevict : q.full = true ∧ Aligned q
  · rw [if_pos hevict]
    cases hitems : q.items with
    | nil =>
        constructor
        · rintro - - ⟨-, hne⟩
          exact absurd rfl hne
        · intro _
          refine ⟨[], ?_, Or.inl rfl⟩
          rw [List.tail_nil, List.nil_append, List.nil_append, List.flatten_singleton]
          rfl
    | cons b rest =>
        have hb : 0 < b.length := length_pos_of_hasNewline
          (h.lines b (by rw [hitems]; exact List.mem_cons_self ..))
        constructor
        · rintro ⟨dropped, hbytes, hnil | ⟨hten, -⟩⟩ - -
          · -- the stream lost the bytes of `b`
            have hlen := congrArg List.length hbytes
            simp only [hnil, List.nil_append, List.tail_cons, List.flatten_append,
              List.flatten_cons, List.flatten_nil, List.length_append, List.length_nil] at hlen
            omega
          · exact hten
        · intro hten
          refine ⟨b, ?_, Or.inr ⟨hten hevict.1 ⟨hevict.2, by simp⟩, rest, _, rfl, rfl⟩⟩
          rw [List.tail_cons, List.flatten_append, List.flatten_singleton, List.flatten_cons,
            List.append_assoc]
  · rw [if_neg hevict]
    constructor
    · intro _ hf hitem
      exact absurd ⟨hf, hitem.1⟩ hevict
    · intro _
      refine ⟨[], ?_, Or.inl rfl⟩
      rw [List.nil_append, List.flatten_append, List.flatten_singleton]

/-- The condition, in terms of the stored queue, where the ring is reached. -/
theorem ringStores_iff {env : WriteEnv} (h : Models d q pending)
    (ha : accepts env d buf = true) (hn : hasNewline buf = true) :
    RingStores env d buf ↔ env.entry = true ∧
      (q.full = true → Aligned q ∧ q.items ≠ [] → q.items.length = 10) := by
  rw [RingStores, h.ring.full_eq, h.ring.oldest_live_iff, h.retained_eq]
  exact ⟨fun hr => hr ha hn, fun hr _ _ => hr⟩

/-- Bytes that stay pending extend the stream. -/
theorem extends_of_pending (h : Models d q pending) (h' : Models d' q (pending ++ buf)) :
    Extends d d' buf := by
  refine ⟨[], ?_, Or.inl rfl⟩
  rw [List.nil_append, stream, stream, h'.retained_eq, h.retained_eq, h'.temp.bytes_eq,
    h.temp.bytes_eq, List.append_assoc]

omit [Octet β] in
/-- A call that reports all its bytes has to store them. -/
theorem allOrNothing_iff_extends {result : AesdDev β × Int} (hret : result.2 = buf.length) :
    AllOrNothing d buf result ↔ Extends d result.1 buf := by
  constructor
  · intro hw
    exact hw.stores hret
  · intro hext
    refine ⟨fun _ => hext, fun hneg => ?_⟩
    rw [hret] at hneg
    omega

end Commit

/-- **WHEN A WRITE IS ALL OR NOTHING**: for every reachable device, every user
    buffer and every pattern of failing allocations and copies, exactly when the
    ring, if it is reached, stores the entry and evicts none too many. -/
theorem aesdWrite_allOrNothing_iff {d : AesdDev β} (h : Reachable d) (env : WriteEnv)
    (buf : List β) : AllOrNothing d buf (aesdWrite env d buf) ↔ RingStores env d buf := by
  obtain ⟨q, pending, hm⟩ := h.models
  rcases aesdWrite_cases hm env buf with
    ⟨ha, hsame, hneg⟩ | ⟨ha, hn, hret, hm'⟩ | ⟨ha, hn, hret, -, hm'⟩
  · constructor
    · intro _ hacc
      exact nomatch ha.symm.trans hacc
    · intro _
      refine ⟨fun hret => ?_, fun _ => hsame⟩
      rw [hret] at hneg
      omega
  · rw [allOrNothing_iff_extends hret]
    constructor
    · intro _ _ hnl
      exact nomatch hn.symm.trans hnl
    · intro _
      exact extends_of_pending hm hm'
  · rw [allOrNothing_iff_extends hret, ringStores_iff hm ha hn]
    cases he : env.entry with
    | false =>
        rw [he] at hm'
        constructor
        · intro hext
          exact absurd hext (not_extends_of_failed hm hm' hn)
        · rintro ⟨hfalse, -⟩
          exact nomatch hfalse
    | true =>
        rw [he] at hm'
        rw [extends_of_stored_iff hm hm']
        exact ⟨fun hr => ⟨rfl, hr⟩, fun hr => hr.2⟩

/-- Ten lines and the beginning of an eleventh. -/
def fullRing : List (List UInt8) := List.replicate 10 [10] ++ [[97]]

/-- On a full ring with a pending byte, `"b\n"` takes the place of the oldest line, or is
    refused where the pending byte cannot be moved; either way it is all or nothing. -/
theorem aesdWrite_allOrNothing_fullRing :
    ((aesdWrite WriteEnv.granted (writeAll fullRing) [98, 10]).2 = 2 ∧
      AllOrNothing (writeAll fullRing) [98, 10]
        (aesdWrite WriteEnv.granted (writeAll fullRing) [98, 10])) ∧
    (aesdWrite ⟨true, true, false, true⟩ (writeAll fullRing) [98, 10]).2 = -ENOMEM ∧
      AllOrNothing (writeAll fullRing) [98, 10]
        (aesdWrite ⟨true, true, false, true⟩ (writeAll fullRing) [98, 10]) := by
  have hreach := (grantedWrites_writeAll fullRing (by decide)).1.reachable
  refine ⟨⟨by decide +kernel, ?_⟩, by decide +kernel, ?_⟩
  · refine (aesdWrite_allOrNothing_iff hreach _ _).mpr ?_
    intro _ _
    exact ⟨rfl, fun _ _ => by decide +kernel⟩
  · refine (aesdWrite_allOrNothing_iff hreach _ _).mpr ?_
    intro _ _
    exact ⟨rfl, fun _ _ => by decide +kernel⟩

/-- **LOST BYTES**: when only the ring's allocation fails, the same call reports
    two bytes written and the stream stays empty. -/
theorem aesdWrite_reports_lost_bytes :
    (aesdWrite ⟨true, true, true, false⟩ (aesdInitModule : AesdDev UInt8) [97, 10]).2 = 2 ∧
      stream (aesdWrite ⟨true, true, true, false⟩ (aesdInitModule : AesdDev UInt8)
        [97, 10]).1 = [] ∧
      ¬ AllOrNothing (aesdInitModule : AesdDev UInt8) [97, 10]
        (aesdWrite ⟨true, true, true, false⟩ aesdInitModule [97, 10]) := by
  have hret : (aesdWrite ⟨true, true, true, false⟩ (aesdInitModule : AesdDev UInt8)
      [97, 10]).2 = 2 := by decide +kernel
  have hstream : stream (aesdWrite ⟨true, true, true, false⟩ (aesdInitModule : AesdDev UInt8)
      [97, 10]).1 = [] := by decide +kernel
  refine ⟨hret, hstream, ?_⟩
  intro hw
  obtain ⟨dropped, hbytes, hnil | ⟨hten, -⟩⟩ := hw.stores hret
  · rw [hstream, hnil] at hbytes
    exact nomatch hbytes
  · exact absurd hten (by decide +kernel)

end AesdAtomicity
