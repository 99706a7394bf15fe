import Aesd.HistoryProofs

/-! # Reading while others write

    A reader advances through the entries by short reads, each of which delivers
    at most the rest of one entry, while writers append behind it.  `content` is
    what there is to read: the bytes of the live entries, oldest first.

    A read walks from `out_offs` and stops at the first free slot, so it depends
    on the oldest entry being at `out_offs` (`StartsAtOldest`).  An insertion that
    evicts and then finds no memory breaks that on a ring it has emptied.  Where
    it holds, `aesdReadSource_spec` is the specification of one read, and the
    invariant of a run is that the file position is the start plus the bytes
    delivered and that these are that slice of the content; a write that evicts
    nothing keeps the old content as a prefix, so the slice does not move. -/

namespace AesdReader

open AesdMachine AesdRing AesdLookup AesdDriver AesdHistory CyclicWindow CyclicQueue BlockLookup

variable {β : Type} [Octet β]

/-- The concatenation of the ring entries, oldest to newest. -/
def content (d : AesdDev β) : List β := d.retained.flatten

/-- The slot at `out_offs` holds an entry, or the ring is empty and knows it. -/
def StartsAtOldest (d : AesdDev β) : Prop :=
  (d.bufferCircular.entry d.bufferCircular.outOffs).buffptr.isSome = true ∨
    d.retained = [] ∧ d.bufferCircular.full = false

section OneRead

variable {d : AesdDev β} {q : SlotQueue 10 (List β)} {pending : List β}

theorem content_eq (hm : Models d q pending) : content d = q.items.flatten := by
  rw [content]
  rw [hm.retained_eq]

theorem content_length_lt (hm : Models d q pending) : (content d).length < 2 ^ 63 := by
  have hbound := hm.bound
  rw [content_eq hm]
  omega

theorem startsAtOldest_iff (hm : Models d q pending) (hs : Settled q) :
    StartsAtOldest d ↔ Walkable q := by
  rw [StartsAtOldest]
  rw [hm.ring.oldest_live_iff, hm.retained_eq, hm.ring.full_eq]
  constructor
  · rintro (⟨ha, hne⟩ | ⟨hnil, hf⟩)
    · exact ⟨ha, fun hnil => absurd hnil hne⟩
    · have hgap := hs hf hnil
      refine ⟨?_, fun _ => hf⟩
      show q.items.length + q.gap = 10
      rw [hnil, hgap]
      rfl
  · intro hw
    by_cases hnil : q.items = []
    · exact Or.inr ⟨hnil, hw.free hnil⟩
    · exact Or.inl ⟨hw.aligned, hnil⟩

/-- Past what the walk meets there is nothing to copy. -/
theorem aesdReadSource_end (hm : Models d q pending) (count : Nat) {n : Nat} (hn : n < 2 ^ 64)
    (hend : (readable q).flatten.length ≤ n) : aesdReadSource d count n = none := by
  have hbound := hm.readable_bound
  rw [aesdReadSource]
  rw [sizeOfInt_natCast hn, findEntryOffsetForFpos_eq hm.ring (by omega),
    (locate_eq_none_iff _ _).mpr hend]
  rfl

/-- The same, when the walk meets all of the content. -/
theorem aesdReadSource_past (hm : Models d q pending) (ha : Aligned q) (count : Nat) {n : Nat}
    (hn : n < 2 ^ 64) (hend : (content d).length ≤ n) : aesdReadSource d count n = none := by
  refine aesdReadSource_end hm count hn ?_
  rw [show readable q = q.items from if_pos ha, ← content_eq hm]
  exact hend

/-- The same, when the walk meets nothing. -/
theorem aesdReadSource_beside (hm : Models d q pending) (ha : ¬ Aligned q) (count : Nat) {n : Nat}
    (hn : n < 2 ^ 64) : aesdReadSource d count n = none := by
  refine aesdReadSource_end hm count hn ?_
  rw [show readable q = [] from if_neg ha]
  exact Nat.zero_le n

/-- Every entry has a byte. -/
theorem content_length_pos (hm : Models d q pending) (hne : q.items ≠ []) :
    0 < (content d).length := by
  obtain ⟨b, rest, hitems⟩ := List.exists_cons_of_ne_nil hne
  have hb : 0 < b.length :=
    length_pos_of_hasNewline (hm.lines b (by rw [hitems]; exact List.mem_cons_self ..))
  rw [content_eq hm, hitems, List.flatten_cons, List.length_append]
  omega

/-- **ONE READ**: inside the content, the copy stays inside its entry, has a byte
    when one was asked for, and delivers the next bytes of the content. -/
theorem aesdReadSource_spec (hm : Models d q pending) (ha : Aligned q) (count : Nat) {n : Nat}
    (hin : n < (content d).length) :
    ∃ entry off k, aesdReadSource d count n = some (entry, off, k) ∧
      off + k ≤ entry.size ∧ k = min count (entry.size - off) ∧ off < entry.size ∧
      ((entry.buffptr.getD []).drop off).take k = ((content d).drop n).take k ∧
      n + k ≤ (content d).length := by
  have hbound := hm.readable_bound
  have hitems : readable q = q.items := if_pos ha
  rw [content_eq hm, ← hitems] at hin ⊢
  cases hloc : locate (readable q) n with
  | none =>
      rw [locate_eq_none_iff] at hloc
      omega
  | some found =>
      obtain ⟨i, off⟩ := found
      obtain ⟨b, hb, hoff, hpos⟩ := (locate_eq_some_iff _ _ _ _).mp hloc
      have hslot := hm.ring.slot_item ha (hitems ▸ hb)
      have hstart := start_add_length_le hb
      have havail : sizeSub b.length off = b.length - off :=
        sizeSub_eq (by omega) (Nat.le_of_lt hoff)
      have hsource : aesdReadSource d count n
          = some (stored b, off, min count (sizeSub b.length off)) := by
        rw [aesdReadSource]
        rw [sizeOfInt_natCast (by omega), findEntryOffsetForFpos_eq hm.ring (by omega), hloc]
        show some (d.bufferCircular.entry ((d.bufferCircular.outOffs + i) % 10), off, _) = _
        rw [hslot]
        rfl
      refine ⟨stored b, off, min count (b.length - off), ?_, ?_, rfl, hoff, ?_, ?_⟩
      · rw [hsource, havail]
      · show off + min count (b.length - off) ≤ b.length
        omega
      · -- the rest of the entry is the next piece of the content
        rw [hpos, drop_start_add hb (Nat.le_of_lt hoff),
          List.take_append_of_le_length (by rw [List.length_drop]; omega)]
        rfl
      · omega

end OneRead

/-! ## Runs of a reader among writers -/

/-- The write moved the reading position off a live entry. -/
def Evicts (d d' : AesdDev β) : Prop :=
  d'.bufferCircular.outOffs ≠ d.bufferCircular.outOffs ∧
    (d.bufferCircular.entry d.bufferCircular.outOffs).buffptr.isSome = true

/-- `Reading d₀ p d fPos out`: from device `d₀` and position `p`, some reads
    (which delivered `out`) and some successful writes that evicted nothing lead
    to device `d` and position `fPos`. -/
inductive Reading (d₀ : AesdDev β) (p : Nat) : AesdDev β → Int → List β → Prop where
  | start : Reading d₀ p d₀ p []
  | read {d : AesdDev β} {fPos : Int} {out : List β} (count : Nat) : 0 < count →
      Reading d₀ p d fPos out →
      Reading d₀ p d (aesdRead true d count fPos).fPos (out ++ (aesdRead true d count fPos).data)
  | write {d : AesdDev β} {fPos : Int} {out : List β} (env : WriteEnv) (buf : List β) :
      Reading d₀ p d fPos out → (aesdWrite env d buf).2 = buf.length →
      ¬ Evicts d (aesdWrite env d buf).1 → Reading d₀ p (aesdWrite env d buf).1 fPos out

/-- What a reader that started at `p` and received `out` sees of the device. -/
structure SeesContent (d : AesdDev β) (p : Nat) (fPos : Int) (out : List β) : Prop where
  position : fPos = p + out.length
  slice    : out = ((content d).drop p).take out.length
  ends_iff : ∀ count, 0 < count →
    ((aesdRead true d count fPos).ret = 0 ↔ ((content d).length : Int) ≤ fPos)
  inside   : ∀ count entry off k, aesdReadSource d count fPos = some (entry, off, k) →
    off + k ≤ entry.size

section Writers

variable {d : AesdDev β} {q : SlotQueue 10 (List β)} {pending buf : List β} {env : WriteEnv}

/-- A commit that evicts nothing keeps every item. -/
theorem keeps_of_not_evicts (hm : Models d q pending)
    (hring : (aesdWrite env d buf).1.bufferCircular = aesdCircularBufferAddEntry env.entry
      d.bufferCircular ⟨some (pending ++ buf), (pending ++ buf).length⟩)
    (hno : ¬ Evicts d (aesdWrite env d buf).1) : Keeps q := by
  intro hfull ha
  by_cases hnil : q.items = []
  · exact hnil
  · exfalso
    refine hno ⟨?_, hm.ring.oldest_live_iff.mpr ⟨ha, hnil⟩⟩
    have hout := hm.ring.out_lt
    rw [hring, addEntry_outOffs, hm.ring.full_eq, hfull, if_pos rfl]
    show (d.bufferCircular.outOffs + 1) % 10 ≠ d.bufferCircular.outOffs
    omega

/-- **APPENDING BEHIND THE READER**: a write that evicts nothing keeps the content
    as a prefix, and the oldest entry where the reader starts. -/
theorem write_content_isPrefix (hm : Models d q pending) (hw : Walkable q)
    (hno : ¬ Evicts d (aesdWrite env d buf).1) :
    ∃ q' pending', Models (aesdWrite env d buf).1 q' pending' ∧ Walkable q' ∧
      content d <+: content (aesdWrite env d buf).1 := by
  rcases aesdWrite_cases hm env buf with
    ⟨-, hsame, -⟩ | ⟨-, -, -, hm'⟩ | ⟨-, -, -, hring, hm'⟩
  · rw [hsame]
    exact ⟨q, pending, hm, hw, List.prefix_rfl⟩
  · refine ⟨q, _, hm', hw, ?_⟩
    rw [content_eq hm, content_eq hm']
  · obtain ⟨hw', hpre⟩ := hw.add (keeps_of_not_evicts hm hring hno) env.entry (pending ++ buf)
    refine ⟨_, _, hm', hw', ?_⟩
    rw [content_eq hm, content_eq hm']
    exact hpre.flatten

end Writers

/-- The position and the delivered bytes of a reader that started at `p`. -/
structure Follows (d : AesdDev β) (p : Nat) (fPos : Int) (out : List β) : Prop where
  position : fPos = ((p + out.length : Nat) : Int)
  slice    : out = ((content d).drop p).take out.length

section Steps

variable {d d' : AesdDev β} {q : SlotQueue 10 (List β)} {pending out : List β} {p : Nat}
  {fPos : Int}

omit [Octet β] in
/-- What was delivered lies inside the content. -/
theorem Follows.length_le (h : Follows d p fPos out) :
    out.length ≤ (content d).length - p := by
  have hlen := congrArg List.length h.slice
  rw [List.length_take, List.length_drop] at hlen
  omega

/-- The outcome of the next read, inside the content and past its end. -/
theorem aesdRead_spec (hm : Models d q pending) (ha : Aligned q) (count : Nat) {n : Nat}
    (hn : n < 2 ^ 64) :
    (n < (content d).length ∧ ∃ k, (0 < count → 0 < k) ∧ n + k ≤ (content d).length ∧
      aesdRead true d count n = ⟨k, ((content d).drop n).take k, ((n + k : Nat) : Int)⟩) ∨
    ((content d).length ≤ n ∧ aesdRead true d count n = ⟨0, [], n⟩) := by
  have hbound := content_length_lt hm
  rw [aesdRead]
  by_cases hin : n < (content d).length
  · obtain ⟨entry, off, k, hsource, hk, hmin, hoff, hdata, hend⟩ :=
      aesdReadSource_spec hm ha count hin
    have hloff : loff ((n : Int) + (k : Int)) = ((n + k : Nat) : Int) := by
      rw [← Int.natCast_add]
      exact loff_natCast (by omega)
    rw [hsource]
    refine Or.inl ⟨hin, k, fun hcount => by omega, hend, ?_⟩
    simp only [if_true, hdata, hloff]
  · have hend := Nat.not_lt.mp hin
    rw [aesdReadSource_past hm ha count hn hend]
    exact Or.inr ⟨hend, rfl⟩

theorem Follows.read (hm : Models d q pending) (ha : Aligned q) (hp : p < 2 ^ 63)
    (h : Follows d p fPos out) (count : Nat) :
    Follows d p (aesdRead true d count fPos).fPos
      (out ++ (aesdRead true d count fPos).data) := by
  have hle := h.length_le
  have hbound := content_length_lt hm
  rw [h.position]
  rcases aesdRead_spec hm ha count (n := p + out.length) (by omega) with
    ⟨-, k, -, hend, hread⟩ | ⟨-, hread⟩
  · have hdlen : (((content d).drop (p + out.length)).take k).length = k := by
      rw [List.length_take, List.length_drop]
      omega
    rw [hread]
    constructor
    · rw [List.length_append, hdlen, Nat.add_assoc]
    · rw [List.length_append, hdlen, List.take_add, ← h.slice, List.drop_drop]
  · rw [hread, List.append_nil, ← h.position]
    exact h

omit [Octet β] in
theorem Follows.prefix_mono (h : Follows d p fPos out) (hpre : content d <+: content d') :
    Follows d' p fPos out := by
  refine ⟨h.position, ?_⟩
  obtain ⟨more, hmore⟩ := hpre
  have hle := h.length_le
  rw [← hmore]
  by_cases hp : p ≤ (content d).length
  · rw [List.drop_append_of_le_length hp,
      List.take_append_of_le_length (by rw [List.length_drop]; exact hle)]
    exact h.slice
  · have hnil : out = [] := List.eq_nil_of_length_eq_zero (by omega)
    rw [hnil]
    rfl

/-- What the invariant says about the next read. -/
theorem Follows.seesContent (hm : Models d q pending) (ha : Aligned q) (hp : p < 2 ^ 63)
    (h : Follows d p fPos out) : SeesContent d p fPos out := by
  have hle := h.length_le
  have hbound := content_length_lt hm
  refine ⟨h.position.trans (Int.natCast_add ..), h.slice, ?_, ?_⟩
  · intro count hcount
    rw [h.position]
    rcases aesdRead_spec hm ha count (n := p + out.length) (by omega) with
      ⟨hin, k, hk, -, hread⟩ | ⟨hend, hread⟩
    · have hkpos := hk hcount
      rw [hread]
      show (k : Int) = 0 ↔ _
      omega
    · rw [hread]
      show (0 : Int) = 0 ↔ _
      omega
  · intro count entry off k hsource
    rw [h.position] at hsource
    by_cases hin : p + out.length < (content d).length
    · obtain ⟨entry', off', k', hsource', hk, -⟩ := aesdReadSource_spec hm ha count hin
      have hsame := Option.some.inj (hsource.symm.trans hsource')
      rw [show entry = entry' from congrArg (fun x => x.1) hsame,
        show off = off' from congrArg (fun x => x.2.1) hsame,
        show k = k' from congrArg (fun x => x.2.2) hsame]
      exact hk
    · rw [aesdReadSource_past hm ha count (by omega) (Nat.not_lt.mp hin)] at hsource
      exact nomatch hsource

end Steps

/-- The invariant of a whole run. -/
theorem Reading.follows {d₀ d : AesdDev β} {p : Nat} {fPos : Int} {out : List β}
    (hrun : Reading d₀ p d fPos out) {q₀ : SlotQueue 10 (List β)} {pending₀ : List β}
    (hm₀ : Models d₀ q₀ pending₀) (hw₀ : Walkable q₀) (hp : p < 2 ^ 63) :
    ∃ q pending, Models d q pending ∧ Walkable q ∧ Follows d p fPos out := by
  induction hrun with
  | start => exact ⟨q₀, pending₀, hm₀, hw₀, ⟨rfl, rfl⟩⟩
  | read count _ _ ih =>
      obtain ⟨q, pending, hm, hw, hf⟩ := ih
      exact ⟨q, pending, hm, hw, hf.read hm hw.aligned hp count⟩
  | write env buf _ _ hno ih =>
      obtain ⟨q, pending, hm, hw, hf⟩ := ih
      obtain ⟨q', pending', hm', hw', hpre⟩ := write_content_isPrefix hm hw hno
      exact ⟨q', pending', hm', hw', hf.prefix_mono hpre⟩

/-! ## Devices on which the reader starts beside the entries -/

/-- Every reachable device stores a settled queue. -/
theorem reachable_settled {d : AesdDev β} (h : Reachable d) :
    ∃ q pending, Models d q pending ∧ Settled q := by
  induction h with
  | init => exact ⟨_, _, models_init, settled_empty⟩
  | write env buf _ ih =>
      obtain ⟨q, pending, hm, hs⟩ := ih
      rcases aesdWrite_cases hm env buf with
        ⟨-, hsame, -⟩ | ⟨-, -, -, hm'⟩ | ⟨-, -, -, -, hm'⟩
      · rw [hsame]
        exact ⟨q, pending, hm, hs⟩
      · exact ⟨q, _, hm', hs⟩
      · exact ⟨_, _, hm', hs.add _ _⟩

/-- With entries that the walk does not reach, a read at the start ends the
    file too early. -/
theorem not_seesContent {d : AesdDev β} {q : SlotQueue 10 (List β)} {pending : List β}
    (hm : Models d q pending) (ha : ¬ Aligned q) (hne : q.items ≠ []) :
    ¬ SeesContent d 0 ((0 : Nat) : Int) [] := by
  intro hsees
  have hnone : aesdReadSource d 1 ((0 : Nat) : Int) = none :=
    aesdReadSource_beside hm ha 1 (by decide)
  have hret : (aesdRead true d 1 ((0 : Nat) : Int)).ret = 0 := by
    rw [aesdRead]
    rw [hnone]
  have hlen := (hsees.ends_iff 1 (by decide)).mp hret
  have hpos := content_length_pos hm hne
  omega

section Lost

variable {d₀ d : AesdDev UInt8} {q : SlotQueue 10 (List UInt8)} {pending : List UInt8}

/-- On an empty ring the write of one newline, stored or not, evicts nothing. -/
private theorem Reading.newline (hrun : Reading d₀ 0 d ((0 : Nat) : Int) [])
    (hm : Models d q pending) (hnil : q.items = []) (hroom : kmalloc true d.inUse 1 = true)
    (stored : Bool) :
    Reading d₀ 0 (aesdWrite ⟨true, true, true, stored⟩ d [10]).1 ((0 : Nat) : Int) [] ∧
      Models (aesdWrite ⟨true, true, true, stored⟩ d [10]).1
        (CyclicQueue.add stored q (pending ++ [10])) [] := by
  have ha : accepts ⟨true, true, true, stored⟩ d [10] = true := by
    rw [accepts]
    show (kmalloc true d.inUse 1 && true && (_ || true)) = true
    rw [hroom, Bool.or_true]
    rfl
  obtain ⟨hret, -, hm'⟩ := aesdWrite_commit hm ha (by decide)
  refine ⟨.write _ _ hrun hret ?_, hm'⟩
  rintro ⟨-, hlive⟩
  exact (hm.ring.oldest_live_iff.mp hlive).2 hnil

/-- On an empty ring that is marked full the next entry is stored beside the
    reading position, at once or after one more failed insertion. -/
private theorem exists_reading_beside (hm : Models d q pending) (hnil : q.items = [])
    (hfull : q.full = true) (hroom : kmalloc true d.inUse 1 = true) :
    ∃ d' q', Reading d 0 d' ((0 : Nat) : Int) [] ∧ Models d' q' [] ∧ ¬ Aligned q' ∧
      q'.items ≠ [] := by
  by_cases hgap : q.gap + 1 = 10
  · -- one slot back: a failed insertion brings the two positions together
    obtain ⟨hrun, hm₁⟩ := Reading.newline .start hm hnil hroom false
    have hadd : CyclicQueue.add false q (pending ++ [10]) = evict q := if_pos hfull
    rw [hadd] at hm₁
    have hnil₁ : (evict q).items = [] := by
      show (if Aligned q then q.items.tail else q.items) = []
      rw [hnil, List.tail_nil, ite_self]
    have hgap₁ : (evict q).gap = 10 := by
      show (if q.gap = 10 then 1 else q.gap + 1) = 10
      rw [if_neg (by omega), hgap]
    have hroom₁ : kmalloc true
        (aesdWrite ⟨true, true, true, false⟩ d [10]).1.inUse 1 = true := by
      rw [hm₁.inUse_eq, hnil₁]
      decide
    obtain ⟨hrun', hm₂⟩ := Reading.newline hrun hm₁ hnil₁ hroom₁ true
    have hfull₁ : (evict q).full = true := hfull
    exact ⟨_, _, hrun', hm₂, not_aligned_add hfull₁ hnil₁ _ (by omega) (by decide),
      fun h => nomatch (List.append_eq_nil_iff.mp h).2⟩
  · obtain ⟨hrun, hm₁⟩ := Reading.newline .start hm hnil hroom true
    exact ⟨_, _, hrun, hm₁, not_aligned_add hfull hnil _ hgap (by decide),
      fun h => nomatch (List.append_eq_nil_iff.mp h).2⟩

/-- Where the reader does not start at the oldest entry, some run shows it, as
    long as one more byte fits. -/
theorem exists_reading_lost (hm : Models d q pending) (hs : Settled q) (hw : ¬ Walkable q)
    (hroom : kmalloc true d.inUse 1 = true) :
    ∃ d', Reading d 0 d' ((0 : Nat) : Int) [] ∧ ¬ SeesContent d' 0 ((0 : Nat) : Int) [] := by
  by_cases hnil : q.items = []
  · have hfull : q.full = true := by
      rw [← Bool.not_eq_false]
      intro hf
      have hgap := hs hf hnil
      refine hw ⟨?_, fun _ => hf⟩
      show q.items.length + q.gap = 10
      rw [hnil, hgap]
      rfl
    obtain ⟨d', q', hrun, hm', ha', hne'⟩ := exists_reading_beside hm hnil hfull hroom
    exact ⟨d', hrun, not_seesContent hm' ha' hne'⟩
  · exact ⟨d, .start, not_seesContent hm (fun ha => hw ⟨ha, fun h => absurd h hnil⟩) hnil⟩

end Lost

/-- **THE READER SEES THE CONTENT**: take any reachable device.  If the oldest
    entry is at `out_offs`, then from every start position and at every moment of
    every interleaving of reads with successful writes that evict nothing, the
    reader sees the content.  If it is not, some such interleaving shows the
    reader something else, as long as one more byte fits into memory.  On devices
    reached by granted writes it always is. -/
theorem reader_follows_content {d₀ : AesdDev UInt8} (h₀ : Reachable d₀) :
    (StartsAtOldest d₀ → ∀ p < 2 ^ 63, ∀ d fPos out, Reading d₀ p d fPos out →
      SeesContent d p fPos out) ∧
    (¬ StartsAtOldest d₀ → kmalloc true d₀.inUse 1 = true →
      ∃ p < 2 ^ 63, ∃ d fPos out, Reading d₀ p d fPos out ∧ ¬ SeesContent d p fPos out) ∧
    ((∃ ws, GrantedWrites ws d₀) → StartsAtOldest d₀) := by
  obtain ⟨q₀, pending₀, hm₀, hs₀⟩ := reachable_settled h₀
  refine ⟨?_, ?_, ?_⟩
  · intro hstart p hp d fPos out hrun
    obtain ⟨q, pending, hm, hw, hf⟩ :=
      hrun.follows hm₀ ((startsAtOldest_iff hm₀ hs₀).mp hstart) hp
    exact hf.seesContent hm hw.aligned hp
  · intro hstart hroom
    rw [startsAtOldest_iff hm₀ hs₀] at hstart
    obtain ⟨d, hrun, hno⟩ := exists_reading_lost hm₀ hs₀ hstart hroom
    exact ⟨0, Nat.two_pow_pos 63, d, _, _, hrun, hno⟩
  · rintro ⟨ws, hws⟩
    obtain ⟨q, hm, hreg, -⟩ := grantedWrites_simulate hws
    by_cases hnil : q.items = []
    · refine Or.inr ⟨hm.retained_eq.trans hnil, ?_⟩
      rw [hm.ring.full_eq]
      exact hreg.walkable.free hnil
    · exact Or.inl (hm.ring.oldest_live_iff.mpr ⟨hreg.aligned, hnil⟩)

/-- A read of two bytes, a write of `"c\n"` and a read of the rest, from position
    one of the line `"ab\n"`. -/
theorem reader_follows_content_abc :
    StartsAtOldest (writeAll [[97, 98, 10]] : AesdDev UInt8) ∧
      ∃ fPos out, Reading (writeAll [[97, 98, 10]] : AesdDev UInt8) 1
          (writeAll [[97, 98, 10], [99, 10]]) fPos out ∧
        out = [98, 10, 99, 10] ∧ SeesContent (writeAll [[97, 98, 10], [99, 10]]) 1 fPos out := by
  have hstart : StartsAtOldest (writeAll [[97, 98, 10]] : AesdDev UInt8) :=
    Or.inl (by decide +kernel)
  have hread : ∃ fPos out, Reading (writeAll [[97, 98, 10]] : AesdDev UInt8) 1
      (aesdWrite WriteEnv.granted (writeAll [[97, 98, 10]]) [99, 10]).1 fPos out ∧
      out = [98, 10, 99, 10] :=
    ⟨_, _, .read 9 (by decide) (.write WriteEnv.granted [99, 10]
      (.read 2 (by decide) .start) (by decide +kernel)
      (fun hev => hev.1 (by decide +kernel))), by decide +kernel⟩
  obtain ⟨fPos, out, hrun, hout⟩ := hread
  have hreach : Reachable (writeAll [[97, 98, 10]] : AesdDev UInt8) := .write _ _ .init
  exact ⟨hstart, fPos, out, hrun, hout,
    (reader_follows_content hreach).1 hstart 1 (by decide) _ _ _ hrun⟩

/-- Ten lines `"\n"` fill the ring and ten more, whose ring allocation fails,
    empty it; the ring is still marked full. -/
def emptied : AesdDev UInt8 :=
  (List.replicate 10 ([10] : List UInt8)).foldl
    (fun d w => (aesdWrite ⟨true, true, true, false⟩ d w).1) (writeAll (List.replicate 10 [10]))

theorem reachable_emptied : Reachable emptied := by
  have hreach : ∀ (ws : List (List UInt8)) (d : AesdDev UInt8), Reachable d → Reachable
      (ws.foldl (fun d w => (aesdWrite ⟨true, true, true, false⟩ d w).1) d) := by
    intro ws
    induction ws with
    | nil => exact fun d hd => hd
    | cons w ws ih => exact fun d hd => ih _ (.write _ w hd)
  exact hreach _ _ (grantedWrites_writeAll _ (by decide)).1.reachable

/-- **A STORED LINE THAT IS NEVER READ**: on the emptied ring the line `"a\n"` is
    stored, evicting nothing, and the read at position 0 answers end of file. -/
theorem reader_misses_line :
    Reachable emptied ∧
      Reading emptied 0 (aesdWrite WriteEnv.granted emptied [97, 10]).1 ((0 : Nat) : Int) [] ∧
      content (aesdWrite WriteEnv.granted emptied [97, 10]).1 = [97, 10] ∧
      (aesdRead true (aesdWrite WriteEnv.granted emptied [97, 10]).1 512 ((0 : Nat) : Int)).ret
        = 0 ∧
      ¬ SeesContent (aesdWrite WriteEnv.granted emptied [97, 10]).1 0 ((0 : Nat) : Int) [] := by
  have hcontent : content (aesdWrite WriteEnv.granted emptied [97, 10]).1 = [97, 10] := by
    decide +kernel
  have hret : (aesdRead true (aesdWrite WriteEnv.granted emptied [97, 10]).1 512
      ((0 : Nat) : Int)).ret = 0 := by
    decide +kernel
  refine ⟨reachable_emptied,
    .write _ _ .start (by decide +kernel) (fun hev => absurd hev.2 (by decide +kernel)),
    hcontent, hret, ?_⟩
  intro hsees
  have hlen := (hsees.ends_iff 512 (by decide)).mp hret
  rw [hcontent] at hlen
  exact absurd hlen (by decide)

end AesdReader
