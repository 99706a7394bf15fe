import Aesd.ReaderProofs
import Aesd.SlidingReadProofs

/-! # A reader whose lines are evicted

    A file position counts bytes of what the ring holds now.  When a commit evicts
    the oldest line, everything behind it moves to the front, and the position of a
    reader does not: it now stands further on in the stream of all lines ever
    committed, by the length of the evicted line.

    `reader_skips_evicted` follows a reader through any mixture of its reads with
    writes that store: it copies the stream in order and nothing twice, and passes
    over exactly as many bytes as were evicted, which need not be the evicted ones.
    `reader_at_end_starves` is what becomes of a reader that keeps up: once ten
    lines are stored, as long as no line is longer than the one it evicts, it never
    sees a line again. -/

namespace AesdEviction

open AesdMachine AesdRing AesdDriver AesdHistory AesdReader CyclicQueue SlidingRead

variable {β : Type} [Octet β]

/-- The devices reached from module load by writes whose ring allocation, if it comes
    to that, is granted, and what these have committed. -/
inductive Stores : AesdDev β → Commits β → Prop where
  | init : Stores aesdInitModule Commits.start
  | write {d : AesdDev β} {c : Commits β} (env : WriteEnv) (buf : List β) : env.entry = true →
      Stores d c →
      Stores (aesdWrite env d buf).1 (if (aesdWrite env d buf).2 < 0 then c else c.write buf)

/-- `Among d₀ c₀ p d c fPos out`: from device `d₀` and position `p`, some reads (which
    delivered `out`) and some writes of that kind lead to device `d` and position
    `fPos`. -/
inductive Among (d₀ : AesdDev β) (c₀ : Commits β) (p : Nat) :
    AesdDev β → Commits β → Int → List β → Prop where
  | start : Among d₀ c₀ p d₀ c₀ p []
  | read {d : AesdDev β} {c : Commits β} {fPos : Int} {out : List β} (copyToUser : Bool)
      (count : Nat) : Among d₀ c₀ p d c fPos out →
      Among d₀ c₀ p d c (aesdRead copyToUser d count fPos).fPos
        (out ++ (aesdRead copyToUser d count fPos).data)
  | write {d : AesdDev β} {c : Commits β} {fPos : Int} {out : List β} (env : WriteEnv)
      (buf : List β) : env.entry = true → Among d₀ c₀ p d c fPos out →
      Among d₀ c₀ p (aesdWrite env d buf).1
        (if (aesdWrite env d buf).2 < 0 then c else c.write buf) fPos out

/-- Every byte ever committed. -/
def stream (c : Commits β) : List β := c.history.flatten

/-- How many of them are gone. -/
def evicted (c : Commits β) : Nat := (c.history.take (c.history.length - 10)).flatten.length

/-- The device and the history agree. -/
structure Agrees (d : AesdDev β) (c : Commits β) (q : SlotQueue 10 (List β)) : Prop where
  models  : Models d q c.pending
  regular : Regular q
  items   : q.items = latest 10 c.history

section Agreement

variable {d : AesdDev β} {c : Commits β} {q : SlotQueue 10 (List β)}

/-- What there is to read is the stream without what is gone. -/
theorem Agrees.content_eq (h : Agrees d c q) : content d = (stream c).drop (evicted c) := by
  rw [AesdReader.content_eq h.models, h.items, stream, evicted, latest]
  conv_rhs => rw [← List.take_append_drop (c.history.length - 10) c.history, List.flatten_append]
  rw [List.take_append_drop, List.drop_left]

omit [Octet β] in
theorem evicted_le (c : Commits β) : evicted c ≤ (stream c).length := by
  have hcut := congrArg List.length (congrArg List.flatten
    (List.take_append_drop (c.history.length - 10) c.history))
  rw [List.flatten_append, List.length_append] at hcut
  rw [evicted, stream]
  omega

theorem Agrees.content_length (h : Agrees d c q) :
    evicted c + (content d).length = (stream c).length := by
  have hle := evicted_le c
  rw [h.content_eq, List.length_drop]
  omega

/-- **ONE WRITE**: refused, or the next step of the history. -/
theorem Agrees.write (h : Agrees d c q) (env : WriteEnv) (buf : List β)
    (henv : env.entry = true) : ∃ q', Agrees (aesdWrite env d buf).1
      (if (aesdWrite env d buf).2 < 0 then c else c.write buf) q' := by
  rcases aesdWrite_cases h.models env buf with
    ⟨-, hsame, hret⟩ | ⟨-, hn, hret, hm⟩ | ⟨-, hn, hret, -, hm⟩
  · rw [hsame, if_pos hret]
    exact ⟨q, h⟩
  · rw [hret, if_neg (Int.not_lt.mpr (Int.natCast_nonneg _)), Commits.write, hn]
    exact ⟨q, hm, h.regular, h.items⟩
  · rw [hret, if_neg (Int.not_lt.mpr (Int.natCast_nonneg _)), Commits.write, hn]
    rw [henv] at hm
    refine ⟨_, hm, h.regular.add _, ?_⟩
    show (CyclicQueue.add true q _).items = _
    rw [h.regular.add_items, h.items, latest_concat]
    rfl

end Agreement

theorem Stores.agrees {d : AesdDev β} {c : Commits β} (h : Stores d c) : ∃ q, Agrees d c q := by
  induction h with
  | init => exact ⟨_, models_init, regular_empty, rfl⟩
  | write env buf henv _ ih =>
      obtain ⟨q, hq⟩ := ih
      exact hq.write env buf henv

/-- The history only grows. -/
theorem history_prefix (c : Commits β) (ret : Int) (buf : List β) :
    c.history <+: (if ret < 0 then c else c.write buf).history := by
  by_cases hret : ret < 0
  · rw [if_pos hret]
  · rw [if_neg hret, Commits.write]
    by_cases hn : hasNewline buf = true
    · rw [if_pos hn]
      exact List.prefix_append _ _
    · rw [if_neg hn]

omit [Octet β] in
theorem stream_grows {c c' : Commits β} (h : c.history <+: c'.history) :
    (∃ T, stream c' = stream c ++ T) ∧ evicted c ≤ evicted c' := by
  obtain ⟨T, hT⟩ := h
  refine ⟨⟨T.flatten, ?_⟩, ?_⟩
  · rw [stream, stream, ← hT, List.flatten_append]
  · rw [evicted, evicted, ← hT]
    have hpre : c.history.take (c.history.length - 10)
        <+: (c.history ++ T).take ((c.history ++ T).length - 10) := by
      rw [List.length_append, ← List.take_append_of_le_length (Nat.sub_le c.history.length 10)]
      exact List.take_prefix_take_left (by omega)
    exact hpre.flatten.length_le

/-! ## The reader's place in the stream -/

/-- The invariant of a run: the reader's index in the stream, and how it got there. -/
structure Place (c₀ : Commits β) (p : Nat) (c : Commits β) (fPos : Int) (out : List β) : Prop where
  position : fPos = ((p + out.length : Nat) : Int)
  bound    : p + out.length < 2 ^ 63
  skims    : Skims (stream c) (evicted c₀ + p) (evicted c + (p + out.length)) out
    (evicted c - evicted c₀)

omit [Octet β] in
/-- A read whose copy fails leaves the reader where it is. -/
theorem aesdRead_fault (d : AesdDev β) (count : Nat) (fPos : Int) :
    (aesdRead false d count fPos).fPos = fPos ∧ (aesdRead false d count fPos).data = [] := by
  rw [aesdRead]
  cases aesdReadSource d count fPos with
  | none => exact ⟨rfl, rfl⟩
  | some source => exact ⟨rfl, rfl⟩

section Steps

variable {d : AesdDev β} {c₀ c : Commits β} {q : SlotQueue 10 (List β)} {p : Nat} {fPos : Int}
  {out : List β}

/-- **ONE READ** delivers the next bytes of the stream, if there are any. -/
theorem aesdRead_stream (h : Agrees d c q) (count : Nat) {n : Nat} (hn : n < 2 ^ 64) :
    (evicted c + n < (stream c).length ∧ ∃ k, (0 < count → 0 < k) ∧ n + k < 2 ^ 63 ∧
      evicted c + n + k ≤ (stream c).length ∧ aesdRead true d count n
        = ⟨k, ((stream c).drop (evicted c + n)).take k, ((n + k : Nat) : Int)⟩) ∨
    ((stream c).length ≤ evicted c + n ∧ aesdRead true d count n = ⟨0, [], n⟩) := by
  have hlength := h.content_length
  have hbound := content_length_lt h.models
  have hdrop : (content d).drop n = (stream c).drop (evicted c + n) := by
    rw [h.content_eq, List.drop_drop]
  rcases aesdRead_spec h.models h.regular.aligned count hn with
    ⟨hin, k, hk, hend, hread⟩ | ⟨hend, hread⟩
  · rw [hdrop] at hread
    exact Or.inl ⟨by omega, k, hk, by omega, by omega, hread⟩
  · exact Or.inr ⟨by omega, hread⟩

theorem Place.read (hp : Place c₀ p c fPos out) (h : Agrees d c q) (copyToUser : Bool)
    (count : Nat) : Place c₀ p c (aesdRead copyToUser d count fPos).fPos
      (out ++ (aesdRead copyToUser d count fPos).data) := by
  have hbound := hp.bound
  cases copyToUser with
  | false =>
      obtain ⟨hpos, hdata⟩ := aesdRead_fault d count fPos
      rw [hpos, hdata, List.append_nil]
      exact hp
  | true =>
      rw [hp.position]
      rcases aesdRead_stream h count (n := p + out.length) (by omega) with
        ⟨-, k, -, hlt, hend, hread⟩ | ⟨-, hread⟩
      · have hlen : (((stream c).drop (evicted c + (p + out.length))).take k).length = k := by
          rw [List.length_take, List.length_drop]
          omega
        have hskims := hp.skims.copy hend
        rw [hread]
        refine ⟨?_, ?_, ?_⟩
        · rw [List.length_append, hlen, Nat.add_assoc]
        · rw [List.length_append, hlen, ← Nat.add_assoc]
          exact hlt
        · rw [List.length_append, hlen, show evicted c + (p + (out.length + k))
            = evicted c + (p + out.length) + k by omega]
          exact hskims
      · rw [hread, List.append_nil, ← hp.position]
        exact hp

omit [Octet β] in
/-- The history grows: the reader stands by as much further on as was evicted. -/
theorem Place.grow (hp : Place c₀ p c fPos out) (hmono : evicted c₀ ≤ evicted c)
    {c' : Commits β} (hgrows : c.history <+: c'.history) : Place c₀ p c' fPos out := by
  obtain ⟨⟨T, hT⟩, hle⟩ := stream_grows hgrows
  refine ⟨hp.position, hp.bound, ?_⟩
  have hskims := (hp.skims.grow T).skip (evicted c' - evicted c)
  rw [hT, show evicted c' + (p + out.length)
    = evicted c + (p + out.length) + (evicted c' - evicted c) by omega,
    show evicted c' - evicted c₀ = evicted c - evicted c₀ + (evicted c' - evicted c) by omega]
  exact hskims

end Steps

/-- The invariant of a whole run. -/
theorem Among.place {d₀ d : AesdDev β} {c₀ c : Commits β} {p : Nat} {fPos : Int} {out : List β}
    (h₀ : Stores d₀ c₀) (hp : p < 2 ^ 63) (hrun : Among d₀ c₀ p d c fPos out) :
    (∃ q, Agrees d c q) ∧ evicted c₀ ≤ evicted c ∧ Place c₀ p c fPos out := by
  induction hrun with
  | start =>
      refine ⟨h₀.agrees, Nat.le_refl _, rfl, hp, ?_⟩
      rw [Nat.sub_self]
      exact .refl _ _
  | read copyToUser count _ ih =>
      obtain ⟨⟨q, hq⟩, hmono, hplace⟩ := ih
      exact ⟨⟨q, hq⟩, hmono, hplace.read hq copyToUser count⟩
  | @write d c fPos out env buf henv _ ih =>
      obtain ⟨⟨q, hq⟩, hmono, hplace⟩ := ih
      have hpre := history_prefix c (aesdWrite env d buf).2 buf
      exact ⟨hq.write env buf henv, Nat.le_trans hmono (stream_grows hpre).2,
        hplace.grow hmono hpre⟩

/-- **IN ORDER, NOTHING TWICE, AND AS MANY SKIPPED AS EVICTED**: a reader that starts at
    position `p` of any device whose ring allocations were granted, among any further
    such writes and with any of its own copies failing, has at every moment copied the
    stream of all committed bytes in order and none of them twice; it has passed over
    exactly as many bytes as were evicted meanwhile; its file position is its start
    plus what it was given; and its next read delivers the stream from its index on, or
    answers end of file when its index is past the end of the stream. -/
theorem reader_skips_evicted {d₀ d : AesdDev β} {c₀ c : Commits β} {p : Nat} {fPos : Int}
    {out : List β} (h₀ : Stores d₀ c₀) (hp : p < 2 ^ 63) (hrun : Among d₀ c₀ p d c fPos out) :
    fPos = ((p + out.length : Nat) : Int) ∧
      Skims (stream c) (evicted c₀ + p) (evicted c + (p + out.length)) out
        (evicted c - evicted c₀) ∧
      ∀ count, 0 < count →
        (evicted c + (p + out.length) < (stream c).length ∧ ∃ k > 0,
          (aesdRead true d count fPos).ret = (k : Nat) ∧
          (aesdRead true d count fPos).data
            = ((stream c).drop (evicted c + (p + out.length))).take k) ∨
        ((stream c).length ≤ evicted c + (p + out.length) ∧
          (aesdRead true d count fPos).ret = 0) := by
  obtain ⟨⟨q, hq⟩, -, hplace⟩ := hrun.place h₀ hp
  refine ⟨hplace.position, hplace.skims, ?_⟩
  intro count hcount
  have hbound := hplace.bound
  rw [hplace.position]
  rcases aesdRead_stream hq count (n := p + out.length) (by omega) with
    ⟨hin, k, hk, -, -, hread⟩ | ⟨hend, hread⟩
  · refine Or.inl ⟨hin, k, hk hcount, ?_, ?_⟩
    · rw [hread]
    · rw [hread]
  · refine Or.inr ⟨hend, ?_⟩
    rw [hread]

/-- The device and the history after the writes `ws`, everything granted. -/
def storeLines (ws : List (List β)) : AesdDev β × Commits β :=
  ws.foldl (fun s w => ((aesdWrite WriteEnv.granted s.1 w).1,
    if (aesdWrite WriteEnv.granted s.1 w).2 < 0 then s.2 else s.2.write w))
    (aesdInitModule, Commits.start)

theorem storeLines_concat (ws : List (List β)) (w : List β) : storeLines (ws ++ [w])
    = ((aesdWrite WriteEnv.granted (storeLines ws).1 w).1,
      if (aesdWrite WriteEnv.granted (storeLines ws).1 w).2 < 0 then (storeLines ws).2
      else (storeLines ws).2.write w) := by
  rw [storeLines, List.foldl_append]
  rfl

theorem stores_storeLines (ws : List (List β)) : Stores (storeLines ws).1 (storeLines ws).2 := by
  induction ws using List.reverseRecOn with
  | nil => exact .init
  | append_singleton ws w ih =>
      rw [storeLines_concat]
      exact .write WriteEnv.granted w rfl ih

/-- The lines `"0\n"` to `"9\n"`. -/
def tenLines : List (List UInt8) := (List.range 10).map fun i => [48 + i.toUInt8, 10]

/-- The first line is read, and then evicted by `"x\n"`: the reader goes on with the
    third line and misses the second, which is still there. -/
theorem reader_skips_evicted_tenLines :
    ∃ fPos out, Among (storeLines tenLines).1 (storeLines tenLines).2 0
        (storeLines (tenLines ++ [[120, 10]])).1 (storeLines (tenLines ++ [[120, 10]])).2 fPos out ∧
      out = [48, 10, 50, 10] ∧ [49, 10] <+: content (storeLines (tenLines ++ [[120, 10]])).1 ∧
      Skims (stream (storeLines (tenLines ++ [[120, 10]])).2) 0 6 out 2 := by
  have hread : ∃ fPos out, Among (storeLines tenLines).1 (storeLines tenLines).2 0
      (storeLines (tenLines ++ [[120, 10]])).1 (storeLines (tenLines ++ [[120, 10]])).2 fPos out ∧
      out = [48, 10, 50, 10] := by
    simp only [storeLines_concat]
    exact ⟨_, _, .read true 2 (.write WriteEnv.granted [120, 10] rfl (.read true 2 .start)),
      by decide +kernel⟩
  obtain ⟨fPos, out, hrun, hout⟩ := hread
  have hskims := (reader_skips_evicted (stores_storeLines tenLines) (by decide) hrun).2.1
  refine ⟨fPos, out, hrun, hout, by decide +kernel, ?_⟩
  have hbefore : evicted (storeLines tenLines).2 = 0 := by decide +kernel
  have hafter : evicted (storeLines (tenLines ++ [[120, 10]])).2 = 2 := by decide +kernel
  rw [hbefore, hafter, hout] at hskims
  rw [hout]
  exact hskims

/-! ## A reader that keeps up -/

/-- From the history of length `n` on, no line is longer than the one it evicts. -/
def NoLonger (n : Nat) (history : List (List β)) : Prop :=
  ∀ i old new, n ≤ i + 10 → history[i]? = some old → history[i + 10]? = some new →
    new.length ≤ old.length

omit [Octet β] in
theorem NoLonger.of_prefix {n : Nat} {H H' : List (List β)} (h : NoLonger n H')
    (hpre : H <+: H') : NoLonger n H := by
  obtain ⟨T, rfl⟩ := hpre
  intro i old new hn hold hnew
  have hlt := (List.getElem?_eq_some_iff.mp hold).1
  have hlt' := (List.getElem?_eq_some_iff.mp hnew).1
  refine h i old new hn ?_ ?_
  · rw [List.getElem?_append_left hlt]
    exact hold
  · rw [List.getElem?_append_left hlt']
    exact hnew

omit [Octet β] in
/-- A commit to ten lines or more evicts the tenth from the end. -/
theorem evicted_concat {c : Commits β} {new : List β} {pending : List β}
    (hfull : 10 ≤ c.history.length) :
    ∃ old, (c.history ++ [new])[c.history.length - 10]? = some old ∧
      evicted (⟨c.history ++ [new], pending⟩ : Commits β) = evicted c + old.length := by
  have hlt : c.history.length - 10 < c.history.length := by omega
  refine ⟨c.history[c.history.length - 10], ?_, ?_⟩
  · rw [List.getElem?_append_left hlt, List.getElem?_eq_getElem hlt]
  · show ((c.history ++ [new]).take ((c.history ++ [new]).length - 10)).flatten.length = _
    rw [List.length_append, List.length_singleton,
      List.take_append_of_le_length (by omega),
      show c.history.length + 1 - 10 = c.history.length - 10 + 1 by omega,
      List.take_succ_eq_append_getElem hlt, List.flatten_append, List.length_append,
      List.flatten_singleton, evicted]

/-- Such a commit does not make the content longer. -/
theorem content_length_le {d d' : AesdDev β} {c : Commits β} {q q' : SlotQueue 10 (List β)}
    {n : Nat} (h : Agrees d c q) (ret : Int) (buf : List β)
    (h' : Agrees d' (if ret < 0 then c else c.write buf) q') (hn : n ≤ c.history.length)
    (hfull : 10 ≤ n) (hlines : NoLonger n (if ret < 0 then c else c.write buf).history) :
    (content d').length ≤ (content d).length := by
  have hlength := h.content_length
  have hlength' := h'.content_length
  by_cases hret : ret < 0
  · rw [if_pos hret] at hlength'
    omega
  · rw [if_neg hret, Commits.write] at hlength' hlines
    by_cases hnew : hasNewline buf = true
    · rw [if_pos hnew] at hlength' hlines
      obtain ⟨old, hold, hevicted⟩ :=
        @evicted_concat _ c (c.pending ++ buf) [] (Nat.le_trans hfull hn)
      have hle := hlines (c.history.length - 10) old (c.pending ++ buf) (by omega) hold (by
        rw [show c.history.length - 10 + 10 = c.history.length by omega]
        exact List.getElem?_concat_length)
      have hstream : (stream (⟨c.history ++ [c.pending ++ buf], []⟩ : Commits β)).length
          = (stream c).length + (c.pending ++ buf).length := by
        rw [stream, List.flatten_append, List.flatten_singleton, List.length_append, stream]
      omega
    · rw [if_neg hnew] at hlength'
      have hsame : evicted (⟨c.history, c.pending ++ buf⟩ : Commits β) = evicted c := rfl
      have hstream : stream (⟨c.history, c.pending ++ buf⟩ : Commits β) = stream c := rfl
      rw [hsame, hstream] at hlength'
      omega

/-- **A READER THAT KEEPS UP STARVES**: on a device that stores ten lines, reached by
    writes whose ring allocation was granted, a reader at the end of the content, or
    behind it, is given nothing by any of its reads, as long as no line committed since
    is longer than the line it evicted. -/
theorem reader_at_end_starves {d₀ d : AesdDev β} {c₀ c : Commits β} {p : Nat} {fPos : Int}
    {out : List β} (h₀ : Stores d₀ c₀) (hfull : 10 ≤ c₀.history.length)
    (hend : (content d₀).length ≤ p) (hp : p < 2 ^ 63) (hrun : Among d₀ c₀ p d c fPos out)
    (hlines : NoLonger c₀.history.length c.history) :
    out = [] ∧ fPos = p ∧ ∀ count, aesdRead true d count fPos = ⟨0, [], p⟩ := by
  have hstarves : (∃ q, Agrees d c q) ∧ c₀.history.length ≤ c.history.length ∧
      (content d).length ≤ p ∧ out = [] ∧ fPos = p := by
    induction hrun with
    | start => exact ⟨h₀.agrees, Nat.le_refl _, hend, rfl, rfl⟩
    | @read d c fPos out copyToUser count _ ih =>
        obtain ⟨⟨q, hq⟩, hlen, hbehind, rfl, rfl⟩ := ih hlines
        refine ⟨⟨q, hq⟩, hlen, hbehind, ?_⟩
        cases copyToUser with
        | false =>
            obtain ⟨hpos, hdata⟩ := aesdRead_fault d count p
            rw [hpos, hdata]
            exact ⟨rfl, rfl⟩
        | true =>
            rcases aesdRead_spec hq.models hq.regular.aligned count (n := p) (by omega) with
              ⟨hin, -⟩ | ⟨-, hread⟩
            · omega
            · rw [hread]
              exact ⟨rfl, rfl⟩
    | @write d c fPos out env buf henv _ ih =>
        have hpre := history_prefix c (aesdWrite env d buf).2 buf
        obtain ⟨⟨q, hq⟩, hlen, hbehind, hout, hpos⟩ := ih (hlines.of_prefix hpre)
        obtain ⟨q', hq'⟩ := hq.write env buf henv
        have hle := content_length_le hq _ buf hq' hlen hfull hlines
        exact ⟨⟨q', hq'⟩, Nat.le_trans hlen hpre.length_le, Nat.le_trans hle hbehind, hout, hpos⟩
  obtain ⟨⟨q, hq⟩, -, hbehind, hout, hpos⟩ := hstarves
  refine ⟨hout, hpos, ?_⟩
  intro count
  rw [hpos]
  rcases aesdRead_spec hq.models hq.regular.aligned count (n := p) (by omega) with
    ⟨hin, -⟩ | ⟨-, hread⟩
  · omega
  · exact hread

/-- All twenty bytes have been read; of the line `"x\n"` the reader sees nothing. -/
theorem reader_at_end_starves_tenLines :
    content (storeLines (tenLines ++ [[120, 10]])).1 ≠ content (storeLines tenLines).1 ∧
      ∀ count, aesdRead true (storeLines (tenLines ++ [[120, 10]])).1 count (20 : Nat)
        = ⟨0, [], (20 : Nat)⟩ := by
  have hrun : Among (storeLines tenLines).1 (storeLines tenLines).2 20
      (storeLines (tenLines ++ [[120, 10]])).1 (storeLines (tenLines ++ [[120, 10]])).2
      (20 : Nat) [] := by
    simp only [storeLines_concat]
    exact .write WriteEnv.granted [120, 10] rfl .start
  have htwo : ∀ line ∈ (storeLines (tenLines ++ [[120, 10]])).2.history, line.length = 2 := by
    decide +kernel
  refine ⟨by decide +kernel, ?_⟩
  refine (reader_at_end_starves (stores_storeLines tenLines) (by decide +kernel)
    (by decide +kernel) (by decide) hrun ?_).2.2
  intro i old new _ hold hnew
  rw [htwo old (List.mem_of_getElem? hold), htwo new (List.mem_of_getElem? hnew)]

end AesdEviction
