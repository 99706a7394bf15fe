import Mathlib

/-! # Buffered reading

    A stream sits on a source that is read by calls which may deliver less than
    they were asked for.  It keeps what it has read and not yet handed out, and
    collects calls until a request is filled, a call delivers nothing (the end,
    which it remembers) or a call fails.

    `Delivers read rest ok` says what a source promises: the bytes of a call are
    the next bytes of `rest`, and none are delivered only at its end.  Under it
    the cuts disappear: `remaining` is all that a reader can still get, and a
    request for `n` elements takes the first `n` of it, however large the calls
    behind it are. -/

namespace BufferedStream

variable {σ α : Type}

/-- A stream: elements read and not handed out, the state of the source, the
    end-of-file flag, and how many calls were made. -/
structure InStream (σ α : Type) where
  buffered : List α
  source   : σ
  eof      : Bool
  calls    : Nat

/-- A stream before its first call. -/
def opened (source : σ) : InStream σ α := ⟨[], source, false, 0⟩

/-- Hand out `n` elements.  Call number `k` asks the source for `sizes k`; a call
    answers `none` when it fails.  A stream with `sticky` set does not ask again
    after it has met the end.  The recursion is bounded by `fuel`. -/
def fread (read : σ → Nat → Option (List α) × σ) (sizes : Nat → Nat) (sticky : Bool) (n : Nat) :
    Nat → InStream σ α → Option (List α × InStream σ α)
  | 0, _ => none
  | fuel + 1, s =>
      if n ≤ s.buffered.length then
        some (s.buffered.take n, { s with buffered := s.buffered.drop n })
      else if sticky && s.eof then some (s.buffered, { s with buffered := [] })
      else
        match read s.source (sizes s.calls) with
        | (none, source) => some (s.buffered, ⟨[], source, s.eof, s.calls + 1⟩)
        | (some [], source) => some (s.buffered, ⟨[], source, true, s.calls + 1⟩)
        | (some (x :: xs), source) =>
            fread read sizes sticky n fuel
              ⟨s.buffered ++ x :: xs, source, s.eof, s.calls + 1⟩

/-- What a source promises in the states `ok`, about calls that ask for something:
    they deliver the next elements of `rest`, and nothing only at its end. -/
structure Delivers (read : σ → Nat → Option (List α) × σ) (rest : σ → List α) (ok : σ → Prop) :
    Prop where
  delivers : ∀ s count, ok s → 0 < count → ∃ data s', read s count = (some data, s') ∧
    ok s' ∧ rest s = data ++ rest s' ∧ (data = [] → rest s = [])

/-- All that a reader can still get. -/
def InStream.remaining (rest : σ → List α) (s : InStream σ α) : List α :=
  s.buffered ++ rest s.source

/-- The source is in order, and the flag is set only at the end. -/
structure InStream.Sound (rest : σ → List α) (ok : σ → Prop) (s : InStream σ α) : Prop where
  source : ok s.source
  ended  : s.eof = true → s.remaining rest = []

theorem sound_opened {rest : σ → List α} {ok : σ → Prop} {source : σ} (h : ok source) :
    (opened source : InStream σ α).Sound rest ok :=
  ⟨h, fun heof => nomatch heof⟩

/-- What a request for `n` elements leads to, from what remained before it. -/
structure Handed (rest : σ → List α) (ok : σ → Prop) (n : Nat) (before : List α)
    (s : InStream σ α) : Prop where
  sound : s.Sound rest ok
  left  : s.remaining rest = before.drop n
  short : before.length < n → s.eof = true

section Requests

variable {read : σ → Nat → Option (List α) × σ} {rest : σ → List α} {ok : σ → Prop}
  {sizes : Nat → Nat} {sticky : Bool} {n : Nat}

/-- Enough is buffered. -/
theorem handed_buffered {s : InStream σ α} (hs : s.Sound rest ok) (hn : n ≤ s.buffered.length) :
    (s.remaining rest).take n = s.buffered.take n ∧
      Handed rest ok n (s.remaining rest) { s with buffered := s.buffered.drop n } := by
  have hleft : ({ s with buffered := s.buffered.drop n } : InStream σ α).remaining rest
      = (s.remaining rest).drop n := (List.drop_append_of_le_length hn).symm
  refine ⟨List.take_append_of_le_length hn, ⟨hs.source, ?_⟩, hleft, ?_⟩
  · intro heof
    rw [hleft, hs.ended heof, List.drop_nil]
  · intro hshort
    rw [InStream.remaining, List.length_append] at hshort
    omega

/-- The source has ended and less is buffered: all of it is handed out. -/
theorem handed_rest {s : InStream σ α} {source : σ} {calls : Nat} (hsource : ok source)
    (hrest : rest source = []) (hend : s.remaining rest = s.buffered)
    (hn : s.buffered.length < n) :
    (s.remaining rest).take n = s.buffered ∧
      Handed rest ok n (s.remaining rest) ⟨[], source, true, calls⟩ := by
  have hle : s.buffered.length ≤ n := Nat.le_of_lt hn
  have hnil : (⟨[], source, true, calls⟩ : InStream σ α).remaining rest = [] := hrest
  rw [hend]
  refine ⟨List.take_of_length_le hle, ⟨hsource, fun _ => hnil⟩, ?_, fun _ => rfl⟩
  rw [hnil, List.drop_of_length_le hle]

/-- **WHAT A REQUEST DOES NEXT**: hand out what was asked for, or make one call that
    moves elements from the source into the buffer. -/
theorem fread_step (hread : Delivers read rest ok) (hsizes : ∀ k, 0 < sizes k)
    {s : InStream σ α} (hs : s.Sound rest ok) :
    (∃ s', Handed rest ok n (s.remaining rest) s' ∧ ∀ fuel,
      fread read sizes sticky n (fuel + 1) s = some ((s.remaining rest).take n, s')) ∨
    ∃ s₁, s₁.Sound rest ok ∧ s₁.remaining rest = s.remaining rest ∧
      (rest s₁.source).length < (rest s.source).length ∧
      ∀ fuel, fread read sizes sticky n (fuel + 1) s = fread read sizes sticky n fuel s₁ := by
  by_cases hn : n ≤ s.buffered.length
  · obtain ⟨htake, hhanded⟩ := handed_buffered hs hn
    refine Or.inl ⟨_, hhanded, ?_⟩
    intro fuel
    rw [fread, if_pos hn, htake]
  · have hlt : s.buffered.length < n := Nat.lt_of_not_le hn
    by_cases hsticky : (sticky && s.eof) = true
    · obtain ⟨-, heof⟩ := Bool.and_eq_true_iff.mp hsticky
      obtain ⟨hbuffered, hrest⟩ := List.append_eq_nil_iff.mp (hs.ended heof)
      have hend : s.remaining rest = s.buffered := by rw [hs.ended heof, hbuffered]
      obtain ⟨htake, hhanded⟩ := @handed_rest _ _ rest ok n s s.source s.calls hs.source hrest
        hend hlt
      refine Or.inl ⟨_, hhanded, ?_⟩
      intro fuel
      rw [fread, if_neg hn, if_pos hsticky, htake, heof]
    · obtain ⟨data, source, hcall, hok, hsplit, hnil⟩ :=
        hread.delivers s.source (sizes s.calls) hs.source (hsizes _)
      cases data with
      | nil =>
          have hrest : rest source = [] := hsplit.symm.trans (hnil rfl)
          have hend : s.remaining rest = s.buffered := by
            rw [InStream.remaining, hnil rfl, List.append_nil]
          obtain ⟨htake, hhanded⟩ := @handed_rest _ _ rest ok n s source (s.calls + 1) hok hrest
            hend hlt
          refine Or.inl ⟨_, hhanded, ?_⟩
          intro fuel
          rw [fread, if_neg hn, if_neg hsticky, hcall, htake]
      | cons x xs =>
          have hsame : (⟨s.buffered ++ x :: xs, source, s.eof, s.calls + 1⟩ :
              InStream σ α).remaining rest = s.remaining rest := by
            rw [InStream.remaining, InStream.remaining, hsplit, List.append_assoc]
          refine Or.inr ⟨⟨s.buffered ++ x :: xs, source, s.eof, s.calls + 1⟩,
            ⟨hok, fun heof => hsame.trans (hs.ended heof)⟩, hsame, ?_, ?_⟩
          · show (rest source).length < (rest s.source).length
            rw [hsplit, List.length_append, List.length_cons]
            omega
          · intro fuel
            rw [fread, if_neg hn, if_neg hsticky, hcall]

/-- **ONE REQUEST**: it hands out the first `n` of what remains, as soon as the fuel
    covers the calls that the rest of the source can take. -/
theorem fread_spec (hread : Delivers read rest ok) (hsizes : ∀ k, 0 < sizes k)
    {s : InStream σ α} (hs : s.Sound rest ok) :
    ∃ s', Handed rest ok n (s.remaining rest) s' ∧ ∀ fuel, (rest s.source).length < fuel →
      fread read sizes sticky n fuel s = some ((s.remaining rest).take n, s') := by
  -- by induction on the rest of the source, which every call that delivers shortens
  generalize hm : (rest s.source).length = m
  induction m using Nat.strongRecOn generalizing s with
  | ind m ih =>
      rcases @fread_step _ _ read rest ok sizes sticky n hread hsizes s hs with
        ⟨s', hhanded, hdone⟩ | ⟨s₁, hs₁, hsame, hless, hgoes⟩
      · refine ⟨s', hhanded, ?_⟩
        intro fuel hfuel
        obtain ⟨fuel, rfl⟩ := Nat.exists_eq_add_one_of_ne_zero (Nat.ne_zero_of_lt hfuel)
        exact hdone fuel
      · obtain ⟨s', hhanded, hfread⟩ := ih _ (hm ▸ hless) hs₁ rfl
        rw [hsame] at hhanded hfread
        refine ⟨s', hhanded, ?_⟩
        intro fuel hfuel
        obtain ⟨fuel, rfl⟩ := Nat.exists_eq_add_one_of_ne_zero (Nat.ne_zero_of_lt hfuel)
        rw [hgoes]
        exact hfread fuel (by omega)

end Requests

end BufferedStream
