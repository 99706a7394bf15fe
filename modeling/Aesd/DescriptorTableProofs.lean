import Mathlib

/-! # A descriptor table that hands out the lowest free number

    The kernel's table of open descriptors as a list of slots, each free or
    owned.  `openAs` puts an owner into the lowest free slot (growing the table
    when there is none), `close` frees a slot; `owner` reads the table as a
    total map from numbers to owners.  The two update lemmas are all a client
    of this file needs. -/

namespace DescriptorTable

variable {ω : Type}

/-- The owner of a number, `none` when the number is free. -/
def owner (t : List (Option ω)) (n : Nat) : Option ω := t.getD n none

/-- The lowest number that is free. -/
def lowestFree (t : List (Option ω)) : Nat := t.findIdx Option.isNone

/-- Give the lowest free number to `w`. -/
def openAs (t : List (Option ω)) (w : ω) : List (Option ω) :=
  if lowestFree t < t.length then t.set (lowestFree t) (some w) else t ++ [some w]

/-- Free a number. -/
def close (t : List (Option ω)) (n : Nat) : List (Option ω) := t.set n none

/-- The number handed out was free. -/
theorem owner_lowestFree (t : List (Option ω)) : owner t (lowestFree t) = none := by
  rw [owner]
  by_cases h : lowestFree t < t.length
  · have hfree := @List.findIdx_getElem _ Option.isNone t h
    have hget : t[lowestFree t] = none := Option.isNone_iff_eq_none.mp hfree
    rw [List.getD_eq_getElem?_getD, List.getElem?_eq_getElem h, hget]
    rfl
  · rw [List.getD_eq_getElem?_getD, List.getElem?_eq_none (by omega)]
    rfl

/-- Opening changes the owner of the lowest free number only. -/
theorem owner_openAs (t : List (Option ω)) (w : ω) (n : Nat) :
    owner (openAs t w) n = if n = lowestFree t then some w else owner t n := by
  simp only [openAs, owner]
  by_cases h : lowestFree t < t.length
  · rw [if_pos h, List.getD_eq_getElem?_getD, List.getD_eq_getElem?_getD]
    by_cases hn : n = lowestFree t
    · rw [if_pos hn, hn, List.getElem?_set_self h]
      rfl
    · rw [if_neg hn, List.getElem?_set_ne (fun h => hn h.symm)]
  · have hlen : lowestFree t = t.length :=
      Nat.le_antisymm List.findIdx_le_length (by omega)
    rw [if_neg h, hlen, List.getD_eq_getElem?_getD, List.getD_eq_getElem?_getD]
    by_cases hn : n = t.length
    · rw [if_pos hn, hn, List.getElem?_concat_length]
      rfl
    · rw [if_neg hn]
      by_cases hlt : n < t.length
      · rw [List.getElem?_append_left hlt]
      · rw [List.getElem?_eq_none (by simp; omega), List.getElem?_eq_none (by omega)]

/-- Closing changes the owner of that number only. -/
theorem owner_close (t : List (Option ω)) (n m : Nat) :
    owner (close t n) m = if m = n then none else owner t m := by
  simp only [close, owner]
  rw [List.getD_eq_getElem?_getD, List.getD_eq_getElem?_getD]
  by_cases hm : m = n
  · rw [if_pos hm, hm]
    by_cases hlt : n < t.length
    · rw [List.getElem?_set_self hlt]
      rfl
    · rw [List.getElem?_eq_none (by rw [List.length_set]; omega)]
      rfl
  · rw [if_neg hm, List.getElem?_set_ne (fun h => hm h.symm)]

/-- Opening takes no number away. -/
theorem owner_openAs_of_owned {t : List (Option ω)} {n : Nat} {w : ω} (h : owner t n = some w)
    (w' : ω) : owner (openAs t w') n = some w := by
  have hne : n ≠ lowestFree t := by
    rintro rfl
    rw [owner_lowestFree] at h
    exact nomatch h
  rw [owner_openAs, if_neg hne, h]

/-- Closing the number of one owner keeps those of the others. -/
theorem owner_close_of_ne {t : List (Option ω)} {n m : Nat} {w w' : ω} (h : owner t n = some w)
    (hm : owner t m = some w') (hne : w ≠ w') : owner (close t m) n = some w := by
  have hnm : n ≠ m := by
    rintro rfl
    exact hne (Option.some.inj (h.symm.trans hm))
  rw [owner_close, if_neg hnm, h]

/-! ## Comparing free numbers -/

/-- Below the lowest free number everything is owned. -/
theorem lt_lowestFree_iff (t : List (Option ω)) (k : Nat) :
    k < lowestFree t ↔ ∀ n ≤ k, owner t n ≠ none := by
  constructor
  · intro hk n hn hfree
    have hlt : n < lowestFree t := by omega
    have hlen : n < t.length := Nat.lt_of_lt_of_le hlt List.findIdx_le_length
    have hnot := List.not_of_lt_findIdx hlt
    rw [owner, List.getD_eq_getElem?_getD, List.getElem?_eq_getElem hlen] at hfree
    exact nomatch hnot.symm.trans (Option.isNone_iff_eq_none.mpr hfree)
  · intro h
    by_contra hle
    exact h (lowestFree t) (by omega) (owner_lowestFree t)

/-- A free number bounds the lowest one. -/
theorem lowestFree_le {t : List (Option ω)} {n : Nat} (h : owner t n = none) :
    lowestFree t ≤ n := by
  by_contra hlt
  exact (lt_lowestFree_iff t n).mp (by omega) n (Nat.le_refl n) h

/-- The next free number is larger. -/
theorem lowestFree_lt_openAs (t : List (Option ω)) (w : ω) :
    lowestFree t < lowestFree (openAs t w) := by
  rw [lt_lowestFree_iff]
  intro n hn
  rw [owner_openAs]
  by_cases hself : n = lowestFree t
  · rw [if_pos hself]
    exact Option.some_ne_none w
  · rw [if_neg hself]
    exact (lt_lowestFree_iff t n).mp (by omega) n (Nat.le_refl n)

/-! ## A number of one's choice -/

/-- Give number `n` to `w`, whoever had it. -/
def put (t : List (Option ω)) (n : Nat) (w : ω) : List (Option ω) :=
  if n < t.length then t.set n (some w) else t ++ List.replicate (n - t.length) none ++ [some w]

theorem owner_put (t : List (Option ω)) (n m : Nat) (w : ω) :
    owner (put t n w) m = if m = n then some w else owner t m := by
  simp only [put, owner]
  rw [List.getD_eq_getElem?_getD, List.getD_eq_getElem?_getD]
  by_cases hlt : n < t.length
  · rw [if_pos hlt]
    by_cases hm : m = n
    · rw [if_pos hm, hm, List.getElem?_set_self hlt]
      rfl
    · rw [if_neg hm, List.getElem?_set_ne (fun h => hm h.symm)]
  · rw [if_neg hlt]
    have hlen : (t ++ List.replicate (n - t.length) none).length = n := by
      rw [List.length_append, List.length_replicate]
      omega
    by_cases hm : m = n
    · rw [if_pos hm, hm, List.getElem?_append_right (by omega), hlen, Nat.sub_self]
      rfl
    · rw [if_neg hm]
      by_cases hmt : m < t.length
      · rw [List.getElem?_append_left (by omega), List.getElem?_append_left hmt]
      · have hold : t[m]? = none := List.getElem?_eq_none (by omega)
        rw [hold]
        by_cases hmn : m < n
        · rw [List.getElem?_append_left (by omega), List.getElem?_append_right (by omega),
            List.getElem?_replicate, if_pos (by omega)]
          rfl
        · rw [List.getElem?_eq_none (by
            rw [List.length_append, hlen, List.length_singleton]
            omega)]

/-- `dup2`: number `n` becomes what `old` is, unless `old` is free. -/
def dup2 (t : List (Option ω)) (old n : Nat) : List (Option ω) :=
  match owner t old with
  | none => t
  | some w => put t n w

theorem owner_dup2 {t : List (Option ω)} {old : Nat} {w : ω} (h : owner t old = some w)
    (n m : Nat) : owner (dup2 t old n) m = if m = n then some w else owner t m := by
  rw [dup2, h]
  exact owner_put t n m w

/-- A view of the owners. -/
theorem owner_map {υ : Type} (f : ω → υ) (t : List (Option ω)) (n : Nat) :
    owner (t.map (Option.map f)) n = (owner t n).map f := by
  simp only [owner]
  rw [List.getD_eq_getElem?_getD, List.getD_eq_getElem?_getD, List.getElem?_map]
  cases t[n]? with
  | none => rfl
  | some w => rfl

/-! ## How many are open -/

/-- The numbers in use. -/
def openNumbers (t : List (Option ω)) : Finset Nat :=
  (Finset.range t.length).filter fun n => (owner t n).isSome

theorem mem_openNumbers {t : List (Option ω)} {n : Nat} :
    n ∈ openNumbers t ↔ owner t n ≠ none := by
  rw [openNumbers, Finset.mem_filter, Finset.mem_range, Option.isSome_iff_ne_none]
  constructor
  · exact fun h => h.2
  · intro h
    refine ⟨?_, h⟩
    by_contra hlt
    refine h ?_
    rw [owner, List.getD_eq_getElem?_getD, List.getElem?_eq_none (by omega)]
    rfl

/-- The lowest free number is at most the number of open ones. -/
theorem lowestFree_le_card (t : List (Option ω)) : lowestFree t ≤ (openNumbers t).card := by
  calc lowestFree t = (Finset.range (lowestFree t)).card := (Finset.card_range _).symm
    _ ≤ (openNumbers t).card := by
        refine Finset.card_le_card fun n hn => mem_openNumbers.mpr ?_
        exact (lt_lowestFree_iff t n).mp (Finset.mem_range.mp hn) n (Nat.le_refl n)

/-- **COUNTING BY OWNERS**: beside the numbers of `p`, every open one is of an owner
    listed in `ws`, and none of these has two. -/
theorem card_openNumbers_le {t : List (Option ω)} {p : Finset Nat} {ws : List ω}
    (howned : ∀ n w, owner t n = some w → n ∈ p ∨ w ∈ ws)
    (honce : ∀ n m w, n ∉ p → m ∉ p → owner t n = some w → owner t m = some w → n = m) :
    (openNumbers t).card ≤ p.card + ws.length := by
  classical
  have hrest : (openNumbers t \ p).card ≤ (ws.map some).toFinset.card := by
    refine Finset.card_le_card_of_injOn (owner t) ?_ ?_
    · intro n hn
      obtain ⟨hopen, hp⟩ := Finset.mem_sdiff.mp hn
      obtain ⟨w, hw⟩ := Option.ne_none_iff_exists'.mp (mem_openNumbers.mp hopen)
      refine List.mem_toFinset.mpr (List.mem_map.mpr ⟨w, ?_, hw.symm⟩)
      exact (howned n w hw).resolve_left hp
    · intro n hn m hm heq
      obtain ⟨hopen, hp⟩ := Finset.mem_sdiff.mp hn
      obtain ⟨w, hw⟩ := Option.ne_none_iff_exists'.mp (mem_openNumbers.mp hopen)
      exact honce n m w hp (Finset.mem_sdiff.mp hm).2 hw (heq.symm.trans hw)
  have hlen : (ws.map some).toFinset.card ≤ ws.length := by
    have hle := List.toFinset_card_le (ws.map some)
    rwa [List.length_map] at hle
  have hsplit : (openNumbers t).card ≤ p.card + (openNumbers t \ p).card := by
    rw [Nat.add_comm]
    exact Finset.card_le_card_sdiff_add_card
  omega

end DescriptorTable
