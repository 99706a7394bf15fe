import Mathlib

/-! # Scanners over a string in memory

    A scanner walks forward over a string and answers with what is left of it:
    it skips the characters of a class, or one optional character, or it is one
    scanner after another.  The string may be the front of a larger memory, and
    then there are two cases (`Scans`).  Where something of the string is left,
    what follows the string was never looked at; where nothing is left, the
    scanner has gone on into what follows.

    `reach` counts the characters looked at: the ones passed, and the one that
    stopped the scan.  So a scan stays inside the string exactly when it leaves
    something of it (`Scans.reach_le_iff`). -/

namespace Scanner

variable {α : Type}

/-- `f` is a scanner. -/
structure Scans (f : List α → List α) : Prop where
  suffix : ∀ s, f s <:+ s
  stops  : ∀ s t, f s ≠ [] → f (s ++ t) = f s ++ t
  leaves : ∀ s t, f s = [] → f (s ++ t) <:+ t

/-- How many characters the scanner looks at. -/
def reach (f : List α → List α) (s : List α) : Nat := s.length - (f s).length + 1

/-- Skip the first character, if it is one of a class. -/
def skipOne (p : α → Bool) : List α → List α
  | [] => []
  | c :: cs => if p c then cs else c :: cs

theorem scans_dropWhile (p : α → Bool) : Scans (List.dropWhile p) where
  suffix := fun _ => List.dropWhile_suffix p
  stops := by
    intro s t hs
    rw [List.dropWhile_append, if_neg (fun h => hs (List.isEmpty_iff.mp h))]
  leaves := by
    intro s t hs
    rw [List.dropWhile_append, if_pos (List.isEmpty_iff.mpr hs)]
    exact List.dropWhile_suffix p

theorem skipOne_suffix (p : α → Bool) (s : List α) : skipOne p s <:+ s := by
  cases s with
  | nil => exact List.suffix_rfl
  | cons c cs =>
      rw [skipOne]
      split
      · exact List.suffix_cons c cs
      · exact List.suffix_rfl

theorem scans_skipOne (p : α → Bool) : Scans (skipOne p) where
  suffix := skipOne_suffix p
  stops := by
    intro s t hs
    cases s with
    | nil => exact absurd rfl hs
    | cons c cs =>
        rw [List.cons_append, skipOne, skipOne]
        split
        · rfl
        · rfl
  leaves := by
    intro s t hs
    cases s with
    | nil => exact skipOne_suffix p t
    | cons c cs =>
        rw [skipOne] at hs
        rw [List.cons_append, skipOne]
        split at hs
        · next hp =>
          rw [if_pos hp, hs]
          exact List.suffix_rfl
        · exact nomatch hs

/-- **ONE SCANNER AFTER ANOTHER** is a scanner. -/
theorem Scans.comp {f g : List α → List α} (hf : Scans f) (hg : Scans g) :
    Scans (fun s => g (f s)) where
  suffix := fun s => (hg.suffix (f s)).trans (hf.suffix s)
  stops := by
    intro s t hs
    have hfs : f s ≠ [] := by
      intro hnil
      rw [hnil] at hs
      exact hs (List.suffix_nil.mp (hg.suffix []))
    show g (f (s ++ t)) = g (f s) ++ t
    rw [hf.stops s t hfs, hg.stops (f s) t hs]
  leaves := by
    intro s t hs
    show g (f (s ++ t)) <:+ t
    by_cases hfs : f s = []
    · exact (hg.suffix _).trans (hf.leaves s t hfs)
    · rw [hf.stops s t hfs]
      exact hg.leaves (f s) t hs

section Runs

variable {p : α → Bool} {ds s : List α}

/-- The string does not go on with a character of the class. -/
def Stops (p : α → Bool) (s : List α) : Prop := ∀ c, s.head? = some c → p c = false

theorem stops_dropWhile (p : α → Bool) (s : List α) : Stops p (s.dropWhile p) := by
  intro c hc
  have hnot := List.head?_dropWhile_not p s
  rw [hc] at hnot
  exact hnot

theorem Stops.append (h : Stops p s) (hne : s ≠ []) (t : List α) : Stops p (s ++ t) := by
  obtain ⟨c, cs, rfl⟩ := List.exists_cons_of_ne_nil hne
  exact h

/-- A run of the class and then a stop: the scanner finds the two again. -/
theorem takeWhile_run (hds : ∀ c ∈ ds, p c = true) (hs : Stops p s) :
    (ds ++ s).takeWhile p = ds := by
  rw [List.takeWhile_append_of_pos hds]
  cases s with
  | nil => rw [List.takeWhile_nil, List.append_nil]
  | cons c cs =>
      rw [List.takeWhile_cons_of_neg (Bool.eq_false_iff.mp (hs c rfl)), List.append_nil]

theorem dropWhile_run (hds : ∀ c ∈ ds, p c = true) (hs : Stops p s) :
    (ds ++ s).dropWhile p = s := by
  rw [List.dropWhile_append_of_pos hds]
  cases s with
  | nil => rfl
  | cons c cs => exact List.dropWhile_cons_of_neg (Bool.eq_false_iff.mp (hs c rfl))

/-- A run that ends inside the string is the same whatever follows. -/
theorem takeWhile_append_of_ne_nil (h : s.dropWhile p ≠ []) (t : List α) :
    (s ++ t).takeWhile p = s.takeWhile p := by
  have hsplit : s ++ t = s.takeWhile p ++ (s.dropWhile p ++ t) := by
    rw [← List.append_assoc, List.takeWhile_append_dropWhile]
  rw [hsplit]
  exact takeWhile_run (fun _ hc => List.mem_takeWhile_imp hc)
    ((stops_dropWhile p s).append h t)

end Runs

section Reach

variable {f : List α → List α} {s : List α}

/-- **INSIDE OR BEYOND**: in a memory that starts with the string, the scan stays
    inside the string exactly when it leaves something of it. -/
theorem Scans.reach_le_iff (hf : Scans f) (t : List α) :
    reach f (s ++ t) ≤ s.length ↔ f s ≠ [] := by
  rw [reach, List.length_append]
  constructor
  · intro hle hnil
    have hlen := (hf.leaves s t hnil).length_le
    omega
  · intro hne
    have hpos := List.length_pos_iff.mpr hne
    have hlen := (hf.suffix s).length_le
    rw [hf.stops s t hne, List.length_append]
    omega

end Reach

end Scanner
