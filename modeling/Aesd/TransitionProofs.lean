import Mathlib

/-! # Guarded runs of a transition function

    A system is a partial step function `next : σ → α → Option σ`; an action
    collects what the environment chooses.  `RunsTo next ok` is reachability
    by steps that all meet a condition `ok` on the state before the step and
    the action, so that "in every run whose steps all meet the condition" is a
    single hypothesis.

    `AllAt` is the second ingredient: a family of components held in a list,
    each with its own assertion that may mention the shared state.  A step of
    component `i` re-establishes the family as soon as it establishes its own
    assertion and the assertions of the others are stable under it. -/

namespace Transition

variable {σ α : Type}

/-- `t` is reached from `s` by steps that all meet `ok`. -/
inductive RunsTo (next : σ → α → Option σ) (ok : σ → α → Prop) (s : σ) : σ → Prop where
  | refl : RunsTo next ok s s
  | step {t u : σ} (a : α) : RunsTo next ok s t → ok t a → next t a = some u →
      RunsTo next ok s u

/-- **THE INVARIANT RULE**: what one step preserves, every run preserves. -/
theorem RunsTo.invariant {next : σ → α → Option σ} {ok : σ → α → Prop} {I : σ → Prop}
    (hstep : ∀ s a t, I s → ok s a → next s a = some t → I t)
    {s t : σ} (h : RunsTo next ok s t) (h0 : I s) : I t := by
  induction h with
  | refl => exact h0
  | step a _ hok hnext ih => exact hstep _ a _ ih hok hnext

/-- A run under a stronger condition is a run under a weaker one. -/
theorem RunsTo.mono {next : σ → α → Option σ} {ok ok' : σ → α → Prop}
    (himp : ∀ s a, ok s a → ok' s a) {s t : σ} (h : RunsTo next ok s t) :
    RunsTo next ok' s t := by
  induction h with
  | refl => exact .refl
  | step a _ hok hnext ih => exact .step a ih (himp _ a hok) hnext

/-- Runs compose. -/
theorem RunsTo.trans {next : σ → α → Option σ} {ok : σ → α → Prop} {s t u : σ}
    (h : RunsTo next ok s t) (h' : RunsTo next ok t u) : RunsTo next ok s u := by
  induction h' with
  | refl => exact h
  | step a _ hok hnext ih => exact .step a ih hok hnext

/-- Execute a list of actions, stopping where a step is not enabled or misses
    the condition. -/
def checkedRun (next : σ → α → Option σ) (ok : σ → α → Bool) : σ → List α → Option σ
  | s, [] => some s
  | s, a :: as => if ok s a then (next s a).bind fun t => checkedRun next ok t as else none

/-- An executed list of actions is a run. -/
theorem runsTo_of_checkedRun {next : σ → α → Option σ} {ok : σ → α → Bool} :
    ∀ (as : List α) {s t : σ}, checkedRun next ok s as = some t →
      RunsTo next (fun s a => ok s a = true) s t := by
  intro as
  induction as with
  | nil =>
      intro s t h
      have hst : s = t := Option.some.inj h
      rw [hst]
      exact .refl
  | cons a as ih =>
      intro s t h
      rw [checkedRun] at h
      by_cases hok : ok s a = true
      · rw [if_pos hok] at h
        obtain ⟨u, hu, hrest⟩ := Option.bind_eq_some_iff.mp h
        exact RunsTo.trans (.step a .refl hok hu) (ih hrest)
      · rw [if_neg hok] at h
        exact nomatch h

/-- What is observed of an executed list of actions is observed at the end of a
    run. -/
theorem exists_runsTo {next : σ → α → Option σ} {ok : σ → α → Bool} {s : σ} {as : List α}
    {γ : Type} {f : σ → γ} {v : γ} (h : (checkedRun next ok s as).map f = some v) :
    ∃ t, RunsTo next (fun s a => ok s a = true) s t ∧ f t = v := by
  obtain ⟨t, ht, hv⟩ := Option.map_eq_some_iff.mp h
  exact ⟨t, runsTo_of_checkedRun as ht, hv⟩

/-! ## Runs with their output -/

section Output

variable {ω : Type}

/-- `t` is reached from `s` by steps that all meet `ok` and put out `os`, in this
    order. -/
inductive Emits (next : σ → α → Option σ) (ok : σ → α → Prop) (out : σ → α → List ω) (s : σ) :
    List ω → σ → Prop where
  | refl : Emits next ok out s [] s
  | step {os : List ω} {t u : σ} (a : α) : Emits next ok out s os t → ok t a →
      next t a = some u → Emits next ok out s (os ++ out t a) u

variable {next : σ → α → Option σ} {ok : σ → α → Prop} {out : σ → α → List ω}

/-- The invariant rule, for assertions that mention the output. -/
theorem Emits.invariant {I : List ω → σ → Prop}
    (hstep : ∀ os s a t, I os s → ok s a → next s a = some t → I (os ++ out s a) t)
    {s t : σ} {os : List ω} (h : Emits next ok out s os t) (h0 : I [] s) : I os t := by
  induction h with
  | refl => exact h0
  | step a _ hok hnext ih => exact hstep _ _ a _ ih hok hnext

theorem Emits.runsTo {s t : σ} {os : List ω} (h : Emits next ok out s os t) :
    RunsTo next ok s t := by
  induction h with
  | refl => exact .refl
  | step a _ hok hnext ih => exact .step a ih hok hnext

/-- Execute a list of actions and collect their output. -/
def checkedEmits (next : σ → α → Option σ) (ok : σ → α → Bool) (out : σ → α → List ω) :
    List ω → σ → List α → Option (List ω × σ)
  | os, s, [] => some (os, s)
  | os, s, a :: as =>
      if ok s a then (next s a).bind fun t => checkedEmits next ok out (os ++ out s a) t as
      else none

/-- An executed list of actions is a run. -/
theorem emits_of_checkedEmits {next : σ → α → Option σ} {ok : σ → α → Bool} {out : σ → α → List ω} :
    ∀ (as : List α) {s t u : σ} {os ws : List ω},
      Emits next (fun s a => ok s a = true) out s os t →
      checkedEmits next ok out os t as = some (ws, u) →
      Emits next (fun s a => ok s a = true) out s ws u := by
  intro as
  induction as with
  | nil =>
      intro s t u os ws hrun h
      obtain ⟨rfl, rfl⟩ := Prod.mk.inj (Option.some.inj h)
      exact hrun
  | cons a as ih =>
      intro s t u os ws hrun h
      rw [checkedEmits] at h
      by_cases hok : ok t a = true
      · rw [if_pos hok] at h
        obtain ⟨v, hv, hrest⟩ := Option.bind_eq_some_iff.mp h
        exact ih (.step a hrun hok hv) hrest
      · rw [if_neg hok] at h
        exact nomatch h

/-- What is observed of an executed list of actions and of its output is observed
    at the end of a run. -/
theorem exists_emits {next : σ → α → Option σ} {ok : σ → α → Bool} {out : σ → α → List ω}
    {s : σ} {as : List α} {γ : Type} {f : List ω × σ → γ} {v : γ}
    (h : (checkedEmits next ok out [] s as).map f = some v) :
    ∃ os t, Emits next (fun s a => ok s a = true) out s os t ∧ f (os, t) = v := by
  obtain ⟨⟨os, t⟩, ht, hv⟩ := Option.map_eq_some_iff.mp h
  exact ⟨os, t, emits_of_checkedEmits as .refl ht, hv⟩

/-- **THE RANKING RULE**: where every step pays for its output with its rank and with
    what the output itself is worth, a run puts out no more than the rank it started
    with and the worth of its whole output. -/
theorem Emits.ranked {I : σ → Prop} {rank : σ → Nat} {worth : List ω → Nat}
    (hnil : worth [] = 0) (happend : ∀ os ws, worth (os ++ ws) = worth os + worth ws)
    (hstep : ∀ s a t, I s → ok s a → next s a = some t →
      I t ∧ (out s a).length + rank t ≤ rank s + worth (out s a))
    {s t : σ} {os : List ω} (h : Emits next ok out s os t) (h0 : I s) :
    I t ∧ os.length + rank t ≤ rank s + worth os := by
  induction h with
  | refl =>
      refine ⟨h0, ?_⟩
      rw [hnil, List.length_nil]
      omega
  | step a _ hok hnext ih =>
      obtain ⟨hinv, hrank⟩ := ih
      obtain ⟨hinv', hpaid⟩ := hstep _ a _ hinv hok hnext
      refine ⟨hinv', ?_⟩
      rw [List.length_append, happend]
      omega

end Output

/-! ## Families of components -/

section Components

variable {κ : Type}

/-- Every component of the list satisfies its assertion. -/
def AllAt (L : Nat → κ → Prop) (ks : List κ) : Prop :=
  ∀ i k, ks[i]? = some k → L i k

theorem allAt_nil (L : Nat → κ → Prop) : AllAt L [] := by
  intro i k h
  exact nomatch h

/-- **STABILITY**: a step of component `i` keeps the family when it establishes
    its own assertion and every other assertion survives it. -/
theorem AllAt.set {L L' : Nat → κ → Prop} {ks : List κ} {i : Nat} {k' : κ}
    (h : AllAt L ks) (hi : L' i k')
    (hstable : ∀ j k, j ≠ i → ks[j]? = some k → L j k → L' j k) :
    AllAt L' (ks.set i k') := by
  intro j k hj
  by_cases hji : j = i
  · subst hji
    by_cases hlt : j < ks.length
    · rw [List.getElem?_set_self hlt] at hj
      rw [← Option.some.inj hj]
      exact hi
    · rw [List.getElem?_eq_none (by rw [List.length_set]; omega)] at hj
      exact nomatch hj
  · rw [List.getElem?_set_ne (fun h => hji h.symm)] at hj
    exact hstable j k hji hj (h j k hj)

/-- Only the shared part moved: every assertion has to be stable. -/
theorem AllAt.mono {L L' : Nat → κ → Prop} {ks : List κ} (h : AllAt L ks)
    (hstable : ∀ j k, ks[j]? = some k → L j k → L' j k) : AllAt L' ks := by
  intro j k hj
  exact hstable j k hj (h j k hj)

/-- A new component joins at the end. -/
theorem AllAt.append {L L' : Nat → κ → Prop} {ks : List κ} {k' : κ}
    (h : AllAt L ks) (hnew : L' ks.length k')
    (hstable : ∀ j k, j < ks.length → ks[j]? = some k → L j k → L' j k) :
    AllAt L' (ks ++ [k']) := by
  intro j k hj
  by_cases hlt : j < ks.length
  · rw [List.getElem?_append_left hlt] at hj
    exact hstable j k hlt hj (h j k hj)
  · rw [List.getElem?_append_right (by omega)] at hj
    have hj0 : j - ks.length = 0 := by
      by_cases h0 : j - ks.length = 0
      · exact h0
      · rw [List.getElem?_eq_none (by simp; omega)] at hj
        exact nomatch hj
    have hjk : j = ks.length := by omega
    rw [hj0] at hj
    have hk : k' = k := Option.some.inj hj
    rw [← hk, hjk]
    exact hnew

/-- Counting components: a step of component `i` moves the count by that
    component. -/
theorem countP_set_add {p : κ → Bool} {ks : List κ} {i : Nat} {k : κ} (h : ks[i]? = some k)
    (k' : κ) :
    (ks.set i k').countP p + (if p k = true then 1 else 0)
      = ks.countP p + (if p k' = true then 1 else 0) := by
  obtain ⟨hlt, rfl⟩ := List.getElem?_eq_some_iff.mp h
  have hone : (if p ks[i] = true then 1 else 0) ≤ ks.countP p := by
    by_cases hp : p ks[i] = true
    · rw [if_pos hp]
      exact List.countP_pos_iff.mpr ⟨_, List.getElem_mem hlt, hp⟩
    · rw [if_neg hp]
      exact Nat.zero_le _
  rw [List.countP_set hlt]
  omega

/-- The same for a sum over the components. -/
theorem sum_map_set_add {w : κ → Nat} {ks : List κ} {i : Nat} {k : κ} (h : ks[i]? = some k)
    (k' : κ) : ((ks.set i k').map w).sum + w k = (ks.map w).sum + w k' := by
  induction ks generalizing i with
  | nil => exact nomatch h
  | cons x xs ih =>
      cases i with
      | zero =>
          rw [List.getElem?_cons_zero] at h
          rw [← Option.some.inj h, List.set_cons_zero, List.map_cons, List.map_cons,
            List.sum_cons, List.sum_cons]
          omega
      | succ i =>
          rw [List.getElem?_cons_succ] at h
          have hrest := ih h
          rw [List.set_cons_succ, List.map_cons, List.map_cons, List.sum_cons, List.sum_cons]
          omega

end Components

end Transition
