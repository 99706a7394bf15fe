import Aesd.DriverProofs

/-! # The commit history

    What the driver is for, without its buffers: a growing list of committed
    entries and the bytes of the write in progress.  A write without a newline
    extends the bytes in progress; a write with one commits them together with
    its own (`Commits.write`).

    The driver, run with every allocation granted, simulates this machine and
    keeps the ten latest entries of it (`grantedWrites_simulate`).  Read back as
    a statement about the writes alone, the history is their grouping at the
    writes that contain a newline. -/

namespace AesdHistory

open AesdMachine AesdTemperary AesdRing AesdDriver CyclicQueue

variable {β : Type} [Octet β]

/-- The committed entries, oldest first, and the bytes of the write in
    progress. -/
structure Commits (β : Type) where
  history : List (List β)
  pending : List β

/-- Nothing written yet. -/
def Commits.start : Commits β := ⟨[], []⟩

/-- One write. -/
def Commits.write (c : Commits β) (w : List β) : Commits β :=
  if hasNewline w then ⟨c.history ++ [c.pending ++ w], []⟩
  else ⟨c.history, c.pending ++ w⟩

/-- A list of writes. -/
def Commits.run (ws : List (List β)) : Commits β := ws.foldl Commits.write Commits.start

theorem Commits.run_concat (ws : List (List β)) (w : List β) :
    Commits.run (ws ++ [w]) = (Commits.run ws).write w := by
  rw [Commits.run]
  rw [List.foldl_append]
  rfl

/-- **SIMULATION**: after granted writes the device stores the ten latest entries
    of the history, in a regular queue, and its pending bytes. -/
theorem grantedWrites_simulate {ws : List (List β)} {d : AesdDev β}
    (h : GrantedWrites ws d) :
    ∃ q, Models d q (Commits.run ws).pending ∧ Regular q ∧
      q.items = latest 10 (Commits.run ws).history := by
  induction h with
  | nil => exact ⟨_, models_init, regular_empty, rfl⟩
  | snoc w _ hroom ih =>
      obtain ⟨q, hm, hreg, hitems⟩ := ih
      have ha := accepts_granted hroom
      rw [Commits.run_concat]
      rw [Commits.write]
      cases hn : hasNewline w with
      | false => exact ⟨q, (aesdWrite_pending hm ha hn).2, hreg, hitems⟩
      | true =>
          refine ⟨_, (aesdWrite_commit hm ha hn).2.2, hreg.add _, ?_⟩
          show (CyclicQueue.add true q _).items = _
          rw [hreg.add_items, hitems, latest_concat]
          rfl

/-! ## Grouping the writes -/

/-- `groups` and `rest` cut the writes after each one that contains a newline. -/
structure Grouping (ws : List (List β)) (groups : List (List (List β)))
    (rest : List (List β)) : Prop where
  cut    : ws = groups.flatten ++ rest
  group  : ∀ g ∈ groups, ∃ before last, g = before ++ [last] ∧
      hasNewline last = true ∧ ∀ w ∈ before, hasNewline w = false
  trailing : ∀ w ∈ rest, hasNewline w = false

/-- The history of a grouping: one entry per group. -/
def historyOf (groups : List (List (List β))) : List (List β) := groups.map List.flatten

/-- Every list of writes can be grouped. -/
theorem exists_grouping (ws : List (List β)) : ∃ groups rest, Grouping ws groups rest := by
  induction ws using List.reverseRecOn with
  | nil =>
      refine ⟨[], [], rfl, ?_, ?_⟩
      · intro g hg; exact nomatch hg
      · intro w hw; exact nomatch hw
  | append_singleton ws w ih =>
      obtain ⟨groups, rest, hcut, hgroup, hrest⟩ := ih
      cases hn : hasNewline w with
      | false =>
          refine ⟨groups, rest ++ [w], by rw [hcut, List.append_assoc], hgroup, ?_⟩
          intro v hv
          rcases List.mem_append.mp hv with hold | hnew
          · exact hrest v hold
          · rw [List.mem_singleton.mp hnew]
            exact hn
      | true =>
          refine ⟨groups ++ [rest ++ [w]], [], ?_, ?_, ?_⟩
          · rw [hcut, List.flatten_append, List.flatten_singleton, List.append_nil,
              List.append_assoc]
          · intro g hg
            rcases List.mem_append.mp hg with hold | hnew
            · exact hgroup g hold
            · exact ⟨rest, w, List.mem_singleton.mp hnew, hn, hrest⟩
          · intro v hv; exact nomatch hv

/-- Writes without a newline only extend the bytes in progress. -/
theorem foldl_write_quiet (ws : List (List β)) (c : Commits β)
    (h : ∀ w ∈ ws, hasNewline w = false) :
    ws.foldl Commits.write c = ⟨c.history, c.pending ++ ws.flatten⟩ := by
  induction ws generalizing c with
  | nil =>
      rw [List.foldl_nil, List.flatten_nil, List.append_nil]
  | cons w ws ih =>
      have hw : c.write w = ⟨c.history, c.pending ++ w⟩ := by
        rw [Commits.write]
        rw [h w (List.mem_cons_self ..)]
        rfl
      rw [List.foldl_cons, hw, ih _ (fun v hv => h v (List.mem_cons_of_mem w hv)),
        List.flatten_cons, List.append_assoc]

/-- One group is one entry. -/
theorem foldl_write_groups (groups : List (List (List β))) (H : List (List β))
    (h : ∀ g ∈ groups, ∃ before last, g = before ++ [last] ∧
      hasNewline last = true ∧ ∀ w ∈ before, hasNewline w = false) :
    groups.flatten.foldl Commits.write ⟨H, []⟩ = ⟨H ++ historyOf groups, []⟩ := by
  induction groups generalizing H with
  | nil =>
      rw [List.flatten_nil, List.foldl_nil]
      show _ = Commits.mk (H ++ []) []
      rw [List.append_nil]
  | cons g groups ih =>
      obtain ⟨before, last, hg, hlast, hbefore⟩ := h g (List.mem_cons_self ..)
      have hgroup : g.foldl Commits.write ⟨H, []⟩ = ⟨H ++ [g.flatten], []⟩ := by
        rw [hg, List.foldl_append, foldl_write_quiet before _ hbefore, List.foldl_cons,
          List.foldl_nil, List.flatten_append, List.flatten_singleton]
        rw [Commits.write]
        rw [if_pos hlast]
        rfl
      rw [List.flatten_cons, List.foldl_append, hgroup,
        ih _ (fun g' hg' => h g' (List.mem_cons_of_mem g hg'))]
      show Commits.mk ((H ++ [g.flatten]) ++ historyOf groups) []
        = ⟨H ++ (g.flatten :: historyOf groups), []⟩
      rw [List.append_assoc]
      rfl

/-- The machine's state is read off any grouping. -/
theorem Grouping.run_eq {ws : List (List β)} {groups : List (List (List β))}
    {rest : List (List β)} (h : Grouping ws groups rest) :
    Commits.run ws = ⟨historyOf groups, rest.flatten⟩ := by
  rw [Commits.run]
  rw [h.cut, List.foldl_append]
  show rest.foldl Commits.write (groups.flatten.foldl Commits.write ⟨[], []⟩) = _
  rw [foldl_write_groups groups [] h.group, foldl_write_quiet rest _ h.trailing]
  rfl

/-- What the device holds after granted writes, in terms of a history `H` and
    the pending bytes `p`. -/
structure HoldsHistory (d : AesdDev β) (H : List (List β)) (p : List β) : Prop where
  /-- The ten slots from `out_offs`: the latest entries with their sizes, then
      free slots. -/
  slots   : turn d.bufferCircular = (latest 10 H).map stored
      ++ List.replicate (10 - (latest 10 H).length) freeSlot
  total   : d.bufferCircular.size = ((latest 10 H).map List.length).sum
  pending : d.bufferTemperary.bytes = p
  length  : d.bufferTemperary.size = p.length
  quiet   : hasNewline p = false

/-- **THE DRIVER KEEPS THE HISTORY**: for any writes on a fresh device, all
    allocations granted, the writes can be grouped, and for every grouping the
    ring holds the ten latest entries, the accumulating buffer the bytes after
    the last group, and no byte is lost, duplicated or reordered. -/
theorem grantedWrites_holdsHistory {ws : List (List β)} {d : AesdDev β}
    (h : GrantedWrites ws d) :
    (∃ groups rest, Grouping ws groups rest) ∧
      ∀ groups rest, Grouping ws groups rest →
        HoldsHistory d (historyOf groups) rest.flatten ∧
          (historyOf groups).flatten ++ rest.flatten = ws.flatten := by
  refine ⟨exists_grouping ws, ?_⟩
  intro groups rest hg
  obtain ⟨q, hm, hreg, hitems⟩ := grantedWrites_simulate h
  rw [hg.run_eq] at hm hitems
  have hlatest : latest 10 (historyOf groups) = q.items := hitems.symm
  have ha : q.items.length + q.gap = 10 := hreg.aligned
  have hb := hm.bound
  refine ⟨⟨?_, ?_, hm.temp.bytes_eq, hm.temp.size_eq, hm.unfinished⟩, ?_⟩
  · rw [hlatest, hm.ring.turn_eq, show 10 - q.items.length - q.gap = 0 by omega,
      List.replicate_zero, List.nil_append, show q.gap = 10 - q.items.length by omega]
  · rw [hlatest, hm.ring.size_eq, ← List.length_flatten, Nat.mod_eq_of_lt (by omega)]
  · rw [hg.cut, List.flatten_append]
    show (groups.map List.flatten).flatten ++ rest.flatten = _
    rw [List.flatten_flatten]

/-- An empty write, `"a"`, `"b\n"` and `"c"`: one entry and one byte in progress. -/
theorem grantedWrites_holdsHistory_abc :
    ∃ d : AesdDev UInt8, GrantedWrites [[], [97], [98, 10], [99]] d ∧
      HoldsHistory d [[97, 98, 10]] [99] := by
  have h : GrantedWrites ([[], [97], [98, 10], [99]] : List (List UInt8)) _ :=
    .snoc [99] (.snoc [98, 10] (.snoc [97] (.snoc [] .nil (by decide)) (by decide))
      (by decide)) (by decide)
  refine ⟨_, h, ((grantedWrites_holdsHistory h).2 [[[], [97], [98, 10]]] [[99]] ?_).1⟩
  refine ⟨rfl, ?_, by decide⟩
  intro g hg
  exact ⟨[[], [97]], [98, 10], List.mem_singleton.mp hg, by decide, by decide⟩

end AesdHistory
