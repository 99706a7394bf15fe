import Aesd.KernelDriverProofs

/-! # Loading and unloading the module

    `aesd_init_module` with every way out of it, and `aesd_cleanup_module`.  The
    module registers a region of device numbers and a character device beside
    the memory it asks for, so a machine is a heap with those two registries and
    the module's two global variables.

    A history is any sequence of attempts to load, calls and unloads.  The way
    out of an attempt that fails says what it leaves behind: without memory for
    a structure the region stays registered, and structures already allocated
    are lost, because the next attempt clears the pointers to them.

    Beside the kernel runs the device of `DriverProofs` that a history leads to
    (`Leads`): fresh after an attempt that succeeds, gone after an unload.  The
    invariant over histories is that what is lost, and nothing else, is there
    beside the memory of that device. -/

namespace AesdModule

open AesdMachine AesdDriver AesdKernel CheckedHeap

variable {β : Type} [Octet β]

/-- What the kernel answers inside one `aesd_init_module`.  The two results are
    error numbers: negative, or else (for `cdev_add`) zero. -/
structure InitEnv where
  allocChrdevRegion : Int
  major             : Nat
  circular          : Bool
  temperary         : Bool
  cdevAdd           : Int

/-- The `return` by which `aesd_init_module` is left. -/
inductive InitExit where
  | noRegion (result : Int)
  | noCircular
  | noTemperary
  | setup (err : Int)

/-- The value returned. -/
def InitExit.result : InitExit → Int
  | .noRegion result => result
  | .noCircular => -ENOMEM
  | .noTemperary => -ENOMEM
  | .setup err => err

/-- The kernel as the module sees it: memory, the registries and the module's
    global variables. -/
structure Kernel (β : Type) where
  heap      : Heap (Block β)
  regions   : List Nat
  cdevs     : List Nat
  loaded    : Bool
  aesdMajor : Nat
  aesdDevice : AesdDevice

/-- Before the first attempt to load. -/
def boot : Kernel β where
  heap := .empty
  regions := []
  cdevs := []
  loaded := false
  aesdMajor := 0
  aesdDevice := ⟨none, none⟩

/-- The allocations of `aesd_init_module`, and the outcome `aesd_setup_cdev` will
    have if it is reached. -/
def initDevice (env : InitEnv) : KernelM β (InitExit × AesdDevice) := do
  match ← kmalloc env.circular sizeofCircular with
  | none => pure (.noCircular, ⟨none, none⟩)
  | some bufferCircular => do
      aesdCircularBufferInit (some bufferCircular)
      match ← kmalloc env.temperary sizeofTemperary with
      | none => pure (.noTemperary, ⟨none, some bufferCircular⟩)
      | some bufferTemperary => do
          aesdTemperaryBufferInit (some bufferTemperary)
          pure (.setup env.cdevAdd, ⟨some bufferTemperary, some bufferCircular⟩)

/-- `aesd_init_module`: the way out and the kernel afterwards. -/
def aesdInitModule (env : InitEnv) (k : Kernel β) : Option (InitExit × Kernel β) :=
  if env.allocChrdevRegion < 0 then
    some (.noRegion env.allocChrdevRegion, { k with aesdMajor := 0 })
  else
    (initDevice env k.heap).map fun r =>
      let k := { k with
        heap := r.2
        regions := env.major :: k.regions
        aesdMajor := env.major
        aesdDevice := r.1.2 }
      (r.1.1,
        match r.1.1 with
        | .setup err =>
            if err = 0 then { k with cdevs := env.major :: k.cdevs, loaded := true }
            else { k with regions := k.regions.erase env.major }
        | _ => k)

/-- The memory part of `aesd_cleanup_module`. -/
def cleanupDevice (dev : AesdDevice) : KernelM β Unit := do
  aesdCircularBufferCleanup dev.bufferCircular
  kfree dev.bufferCircular
  aesdTemperaryBufferClean dev.bufferTemperary
  kfree dev.bufferTemperary

/-- `aesd_cleanup_module`. -/
def aesdCleanupModule (k : Kernel β) : Option (Kernel β) :=
  (cleanupDevice k.aesdDevice k.heap).map fun r =>
    { k with
      heap := r.2
      cdevs := k.cdevs.erase k.aesdMajor
      regions := k.regions.erase k.aesdMajor
      loaded := false }

/-! ## Histories -/

/-- What happens to the module. -/
inductive Event (β : Type) where
  | load (env : InitEnv)
  | op (fPos : Int) (op : FileOp β)
  | unload

/-- What comes back: nothing where the module is already loaded, or is not. -/
inductive Reply (β : Type) where
  | refused
  | loaded (exit : InitExit)
  | did (result : ReadResult β)
  | unloaded

/-- One event.  No result is a memory error. -/
def step (k : Kernel β) : Event β → Option (Reply β × Kernel β)
  | .load env =>
      if k.loaded then some (.refused, k)
      else (aesdInitModule env k).map fun r => (.loaded r.1, r.2)
  | .op fPos op =>
      if k.loaded then
        (fileOp k.aesdDevice fPos op k.heap).map fun r => (.did r.1, { k with heap := r.2 })
      else some (.refused, k)
  | .unload =>
      if k.loaded then (aesdCleanupModule k).map fun k' => (.unloaded, k')
      else some (.refused, k)

/-- A history. -/
def run (k : Kernel β) : List (Event β) → Option (List (Reply β) × Kernel β)
  | [] => some ([], k)
  | e :: es => do
      let (reply, k₁) ← step k e
      let (replies, k₂) ← run k₁ es
      pure (reply :: replies, k₂)

/-! ## What a failed attempt leaves behind -/

/-- Blocks lost. -/
def InitExit.lostBlocks : InitExit → Nat
  | .noTemperary => 1
  | .setup err => if err = 0 then 0 else 2
  | _ => 0

/-- Bytes lost. -/
def InitExit.lostBytes : InitExit → Nat
  | .noTemperary => sizeofCircular
  | .setup err => if err = 0 then 0 else sizeofCircular + sizeofTemperary
  | _ => 0

/-- Regions lost. -/
def InitExit.lostRegions : InitExit → Nat
  | .noCircular => 1
  | .noTemperary => 1
  | _ => 0

/-- A sum over the attempts of a history. -/
def overLoads (f : InitExit → Nat) : List (Reply β) → Nat
  | [] => 0
  | .loaded exit :: replies => f exit + overLoads f replies
  | _ :: replies => overLoads f replies

/-! ## The device beside the kernel -/

/-- The device after an attempt, if the module is then loaded. -/
def InitExit.device : InitExit → Option (AesdDev β)
  | .setup err => if err = 0 then some AesdDriver.aesdInitModule else none
  | _ => none

/-- What one event does to the device, `none` where the module is not loaded, with
    `others` bytes of kernel memory lost before. -/
inductive Moves (others : Nat) :
    Option (AesdDev β) → Event β → Reply β → Option (AesdDev β) → Prop where
  | load (env : InitEnv) (exit : InitExit) :
      Moves others none (.load env) (.loaded exit) exit.device
  | loadedAlready (d : AesdDev β) (env : InitEnv) :
      Moves others (some d) (.load env) .refused (some d)
  | op {d d' : AesdDev β} {fPos : Int} {op : FileOp β} {result : ReadResult β} :
      Does others d fPos op result d' → Moves others (some d) (.op fPos op) (.did result) (some d')
  | noDevice (fPos : Int) (op : FileOp β) : Moves others none (.op fPos op) .refused none
  | unload (d : AesdDev β) : Moves others (some d) .unload .unloaded none
  | notLoaded : Moves others none .unload .refused none

/-- The same for a history. -/
inductive Leads : Nat → Option (AesdDev β) → List (Event β) → List (Reply β) →
    Option (AesdDev β) → Prop where
  | nil (others : Nat) (o : Option (AesdDev β)) : Leads others o [] [] o
  | cons {others : Nat} {o o₁ o₂ : Option (AesdDev β)} {e : Event β} {reply : Reply β}
      {es : List (Event β)} {replies : List (Reply β)} : Moves others o e reply o₁ →
      Leads (others + overLoads InitExit.lostBytes [reply]) o₁ es replies o₂ →
      Leads others o (e :: es) (reply :: replies) o₂

/-! ## One attempt -/

/-- `aesd_circular_buffer_init`, as a value. -/
private def zeroRing : AesdCircularBuffer where
  entry := fun _ => ⟨none, 0⟩
  inOffs := 0
  outOffs := 0
  full := false
  size := 0

omit [Octet β] in
private theorem sameRing_zero :
    SameRing zeroRing (AesdRing.aesdCircularBufferInit : AesdRing.AesdCircularBuffer β) :=
  ⟨fun _ => ⟨rfl, rfl⟩, rfl, rfl, rfl, rfl⟩

omit [Octet β] in
private theorem ringCells_zero :
    ringCells zeroRing.entry (AesdRing.aesdCircularBufferInit :
      AesdRing.AesdCircularBuffer β).entry = 0 :=
  Finset.sum_eq_zero fun _ _ => blockCells_null _

/-- What the allocations of an attempt leave, by its way out. -/
inductive Allocated (cells : Multiset (Nat × Block β)) :
    InitExit × AesdDevice → Multiset (Nat × Block β) → Prop where
  | noCircular : Allocated cells (.noCircular, ⟨none, none⟩) cells
  | noTemperary (pc : Nat) (r : AesdCircularBuffer) :
      Allocated cells (.noTemperary, ⟨none, some pc⟩) ((pc, .circular r) ::ₘ cells)
  | setup (err : Int) {dev : AesdDevice} {cells' : Multiset (Nat × Block β)} :
      Backs cells dev AesdDriver.aesdInitModule cells' →
      cells'.card = cells.card + 2 →
      totalSize Block.size cells'
        = totalSize Block.size cells + (sizeofCircular + sizeofTemperary) →
      Allocated cells (.setup err, dev) cells'

omit [Octet β] in
theorem initDevice_safe (env : InitEnv) (cells : Multiset (Nat × Block β)) :
    Safe cells (initDevice env) (Allocated cells) := by
  refine Safe.bind (kmalloc_safe (fun _ pc => ?_) (fun _ => Safe.ret .noCircular))
  refine Safe.bind (storeCircular_safe rfl (Safe.bind
    (kmalloc_safe (fun _ pt => ?_) (fun _ => Safe.ret (.noTemperary pc _)))))
  refine Safe.bind (storeTemperary_safe rfl (Safe.ret ?_))
  have hcells : ((pt, .temperary ⟨none, 0⟩) ::ₘ ((pc, .circular zeroRing) ::ₘ cells) :
      Multiset (Nat × Block β))
      = temperaryCells pt ⟨none, 0⟩ AesdTemperary.aesdTemperaryBufferInit
        (circularCells pc zeroRing AesdRing.aesdCircularBufferInit cells) := by
    rw [temperaryCells, circularCells, ringCells_zero, blockCells_null, zero_add, zero_add]
  refine .setup env.cdevAdd ?_ ?_ ?_
  · show Backs cells _ _ ((pt, .temperary ⟨none, 0⟩) ::ₘ ((pc, .circular zeroRing) ::ₘ cells))
    rw [hcells]
    exact .intro ⟨rfl, rfl⟩ sameRing_zero
  · rw [Multiset.card_cons, Multiset.card_cons]
  · rw [totalSize_cons, totalSize_cons]
    show sizeofTemperary + (sizeofCircular + _) = _
    omega

omit [Octet β] in
/-- The cleanup frees the memory of the device, all of it. -/
theorem cleanupDevice_safe {rest cells : Multiset (Nat × Block β)} {dev : AesdDevice}
    {d : AesdDev β} (hb : Backs rest dev d cells) :
    Safe cells (cleanupDevice dev) fun _ cells' => cells' = rest := by
  cases hb with
  | intro ht hr =>
  rename_i pt pc t r
  refine Safe.bind (aesdCircularBufferCleanup_safe temperaryCells_circularCells hr (Safe.bind ?_))
  refine kfree_safe rfl (Safe.bind (aesdTemperaryBufferClean_safe rfl ht fun t₂ ht₂ => ?_))
  have hclean : (AesdTemperary.aesdTemperaryBufferClean d.bufferTemperary).buffptr = none := by
    rw [AesdTemperary.aesdTemperaryBufferClean]
    cases hp : d.bufferTemperary.buffptr with
    | none => exact hp
    | some bs => rfl
  have hnone : t₂.buffptr = none := by
    have hnull := ht₂.null
    rw [hclean] at hnull
    exact Option.not_isSome_iff_eq_none.mp (by rw [hnull]; exact Bool.false_ne_true)
  rw [temperaryCells, hnone, blockCells_null, zero_add]
  exact kfree_safe rfl rfl

/-! ## The invariant -/

/-- Beside the memory, the region and the device of a loaded module the kernel
    holds exactly `blocks` blocks of `bytes` bytes together and `regions`
    regions. -/
inductive Keeps (blocks bytes regions : Nat) (k : Kernel β) : Option (AesdDev β) → Prop where
  | unloaded {lost : Multiset (Nat × Block β)} : k.loaded = false → Owns k.heap lost →
      lost.card = blocks → totalSize Block.size lost = bytes → k.regions.length = regions →
      k.cdevs = [] → Keeps blocks bytes regions k none
  | loaded {lost cells : Multiset (Nat × Block β)} {d : AesdDev β} {others : List Nat} :
      k.loaded = true → Owns k.heap cells → Reachable d → Backs lost k.aesdDevice d cells →
      lost.card = blocks → totalSize Block.size lost = bytes →
      k.regions = k.aesdMajor :: others → others.length = regions →
      k.cdevs = [k.aesdMajor] → Keeps blocks bytes regions k (some d)

theorem keeps_boot : Keeps 0 0 0 (boot : Kernel β) none :=
  .unloaded rfl owns_empty rfl rfl rfl rfl

section Steps

variable {blocks bytes regions : Nat} {k : Kernel β} {o : Option (AesdDev β)}

/-- An attempt on a kernel without the module. -/
private theorem aesdInitModule_keeps {lost : Multiset (Nat × Block β)}
    (hloaded : k.loaded = false) (ho : Owns k.heap lost) (hcdevs : k.cdevs = [])
    (env : InitEnv) :
    ∃ exit k', aesdInitModule env k = some (exit, k') ∧
      Keeps (lost.card + exit.lostBlocks) (totalSize Block.size lost + exit.lostBytes)
        (k.regions.length + exit.lostRegions) k' exit.device := by
  by_cases hregion : env.allocChrdevRegion < 0
  · refine ⟨.noRegion env.allocChrdevRegion, _, if_pos hregion, ?_⟩
    exact .unloaded hloaded ho rfl rfl rfl hcdevs
  · obtain ⟨⟨exit, dev⟩, h', cells', hrun, ho', halloc⟩ := initDevice_safe env lost k.heap ho
    rw [aesdInitModule]
    rw [if_neg hregion, hrun]
    cases halloc with
    | noCircular => exact ⟨_, _, rfl, .unloaded hloaded ho' rfl rfl rfl hcdevs⟩
    | noTemperary pc r =>
        refine ⟨_, _, rfl, .unloaded hloaded ho' (Multiset.card_cons _ _) ?_ rfl hcdevs⟩
        rw [totalSize_cons, Nat.add_comm]
        rfl
    | setup err hb hcard htotal =>
        by_cases herr : err = 0
        · refine ⟨_, _, rfl, ?_⟩
          simp only [InitExit.lostBlocks, InitExit.lostBytes, InitExit.lostRegions,
            InitExit.device, if_pos herr]
          refine .loaded rfl ho' .init hb rfl rfl rfl rfl ?_
          show env.major :: k.cdevs = [env.major]
          rw [hcdevs]
        · refine ⟨_, _, rfl, ?_⟩
          simp only [InitExit.lostBlocks, InitExit.lostBytes, InitExit.lostRegions,
            InitExit.device, if_neg herr]
          refine .unloaded hloaded ho' hcard htotal ?_ hcdevs
          show ((env.major :: k.regions).erase env.major).length = _
          rw [List.erase_cons_head]
          rfl

/-- **ONE EVENT** commits no memory error, does to the device what it should and
    leaves behind what its way out says. -/
theorem step_keeps (hk : Keeps blocks bytes regions k o) (e : Event β) :
    ∃ reply k' o', step k e = some (reply, k') ∧ Moves bytes o e reply o' ∧
      Keeps (blocks + overLoads InitExit.lostBlocks [reply])
        (bytes + overLoads InitExit.lostBytes [reply])
        (regions + overLoads InitExit.lostRegions [reply]) k' o' := by
  cases hk with
  | unloaded hloaded ho hcard htotal hregions hcdevs =>
      rename_i lost
      have hnot : ¬ k.loaded = true := by rw [hloaded]; exact Bool.false_ne_true
      have hsame : Keeps blocks bytes regions k none :=
        .unloaded hloaded ho hcard htotal hregions hcdevs
      cases e with
      | load env =>
          obtain ⟨exit, k', hrun, hkeeps⟩ := aesdInitModule_keeps hloaded ho hcdevs env
          refine ⟨.loaded exit, k', exit.device, ?_, .load env exit, ?_⟩
          · rw [step]
            rw [if_neg hnot, hrun]
            rfl
          · rw [hcard, htotal, hregions] at hkeeps
            exact hkeeps
      | op fPos op => exact ⟨.refused, k, none, if_neg hnot, .noDevice fPos op, hsame⟩
      | unload => exact ⟨.refused, k, none, if_neg hnot, .notLoaded, hsame⟩
  | loaded hloaded ho hd hb hcard htotal hregions hothers hcdevs =>
      rename_i lost cells d others
      cases e with
      | load env =>
          exact ⟨.refused, k, some d, if_pos hloaded, .loadedAlready d env,
            .loaded hloaded ho hd hb hcard htotal hregions hothers hcdevs⟩
      | op fPos op =>
          obtain ⟨result, h', cells', hrun, ho', d', hdoes, hb'⟩ :=
            fileOp_safe hb hd fPos op k.heap ho
          have hreach := hdoes.reachable hd
          rw [htotal] at hdoes
          refine ⟨.did result, { k with heap := h' }, some d', ?_, .op hdoes, ?_⟩
          · rw [step]
            rw [if_pos hloaded, hrun]
            rfl
          · exact .loaded hloaded ho' hreach hb' hcard htotal hregions hothers hcdevs
      | unload =>
          obtain ⟨_, h', cells', hrun, ho', hcells⟩ := cleanupDevice_safe hb k.heap ho
          subst hcells
          refine ⟨.unloaded,
            { k with
              heap := h'
              cdevs := k.cdevs.erase k.aesdMajor
              regions := k.regions.erase k.aesdMajor
              loaded := false }, none, ?_, .unload d, ?_⟩
          · rw [step]
            rw [if_pos hloaded, aesdCleanupModule, hrun]
            rfl
          · refine .unloaded rfl ho' hcard htotal ?_ ?_
            · show (k.regions.erase k.aesdMajor).length = _
              rw [hregions, List.erase_cons_head]
              exact hothers
            · show k.cdevs.erase k.aesdMajor = []
              rw [hcdevs, List.erase_cons_head]

end Steps

omit [Octet β] in
theorem add_overLoads_cons (n : Nat) (f : InitExit → Nat) (reply : Reply β)
    (replies : List (Reply β)) :
    n + overLoads f (reply :: replies) = n + overLoads f [reply] + overLoads f replies := by
  rw [Nat.add_assoc]
  cases reply with
  | loaded exit => rfl
  | refused => exact congrArg (n + ·) (Nat.zero_add _).symm
  | did result => exact congrArg (n + ·) (Nat.zero_add _).symm
  | unloaded => exact congrArg (n + ·) (Nat.zero_add _).symm

/-- The invariant over a history. -/
theorem run_keeps (es : List (Event β)) :
    ∀ {blocks bytes regions : Nat} {k : Kernel β} {o : Option (AesdDev β)},
      Keeps blocks bytes regions k o →
      ∃ replies k' o', run k es = some (replies, k') ∧ Leads bytes o es replies o' ∧
        Keeps (blocks + overLoads InitExit.lostBlocks replies)
          (bytes + overLoads InitExit.lostBytes replies)
          (regions + overLoads InitExit.lostRegions replies) k' o' := by
  induction es with
  | nil => exact fun hk => ⟨[], _, _, rfl, .nil _ _, hk⟩
  | cons e es ih =>
      intro blocks bytes regions k o hk
      obtain ⟨reply, k₁, o₁, hstep, hmoves, hk₁⟩ := step_keeps hk e
      obtain ⟨replies, k₂, o₂, hrun, hleads, hk₂⟩ := ih hk₁
      refine ⟨reply :: replies, k₂, o₂, ?_, .cons hmoves hleads, ?_⟩
      · rw [run]
        rw [hstep]
        show ((run k₁ es).bind fun r => some (reply :: r.1, r.2)) = _
        rw [hrun]
        rfl
      · rw [add_overLoads_cons blocks, add_overLoads_cons bytes, add_overLoads_cons regions]
        exact hk₂

/-- **NOTHING IS LOST BUT BY FAILED ATTEMPTS**: no history of attempts to load,
    calls and unloads commits a memory error, and every call answers as on the device
    that the history leads to.  While the module is not loaded the kernel holds exactly
    what the attempts that failed halfway left; while it is loaded it holds that, the
    memory of the device, and the region and the character device of the module. -/
theorem history_lost (es : List (Event β)) :
    ∃ replies k o, run (boot : Kernel β) es = some (replies, k) ∧ Leads 0 none es replies o ∧
      (k.loaded = false → o = none ∧
        k.heap.cells.length = overLoads InitExit.lostBlocks replies ∧
        k.heap.total Block.size = overLoads InitExit.lostBytes replies ∧
        k.regions.length = overLoads InitExit.lostRegions replies ∧ k.cdevs = []) ∧
      (k.loaded = true → ∃ (d : AesdDev β) (lost cells : Multiset (Nat × Block β)),
        o = some d ∧ Reachable d ∧ Owns k.heap cells ∧ Backs lost k.aesdDevice d cells ∧
        lost.card = overLoads InitExit.lostBlocks replies ∧
        totalSize Block.size lost = overLoads InitExit.lostBytes replies ∧
        k.heap.total Block.size = overLoads InitExit.lostBytes replies
          + (sizeofTemperary + sizeofCircular + d.inUse) ∧
        k.regions.length = overLoads InitExit.lostRegions replies + 1 ∧
        k.cdevs = [k.aesdMajor]) := by
  obtain ⟨replies, k, o, hrun, hleads, hk⟩ := run_keeps es keeps_boot
  rw [Nat.zero_add, Nat.zero_add, Nat.zero_add] at hk
  refine ⟨replies, k, o, hrun, hleads, ?_⟩
  cases hk with
  | unloaded hloaded ho hcard htotal hregions hcdevs =>
      refine ⟨fun _ => ⟨rfl, ?_, ?_, hregions, hcdevs⟩, fun h => ?_⟩
      · rw [← hcard, ← ho, Multiset.coe_card]
      · rw [ho.total_eq, htotal]
      · rw [hloaded] at h
        exact nomatch h
  | loaded hloaded ho hd hb hcard htotal hregions hothers hcdevs =>
      rename_i lost cells d others
      obtain ⟨q, pending, hm⟩ := hd.models
      refine ⟨fun h => ?_,
        fun _ => ⟨d, lost, cells, rfl, hd, ho, hb, hcard, htotal, ?_, ?_, hcdevs⟩⟩
      · rw [hloaded] at h
        exact nomatch h
      · rw [ho.total_eq, hb.totalSize_eq hm, htotal, Nat.add_comm]
      · rw [hregions, List.length_cons, hothers]

end AesdModule
