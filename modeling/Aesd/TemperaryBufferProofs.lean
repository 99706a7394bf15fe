import Aesd.MachineProofs

/-! # The accumulating buffer

    `aesd_temperaty_buffer.c` exists twice, in the driver (over `kmalloc`) and
    in the server (over `malloc`), with the same text otherwise.  A buffer is a
    pointer and a size; a `NULL` pointer is `none`, any other pointer is the
    list of the bytes written from it on.

    Every copy the code makes is of `size` bytes, so a buffer is tied to the
    byte string it stands for by `Holds`: either nothing was ever added, or the
    block is exactly that string and `size` is its length.  An empty string may
    be held in both ways, which is why the source's emptiness test reads both
    fields. -/

namespace AesdTemperary

open AesdMachine

variable {β : Type}

/-- `struct aesd_temperary_buffer`. -/
structure AesdTemperaryBuffer (β : Type) where
  buffptr : Option (List β)
  size    : Nat

/-- `aesd_temperary_buffer_init`. -/
def aesdTemperaryBufferInit : AesdTemperaryBuffer β := ⟨none, 0⟩

/-- `aesd_temperary_buffer_clean`: free the block and forget it. -/
def aesdTemperaryBufferClean (b : AesdTemperaryBuffer β) : AesdTemperaryBuffer β :=
  match b.buffptr with
  | some _ => ⟨none, 0⟩
  | none => b

/-- `aesd_temperary_buffer_delete`; the source's body is that of `clean` without
    its messages. -/
def aesdTemperaryBufferDelete (b : AesdTemperaryBuffer β) : AesdTemperaryBuffer β :=
  aesdTemperaryBufferClean b

/-- `aesd_temperary_buffer_is_empty`. -/
def aesdTemperaryBufferIsEmpty (b : AesdTemperaryBuffer β) : Bool :=
  b.buffptr.isNone || b.size == 0

/-- `aesd_temperary_buffer_add`: append `size` bytes read from `data`.  The
    allocator is asked for one block, of a size computed in `size_t`. -/
def aesdTemperaryBufferAdd (malloc : Nat → Bool) (b : AesdTemperaryBuffer β)
    (data : List β) (size : Nat) : Bool × AesdTemperaryBuffer β :=
  match b.buffptr with
  | none =>
      if malloc size then (true, ⟨some (data.take size), size⟩)
      else (false, b)
  | some buffptrLast =>
      if malloc (sizeAdd b.size size) then
        (true, ⟨some (buffptrLast.take b.size ++ data.take size), sizeAdd b.size size⟩)
      else (false, b)

/-- The buffer stands for the byte string `bs`. -/
inductive Holds : AesdTemperaryBuffer β → List β → Prop where
  | null : Holds ⟨none, 0⟩ []
  | block (bs : List β) : Holds ⟨some bs, bs.length⟩ bs

/-- The bytes a buffer stands for, read off its two fields. -/
def AesdTemperaryBuffer.bytes (b : AesdTemperaryBuffer β) : List β :=
  (b.buffptr.getD []).take b.size

theorem Holds.bytes_eq {b : AesdTemperaryBuffer β} {bs : List β} (h : Holds b bs) :
    b.bytes = bs := by
  cases h with
  | null => rfl
  | block => exact List.take_length

theorem Holds.size_eq {b : AesdTemperaryBuffer β} {bs : List β} (h : Holds b bs) :
    b.size = bs.length := by
  cases h with
  | null => rfl
  | block => rfl

theorem holds_init : Holds (aesdTemperaryBufferInit : AesdTemperaryBuffer β) [] := .null

/-- Both tests together decide whether the held string is empty. -/
theorem Holds.isEmpty_iff {b : AesdTemperaryBuffer β} {bs : List β} (h : Holds b bs) :
    aesdTemperaryBufferIsEmpty b = true ↔ bs = [] := by
  cases h with
  | null => simp [aesdTemperaryBufferIsEmpty]
  | block => simp [aesdTemperaryBufferIsEmpty]

theorem Holds.clean {b : AesdTemperaryBuffer β} {bs : List β} (h : Holds b bs) :
    Holds (aesdTemperaryBufferClean b) [] := by
  cases h with
  | null => exact .null
  | block => exact .null

/-- **THE ADD SPECIFICATION**: as long as the sizes do not wrap, a granted add
    appends exactly the `size` bytes it was given. -/
theorem Holds.add {b : AesdTemperaryBuffer β} {bs : List β} (h : Holds b bs)
    {malloc : Nat → Bool} (data : List β) {size : Nat} (hm : malloc (bs.length + size) = true)
    (hsize : size ≤ data.length) (hwrap : bs.length + size < 2 ^ 64) :
    (aesdTemperaryBufferAdd malloc b data size).1 = true ∧
      Holds (aesdTemperaryBufferAdd malloc b data size).2 (bs ++ data.take size) := by
  have hlen : (data.take size).length = size := List.length_take_of_le hsize
  cases h with
  | null =>
      rw [List.length_nil, Nat.zero_add] at hm
      have hblock := Holds.block (data.take size)
      rw [hlen] at hblock
      simp only [aesdTemperaryBufferAdd, if_pos hm, List.nil_append, true_and]
      exact hblock
  | block =>
      have hblock := Holds.block (bs ++ data.take size)
      rw [List.length_append, hlen] at hblock
      simp only [aesdTemperaryBufferAdd, sizeAdd_eq hwrap, if_pos hm, List.take_length, true_and]
      exact hblock

/-- A refused add, seen from the string it would have extended. -/
theorem Holds.add_refused {b : AesdTemperaryBuffer β} {bs : List β} (h : Holds b bs)
    {malloc : Nat → Bool} (data : List β) {size : Nat} (hm : malloc (bs.length + size) = false)
    (hwrap : bs.length + size < 2 ^ 64) :
    aesdTemperaryBufferAdd malloc b data size = (false, b) := by
  cases h with
  | null =>
      rw [List.length_nil, Nat.zero_add] at hm
      simp only [aesdTemperaryBufferAdd, hm, Bool.false_eq_true, if_false]
  | block =>
      simp only [aesdTemperaryBufferAdd, sizeAdd_eq hwrap, hm, Bool.false_eq_true, if_false]

end AesdTemperary
