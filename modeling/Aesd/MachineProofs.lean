import Mathlib

/-! # Bytes, machine integers and the allocator

    The driver and the server are C for a 64-bit machine.  `size_t` is a
    natural number below `2^64` whose additions and subtractions wrap, `loff_t`
    is an integer in `[-2^63, 2^63)`, and the conversions between the two are
    the C ones.

    The driver never looks at a byte except to compare it with a newline, so
    its model takes the bytes from any type with an octet value (`Octet`):
    plain octets for the code as it runs, octets that remember the connection
    they arrived on where a statement is about their origin. -/

namespace AesdMachine

/-- A type whose elements stand for bytes of memory. -/
class Octet (β : Type) where
  octet : β → UInt8

instance : Octet UInt8 := ⟨id⟩

/-- The octet of `'\n'`. -/
def newline : UInt8 := 10

section Bytes

variable {β : Type} [Octet β]

/-- `b == '\n'`. -/
def isNewline (b : β) : Bool := Octet.octet b == newline

/-- Some byte of the string is a newline: the answer of a scan for it. -/
def hasNewline (bs : List β) : Bool := bs.any isNewline

@[simp] theorem hasNewline_nil : hasNewline ([] : List β) = false := rfl

@[simp] theorem hasNewline_append (xs ys : List β) :
    hasNewline (xs ++ ys) = (hasNewline xs || hasNewline ys) := by
  simp [hasNewline]

/-- A string with a newline has a byte. -/
theorem length_pos_of_hasNewline {bs : List β} (h : hasNewline bs = true) :
    0 < bs.length := by
  cases bs with
  | nil => exact nomatch h
  | cons b bs => exact Nat.succ_pos _

end Bytes

/-! ## `size_t` and `loff_t` -/

/-- `a + b` in `size_t`. -/
def sizeAdd (a b : Nat) : Nat := (a + b) % 2 ^ 64

/-- `a - b` in `size_t`. -/
def sizeSub (a b : Nat) : Nat := (a + 2 ^ 64 - b) % 2 ^ 64

/-- `(size_t) x`. -/
def sizeOfInt (x : Int) : Nat := (x % 2 ^ 64).toNat

/-- `(loff_t) x`: the representative of `x` modulo `2^64` in `[-2^63, 2^63)`. -/
def loff (x : Int) : Int := Int.bmod x (2 ^ 64)

theorem sizeAdd_eq {a b : Nat} (h : a + b < 2 ^ 64) : sizeAdd a b = a + b :=
  Nat.mod_eq_of_lt h

theorem sizeSub_eq {a b : Nat} (ha : a < 2 ^ 64) (h : b ≤ a) : sizeSub a b = a - b := by
  rw [sizeSub]
  rw [show a + 2 ^ 64 - b = (a - b) + 2 ^ 64 by omega, Nat.add_mod_right]
  exact Nat.mod_eq_of_lt (by omega)

theorem sizeOfInt_natCast {n : Nat} (h : n < 2 ^ 64) : sizeOfInt (n : Int) = n := by
  rw [sizeOfInt]
  omega

theorem loff_eq {x : Int} (hlow : -2 ^ 63 ≤ x) (hhigh : x < 2 ^ 63) : loff x = x := by
  rw [loff, Int.bmod_def]
  omega

/-- A sum past the largest position comes out negative. -/
theorem loff_neg_of_le {x : Int} (hlow : 2 ^ 63 ≤ x) (hhigh : x < 2 ^ 64) : loff x < 0 := by
  rw [loff, Int.bmod_def]
  omega

theorem loff_natCast {n : Nat} (h : n < 2 ^ 63) : loff (n : Int) = n := by
  rw [loff]
  rw [Int.bmod_def]
  omega

/-! ## Error numbers and the allocators -/

def EFAULT : Int := 14
def ENOMEM : Int := 12
def EINVAL : Int := 22

/-- Blocks of kernel memory lie in the upper half of the address space. -/
def kernelSpace : Nat := 2 ^ 63

/-- `kmalloc(size)` answers with a block when the kernel grants one and it fits
    beside the `inUse` bytes the caller already holds. -/
def kmalloc (granted : Bool) (inUse size : Nat) : Bool :=
  granted && decide (inUse + size < kernelSpace)

theorem kmalloc_eq_true {granted : Bool} {inUse size : Nat} :
    kmalloc granted inUse size = true ↔ granted = true ∧ inUse + size < 2 ^ 63 := by
  rw [kmalloc, kernelSpace]
  rw [Bool.and_eq_true, decide_eq_true_iff]

/-- `malloc(size)` in the server: a request above `PTRDIFF_MAX` is always refused. -/
def malloc (granted : Bool) (size : Nat) : Bool := granted && decide (size < 2 ^ 63)

theorem malloc_eq_true {granted : Bool} {size : Nat} :
    malloc granted size = true ↔ granted = true ∧ size < 2 ^ 63 := by
  simp [malloc]

end AesdMachine
