import Aesd.DriverProofs
import Aesd.ScannerProofs

/-! # The seek-command parser of the server

    `checkForCommandInString` is put together from C-library scans over a buffer
    that has no terminator.  A scan stops at what it looks for or at a `NUL`, so
    it may leave the buffer: the model gives it the bytes that follow the buffer
    in memory (`after`).  Where these bytes end, the scans see a `NUL`.

    The scans follow ISO C (`strncmp`, `strstr`, and `strtoul` in base 10 with
    an `unsigned long` of 64 bits).

    Behind the prefix the parser is three scanners over the same text: a number,
    the first comma before a `NUL`, and a number after it
    (`parseArguments_eq_some_iff`). -/

namespace AesdCommand

open AesdMachine AesdDriver Scanner

/-- `SEEK_CMD_PREFIX`, `"AESDCHAR_IOCSEEKTO:"`, without its terminator. -/
def seekCmdPrefix : List UInt8 :=
  [65, 69, 83, 68, 67, 72, 65, 82, 95, 73, 79, 67, 83, 69, 69, 75, 84, 79, 58]

/-! ## C-library scans -/

/-- `strncmp(s, t, n)`: the difference of the first bytes that differ. -/
def strncmp (s t : List UInt8) : Nat → Int
  | 0 => 0
  | n + 1 =>
      if s.headD 0 = t.headD 0 then
        if s.headD 0 = 0 then 0 else strncmp s.tail t.tail n
      else (s.headD 0).toNat - (t.headD 0).toNat

/-- `strstr(haystack, needle)` as an index, for a needle without `NUL`. -/
def strstr (needle : List UInt8) : List UInt8 → Option Nat
  | [] => if needle.isEmpty then some 0 else none
  | c :: cs =>
      if needle.isPrefixOf (c :: cs) then some 0
      else if c = 0 then none
      else (strstr needle cs).map (· + 1)

/-- `isspace` in the C locale. -/
def isspace (c : UInt8) : Bool := c == 32 || (9 ≤ c && c ≤ 13)

/-- `isdigit`. -/
def isdigit (c : UInt8) : Bool := 48 ≤ c && c ≤ 57

/-- The value of a string of decimal digits. -/
def decimalValue (digits : List UInt8) : Nat :=
  digits.foldl (fun v c => 10 * v + (c.toNat - 48)) 0

/-- The sign `strtoul` reads: whether it negates, and the rest of the string. -/
def readSign : List UInt8 → Bool × List UInt8
  | [] => (false, [])
  | c :: cs => if c = 45 then (true, cs) else if c = 43 then (false, cs) else (false, c :: cs)

/-- `strtoul(s, &end, 10)`: the value, and the distance of `end` from `s`, which
    is 0 when there is no number.  A value that does not fit is `ULONG_MAX`, and
    a minus sign negates modulo `2^64`. -/
def strtoul (s : List UInt8) : Nat × Nat :=
  let signed := s.dropWhile isspace
  let negative := (readSign signed).1
  let rest := (readSign signed).2
  let digits := rest.takeWhile isdigit
  if digits = [] then (0, 0)
  else
    let value := decimalValue digits
    (if 2 ^ 64 ≤ value then 2 ^ 64 - 1 else if negative then sizeSub 0 value else value,
      s.length - rest.length + digits.length)

/-! ## The parser -/

/-- `checkForCommandInString(buffer, size, &command)`: the command it stores, or
    `none` when it returns false. -/
def checkForCommandInString (buffer : Option (List UInt8)) (size : Nat) (after : List UInt8) :
    Option AesdSeekto :=
  match buffer with
  | none => none
  | some bytes =>
      let memory := bytes.take size ++ after
      let prefixLen := seekCmdPrefix.length
      if size = 0 then none
      else if size < prefixLen ∨ strncmp memory seekCmdPrefix prefixLen ≠ 0 then none
      else
        match strstr seekCmdPrefix memory with
        | none => none
        | some cmdPosition =>
            let command := strtoul (memory.drop (cmdPosition + prefixLen))
            if command.2 = 0 then none
            else
              -- the comma is searched from the start of the buffer, not from the number
              match strstr [44] memory with
              | none => none
              | some comma =>
                  let offset := strtoul (memory.drop (comma + 1))
                  if offset.2 = 0 then none
                  else some ⟨UInt32.ofNat command.1, UInt32.ofNat offset.1⟩

/-- Strings that agree up to `n` bytes, with no `NUL` among them, are equal there. -/
theorem take_eq_of_strncmp : ∀ (n : Nat) (s t : List UInt8), n ≤ t.length →
    (∀ c ∈ t, c ≠ 0) → strncmp s t n = 0 → s.take n = t.take n := by
  intro n
  induction n with
  | zero =>
      intro s t _ _ _
      rw [List.take_zero, List.take_zero]
  | succ n ih =>
      intro s t hlen hnul hcmp
      obtain ⟨c, t, rfl⟩ := List.exists_cons_of_length_pos (by omega : 0 < t.length)
      have hc : c ≠ 0 := hnul c (List.mem_cons_self ..)
      rw [strncmp] at hcmp
      by_cases heq : s.headD 0 = (c :: t).headD 0
      · rw [if_pos heq, if_neg (heq ▸ hc)] at hcmp
        cases s with
        | nil => exact absurd heq.symm hc
        | cons x s =>
            have hx : x = c := heq
            rw [List.take_succ_cons, List.take_succ_cons, hx,
              ih s t (Nat.le_of_succ_le_succ hlen)
                (fun d hd => hnul d (List.mem_cons_of_mem c hd)) hcmp]
      · rw [if_neg heq] at hcmp
        exact absurd (UInt8.toNat_inj.mp (by omega)) heq

/-- The prefix has no comma and no `NUL`. -/
theorem seekCmdPrefix_class : ∀ c ∈ seekCmdPrefix, c ≠ 44 ∧ c ≠ 0 := by
  decide +kernel

/-- The comparison with the prefix succeeds only on a buffer that starts with it. -/
theorem prefix_of_strncmp {bytes after : List UInt8}
    (hlen : seekCmdPrefix.length ≤ bytes.length)
    (hcmp : strncmp (bytes ++ after) seekCmdPrefix seekCmdPrefix.length = 0) :
    seekCmdPrefix <+: bytes := by
  have htake := take_eq_of_strncmp _ _ _ (Nat.le_refl _)
    (fun c hc => (seekCmdPrefix_class c hc).2) hcmp
  rw [List.take_length, List.take_append_of_le_length hlen] at htake
  rw [← htake]
  exact List.take_prefix _ _

/-- **A COMMAND STARTS WITH THE PREFIX**, whatever follows the buffer. -/
theorem prefix_of_checkForCommandInString {bytes after : List UInt8} {command : AesdSeekto}
    (h : checkForCommandInString (some bytes) bytes.length after = some command) :
    seekCmdPrefix <+: bytes := by
  simp only [checkForCommandInString, List.take_length] at h
  by_cases hsize : bytes.length = 0
  · rw [if_pos hsize] at h
    exact nomatch h
  · rw [if_neg hsize] at h
    by_cases hno : bytes.length < seekCmdPrefix.length ∨
        strncmp (bytes ++ after) seekCmdPrefix seekCmdPrefix.length ≠ 0
    · rw [if_pos hno] at h
      exact nomatch h
    · rw [not_or, Classical.not_not] at hno
      exact prefix_of_strncmp (Nat.not_lt.mp hno.1) hno.2

/-! ## The parser behind the prefix -/

/-- What the parser does once it has found the prefix, on the memory behind it. -/
def parseArguments (tail : List UInt8) : Option AesdSeekto :=
  if (strtoul tail).2 = 0 then none
  else
    match strstr [44] tail with
    | none => none
    | some comma =>
        if (strtoul (tail.drop (comma + 1))).2 = 0 then none
        else some ⟨UInt32.ofNat (strtoul tail).1,
          UInt32.ofNat (strtoul (tail.drop (comma + 1))).1⟩

theorem strncmp_append : ∀ (t s : List UInt8), (∀ c ∈ t, c ≠ 0) →
    strncmp (t ++ s) t t.length = 0 := by
  intro t
  induction t with
  | nil =>
      intro s _
      rfl
  | cons c t ih =>
      intro s hnul
      have hc : c ≠ 0 := hnul c (List.mem_cons_self ..)
      rw [List.cons_append, List.length_cons, strncmp]
      show (if c = c then if c = 0 then (0 : Int) else strncmp (t ++ s) t t.length else _) = 0
      rw [if_pos rfl, if_neg hc]
      exact ih s fun d hd => hnul d (List.mem_cons_of_mem c hd)

theorem strstr_append_self (needle s : List UInt8) : strstr needle (needle ++ s) = some 0 := by
  have hpre : needle.isPrefixOf (needle ++ s) = true :=
    List.isPrefixOf_iff_prefix.mpr (List.prefix_append needle s)
  cases hmem : needle ++ s with
  | nil =>
      have hnil : needle = [] := (List.append_eq_nil_iff.mp hmem).1
      rw [hnil]
      rfl
  | cons c cs =>
      rw [hmem] at hpre
      rw [strstr, if_pos hpre]

/-- The comma is not found among bytes that are neither a comma nor a `NUL`. -/
theorem strstr_comma_append : ∀ (t s : List UInt8), (∀ c ∈ t, c ≠ 44 ∧ c ≠ 0) →
    strstr [44] (t ++ s) = (strstr [44] s).map (· + t.length) := by
  intro t
  induction t with
  | nil =>
      intro s _
      simp
  | cons c t ih =>
      intro s ht
      obtain ⟨hcomma, hnul⟩ := ht c (List.mem_cons_self ..)
      have hpre : ¬ ([44] : List UInt8).isPrefixOf (c :: (t ++ s)) = true := by
        intro h
        exact hcomma (List.cons_prefix_cons.mp (List.isPrefixOf_iff_prefix.mp h)).1.symm
      rw [List.cons_append, strstr, if_neg hpre, if_neg hnul,
        ih s (fun d hd => ht d (List.mem_cons_of_mem c hd)), Option.map_map]
      rfl

section Behind

variable (tail : List UInt8)

theorem strncmp_behind :
    strncmp (seekCmdPrefix ++ tail) seekCmdPrefix seekCmdPrefix.length = 0 :=
  strncmp_append _ _ fun c hc => (seekCmdPrefix_class c hc).2

/-- The first comma is behind the prefix. -/
theorem strstr_comma_behind :
    strstr [44] (seekCmdPrefix ++ tail)
      = (strstr [44] tail).map (· + seekCmdPrefix.length) :=
  strstr_comma_append _ _ seekCmdPrefix_class

theorem drop_behind (comma : Nat) :
    (seekCmdPrefix ++ tail).drop (comma + seekCmdPrefix.length + 1) = tail.drop (comma + 1) := by
  rw [show comma + seekCmdPrefix.length + 1 = seekCmdPrefix.length + (comma + 1) by omega,
    ← List.drop_drop, List.drop_left]

end Behind

/-- **THE PARSER ON A BUFFER WITH THE PREFIX**: the arguments are read from the
    memory behind it. -/
theorem checkForCommandInString_behind (rest after : List UInt8) :
    checkForCommandInString (some (seekCmdPrefix ++ rest)) (seekCmdPrefix ++ rest).length after
      = parseArguments (rest ++ after) := by
  have hlen : (seekCmdPrefix ++ rest).length = seekCmdPrefix.length + rest.length :=
    List.length_append
  have hpos : seekCmdPrefix.length = 19 := rfl
  simp only [checkForCommandInString, List.take_length, List.append_assoc]
  rw [if_neg (by omega), if_neg (by rw [strncmp_behind]; omega), strstr_append_self,
    parseArguments]
  simp only [Nat.zero_add, List.drop_left, strstr_comma_behind]
  by_cases hfirst : (strtoul (rest ++ after)).2 = 0
  · rw [if_pos hfirst, if_pos hfirst]
  · rw [if_neg hfirst, if_neg hfirst]
    cases strstr [44] (rest ++ after) with
    | none => rfl
    | some comma => simp only [Option.map_some, drop_behind]

theorem checkForCommandInString_eq_none {bytes : List UInt8} (h : ¬ seekCmdPrefix <+: bytes)
    (after : List UInt8) :
    checkForCommandInString (some bytes) bytes.length after = none := by
  cases hparse : checkForCommandInString (some bytes) bytes.length after with
  | none => rfl
  | some command => exact absurd (prefix_of_checkForCommandInString hparse) h

/-! ## The scans as scanners -/

def isSign (c : UInt8) : Bool := c == 45 || c == 43

/-- The bytes that are neither a comma nor the end of the string. -/
def beforeComma (c : UInt8) : Bool := c != 44 && c != 0

theorem beforeComma_iff {c : UInt8} : beforeComma c = true ↔ c ≠ 44 ∧ c ≠ 0 := by
  rw [beforeComma, Bool.and_eq_true, bne_iff_ne, bne_iff_ne]

/-- What `strtoul` leaves after the blanks and the sign. -/
def skipSign (s : List UInt8) : List UInt8 := skipOne isSign (s.dropWhile isspace)

/-- What `strtoul` leaves after the number. -/
def skipNumber (s : List UInt8) : List UInt8 := (skipSign s).dropWhile isdigit

/-- What is left from the first comma on, or from the first `NUL` on when that
    comes first. -/
def skipToComma (s : List UInt8) : List UInt8 := s.dropWhile beforeComma

/-- Blanks, at most one sign and then a digit. -/
def hasNumber (s : List UInt8) : Bool := (skipSign s).head?.any isdigit

theorem scans_skipSign : Scans skipSign :=
  (scans_dropWhile isspace).comp (scans_skipOne isSign)

theorem scans_skipNumber : Scans skipNumber :=
  scans_skipSign.comp (scans_dropWhile isdigit)

theorem scans_skipToComma : Scans skipToComma := scans_dropWhile beforeComma

theorem readSign_snd (s : List UInt8) : (readSign s).2 = skipOne isSign s := by
  cases s with
  | nil => rfl
  | cons c cs =>
      rw [readSign, skipOne, isSign]
      by_cases hminus : c = 45
      · subst hminus
        rfl
      · by_cases hplus : c = 43
        · subst hplus
          rfl
        · rw [if_neg hminus, if_neg hplus, if_neg (by simp [hminus, hplus])]

/-- There is a number exactly when `strtoul` moves. -/
theorem strtoul_snd_ne_zero_iff (s : List UInt8) :
    (strtoul s).2 ≠ 0 ↔ hasNumber s = true := by
  have hrest : (readSign (s.dropWhile isspace)).2 = skipSign s := readSign_snd _
  rw [strtoul, hasNumber, hrest]
  cases hs : skipSign s with
  | nil => simp
  | cons c cs =>
      by_cases hd : isdigit c = true
      · simp [hd]
      · simp [hd]

/-- The bytes in front of the comma do not matter to `strstr`. -/
theorem strstr_comma_skip (s : List UInt8) :
    strstr [44] s = (strstr [44] (skipToComma s)).map (· + (s.takeWhile beforeComma).length) := by
  have hfront : ∀ c ∈ s.takeWhile beforeComma, c ≠ 44 ∧ c ≠ 0 := by
    intro c hc
    exact beforeComma_iff.mp (List.mem_takeWhile_imp hc)
  conv_lhs => rw [← List.takeWhile_append_dropWhile (p := beforeComma) (l := s)]
  exact strstr_comma_append _ _ hfront

/-- `strstr` finds the comma at which the scanner stops. -/
theorem strstr_comma_some {s u : List UInt8} (h : skipToComma s = 44 :: u) :
    ∃ i, strstr [44] s = some i ∧ s.drop (i + 1) = u ∧ i + 1 + u.length = s.length := by
  have hs : s = s.takeWhile beforeComma ++ 44 :: u := by
    rw [← h]
    exact (List.takeWhile_append_dropWhile ..).symm
  have hskip := strstr_comma_skip s
  generalize s.takeWhile beforeComma = front at hs hskip
  rw [h] at hskip
  refine ⟨front.length, ?_, ?_, ?_⟩
  · rw [hskip]
    show some (0 + front.length) = _
    rw [Nat.zero_add]
  · rw [hs, ← List.drop_drop, List.drop_left]
    rfl
  · rw [hs, List.length_append, List.length_cons]
    omega

/-- `strstr` finds nothing when the scanner stops at no comma. -/
theorem strstr_comma_none {s : List UInt8} (h : ∀ u, skipToComma s ≠ 44 :: u) :
    strstr [44] s = none := by
  rw [strstr_comma_skip]
  cases hs : skipToComma s with
  | nil => rfl
  | cons c u =>
      have hc : c = 0 := by
        have hstop := List.head?_dropWhile_not beforeComma s
        rw [show s.dropWhile beforeComma = c :: u from hs] at hstop
        have hne : c ≠ 44 := fun heq => h u (heq ▸ hs)
        simpa [beforeComma, hne] using hstop
      rw [hc]
      rfl

/-- **WHAT THE PARSER ACCEPTS**: a number, a comma somewhere behind it or in it,
    and a number behind the comma. -/
theorem parseArguments_eq_some_iff (tail : List UInt8) (command : AesdSeekto) :
    parseArguments tail = some command ↔
      hasNumber tail = true ∧ ∃ u, skipToComma tail = 44 :: u ∧ hasNumber u = true ∧
        command = ⟨UInt32.ofNat (strtoul tail).1, UInt32.ofNat (strtoul u).1⟩ := by
  rw [parseArguments]
  by_cases hfirst : (strtoul tail).2 = 0
  · rw [if_pos hfirst]
    have hno : ¬ hasNumber tail = true := fun h => (strtoul_snd_ne_zero_iff tail).mpr h hfirst
    exact ⟨fun h => (nomatch h), fun h => absurd h.1 hno⟩
  · rw [if_neg hfirst]
    have hnum : hasNumber tail = true := (strtoul_snd_ne_zero_iff tail).mp hfirst
    by_cases hcomma : ∃ u, skipToComma tail = 44 :: u
    · obtain ⟨u, hu⟩ := hcomma
      obtain ⟨i, hi, hdrop, -⟩ := strstr_comma_some hu
      simp only [hi, hdrop]
      by_cases hsecond : (strtoul u).2 = 0
      · rw [if_pos hsecond]
        refine ⟨fun h => (nomatch h), ?_⟩
        rintro ⟨-, u', hu', hnum', -⟩
        rw [hu] at hu'
        rw [← (List.cons.inj hu').2] at hnum'
        exact absurd hsecond ((strtoul_snd_ne_zero_iff u).mpr hnum')
      · rw [if_neg hsecond]
        constructor
        · intro h
          exact ⟨hnum, u, hu, (strtoul_snd_ne_zero_iff u).mp hsecond, (Option.some.inj h).symm⟩
        · rintro ⟨-, u', hu', -, rfl⟩
          rw [hu] at hu'
          rw [(List.cons.inj hu').2]
    · rw [strstr_comma_none (fun u hu => hcomma ⟨u, hu⟩)]
      refine ⟨fun h => (nomatch h), ?_⟩
      rintro ⟨-, u, hu, -⟩
      exact absurd ⟨u, hu⟩ hcomma

end AesdCommand
