import Aesd.CommandParserProofs

/-! # Which texts are seek commands

    A seek command is meant to be the prefix, a decimal number, a comma and a
    decimal number.  The parser is made of scans that take more: blanks and a
    sign before a number, anything between the first number and the first comma,
    a comma on a later line or behind the buffer, numbers that do not fit into
    the 32 bits of a field.

    On the texts that are meant the parser answers with the command they spell,
    whatever follows.  On all others it should answer that there is none, and it
    does exactly when one of its scans happens to fail. -/

namespace AesdCommandGrammar

open AesdMachine AesdDriver AesdCommand Scanner

/-- Decimal digits, at least one, with the value. -/
structure IsDecimal (ds : List UInt8) (value : Nat) : Prop where
  nonempty : ds ≠ []
  digits   : ∀ c ∈ ds, isdigit c = true
  value_eq : decimalValue ds = value

/-- The buffer spells the command, all of it in its first line: prefix, digits,
    comma, digits, and then something that is no digit. -/
structure Spells (bytes : List UInt8) (command : AesdSeekto) (ds es r : List UInt8) : Prop where
  text   : bytes = seekCmdPrefix ++ ds ++ [44] ++ es ++ r
  line   : hasNewline (seekCmdPrefix ++ ds ++ [44] ++ es) = false
  first  : IsDecimal ds command.writeCmd.toNat
  second : IsDecimal es command.writeCmdOffset.toNat
  ends   : Stops isdigit r

/-- The numbers behind the prefix are plain: each starts at once with a digit, the
    comma follows the first at once, and both fit into 32 bits. -/
structure Plain (rest : List UInt8) : Prop where
  first       : rest.head?.any isdigit = true
  comma       : (rest.dropWhile isdigit).head? = some 44
  second      : (rest.dropWhile isdigit).tail.head?.any isdigit = true
  first_fits  : decimalValue (rest.takeWhile isdigit) < 2 ^ 32
  second_fits : decimalValue ((rest.dropWhile isdigit).tail.takeWhile isdigit) < 2 ^ 32

/-- Where the prefix is there and all scans of the memory behind it succeed, the
    numbers are plain. -/
def Strict (bytes after : List UInt8) : Prop :=
  ∀ rest, bytes = seekCmdPrefix ++ rest → hasNumber (rest ++ after) = true →
    ∀ u, skipToComma (rest ++ after) = 44 :: u → hasNumber u = true → Plain rest

/-! ## Numbers -/

/-- A digit is nothing else the scans look for. -/
theorem isdigit_class : ∀ c : UInt8, isdigit c = true →
    isspace c = false ∧ isSign c = false ∧ beforeComma c = true ∧ isNewline c = false := by
  decide +kernel

section Numbers

variable {ds s : List UInt8} {v : Nat}

/-- A string that starts with a digit is read from its start. -/
theorem skipSign_digit {c : UInt8} (hc : isdigit c = true) (cs : List UInt8) :
    skipSign (c :: cs) = c :: cs := by
  obtain ⟨hspace, hsign, -, -⟩ := isdigit_class c hc
  rw [skipSign, List.dropWhile_cons_of_neg (Bool.eq_false_iff.mp hspace), skipOne,
    if_neg (Bool.eq_false_iff.mp hsign)]

theorem IsDecimal.skipSign_eq (h : IsDecimal ds v) (s : List UInt8) :
    skipSign (ds ++ s) = ds ++ s := by
  obtain ⟨c, cs, rfl⟩ := List.exists_cons_of_ne_nil h.nonempty
  exact skipSign_digit (h.digits c (List.mem_cons_self ..)) (cs ++ s)

theorem IsDecimal.hasNumber_eq (h : IsDecimal ds v) (s : List UInt8) :
    hasNumber (ds ++ s) = true := by
  rw [hasNumber, h.skipSign_eq s]
  obtain ⟨c, cs, rfl⟩ := List.exists_cons_of_ne_nil h.nonempty
  exact h.digits c (List.mem_cons_self ..)

/-- **A PLAIN NUMBER IS READ AS ITS VALUE**. -/
theorem IsDecimal.strtoul_eq (h : IsDecimal ds v) (hs : Stops isdigit s) (hv : v < 2 ^ 64) :
    (strtoul (ds ++ s)).1 = v := by
  obtain ⟨c, cs, hcons⟩ := List.exists_cons_of_ne_nil h.nonempty
  obtain ⟨hspace, hsign, -, -⟩ := isdigit_class c (h.digits c (hcons ▸ List.mem_cons_self ..))
  have hskip : (ds ++ s).dropWhile isspace = ds ++ s := by
    rw [hcons]
    exact List.dropWhile_cons_of_neg (Bool.eq_false_iff.mp hspace)
  have hread : readSign (ds ++ s) = (false, ds ++ s) := by
    rw [isSign, Bool.or_eq_false_iff, beq_eq_false_iff_ne, beq_eq_false_iff_ne] at hsign
    rw [hcons, List.cons_append, readSign, if_neg hsign.1, if_neg hsign.2]
  simp only [strtoul, hskip, hread, takeWhile_run h.digits hs, if_neg h.nonempty, h.value_eq]
  rw [if_neg (by omega)]
  rfl

theorem isDecimal_takeWhile (h : s.head?.any isdigit = true) :
    IsDecimal (s.takeWhile isdigit) (decimalValue (s.takeWhile isdigit)) := by
  refine ⟨?_, fun c hc => List.mem_takeWhile_imp hc, rfl⟩
  cases s with
  | nil => exact nomatch h
  | cons c cs =>
      have hc : isdigit c = true := h
      rw [List.takeWhile_cons_of_pos hc]
      exact List.cons_ne_nil _ _

end Numbers

/-! ## Plain texts -/

/-- A plain text, taken apart. -/
structure PlainParts (rest ds es r : List UInt8) : Prop where
  text        : rest = ds ++ 44 :: (es ++ r)
  first       : IsDecimal ds (decimalValue ds)
  second      : IsDecimal es (decimalValue es)
  ends        : Stops isdigit r
  first_fits  : decimalValue ds < 2 ^ 32
  second_fits : decimalValue es < 2 ^ 32

theorem stops_comma (s : List UInt8) : Stops isdigit (44 :: s) := by
  intro c hc
  rw [← Option.some.inj hc]
  decide

theorem plain_iff (rest : List UInt8) : Plain rest ↔ ∃ ds es r, PlainParts rest ds es r := by
  constructor
  · intro h
    obtain ⟨u, hu⟩ : ∃ u, rest.dropWhile isdigit = 44 :: u := by
      cases hdrop : rest.dropWhile isdigit with
      | nil => exact nomatch hdrop ▸ h.comma
      | cons c u =>
          have hc := h.comma
          rw [hdrop] at hc
          exact ⟨u, by rw [show c = 44 from Option.some.inj hc]⟩
    have hsecond := h.second
    have hfits := h.second_fits
    rw [hu, List.tail_cons] at hsecond hfits
    refine ⟨rest.takeWhile isdigit, u.takeWhile isdigit, u.dropWhile isdigit, ?_,
      isDecimal_takeWhile h.first, isDecimal_takeWhile hsecond, stops_dropWhile _ _,
      h.first_fits, hfits⟩
    rw [List.takeWhile_append_dropWhile, ← hu, List.takeWhile_append_dropWhile]
  · rintro ⟨ds, es, r, h⟩
    have hdrop : rest.dropWhile isdigit = 44 :: (es ++ r) := by
      rw [h.text]
      exact dropWhile_run h.first.digits (stops_comma _)
    have htake : rest.takeWhile isdigit = ds := by
      rw [h.text]
      exact takeWhile_run h.first.digits (stops_comma _)
    have htake' : (es ++ r).takeWhile isdigit = es := takeWhile_run h.second.digits h.ends
    obtain ⟨c, cs, hds⟩ := List.exists_cons_of_ne_nil h.first.nonempty
    obtain ⟨e, es', hes⟩ := List.exists_cons_of_ne_nil h.second.nonempty
    refine ⟨?_, by rw [hdrop]; rfl, ?_, ?_, ?_⟩
    · rw [h.text, hds]
      exact h.first.digits c (hds ▸ List.mem_cons_self ..)
    · rw [hdrop, List.tail_cons, hes]
      exact h.second.digits e (hes ▸ List.mem_cons_self ..)
    · rw [htake]
      exact h.first_fits
    · rw [hdrop, List.tail_cons, htake']
      exact h.second_fits

/-- Digits do not end a line. -/
theorem IsDecimal.hasNewline_eq {ds : List UInt8} {v : Nat} (h : IsDecimal ds v) :
    hasNewline ds = false := by
  rw [hasNewline, List.any_eq_false]
  intro c hc
  rw [(isdigit_class c (h.digits c hc)).2.2.2]
  exact Bool.false_ne_true

/-- Prefix, digits, comma and digits have no newline. -/
theorem hasNewline_command {ds es : List UInt8} {x y : Nat} (hds : IsDecimal ds x)
    (hes : IsDecimal es y) : hasNewline (seekCmdPrefix ++ ds ++ [44] ++ es) = false := by
  have hprefix : hasNewline seekCmdPrefix = false := by decide +kernel
  have hcomma : hasNewline ([44] : List UInt8) = false := by decide +kernel
  rw [hasNewline_append, hasNewline_append, hasNewline_append, hprefix, hds.hasNewline_eq,
    hcomma, hes.hasNewline_eq]
  rfl

/-- **A PLAIN TEXT IS PARSED AS WHAT IT SAYS**, whatever follows it. -/
theorem parseArguments_plain {ds es r : List UInt8} {x y : Nat} (hds : IsDecimal ds x)
    (hes : IsDecimal es y) (hne : r ≠ []) (hr : Stops isdigit r) (hx : x < 2 ^ 32)
    (hy : y < 2 ^ 32) (after : List UInt8) :
    parseArguments (ds ++ 44 :: (es ++ r) ++ after)
      = some ⟨UInt32.ofNat x, UInt32.ofNat y⟩ := by
  have htext : ds ++ 44 :: (es ++ r) ++ after = ds ++ 44 :: (es ++ (r ++ after)) := by
    rw [List.append_assoc, List.cons_append, List.append_assoc]
  have hcomma : skipToComma (ds ++ 44 :: (es ++ (r ++ after))) = 44 :: (es ++ (r ++ after)) := by
    refine dropWhile_run (fun c hc => (isdigit_class c (hds.digits c hc)).2.2.1) ?_
    intro c hc
    rw [← Option.some.inj hc]
    decide
  rw [htext, parseArguments_eq_some_iff]
  refine ⟨hds.hasNumber_eq _, _, hcomma, hes.hasNumber_eq _, ?_⟩
  rw [hds.strtoul_eq (stops_comma _) (by omega),
    hes.strtoul_eq (hr.append hne after) (by omega)]

/-! ## Soundness and completeness -/

/-- A text that spells a command is plain. -/
theorem Spells.plain {rest ds es r : List UInt8} {command : AesdSeekto}
    (h : Spells (seekCmdPrefix ++ rest) command ds es r) : Plain rest := by
  have htext : rest = ds ++ 44 :: (es ++ r) := by
    have htext := h.text
    rw [List.append_assoc, List.append_assoc, List.append_assoc] at htext
    exact List.append_cancel_left htext
  have hx := h.first.value_eq
  have hy := h.second.value_eq
  refine (plain_iff rest).mpr ⟨ds, es, r, htext, hx ▸ h.first, hy ▸ h.second, h.ends, ?_, ?_⟩
  · rw [hx]
    exact UInt32.toNat_lt _
  · rw [hy]
    exact UInt32.toNat_lt _

/-- **WHEN THE PARSER IS SOUND**: on a buffer with a newline and before any memory,
    whatever command it finds is the one the buffer spells exactly when the buffer
    is strict. -/
theorem checkForCommandInString_sound_iff {bytes : List UInt8} (hline : hasNewline bytes = true)
    (after : List UInt8) :
    (∀ command, checkForCommandInString (some bytes) bytes.length after = some command →
      ∃ ds es r, Spells bytes command ds es r) ↔ Strict bytes after := by
  constructor
  · rintro hsound rest rfl hfirst u hcomma hsecond
    rw [checkForCommandInString_behind] at hsound
    obtain ⟨ds, es, r, h⟩ := hsound _
      ((parseArguments_eq_some_iff _ _).mpr ⟨hfirst, u, hcomma, hsecond, rfl⟩)
    exact h.plain
  · intro hstrict command hparse
    obtain ⟨rest, rfl⟩ := prefix_of_checkForCommandInString hparse
    rw [checkForCommandInString_behind] at hparse
    obtain ⟨hfirst, u, hcomma, hsecond, -⟩ := (parseArguments_eq_some_iff _ _).mp hparse
    obtain ⟨ds, es, r, h⟩ := (plain_iff rest).mp (hstrict rest rfl hfirst u hcomma hsecond)
    have htext : seekCmdPrefix ++ rest = seekCmdPrefix ++ ds ++ [44] ++ es ++ r := by
      rw [h.text]
      simp only [List.append_assoc, List.cons_append, List.nil_append]
    -- the newline comes after the second number
    have hne : r ≠ [] := by
      rintro rfl
      rw [htext, List.append_nil, hasNewline_command h.first h.second] at hline
      exact nomatch hline
    rw [h.text, parseArguments_plain h.first h.second hne h.ends h.first_fits h.second_fits]
      at hparse
    have hcommand := Option.some.inj hparse
    refine ⟨ds, es, r, htext, hasNewline_command h.first h.second, ?_, ?_, h.ends⟩
    · rw [← hcommand]
      exact ⟨h.first.nonempty, h.first.digits, (UInt32.toNat_ofNat_of_lt h.first_fits).symm⟩
    · rw [← hcommand]
      exact ⟨h.second.nonempty, h.second.digits, (UInt32.toNat_ofNat_of_lt h.second_fits).symm⟩

/-- `"1,2\n"` behind the prefix is strict, and the command found is spelled there. -/
theorem checkForCommandInString_sound_plain :
    Strict (seekCmdPrefix ++ [49, 44, 50, 10]) [44, 51] ∧
      ∃ ds es r, Spells (seekCmdPrefix ++ [49, 44, 50, 10]) ⟨1, 2⟩ ds es r := by
  have hstrict : Strict (seekCmdPrefix ++ [49, 44, 50, 10]) [44, 51] := by
    intro rest hrest _ _ _ _
    rw [← List.append_cancel_left hrest]
    exact ⟨by decide, by decide, by decide, by decide, by decide⟩
  exact ⟨hstrict, (checkForCommandInString_sound_iff (by decide +kernel) [44, 51]).mpr hstrict
    ⟨1, 2⟩ (by decide +kernel)⟩

/-- `"4294967296,7\n"` behind the prefix: the first number is `2^32`. -/
def wideCommand : List UInt8 :=
  seekCmdPrefix ++ [52, 50, 57, 52, 57, 54, 55, 50, 57, 54, 44, 55, 10]

/-- `"5\n"` behind the prefix, and a second line `"a,7\n"`. -/
def twoLines : List UInt8 := seekCmdPrefix ++ [53, 10, 97, 44, 55, 10]

/-- **COMMANDS THAT NOBODY SPELLED**: `2^32` is stored as 0, and the number of the
    first line is joined with one behind a comma in the second. -/
theorem checkForCommandInString_unsound :
    (hasNewline wideCommand = true ∧
      checkForCommandInString (some wideCommand) wideCommand.length [] = some ⟨0, 7⟩ ∧
      ¬ ∃ ds es r, Spells wideCommand ⟨0, 7⟩ ds es r) ∧
    (hasNewline twoLines = true ∧
      checkForCommandInString (some twoLines) twoLines.length [] = some ⟨5, 7⟩ ∧
      ¬ ∃ ds es r, Spells twoLines ⟨5, 7⟩ ds es r) := by
  refine ⟨⟨by decide +kernel, by decide +kernel, ?_⟩, by decide +kernel, by decide +kernel, ?_⟩
  · rintro ⟨ds, es, r, h⟩
    exact absurd h.plain.first_fits (by decide +kernel)
  · rintro ⟨ds, es, r, h⟩
    exact absurd h.plain.comma (by decide +kernel)

/-- **THE PARSER IS COMPLETE**: digits of a value below `2^32`, a comma, such digits
    again and something that is no digit are found as exactly that command, whatever
    follows the buffer. -/
theorem checkForCommandInString_complete {ds es r : List UInt8} {x y : Nat}
    (hds : IsDecimal ds x) (hes : IsDecimal es y) (hx : x < 2 ^ 32) (hy : y < 2 ^ 32)
    (hne : r ≠ []) (hr : Stops isdigit r) (after : List UInt8) :
    ∃ command, checkForCommandInString (some (seekCmdPrefix ++ ds ++ [44] ++ es ++ r))
        (seekCmdPrefix ++ ds ++ [44] ++ es ++ r).length after = some command ∧
      command.writeCmd.toNat = x ∧ command.writeCmdOffset.toNat = y := by
  have htext : seekCmdPrefix ++ ds ++ [44] ++ es ++ r
      = seekCmdPrefix ++ (ds ++ 44 :: (es ++ r)) := by
    simp only [List.append_assoc, List.cons_append, List.nil_append]
  rw [htext, checkForCommandInString_behind, parseArguments_plain hds hes hne hr hx hy]
  exact ⟨_, rfl, UInt32.toNat_ofNat_of_lt hx, UInt32.toNat_ofNat_of_lt hy⟩

/-- `"007,12"` and then a second comma, a `NUL` and a second command. -/
theorem checkForCommandInString_complete_zeros :
    ∃ command, checkForCommandInString (some (seekCmdPrefix ++ [48, 48, 55] ++ [44] ++ [49, 50]
        ++ (44 :: 0 :: seekCmdPrefix))) (seekCmdPrefix ++ [48, 48, 55] ++ [44] ++ [49, 50]
        ++ (44 :: 0 :: seekCmdPrefix)).length [49] = some command ∧
      command.writeCmd.toNat = 7 ∧ command.writeCmdOffset.toNat = 12 :=
  checkForCommandInString_complete ⟨by decide, by decide +kernel, by decide⟩
    ⟨by decide, by decide +kernel, by decide⟩ (by decide) (by decide) (List.cons_ne_nil _ _)
    (stops_comma _) [49]

end AesdCommandGrammar
