import Aesd.CommandParserProofs

/-! # What the seek-command parser reads

    The buffer that is handed to `checkForCommandInString` has no terminator, and
    every scan stops only at what it looks for, at a byte that is no part of a
    number, or at a `NUL`.  `checkForCommandReads` follows the parser branch by
    branch and counts how far its scans look.

    The newline that the caller has found does not help: it is one of the blanks
    that `strtoul` skips, and `strstr` passes over it.  Whether the scans stay
    inside the buffer is a question about the buffer alone (`Inside`): each scan
    that is made has to leave something of it. -/

namespace AesdCommandReads

open AesdMachine AesdDriver AesdCommand Scanner

/-! ## How far the scans look -/

/-- The bytes of `s` that `strncmp(s, t, n)` looks at. -/
def strncmpReach (s t : List UInt8) : Nat → Nat
  | 0 => 0
  | n + 1 =>
      if s.headD 0 = t.headD 0 then
        if s.headD 0 = 0 then 1 else strncmpReach s.tail t.tail n + 1
      else 1

/-- The bytes looked at in order to compare a string with the needle. -/
def matchReach : List UInt8 → List UInt8 → Nat
  | [], _ => 0
  | _ :: _, [] => 1
  | n :: ns, c :: cs => if n = c then matchReach ns cs + 1 else 1

/-- The bytes that `strstr(haystack, needle)` looks at, place by place up to the
    first match or the end of the string. -/
def strstrReach (needle : List UInt8) : List UInt8 → Nat
  | [] => matchReach needle []
  | c :: cs =>
      if needle.isPrefixOf (c :: cs) then matchReach needle (c :: cs)
      else if c = 0 then matchReach needle (c :: cs)
      else max (matchReach needle (c :: cs)) (strstrReach needle cs + 1)

/-- The bytes that `strtoul` looks at: blanks, sign, digits and the byte after
    them. -/
def strtoulReach (s : List UInt8) : Nat := reach skipNumber s

/-- One past the last byte that `checkForCommandInString` looks at, in the branch
    it takes. -/
def checkForCommandReads (buffer : Option (List UInt8)) (size : Nat) (after : List UInt8) : Nat :=
  match buffer with
  | none => 0
  | some bytes =>
      let memory := bytes.take size ++ after
      let prefixLen := seekCmdPrefix.length
      if size = 0 then 0
      else if size < prefixLen then 0
      else if strncmp memory seekCmdPrefix prefixLen ≠ 0 then
        strncmpReach memory seekCmdPrefix prefixLen
      else
        let searched := max (strncmpReach memory seekCmdPrefix prefixLen)
          (strstrReach seekCmdPrefix memory)
        match strstr seekCmdPrefix memory with
        | none => searched
        | some cmdPosition =>
            let firstArg := cmdPosition + prefixLen
            let converted := max searched (firstArg + strtoulReach (memory.drop firstArg))
            if (strtoul (memory.drop firstArg)).2 = 0 then converted
            else
              let found := max converted (strstrReach [44] memory)
              match strstr [44] memory with
              | none => found
              | some comma =>
                  max found (comma + 1 + strtoulReach (memory.drop (comma + 1)))

/-- The same, counted from the end of the prefix. -/
def argumentsReach (tail : List UInt8) : Nat :=
  if (strtoul tail).2 = 0 then strtoulReach tail
  else
    match strstr [44] tail with
    | none => max (strtoulReach tail) (strstrReach [44] tail)
    | some comma =>
        max (max (strtoulReach tail) (strstrReach [44] tail))
          (comma + 1 + strtoulReach (tail.drop (comma + 1)))

/-! ## Staying inside the buffer -/

/-- No scan leaves the buffer, and what follows it makes no difference. -/
structure DependsOnBuffer (bytes : List UInt8) : Prop where
  inside : ∀ after, checkForCommandReads (some bytes) bytes.length after ≤ bytes.length
  same   : ∀ after after', checkForCommandInString (some bytes) bytes.length after
    = checkForCommandInString (some bytes) bytes.length after'

/-- The scans of the arguments end inside the text: something is left after the
    first number; when there is one, there is a comma or a `NUL`, and after a comma
    that comes first something is left after the second number. -/
structure Inside (rest : List UInt8) : Prop where
  first  : skipNumber rest ≠ []
  comma  : hasNumber rest = true → skipToComma rest ≠ []
  second : hasNumber rest = true → ∀ u, skipToComma rest = 44 :: u → skipNumber u ≠ []

theorem strncmpReach_le : ∀ (n : Nat) (s t : List UInt8), strncmpReach s t n ≤ n := by
  intro n
  induction n with
  | zero => exact fun _ _ => Nat.le_refl 0
  | succ n ih =>
      intro s t
      have hle := ih s.tail t.tail
      rw [strncmpReach]
      split_ifs
      · omega
      · omega
      · omega

theorem matchReach_append (needle s : List UInt8) :
    matchReach needle (needle ++ s) = needle.length := by
  induction needle with
  | nil => rfl
  | cons n ns ih =>
      rw [List.cons_append, matchReach, if_pos rfl, ih, List.length_cons]

/-- A needle at the start is found at once. -/
theorem strstrReach_append_self (needle s : List UInt8) :
    strstrReach needle (needle ++ s) = needle.length := by
  have hpre : needle.isPrefixOf (needle ++ s) = true :=
    List.isPrefixOf_iff_prefix.mpr (List.prefix_append needle s)
  have hmatch := matchReach_append needle s
  generalize needle ++ s = text at hpre hmatch
  cases text with
  | nil => rw [strstrReach, hmatch]
  | cons c cs => rw [strstrReach, if_pos hpre, hmatch]

/-- Looking for a comma is a scanner. -/
theorem strstrReach_comma (s : List UInt8) : strstrReach [44] s = reach skipToComma s := by
  induction s with
  | nil => rfl
  | cons c cs ih =>
      have hone : matchReach [44] (c :: cs) = 1 := by
        rw [matchReach, matchReach, Nat.zero_add, ite_self]
      rw [strstrReach, hone, reach, skipToComma]
      by_cases hstop : beforeComma c = true
      · have hpair := beforeComma_iff.mp hstop
        have hpre : ¬ ([44] : List UInt8).isPrefixOf (c :: cs) = true := by
          intro h
          exact hpair.1 (List.cons_prefix_cons.mp (List.isPrefixOf_iff_prefix.mp h)).1.symm
        have hlen := (scans_skipToComma.suffix cs).length_le
        rw [if_neg hpre, if_neg hpair.2, ih, List.dropWhile_cons_of_pos hstop, reach,
          List.length_cons]
        show max 1 (cs.length - (skipToComma cs).length + 1 + 1)
          = cs.length + 1 - (skipToComma cs).length + 1
        omega
      · rw [List.dropWhile_cons_of_neg hstop, Nat.sub_self]
        rw [beforeComma_iff, not_and_or, not_not, not_not] at hstop
        rcases hstop with rfl | rfl
        · rfl
        · rfl

theorem reach_skipToComma_behind (tail : List UInt8) :
    reach skipToComma (seekCmdPrefix ++ tail) = seekCmdPrefix.length + reach skipToComma tail := by
  have hskip : skipToComma (seekCmdPrefix ++ tail) = skipToComma tail :=
    List.dropWhile_append_of_pos fun c hc => beforeComma_iff.mpr (seekCmdPrefix_class c hc)
  have hlen := (scans_skipToComma.suffix tail).length_le
  rw [reach, reach, hskip, List.length_append]
  omega

/-- Behind the prefix only the scans of the arguments count. -/
theorem checkForCommandReads_behind (rest after : List UInt8) :
    checkForCommandReads (some (seekCmdPrefix ++ rest)) (seekCmdPrefix ++ rest).length after
      = seekCmdPrefix.length + argumentsReach (rest ++ after) := by
  have hlen : (seekCmdPrefix ++ rest).length = seekCmdPrefix.length + rest.length :=
    List.length_append
  have hpos : seekCmdPrefix.length = 19 := rfl
  have hfirst := strncmpReach_le seekCmdPrefix.length (seekCmdPrefix ++ (rest ++ after))
    seekCmdPrefix
  have hreach : 0 < strtoulReach (rest ++ after) := Nat.succ_pos _
  simp only [checkForCommandReads, List.take_length, List.append_assoc]
  rw [if_neg (by omega), if_neg (by omega), if_neg (not_not.mpr (strncmp_behind _)),
    strstr_append_self, strstrReach_append_self, argumentsReach]
  simp only [Nat.zero_add, List.drop_left, strstr_comma_behind, strstrReach_comma,
    reach_skipToComma_behind]
  by_cases hzero : (strtoul (rest ++ after)).2 = 0
  · rw [if_pos hzero, if_pos hzero]
    omega
  · rw [if_neg hzero, if_neg hzero]
    cases strstr [44] (rest ++ after) with
    | none =>
        simp only [Option.map_none]
        omega
    | some comma =>
        simp only [Option.map_some, drop_behind]
        omega

/-- Without the prefix only the comparison is made. -/
theorem checkForCommandReads_le {bytes : List UInt8} (h : ¬ seekCmdPrefix <+: bytes)
    (after : List UInt8) :
    checkForCommandReads (some bytes) bytes.length after ≤ bytes.length := by
  have hreach := strncmpReach_le seekCmdPrefix.length (bytes ++ after) seekCmdPrefix
  simp only [checkForCommandReads, List.take_length]
  by_cases hzero : bytes.length = 0
  · rw [if_pos hzero]
    exact Nat.zero_le _
  · rw [if_neg hzero]
    by_cases hshort : bytes.length < seekCmdPrefix.length
    · rw [if_pos hshort]
      exact Nat.zero_le _
    · have hlen := Nat.not_lt.mp hshort
      rw [if_neg hshort, if_pos (fun hcmp => h (prefix_of_strncmp hlen hcmp))]
      exact Nat.le_trans hreach hlen

section Append

variable {s : List UInt8}

theorem skipSign_ne_nil (h : skipNumber s ≠ []) : skipSign s ≠ [] := by
  intro hnil
  rw [skipNumber, hnil] at h
  exact h rfl

/-- What follows a string does not decide whether it starts with a number. -/
theorem hasNumber_append (h : skipNumber s ≠ []) (t : List UInt8) :
    hasNumber (s ++ t) = hasNumber s := by
  have hne := skipSign_ne_nil h
  rw [hasNumber, hasNumber, scans_skipSign.stops s t hne, List.head?_append_of_ne_nil _ hne]

theorem readSign_fst_append {x : List UInt8} (h : x ≠ []) (t : List UInt8) :
    (readSign (x ++ t)).1 = (readSign x).1 := by
  obtain ⟨c, cs, rfl⟩ := List.exists_cons_of_ne_nil h
  rw [List.cons_append, readSign, readSign]
  split_ifs
  · rfl
  · rfl
  · rfl

/-- Nor which number. -/
theorem strtoul_append (h : skipNumber s ≠ []) (t : List UInt8) :
    (strtoul (s ++ t)).1 = (strtoul s).1 := by
  have hsign := skipSign_ne_nil h
  have hspace : s.dropWhile isspace ≠ [] := by
    intro hnil
    rw [skipSign, hnil] at hsign
    exact hsign rfl
  have hrest : (readSign ((s ++ t).dropWhile isspace)).2 = skipSign s ++ t := by
    rw [readSign_snd]
    exact scans_skipSign.stops s t hsign
  have hrest' : (readSign (s.dropWhile isspace)).2 = skipSign s := readSign_snd _
  have hnegative : (readSign ((s ++ t).dropWhile isspace)).1
      = (readSign (s.dropWhile isspace)).1 := by
    rw [(scans_dropWhile isspace).stops s t hspace, readSign_fst_append hspace]
  have hdigits : (skipSign s ++ t).takeWhile isdigit = (skipSign s).takeWhile isdigit :=
    takeWhile_append_of_ne_nil h t
  simp only [strtoul, hrest, hrest', hnegative, hdigits]
  split_ifs
  · rfl
  · rfl
  · rfl
  · rfl

end Append

/-- How far the scans of the arguments look, scan by scan. -/
theorem argumentsReach_le (tail : List UInt8) (n : Nat) :
    argumentsReach tail ≤ n ↔ strtoulReach tail ≤ n ∧ (hasNumber tail = true →
      reach skipToComma tail ≤ n ∧
        ∀ u, skipToComma tail = 44 :: u → tail.length - u.length + strtoulReach u ≤ n) := by
  rw [argumentsReach, ← strstrReach_comma, ← strtoul_snd_ne_zero_iff]
  by_cases hzero : (strtoul tail).2 = 0
  · rw [if_pos hzero]
    exact ⟨fun h => ⟨h, fun hne => absurd hzero hne⟩, fun h => h.1⟩
  · rw [if_neg hzero]
    by_cases hcomma : ∃ u, skipToComma tail = 44 :: u
    · obtain ⟨u, hu⟩ := hcomma
      obtain ⟨i, hi, hdrop, hlen⟩ := strstr_comma_some hu
      simp only [hi, hdrop, max_le_iff]
      constructor
      · rintro ⟨⟨hfirst, hsearch⟩, hsecond⟩
        refine ⟨hfirst, fun _ => ⟨hsearch, fun u' hu' => ?_⟩⟩
        rw [hu] at hu'
        rw [← (List.cons.inj hu').2]
        omega
      · rintro ⟨hfirst, h⟩
        obtain ⟨hsearch, hsecond⟩ := h hzero
        have hle := hsecond u hu
        exact ⟨⟨hfirst, hsearch⟩, by omega⟩
    · have hno : ∀ u, skipToComma tail ≠ 44 :: u := fun u hu => hcomma ⟨u, hu⟩
      simp only [strstr_comma_none hno, max_le_iff]
      exact ⟨fun h => ⟨h.1, fun _ => ⟨h.2, fun u hu => absurd hu (hno u)⟩⟩,
        fun h => ⟨h.1, (h.2 hzero).1⟩⟩

/-- The comma found in a text that goes on is the comma of the text. -/
theorem skipToComma_append_iff {rest : List UInt8} (h : skipToComma rest ≠ [])
    (after v : List UInt8) :
    skipToComma (rest ++ after) = 44 :: v ↔
      ∃ u, skipToComma rest = 44 :: u ∧ v = u ++ after := by
  obtain ⟨c, u, hu⟩ := List.exists_cons_of_ne_nil h
  rw [scans_skipToComma.stops rest after h, hu, List.cons_append]
  constructor
  · intro heq
    obtain ⟨hc, hv⟩ := List.cons.inj heq
    exact ⟨u, by rw [hc], hv.symm⟩
  · rintro ⟨u', hu', rfl⟩
    obtain ⟨hc, hv⟩ := List.cons.inj hu'
    rw [hc, hv]

/-- **INSIDE OR NOT**: the scans of the arguments stay inside the text exactly when
    each of them leaves something of it, whatever memory follows. -/
theorem argumentsReach_le_iff (rest after : List UInt8) :
    argumentsReach (rest ++ after) ≤ rest.length ↔ Inside rest := by
  have hnum : strtoulReach (rest ++ after) ≤ rest.length ↔ skipNumber rest ≠ [] :=
    scans_skipNumber.reach_le_iff after
  have hcomma : reach skipToComma (rest ++ after) ≤ rest.length ↔ skipToComma rest ≠ [] :=
    scans_skipToComma.reach_le_iff after
  -- the second number is looked for in a shorter text
  have hsecond : ∀ u, skipToComma rest = 44 :: u →
      ((rest ++ after).length - (u ++ after).length + strtoulReach (u ++ after) ≤ rest.length ↔
        skipNumber u ≠ []) := by
    intro u hu
    have hlen := (hu ▸ scans_skipToComma.suffix rest).length_le
    rw [List.length_cons] at hlen
    rw [← @Scans.reach_le_iff _ _ u scans_skipNumber after, strtoulReach, List.length_append,
      List.length_append]
    omega
  rw [argumentsReach_le, hnum, hcomma]
  constructor
  · rintro ⟨hfirst, hrest⟩
    rw [hasNumber_append hfirst] at hrest
    refine ⟨hfirst, fun hyes => (hrest hyes).1, fun hyes u hu => (hsecond u hu).mp ?_⟩
    obtain ⟨hne, hlast⟩ := hrest hyes
    exact hlast _ ((skipToComma_append_iff hne after _).mpr ⟨u, hu, rfl⟩)
  · intro h
    rw [hasNumber_append h.first]
    refine ⟨h.first, fun hyes => ⟨h.comma hyes, fun v hv => ?_⟩⟩
    obtain ⟨u, hu, rfl⟩ := (skipToComma_append_iff (h.comma hyes) after v).mp hv
    exact (hsecond u hu).mpr (h.second hyes u hu)

/-- Where the scans stay inside the text, the answer is read off the text. -/
theorem Inside.parseArguments_append {rest : List UInt8} (h : Inside rest)
    (after : List UInt8) : parseArguments (rest ++ after) = parseArguments rest := by
  refine Option.ext fun command => ?_
  rw [parseArguments_eq_some_iff, parseArguments_eq_some_iff, hasNumber_append h.first,
    strtoul_append h.first]
  refine and_congr_right fun hyes => ?_
  constructor
  · rintro ⟨v, hv, hnum, heq⟩
    obtain ⟨u, hu, rfl⟩ := (skipToComma_append_iff (h.comma hyes) after v).mp hv
    have hu' := h.second hyes u hu
    rw [hasNumber_append hu'] at hnum
    rw [strtoul_append hu'] at heq
    exact ⟨u, hu, hnum, heq⟩
  · rintro ⟨u, hu, hnum, heq⟩
    have hu' := h.second hyes u hu
    refine ⟨u ++ after, (skipToComma_append_iff (h.comma hyes) after _).mpr ⟨u, hu, rfl⟩, ?_, ?_⟩
    · rw [hasNumber_append hu']
      exact hnum
    · rw [strtoul_append hu']
      exact heq

/-! ## Which buffers are enough -/

/-- The buffer has no prefix, or the scans of its arguments end inside it. -/
def InBounds (bytes : List UInt8) : Prop :=
  ∀ rest, bytes = seekCmdPrefix ++ rest → Inside rest

/-- **WHEN THE PARSER DEPENDS ON ITS BUFFER ONLY**: no scan looks beyond the buffer,
    and the answer is the same whatever follows it, exactly when the buffer has no
    prefix or each scan of its arguments ends inside it. -/
theorem dependsOnBuffer_iff (bytes : List UInt8) : DependsOnBuffer bytes ↔ InBounds bytes := by
  constructor
  · rintro h rest rfl
    have hle := h.inside []
    rw [checkForCommandReads_behind, List.length_append] at hle
    exact (argumentsReach_le_iff rest []).mp (by omega)
  · intro h
    by_cases hprefix : seekCmdPrefix <+: bytes
    · obtain ⟨rest, rfl⟩ := hprefix
      have hin : Inside rest := h rest rfl
      constructor
      · intro after
        rw [checkForCommandReads_behind, List.length_append]
        exact Nat.add_le_add_left ((argumentsReach_le_iff rest after).mpr hin) _
      · intro after after'
        rw [checkForCommandInString_behind, checkForCommandInString_behind,
          hin.parseArguments_append, hin.parseArguments_append]
    · exact ⟨fun after => checkForCommandReads_le hprefix after,
        fun after after' => by
          rw [checkForCommandInString_eq_none hprefix, checkForCommandInString_eq_none hprefix]⟩

/-- `"1\n"` behind the prefix: a number and no comma. -/
def noComma : List UInt8 := seekCmdPrefix ++ [49, 10]

/-- **A COMMA BEHIND THE BUFFER**: the buffer has its newline and holds no command,
    the search for the comma leaves it, and with `",2"` behind it the parser finds
    the command `1,2`. -/
theorem checkForCommandInString_beyond :
    hasNewline noComma = true ∧
      checkForCommandReads (some noComma) noComma.length [44, 50] = noComma.length + 3 ∧
      checkForCommandInString (some noComma) noComma.length [] = none ∧
      checkForCommandInString (some noComma) noComma.length [44, 50] = some ⟨1, 2⟩ ∧
      ¬ DependsOnBuffer noComma := by
  have hnone : checkForCommandInString (some noComma) noComma.length [] = none := by
    decide +kernel
  have hsome : checkForCommandInString (some noComma) noComma.length [44, 50] = some ⟨1, 2⟩ := by
    decide +kernel
  refine ⟨by decide +kernel, by decide +kernel, hnone, hsome, ?_⟩
  intro h
  have hsame := h.same [] [44, 50]
  rw [hnone, hsome] at hsame
  exact nomatch hsame

end AesdCommandReads
