import DynamicAmm.RustClient.ExecutionTrace

/-!
# What the client reads off a line

A line that the runtime writes is one blank separated text, so the two patterns can only match at its
words. The lines about programs are read as they are meant, with one exception: an id of fewer than 43
characters does not fill the window it is read from. The text of a program's own log line, and a base64
text that starts like the word for success, are taken for lines about programs.
-/

namespace DynamicAmm.RustClient

open Pattern
open Program (Bytes)

/-- What the packages promise. -/
structure LogLibraries.Lawful (libraries : LogLibraries) : Prop where
  isDigit : ∀ c : Char, c.isDigit = true → libraries.isDigit c = true
  base64Decode : ∀ bytes, libraries.base64Decode (Base64.encode bytes) = some bytes

variable {libraries : LogLibraries}

/-! ### The two patterns -/

def opensProgram (libraries : LogLibraries) (line : List Char) : Bool :=
  isMatch (programStartPattern libraries) line

def closesProgram (line : List Char) : Bool := isMatch programEndPattern line

theorem chars_bracket : chars "]" = [']'] := by simp [chars]

theorem chars_invoke : chars " invoke [" = ' ' :: chars "invoke [" := by simp [chars]

theorem chars_success : chars " success" = ' ' :: chars "success" := by simp [chars]

theorem blank_mem_program (before skipped : List Char) : ' ' ∈ before ++ (chars "Program " ++ skipped) := by
  simp [chars]

theorem matches_anyCharacter {pattern : List Piece} {s : List Char} :
    Matches (anyCharacter :: pattern) s ↔
      ∃ skipped rest, s = skipped ++ rest ∧ '\n' ∉ skipped ∧ Matches pattern rest := by
  simp only [anyCharacter, Matches, bne_iff_ne, ne_eq]
  have hnot : ∀ skipped : List Char, (∀ c ∈ skipped, ¬ c = '\n') ↔ '\n' ∉ skipped := fun skipped =>
    ⟨fun h hmem => h _ hmem rfl, fun h c hc heq => h (heq ▸ hc)⟩
  simp only [hnot]

theorem isMatch_programEndPattern {s : List Char} :
    isMatch programEndPattern s = true ↔ ∃ before skipped after, '\n' ∉ skipped ∧
      s = before ++ (chars "Program " ++ (skipped ++ (chars " success" ++ after))) := by
  simp only [isMatch_iff, programEndPattern, matches_literal, matches_anyCharacter, Matches]
  constructor
  · rintro ⟨before, _, after, rfl, _, rfl, skipped, _, rfl, hline, _, rfl, rfl⟩
    refine ⟨before, skipped, after, hline, ?_⟩
    simp only [List.append_assoc, List.append_nil]
  · rintro ⟨before, skipped, after, hline, rfl⟩
    refine ⟨before, _, after, ?_, _, rfl, skipped, _, rfl, hline, [], rfl, rfl⟩
    simp only [List.append_assoc, List.append_nil]

theorem isMatch_programStartPattern {s : List Char} :
    isMatch (programStartPattern libraries) s = true ↔ ∃ before skipped digit after, '\n' ∉ skipped ∧
      libraries.isDigit digit = true ∧ s = before ++ (chars "Program " ++ (skipped ++
        (chars " invoke [" ++ digit :: (chars "]" ++ after)))) := by
  simp only [isMatch_iff, programStartPattern, matches_literal, matches_anyCharacter, Matches]
  constructor
  · rintro ⟨before, _, after, rfl, _, rfl, skipped, _, rfl, hline, _, rfl, digit, _, rfl, hdigit, _, rfl, rfl⟩
    refine ⟨before, skipped, digit, after, hline, hdigit, ?_⟩
    simp only [List.append_assoc, List.cons_append, List.append_nil]
  · rintro ⟨before, skipped, digit, after, hline, hdigit, rfl⟩
    refine ⟨before, _, after, ?_, _, rfl, skipped, _, rfl, hline, _, rfl, digit, _, rfl, hdigit, [], rfl,
      rfl⟩
    simp only [List.append_assoc, List.cons_append, List.append_nil]

/-- Where the end pattern matches, a word after the second starts with the word for success. -/
theorem success_of_isMatch {s : List Char} (h : isMatch programEndPattern s = true) :
    ∃ word ∈ (wordStarts s).tail, chars "success" <+: word := by
  obtain ⟨before, skipped, after, -, rfl⟩ := isMatch_programEndPattern.mp h
  refine ⟨chars "success" ++ after, ?_, List.prefix_append ..⟩
  have hword := mem_tail_wordStarts (t := chars "success" ++ after) (blank_mem_program before skipped)
  rwa [List.append_assoc, List.append_assoc, ← List.cons_append, ← chars_success] at hword

theorem invoke_of_isMatch {s : List Char} (h : isMatch (programStartPattern libraries) s = true) :
    ∃ word ∈ (wordStarts s).tail, chars "invoke [" <+: word := by
  obtain ⟨before, skipped, digit, after, -, -, rfl⟩ := isMatch_programStartPattern.mp h
  refine ⟨chars "invoke [" ++ digit :: (chars "]" ++ after), ?_, List.prefix_append ..⟩
  have hword := mem_tail_wordStarts (t := chars "invoke [" ++ digit :: (chars "]" ++ after))
    (blank_mem_program before skipped)
  rwa [List.append_assoc, List.append_assoc, ← List.cons_append, ← chars_invoke] at hword

/-! ### Characters of the rendered words -/

theorem ProgramId.not_mem (program : ProgramId) {c : Char} (hc : c ∉ base58Alphabet) : c ∉ program.chars :=
  fun h => hc (program.base58 c h)

theorem ProgramId.blank_not_mem (program : ProgramId) : ' ' ∉ program.chars := program.not_mem (by decide)

theorem blank_not_mem_encode (bytes : Bytes) : ' ' ∉ Base64.encode bytes := by
  intro h
  rcases Base64.mem_encode h with h | h
  · exact absurd h (by decide)
  · exact absurd h (by decide)

theorem blank_not_mem_toDigits (n : Nat) : ' ' ∉ Nat.toDigits 10 n := by
  intro h
  have := Nat.isDigit_of_mem_toDigits (by decide) (by decide) h
  exact absurd this (by decide)

/-- A number does not start with a letter. -/
theorem not_prefix_toDigits {c : Char} {s t : List Char} {n : Nat} (hc : c.isDigit = false) :
    ¬ c :: s <+: Nat.toDigits 10 n ++ t := by
  intro h
  cases hdigits : Nat.toDigits 10 n with
  | nil => exact absurd hdigits Nat.toDigits_ne_nil
  | cons d digits =>
      rw [hdigits, List.cons_append, List.cons_prefix_cons] at h
      have hmem : c ∈ Nat.toDigits 10 n := by
        rw [hdigits, h.1]
        exact List.mem_cons_self ..
      rw [Nat.isDigit_of_mem_toDigits (by decide) (by decide) hmem] at hc
      cases hc

/-! ### The lines of the runtime -/

theorem wordStarts_program (s : List Char) : wordStarts (chars "Program " ++ s) = s :: wordStarts s := rfl

theorem wordStarts_invoke (s : List Char) :
    wordStarts (chars " invoke [" ++ s) = (chars "invoke [" ++ s) :: ('[' :: s) :: wordStarts s := rfl

theorem wordStarts_success : wordStarts (chars " success") = [chars "success"] := rfl

theorem wordStarts_consumed (s : List Char) :
    wordStarts (chars " consumed " ++ s) = (chars "consumed " ++ s) :: s :: wordStarts s := rfl

theorem wordStarts_of (s : List Char) :
    wordStarts (chars " of " ++ s) = (chars "of " ++ s) :: s :: wordStarts s := rfl

theorem wordStarts_computeUnits :
    wordStarts (chars " compute units") = [chars "compute units", chars "units"] := rfl

theorem wordStarts_invokeLine (program : ProgramId) {depth : Nat} (hdepth : depth ≤ 9) :
    (wordStarts (invokeLine program depth)).tail =
      [chars "invoke [" ++ Nat.digitChar depth :: chars "]", '[' :: Nat.digitChar depth :: chars "]"] := by
  have hdigit : Nat.digitChar depth ≠ ' ' := by
    intro h
    have := Nat.isDigit_digitChar (n := depth)
    rw [h, decide_eq_true (by omega : depth < 10)] at this
    exact absurd this (by decide)
  have hbracket : ' ' ∉ Nat.digitChar depth :: chars "]" := by
    simp [chars_bracket, hdigit.symm]
  rw [invokeLine, wordStarts_program, List.tail_cons, wordStarts_word program.blank_not_mem,
    wordStarts_invoke, wordStarts_eq_nil hbracket]

theorem wordStarts_successLine (program : ProgramId) :
    (wordStarts (successLine program)).tail = [chars "success"] := by
  rw [successLine, wordStarts_program, List.tail_cons, wordStarts_word program.blank_not_mem,
    wordStarts_success]

theorem wordStarts_consumedLine (program : ProgramId) (units limit : Nat) :
    (wordStarts (consumedLine program units limit)).tail =
      [chars "consumed " ++ (Nat.toDigits 10 units ++ (chars " of " ++
          (Nat.toDigits 10 limit ++ chars " compute units"))),
        Nat.toDigits 10 units ++ (chars " of " ++ (Nat.toDigits 10 limit ++ chars " compute units")),
        chars "of " ++ (Nat.toDigits 10 limit ++ chars " compute units"),
        Nat.toDigits 10 limit ++ chars " compute units", chars "compute units", chars "units"] := by
  rw [consumedLine, wordStarts_program, List.tail_cons, wordStarts_word program.blank_not_mem,
    wordStarts_consumed, wordStarts_word (blank_not_mem_toDigits units), wordStarts_of,
    wordStarts_word (blank_not_mem_toDigits limit), wordStarts_computeUnits]

theorem wordStarts_dataLine (bytes : Bytes) :
    (wordStarts (dataLine bytes)).tail = [Base64.encode bytes] := by
  have hwords : ∀ s : List Char, wordStarts (chars "Program data: " ++ s) =
      (chars "data: " ++ s) :: s :: wordStarts s := fun _ => rfl
  rw [dataLine, hwords, List.tail_cons, wordStarts_eq_nil (blank_not_mem_encode bytes)]

variable (stack : List (List Char))

theorem executionStack_invokeLine (hlawful : libraries.Lawful) (program : ProgramId) {depth : Nat}
    (hdepth : depth ≤ 9) :
    executionStack libraries stack (invokeLine program depth) =
      parsedProgramId (invokeLine program depth) :: stack := by
  have hstart : isMatch (programStartPattern libraries) (invokeLine program depth) = true := by
    refine isMatch_programStartPattern.mpr ⟨[], program.chars, Nat.digitChar depth, [], ?_, ?_, rfl⟩
    · exact program.not_mem (by decide)
    · apply hlawful.isDigit
      rw [Nat.isDigit_digitChar]
      exact decide_eq_true (by omega)
  have hend : isMatch programEndPattern (invokeLine program depth) = false := by
    refine Bool.eq_false_iff.mpr fun h => ?_
    obtain ⟨word, hword, hstarts⟩ := success_of_isMatch h
    rw [wordStarts_invokeLine program hdepth] at hword
    simp only [List.mem_cons, List.not_mem_nil, or_false] at hword
    rcases hword with rfl | rfl <;> simp [chars] at hstarts
  simp only [executionStack, hstart, hend, if_true, Bool.false_eq_true, if_false]

theorem executionStack_successLine (program : ProgramId) :
    executionStack libraries stack (successLine program) = stack.tail := by
  have hstart : isMatch (programStartPattern libraries) (successLine program) = false := by
    refine Bool.eq_false_iff.mpr fun h => ?_
    obtain ⟨word, hword, hstarts⟩ := invoke_of_isMatch h
    rw [wordStarts_successLine program] at hword
    simp only [List.mem_cons, List.not_mem_nil, or_false] at hword
    subst hword
    simp [chars] at hstarts
  have hend : isMatch programEndPattern (successLine program) = true := by
    refine isMatch_programEndPattern.mpr ⟨[], program.chars, [], ?_, rfl⟩
    exact program.not_mem (by decide)
  simp only [executionStack, hstart, hend, if_true, Bool.false_eq_true, if_false]

/-- No word of the line starts with a letter other than these three. -/
theorem not_prefix_consumedLine {program : ProgramId} {units limit : Nat} {c : Char} {s word : List Char}
    (hc : c.isDigit = false ∧ c ≠ 'c' ∧ c ≠ 'o' ∧ c ≠ 'u')
    (hword : word ∈ (wordStarts (consumedLine program units limit)).tail) : ¬ c :: s <+: word := by
  obtain ⟨hdigit, hconsumed, hof, hunits⟩ := hc
  intro hstarts
  rw [wordStarts_consumedLine] at hword
  simp only [List.mem_cons, List.not_mem_nil, or_false] at hword
  rcases hword with rfl | rfl | rfl | rfl | rfl | rfl
  · exact hconsumed (List.cons_prefix_cons.mp hstarts).1
  · exact not_prefix_toDigits hdigit hstarts
  · exact hof (List.cons_prefix_cons.mp hstarts).1
  · exact not_prefix_toDigits hdigit hstarts
  · exact hconsumed (List.cons_prefix_cons.mp hstarts).1
  · exact hunits (List.cons_prefix_cons.mp hstarts).1

theorem executionStack_consumedLine (program : ProgramId) (units limit : Nat) :
    executionStack libraries stack (consumedLine program units limit) = stack := by
  have hstart : isMatch (programStartPattern libraries) (consumedLine program units limit) = false := by
    refine Bool.eq_false_iff.mpr fun h => ?_
    obtain ⟨word, hword, hstarts⟩ := invoke_of_isMatch h
    exact not_prefix_consumedLine (by decide) hword hstarts
  have hend : isMatch programEndPattern (consumedLine program units limit) = false := by
    refine Bool.eq_false_iff.mpr fun h => ?_
    obtain ⟨word, hword, hstarts⟩ := success_of_isMatch h
    exact not_prefix_consumedLine (by decide) hword hstarts
  simp only [executionStack, hstart, hend, Bool.false_eq_true, if_false]

/-! ### The lines that programs write -/

/-- A base64 text that the end pattern takes for the word for success. -/
def readsSuccess (bytes : Bytes) : Prop := chars "success" <+: Base64.encode bytes

theorem closesProgram_dataLine (bytes : Bytes) :
    closesProgram (dataLine bytes) = true ↔ readsSuccess bytes := by
  constructor
  · intro h
    obtain ⟨word, hword, hstarts⟩ := success_of_isMatch h
    rw [wordStarts_dataLine, List.mem_singleton] at hword
    rwa [hword] at hstarts
  · rintro ⟨after, hafter⟩
    refine isMatch_programEndPattern.mpr ⟨[], chars "data:", after, by decide, ?_⟩
    rw [dataLine, ← hafter]
    simp [chars]

theorem opensProgram_dataLine (bytes : Bytes) : opensProgram libraries (dataLine bytes) = false := by
  refine Bool.eq_false_iff.mpr fun h => ?_
  obtain ⟨word, hword, hstarts⟩ := invoke_of_isMatch h
  rw [wordStarts_dataLine, List.mem_singleton] at hword
  subst hword
  exact blank_not_mem_encode bytes (hstarts.subset (by decide))

theorem executionStack_dataLine (bytes : Bytes) :
    executionStack libraries stack (dataLine bytes) =
      if closesProgram (dataLine bytes) then stack.tail else stack := by
  have hstart : isMatch (programStartPattern libraries) (dataLine bytes) = false := opensProgram_dataLine bytes
  simp only [executionStack, hstart, Bool.false_eq_true, if_false]
  rfl

/-! ### The window for the id -/

theorem rdropWhile_append_cons {p : Char → Bool} {c : Char} (hc : p c = false) (s t : List Char) :
    (s ++ c :: t).rdropWhile p = s ++ c :: t.rdropWhile p := by
  induction t using List.reverseRecOn with
  | nil => rw [List.rdropWhile_concat_neg _ _ _ (by simp [hc]), List.rdropWhile_nil]
  | append_singleton t d ih =>
      rw [← List.cons_append, ← List.append_assoc]
      by_cases hd : p d = true
      · rw [List.rdropWhile_concat_pos _ _ _ hd, List.rdropWhile_concat_pos _ _ _ hd, ih]
      · rw [List.rdropWhile_concat_neg _ _ _ hd, List.rdropWhile_concat_neg _ _ _ hd]
        simp only [List.append_assoc, List.cons_append]

/-- Trimming leaves what lies between two characters that are no white space. -/
theorem trim_cons {c d : Char} (hc : isWhitespace c = false) (hd : isWhitespace d = false)
    (s t : List Char) : trim (c :: (s ++ d :: t)) = c :: (s ++ d :: t.rdropWhile isWhitespace) := by
  rw [trim, List.dropWhile_cons_of_neg (by simp [hc]), ← List.cons_append, rdropWhile_append_cons hd,
    List.cons_append]

theorem isWhitespace_of_mem {c : Char} (hc : c ∈ base58Alphabet) : isWhitespace c = false := by
  have hrange : ∀ c ∈ base58Alphabet, '!' ≤ c ∧ c ≤ '~' := by simp [base58Alphabet, chars]
  obtain ⟨hlow, hhigh⟩ := hrange c hc
  refine Bool.eq_false_iff.mpr fun h => ?_
  simp only [isWhitespace, Bool.or_eq_true, Bool.and_eq_true, decide_eq_true_eq] at h
  have hbelow : ∀ {d : Char}, d < '!' → ¬ c ≤ d := fun hd hcd => absurd (hlow.trans hcd) (not_le.mpr hd)
  have habove : ∀ {d : Char}, '~' < d → ¬ d ≤ c := fun hd hdc => absurd (hdc.trans hhigh) (not_le.mpr hd)
  rcases h with ((((((((((h | h) | h) | h) | h) | h) | h) | h) | h) | h) | h)
  · exact hbelow (by decide) h.2
  · exact hbelow (by decide) h.le
  · exact habove (by decide) h.ge
  · exact habove (by decide) h.ge
  · exact habove (by decide) h.ge
  · exact habove (by decide) h.1
  all_goals exact habove (by decide) h.ge

theorem ProgramId.exists_ends (program : ProgramId) :
    ∃ c s d, program.chars = c :: (s ++ [d]) ∧ isWhitespace c = false ∧ isWhitespace d = false := by
  have hlength := program.le_length
  cases hchars : program.chars with
  | nil => simp [hchars] at hlength
  | cons c rest =>
      rcases List.eq_nil_or_concat rest with rfl | ⟨s, d, rfl⟩
      · simp [hchars] at hlength
      · have hbase58 := program.base58
        rw [hchars, List.concat_eq_append] at hbase58
        exact ⟨c, s, d, by rw [List.concat_eq_append], isWhitespace_of_mem (hbase58 c (by simp)),
          isWhitespace_of_mem (hbase58 d (by simp))⟩

theorem ProgramId.trim_append (program : ProgramId) {blank : List Char}
    (hblank : ∀ c ∈ blank, isWhitespace c = true) : trim (program.chars ++ blank) = program.chars := by
  obtain ⟨c, s, d, hchars, hc, hd⟩ := program.exists_ends
  have hnil : blank.rdropWhile isWhitespace = [] := List.rdropWhile_eq_nil_iff.mpr hblank
  rw [hchars, List.cons_append, List.append_assoc, List.singleton_append, trim_cons hc hd, hnil]

/-- The window is the id exactly when the id has 43 characters at least. -/
theorem parsedProgramId_invokeLine {program programId : ProgramId} {depth : Nat} :
    parsedProgramId (invokeLine program depth) = programId.chars ↔
      program = programId ∧ 43 ≤ program.chars.length := by
  generalize hrest : Nat.digitChar depth :: chars "]" = rest
  have hwindow : parsedProgramId (invokeLine program depth) =
      trim (program.chars ++ (' ' :: 'i' :: (chars "nvoke [" ++ rest)).take (44 - program.chars.length)) := by
    have hdrop : (invokeLine program depth).drop 8 =
        program.chars ++ (' ' :: 'i' :: (chars "nvoke [" ++ rest)) := by
      rw [invokeLine, hrest]
      rfl
    rw [parsedProgramId, hdrop, List.take_append, List.take_of_length_le program.length_le]
  have hext : ∀ {p q : ProgramId}, p.chars = q.chars ↔ p = q := by
    rintro ⟨p, _, _, _⟩ ⟨q, _, _, _⟩
    rw [ProgramId.mk.injEq]
  rw [hwindow]
  have hle := program.length_le
  rcases (by omega : program.chars.length = 44 ∨ program.chars.length = 43 ∨ program.chars.length ≤ 42) with
    h | h | h
  · rw [h, program.trim_append (by simp), hext]
    exact (and_iff_left (by omega)).symm
  · rw [h, program.trim_append (by simp [isWhitespace]), hext]
    exact (and_iff_left (by omega)).symm
  · -- The window reaches into the next word, so a blank stays inside it.
    refine iff_of_false ?_ (by omega)
    obtain ⟨k, hk⟩ : ∃ k, 44 - program.chars.length = k + 2 := ⟨42 - program.chars.length, by omega⟩
    obtain ⟨c, s, d, hchars, hc, -⟩ := program.exists_ends
    rw [hk, List.take_succ_cons, List.take_succ_cons, hchars]
    have hsplit : c :: (s ++ [d]) ++ ' ' :: 'i' :: (chars "nvoke [" ++ rest).take k =
        c :: ((s ++ [d, ' ']) ++ 'i' :: (chars "nvoke [" ++ rest).take k) := by
      simp
    rw [hsplit, trim_cons hc (by decide)]
    intro heq
    apply programId.blank_not_mem
    rw [← heq]
    simp

theorem parsedProgramId_logLine (programId : ProgramId) (text : List Char) :
    parsedProgramId (logLine text) ≠ programId.chars := by
  have hwindow : parsedProgramId (logLine text) = trim ('l' :: (['o', 'g'] ++ ':' :: (' ' :: text).take 40)) :=
    rfl
  rw [hwindow, trim_cons (by decide) (by decide)]
  intro heq
  apply programId.not_mem (c := ':') (by decide)
  rw [← heq]
  simp

end DynamicAmm.RustClient
