import DynamicAmm.Base.Brackets
import DynamicAmm.Proof.Log.Lines

/-!
# Attribution of events

The stack that the client rebuilds follows the running programs as long as no program writes a line that
looks like one of the runtime's, and also when one does while the program that is searched for does not run. Such a
trace is read rightly. The texts and the data of any other trace can be logged in an order that is misread.
-/

namespace DynamicAmm.RustClient

open Pattern
open Program (Bytes)

variable {T : Type} {libraries : LogLibraries} {event : EventType T} {programId : ProgramId}
  {texts : Set (List Char)} {payloads : Set Bytes} {stack : List ProgramId}

/-! ### Reading one line -/

theorem data_ne_start (program : ProgramId) (s : List Char) :
    (chars "Program data:").isPrefixOf (chars "Program " ++ (program.chars ++ s)) = false := by
  refine Bool.eq_false_iff.mpr fun h => ?_
  have hdata : chars "data:" <+: program.chars ++ s := List.isPrefixOf_iff_prefix.mp h
  have hstarts : chars "data:" <+: program.chars := by
    apply List.prefix_of_prefix_length_le hdata (List.prefix_append ..)
    have := program.le_length
    have hlength : (chars "data:").length = 5 := rfl
    omega
  exact program.not_mem (c := ':') (by decide) (hstarts.subset (by decide))

variable (libraries event programId) (codeStack : List (List Char)) (logs : List (List Char))

theorem parseEventLogFrom_skip {log : List Char} (h : (chars "Program data:").isPrefixOf log = false) :
    parseEventLogFrom libraries event programId.chars codeStack (log :: logs) =
      parseEventLogFrom libraries event programId.chars (executionStack libraries codeStack log) logs := by
  simp only [parseEventLogFrom, h, Bool.false_eq_true, if_false]

theorem parseEventLogFrom_logLine (text : List Char) :
    parseEventLogFrom libraries event programId.chars codeStack (logLine text :: logs) =
      parseEventLogFrom libraries event programId.chars
        (executionStack libraries codeStack (logLine text)) logs :=
  parseEventLogFrom_skip libraries event programId codeStack logs rfl

theorem parseEventLogFrom_invokeLine (hlawful : libraries.Lawful) (program : ProgramId) {depth : Nat}
    (hdepth : depth ≤ 9) :
    parseEventLogFrom libraries event programId.chars codeStack (invokeLine program depth :: logs) =
      parseEventLogFrom libraries event programId.chars
        (parsedProgramId (invokeLine program depth) :: codeStack) logs := by
  rw [← executionStack_invokeLine codeStack hlawful program hdepth]
  exact parseEventLogFrom_skip _ _ _ _ _ (data_ne_start program _)

theorem parseEventLogFrom_consumedLine (program : ProgramId) (units limit : Nat) :
    parseEventLogFrom libraries event programId.chars codeStack (consumedLine program units limit :: logs) =
      parseEventLogFrom libraries event programId.chars codeStack logs := by
  have hstack : executionStack libraries codeStack (consumedLine program units limit) = codeStack :=
    executionStack_consumedLine codeStack program units limit
  nth_rewrite 2 [← hstack]
  exact parseEventLogFrom_skip _ _ _ _ _ (data_ne_start program _)

theorem parseEventLogFrom_successLine (program : ProgramId) :
    parseEventLogFrom libraries event programId.chars codeStack (successLine program :: logs) =
      parseEventLogFrom libraries event programId.chars codeStack.tail logs := by
  have hstack : executionStack libraries codeStack (successLine program) = codeStack.tail :=
    executionStack_successLine codeStack program
  rw [← hstack]
  exact parseEventLogFrom_skip _ _ _ _ _ (data_ne_start program _)

/-- The stack that a data line is read under. -/
def stackAt (codeStack : List (List Char)) (bytes : Bytes) : List (List Char) :=
  if closesProgram (dataLine bytes) then codeStack.tail else codeStack

theorem parseEventLogFrom_dataLine (hlawful : libraries.Lawful) (bytes : Bytes) :
    parseEventLogFrom libraries event programId.chars codeStack (dataLine bytes :: logs) =
      if stackAt codeStack bytes = [] then .ok none
      else if (stackAt codeStack bytes).head? = some programId.chars then
        if bytes.length < 8 then .panic
        else if bytes.take 8 = event.discriminator then .ok (event.tryFromSlice (bytes.drop 8))
        else parseEventLogFrom libraries event programId.chars (stackAt codeStack bytes) logs
      else parseEventLogFrom libraries event programId.chars (stackAt codeStack bytes) logs := by
  have hdata : (chars "Program data:").isPrefixOf (dataLine bytes) = true := rfl
  have hdrop : (dataLine bytes).drop 14 = Base64.encode bytes := rfl
  have hstack : executionStack libraries codeStack (dataLine bytes) = stackAt codeStack bytes :=
    executionStack_dataLine codeStack bytes
  simp only [parseEventLogFrom, hdata, if_true, hdrop, hlawful.base64Decode, hstack]
  cases stackAt codeStack bytes with
  | nil => rfl
  | cons top rest => simp only [List.cons_ne_nil, if_false, List.head?_cons, Option.some.injEq]

/-! ### Traces that are read rightly -/

variable (stack) in
/-- What a line that a program writes does to the texts on the stack: nothing, or it adds one to those that
stand for no running program, or removes one, while the program that is searched for does not run. -/
def Shifts (line : List Char) (n m : Nat) : Prop :=
  opensProgram libraries line = closesProgram line ∧ m = n ∨
    programId ∉ stack ∧ (opensProgram libraries line = true ∧ closesProgram line = false ∧ m = n + 1 ∨
      opensProgram libraries line = false ∧ closesProgram line = true ∧ n = m + 1)

/-- Until the program has logged the event, every line that programs write shifts the stack harmlessly, and the data
that the program itself logs has a discriminator. -/
def Trace.Quiet : {stack : List ProgramId} → Nat → Trace stack → Prop
  | _, _, done => True
  | _, n, invoke _ _ rest => rest.Quiet n
  | program :: stack, n, log text rest =>
      ∃ m, Shifts libraries programId (program :: stack) (logLine text) n m ∧ rest.Quiet m
  | program :: stack, n, data bytes rest =>
      ∃ m, Shifts libraries programId (program :: stack) (dataLine bytes) n m ∧
        (program = programId → 8 ≤ bytes.length) ∧ (¬ (program = programId ∧ event.Carries bytes) → rest.Quiet m)
  | _, n, consumed _ _ rest => rest.Quiet n
  | _, n, success rest => rest.Quiet n

/-- The trace is quiet, or none of its data has an event or is too short for one. An id that does not fill
the window is never found, so under it there may be no event. -/
def Trace.Readable (trace : Trace stack) : Prop :=
  if 43 ≤ programId.chars.length then
    trace.Quiet libraries event programId 0 ∨
      trace.Over Set.univ
        {bytes | 8 ≤ bytes.length ∧ (event.Carries bytes → event.tryFromSlice (bytes.drop 8) = none)}
  else trace.firstEvent event programId = none

variable {libraries event programId codeStack}

/-- The stack of texts stands for the running programs, and at most texts of other programs' lines lie below. -/
def Follows (programId : ProgramId) (stack : List ProgramId) (codeStack : List (List Char)) (n : Nat) : Prop :=
  codeStack.map (fun text => decide (text = programId.chars)) =
    stack.map (fun program => decide (program = programId)) ++ List.replicate n false

theorem Follows.push {n : Nat} (h : Follows programId stack codeStack n) {program : ProgramId} {text : List Char}
    (htext : text = programId.chars ↔ program = programId) :
    Follows programId (program :: stack) (text :: codeStack) n := by
  rw [Follows, List.map_cons, List.map_cons, List.cons_append, h, decide_eq_decide.mpr htext]

theorem Follows.pop {n : Nat} {program : ProgramId} (h : Follows programId (program :: stack) codeStack n) :
    Follows programId stack codeStack.tail n := by
  rw [Follows, List.map_tail, h, List.map_cons, List.cons_append, List.tail_cons]

theorem Follows.head? {n : Nat} {program : ProgramId} (h : Follows programId (program :: stack) codeStack n) :
    codeStack ≠ [] ∧ (codeStack.head? = some programId.chars ↔ program = programId) := by
  cases codeStack with
  | nil => cases h
  | cons text below =>
      rw [Follows, List.map_cons, List.map_cons, List.cons_append, List.cons.injEq, decide_eq_decide] at h
      rw [List.head?_cons, Option.some.injEq]
      exact ⟨List.cons_ne_nil _ _, h.1⟩

/-- While the program does not run, texts of other programs come and go unnoticed. -/
theorem Follows.executionStack {n m : Nat} (h : Follows programId stack codeStack n) {line : List Char}
    (hline : opensProgram libraries line = true → parsedProgramId line ≠ programId.chars)
    (hshifts : Shifts libraries programId stack line n m) :
    Follows programId stack (executionStack libraries codeStack line) m := by
  rcases hshifts with ⟨hneutral, rfl⟩ | ⟨hnot, hshifts⟩
  · have hsame : RustClient.executionStack libraries codeStack line = codeStack := Brackets.step_eq_self hneutral
    rwa [hsame]
  · have hfalse : stack.map (fun program => decide (program = programId)) = List.replicate stack.length false := by
      rw [List.eq_replicate_iff]
      refine ⟨List.length_map _, fun b hb => ?_⟩
      obtain ⟨program, hprogram, rfl⟩ := List.mem_map.mp hb
      exact decide_eq_false fun heq => hnot (heq ▸ hprogram)
    rw [Follows, hfalse, List.replicate_append_replicate] at h ⊢
    rcases hshifts with ⟨hopens, hcloses, rfl⟩ | ⟨hopens, hcloses, rfl⟩
    · have hpush : RustClient.executionStack libraries codeStack line = parsedProgramId line :: codeStack := by
        rw [opensProgram] at hopens
        rw [closesProgram] at hcloses
        simp only [RustClient.executionStack, hopens, hcloses, if_true, Bool.false_eq_true, if_false]
      rw [hpush, List.map_cons, h, decide_eq_false (hline hopens), ← List.replicate_succ, Nat.add_assoc]
    · have hpop : RustClient.executionStack libraries codeStack line = codeStack.tail := by
        rw [opensProgram] at hopens
        rw [closesProgram] at hcloses
        simp only [RustClient.executionStack, hopens, hcloses, if_true, Bool.false_eq_true, if_false]
      rw [hpop, List.map_tail, h, List.tail_replicate]
      rfl

theorem parseEventLogFrom_eq_firstEvent (hlawful : libraries.Lawful) (hlong : 43 ≤ programId.chars.length)
    (trace : Trace stack) {n : Nat} (hquiet : trace.Quiet libraries event programId n)
    (hstack : Follows programId stack codeStack n) :
    parseEventLogFrom libraries event programId.chars codeStack trace.render =
      .ok (trace.firstEvent event programId) := by
  induction trace generalizing codeStack n with
  | done => rfl
  | invoke program hdepth rest ih =>
      rw [Trace.render, parseEventLogFrom_invokeLine _ _ _ _ _ hlawful program (by omega)]
      refine ih hquiet (hstack.push ?_)
      rw [parsedProgramId_invokeLine]
      constructor
      · exact And.left
      · rintro rfl
        exact ⟨rfl, hlong⟩
  | log text rest ih =>
      obtain ⟨m, hshifts, hrest⟩ := hquiet
      rw [Trace.render, parseEventLogFrom_logLine]
      exact ih hrest (hstack.executionStack (fun _ => parsedProgramId_logLine programId text) hshifts)
  | @data program stack bytes rest ih =>
      obtain ⟨m, hshifts, hlength, hrest⟩ := hquiet
      have hfollows : Follows programId (program :: stack) (stackAt codeStack bytes) m := by
        have hstack' := @executionStack_dataLine libraries codeStack bytes
        rw [stackAt, ← hstack']
        refine hstack.executionStack (fun hopens => ?_) hshifts
        rw [opensProgram_dataLine] at hopens
        cases hopens
      obtain ⟨hne, hhead⟩ := hfollows.head?
      rw [Trace.render, parseEventLogFrom_dataLine _ _ _ _ _ hlawful, if_neg hne, Trace.firstEvent]
      by_cases hprogram : program = programId
      · have hlength := hlength hprogram
        rw [if_pos (hhead.mpr hprogram), if_neg (not_lt.mpr hlength)]
        by_cases hcarries : bytes.take 8 = event.discriminator
        · rw [if_pos hcarries, if_pos ⟨hprogram, hlength, hcarries⟩]
        · rw [if_neg hcarries, if_neg (fun h => hcarries h.2.2)]
          exact ih (hrest fun h => hcarries h.2.2) hfollows
      · rw [if_neg (fun h => hprogram (hhead.mp h)), if_neg (fun h => hprogram h.1)]
        exact ih (hrest fun h => hprogram h.1) hfollows
  | consumed units limit rest ih =>
      rw [Trace.render, parseEventLogFrom_consumedLine]
      exact ih hquiet hstack
  | success rest ih =>
      rw [Trace.render, parseEventLogFrom_successLine]
      exact ih hquiet hstack.pop

/-! ### Short ids -/

theorem mem_executionStack_logLine {text : List Char}
    (h : programId.chars ∈ executionStack libraries codeStack (logLine text)) :
    programId.chars ∈ codeStack := by
  simp only [executionStack] at h
  have hpushed : ∀ {pushed : List (List Char)},
      pushed = (if isMatch (programStartPattern libraries) (logLine text) then
        parsedProgramId (logLine text) :: codeStack else codeStack) →
      programId.chars ∈ pushed → programId.chars ∈ codeStack := by
    rintro pushed rfl hmem
    split at hmem
    · exact (List.mem_cons.mp hmem).resolve_left (parsedProgramId_logLine programId text).symm
    · exact hmem
  split at h
  · exact hpushed rfl (List.mem_of_mem_tail h)
  · exact hpushed rfl h

theorem mem_of_mem_stackAt {bytes : Bytes} {text : List Char} (h : text ∈ stackAt codeStack bytes) :
    text ∈ codeStack := by
  unfold stackAt at h
  split at h
  · exact List.mem_of_mem_tail h
  · exact h

/-- An id that does not fill the window is never found on the stack, and nothing is read. -/
theorem parseEventLogFrom_of_short (hlawful : libraries.Lawful) (hshort : ¬ 43 ≤ programId.chars.length)
    (trace : Trace stack) (hstack : programId.chars ∉ codeStack) :
    parseEventLogFrom libraries event programId.chars codeStack trace.render = .ok none := by
  induction trace generalizing codeStack with
  | done => rfl
  | invoke program hdepth rest ih =>
      rw [Trace.render, parseEventLogFrom_invokeLine _ _ _ _ _ hlawful program (by omega)]
      refine ih fun hmem => ?_
      rcases List.mem_cons.mp hmem with h | h
      · obtain ⟨rfl, hlength⟩ := parsedProgramId_invokeLine.mp h.symm
        exact hshort hlength
      · exact hstack h
  | log text rest ih =>
      rw [Trace.render, parseEventLogFrom_logLine]
      exact ih fun hmem => hstack (mem_executionStack_logLine hmem)
  | data bytes rest ih =>
      have hrest := ih fun (hmem : _ ∈ stackAt codeStack bytes) => hstack (mem_of_mem_stackAt hmem)
      have htop : (stackAt codeStack bytes).head? ≠ some programId.chars :=
        fun h => hstack (mem_of_mem_stackAt (List.mem_of_head? h))
      rw [Trace.render, parseEventLogFrom_dataLine _ _ _ _ _ hlawful, if_neg htop, hrest, ite_self]
  | consumed units limit rest ih =>
      rw [Trace.render, parseEventLogFrom_consumedLine]
      exact ih hstack
  | success rest ih =>
      rw [Trace.render, parseEventLogFrom_successLine]
      exact ih fun hmem => hstack (List.mem_of_mem_tail hmem)

/-! ### Logs without an event -/

theorem Trace.Over.mono {texts' : Set (List Char)} {payloads' : Set Bytes} {trace : Trace stack}
    (h : trace.Over texts payloads) (htexts : texts ⊆ texts')
    (hpayloads : ∀ bytes ∈ payloads, bytes ∈ payloads') : trace.Over texts' payloads' := by
  induction trace with
  | done => exact True.intro
  | invoke program hdepth rest ih => exact ih h
  | log text rest ih => exact ⟨htexts h.1, ih h.2⟩
  | data bytes rest ih => exact ⟨hpayloads _ h.1, ih h.2⟩
  | consumed units limit rest ih => exact ih h
  | success rest ih => exact ih h

theorem firstEvent_eq_none
    (hpayloads : ∀ bytes ∈ payloads, event.Carries bytes → event.tryFromSlice (bytes.drop 8) = none)
    (trace : Trace stack) (hover : trace.Over texts payloads) :
    trace.firstEvent event programId = none := by
  induction trace with
  | done => rfl
  | invoke program hdepth rest ih => exact ih hover
  | log text rest ih => exact ih hover.2
  | data bytes rest ih =>
      rw [Trace.firstEvent, ih hover.2]
      split
      · rename_i hown
        exact hpayloads bytes hover.1 hown.2
      · rfl
  | consumed units limit rest ih => exact ih hover
  | success rest ih => exact ih hover

theorem parseEventLogFrom_eq_none (hlawful : libraries.Lawful)
    (hpayloads : ∀ bytes ∈ payloads,
      8 ≤ bytes.length ∧ (event.Carries bytes → event.tryFromSlice (bytes.drop 8) = none))
    (trace : Trace stack) (hover : trace.Over texts payloads) :
    parseEventLogFrom libraries event programId.chars codeStack trace.render = .ok none := by
  induction trace generalizing codeStack with
  | done => rfl
  | invoke program hdepth rest ih =>
      rw [Trace.render, parseEventLogFrom_invokeLine _ _ _ _ _ hlawful program (by omega)]
      exact ih hover
  | log text rest ih =>
      rw [Trace.render, parseEventLogFrom_logLine]
      exact ih hover.2
  | data bytes rest ih =>
      obtain ⟨hlength, hnone⟩ := hpayloads bytes hover.1
      rw [Trace.render, parseEventLogFrom_dataLine _ _ _ _ _ hlawful, ih hover.2, if_neg (not_lt.mpr hlength)]
      split
      · rfl
      · split
        · split
          · rename_i hcarries
            rw [hnone ⟨hlength, hcarries⟩]
          · rfl
        · rfl
  | consumed units limit rest ih =>
      rw [Trace.render, parseEventLogFrom_consumedLine]
      exact ih hover
  | success rest ih =>
      rw [Trace.render, parseEventLogFrom_successLine]
      exact ih hover

theorem Trace.Readable.parseEventLog (hlawful : libraries.Lawful) {trace : Trace []}
    (h : trace.Readable libraries event programId) :
    parseEventLog libraries event programId.chars trace.render = .ok (trace.firstEvent event programId) := by
  rw [Trace.Readable] at h
  split at h
  · rename_i hlong
    rcases h with hquiet | hover
    · exact parseEventLogFrom_eq_firstEvent hlawful hlong trace hquiet rfl
    · rw [firstEvent_eq_none (fun _ hbytes => hbytes.2) trace hover]
      exact parseEventLogFrom_eq_none hlawful (fun _ hbytes => hbytes) trace hover
  · rename_i hshort
    rw [h]
    exact parseEventLogFrom_of_short hlawful hshort trace List.not_mem_nil

/-! ### What breaks the attribution -/

variable (libraries event programId texts payloads)

/-- Every trace over the texts and the data is read rightly. -/
def Attributes : Prop :=
  ∀ trace : Trace [], trace.Over texts payloads →
    parseEventLog libraries event programId.chars trace.render = .ok (trace.firstEvent event programId)

/-- The data can make the client return an event of the type. -/
def EventType.Occurs (event : EventType T) (payloads : Set Bytes) : Prop :=
  ∃ bytes ∈ payloads, event.Carries bytes ∧ event.tryFromSlice (bytes.drop 8) ≠ none

/-- The texts and the data look like no line of the runtime, as far as that matters to the program. -/
structure Undisturbed : Prop where
  discriminated : 43 ≤ programId.chars.length → ∀ bytes ∈ payloads, 8 ≤ bytes.length
  long : event.Occurs payloads → 43 ≤ programId.chars.length
  quiet : event.Occurs payloads → ∀ text ∈ texts,
    opensProgram libraries (logLine text) = closesProgram (logLine text)
  data : event.Occurs payloads → ∀ bytes ∈ payloads, ¬ readsSuccess bytes

variable {libraries event programId texts payloads}

def systemProgram : ProgramId where
  chars := List.replicate 32 '1'
  base58 := by simp [base58Alphabet, chars]
  le_length := by decide
  length_le := by decide

def voteProgram : ProgramId where
  chars := chars "Vote111111111111111111111111111111111111111"
  base58 := by simp [base58Alphabet, chars]
  le_length := by decide
  length_le := by decide

theorem ProgramId.exists_ne (programId : ProgramId) : ∃ other : ProgramId, other ≠ programId := by
  by_cases h : systemProgram = programId
  · exact ⟨voteProgram, fun heq => absurd (h.trans heq.symm) (by decide)⟩
  · exact ⟨systemProgram, h⟩

theorem Trace.quiet_of_over
    (htexts : ∀ text ∈ texts, opensProgram libraries (logLine text) = closesProgram (logLine text))
    (hpayloads : ∀ bytes ∈ payloads, 8 ≤ bytes.length ∧ ¬ readsSuccess bytes) (trace : Trace stack)
    (hover : trace.Over texts payloads) : trace.Quiet libraries event programId 0 := by
  induction trace with
  | done => exact True.intro
  | invoke program hdepth rest ih => exact ih hover
  | log text rest ih => exact ⟨0, .inl ⟨htexts text hover.1, rfl⟩, ih hover.2⟩
  | data bytes rest ih =>
      obtain ⟨hlength, hsuccess⟩ := hpayloads bytes hover.1
      have hcloses : closesProgram (dataLine bytes) = false :=
        Bool.eq_false_iff.mpr ((closesProgram_dataLine bytes).not.mpr hsuccess)
      exact ⟨0, .inl ⟨(opensProgram_dataLine bytes).trans hcloses.symm, rfl⟩, fun _ => hlength, fun _ => ih hover.2⟩
  | consumed units limit rest ih => exact ih hover
  | success rest ih => exact ih hover

theorem Undisturbed.readable (h : Undisturbed libraries event programId texts payloads) {trace : Trace []}
    (hover : trace.Over texts payloads) : trace.Readable libraries event programId := by
  have hnone : ¬ event.Occurs payloads → ∀ bytes ∈ payloads, event.Carries bytes →
      event.tryFromSlice (bytes.drop 8) = none := by
    intro hoccurs bytes hbytes hcarries
    by_contra hne
    exact hoccurs ⟨bytes, hbytes, hcarries, hne⟩
  rw [Trace.Readable]
  split
  · rename_i hlong
    by_cases hoccurs : event.Occurs payloads
    · exact .inl (trace.quiet_of_over (h.quiet hoccurs)
        (fun bytes hbytes => ⟨h.discriminated hlong bytes hbytes, h.data hoccurs bytes hbytes⟩) hover)
    · exact .inr (hover.mono (fun _ _ => trivial)
        fun bytes hbytes => ⟨h.discriminated hlong bytes hbytes, hnone hoccurs bytes hbytes⟩)
  · rename_i hshort
    exact firstEvent_eq_none (hnone fun hoccurs => hshort (h.long hoccurs)) trace hover

section Broken

variable (hlawful : libraries.Lawful)
include hlawful

/-- Data too short for a discriminator, in a program that has called itself. -/
theorem Attributes.discriminated (h : Attributes libraries event programId texts payloads)
    (hlong : 43 ≤ programId.chars.length) {bytes : Bytes} (hbytes : bytes ∈ payloads) :
    8 ≤ bytes.length := by
  by_contra hshort
  let trace : Trace [] :=
    .invoke programId (by decide) (.invoke programId (by simp) (.data bytes (.success (.success .done))))
  have hrender : trace.render = [invokeLine programId 1, invokeLine programId 2, dataLine bytes,
    successLine programId, successLine programId] := rfl
  have htrace := h trace (by simpa [trace, Trace.Over] using hbytes)
  have hown : ∀ depth, parsedProgramId (invokeLine programId depth) = programId.chars :=
    fun depth => parsedProgramId_invokeLine.mpr ⟨rfl, hlong⟩
  rw [parseEventLog, hrender, parseEventLogFrom_invokeLine _ _ _ _ _ hlawful _ (by decide),
    parseEventLogFrom_invokeLine _ _ _ _ _ hlawful _ (by decide), hown, hown,
    parseEventLogFrom_dataLine _ _ _ _ _ hlawful] at htrace
  have htop : stackAt [programId.chars, programId.chars] bytes ≠ [] ∧
      (stackAt [programId.chars, programId.chars] bytes).head? = some programId.chars := by
    unfold stackAt
    split <;> simp
  rw [if_neg htop.1, if_pos htop.2, if_pos (not_le.mp hshort)] at htrace
  cases htrace

/-- An id too short for the window, in a program that logs the event. -/
theorem Attributes.long (h : Attributes libraries event programId texts payloads)
    (hoccurs : event.Occurs payloads) : 43 ≤ programId.chars.length := by
  by_contra hshort
  obtain ⟨bytes, hbytes, hcarries, hevent⟩ := hoccurs
  let trace : Trace [] := .invoke programId (by decide) (.data bytes (.success .done))
  have hrender : trace.render = [invokeLine programId 1, dataLine bytes, successLine programId] := rfl
  have hfirst : trace.firstEvent event programId = event.tryFromSlice (bytes.drop 8) :=
    if_pos ⟨rfl, hcarries⟩
  have htrace := h trace (by simpa [trace, Trace.Over] using hbytes)
  have hother : parsedProgramId (invokeLine programId 1) ≠ programId.chars :=
    fun heq => hshort (parsedProgramId_invokeLine.mp heq).2
  have htop : (stackAt [parsedProgramId (invokeLine programId 1)] bytes).head? ≠ some programId.chars := by
    unfold stackAt
    split <;> simp [hother]
  rw [hfirst, parseEventLog, hrender, parseEventLogFrom_invokeLine _ _ _ _ _ hlawful _ (by decide),
    parseEventLogFrom_dataLine _ _ _ _ _ hlawful, if_neg htop, parseEventLogFrom_successLine,
    parseEventLogFrom, ite_self, Rust.Outcome.ok.injEq] at htrace
  exact hevent htrace.symm

/-- Data that reads like the word for success, in another program that runs before. -/
theorem Attributes.data (h : Attributes libraries event programId texts payloads)
    (hoccurs : event.Occurs payloads) {bytes : Bytes} (hbytes : bytes ∈ payloads) :
    ¬ readsSuccess bytes := by
  intro hsuccess
  obtain ⟨eventBytes, heventBytes, hcarries, hevent⟩ := hoccurs
  obtain ⟨other, hother⟩ := programId.exists_ne
  let trace : Trace [] := .invoke other (by decide) (.data bytes (.success (.invoke programId (by decide)
    (.data eventBytes (.success .done)))))
  have hrender : trace.render = [invokeLine other 1, dataLine bytes, successLine other,
    invokeLine programId 1, dataLine eventBytes, successLine programId] := rfl
  have hfirst : trace.firstEvent event programId = event.tryFromSlice (eventBytes.drop 8) :=
    (if_neg fun hown => hother hown.1).trans (if_pos ⟨rfl, hcarries⟩)
  have htrace := h trace (by simpa [trace, Trace.Over] using ⟨hbytes, heventBytes⟩)
  have hat : stackAt [parsedProgramId (invokeLine other 1)] bytes = [] :=
    if_pos ((closesProgram_dataLine bytes).mpr hsuccess)
  rw [hfirst, parseEventLog, hrender, parseEventLogFrom_invokeLine _ _ _ _ _ hlawful _ (by decide),
    parseEventLogFrom_dataLine _ _ _ _ _ hlawful, if_pos hat, Rust.Outcome.ok.injEq] at htrace
  exact hevent htrace.symm

/-- A text that opens a program or closes one, in a program that logs the event afterwards. -/
theorem Attributes.quiet (h : Attributes libraries event programId texts payloads)
    (hoccurs : event.Occurs payloads) {text : List Char} (htext : text ∈ texts) :
    opensProgram libraries (logLine text) = closesProgram (logLine text) := by
  by_contra hne
  rw [opensProgram, closesProgram] at hne
  obtain ⟨bytes, hbytes, hcarries, hevent⟩ := id hoccurs
  have hsuccess := h.data hlawful hoccurs hbytes
  let trace : Trace [] := .invoke programId (by decide) (.log text (.data bytes (.success .done)))
  have hrender : trace.render = [invokeLine programId 1, logLine text, dataLine bytes,
    successLine programId] := rfl
  have hfirst : trace.firstEvent event programId = event.tryFromSlice (bytes.drop 8) :=
    if_pos ⟨rfl, hcarries⟩
  have htrace := h trace (by simpa [trace, Trace.Over] using ⟨htext, hbytes⟩)
  have hat : ∀ codeStack, stackAt codeStack bytes = codeStack :=
    fun _ => if_neg ((closesProgram_dataLine bytes).not.mpr hsuccess)
  generalize hbelow : parsedProgramId (invokeLine programId 1) = below at *
  -- Either the program itself is popped, or a text that is no id lies above it.
  have htop : executionStack libraries [below] (logLine text) = [] ∨
      (executionStack libraries [below] (logLine text)).head? ≠ some programId.chars := by
    have hlog := parsedProgramId_logLine programId text
    unfold executionStack
    cases hstart : isMatch (programStartPattern libraries) (logLine text) <;>
      cases hend : isMatch programEndPattern (logLine text) <;> simp_all
  rw [hfirst, parseEventLog, hrender, parseEventLogFrom_invokeLine _ _ _ _ _ hlawful _ (by decide), hbelow,
    parseEventLogFrom_logLine, parseEventLogFrom_dataLine _ _ _ _ _ hlawful, hat,
    parseEventLogFrom_successLine, parseEventLogFrom] at htrace
  rcases htop with htop | htop
  · rw [if_pos htop, Rust.Outcome.ok.injEq] at htrace
    exact hevent htrace.symm
  · rw [if_neg htop, ite_self, Rust.Outcome.ok.injEq] at htrace
    exact hevent htrace.symm

theorem Attributes.undisturbed (h : Attributes libraries event programId texts payloads) :
    Undisturbed libraries event programId texts payloads where
  discriminated hlong _ hbytes := h.discriminated hlawful hlong hbytes
  long := h.long hlawful
  quiet hoccurs _ htext := h.quiet hlawful hoccurs htext
  data hoccurs _ hbytes := h.data hlawful hoccurs hbytes

end Broken

/-- A readable trace is read rightly, and what any other logs can be logged in an order that is misread. -/
theorem parseEventLog_attributes (hlawful : libraries.Lawful) (event : EventType T) (programId : ProgramId)
    (trace : Trace []) :
    (trace.Readable libraries event programId →
      parseEventLog libraries event programId.chars trace.render = .ok (trace.firstEvent event programId)) ∧
    (¬ trace.Readable libraries event programId → ∀ texts payloads, trace.Over texts payloads →
      ∃ trace' : Trace [], trace'.Over texts payloads ∧
        parseEventLog libraries event programId.chars trace'.render ≠ .ok (trace'.firstEvent event programId)) := by
  refine ⟨fun h => h.parseEventLog hlawful, fun hreadable texts payloads hover => ?_⟩
  by_contra hnone
  push Not at hnone
  have hattributes : Attributes libraries event programId texts payloads := hnone
  exact hreadable ((hattributes.undisturbed hlawful).readable hover)

/-! ### A program's log -/

def sampleLogLibraries : LogLibraries := ⟨Char.isDigit, Base64.decode⟩

theorem sampleLogLibraries_lawful : sampleLogLibraries.Lawful := ⟨fun _ => id, Base64.decode_encode⟩

def ammProgram : ProgramId where
  chars := chars "Eo7WjKq67rjJQSZxS6z3YkapzY3eMj6Xy8X5EQVn5UaB"
  base58 := by simp [base58Alphabet, chars]
  le_length := by decide
  length_le := by decide

def sampleEvent : EventType UInt8 where
  discriminator := [1, 2, 3, 4, 5, 6, 7, 8]
  tryFromSlice bytes := bytes.head?

def sampleEventData : Bytes := [1, 2, 3, 4, 5, 6, 7, 8, 9]

def earlyEventTrace : Trace [] :=
  .invoke ammProgram (by decide) (.data sampleEventData (.log (chars "transfer success") (.success .done)))

def lateEventTrace : Trace [] :=
  .invoke ammProgram (by decide) (.log (chars "transfer success") (.data sampleEventData (.success .done)))

theorem earlyEventTrace_readable : earlyEventTrace.Readable sampleLogLibraries sampleEvent ammProgram := by
  rw [Trace.Readable, if_pos (by decide)]
  exact .inl ⟨0, .inl ⟨by decide +kernel, rfl⟩, fun _ => by decide, fun hother => absurd ⟨rfl, by decide⟩ hother⟩

theorem lateEventTrace_not_readable : ¬ lateEventTrace.Readable sampleLogLibraries sampleEvent ammProgram := by
  intro h
  have hevent := h.parseEventLog sampleLogLibraries_lawful
  revert hevent
  decide +kernel

theorem parseEventLog_attributes_sample :
    parseEventLog sampleLogLibraries sampleEvent ammProgram.chars earlyEventTrace.render =
        .ok (earlyEventTrace.firstEvent sampleEvent ammProgram) ∧
      ∀ texts payloads, lateEventTrace.Over texts payloads → ∃ trace' : Trace [], trace'.Over texts payloads ∧
        parseEventLog sampleLogLibraries sampleEvent ammProgram.chars trace'.render ≠
          .ok (trace'.firstEvent sampleEvent ammProgram) :=
  ⟨(parseEventLog_attributes sampleLogLibraries_lawful sampleEvent ammProgram earlyEventTrace).1
      earlyEventTrace_readable,
    (parseEventLog_attributes sampleLogLibraries_lawful sampleEvent ammProgram lateEventTrace).2
      lateEventTrace_not_readable⟩
/-- An event is lost after a log line that ends in the word for success, and under an id of 32 characters;
the event of a program that is called is taken for the caller's; and short data aborts. -/
theorem parseEventLog_misattributes :
    (let trace : Trace [] := .invoke ammProgram (by decide)
        (.log (chars "transfer success") (.data sampleEventData (.success .done)));
      parseEventLog sampleLogLibraries sampleEvent ammProgram.chars trace.render = .ok none ∧
        trace.firstEvent sampleEvent ammProgram = some 9) ∧
    (let trace : Trace [] := .invoke systemProgram (by decide) (.data sampleEventData (.success .done));
      parseEventLog sampleLogLibraries sampleEvent systemProgram.chars trace.render = .ok none ∧
        trace.firstEvent sampleEvent systemProgram = some 9) ∧
    (let trace : Trace [] := .invoke ammProgram (by decide) (.invoke voteProgram (by decide)
        (.log (chars "vote success") (.data sampleEventData (.success (.success .done)))));
      parseEventLog sampleLogLibraries sampleEvent ammProgram.chars trace.render = .ok (some 9) ∧
        trace.firstEvent sampleEvent ammProgram = none) ∧
    (let trace : Trace [] := .invoke ammProgram (by decide) (.data [1] (.success .done));
      parseEventLog sampleLogLibraries sampleEvent ammProgram.chars trace.render = .panic) := by
  decide +kernel

end DynamicAmm.RustClient
