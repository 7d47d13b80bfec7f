import Linewise.Log.Logger

/-!
# What a logger writes and remembers

Each message that is logged while there is an output is handed to it as one line (`LoggerTo.line`), unless
the line is empty. That is so because the buffer is empty between calls, whatever outputs answered before
(`LoggerTo.Kept`), so what has been handed over is told by the calls alone. The exit code is told by the
answers and by the calls: `LoggerTo.history_told`.
-/

namespace Linewise.LoggerTo

variable {ω : Type}

/-- The line of a message: its level and a colon if it has a level, and a line feed at the end if there is
anything to end. -/
def line (level message : Text) : Text :=
  endLine ((if level.isEmpty then [] else level ++ [58, 32]) ++ message)

theorem getLast?_endLine {s : Text} (h : endLine s ≠ []) : (endLine s).getLast? = some 10 := by
  rw [endLine] at h ⊢
  split at h
  · next hend =>
      rw [if_pos hend]
      simpa [h] using hend
  · next hend =>
      rw [if_neg hend]
      exact List.getLast?_concat

/-- What is asked of a logger. -/
inductive Call (ω : Type) where
  | setOutput (output : Option ω)
  | print (level message : Text)
  | error (message : Text)
  | fail (message : Text)
  | errorIf (message : Option Text)

namespace Call

/-- The level and the message that a call logs. -/
def entry? : Call ω → Option (Text × Text)
  | .setOutput _ => none
  | .print level message => some (level, message)
  | .error message => some ("ERROR", message)
  | .fail message => some ([], message)
  | .errorIf message => message.map ("ERROR", ·)

/-- The line that a call logs, if there is one. -/
def line? (call : Call ω) : Option Text :=
  (call.entry?.map fun (level, message) => line level message).filter fun l => !l.isEmpty

/-- A call that says that something went wrong. -/
def reports : Call ω → Bool
  | .error _ | .fail _ => true
  | .errorIf message => message.isSome
  | _ => false

/-- Whether there is an output after a call. -/
def leavesOutput (present : Bool) : Call ω → Bool
  | .setOutput output => output.isSome
  | _ => present

theorem toList_line? {call : Call ω} {level message : Text} (h : call.entry? = some (level, message)) :
    call.line?.toList = if !(line level message).isEmpty then [line level message] else [] := by
  rw [line?, h]
  cases hempty : (line level message).isEmpty <;> simp [Option.filter, hempty]

theorem getLast?_line? {call : Call ω} {l : Text} (h : call.line? = some l) : l.getLast? = some 10 := by
  obtain ⟨hline, hempty⟩ := Option.filter_eq_some_iff.mp h
  obtain ⟨entry, -, rfl⟩ := Option.map_eq_some_iff.mp hline
  exact getLast?_endLine (by simpa [line] using hempty)

end Call

/-- The lines that calls log while there is an output, which at first is there or not. -/
def loggedLines : (present : Bool) → List (Call ω) → List Text
  | _, [] => []
  | present, call :: rest =>
    (if present then call.line?.toList else []) ++ loggedLines (call.leavesOutput present) rest

theorem getLast?_of_mem_loggedLines {l : Text} (calls : List (Call ω)) :
    ∀ present, l ∈ loggedLines present calls → l.getLast? = some 10 := by
  induction calls with
  | nil => exact fun _ hl => absurd hl List.not_mem_nil
  | cons call rest ih =>
      intro present hl
      rcases List.mem_append.mp hl with hcall | hrest
      · cases present with
        | false => exact absurd hcall List.not_mem_nil
        | true => exact Call.getLast?_line? (Option.mem_toList.mp hcall)
      · exact ih _ hrest

/-! ## What a logger remembers -/

/-- Some write failed. -/
def hasFailed (log : LoggerTo ω) : Bool := log.handed.any Handover.failed

/-- The exit code of a logger whose output failed, or to which something was reported. -/
def verdict (failed reported : Bool) : Nat := if failed then 2 else if reported then 1 else 0

theorem verdict_of_eq_zero {failed reported : Bool} (h : verdict failed reported = 0) :
    verdict failed true = 1 := by
  revert failed reported
  decide

theorem verdict_of_ne_zero {failed reported : Bool} (h : verdict failed reported ≠ 0) :
    verdict failed true = verdict failed reported := by
  revert failed reported
  decide

theorem verdict_le {failed reported failed' reported' : Bool} (hfailed : failed = true → failed' = true)
    (hreported : reported = true → reported' = true) :
    verdict failed reported ≤ verdict failed' reported' := by
  revert failed reported failed' reported'
  decide

/-- What is true of a logger between calls, after something was reported to it or not. -/
structure Kept (log : LoggerTo ω) (reported : Bool) : Prop where
  cleared : log.buffer = []
  exitCode : log.exitCode = verdict log.hasFailed reported

theorem kept_silent : Kept (silent : LoggerTo ω) false := ⟨rfl, rfl⟩

section

variable {log log' : LoggerTo ω} {level message : Text} {reported failed : Bool} {call : Call ω}

/-- What sending a message does to a logger. -/
structure Sends (log : LoggerTo ω) (level message : Text) (failed : Bool) (log' : LoggerTo ω) : Prop where
  cleared : log'.buffer = []
  exitCode : log'.exitCode = log.exitCode
  present : log'.output.isSome = log.output.isSome
  chunks : log'.handed.map Handover.chunk = log.handed.map Handover.chunk
    ++ if log.output.isSome && !(line level message).isEmpty then [line level message] else []
  failed : log'.hasFailed = (log.hasFailed || failed)

/-- What a call does to a logger. -/
structure Makes (log : LoggerTo ω) (reported : Bool) (call : Call ω) (log' : LoggerTo ω) : Prop where
  kept : Kept log' (reported || call.reports)
  present : log'.output.isSome = call.leavesOutput log.output.isSome
  chunks : log'.handed.map Handover.chunk = log.handed.map Handover.chunk
    ++ if log.output.isSome then call.line?.toList else []
  stays : log.hasFailed = true → log'.hasFailed = true

/-- A call that logs a message has sent it and set the exit code. -/
theorem Sends.makes (h : Sends log level message failed log') (hentry : call.entry? = some (level, message))
    (hkeeps : ∀ present, call.leavesOutput present = present) (code : Nat)
    (hcode : code = verdict (log.hasFailed || failed) (reported || call.reports)) :
    Makes log reported call { log' with exitCode := code } where
  kept := ⟨h.cleared, hcode.trans (congrArg (verdict · _) h.failed.symm)⟩
  present := by rw [hkeeps, ← h.present]
  chunks := by
    rw [Call.toList_line? hentry]
    refine h.chunks.trans ?_
    cases log.output.isSome <;> rfl
  stays hfailed := h.failed.trans (by rw [hfailed, Bool.true_or])

theorem collect_of_cleared (h : log.buffer = []) (level message : Text) :
    log.collect level message = { log with buffer := line level message } := by
  rw [collect, h, List.nil_append]
  rfl

/-! ## One call -/

variable [Outlet ω]

theorem send_sends (h : log.buffer = []) (level message : Text) :
    Sends log level message (log.send level message).1 (log.send level message).2 := by
  rw [send]
  cases houtput : log.output with
  | none => exact ⟨h, rfl, rfl, by simp [houtput], (Bool.or_false _).symm⟩
  | some w =>
      simp only [collect_of_cleared h, drain]
      cases hempty : (line level message).isEmpty with
      | true => exact ⟨rfl, rfl, rfl, by simp [handed, hempty], (Bool.or_false _).symm⟩
      | false =>
          refine ⟨rfl, rfl, ?_, ?_, ?_⟩
          · simp [houtput]
          · simp [handed, houtput, hempty]
          · simp [hasFailed, handed]

theorem print_makes (h : Kept log reported) (hentry : call.entry? = some (level, message))
    (hkeeps : ∀ present, call.leavesOutput present = present) (hplain : call.reports = false) :
    Makes log reported call (log.print level message) := by
  have hsends := send_sends h.cleared level message
  rw [print]
  generalize log.send level message = sent at hsends
  obtain ⟨failed, log'⟩ := sent
  cases failed with
  | true => exact hsends.makes hentry hkeeps 2 (by rw [Bool.or_true, verdict, if_pos rfl])
  | false =>
      refine hsends.makes hentry hkeeps log'.exitCode ?_
      rw [hsends.exitCode, h.exitCode, hplain, Bool.or_false, Bool.or_false]

theorem report_makes (h : Kept log reported) (hentry : call.entry? = some (level, message))
    (hkeeps : ∀ present, call.leavesOutput present = present) (hreports : call.reports = true) :
    Makes log reported call (log.report level message) := by
  have hsends := send_sends h.cleared level message
  rw [report]
  generalize log.send level message = sent at hsends
  obtain ⟨failed, log'⟩ := sent
  have hcode : log'.exitCode = verdict log.hasFailed reported := hsends.exitCode.trans h.exitCode
  cases failed with
  | true => exact hsends.makes hentry hkeeps 2 (by rw [Bool.or_true, verdict, if_pos rfl])
  | false =>
      -- a report raises the exit code only from zero, so that a failure is not forgotten
      by_cases hzero : log'.exitCode = 0
      · simp only [hzero]
        refine hsends.makes hentry hkeeps 1 ?_
        rw [hreports, Bool.or_true, Bool.or_false, verdict_of_eq_zero (hcode.symm.trans hzero)]
      · simp only [hzero]
        refine hsends.makes hentry hkeeps log'.exitCode ?_
        rw [hreports, Bool.or_true, Bool.or_false, verdict_of_ne_zero (hcode ▸ hzero), hcode]

/-- Makes a call. -/
def perform (log : LoggerTo ω) : Call ω → LoggerTo ω
  | .setOutput output => log.setOutput output
  | .print level message => log.print level message
  | .error message => log.error message
  | .fail message => log.fail message
  | .errorIf message => log.errorIf message

theorem perform_makes (h : Kept log reported) (call : Call ω) : Makes log reported call (log.perform call) := by
  cases call with
  | setOutput output =>
      refine ⟨⟨h.cleared, ?_⟩, rfl, ?_, id⟩
      · show log.exitCode = verdict log.hasFailed (reported || false)
        rw [Bool.or_false, h.exitCode]
      · cases log.output <;> simp [perform, setOutput, handed, Call.line?, Call.entry?]
  | print level message => exact print_makes h rfl (fun _ => rfl) rfl
  | error message => exact report_makes h rfl (fun _ => rfl) rfl
  | fail message => exact report_makes h rfl (fun _ => rfl) rfl
  | errorIf message =>
      cases message with
      | some message => exact report_makes h rfl (fun _ => rfl) rfl
      | none =>
          refine ⟨⟨h.cleared, ?_⟩, rfl, ?_, id⟩
          · show log.exitCode = verdict log.hasFailed (reported || false)
            rw [Bool.or_false, h.exitCode]
          · cases log.output <;> simp [perform, errorIf, Call.line?, Call.entry?]

end

/-! ## Histories of calls -/

variable [Outlet ω]

/-- The logger after calls. -/
def after (log : LoggerTo ω) (calls : List (Call ω)) : LoggerTo ω := calls.foldl perform log

theorem kept_after (calls : List (Call ω)) : ∀ {log : LoggerTo ω} {reported : Bool}, Kept log reported →
    Kept (log.after calls) (reported || calls.any Call.reports) := by
  induction calls with
  | nil =>
      intro log reported h
      rwa [List.any_nil, Bool.or_false]
  | cons call rest ih =>
      intro log reported h
      rw [List.any_cons, ← Bool.or_assoc]
      exact ih (perform_makes h call).kept

theorem chunks_after (calls : List (Call ω)) : ∀ {log : LoggerTo ω} {reported : Bool}, Kept log reported →
    (log.after calls).handed.map Handover.chunk
      = log.handed.map Handover.chunk ++ loggedLines log.output.isSome calls := by
  induction calls with
  | nil =>
      intro log reported h
      rw [loggedLines, List.append_nil]
      rfl
  | cons call rest ih =>
      intro log reported h
      have hcall := perform_makes h call
      rw [loggedLines, ← hcall.present, ← List.append_assoc, ← hcall.chunks]
      exact ih hcall.kept

theorem hasFailed_after (calls : List (Call ω)) : ∀ {log : LoggerTo ω} {reported : Bool}, Kept log reported →
    log.hasFailed = true → (log.after calls).hasFailed = true := by
  induction calls with
  | nil => exact fun _ hfailed => hfailed
  | cons call rest ih =>
      intro log reported h hfailed
      have hcall := perform_makes h call
      exact ih hcall.kept (hcall.stays hfailed)

/-- The exit code tells whether some write failed or else something was reported, and never goes down. The
writes are the lines of what was logged, one for each, whatever the answers to them were. -/
theorem history_told (calls : List (Call ω)) :
    let log : LoggerTo ω := silent.after calls
    log.exitCode = (if log.handed.any Handover.failed then 2 else if calls.any Call.reports then 1 else 0) ∧
      (∀ more, log.exitCode ≤ (silent.after (calls ++ more) : LoggerTo ω).exitCode) ∧
      log.handed.map Handover.chunk = loggedLines false calls ∧
      ∀ handover ∈ log.handed, handover.chunk.getLast? = some 10 := by
  intro log
  have hkept : Kept log (calls.any Call.reports) := kept_after calls kept_silent
  have hchunks : log.handed.map Handover.chunk = loggedLines false calls := chunks_after calls kept_silent
  refine ⟨hkept.exitCode, fun more => ?_, hchunks, fun handover hmem => ?_⟩
  · have hlater : (silent.after (calls ++ more) : LoggerTo ω) = log.after more := List.foldl_append
    rw [hlater, hkept.exitCode, (kept_after more hkept).exitCode]
    exact verdict_le (hasFailed_after more hkept) fun hreported => by rw [hreported, Bool.true_or]
  · have hlogged : handover.chunk ∈ loggedLines false calls := by
      rw [← hchunks]
      exact List.mem_map_of_mem hmem
    exact getLast?_of_mem_loggedLines calls false hlogged

end Linewise.LoggerTo
