import MochiPort.InterleavedProgress

namespace MochiPort

open RustText (charCount)

def telegramCommandProgressFailureChars : Nat := 480
def telegramCommandProgressRetryErrorChars : Nat := 600
def telegramFinalReplyMaxChars : Nat := 2400
def telegramPlanRenderSteps : Nat := 6
def telegramPlanStepChars : Nat := 180
def telegramDiffRenderPaths : Nat := 8
def telegramDiffPathChars : Nat := 180
def telegramWebSearchVisibleEntries : Nat := 2
def telegramWebSearchFallbackChars : Nat := 900
def telegramTaskProgressFallbackMaxChars : Nat := 3800
def telegramCommandProgressMaxChars : Nat := 3600
def telegramCollabVisibleAgents : Nat := 8
def telegramCollabNameChars : Nat := 72
def telegramCollabDetailChars : Nat := 180

def commandProgressStatusKey : TelegramCommandProgressStatus → String
  | .running => "running"
  | .interrupted => "interrupted"
  | .succeeded => "succeeded"
  | .failed => "failed"

def collabProgressStatusKey : TelegramCollabProgressStatus → String
  | .running => "running"
  | .responded => "responded"
  | .succeeded => "succeeded"
  | .failed => "failed"
  | .interrupted => "interrupted"

def planStepStatusKey : TelegramPlanStepStatus → String
  | .pending => "pending"
  | .inProgress => "in_progress"
  | .completed => "completed"

section

/-! `tenths` writes a duration in milliseconds as seconds with one digit after the point. -/
variable (tenths : Nat → String) (locale : ImLocale)

def formatDuration (durationMs : Nat) : String := if durationMs < 1000 then s!"{durationMs}ms" else tenths durationMs

def renderEntry (entry : TelegramCommandProgressEntry) (failureOutputChars : Nat) : String :=
  let label := locale.telegramProgressStatusLabel (commandProgressStatusKey entry.status)
  let kind := if entry.kind = .mcpTool then " · MCP" else ""
  let duration := match entry.durationMs with
    | some duration => " · " ++ formatDuration tenths duration
    | none => ""
  let exit := match entry.exitCode with
    | some exitCode => if entry.status = .failed then s!" · exit {exitCode}" else ""
    | none => ""
  let command := match entry.kind with
    | .command => "\n```shell\n" ++ entry.command ++ "\n```"
    | .mcpTool => "\n" ++ entry.command
  let failure := match entry.failureOutput with
    | some output =>
      if failureOutputChars > 0 then
        "\n" ++ locale.telegramCommandProgressErrorSummary ++ "\n```text\n" ++ truncateTail output failureOutputChars ++
          "\n```"
      else ""
    | none => ""
  label ++ kind ++ duration ++ exit ++ command ++ failure

def renderPlanStandalone (explanation : Option String) (steps : List TelegramPlanStep) : Option String :=
  if explanation.isNone && steps.isEmpty then none
  else
    let completed := (steps.filter fun step => step.status = .completed).length
    let lines := [locale.telegramPlanHeading completed steps.length] ++
      (explanation.map fun explanation => compactText explanation telegramPlanStepChars).toList ++
      (steps.take telegramPlanRenderSteps).map (fun step =>
        locale.telegramProgressStatusLabel (planStepStatusKey step.status) ++ " · " ++
          compactText step.step telegramPlanStepChars) ++
      if steps.length > telegramPlanRenderSteps then
        [locale.telegramPlanOmitted (steps.length - telegramPlanRenderSteps)]
      else []
    some ("\n".intercalate lines)

namespace TelegramCommandProgressSnapshot

variable (snapshot : TelegramCommandProgressSnapshot)

def total : Nat := saturatingAdd snapshot.droppedEntries snapshot.entries.length

def hasPlanProgress : Bool := snapshot.planExplanation.isSome || !snapshot.plan.isEmpty

def renderPlanProgress : Option String := renderPlanStandalone locale snapshot.planExplanation snapshot.plan

def countStatus (status : TelegramCommandProgressStatus) : Nat :=
  (snapshot.entries.filter fun entry => entry.status = status).length

def commandExecutionProgressTitle : String :=
  locale.telegramCommandProgressTitle snapshot.completed snapshot.failed snapshot.total (snapshot.countStatus .failed)
    (snapshot.countStatus .running) (snapshot.countStatus .interrupted)

def commandProgressTitle : String :=
  let hasSupplemental := snapshot.reasoningSummary.isSome || snapshot.planExplanation.isSome || !snapshot.plan.isEmpty ||
    snapshot.diffSummary.isSome || !snapshot.webSearches.isEmpty || snapshot.droppedWebSearches > 0 ||
    snapshot.collab.isSome
  let title :=
    if snapshot.total = 0 && snapshot.retryCount > 0 then
      locale.telegramRetryProgressTitle snapshot.completed snapshot.failed snapshot.retryCount
    else if snapshot.total = 0 && hasSupplemental || snapshot.hasPlanProgress then
      locale.telegramTaskProgressTitle snapshot.completed snapshot.failed
    else snapshot.commandExecutionProgressTitle locale
  match (if snapshot.completed then snapshot.elapsedMs else none).filter (· ≥ 1000) with
  | some ms => title ++ " · " ++ locale.telegramTurnElapsed ms
  | none => title

def renderWebSearchProgress : Option String :=
  let total := saturatingAdd snapshot.droppedWebSearches snapshot.webSearches.length
  if total = 0 then none
  else
    let visibleStart := snapshot.webSearches.length - telegramWebSearchVisibleEntries
    let earlierCount := saturatingAdd snapshot.droppedWebSearches visibleStart
    let sections := [s!"搜索 · {total} 次"] ++
      (if earlierCount > 0 then [s!"较早搜索 · {earlierCount} 次（已折叠）"] else []) ++
      (snapshot.webSearches.drop visibleStart).map fun entry =>
        compactText entry.fallbackMarkdown telegramWebSearchFallbackChars
    some ("\n\n".intercalate sections)

def renderDiffSummary (diff : TelegramDiffSummary) : String :=
  let omitted := saturatingAdd diff.omittedPaths (diff.paths.length - telegramDiffRenderPaths)
  let lines := [locale.telegramDiffHeading diff.fileCount diff.additions diff.deletions] ++
    (diff.paths.take telegramDiffRenderPaths).map (fun path =>
      "• " ++ compactText (diffFileDisplayName path) telegramDiffPathChars) ++
    if omitted > 0 then [locale.telegramDiffOmitted omitted] else []
  "\n".intercalate lines

def renderSupplementalProgress : Option String :=
  let sections := snapshot.renderWebSearchProgress.toList ++
    (snapshot.reasoningSummary.map reasoningRenderLine).toList ++
    (snapshot.diffSummary.map (renderDiffSummary locale)).toList
  if sections.isEmpty then none else some ("\n\n".intercalate sections)

def renderCommandProgressWithLimits (selected : List Nat) (failureOutputChars retryErrorChars : Nat) : String :=
  let omitted := snapshot.total - selected.length
  let statusEmoji := if snapshot.failed then "❌" else "🔄"
  let title := statusEmoji ++ " " ++ snapshot.commandProgressTitle locale ++ "\n" ++ telegramCardSeparator
  let finalReply := (snapshot.finalReply.map RustText.trim).filter (· ≠ "")
  let retryError := if snapshot.retryCount > 0 && retryErrorChars > 0 then snapshot.retryError else none
  let sections := [title] ++
    (if snapshot.total > 0 && snapshot.retryCount > 0 then
      [locale.telegramRetryProgressSummary snapshot.retryCount] else []) ++
    (snapshot.renderPlanProgress locale).toList ++
    (if snapshot.total > 0 && snapshot.hasPlanProgress then [snapshot.commandExecutionProgressTitle locale] else []) ++
    (if omitted > 0 then [locale.telegramCommandProgressOmitted omitted] else []) ++
    (selected.filterMap (snapshot.entries[·]?)).map (renderEntry tenths locale · failureOutputChars) ++
    (snapshot.renderSupplementalProgress locale).toList ++
    (finalReply.map fun reply =>
      locale.telegramFinalReplyHeading ++ "\n" ++ truncateMiddle reply telegramFinalReplyMaxChars).toList ++
    (retryError.map fun error =>
      locale.telegramRetryErrorSummary ++ "\n```text\n" ++
        truncateMiddle (RustText.replace error "```" "'''") retryErrorChars ++ "\n```").toList
  "\n\n".intercalate sections

def fits (rendered : String) : Bool := charCount rendered ≤ telegramCommandProgressMaxChars

end TelegramCommandProgressSnapshot

def commandProgressPriority : TelegramCommandProgressStatus → Nat
  | .succeeded => 0
  | .interrupted => 1
  | .failed => 2
  | .running => 3

/-- The position of the step that goes first, of those that are selected: the oldest one of the least priority. -/
def leastImportantEntryPosition (entries : List TelegramCommandProgressEntry) : List Nat → Option Nat
  | [] => none
  | index :: selected =>
    let key (index : Nat) : Nat := ((entries[index]?).map fun entry => commandProgressPriority entry.status).getD 0
    match leastImportantEntryPosition entries selected with
    | none => some 0
    | some position =>
      let other := selected.getD position 0
      if key index < key other ∨ key index = key other ∧ index ≤ other then some 0 else some (position + 1)

theorem leastImportantEntryPosition_lt {entries : List TelegramCommandProgressEntry} {selected : List Nat}
    {position : Nat} (h : leastImportantEntryPosition entries selected = some position) :
    position < selected.length := by
  induction selected generalizing position with
  | nil => exact absurd h (Option.some_ne_none _).symm
  | cons index selected ih =>
    have hzero : 0 < (index :: selected).length := Nat.succ_pos _
    rw [leastImportantEntryPosition] at h
    cases hrest : leastImportantEntryPosition entries selected with
    | none =>
      rw [hrest] at h
      exact Option.some.inj h ▸ hzero
    | some other =>
      rw [hrest] at h
      have hother := ih hrest
      dsimp only at h
      split at h
      next => exact Option.some.inj h ▸ hzero
      next =>
        rw [← Option.some.inj h, List.length_cons]
        omega

namespace TelegramCommandProgressSnapshot

variable (snapshot : TelegramCommandProgressSnapshot)

/-- The loop of `render_command_progress`. It shortens the outputs of failures, then takes steps away, and at last
shortens the retry error. -/
def renderCommandProgressLoop (selected : List Nat) (failureOutputChars retryErrorChars : Nat) : String :=
  let render := snapshot.renderCommandProgressWithLimits tenths locale
  let rendered := render selected failureOutputChars retryErrorChars
  if fits rendered then rendered
  else
    let hasFailureOutput := selected.any fun index =>
      (snapshot.entries[index]?).any fun entry => entry.failureOutput.any (· ≠ "")
    if failureOutputChars > 0 && hasFailureOutput && fits (render selected 0 retryErrorChars) then
      let lower := BudgetSearch.search (fun candidate => fits (render selected candidate retryErrorChars)) 0
        failureOutputChars
      render selected lower retryErrorChars
    else
      match _hposition : leastImportantEntryPosition snapshot.entries selected with
      | some position =>
        renderCommandProgressLoop (selected.eraseIdx position) telegramCommandProgressFailureChars
          retryErrorChars
      | none =>
        if _hretry : retryErrorChars > 0 ∧ snapshot.retryCount > 0 ∧ snapshot.retryError.isSome then
          if fits (render selected 0 0) then
            render selected 0 (BudgetSearch.search (fun candidate => fits (render selected 0 candidate)) 0 retryErrorChars)
          else
            renderCommandProgressLoop selected
              (if failureOutputChars > 0 && hasFailureOutput then 0 else failureOutputChars) 0
        else truncateMiddle rendered telegramCommandProgressMaxChars
termination_by (selected.length, retryErrorChars)
decreasing_by
  · have hlt := leastImportantEntryPosition_lt _hposition
    refine Prod.Lex.left _ _ ?_
    rw [List.length_eraseIdx_of_lt hlt]
    omega
  · exact Prod.Lex.right _ _hretry.1

def renderCommandProgress : String :=
  snapshot.renderCommandProgressLoop tenths locale (selectedEntryIndices snapshot.entries)
    telegramCommandProgressFailureChars telegramCommandProgressRetryErrorChars

end TelegramCommandProgressSnapshot

/-- `selected_entry_indices` of the agents: those that run or did not succeed, then the newest of the others. -/
def selectedCollabIndices (snapshot : TelegramCollabProgressSnapshot) : List Nat :=
  let indices := List.range snapshot.entries.length
  let select (selected : List Nat) (want : TelegramCollabProgressStatus → Bool) (indices : List Nat) : List Nat :=
    indices.foldl
      (fun selected index =>
        if (snapshot.entries[index]?).any (want ·.status) && selected.length < telegramCollabVisibleAgents then
          selected ++ [index]
        else selected)
      selected
  let unfinished := [TelegramCollabProgressStatus.running, .failed, .interrupted].foldl
    (fun selected status => select selected (· = status) indices) []
  (select unfinished (fun status => status = .responded || status = .succeeded) indices.reverse).insertionSort (· ≤ ·)

def renderCollabEntry (entry : TelegramCollabProgressEntry) : String :=
  let name := truncateInline entry.name telegramCollabNameChars
  let status := locale.telegramProgressStatusLabel (collabProgressStatusKey entry.status)
  let durationMs := entry.updatedAtMs - entry.startedAtMs
  let duration :=
    if entry.status ≠ .running ∧ durationMs > 0 then " · " ++ locale.telegramCollabDuration durationMs else ""
  let detail := match entry.detail with
    | some detail => "\n└ " ++ truncateInline detail telegramCollabDetailChars
    | none => ""
  status ++ " · `" ++ name ++ "`" ++ duration ++ detail

def renderCollabProgress (snapshot : TelegramCollabProgressSnapshot) : String :=
  let count (status : TelegramCollabProgressStatus) : Nat :=
    (snapshot.entries.filter fun entry => entry.status = status).length
  let total := saturatingAdd snapshot.droppedEntries snapshot.entries.length
  let selected := selectedCollabIndices snapshot
  let omitted := total - selected.length
  let sections :=
    [locale.telegramCollabProgressTitle snapshot.completed total (count .failed) (count .running) (count .interrupted)] ++
    (selected.filterMap (snapshot.entries[·]?)).map (renderCollabEntry locale) ++
    if omitted > 0 then [locale.telegramCollabProgressOmitted omitted] else []
  "\n\n".intercalate sections

def renderCommentaryFallback (rendered : TelegramCommentaryRender) : String :=
  "\n\n".intercalate
    ((if rendered.dropped > 0 then [locale.telegramCommentaryOmitted rendered.dropped] else []) ++
      rendered.entries.map (·.text))

namespace TelegramCommandProgressSnapshot

variable (snapshot : TelegramCommandProgressSnapshot)

def fallbackSteps : String :=
  let commandFallback := snapshot.renderCommandProgress tenths locale
  let commentaryText := truncateTail (renderCommentaryFallback locale (snapshot.keptCommentary locale))
    (telegramTaskProgressFallbackMaxChars - saturatingAdd (charCount commandFallback) 2)
  if commentaryText = "" then commandFallback else commentaryText ++ "\n\n" ++ commandFallback

/-- The fallback text of `render_task_progress`. -/
def taskProgressFallback : String :=
  let commandFallback := snapshot.fallbackSteps tenths locale
  match snapshot.collab with
  | some collab =>
    let renderedCollab := renderCollabProgress locale collab
    let combined := commandFallback ++ "\n\n" ++ renderedCollab
    if charCount combined ≤ telegramTaskProgressFallbackMaxChars then combined
    else
      let summary := (RustText.lines renderedCollab).head?.getD ""
      let combined := commandFallback ++ "\n\n" ++ summary
      if charCount combined ≤ telegramTaskProgressFallbackMaxChars then combined else commandFallback
  | none => commandFallback

variable {tenths locale snapshot}

theorem fits_iff {rendered : String} : fits rendered = true ↔ charCount rendered ≤ telegramCommandProgressMaxChars :=
  decide_eq_true_iff

theorem renderCommandProgressLoop_le (selected : List Nat) (failureOutputChars retryErrorChars : Nat) :
    charCount (snapshot.renderCommandProgressLoop tenths locale selected failureOutputChars retryErrorChars) ≤
      telegramCommandProgressMaxChars := by
  -- along the loop: every result was tested, or is cut to the limit
  fun_induction renderCommandProgressLoop tenths locale snapshot selected failureOutputChars retryErrorChars with
  | case1 selected failureOutputChars retryErrorChars render rendered hfits => exact fits_iff.mp hfits
  | case2 selected failureOutputChars retryErrorChars render rendered hlong hasFailureOutput hshort lower =>
    have hzero := (Bool.and_eq_true_iff.mp hshort).2
    have hlower := @BudgetSearch.search_fits (fun candidate => fits (render selected candidate retryErrorChars)) 0
      failureOutputChars hzero
    exact fits_iff.mp hlower
  | case3 selected failureOutputChars retryErrorChars render rendered hlong hasFailureOutput hshort position hposition
      ih => exact ih
  | case4 selected failureOutputChars retryErrorChars render rendered hlong hasFailureOutput hshort hposition hretry
      hzero =>
    have hlower := @BudgetSearch.search_fits (fun candidate => fits (render selected 0 candidate)) 0 retryErrorChars hzero
    exact fits_iff.mp hlower
  | case5 selected failureOutputChars retryErrorChars render rendered hlong hasFailureOutput hshort hposition hretry
      hzero ih => exact ih
  | case6 selected failureOutputChars retryErrorChars render rendered hlong hasFailureOutput hshort hposition hretry =>
    exact charCount_truncateMiddle rendered telegramCommandProgressMaxChars

theorem charCount_append (s t : String) : charCount (s ++ t) = charCount s + charCount t := by
  rw [charCount, String.toList_append, List.length_append]
  rfl

theorem fallbackSteps_le : charCount (snapshot.fallbackSteps tenths locale) ≤ telegramTaskProgressFallbackMaxChars := by
  have hsteps : charCount (snapshot.renderCommandProgress tenths locale) ≤ telegramCommandProgressMaxChars :=
    renderCommandProgressLoop_le _ _ _
  unfold fallbackSteps
  dsimp only
  generalize snapshot.renderCommandProgress tenths locale = commandFallback at hsteps
  have hcommentary := charCount_truncateTail (renderCommentaryFallback locale (snapshot.keptCommentary locale))
    (telegramTaskProgressFallbackMaxChars - saturatingAdd (charCount commandFallback) 2)
  have hmax : telegramCommandProgressMaxChars + 2 ≤ u64Max := by decide
  have hroom : telegramCommandProgressMaxChars + 2 ≤ telegramTaskProgressFallbackMaxChars := by decide
  have hsaturating : saturatingAdd (charCount commandFallback) 2 = charCount commandFallback + 2 :=
    Nat.min_eq_left (by omega)
  split
  next => omega
  next =>
    rw [charCount_append, charCount_append]
    have hseparator : charCount "\n\n" = 2 := by decide
    omega

theorem taskProgressFallback_le :
    charCount (snapshot.taskProgressFallback tenths locale) ≤ telegramTaskProgressFallbackMaxChars := by
  unfold taskProgressFallback
  cases snapshot.collab with
  | none => exact fallbackSteps_le
  | some collab =>
    dsimp only
    split
    next hcombined => exact hcombined
    next =>
      split
      next hsummary => exact hsummary
      next => exact fallbackSteps_le

end TelegramCommandProgressSnapshot

/-- The progress texts fit into their messages. -/
theorem progress_fits (snapshot : TelegramCommandProgressSnapshot) :
    charCount (snapshot.renderCommandProgress tenths locale) ≤ telegramCommandProgressMaxChars ∧
      charCount (snapshot.taskProgressFallback tenths locale) ≤ telegramTaskProgressFallbackMaxChars :=
  ⟨TelegramCommandProgressSnapshot.renderCommandProgressLoop_le _ _ _,
    TelegramCommandProgressSnapshot.taskProgressFallback_le⟩

end

end MochiPort
