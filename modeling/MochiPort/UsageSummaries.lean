import MochiPort.RolloutTree
import MochiPort.Rollups

namespace MochiPort

def summarySessionsMax : Nat := 0xffffffff

structure DayUsage where
  date : String
  usage : TokenUsage
  sessions : Nat
  deriving DecidableEq

structure HourUsage where
  date : String
  hour : Nat
  usage : TokenUsage
  sessions : Nat
  deriving DecidableEq

structure NamedUsage where
  name : String
  usage : TokenUsage
  sessions : Nat
  deriving DecidableEq

/-- Usage of one model and its price, over the type `C` of a price. -/
structure ModelUsage (C : Type) extends NamedUsage where
  costUsd : C
  deriving DecidableEq

structure BreakdownRow (C : Type) where
  day : String
  service : String
  source : String
  model : String
  project : String
  usage : TokenUsage
  costUsd : C
  deriving DecidableEq

/-- The usage of the sessions in the window, the newest day first. -/
structure Summary (C : Type) where
  windowDays : Nat
  sessions : Nat
  usage : TokenUsage
  days : List DayUsage
  hours : List HourUsage
  projects : List NamedUsage
  models : List (ModelUsage C)
  providers : List NamedUsage
  breakdown : List (BreakdownRow C)

def defaultWindowDays : Nat := 7
def maxWindowDays : Nat := 90

def codexService : String := "codex"

def normalizeWindowDays (requested : Option Nat) : Nat :=
  match requested with
  | some days => if 0 < days then min days maxWindowDays else defaultWindowDays
  | none => defaultWindowDays

/-- The sum of each field in 64 bits, without a check. -/
def addWrapping (total addition : TokenUsage) : TokenUsage where
  inputTokens := (total.inputTokens + addition.inputTokens) % 2 ^ 64
  cachedInputTokens := (total.cachedInputTokens + addition.cachedInputTokens) % 2 ^ 64
  cacheWriteInputTokens := (total.cacheWriteInputTokens + addition.cacheWriteInputTokens) % 2 ^ 64
  outputTokens := (total.outputTokens + addition.outputTokens) % 2 ^ 64
  reasoningOutputTokens := (total.reasoningOutputTokens + addition.reasoningOutputTokens) % 2 ^ 64
  totalTokens := (total.totalTokens + addition.totalTokens) % 2 ^ 64

/-- The entries of the groups, in the order of `before`. -/
def collect {K R : Type} [DecidableEq K] (groups : Table K (TokenUsage × Nat)) (row : K → TokenUsage × Nat → R)
    (before : R → R → Prop) [DecidableRel before] : List R :=
  (groups.entries.map fun group => row group.1 group.2).insertionSort before

/-- The sessions of a group are counted in 32 bits, without a check. -/
def NamedUsage.ofGroup (name : String) (group : TokenUsage × Nat) : NamedUsage := ⟨name, group.1, group.2 % 2 ^ 32⟩

/-- The entry with more tokens first, then the one with the smaller name. -/
def NamedUsage.before (left right : NamedUsage) : Prop :=
  right.usage.totalTokens < left.usage.totalTokens ∨
    left.usage.totalTokens = right.usage.totalTokens ∧ left.name ≤ right.name

instance : DecidableRel NamedUsage.before := fun _ _ => inferInstanceAs (Decidable (_ ∨ _))

def HourUsage.before (left right : HourUsage) : Prop :=
  right.date < left.date ∨ left.date = right.date ∧ right.hour ≤ left.hour

instance : DecidableRel HourUsage.before := fun _ _ => inferInstanceAs (Decidable (_ ∨ _))

def BreakdownRow.before {C : Type} (left right : BreakdownRow C) : Prop :=
  left.day < right.day ∨ left.day = right.day ∧ (left.model < right.model ∨ left.model = right.model ∧
    (left.source < right.source ∨ left.source = right.source ∧ left.project ≤ right.project))

instance {C : Type} : DecidableRel (BreakdownRow.before (C := C)) := fun _ _ => inferInstanceAs (Decidable (_ ∨ _))

section

variable {F : Type} (scans : List (String × SessionScan F))

def dayItems : List (String × TokenUsage) := scans.map fun (date, scan) => (date, scan.usage)

/-- The daily totals are the ones that are added up without a check. -/
def aggregateByDay : List DayUsage :=
  collect (Rollups.rollUp addWrapping .default (dayItems scans)) (fun date group => ⟨date, group.1, group.2⟩)
    fun left right => right.date ≤ left.date

def hourItems : List ((String × Nat) × TokenUsage) :=
  scans.flatMap fun (date, scan) => scan.hourly.entries.map fun e => ((date, e.1), e.2)

def aggregateHours : List HourUsage :=
  collect (Rollups.rollUp accumulate .default (hourItems scans))
    (fun (date, hour) group => ⟨date, hour, group.1, group.2 % 2 ^ 32⟩) HourUsage.before

/-- A session without a working directory belongs to no project. -/
def projectItems : List (String × TokenUsage) :=
  scans.filterMap fun (_, scan) => scan.project.map fun project => (project, scan.usage)

def aggregateProjects : List NamedUsage :=
  collect (Rollups.rollUp accumulate .default (projectItems scans)) NamedUsage.ofGroup NamedUsage.before

def modelItems : List (String × TokenUsage) :=
  scans.flatMap fun (_, scan) => scan.models.entries.map fun e => (e.1, e.2)

def aggregateModels {C : Type} (costOf : String → TokenUsage → C) : List (ModelUsage C) :=
  collect (Rollups.rollUp accumulate .default (modelItems scans))
    (fun name group => ⟨.ofGroup name group, costOf name group.1⟩)
    fun left right => left.toNamedUsage.before right.toNamedUsage

def providerItems : List (String × TokenUsage) :=
  scans.flatMap fun (_, scan) => scan.providers.entries.map fun e => (e.1, e.2)

def aggregateProviders : List NamedUsage :=
  collect (Rollups.rollUp accumulate .default (providerItems scans)) NamedUsage.ofGroup NamedUsage.before

/-- The day, the model, the provider and the project, which is empty for a session without one. -/
def breakdownItems : List ((String × String × String × String) × TokenUsage) :=
  scans.flatMap fun (day, scan) =>
    scan.byModelProvider.entries.map fun e => ((day, e.1.1, e.1.2, scan.project.getD ""), e.2)

def aggregateBreakdown {C : Type} (costOf : String → TokenUsage → C) : List (BreakdownRow C) :=
  collect (Rollups.rollUp accumulate .default (breakdownItems scans))
    (fun (day, model, provider, project) group =>
      ⟨day, codexService, provider, model, project, group.1, costOf model group.1⟩)
    BreakdownRow.before

end

namespace Disk

variable {F C : Type} (disk : Disk) (codec : RolloutCodec F) (costOf : String → TokenUsage → C) (roots : List DiskPath)

/-- The summary of the sessions under the roots, for a window that has been clamped. -/
def compute (windowDays : Nat) : Summary C :=
  if roots = [] then ⟨windowDays, 0, .default, [], [], [], [], [], []⟩
  else
    let scans := disk.scanRoots codec roots windowDays
    { windowDays := windowDays
      sessions := min scans.length summarySessionsMax
      usage := (scans.map fun scan => scan.2.usage).foldl accumulate .default
      days := (aggregateByDay scans).map fun day => { day with sessions := min day.sessions summarySessionsMax }
      hours := aggregateHours scans
      projects := aggregateProjects scans
      models := aggregateModels scans costOf
      providers := aggregateProviders scans
      breakdown := aggregateBreakdown scans costOf }

def summary (windowDays : Nat) : Summary C := disk.compute codec costOf roots (normalizeWindowDays (some windowDays))

end Disk

end MochiPort
