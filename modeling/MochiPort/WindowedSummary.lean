import Mathlib.Data.String.Basic
import MochiPort.SummaryTotals

namespace MochiPort

open TokenUsage

variable {F C : Type}

structure Summary.MadeOf (summary : Summary C) (costOf : String → TokenUsage → C)
    (scans : List (String × SessionScan F)) : Prop where
  sessions : summary.sessions = min scans.length summarySessionsMax
  usage : summary.usage = saturated (scans.map fun scan => scan.2.usage)
  days : ∀ day, day ∈ summary.days ↔ dayUsages scans day.date ≠ [] ∧
    day.usage = wrapped (dayUsages scans day.date) ∧
    day.sessions = min (dayUsages scans day.date).length summarySessionsMax
  newestFirst : summary.days.Pairwise fun day earlier => earlier.date < day.date
  models : ∀ model, model ∈ summary.models ↔ modelUsages scans model.name ≠ [] ∧
    model.usage = saturated (modelUsages scans model.name) ∧
    model.sessions = (modelUsages scans model.name).length % 2 ^ 32 ∧ model.costUsd = costOf model.name model.usage
  modelsOnce : (summary.models.map fun model => model.name).Nodup
  providers : ∀ provider, provider ∈ summary.providers ↔ providerUsages scans provider.name ≠ [] ∧
    provider.usage = saturated (providerUsages scans provider.name) ∧
    provider.sessions = (providerUsages scans provider.name).length % 2 ^ 32
  providersOnce : (summary.providers.map fun provider => provider.name).Nodup
  breakdown : ∀ row, row ∈ summary.breakdown ↔
    breakdownUsages scans row.day row.model row.source row.project ≠ [] ∧ row.service = codexService ∧
    row.usage = saturated (breakdownUsages scans row.day row.model row.source row.project) ∧
    row.costUsd = costOf row.model row.usage
  breakdownOnce : (summary.breakdown.map fun row => (row.day, row.model, row.source, row.project)).Nodup

/-- No count is greater than in the wider summary, which is made up of `scans`. The totals of the days, which are added
up in 64 bits, and the sessions of the models and providers, which are counted in 32, are compared as long as they
fit. -/
structure Summary.CountsUpTo (summary wider : Summary C) (scans : List (String × SessionScan F)) : Prop where
  sessions : summary.sessions ≤ wider.sessions
  usage : summary.usage ≤ wider.usage
  days : ∀ day ∈ summary.days, ∃ more ∈ wider.days, more.date = day.date ∧ day.sessions ≤ more.sessions ∧
    (TokenUsage.sum (dayUsages scans day.date) ≤ largest → day.usage ≤ more.usage)
  models : ∀ model ∈ summary.models, ∃ more ∈ wider.models, more.name = model.name ∧ model.usage ≤ more.usage ∧
    ((modelUsages scans model.name).length < 2 ^ 32 → model.sessions ≤ more.sessions)
  providers : ∀ provider ∈ summary.providers, ∃ more ∈ wider.providers, more.name = provider.name ∧
    provider.usage ≤ more.usage ∧
    ((providerUsages scans provider.name).length < 2 ^ 32 → provider.sessions ≤ more.sessions)
  breakdown : ∀ row ∈ summary.breakdown, ∃ more ∈ wider.breakdown, more.day = row.day ∧ more.model = row.model ∧
    more.source = row.source ∧ more.project = row.project ∧ row.usage ≤ more.usage

section

variable {scans scans' : List (String × SessionScan F)}

theorem mem_aggregateByDay {day : DayUsage} : day ∈ aggregateByDay scans ↔ dayUsages scans day.date ≠ [] ∧
    day.usage = wrapped (dayUsages scans day.date) ∧
    day.sessions = (dayUsages scans day.date).length := by
  rw [aggregateByDay, mem_collect]
  simp only [under_dayItems, foldl_addWrapping]
  constructor
  · rintro ⟨date, hsome, rfl⟩
    exact ⟨hsome, rfl, rfl⟩
  · obtain ⟨date, usage, sessions⟩ := day
    intro h
    dsimp only at h
    obtain ⟨hsome, rfl, rfl⟩ := h
    exact ⟨date, hsome, rfl⟩

theorem aggregateByDay_newestFirst (scans : List (String × SessionScan F)) :
    (aggregateByDay scans).Pairwise fun day earlier => earlier.date < day.date := by
  have hsorted : (aggregateByDay scans).Pairwise fun day earlier => earlier.date ≤ day.date :=
    List.pairwise_insertionSort _ _
  have hdates : ((aggregateByDay scans).map DayUsage.date).Nodup :=
    collect_nodup DayUsage.date fun _ _ => rfl
  have hdistinct : (aggregateByDay scans).Pairwise fun day earlier => day.date ≠ earlier.date :=
    List.pairwise_map.mp hdates
  exact hsorted.imp₂ (fun _ _ hle hne => lt_of_le_of_ne hle (Ne.symm hne)) hdistinct

variable {costOf : String → TokenUsage → C}

theorem mem_aggregateModels {model : ModelUsage C} :
    model ∈ aggregateModels scans costOf ↔ modelUsages scans model.name ≠ [] ∧
      model.usage = saturated (modelUsages scans model.name) ∧
      model.sessions = (modelUsages scans model.name).length % 2 ^ 32 ∧
      model.costUsd = costOf model.name model.usage := by
  have hunder : ∀ name, Rollups.under name (modelItems scans) = modelUsages scans name :=
    under_tableItems fun scan => scan.models
  rw [aggregateModels, mem_collect]
  simp only [hunder, foldl_accumulate]
  constructor
  · rintro ⟨name, hsome, rfl⟩
    exact ⟨hsome, rfl, rfl, rfl⟩
  · obtain ⟨⟨name, usage, sessions⟩, cost⟩ := model
    intro h
    dsimp only at h
    obtain ⟨hsome, rfl, rfl, rfl⟩ := h
    exact ⟨name, hsome, rfl⟩

theorem mem_aggregateProviders {provider : NamedUsage} :
    provider ∈ aggregateProviders scans ↔ providerUsages scans provider.name ≠ [] ∧
      provider.usage = saturated (providerUsages scans provider.name) ∧
      provider.sessions = (providerUsages scans provider.name).length % 2 ^ 32 := by
  have hunder : ∀ name, Rollups.under name (providerItems scans) = providerUsages scans name :=
    under_tableItems fun scan => scan.providers
  rw [aggregateProviders, mem_collect]
  simp only [hunder, foldl_accumulate]
  constructor
  · rintro ⟨name, hsome, rfl⟩
    exact ⟨hsome, rfl, rfl⟩
  · obtain ⟨name, usage, sessions⟩ := provider
    intro h
    dsimp only at h
    obtain ⟨hsome, rfl, rfl⟩ := h
    exact ⟨name, hsome, rfl⟩

theorem mem_aggregateBreakdown {row : BreakdownRow C} :
    row ∈ aggregateBreakdown scans costOf ↔ breakdownUsages scans row.day row.model row.source row.project ≠ [] ∧
      row.service = codexService ∧
      row.usage = saturated (breakdownUsages scans row.day row.model row.source row.project) ∧
      row.costUsd = costOf row.model row.usage := by
  rw [aggregateBreakdown, mem_collect]
  constructor
  · rintro ⟨⟨day, model, provider, project⟩, hsome, rfl⟩
    rw [under_breakdownItems] at hsome ⊢
    rw [foldl_accumulate]
    exact ⟨hsome, rfl, rfl, rfl⟩
  · obtain ⟨day, service, source, model, project, usage, cost⟩ := row
    intro h
    dsimp only at h
    obtain ⟨hsome, rfl, rfl, rfl⟩ := h
    refine ⟨(day, model, source, project), ?_, ?_⟩
    · rw [under_breakdownItems]
      exact hsome
    · rw [under_breakdownItems, foldl_accumulate]

theorem aggregateModels_nodup : ((aggregateModels scans costOf).map fun model => model.name).Nodup := by
  exact collect_nodup (fun model : ModelUsage C => model.name) fun _ _ => rfl

theorem aggregateProviders_nodup : ((aggregateProviders scans).map fun provider => provider.name).Nodup := by
  exact collect_nodup NamedUsage.name fun _ _ => rfl

theorem aggregateBreakdown_nodup :
    ((aggregateBreakdown scans costOf).map fun row => (row.day, row.model, row.source, row.project)).Nodup := by
  exact collect_nodup (fun row : BreakdownRow C => (row.day, row.model, row.source, row.project)) fun _ _ => rfl

end

section

variable {scans scans' : List (String × SessionScan F)} {summary wider : Summary C}
  {costOf : String → TokenUsage → C}

theorem ne_nil_of_sublist {A : Type*} {xs ys : List A} (h : xs.Sublist ys) (hne : xs ≠ []) : ys ≠ [] := by
  rintro rfl
  exact hne (List.sublist_nil.mp h)

theorem mod_le_mod_of_lt {count more width : Nat} (hle : count ≤ more) (hfits : more < width) :
    count % width ≤ more % width := by
  rw [Nat.mod_eq_of_lt hfits]
  exact (Nat.mod_le count width).trans hle

theorem Summary.MadeOf.countsUpTo (h : summary.MadeOf costOf scans) (h' : wider.MadeOf costOf scans')
    (hmore : scans.Sublist scans') :
    summary.CountsUpTo wider scans' := by
  refine ⟨?_, ?_, fun day hday => ?_, fun model hmodel => ?_, fun provider hprovider => ?_, fun row hrow => ?_⟩
  · have hlength := hmore.length_le
    rw [h.sessions, h'.sessions]
    omega
  · rw [h.usage, h'.usage]
    exact saturated_le (hmore.map _)
  · obtain ⟨hsome, husage, hsessions⟩ := (h.days day).mp hday
    have hdays : (dayUsages scans day.date).Sublist (dayUsages scans' day.date) := hmore.filterMap _
    let more : DayUsage := ⟨day.date, wrapped (dayUsages scans' day.date),
      min (dayUsages scans' day.date).length summarySessionsMax⟩
    have hmem : more ∈ wider.days := (h'.days more).mpr ⟨ne_nil_of_sublist hdays hsome, rfl, rfl⟩
    refine ⟨more, hmem, rfl, ?_, fun hfits => ?_⟩
    · have hlength := hdays.length_le
      rw [hsessions]
      exact min_le_min_right summarySessionsMax hlength
    · rw [husage]
      exact wrapped_le hdays hfits
  · obtain ⟨hsome, husage, hsessions, -⟩ := (h.models model).mp hmodel
    have hmodels : (modelUsages scans model.name).Sublist (modelUsages scans' model.name) := hmore.filterMap _
    let more : ModelUsage C := ⟨⟨model.name, saturated (modelUsages scans' model.name),
      (modelUsages scans' model.name).length % 2 ^ 32⟩,
      costOf model.name (saturated (modelUsages scans' model.name))⟩
    have hmem : more ∈ wider.models := (h'.models more).mpr ⟨ne_nil_of_sublist hmodels hsome, rfl, rfl, rfl⟩
    refine ⟨more, hmem, rfl, ?_, fun hfits => ?_⟩
    · rw [husage]
      exact saturated_le hmodels
    · rw [hsessions]
      exact mod_le_mod_of_lt hmodels.length_le hfits
  · obtain ⟨hsome, husage, hsessions⟩ := (h.providers provider).mp hprovider
    have hproviders : (providerUsages scans provider.name).Sublist (providerUsages scans' provider.name) :=
      hmore.filterMap _
    let more : NamedUsage := ⟨provider.name, saturated (providerUsages scans' provider.name),
      (providerUsages scans' provider.name).length % 2 ^ 32⟩
    have hmem : more ∈ wider.providers := (h'.providers more).mpr ⟨ne_nil_of_sublist hproviders hsome, rfl, rfl⟩
    refine ⟨more, hmem, rfl, ?_, fun hfits => ?_⟩
    · rw [husage]
      exact saturated_le hproviders
    · rw [hsessions]
      exact mod_le_mod_of_lt hproviders.length_le hfits
  · obtain ⟨hsome, -, husage, -⟩ := (h.breakdown row).mp hrow
    have hrows : (breakdownUsages scans row.day row.model row.source row.project).Sublist
        (breakdownUsages scans' row.day row.model row.source row.project) := hmore.filterMap _
    let usage := saturated (breakdownUsages scans' row.day row.model row.source row.project)
    let more : BreakdownRow C :=
      ⟨row.day, codexService, row.source, row.model, row.project, usage, costOf row.model usage⟩
    have hmem : more ∈ wider.breakdown := (h'.breakdown more).mpr ⟨ne_nil_of_sublist hrows hsome, rfl, rfl, rfl⟩
    refine ⟨more, hmem, rfl, rfl, rfl, rfl, ?_⟩
    rw [husage]
    exact saturated_le hrows

end

namespace Disk

variable (disk : Disk) (codec : RolloutCodec F) (costOf : String → TokenUsage → C) (roots : List DiskPath)

theorem compute_madeOf (windowDays : Nat) :
    (disk.compute codec costOf roots windowDays).MadeOf costOf (disk.windowSessions codec roots windowDays) := by
  unfold compute
  split
  next hnone =>
    subst hnone
    constructor <;> simp [windowSessions, dayUsages, modelUsages, providerUsages, breakdownUsages, saturated,
      TokenUsage.sum, TokenUsage.map, TokenUsage.default]
  next =>
    rw [scanRoots_eq]
    generalize disk.windowSessions codec roots windowDays = scans
    refine ⟨rfl, foldl_accumulate _, fun day => ?_, ?_, fun model => mem_aggregateModels, ?_,
      fun provider => mem_aggregateProviders, ?_, fun row => mem_aggregateBreakdown, ?_⟩
    · obtain ⟨date, usage, sessions⟩ := day
      rw [List.mem_map]
      constructor
      · rintro ⟨counted, hcounted, hday⟩
        obtain ⟨hsome, husage, hsessions⟩ := mem_aggregateByDay.mp hcounted
        cases hday
        exact ⟨hsome, husage, by rw [hsessions]⟩
      · intro h
        dsimp only at h
        obtain ⟨hsome, rfl, rfl⟩ := h
        exact ⟨⟨date, _, _⟩, mem_aggregateByDay.mpr ⟨hsome, rfl, rfl⟩, rfl⟩
    · exact List.pairwise_map.mpr (aggregateByDay_newestFirst scans)
    · exact aggregateModels_nodup
    · exact aggregateProviders_nodup
    · exact aggregateBreakdown_nodup

/-- The summary is made up of the sessions in the newest day directories of each root, and of all sessions of a root
without any; a wider window lowers no count. -/
theorem summary_windowed (disk : Disk) (codec : RolloutCodec F) (costOf : String → TokenUsage → C)
    (roots : List DiskPath) (windowDays : Nat) :
    (disk.compute codec costOf roots windowDays).MadeOf costOf (disk.windowSessions codec roots windowDays) ∧
    (∀ root, ((disk.dayDirectories root).filter fun directory =>
      ((disk.dayDirectories root).filter (directory < ·)).length < max windowDays 1).length ≤ max windowDays 1) ∧
    ∀ widerDays, windowDays ≤ widerDays →
      (disk.compute codec costOf roots windowDays).CountsUpTo (disk.compute codec costOf roots widerDays)
        (disk.windowSessions codec roots widerDays) := by
  have hmade := compute_madeOf disk codec costOf roots
  refine ⟨hmade windowDays, fun root => windowDirectories_length disk root windowDays, fun widerDays hwider => ?_⟩
  exact (hmade windowDays).countsUpTo (hmade widerDays) (windowSessions_sublist codec disk roots hwider)

def fileName (name : String) : FileName := (textBytes name).map UInt8.toFin

def sampleRecord : String := "\x7b\"type\":\"event_msg\",\"payload\":\x7b\"type\":\"token_count\"\x7d\x7d"

def sampleCodec : RolloutCodec Unit where
  record text :=
    if text = sampleRecord then
      some ⟨none, some "event_msg", some (.object [("type", .string "token_count")]), none⟩
    else none
  tokenCount _ := some ⟨⟨some ⟨1, 0, 0, 0, 0, 1⟩, none, none⟩, none⟩
  sessionMeta _ := none
  milliseconds _ := 0

def sampleFile : DiskEntry := .file (textBytes sampleRecord ++ [lineEnd])

/-- A root with the files of two days and no day directories. -/
def archiveDisk : Disk :=
  ((∅ : Disk).insert [fileName "a", fileName "rollout-2026-08-20T01.jsonl"] sampleFile).insert
    [fileName "a", fileName "rollout-2026-08-24T01.jsonl"] sampleFile

/-- A root with a day directory for each of two days. -/
def liveDisk : Disk :=
  (((((∅ : Disk).insert [fileName "s", fileName "2026"] .directory).insert
    [fileName "s", fileName "2026", fileName "08"] .directory).insert
    [fileName "s", fileName "2026", fileName "08", fileName "20"] .directory).insert
    [fileName "s", fileName "2026", fileName "08", fileName "24"] .directory).insert
    [fileName "s", fileName "2026", fileName "08", fileName "20", fileName "rollout-1.jsonl"] sampleFile

theorem live_window_counts :
    (liveDisk.compute sampleCodec (fun _ _ => ()) [[fileName "s"]] 1).sessions ≤
      (liveDisk.compute sampleCodec (fun _ _ => ()) [[fileName "s"]] 2).sessions :=
  ((summary_windowed liveDisk sampleCodec (fun _ _ => ()) [[fileName "s"]] 1).2.2 2 (by decide)).sessions

/-- A window of one day shows both days of an archive, and none of a live tree whose newest directory is empty. -/
theorem window_ignores_archive :
    ((archiveDisk.compute sampleCodec (fun _ _ => ()) [[fileName "a"]] 1).days.map DayUsage.date =
        ["2026-08-24", "2026-08-20"]) ∧
      (liveDisk.compute sampleCodec (fun _ _ => ()) [[fileName "s"]] 1).sessions = 0 ∧
      (liveDisk.compute sampleCodec (fun _ _ => ()) [[fileName "s"]] 2).sessions = 1 := by
  refine ⟨?_, ?_, ?_⟩
  · decide +kernel
  · decide +kernel
  · decide +kernel

end Disk

end MochiPort
