import MochiPort.SummaryWindow

namespace MochiPort

open Rollups

namespace TokenUsage

variable {a b : TokenUsage} {f g : Nat → Nat}

def map (f : Nat → Nat) (a : TokenUsage) : TokenUsage :=
  ⟨f a.inputTokens, f a.cachedInputTokens, f a.cacheWriteInputTokens, f a.outputTokens, f a.reasoningOutputTokens,
    f a.totalTokens⟩

def zipWith (op : Nat → Nat → Nat) (a b : TokenUsage) : TokenUsage :=
  ⟨op a.inputTokens b.inputTokens, op a.cachedInputTokens b.cachedInputTokens,
    op a.cacheWriteInputTokens b.cacheWriteInputTokens, op a.outputTokens b.outputTokens,
    op a.reasoningOutputTokens b.reasoningOutputTokens, op a.totalTokens b.totalTokens⟩

def sum (usages : List TokenUsage) : TokenUsage := usages.foldl (zipWith (· + ·)) default

/-- Every field is at most what it is in the other usage. -/
instance : Preorder TokenUsage where
  le a b := a.inputTokens ≤ b.inputTokens ∧ a.cachedInputTokens ≤ b.cachedInputTokens ∧
    a.cacheWriteInputTokens ≤ b.cacheWriteInputTokens ∧ a.outputTokens ≤ b.outputTokens ∧
    a.reasoningOutputTokens ≤ b.reasoningOutputTokens ∧ a.totalTokens ≤ b.totalTokens
  le_refl a := by simp
  le_trans a b c hab hbc := by omega

def largest : TokenUsage := ⟨u64Max, u64Max, u64Max, u64Max, u64Max, u64Max⟩

/-- The total with each field cut to the largest number. -/
def saturated (usages : List TokenUsage) : TokenUsage := (sum usages).map fun n => min n u64Max

def wrapped (usages : List TokenUsage) : TokenUsage := (sum usages).map fun n => n % 2 ^ 64

theorem le_iff : a ≤ b ↔ a.inputTokens ≤ b.inputTokens ∧ a.cachedInputTokens ≤ b.cachedInputTokens ∧
    a.cacheWriteInputTokens ≤ b.cacheWriteInputTokens ∧ a.outputTokens ≤ b.outputTokens ∧
    a.reasoningOutputTokens ≤ b.reasoningOutputTokens ∧ a.totalTokens ≤ b.totalTokens := Iff.rfl

theorem map_le_map (hf : Monotone f) (h : a ≤ b) : a.map f ≤ b.map f := by
  obtain ⟨h1, h2, h3, h4, h5, h6⟩ := h
  exact ⟨hf h1, hf h2, hf h3, hf h4, hf h5, hf h6⟩

theorem map_eq_self (hf : ∀ n ≤ u64Max, f n = n) (h : a ≤ largest) : a.map f = a := by
  obtain ⟨h1, h2, h3, h4, h5, h6⟩ := h
  simp only [map, hf _ h1, hf _ h2, hf _ h3, hf _ h4, hf _ h5, hf _ h6]

theorem foldl_zipWith (f : Nat → Nat) (op : Nat → Nat → Nat) (hop : ∀ m n, op (f m) n = f (m + n)) (usages : List TokenUsage)
    (a : TokenUsage) : usages.foldl (zipWith op) (a.map f) = (usages.foldl (zipWith (· + ·)) a).map f := by
  induction usages generalizing a with
  | nil => rfl
  | cons usage usages ih =>
    have hstep : zipWith op (a.map f) usage = (zipWith (· + ·) a usage).map f := by
      simp only [zipWith, map, hop]
    rw [List.foldl_cons, List.foldl_cons, hstep, ih]

theorem foldl_accumulate (usages : List TokenUsage) : usages.foldl accumulate default = saturated usages := by
  have hsaturates : ∀ m n, saturatingAdd (min m u64Max) n = min (m + n) u64Max := by
    intro m n
    unfold saturatingAdd
    omega
  exact foldl_zipWith (fun n => min n u64Max) saturatingAdd hsaturates usages default

theorem foldl_addWrapping (usages : List TokenUsage) : usages.foldl addWrapping default = wrapped usages := by
  have hwraps : ∀ m n, (m % 2 ^ 64 + n) % 2 ^ 64 = (m + n) % 2 ^ 64 := fun m n => Nat.mod_add_mod m (2 ^ 64) n
  exact foldl_zipWith (fun n => n % 2 ^ 64) (fun m n => (m + n) % 2 ^ 64) hwraps usages default

variable {usages usages' : List TokenUsage}

section

variable (h : usages.Sublist usages')
include h

theorem sum_le_sum : sum usages ≤ sum usages' := by
  refine foldl_le_of_sublist (fun a b => ?_) (fun a b c hab => ?_) h (le_refl default)
  · simp only [le_iff, zipWith]
    omega
  · simp only [le_iff, zipWith] at hab ⊢
    omega

theorem saturated_le : saturated usages ≤ saturated usages' := by
  have hmin : Monotone fun n => min n u64Max := fun m n hmn => min_le_min_right u64Max hmn
  exact map_le_map hmin (sum_le_sum h)

theorem wrapped_le (hfits : sum usages' ≤ largest) : wrapped usages ≤ wrapped usages' := by
  have hsame : ∀ n ≤ u64Max, n % 2 ^ 64 = n := by
    intro n hn
    simp only [u64Max, UInt64.size] at hn
    omega
  have hle := sum_le_sum h
  have hfits' : sum usages ≤ largest := le_trans hle hfits
  rw [wrapped, wrapped, map_eq_self hsame hfits, map_eq_self hsame hfits']
  exact hle

end

end TokenUsage

section

variable {K R : Type} [DecidableEq K] {add : TokenUsage → TokenUsage → TokenUsage} {items : List (K × TokenUsage)}
  {row : K → TokenUsage × Nat → R} {before : R → R → Prop} [DecidableRel before] {entry : R}

theorem mem_collect : entry ∈ collect (rollUp add .default items) row before ↔
    ∃ key, under key items ≠ [] ∧
      entry = row key ((under key items).foldl add .default, (under key items).length) := by
  rw [collect, List.mem_insertionSort, List.mem_map]
  constructor
  · rintro ⟨⟨key, total, count⟩, hmem, rfl⟩
    obtain ⟨hsome, rfl, rfl⟩ := mem_rollUp.mp hmem
    exact ⟨key, hsome, rfl⟩
  · rintro ⟨key, hsome, rfl⟩
    exact ⟨⟨key, _, _⟩, mem_rollUp.mpr ⟨hsome, rfl, rfl⟩, rfl⟩

theorem collect_nodup (keyOf : R → K) (hkey : ∀ key group, keyOf (row key group) = key) :
    ((collect (rollUp add .default items) row before).map keyOf).Nodup := by
  have hperm := (List.perm_insertionSort before
    ((rollUp add .default items).entries.map fun group => row group.1 group.2)).map keyOf
  refine hperm.nodup_iff.mpr ?_
  rw [List.map_map]
  have hkeys : keyOf ∘ (fun group : Sigma fun _ : K => TokenUsage × Nat => row group.1 group.2) = Sigma.fst :=
    funext fun group => hkey group.1 group.2
  rw [hkeys]
  exact (rollUp add .default items).nodupKeys

end

section

variable {F C : Type} (scans : List (String × SessionScan F))

def dayUsages (date : String) : List TokenUsage :=
  scans.filterMap fun (day, scan) => if day = date then some scan.usage else none

def modelUsages (model : String) : List TokenUsage := scans.filterMap fun (_, scan) => scan.models.lookup model

def providerUsages (provider : String) : List TokenUsage :=
  scans.filterMap fun (_, scan) => scan.providers.lookup provider

/-- The usage of the model and the provider in each session of the day and the project. -/
def breakdownUsages (day model provider project : String) : List TokenUsage :=
  scans.filterMap fun (date, scan) =>
    if date = day ∧ scan.project.getD "" = project then scan.byModelProvider.lookup (model, provider) else none

variable {scans} {scans' : List (String × SessionScan F)}

theorem under_dayItems (date : String) : under date (dayItems scans) = dayUsages scans date := by
  rw [dayItems, under, List.filterMap_map]
  rfl

theorem under_tableItems (table : SessionScan F → Table String TokenUsage) (key : String) :
    under key (scans.flatMap fun scan => (table scan.2).entries.map fun e => (e.1, e.2)) =
      scans.filterMap fun scan => (table scan.2).lookup key := by
  rw [under_flatMap, List.filterMap_eq_flatMap_toList]
  simp only [under_entries]

theorem under_breakdownItems (day model provider project : String) :
    under (day, model, provider, project) (breakdownItems scans) =
      breakdownUsages scans day model provider project := by
  rw [breakdownItems, under_flatMap, breakdownUsages, List.filterMap_eq_flatMap_toList]
  congr 1
  funext ⟨date, scan⟩
  dsimp only
  have hentries := under_entries (model, provider) scan.byModelProvider
  rw [under, List.filterMap_map] at hentries ⊢
  by_cases hsession : date = day ∧ scan.project.getD "" = project
  · rw [if_pos hsession, ← hentries]
    refine List.filterMap_congr fun e _ => ?_
    simp [hsession.1, hsession.2, Prod.ext_iff]
  · rw [if_neg hsession, Option.toList_none, List.filterMap_eq_nil_iff]
    intro e _
    have hkey : ¬(date, e.1.1, e.1.2, scan.project.getD "") = (day, model, provider, project) := by
      simp only [Prod.mk.injEq]
      tauto
    simp [hkey]

end

end MochiPort
