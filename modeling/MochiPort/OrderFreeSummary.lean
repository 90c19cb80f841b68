import Mathlib.Data.Prod.Lex
import Mathlib.Data.String.Basic
import MochiPort.SummaryTotals

namespace Rollups

section

variable {K A : Type*} [DecidableEq K] {add : A → A → A} {zero : A} {items items' : List (K × A)}

/-- The totals do not depend on the order of the amounts when adding two of them in either order is the same. -/
theorem lookup_rollUp_perm (hcomm : ∀ a b c, add (add a b) c = add (add a c) b) (h : items.Perm items') (key : K) :
    (rollUp add zero items).lookup key = (rollUp add zero items').lookup key := by
  have hunder : (under key items).Perm (under key items') := h.filterMap _
  have htotal := hunder.foldl_eq' (f := add) (fun x _ y _ z => hcomm z x y) zero
  have hnone : under key items = [] ↔ under key items' = [] :=
    ⟨fun h => List.nil_perm.mp (h ▸ hunder), fun h => List.perm_nil.mp (h ▸ hunder)⟩
  rw [lookup_rollUp, lookup_rollUp, htotal, hunder.length_eq]
  simp only [hnone]

end

end Rollups

namespace Table

variable {K A R L : Type*} [DecidableEq K] [LinearOrder L] {groups groups' : Table K A}

/-- Rows that are sorted by something that tells their keys apart come in one order only. -/
theorem rows_congr (h : ∀ key, groups.lookup key = groups'.lookup key) (row : K → A → R) (before : R → R → Prop)
    [DecidableRel before] (rank : R → L) (hbefore : ∀ a b, before a b ↔ rank a ≤ rank b)
    (hrank : ∀ k a l b, rank (row k a) = rank (row l b) → k = l) :
    (groups.entries.map fun e => row e.1 e.2).insertionSort before =
      (groups'.entries.map fun e => row e.1 e.2).insertionSort before := by
  have htotal : Std.Total before := ⟨fun a b => by simpa only [hbefore] using le_total (rank a) (rank b)⟩
  have htrans : IsTrans R before := ⟨fun a b c => by simpa only [hbefore] using le_trans⟩
  have hentries : groups.entries.Perm groups'.entries := by
    refine (List.perm_ext_iff_of_nodup groups.nodupKeys.nodup groups'.nodupKeys.nodup).mpr fun e => ?_
    rw [← lookup_eq_some_iff, ← lookup_eq_some_iff, h]
  have hrows := hentries.map fun e => row e.1 e.2
  have hperm := (List.perm_insertionSort before _).trans (hrows.trans (List.perm_insertionSort before _).symm)
  refine hperm.eq_of_pairwise (fun a b ha hb hab hba => ?_) (List.pairwise_insertionSort before _)
    (List.pairwise_insertionSort before _)
  obtain ⟨⟨k, v⟩, he, rfl⟩ := List.mem_map.mp ((List.perm_insertionSort before _).mem_iff.mp ha)
  obtain ⟨⟨l, w⟩, he', rfl⟩ := List.mem_map.mp ((List.perm_insertionSort before _).mem_iff.mp hb)
  obtain rfl := hrank k v l w (le_antisymm ((hbefore _ _).mp hab) ((hbefore _ _).mp hba))
  have hvalue := (lookup_eq_some_iff.mpr (hentries.mem_iff.mp he)).symm.trans (lookup_eq_some_iff.mpr he')
  obtain rfl := Option.some.inj hvalue
  rfl

end Table

namespace MochiPort

open List Rollups

variable {F C : Type}

def minuteWindowMinutes : Int := 48 * 60

def quotaMinuteWindow : Int := 60

structure MinuteBucket where
  minute : Int
  usage : TokenUsage

/-- One point of a quota series: the minute or the day, the kind of the window, and its percentage. -/
abbrev QuotaPoint (K F : Type) := K × QuotaKind × F

structure QuotaSnapshot (F : Type) where
  primary : Option (RateLimitWindow F)
  secondary : Option (RateLimitWindow F)
  planType : Option String
  observedAtMs : Option Int

def QuotaKind.rank : QuotaKind → Nat
  | .primary => 0
  | .secondary => 1

section

variable (scans : List (String × SessionScan F))

def minuteItems : List (Int × TokenUsage) :=
  scans.flatMap fun (_, scan) => scan.minutely.entries.map fun e => (e.1, e.2)

def aggregateMinutes : List MinuteBucket :=
  let merged := collect (rollUp accumulate .default (minuteItems scans)) (fun minute group => ⟨minute, group.1⟩)
    fun left right : MinuteBucket => left.minute ≤ right.minute
  let cutoff := merged.getLast?.map fun newest => newest.minute - minuteWindowMinutes
  merged.filter fun bucket => cutoff.all fun cutoff => decide (cutoff < bucket.minute)

variable {K : Type} [LinearOrder F] [LinearOrder K]

def putPeak (merged : Table (K × QuotaKind) F) (item : (K × QuotaKind) × F) : Table (K × QuotaKind) F :=
  let entry := (merged.lookup item.1).getD item.2
  merged.insert item.1 (if entry < item.2 then item.2 else entry)

def QuotaPoint.before (left right : QuotaPoint K F) : Prop :=
  left.1 < right.1 ∨ left.1 = right.1 ∧ left.2.1.rank ≤ right.2.1.rank

instance : DecidableRel (QuotaPoint.before (K := K) (F := F)) := fun _ _ => inferInstanceAs (Decidable (_ ∨ _))

/-- The highest reading of each key, in the order of the keys. -/
def quotaPeaks (readings : SessionScan F → Table (K × QuotaKind) F) : List (QuotaPoint K F) :=
  let items := scans.flatMap fun (_, scan) => (readings scan).entries.map fun e => (e.1, e.2)
  ((items.foldl putPeak ∅).entries.map fun e => (e.1.1, e.1.2, e.2)).insertionSort QuotaPoint.before

def aggregateQuotaHistory : List (QuotaPoint String F) := quotaPeaks scans SessionScan.quotaHistory

def aggregateQuotaMinutes : List (QuotaPoint Int F) :=
  let merged := quotaPeaks scans SessionScan.quotaMinutes
  match (merged.map Prod.fst).max? with
  | none => []
  | some newest => merged.filter fun point => decide (newest - quotaMinuteWindow < point.1)

end

def SessionScan.observedAtMs (scan : SessionScan F) : Option Int := scan.quotaObservedAt.bind timestampMs

/-- The sample that is kept, and when it was observed. -/
def keepNewestSample (best : Option (SessionScan F) × Option Int) (scan : SessionScan F) :
    Option (SessionScan F) × Option Int :=
  if !scan.rateLimits.hasWindow then best
  else
    let isNewer := match best.2, scan.observedAtMs with
      | none, _ => best.1.isNone
      | some previous, some current => decide (previous < current)
      | some _, none => false
    if isNewer then (some scan, scan.observedAtMs) else best

def SessionScan.quotaSnapshot (scan : SessionScan F) (observedAtMs : Option Int) : QuotaSnapshot F :=
  ⟨scan.rateLimits.primary, scan.rateLimits.secondary, scan.rateLimits.planType, observedAtMs⟩

def latestQuota (scans : List (String × SessionScan F)) : Option (QuotaSnapshot F) :=
  let best := (scans.map Prod.snd).foldl keepNewestSample (none, none)
  best.1.map fun scan => scan.quotaSnapshot best.2

/-- The sessions that carry a window. -/
def quotaScans (scans : List (String × SessionScan F)) : List (SessionScan F) :=
  (scans.map Prod.snd).filter fun scan => scan.rateLimits.hasWindow

structure SameSeries [LinearOrder F] (costOf : String → TokenUsage → C)
    (scans scans' : List (String × SessionScan F)) : Prop where
  days : aggregateByDay scans = aggregateByDay scans'
  hours : aggregateHours scans = aggregateHours scans'
  projects : aggregateProjects scans = aggregateProjects scans'
  models : aggregateModels scans costOf = aggregateModels scans' costOf
  providers : aggregateProviders scans = aggregateProviders scans'
  breakdown : aggregateBreakdown scans costOf = aggregateBreakdown scans' costOf
  minutes : aggregateMinutes scans = aggregateMinutes scans'
  quotaHistory : aggregateQuotaHistory scans = aggregateQuotaHistory scans'
  quotaMinutes : aggregateQuotaMinutes scans = aggregateQuotaMinutes scans'

/-- Where a session with a window is dated, the quota is that of one of those that were observed last. -/
def NewestQuota (scans : List (String × SessionScan F)) : Prop :=
  (∃ scan ∈ quotaScans scans, scan.observedAtMs ≠ none) →
    ∃ scan ∈ quotaScans scans, ∃ newest, scan.observedAtMs = some newest ∧
      (∀ other ∈ quotaScans scans, ∀ time, other.observedAtMs = some time → time ≤ newest) ∧
      latestQuota scans = some (scan.quotaSnapshot (some newest))

/-- The first session that carries a window is dated, if any of them is. -/
def FirstDated (scans : List (String × SessionScan F)) : Prop :=
  (∃ scan ∈ quotaScans scans, scan.observedAtMs ≠ none) →
    ∀ first, (quotaScans scans).head? = some first → first.observedAtMs ≠ none

section

variable {scans scans' : List (String × SessionScan F)}

theorem accumulate_comm (a b c : TokenUsage) : accumulate (accumulate a b) c = accumulate (accumulate a c) b := by
  have hcomm : ∀ m n k, saturatingAdd (saturatingAdd m n) k = saturatingAdd (saturatingAdd m k) n := by
    intro m n k
    unfold saturatingAdd
    omega
  simp only [accumulate, hcomm]

theorem addWrapping_comm (a b c : TokenUsage) : addWrapping (addWrapping a b) c = addWrapping (addWrapping a c) b := by
  have hcomm : ∀ m n k, ((m + n) % 2 ^ 64 + k) % 2 ^ 64 = ((m + k) % 2 ^ 64 + n) % 2 ^ 64 := by omega
  simp only [addWrapping, hcomm]

theorem collect_congr {I L R : Type} [DecidableEq I] [LinearOrder L] {items items' : List (I × TokenUsage)}
    (h : items.Perm items') (row : I → TokenUsage × Nat → R) (before : R → R → Prop) [DecidableRel before]
    (rank : R → L) (hbefore : ∀ a b, before a b ↔ rank a ≤ rank b)
    (hrank : ∀ k a l b, rank (row k a) = rank (row l b) → k = l) :
    collect (rollUp accumulate .default items) row before =
      collect (rollUp accumulate .default items') row before :=
  Table.rows_congr (lookup_rollUp_perm accumulate_comm h) row before rank hbefore hrank

theorem aggregateByDay_congr (h : scans.Perm scans') : aggregateByDay scans = aggregateByDay scans' := by
  have hitems : (dayItems scans).Perm (dayItems scans') := h.map _
  exact Table.rows_congr (lookup_rollUp_perm addWrapping_comm hitems)
    (fun date (group : TokenUsage × Nat) => (⟨date, group.1, group.2⟩ : DayUsage)) _
    (fun day => OrderDual.toDual day.date) (fun _ _ => Iff.rfl) fun _ _ _ _ heq => heq

theorem aggregateHours_congr (h : scans.Perm scans') : aggregateHours scans = aggregateHours scans' := by
  have hitems : (hourItems scans).Perm (hourItems scans') := h.flatMap_right _
  refine collect_congr hitems _ HourUsage.before
    (fun hour => toLex (OrderDual.toDual hour.date, OrderDual.toDual hour.hour)) (fun a b => ?_) ?_
  · rw [Prod.Lex.toLex_le_toLex]
    exact Iff.rfl
  · rintro ⟨date, hour⟩ _ ⟨date', hour'⟩ _ heq
    exact toLex.injective heq

theorem named_before_iff (a b : NamedUsage) : a.before b ↔
    toLex (OrderDual.toDual a.usage.totalTokens, a.name) ≤ toLex (OrderDual.toDual b.usage.totalTokens, b.name) := by
  rw [Prod.Lex.toLex_le_toLex]
  exact Iff.rfl

/-- Projects and providers. -/
theorem named_congr {items items' : List (String × TokenUsage)} (h : items.Perm items') :
    collect (rollUp accumulate .default items) NamedUsage.ofGroup NamedUsage.before =
      collect (rollUp accumulate .default items') NamedUsage.ofGroup NamedUsage.before :=
  collect_congr h _ _ _ named_before_iff fun _ _ _ _ heq => (Prod.mk.inj (toLex.injective heq)).2

theorem aggregateModels_congr (costOf : String → TokenUsage → C) (h : scans.Perm scans') :
    aggregateModels scans costOf = aggregateModels scans' costOf := by
  have hitems : (modelItems scans).Perm (modelItems scans') := h.flatMap_right _
  exact collect_congr hitems _ _ _ (fun a b => named_before_iff a.toNamedUsage b.toNamedUsage)
    fun _ _ _ _ heq => (Prod.mk.inj (toLex.injective heq)).2

theorem aggregateBreakdown_congr (costOf : String → TokenUsage → C) (h : scans.Perm scans') :
    aggregateBreakdown scans costOf = aggregateBreakdown scans' costOf := by
  have hitems : (breakdownItems scans).Perm (breakdownItems scans') := h.flatMap_right _
  refine collect_congr hitems _ BreakdownRow.before
    (fun row => toLex (row.day, toLex (row.model, toLex (row.source, row.project)))) (fun a b => ?_) ?_
  · rw [Prod.Lex.toLex_le_toLex, Prod.Lex.toLex_le_toLex, Prod.Lex.toLex_le_toLex]
    exact Iff.rfl
  · rintro ⟨day, model, provider, project⟩ _ ⟨day', model', provider', project'⟩ _ heq
    obtain ⟨hday, hrest⟩ := Prod.mk.inj (toLex.injective heq)
    obtain ⟨hmodel, hrest⟩ := Prod.mk.inj (toLex.injective hrest)
    obtain ⟨hprovider, hproject⟩ := Prod.mk.inj (toLex.injective hrest)
    exact Prod.ext hday (Prod.ext hmodel (Prod.ext hprovider hproject))

theorem aggregateMinutes_congr (h : scans.Perm scans') : aggregateMinutes scans = aggregateMinutes scans' := by
  have hitems : (minuteItems scans).Perm (minuteItems scans') := h.flatMap_right _
  have hmerged := collect_congr hitems (fun minute group => (⟨minute, group.1⟩ : MinuteBucket))
    (fun left right => left.minute ≤ right.minute) MinuteBucket.minute (fun _ _ => Iff.rfl) fun _ _ _ _ heq => heq
  unfold aggregateMinutes
  rw [hmerged]

variable {K : Type} [LinearOrder F] [LinearOrder K]

theorem lookup_foldl_putPeak (items : List ((K × QuotaKind) × F)) (merged : Table (K × QuotaKind) F)
    (key : K × QuotaKind) :
    (items.foldl putPeak merged).lookup key =
      (under key items).foldl (fun peak percent => some (max (peak.getD percent) percent))
        (merged.lookup key) := by
  induction items generalizing merged with
  | nil => rfl
  | cons item items ih =>
    have hput : (putPeak merged item).lookup key =
        (under key [item]).foldl (fun peak percent => some (max (peak.getD percent) percent))
          (merged.lookup key) := by
      rw [putPeak, Table.lookup_insert_eq, under_singleton]
      by_cases hkey : key = item.1
      · subst hkey
        simp [max_def_lt]
      · simp [hkey, Ne.symm hkey]
    rw [foldl_cons, ih, hput, ← foldl_append, ← under_append, singleton_append]

theorem quotaPeaks_congr (h : scans.Perm scans') (readings : SessionScan F → Table (K × QuotaKind) F) :
    quotaPeaks scans readings = quotaPeaks scans' readings := by
  have hitems := h.flatMap_right fun scan => (readings scan.2).entries.map fun e => (e.1, e.2)
  have hcomm (peak : Option F) (p q : F) : some (max ((some (max (peak.getD p) p)).getD q) q) =
      some (max ((some (max (peak.getD q) q)).getD p) p) := by
    cases peak with
    | none => simp [max_comm]
    | some peak => simp [max_right_comm]
  refine Table.rows_congr (fun key => ?_) (fun (key : K × QuotaKind) (percent : F) => (key.1, key.2, percent))
    QuotaPoint.before (fun point => toLex (point.1, point.2.1.rank)) (fun a b => ?_) ?_
  · rw [lookup_foldl_putPeak, lookup_foldl_putPeak]
    exact (hitems.filterMap _).foldl_eq' (fun p _ q _ peak => hcomm peak p q) _
  · rw [Prod.Lex.toLex_le_toLex]
    rfl
  · rintro ⟨k, kind⟩ p ⟨l, kind'⟩ q heq
    obtain ⟨hkey, hkind⟩ := Prod.mk.inj (toLex.injective heq)
    obtain rfl : k = l := hkey
    cases kind <;> cases kind' <;> first | rfl | cases hkind

theorem sameSeries_of_perm (costOf : String → TokenUsage → C) (h : scans.Perm scans') :
    SameSeries costOf scans scans' where
  days := aggregateByDay_congr h
  hours := aggregateHours_congr h
  projects := named_congr (h.filterMap _)
  models := aggregateModels_congr costOf h
  providers := named_congr (h.flatMap_right _)
  breakdown := aggregateBreakdown_congr costOf h
  minutes := aggregateMinutes_congr h
  quotaHistory := quotaPeaks_congr h _
  quotaMinutes := by
    rw [aggregateQuotaMinutes, aggregateQuotaMinutes, quotaPeaks_congr h]

end

section

variable {best scan : SessionScan F} {rest : List (SessionScan F)}

/-- A first sample without a date is never displaced. -/
theorem foldl_undated : rest.foldl keepNewestSample (some best, none) = (some best, none) := by
  induction rest with
  | nil => rfl
  | cons scan rest ih =>
    have hstep : keepNewestSample (some best, none) scan = (some best, none) := by
      unfold keepNewestSample
      split <;> rfl
    rw [foldl_cons, hstep, ih]

theorem keepNewestSample_dated {previous : Int} (hbest : best.observedAtMs = some previous)
    (hwindow : scan.rateLimits.hasWindow = true) :
    ∃ kept newest, keepNewestSample (some best, some previous) scan = (some kept, some newest) ∧
      (kept = best ∨ kept = scan) ∧ kept.observedAtMs = some newest ∧ previous ≤ newest ∧
      ∀ time, scan.observedAtMs = some time → time ≤ newest := by
  unfold keepNewestSample
  rw [hwindow]
  cases hobserved : scan.observedAtMs with
  | none => exact ⟨best, previous, rfl, .inl rfl, hbest, le_refl previous, fun time h => by cases h⟩
  | some current =>
    by_cases hnewer : previous < current
    · refine ⟨scan, current, by simp [hnewer], .inr rfl, hobserved, hnewer.le, fun time h => ?_⟩
      obtain rfl := Option.some.inj h
      exact le_refl _
    · refine ⟨best, previous, by simp [hnewer], .inl rfl, hbest, le_refl previous, fun time h => ?_⟩
      obtain rfl := Option.some.inj h
      exact not_lt.mp hnewer

theorem foldl_dated {previous : Int} (hbest : best.observedAtMs = some previous)
    (hwindow : ∀ scan ∈ rest, scan.rateLimits.hasWindow = true) :
    ∃ kept newest, rest.foldl keepNewestSample (some best, some previous) = (some kept, some newest) ∧
      kept ∈ best :: rest ∧ kept.observedAtMs = some newest ∧ previous ≤ newest ∧
      ∀ scan ∈ rest, ∀ time, scan.observedAtMs = some time → time ≤ newest := by
  induction rest generalizing best previous with
  | nil => exact ⟨best, previous, rfl, mem_cons_self, hbest, le_refl previous, fun _ h => by cases h⟩
  | cons scan rest ih =>
    obtain ⟨next, reached, hstep, hnext, hreached, hle, hscan⟩ :=
      keepNewestSample_dated hbest (hwindow scan mem_cons_self)
    obtain ⟨kept, newest, hfold, hkept, hnewest, hle', hrest⟩ :=
      ih hreached fun other hother => hwindow other (mem_cons_of_mem scan hother)
    refine ⟨kept, newest, by rw [foldl_cons, hstep, hfold], ?_, hnewest, hle.trans hle', ?_⟩
    · rcases hnext with rfl | rfl
      · rcases mem_cons.mp hkept with rfl | hkept
        · exact mem_cons_self
        · exact mem_cons_of_mem _ (mem_cons_of_mem _ hkept)
      · exact mem_cons_of_mem _ hkept
    · intro other hother time htime
      rcases mem_cons.mp hother with rfl | hother
      · exact (hscan time htime).trans hle'
      · exact hrest other hother time htime

theorem latestQuota_eq (scans : List (String × SessionScan F)) :
    latestQuota scans = ((quotaScans scans).foldl keepNewestSample (none, none)).1.map fun scan =>
      scan.quotaSnapshot ((quotaScans scans).foldl keepNewestSample (none, none)).2 := by
  have hskip (best : Option (SessionScan F) × Option Int) (samples : List (SessionScan F)) :
      (samples.filter fun scan => scan.rateLimits.hasWindow).foldl keepNewestSample best =
        samples.foldl keepNewestSample best := by
    rw [foldl_filter]
    congr
    funext best scan
    cases hwindow : scan.rateLimits.hasWindow <;> simp [keepNewestSample, hwindow]
  rw [quotaScans, hskip, latestQuota]

theorem newestQuota_iff (scans : List (String × SessionScan F)) : NewestQuota scans ↔ FirstDated scans := by
  have hwindows : ∀ scan ∈ quotaScans scans, scan.rateLimits.hasWindow = true :=
    fun scan hscan => (mem_filter.mp hscan).2
  unfold NewestQuota FirstDated
  rw [latestQuota_eq]
  cases hscans : quotaScans scans with
  | nil => simp
  | cons first rest =>
    rw [hscans] at hwindows
    have hfirst : keepNewestSample (none, none) first = (some first, first.observedAtMs) := by
      simp [keepNewestSample, hwindows first mem_cons_self]
    rw [foldl_cons, hfirst]
    constructor
    · rintro h hdated _ hhead
      obtain rfl := Option.some.inj hhead
      obtain ⟨scan, -, newest, -, -, heq⟩ := h hdated
      intro hnone
      rw [hnone, foldl_undated] at heq
      cases congrArg QuotaSnapshot.observedAtMs (Option.some.inj heq)
    · intro h hdated
      obtain ⟨previous, hprevious⟩ := Option.ne_none_iff_exists'.mp (h hdated first rfl)
      obtain ⟨kept, newest, hfold, hkept, hnewest, hle, hrest⟩ :=
        foldl_dated hprevious fun scan hscan => hwindows scan (mem_cons_of_mem first hscan)
      refine ⟨kept, hkept, newest, hnewest, fun other hother time htime => ?_, by rw [hprevious, hfold]; rfl⟩
      rcases mem_cons.mp hother with rfl | hother
      · obtain rfl := Option.some.inj (hprevious.symm.trans htime)
        exact hle
      · exact hrest other hother time htime

end

/-- The series never depend on the order; the quota is the newest one unless the first window has no date. -/
theorem summary_order_free_iff [LinearOrder F] (costOf : String → TokenUsage → C)
    (scans : List (String × SessionScan F)) :
    ((∀ scans', scans.Perm scans' → SameSeries costOf scans scans') ∧ NewestQuota scans) ↔ FirstDated scans := by
  rw [newestQuota_iff, and_iff_right fun scans' => sameSeries_of_perm costOf]

def quotaScan (observedAt : Option String) : SessionScan Nat :=
  { SessionScan.default with
    rateLimits := ⟨none, some ⟨50, none, none⟩, none, none, none⟩
    quotaObservedAt := observedAt }

/-- A sample without a date comes before a dated one. -/
theorem undated_quota_kept :
    ¬ NewestQuota [("2026-08-25", quotaScan none), ("2026-08-25", quotaScan (some "2026-08-25T02:17:02Z"))] := by
  rw [newestQuota_iff]
  intro h
  have hdated : (quotaScan (some "2026-08-25T02:17:02Z")).observedAtMs ≠ none := by decide +kernel
  exact h ⟨_, mem_cons_of_mem _ mem_cons_self, hdated⟩ _ rfl rfl

end MochiPort
