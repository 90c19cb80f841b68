import MochiPort.UsageSummaries

namespace MochiPort

open List

theorem drop_eq_filter_greater {A : Type*} [Preorder A] [DecidableLT A] {xs : List A} (h : xs.Pairwise (· < ·)) (n : Nat) :
    xs.drop (xs.length - n) = xs.filter fun x => (xs.filter (x < ·)).length < n := by
  induction xs with
  | nil => simp
  | cons x xs ih =>
    obtain ⟨hx, hxs⟩ := pairwise_cons.mp h
    have hgreater : (x :: xs).filter (x < ·) = xs := by
      rw [filter_cons_of_neg (by simp)]
      exact filter_eq_self.mpr fun y hy => by simpa using hx y hy
    have hsame : ∀ y ∈ xs, (x :: xs).filter (y < ·) = xs.filter (y < ·) := fun y hy =>
      filter_cons_of_neg (by simpa using lt_asymm (hx y hy))
    have hrest : (xs.filter fun y => ((x :: xs).filter (y < ·)).length < n) = xs.drop (xs.length - n) := by
      rw [ih hxs]
      exact filter_congr fun y hy => by rw [hsame y hy]
    by_cases hn : xs.length < n
    · have hzero : (x :: xs).length - n = 0 := by
        rw [length_cons]
        omega
      have hzero' : xs.length - n = 0 := by omega
      rw [hzero, drop_zero, filter_cons_of_pos (by simpa [hgreater] using hn), hrest, hzero', drop_zero]
    · have hsucc : (x :: xs).length - n = xs.length - n + 1 := by
        rw [length_cons]
        omega
      rw [hsucc, drop_succ_cons, filter_cons_of_neg (by simpa [hgreater] using hn), hrest]

namespace Disk

variable {disk : Disk} {root path : DiskPath}

theorem mem_sortedDirectories : path ∈ disk.sortedDirectories root ↔
    path ≠ [] ∧ path.dropLast = root ∧ disk.lookup path = some .directory := by
  rw [sortedDirectories, mem_insertionSort, mem_filter, readDir, mem_filter]
  simp only [Bool.and_eq_true, decide_eq_true_eq]
  constructor
  · rintro ⟨⟨-, hne, hparent⟩, hdirectory⟩
    exact ⟨hne, hparent, hdirectory⟩
  · rintro ⟨hne, hparent, hdirectory⟩
    have hentry := Table.lookup_eq_some_iff.mp hdirectory
    exact ⟨⟨mem_map_of_mem hentry, hne, hparent⟩, hdirectory⟩

theorem sortedDirectories_nodup (disk : Disk) (root : DiskPath) : (disk.sortedDirectories root).Nodup := by
  refine (perm_insertionSort _ _).nodup_iff.mpr ?_
  exact (disk.nodupKeys.filter _).filter _

theorem flatMap_sortedDirectories_nodup {parents : List DiskPath} (h : parents.Nodup) :
    (parents.flatMap disk.sortedDirectories).Nodup := by
  refine nodup_flatMap.mpr ⟨fun parent _ => sortedDirectories_nodup disk parent, h.imp fun hne path hpath hpath' => ?_⟩
  exact hne ((mem_sortedDirectories.mp hpath).2.1.symm.trans (mem_sortedDirectories.mp hpath').2.1)

theorem dayDirectories_increasing (disk : Disk) (root : DiskPath) : (disk.dayDirectories root).Pairwise (· < ·) := by
  have hyears : (disk.sortedDirectories root).Nodup := sortedDirectories_nodup disk root
  have hdays : ((disk.sortedDirectories root).flatMap fun year =>
      (disk.sortedDirectories year).flatMap disk.sortedDirectories).Nodup := by
    rw [← flatMap_assoc]
    exact flatMap_sortedDirectories_nodup (flatMap_sortedDirectories_nodup hyears)
  have hnodup : (disk.dayDirectories root).Nodup := (perm_insertionSort _ _).nodup_iff.mpr hdays
  have hsorted : (disk.dayDirectories root).Pairwise (· ≤ ·) := pairwise_insertionSort _ _
  exact hsorted.imp₂ (fun _ _ hle hne => lt_of_le_of_ne hle hne) hnodup

/-- Every rollout file that the root offers: those of its day directories, or its own if it has none. -/
def offered (disk : Disk) (root : DiskPath) : List (Option String × DiskPath) :=
  if disk.dayDirectories root = [] then
    (disk.sortedRolloutFiles root).map fun path => (rolloutDayFromPath path, path)
  else
    (disk.dayDirectories root).flatMap fun directory =>
      (disk.sortedRolloutFiles directory).map fun path => (dayDirectoryDate directory, path)

/-- Fewer than `windowDays` day directories of the root are newer than the one that the file is in. -/
def InWindow (disk : Disk) (root : DiskPath) (windowDays : Nat) (path : DiskPath) : Prop :=
  ((disk.dayDirectories root).filter (path.dropLast < ·)).length < max windowDays 1

instance (disk : Disk) (root : DiskPath) (windowDays : Nat) : DecidablePred (disk.InWindow root windowDays) :=
  fun _ => inferInstanceAs (Decidable (_ < _))

theorem mem_sortedRolloutFiles (h : path ∈ disk.sortedRolloutFiles root) : path.dropLast = root := by
  rw [sortedRolloutFiles, mem_insertionSort, mem_filter, readDir, mem_filter] at h
  simp only [Bool.and_eq_true, decide_eq_true_eq] at h
  exact h.1.2.2

theorem newestDayDirectories_eq (disk : Disk) (root : DiskPath) (limit : Nat) :
    disk.newestDayDirectories root limit = (disk.dayDirectories root).filter fun directory =>
      ((disk.dayDirectories root).filter (directory < ·)).length < max limit 1 :=
  drop_eq_filter_greater (dayDirectories_increasing disk root) (max limit 1)

theorem newestDayDirectories_eq_nil_iff {limit : Nat} :
    disk.newestDayDirectories root limit = [] ↔ disk.dayDirectories root = [] := by
  rw [newestDayDirectories, drop_eq_nil_iff]
  constructor
  · intro hlength
    refine eq_nil_iff_length_eq_zero.mpr ?_
    omega
  · intro hnil
    simp [hnil]

theorem flatMap_filter_eq {A B : Type*} {p : A → Bool} {q : B → Bool} {f : A → List B} {xs : List A}
    (h : ∀ x ∈ xs, ∀ y ∈ f x, q y = p x) : (xs.filter p).flatMap f = (xs.flatMap f).filter q := by
  induction xs with
  | nil => rfl
  | cons x xs ih =>
    have hrest := ih fun y hy => h y (mem_cons_of_mem x hy)
    rw [flatMap_cons, filter_append, ← hrest]
    cases hp : p x with
    | false =>
      have hnone : (f x).filter q = [] := filter_eq_nil_iff.mpr fun y hy => by
        rw [h x mem_cons_self y hy, hp]
        exact Bool.false_ne_true
      rw [filter_cons_of_neg (by simp [hp]), hnone, nil_append]
    | true =>
      have hall : (f x).filter q = f x := filter_eq_self.mpr fun y hy => by
        rw [h x mem_cons_self y hy, hp]
      rw [filter_cons_of_pos hp, flatMap_cons, hall]

theorem rolloutFiles_eq (disk : Disk) (root : DiskPath) (windowDays : Nat) :
    disk.rolloutFiles root windowDays = (disk.offered root).filter fun file => disk.InWindow root windowDays file.2 := by
  unfold rolloutFiles offered
  by_cases hnil : disk.dayDirectories root = []
  · rw [if_pos (newestDayDirectories_eq_nil_iff.mpr hnil), if_pos hnil]
    refine (filter_eq_self.mpr fun file hfile => ?_).symm
    simp [InWindow, hnil]
  · have hsome : disk.newestDayDirectories root windowDays ≠ [] := fun h => hnil (newestDayDirectories_eq_nil_iff.mp h)
    rw [if_neg hsome, if_neg hnil, newestDayDirectories_eq]
    refine flatMap_filter_eq fun directory _ file hfile => ?_
    obtain ⟨path, hpath, rfl⟩ := mem_map.mp hfile
    simp only [InWindow, mem_sortedRolloutFiles hpath]

theorem InWindow.mono {w w' : Nat} (hw : w ≤ w') (h : disk.InWindow root w path) : disk.InWindow root w' path := by
  unfold InWindow at h ⊢
  omega

theorem windowDirectories_length (disk : Disk) (root : DiskPath) (windowDays : Nat) :
    ((disk.dayDirectories root).filter fun directory =>
      ((disk.dayDirectories root).filter (directory < ·)).length < max windowDays 1).length ≤ max windowDays 1 := by
  rw [← newestDayDirectories_eq, newestDayDirectories, length_drop]
  omega

section

variable {F : Type} (codec : RolloutCodec F)

def windowSessions (disk : Disk) (roots : List DiskPath) (windowDays : Nat) : List (String × SessionScan F) :=
  roots.flatMap fun root =>
    ((disk.offered root).filter fun file => disk.InWindow root windowDays file.2).filterMap (disk.session codec)

theorem scanRoots_eq (disk : Disk) (roots : List DiskPath) (windowDays : Nat) :
    disk.scanRoots codec roots windowDays = disk.windowSessions codec roots windowDays := by
  simp only [scanRoots, windowSessions, rolloutFiles_eq]

theorem windowSessions_sublist (disk : Disk) (roots : List DiskPath) {w w' : Nat} (hw : w ≤ w') :
    (disk.windowSessions codec roots w).Sublist (disk.windowSessions codec roots w') := by
  induction roots with
  | nil => exact List.Sublist.refl _
  | cons root roots ih =>
    refine List.Sublist.append (List.Sublist.filterMap _ ?_) ih
    refine monotone_filter_right _ fun file hfile => ?_
    exact decide_eq_true (InWindow.mono hw (of_decide_eq_true hfile))

end

end Disk

end MochiPort
