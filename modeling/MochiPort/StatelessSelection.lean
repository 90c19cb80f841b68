import Mathlib.Data.Prod.Lex
import Mathlib.Data.String.Basic
import MochiPort.GatewayRouting

namespace MochiPort

variable {sha256 : List UInt8 → Vector UInt8 32} {sessionId : Option String} {candidates : List ProviderConfig}

/-- What the candidates are compared by; without a session every score is the same. -/
def selectionKey (sha256 : List UInt8 → Vector UInt8 32) (sessionId : Option String) (provider : ProviderConfig) :
    ℕ ×ₗ ℕ ×ₗ String :=
  toLex (provider.effectiveWeight,
    toLex ((sessionId.map fun sid => hrwScore sha256 sid provider).getD 0, providerRouteId provider))

theorem compareProviders_eq (left right : ProviderConfig) :
    compareProviders sha256 sessionId left right =
      compare (selectionKey sha256 sessionId left) (selectionKey sha256 sessionId right) := by
  cases sessionId with
  | none =>
    simp only [compareProviders, selectionKey, Prod.Lex.compare_def, compareLex, compareOn, ofLex_toLex]
    simp
  | some sid => rfl

theorem compareProviders_refines :
    LastMaximum.Refines (compareProviders sha256 sessionId) (selectionKey sha256 sessionId) := by
  intro left right
  rw [compareProviders_eq]
  exact ⟨compare_lt_iff_lt.mpr, compare_gt_iff_gt.mpr⟩

theorem selectionKey_inj (h : (candidates.map providerRouteId).Nodup) :
    ∀ left ∈ candidates, ∀ right ∈ candidates,
      selectionKey sha256 sessionId left = selectionKey sha256 sessionId right → left = right := by
  intro left hleft right hright hkey
  have hroute : providerRouteId left = providerRouteId right :=
    congrArg (fun key => (ofLex (ofLex key).2).2) hkey
  exact List.inj_on_of_nodup_map h hleft hright hroute

/-- The selection depends neither on the order of the candidates nor on the ones that lose; a new candidate
takes it only with at least the weight of the provider that had it. -/
theorem selection_stable (sha256 : List UInt8 → Vector UInt8 32) (sessionId : Option String)
    (candidates : List ProviderConfig) (hroutes : (candidates.map providerRouteId).Nodup) :
    (∀ reordered, reordered.Perm candidates →
      selectByPriority sha256 reordered sessionId = selectByPriority sha256 candidates sessionId) ∧
    (∀ before removed after, candidates = before ++ removed :: after →
      selectByPriority sha256 candidates sessionId ≠ some removed →
      selectByPriority sha256 (before ++ after) sessionId = selectByPriority sha256 candidates sessionId) ∧
    ∀ before added after, candidates = before ++ after →
      providerRouteId added ∉ candidates.map providerRouteId →
      selectByPriority sha256 (before ++ added :: after) sessionId = selectByPriority sha256 candidates sessionId ∨
      selectByPriority sha256 (before ++ added :: after) sessionId = some added ∧
        ∀ old, selectByPriority sha256 candidates sessionId = some old →
          old.effectiveWeight ≤ added.effectiveWeight := by
  have hrefines := @compareProviders_refines sha256 (normalizedSession sessionId)
  have hinj := @selectionKey_inj sha256 (normalizedSession sessionId) candidates hroutes
  refine ⟨?_, ?_, ?_⟩
  · intro reordered hperm
    exact hrefines.lastMax_congr hinj fun provider => hperm.mem_iff
  · intro before removed after heq hlost
    refine hrefines.lastMax_of_cons hinj (fun provider => ?_) hlost
    simp [heq, or_left_comm]
  · intro before added after heq hnew
    have hmore : ((before ++ added :: after).map providerRouteId).Nodup := by
      have hperm : (before ++ added :: after).Perm (added :: candidates) := heq ▸ List.perm_middle
      rw [(hperm.map providerRouteId).nodup_iff]
      exact List.nodup_cons.mpr ⟨hnew, hroutes⟩
    have hinj' := @selectionKey_inj sha256 (normalizedSession sessionId) _ hmore
    have hmem : ∀ provider, provider ∈ before ++ added :: after ↔ provider = added ∨ provider ∈ candidates := by
      simp [heq, or_left_comm]
    by_cases hwins : selectByPriority sha256 (before ++ added :: after) sessionId = some added
    · refine .inr ⟨hwins, fun old hold => ?_⟩
      have hweight : LastMaximum.Refines (compareProviders sha256 (normalizedSession sessionId))
          ProviderConfig.effectiveWeight := LastMaximum.refines_then ProviderConfig.effectiveWeight _
      exact hweight.le_lastMax hwins old ((hmem old).mpr (.inr (LastMaximum.mem_of_lastMax hold)))
    · exact .inl (hrefines.lastMax_of_cons hinj' hmem hwins).symm

/-- Every hash is zero, so the routes decide. -/
def collidingDigest (_ : List UInt8) : Vector UInt8 32 := Vector.replicate 32 0

theorem colliding_selection_stable :
    selectByPriority collidingDigest [{ name := "a" }, { name := "b" }] (some "session") = some { name := "b" } ∧
    selectByPriority collidingDigest [{ name := "b" }, { name := "a" }] (some "session") = some { name := "b" } := by
  have hselected : selectByPriority collidingDigest [{ name := "a" }, { name := "b" }] (some "session") =
      some { name := "b" } := by decide +kernel
  obtain ⟨hreordered, -, -⟩ := selection_stable collidingDigest (some "session") [{ name := "a" }, { name := "b" }]
    (by decide +kernel)
  exact ⟨hselected, (hreordered _ (.swap ..)).trans hselected⟩

end MochiPort
