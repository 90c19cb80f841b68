import MochiPort.ClientSegments

namespace MochiPort

/-- The chunk size that spreads `size` bytes over a count of segments. -/
def balancedChunkSize (size segmentCount : Nat) : Nat := max 1 (size ⌈/⌉ segmentCount)

def firstSegmentCount (size : Nat) : Nat := max 2 (size ⌈/⌉ remoteControlSegmentTargetBytes)

/-- A search that begins with the count `from` comes to a count if every count on the way to it has a smaller
chunk size than the one before; wherever it stops being so, the search goes on with chunks of one byte. -/
def ReachedFrom (size first segmentCount : Nat) : Prop :=
  segmentCount = size ∨
    first ≤ segmentCount ∧
      ∀ k, first ≤ k → k < segmentCount → balancedChunkSize size (k + 1) < balancedChunkSize size k

theorem ceilDiv_eq_of_bounds {size count chunkSize : Nat} (hcount : 0 < count)
    (hlower : (count - 1) * chunkSize < size) (hupper : size ≤ count * chunkSize) : size ⌈/⌉ chunkSize = count := by
  have hpos : 0 < chunkSize := by
    by_contra hzero
    have hzero : chunkSize = 0 := by omega
    rw [hzero, Nat.mul_zero] at hlower hupper
    omega
  apply Nat.le_antisymm
  · rw [ceilDiv_le_iff_le_mul hpos, Nat.mul_comm]
    exact hupper
  · by_contra hlt
    have hle : size ⌈/⌉ chunkSize ≤ count - 1 := by omega
    rw [ceilDiv_le_iff_le_mul hpos, Nat.mul_comm] at hle
    omega

variable {size count : Nat}

theorem le_mul_balancedChunkSize (hcount : 0 < count) : size ≤ count * balancedChunkSize size count := by
  have hle : size ⌈/⌉ count ≤ balancedChunkSize size count := Nat.le_max_right ..
  exact (ceilDiv_le_iff_le_mul hcount).mp hle

/-- A count is tight if no smaller one has its chunk size. -/
def TightCount (size count : Nat) : Prop := 0 < count ∧ (count - 1) * balancedChunkSize size count < size

theorem TightCount.chunkCount (h : TightCount size count) : size ⌈/⌉ balancedChunkSize size count = count :=
  ceilDiv_eq_of_bounds h.1 h.2 (le_mul_balancedChunkSize h.1)

theorem tightCount_size {size : Nat} (h : 0 < size) : TightCount size size := by
  refine ⟨h, ?_⟩
  have hone : balancedChunkSize size size = 1 := Nat.max_eq_left (Chunks.ceilDiv_self_le size)
  rw [hone]
  omega

theorem tightCount_succ (hcount : 0 < count) (h : balancedChunkSize size (count + 1) < balancedChunkSize size count) :
    TightCount size (count + 1) := by
  refine ⟨Nat.succ_pos count, ?_⟩
  rw [Nat.add_sub_cancel]
  have hlt : balancedChunkSize size (count + 1) < size ⌈/⌉ count := by
    have hone : 1 ≤ balancedChunkSize size (count + 1) := Nat.le_max_left ..
    have hmax : balancedChunkSize size count = max 1 (size ⌈/⌉ count) := rfl
    omega
  by_contra hle
  have hle : size ≤ count * balancedChunkSize size (count + 1) := by omega
  rw [← ceilDiv_le_iff_le_mul hcount] at hle
  omega

theorem TightCount.le_size (h : TightCount size count) : count ≤ size := by
  have hone : 1 ≤ balancedChunkSize size count := Nat.le_max_left ..
  have hle : count - 1 ≤ (count - 1) * balancedChunkSize size count := Nat.le_mul_of_pos_right _ hone
  have hlt := h.2
  omega

theorem balancedChunkSize_one_iff (hcount : 0 < count) : balancedChunkSize size count = 1 ↔ size ≤ count := by
  have hmax : balancedChunkSize size count = max 1 (size ⌈/⌉ count) := rfl
  have hle : size ⌈/⌉ count ≤ 1 ↔ size ≤ count := by
    rw [ceilDiv_le_iff_le_mul hcount, Nat.mul_one]
  omega

theorem balancedChunkSize_anti {size j k : Nat} (hj : 0 < j) (h : j ≤ k) :
    balancedChunkSize size k ≤ balancedChunkSize size j := by
  have hk : 0 < k := by omega
  have hle : size ⌈/⌉ k ≤ balancedChunkSize size j := by
    rw [ceilDiv_le_iff_le_mul hk]
    exact (le_mul_balancedChunkSize hj).trans (Nat.mul_le_mul_right _ h)
  exact Nat.max_le.mpr ⟨Nat.le_max_left .., hle⟩

theorem balancedChunkSize_succ_of_one (hcount : 0 < count) (hone : balancedChunkSize size count = 1) :
    balancedChunkSize size (count + 1) = 1 := by
  have hle : balancedChunkSize size (count + 1) ≤ balancedChunkSize size count :=
    balancedChunkSize_anti hcount (Nat.le_succ count)
  have hleast : 1 ≤ balancedChunkSize size (count + 1) := Nat.le_max_left ..
  omega

theorem ReachedFrom.of_stall {n : Nat} (h : ReachedFrom size count n)
    (hstall : balancedChunkSize size (count + 1) = balancedChunkSize size count) : n = size ∨ n = count := by
  rcases h with hsize | ⟨hfirst, hsmaller⟩
  · exact .inl hsize
  · right
    by_contra hne
    have hlt := hsmaller count le_rfl (by omega)
    omega

theorem reachedFrom_iff {n : Nat} (hlt : balancedChunkSize size (count + 1) < balancedChunkSize size count) :
    ReachedFrom size count n ↔ n = count ∨ ReachedFrom size (count + 1) n := by
  constructor
  · rintro (hsize | ⟨hfirst, hsmaller⟩)
    · exact .inr (.inl hsize)
    · by_cases hsame : n = count
      · exact .inl hsame
      · exact .inr (.inr ⟨by omega, fun k hk => hsmaller k (by omega)⟩)
  · rintro (rfl | hsize | ⟨hfirst, hsmaller⟩)
    · exact .inr ⟨le_rfl, fun k hle hlt => by omega⟩
    · exact .inl hsize
    · refine .inr ⟨by omega, ?_⟩
      intro k hk hkn
      by_cases hkeq : k = count
      · rw [hkeq]
        exact hlt
      · exact hsmaller k (by omega) hkn

theorem settleSegments_error_iff {fits : Nat → Nat → Bool} {size segmentCount : Nat}
    (htight : TightCount size segmentCount) :
    (∃ text, settleSegments fits size segmentCount = .error text) ↔
      ∀ n ≤ remoteControlSegmentCountMax, ReachedFrom size segmentCount n →
        fits (balancedChunkSize size n) (size ⌈/⌉ balancedChunkSize size n) = false := by
  fun_induction settleSegments fits size segmentCount with
  | case1 segmentCount hmax =>
    refine iff_of_true ⟨_, rfl⟩ ?_
    intro n hn hreached
    have hsize := htight.le_size
    rcases hreached with hreached | hreached
    · omega
    · omega
  | case2 segmentCount hmax chunkSize chunkCount hfits =>
    refine iff_of_false ?_ ?_
    · intro h
      obtain ⟨text, htext⟩ := h
      cases htext
    · intro h
      have hself := h segmentCount (by omega) (.inr ⟨le_rfl, fun k hle hlt => by omega⟩)
      exact Bool.noConfusion (hfits.symm.trans hself)
  | case3 segmentCount hmax chunkSize chunkCount hfits hone =>
    refine iff_of_true ⟨_, rfl⟩ ?_
    intro n hn hreached
    have hsize : size ≤ segmentCount := (balancedChunkSize_one_iff htight.1).mp hone
    have hle := htight.le_size
    have hstall := (balancedChunkSize_succ_of_one htight.1 hone).trans hone.symm
    obtain rfl : n = segmentCount := by
      rcases hreached.of_stall hstall with hn | hn
      · omega
      · exact hn
    exact Bool.eq_false_iff.mpr hfits
  | case4 segmentCount hmax chunkSize chunkCount hfits hone nextSegmentCount nextChunkSize ih =>
    have hself : fits (balancedChunkSize size segmentCount) (size ⌈/⌉ balancedChunkSize size segmentCount) = false :=
      Bool.eq_false_iff.mpr hfits
    have hnext : nextSegmentCount = segmentCount + 1 := congrArg (· + 1) htight.chunkCount
    have hchunk : nextChunkSize = balancedChunkSize size (segmentCount + 1) := by
      rw [← hnext]
      rfl
    by_cases hstall : nextChunkSize = chunkSize
    · have hpos : 0 < size := htight.1.trans_le htight.le_size
      rw [dif_pos hstall] at ih
      rw [if_pos hstall]
      rw [ih (tightCount_size hpos)]
      constructor
      · intro h n hn hreached
        rcases hreached.of_stall (hchunk.symm.trans hstall) with rfl | rfl
        · exact h n hn (.inl rfl)
        · exact hself
      · intro h n hn hreached
        have hleast := (balancedChunkSize_one_iff hpos).mpr (le_refl size)
        have hsame := hreached.of_stall ((balancedChunkSize_succ_of_one hpos hleast).trans hleast.symm)
        exact h n hn (.inl (or_self_iff.mp hsame))
    · rw [dif_neg hstall] at ih
      rw [if_neg hstall]
      have hlt : balancedChunkSize size (segmentCount + 1) < balancedChunkSize size segmentCount := by
        refine lt_of_le_of_ne (balancedChunkSize_anti htight.1 (Nat.le_succ segmentCount)) ?_
        intro heq
        exact hstall (hchunk.trans heq)
      rw [hnext] at ih ⊢
      rw [ih (tightCount_succ htight.1 hlt)]
      constructor
      · intro h n hn hreached
        rcases (reachedFrom_iff hlt).mp hreached with rfl | hreached
        · exact hself
        · exact h n hn hreached
      · intro h n hn hreached
        exact h n hn ((reachedFrom_iff hlt).mpr (.inr hreached))

theorem tightCount_first {size : Nat} (h : 2 ≤ size) : TightCount size (firstSegmentCount size) := by
  have htarget : 0 < remoteControlSegmentTargetBytes := by decide
  refine ⟨by unfold firstSegmentCount; omega, ?_⟩
  by_cases hfew : size ⌈/⌉ remoteControlSegmentTargetBytes ≤ 2
  · have htwo : firstSegmentCount size = 2 := Nat.max_eq_left hfew
    have hhalf : size ⌈/⌉ 2 < size := by
      rw [Nat.ceilDiv_eq_add_pred_div]
      omega
    have hmax : balancedChunkSize size 2 < size := Nat.max_lt.mpr ⟨by omega, hhalf⟩
    rw [htwo]
    omega
  · have hmany : firstSegmentCount size = size ⌈/⌉ remoteControlSegmentTargetBytes := Nat.max_eq_right (by omega)
    let count := size ⌈/⌉ remoteControlSegmentTargetBytes
    have hsize : size ≤ remoteControlSegmentTargetBytes * count := (ceilDiv_le_iff_le_mul htarget).mp le_rfl
    have hchunk : balancedChunkSize size count ≤ remoteControlSegmentTargetBytes := by
      refine Nat.max_le.mpr ⟨by decide, ?_⟩
      rw [ceilDiv_le_iff_le_mul (by omega), Nat.mul_comm]
      exact hsize
    have hbelow : remoteControlSegmentTargetBytes * (count - 1) < size := by
      by_contra hge
      have hle := (ceilDiv_le_iff_le_mul htarget).mpr (not_lt.mp hge)
      omega
    rw [hmany]
    calc (count - 1) * balancedChunkSize size count
        ≤ (count - 1) * remoteControlSegmentTargetBytes := Nat.mul_le_mul_left _ hchunk
      _ = remoteControlSegmentTargetBytes * (count - 1) := Nat.mul_comm _ _
      _ < size := hbelow

theorem settleSegments_first_error_iff {fits : Nat → Nat → Bool} {size : Nat} :
    (∃ text, settleSegments fits size (firstSegmentCount size) = .error text) ↔
      ∀ n ≤ remoteControlSegmentCountMax, ReachedFrom size (firstSegmentCount size) n →
        fits (balancedChunkSize size n) (size ⌈/⌉ balancedChunkSize size n) = false := by
  by_cases hsize : 2 ≤ size
  · exact settleSegments_error_iff (tightCount_first hsize)
  · have hone : ∀ n, balancedChunkSize size n = 1 := by
      intro n
      refine Nat.max_eq_left ?_
      rcases Nat.eq_zero_or_pos n with rfl | hn
      · rw [ceilDiv_zero]
        omega
      · rw [ceilDiv_le_iff_le_mul hn]
        omega
    have hfirst : firstSegmentCount size = 2 := by
      refine Nat.max_eq_left ?_
      rw [ceilDiv_le_iff_le_mul (by decide)]
      have htarget : 1 ≤ remoteControlSegmentTargetBytes := by decide
      omega
    have hreached : ReachedFrom size (firstSegmentCount size) 2 :=
      .inr ⟨by rw [hfirst], fun k hk hlt => by rw [hfirst] at hk; omega⟩
    have hchunk : max 1 (size ⌈/⌉ 2) = 1 := hone 2
    rw [hfirst] at hreached ⊢
    unfold settleSegments
    simp only [hchunk, if_true]
    by_cases hfits : fits 1 (size ⌈/⌉ 1) = true
    · rw [if_pos hfits]
      refine iff_of_false ?_ ?_
      · intro h
        obtain ⟨text, htext⟩ := h
        cases htext
      · intro h
        have hself := h 2 (by decide) hreached
        rw [hone] at hself
        exact Bool.noConfusion (hfits.symm.trans hself)
    · rw [if_neg hfits]
      refine iff_of_true ⟨_, rfl⟩ ?_
      intro n _ _
      rw [hone]
      exact Bool.eq_false_iff.mpr hfits

section

variable {Value : Type} (c : WireCodec Value) (envelopeLen : OutgoingClientEnvelope Value → Option Nat)
  (clientId streamId : String) (seqId : Nat) (cursor : Option String)

/-- Every chunk fits when the bytes are spread over the count. -/
def countFits (raw : Bytes) (segmentCount : Nat) : Bool :=
  segmentsFit c envelopeLen clientId streamId seqId cursor raw (balancedChunkSize raw.length segmentCount)
    (raw.length ⌈/⌉ balancedChunkSize raw.length segmentCount)

/-- The chunk that is tried before the search: one byte, with the longest count. -/
def minimalChunkEnvelope (raw : Bytes) : OutgoingClientEnvelope Value :=
  clientChunkEnvelope c clientId streamId seqId cursor 0 (min (max raw.length 1) remoteControlSegmentCountMax)
    raw.length (raw.take (min raw.length 1))

variable {Value : Type} in
def oversized (envelopeLen : OutgoingClientEnvelope Value → Option Nat) (envelope : OutgoingClientEnvelope Value) :
    Bool :=
  (envelopeLen envelope).any fun length => remoteControlSegmentMaxBytes < length

end

section

variable {Value : Type} {c : WireCodec Value} {envelopeLen : OutgoingClientEnvelope Value → Option Nat}
  {clientId streamId : String} {seqId : Nat} {cursor : Option String} {message : Value} {raw : Bytes}

variable {chunkSize chunkCount segmentCount : Nat}

theorem settleSegments_sends (h : settleSegments (segmentsFit c envelopeLen clientId streamId seqId cursor raw) raw.length segmentCount =
      .ok (chunkSize, chunkCount)) : chunkCount ≤ remoteControlSegmentCountMax := by
  obtain ⟨hpos, hcount, hfits⟩ := settleSegments_ok h
  cases hcut : Chunks.cut chunkSize raw with
  | nil =>
    have hlength := Chunks.length_cut hpos raw
    rw [hcut, List.length_nil] at hlength
    omega
  | cons first others =>
    have hfirst : (first, 0) ∈ (Chunks.cut chunkSize raw).zipIdx := by
      rw [hcut]
      exact List.mem_cons_self
    exact (segmentsFit_mem hfits hfirst).1

theorem serializedJsonLen_some {envelope : OutgoingClientEnvelope Value} {length : Nat}
    (h : envelopeLen envelope = some length) : serializedJsonLen envelopeLen envelope = .ok length := by
  rw [serializedJsonLen, h]

theorem serializedClientChunkLen_minimal {minimal : Nat}
    (hminimal : envelopeLen (minimalChunkEnvelope c clientId streamId seqId cursor raw) = some minimal) :
    serializedClientChunkLen c envelopeLen clientId streamId seqId cursor 0
      (min (max raw.length 1) remoteControlSegmentCountMax) raw.length (raw.take (min raw.length 1)) = .ok minimal := by
  unfold serializedClientChunkLen buildClientChunkEnvelope
  rw [if_neg (by omega)]
  exact serializedJsonLen_some hminimal

theorem segments_sent (hok : settleSegments (segmentsFit c envelopeLen clientId streamId seqId cursor raw) raw.length segmentCount =
      .ok (chunkSize, chunkCount)) :
    ¬∃ text, ((Chunks.cut chunkSize raw).zipIdx.mapM fun (chunk, segmentId) =>
      buildClientChunkEnvelope c clientId streamId seqId cursor segmentId chunkCount raw.length chunk) =
        .error text := by
  intro h
  obtain ⟨text, htext⟩ := h
  rw [buildClientChunkEnvelope_mapM (settleSegments_sends hok)] at htext
  cases htext

theorem settleSegments_fit_error_iff :
    (∃ text, settleSegments (segmentsFit c envelopeLen clientId streamId seqId cursor raw) raw.length
      (firstSegmentCount raw.length) = .error text) ↔
      ∀ n ≤ remoteControlSegmentCountMax, ReachedFrom raw.length (firstSegmentCount raw.length) n →
        countFits c envelopeLen clientId streamId seqId cursor raw n = false :=
  settleSegments_first_error_iff

theorem buildClientMessageEnvelopes_error_iff (htotal : ∀ envelope, (envelopeLen envelope).isSome)
    (hraw : c.toVec message = some raw) :
    (∃ text, buildClientMessageEnvelopes c envelopeLen clientId streamId seqId message cursor = .error text) ↔
      oversized envelopeLen (buildClientEnvelope clientId streamId seqId cursor message) = true ∧
        (remoteControlReassembledMaxBytes < raw.length ∨
          oversized envelopeLen (minimalChunkEnvelope c clientId streamId seqId cursor raw) = true ∨
          ∀ n ≤ remoteControlSegmentCountMax, ReachedFrom raw.length (firstSegmentCount raw.length) n →
            countFits c envelopeLen clientId streamId seqId cursor raw n = false) := by
  obtain ⟨whole, hwhole⟩ := Option.isSome_iff_exists.mp
    (htotal (buildClientEnvelope clientId streamId seqId cursor message))
  obtain ⟨minimal, hminimal⟩ := Option.isSome_iff_exists.mp
    (htotal (minimalChunkEnvelope c clientId streamId seqId cursor raw))
  have hprobe := serializedClientChunkLen_minimal hminimal
  have hwholeMax : oversized envelopeLen (buildClientEnvelope clientId streamId seqId cursor message) = true ↔
      remoteControlSegmentMaxBytes < whole := by
    simp [oversized, hwhole]
  have hminimalMax : oversized envelopeLen (minimalChunkEnvelope c clientId streamId seqId cursor raw) = true ↔
      remoteControlSegmentMaxBytes < minimal := by
    simp [oversized, hminimal]
  rw [hwholeMax, hminimalMax]
  unfold buildClientMessageEnvelopes
  simp only [serializedJsonLen_some hwhole, hraw, except_ok_bind, Option.elim_some, hprobe]
  by_cases hle : whole ≤ remoteControlSegmentMaxBytes
  · rw [if_pos hle]
    refine iff_of_false (fun h => ?_) (fun h => by omega)
    obtain ⟨text, htext⟩ := h
    cases htext
  rw [if_neg hle]
  by_cases hsize : raw.length > remoteControlReassembledMaxBytes
  · rw [if_pos hsize]
    exact iff_of_true ⟨_, rfl⟩ ⟨by omega, .inl hsize⟩
  rw [if_neg hsize]
  by_cases hmin : minimal > remoteControlSegmentMaxBytes
  · rw [if_pos hmin]
    exact iff_of_true ⟨_, rfl⟩ ⟨by omega, .inr (.inl hmin)⟩
  rw [if_neg hmin]
  have hrest : (remoteControlReassembledMaxBytes < raw.length ∨ remoteControlSegmentMaxBytes < minimal ∨
      ∀ n ≤ remoteControlSegmentCountMax, ReachedFrom raw.length (firstSegmentCount raw.length) n →
        countFits c envelopeLen clientId streamId seqId cursor raw n = false) ↔
      ∃ text, settleSegments (segmentsFit c envelopeLen clientId streamId seqId cursor raw) raw.length
        (firstSegmentCount raw.length) = .error text := by
    rw [settleSegments_fit_error_iff]
    exact ⟨fun h => (h.resolve_left hsize).resolve_left hmin, fun h => .inr (.inr h)⟩
  rw [hrest]
  unfold firstSegmentCount
  cases hsettled : settleSegments (segmentsFit c envelopeLen clientId streamId seqId cursor raw) raw.length
      (max 2 (raw.length ⌈/⌉ remoteControlSegmentTargetBytes)) with
  | error text => exact iff_of_true ⟨text, rfl⟩ ⟨by omega, text, rfl⟩
  | ok settled =>
    obtain ⟨chunkSize, chunkCount⟩ := settled
    refine iff_of_false (segments_sent hsettled) ?_
    intro h
    obtain ⟨_, text, htext⟩ := h
    cases htext

/-- The call gives up only when it must if and only if the search comes to a count that fits wherever there is one,
and the chunk that is tried first does not stand in its way. -/
theorem gives_up_only_when_it_must_iff (htotal : ∀ envelope, (envelopeLen envelope).isSome)
    (hraw : c.toVec message = some raw) :
    ((∃ text, buildClientMessageEnvelopes c envelopeLen clientId streamId seqId message cursor = .error text) →
      remoteControlReassembledMaxBytes < raw.length ∨ ∀ n, 1 ≤ n → n ≤ remoteControlSegmentCountMax →
        countFits c envelopeLen clientId streamId seqId cursor raw n = false) ↔
    (oversized envelopeLen (buildClientEnvelope clientId streamId seqId cursor message) = true →
      raw.length ≤ remoteControlReassembledMaxBytes →
      (∃ n, 1 ≤ n ∧ n ≤ remoteControlSegmentCountMax ∧
        countFits c envelopeLen clientId streamId seqId cursor raw n = true) →
      oversized envelopeLen (minimalChunkEnvelope c clientId streamId seqId cursor raw) = false ∧
        ∃ n ≤ remoteControlSegmentCountMax, ReachedFrom raw.length (firstSegmentCount raw.length) n ∧
          countFits c envelopeLen clientId streamId seqId cursor raw n = true) := by
  rw [buildClientMessageEnvelopes_error_iff htotal hraw]
  constructor
  · intro h hwhole hsize hfit
    obtain ⟨n, hone, hmax, hfits⟩ := hfit
    have hnot : ¬(oversized envelopeLen (minimalChunkEnvelope c clientId streamId seqId cursor raw) = true ∨
        ∀ n ≤ remoteControlSegmentCountMax, ReachedFrom raw.length (firstSegmentCount raw.length) n →
          countFits c envelopeLen clientId streamId seqId cursor raw n = false) := by
      intro hgive
      rcases h ⟨hwhole, .inr hgive⟩ with hover | hnone
      · omega
      · exact Bool.noConfusion (hfits.symm.trans (hnone n hone hmax))
    refine ⟨Bool.eq_false_iff.mpr fun hminimal => hnot (.inl hminimal), ?_⟩
    by_contra hno
    refine hnot (.inr fun k hk hreached => Bool.eq_false_iff.mpr fun hfits => ?_)
    exact hno ⟨k, hk, hreached, hfits⟩
  · intro h herror
    obtain ⟨hwhole, hcause⟩ := herror
    by_cases hsize : remoteControlReassembledMaxBytes < raw.length
    · exact .inl hsize
    refine .inr fun n hone hmax => Bool.eq_false_iff.mpr fun hfits => ?_
    obtain ⟨hminimal, k, hk, hreached, hfound⟩ := h hwhole (not_lt.mp hsize) ⟨n, hone, hmax, hfits⟩
    rcases hcause with hover | hprobe | hnone
    · exact hsize hover
    · exact Bool.noConfusion (hminimal.symm.trans hprobe)
    · exact Bool.noConfusion (hfound.symm.trans (hnone k hk hreached))

end

section

variable (clientId streamId : String)

theorem countFits_text (seqId : Nat) (raw : Bytes) (n : Nat)
    (hcount : raw.length ⌈/⌉ balancedChunkSize raw.length n ≤ remoteControlSegmentCountMax) :
    countFits textCodec textEnvelopeLen clientId streamId seqId none raw n =
      (Chunks.cut (balancedChunkSize raw.length n) raw).zipIdx.all fun piece =>
        chunkTextLen clientId.length streamId.length (toString seqId).length piece.2
          (raw.length ⌈/⌉ balancedChunkSize raw.length n) raw.length piece.1.length ≤
            remoteControlSegmentMaxBytes := by
  refine congrArg (List.all _) (funext fun piece => ?_)
  obtain ⟨chunk, segmentId⟩ := piece
  dsimp only
  rw [serializedClientChunkLen_text chunk hcount]

end

theorem textEnvelopeLen_isSome (envelope : OutgoingClientEnvelope String) : (textEnvelopeLen envelope).isSome := rfl

/-- A client id of 153432 letters leaves room for chunks of three bytes, in up to 99 segments, but for no more. A text
of 97 letters is then sent in 99 chunks of one byte, to which the search comes after eleven segments of nine bytes. -/
theorem gives_up_only_when_it_must_iff_found :
    oversized textEnvelopeLen (buildClientEnvelope (letters 153432) "stream" 1 none (letters 97)) = true ∧
      ¬∃ text, buildClientMessageEnvelopes textCodec textEnvelopeLen (letters 153432) "stream" 1 (letters 97) none =
        .error text := by
  have hsize : (lettersBytes 97).length = 99 := lettersBytes_length 97
  have hwhole :
      oversized textEnvelopeLen (buildClientEnvelope (letters 153432) "stream" 1 none (letters 97)) = true := by
    rw [oversized, textEnvelopeLen_whole, letters_length]
    decide +kernel
  have hminimal : oversized textEnvelopeLen
      (minimalChunkEnvelope textCodec (letters 153432) "stream" 1 none (lettersBytes 97)) = false := by
    rw [oversized, minimalChunkEnvelope, textEnvelopeLen_chunk, letters_length, hsize]
    decide +kernel
  have hfits : countFits textCodec textEnvelopeLen (letters 153432) "stream" 1 none (lettersBytes 97) 99 = true := by
    rw [countFits_text _ _ _ _ _ (by rw [hsize]; decide), letters_length]
    decide +kernel
  refine ⟨hwhole, fun herror => ?_⟩
  rcases (gives_up_only_when_it_must_iff textEnvelopeLen_isSome (textCodec_letters 97)).mpr
    (fun _ _ _ => ⟨hminimal, 99, by decide, .inl hsize.symm, hfits⟩) herror with hover | hnone
  · rw [hsize] at hover
    exact absurd hover (by decide)
  · exact Bool.noConfusion (hfits.symm.trans (hnone 99 (by decide) (by decide)))

/-- Ten segments of ten bytes are as many bytes a segment as eleven: the search goes on with chunks of one byte, which
do not fit, and never tries 34 segments of three. -/
theorem search_passes_over_fitting_count :
    ¬((∃ text, buildClientMessageEnvelopes textCodec textEnvelopeLen (letters 153432) "stream" 1 (letters 98) none =
        .error text) →
      remoteControlReassembledMaxBytes < (lettersBytes 98).length ∨ ∀ n, 1 ≤ n → n ≤ remoteControlSegmentCountMax →
        countFits textCodec textEnvelopeLen (letters 153432) "stream" 1 none (lettersBytes 98) n = false) := by
  have hsize : (lettersBytes 98).length = 100 := lettersBytes_length 98
  have hfits : countFits textCodec textEnvelopeLen (letters 153432) "stream" 1 none (lettersBytes 98) 34 = true := by
    rw [countFits_text _ _ _ _ _ (by rw [hsize]; decide), letters_length]
    decide +kernel
  have htried : ∀ n, n = 100 ∨ 2 ≤ n ∧ n ≤ 10 →
      countFits textCodec textEnvelopeLen (letters 153432) "stream" 1 none (lettersBytes 98) n = false := by
    intro n hn
    have hcount : 100 ⌈/⌉ balancedChunkSize 100 n ≤ remoteControlSegmentCountMax := by
      have hone : 1 ≤ balancedChunkSize 100 n := Nat.le_max_left ..
      rw [ceilDiv_le_iff_le_mul hone]
      exact Nat.le_trans (by decide) (Nat.mul_le_mul_right remoteControlSegmentCountMax hone)
    rw [countFits_text _ _ _ _ _ (by rwa [hsize]), letters_length]
    rcases hn with rfl | ⟨hlower, hupper⟩
    · decide +kernel
    · have hfew : ∀ n < 11, 2 ≤ n →
          ((Chunks.cut (balancedChunkSize (lettersBytes 98).length n) (lettersBytes 98)).zipIdx.all fun piece =>
            chunkTextLen 153432 "stream".length (toString 1).length piece.2
              ((lettersBytes 98).length ⌈/⌉ balancedChunkSize (lettersBytes 98).length n) (lettersBytes 98).length
              piece.1.length ≤ remoteControlSegmentMaxBytes) = false := by
        decide +kernel
      exact hfew n (by omega) hlower
  have hwhole :
      oversized textEnvelopeLen (buildClientEnvelope (letters 153432) "stream" 1 none (letters 98)) = true := by
    rw [oversized, textEnvelopeLen_whole, letters_length]
    decide +kernel
  intro h
  have herror : ∃ text, buildClientMessageEnvelopes textCodec textEnvelopeLen (letters 153432) "stream" 1
      (letters 98) none = .error text := by
    rw [buildClientMessageEnvelopes_error_iff textEnvelopeLen_isSome (textCodec_letters 98)]
    refine ⟨hwhole, .inr (.inr ?_)⟩
    intro n _ hreached
    rw [hsize] at hreached
    refine htried n ?_
    rcases hreached with hreached | ⟨hfirst, hsmaller⟩
    · exact .inl hreached
    · have htwo : firstSegmentCount 100 = 2 := by decide
      refine .inr ⟨hfirst, ?_⟩
      by_contra hlt
      have hstall := hsmaller 10 (by decide) (by omega)
      exact absurd hstall (by decide)
  rcases h herror with hover | hnone
  · rw [hsize] at hover
    exact absurd hover (by decide)
  · exact Bool.noConfusion (hfits.symm.trans (hnone 34 (by decide) (by decide)))

end MochiPort
