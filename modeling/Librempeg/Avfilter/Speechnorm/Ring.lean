import Librempeg.Avfilter.Speechnorm.Analyze

/-!
Contract: the ring of period items of af_speechnorm.c as the FIFO it implements: the
items from `pi_start` up to `pi_end` are the closed periods waiting to be consumed, and
`pi[pi_end]` is the open period the analysis is filling.

Owns: the ring distance (`pending`) and the FIFO view (`ringItems`, `ChannelContext.queue`)
with the lemmas for appending at `pi_end`, removing at `pi_start` and writing outside the
view; the channel invariant `ChannelContext.Pending` (closed periods queued, the open one
at `pi_end`, `acc` and the sample count); and that the analysis keeps it, or overruns.

Does not own: the consumption (`next_pi`, `consume_pi`) and the filter's events.
-/

namespace Librempeg.Avfilter.Speechnorm

/-! ### Ring distance and the FIFO view -/

/-- The number of ring steps from `start` to `stop`: the closed periods pending between
`pi_start` and `pi_end`. -/
def pending (start stop : Nat) : Nat :=
  if start ≤ stop then stop - start else stop + maxItems - start

/-- The `count` items of the ring from `start` on, in ring order. -/
def ringItems (pi : Nat → PeriodItem) : Nat → Nat → List PeriodItem
  | _, 0 => []
  | start, count + 1 => pi start :: ringItems pi (nextIndex start) count

section RingArithmetic

variable {start stop index : Nat}

theorem nextIndex_lt (inRing : index < maxItems) : nextIndex index < maxItems := by
  unfold nextIndex maxItems at *; split <;> omega

@[simp] theorem pending_self (index : Nat) : pending index index = 0 := by simp [pending]

theorem pending_nextIndex_start (startInRing : start < maxItems) (stopInRing : stop < maxItems)
    (distinct : start ≠ stop) : pending (nextIndex start) stop + 1 = pending start stop := by
  unfold pending nextIndex maxItems at *; split_ifs <;> omega

theorem pending_nextIndex_stop (startInRing : start < maxItems) (stopInRing : stop < maxItems)
    (noOverrun : nextIndex stop ≠ start) : pending start (nextIndex stop) = pending start stop + 1 := by
  unfold pending nextIndex maxItems at *; split_ifs at noOverrun ⊢ <;> omega

end RingArithmetic

theorem ringItems_update (pi : Nat → PeriodItem) (index : Nat) (item : PeriodItem)
    (indexInRing : index < maxItems) (count : Nat) :
    ∀ start, start < maxItems → count ≤ pending start index →
      ringItems (Function.update pi index item) start count = ringItems pi start count := by
  induction count with
  | zero => intro _ _ _; rfl
  | succ count ih =>
    intro start startInRing reach
    have distinct : start ≠ index := by rintro rfl; simp at reach
    have shorter := pending_nextIndex_start startInRing indexInRing distinct
    simp only [ringItems, Function.update_noteq distinct]
    rw [ih (nextIndex start) (nextIndex_lt startInRing) (by omega)]

theorem ringItems_snoc (pi : Nat → PeriodItem) (stop : Nat) (stopInRing : stop < maxItems)
    (count : Nat) :
    ∀ start, start < maxItems → pending start stop = count →
      ringItems pi start (count + 1) = ringItems pi start count ++ [pi stop] := by
  induction count with
  | zero =>
    intro start startInRing distance
    have same : start = stop := by unfold pending maxItems at *; split at distance <;> omega
    subst same
    rfl
  | succ count ih =>
    intro start startInRing distance
    have distinct : start ≠ stop := by rintro rfl; simp at distance
    have shorter := pending_nextIndex_start startInRing stopInRing distinct
    rw [ringItems, ih (nextIndex start) (nextIndex_lt startInRing) (by omega), ringItems]
    rfl

theorem ringItems_pop (pi : Nat → PeriodItem) {start stop : Nat} (startInRing : start < maxItems)
    (stopInRing : stop < maxItems) (distinct : start ≠ stop) (item : PeriodItem) :
    ringItems pi start (pending start stop) =
      pi start :: ringItems (Function.update pi start item) (nextIndex start)
        (pending (nextIndex start) stop) := by
  have shorter := pending_nextIndex_start startInRing stopInRing distinct
  have away : pending (nextIndex start) stop ≤ pending (nextIndex start) start := by
    unfold pending nextIndex maxItems at *; split_ifs at * <;> omega
  rw [ringItems_update pi start item startInRing _ _ (nextIndex_lt startInRing) away, ← shorter]
  rfl

def totalSize (items : List PeriodItem) : Nat := (items.map PeriodItem.size).sum

@[simp] theorem totalSize_nil : totalSize [] = 0 := rfl

@[simp] theorem totalSize_cons (item : PeriodItem) (items : List PeriodItem) :
    totalSize (item :: items) = item.size + totalSize items := by
  simp [totalSize]

@[simp] theorem totalSize_append (items items' : List PeriodItem) :
    totalSize (items ++ items') = totalSize items + totalSize items' := by
  simp [totalSize]

/-! ### The ring invariant -/

namespace Analysis

/-- The closed periods waiting between `pi_start` and the analysis' `pi_end`. -/
def queue (piStart : Nat) (a : Analysis) : List PeriodItem :=
  ringItems a.pi piStart (pending piStart a.piEnd)

/-- The ring holds `queued` unconsumed samples as the code expects them, for the
channel's `pi_start` and `pi_size`: every queued period is closed and non-empty,
`pi[pi_end]` is the open period, `acc` counts the samples of the period in use and of
the queued ones, and the open period holds the rest. -/
structure Pending (piStart piSize : Nat) (a : Analysis) (queued : Nat) : Prop where
  startInRing : piStart < maxItems
  endInRing : a.piEnd < maxItems
  closed : ∀ item ∈ a.queue piStart, item.type = 1 ∧ 0 < item.size
  openPeriod : (a.pi a.piEnd).type = 0
  acc : a.acc = piSize + totalSize (a.queue piStart)
  samples : queued = piSize + totalSize (a.queue piStart) + (a.pi a.piEnd).size

end Analysis

/-- The analysis locals of a channel. -/
def ChannelContext.analysis (cc : ChannelContext) : Analysis := ⟨cc.state, cc.piEnd, cc.pi, cc.acc⟩

@[simp] theorem ChannelContext.analysis_piEnd (cc : ChannelContext) : cc.analysis.piEnd = cc.piEnd := rfl
@[simp] theorem ChannelContext.analysis_pi (cc : ChannelContext) : cc.analysis.pi = cc.pi := rfl
@[simp] theorem ChannelContext.analysis_acc (cc : ChannelContext) : cc.analysis.acc = cc.acc := rfl

/-- The closed periods waiting in a channel's ring, from `pi_start` to `pi_end`. -/
def ChannelContext.queue (cc : ChannelContext) : List PeriodItem := cc.analysis.queue cc.piStart

/-- A channel whose ring holds its `queued` analysed and unconsumed samples as the code
expects them; once a sample has been analysed, the open period is not empty. -/
structure ChannelContext.Pending (cc : ChannelContext) (queued : Nat) : Prop where
  ring : cc.analysis.Pending cc.piStart cc.piSize queued
  started : cc.state ≠ -2 → 0 < (cc.pi cc.piEnd).size

theorem pending_initial : ChannelContext.initial.Pending 0 where
  ring :=
    { startInRing := by decide
      endInRing := by decide
      closed := by simp [Analysis.queue, ChannelContext.analysis, ChannelContext.initial, ringItems]
      openPeriod := rfl
      acc := by simp [Analysis.queue, ChannelContext.analysis, ChannelContext.initial, ringItems]
      samples := by simp [Analysis.queue, ChannelContext.analysis, ChannelContext.initial, ringItems] }
  started := by simp [ChannelContext.initial]

/-! ### The analysis keeps the invariant -/

namespace Analysis

variable {piStart piSize nbSamples queued : Nat} {a a' : Analysis} {x : ℚ}

theorem queue_update_open (inv : a.Pending piStart piSize queued) (item : PeriodItem) :
    ({ a with pi := Function.update a.pi a.piEnd item } : Analysis).queue piStart = a.queue piStart :=
  ringItems_update a.pi a.piEnd item inv.endInRing _ piStart inv.startInRing le_rfl

theorem queue_close (inv : a.Pending piStart piSize queued) (noOverrun : nextIndex a.piEnd ≠ piStart)
    (state : Int) (peak : ℚ) (acc : Nat) :
    (⟨state, nextIndex a.piEnd, Function.update (Function.update a.pi a.piEnd
        { (a.pi a.piEnd) with type := 1 }) (nextIndex a.piEnd) ⟨0, 0, peak⟩, acc⟩ : Analysis).queue
        piStart = a.queue piStart ++ [{ (a.pi a.piEnd) with type := 1 }] := by
  have longer := pending_nextIndex_stop inv.startInRing inv.endInRing noOverrun
  simp only [queue]
  rw [longer, ringItems_update _ _ _ (nextIndex_lt inv.endInRing) _ _ inv.startInRing longer.ge,
    ringItems_snoc _ _ inv.endInRing _ _ inv.startInRing rfl,
    ringItems_update _ _ _ inv.endInRing _ _ inv.startInRing le_rfl, Function.update_same]

theorem Pending.close (inv : a.Pending piStart piSize queued) (noOverrun : nextIndex a.piEnd ≠ piStart)
    (nonempty : 0 < (a.pi a.piEnd).size) (state : Int) (peak : ℚ) :
    (⟨state, nextIndex a.piEnd, Function.update (Function.update a.pi a.piEnd
        { (a.pi a.piEnd) with type := 1 }) (nextIndex a.piEnd) ⟨0, 0, peak⟩,
        a.acc + (a.pi a.piEnd).size⟩ : Analysis).Pending piStart piSize queued := by
  have appended := queue_close inv noOverrun state peak (a.acc + (a.pi a.piEnd).size)
  refine ⟨inv.startInRing, nextIndex_lt inv.endInRing, ?_, by simp, ?_, ?_⟩ <;> rw [appended]
  · intro item queued
    rcases List.mem_append.mp queued with old | new
    · exact inv.closed item old
    · rw [List.mem_singleton.mp new]; exact ⟨rfl, nonempty⟩
  · simp only [totalSize_append, totalSize_cons, totalSize_nil, inv.acc]; omega
  · simp only [totalSize_append, totalSize_cons, totalSize_nil, Function.update_same, inv.samples]
    omega

theorem Pending.withState (inv : a.Pending piStart piSize queued) (state : Int) :
    ({ a with state := state } : Analysis).Pending piStart piSize queued :=
  ⟨inv.startInRing, inv.endInRing, inv.closed, inv.openPeriod, inv.acc, inv.samples⟩

theorem Pending.extend (inv : a.Pending piStart piSize queued) (peak : ℚ) (size : Nat) {queued' : Nat}
    (counted : queued' + (a.pi a.piEnd).size = queued + size) :
    ({ a with pi := Function.update a.pi a.piEnd ⟨size, (a.pi a.piEnd).type, peak⟩ } : Analysis).Pending
      piStart piSize queued' := by
  have kept := queue_update_open inv ⟨size, (a.pi a.piEnd).type, peak⟩
  refine ⟨inv.startInRing, inv.endInRing, ?_, ?_, ?_, ?_⟩ <;> simp only [kept]
  · exact inv.closed
  · simpa using inv.openPeriod
  · exact inv.acc
  · have := inv.samples; simp only [Function.update_same]; omega

theorem closeIfNeeded_pending (inv : a.Pending piStart piSize queued)
    (closed : a.closeIfNeeded piStart nbSamples x = .ok a') : a'.Pending piStart piSize queued := by
  dsimp only [closeIfNeeded] at closed
  split at closed
  · split at closed
    · cases closed
    split at closed
    · split at closed
      · cases closed
      split at closed
      · cases closed
      next nonempty _ _ noOverrun =>
        cases closed
        exact inv.close noOverrun (Nat.pos_of_ne_zero nonempty) _ _
    · cases closed; exact inv.withState _
  · cases closed; exact inv

theorem closeIfNeeded_overflow (inv : a.Pending piStart piSize queued)
    (overflows : a.closeIfNeeded piStart nbSamples x = .error .overflow) : intMax < queued := by
  have acc := inv.acc
  have samples := inv.samples
  dsimp only [closeIfNeeded] at overflows
  split_ifs at overflows <;> first | omega | cases overflows

theorem closeIfNeeded_ne_assertion (frame : 0 < nbSamples)
    (ready : 0 < (a.pi a.piEnd).size ∨ a.state = diffSign x minPeak) :
    a.closeIfNeeded piStart nbSamples x ≠ .error .assertion := by
  dsimp only [closeIfNeeded]
  split
  next closes =>
    split
    next empty =>
      rcases ready with ready | same
      · omega
      · simp only [same, ne_eq, not_true_eq_false, empty, nonpos_iff_eq_zero, false_or,
          decide_eq_true_eq] at closes
        omega
    split
    · split
      · simp
      · split <;> simp
    · simp
  · simp

theorem step_ne_assertion (frame : 0 < nbSamples)
    (ready : 0 < (a.pi a.piEnd).size ∨ a.state = diffSign x minPeak) (rest : List ℚ) :
    a.step piStart nbSamples x rest ≠ .error .assertion := by
  unfold step
  split
  next closed =>
    intro failed
    cases failed
    exact closeIfNeeded_ne_assertion frame ready closed
  · dsimp only
    split <;> simp

/-- **One round keeps the invariant.** A round that reads the samples it takes adds them
to the ring, and leaves a non-empty open period. -/
theorem step_pending (inv : a.Pending piStart piSize queued) {rest rest' : List ℚ}
    (stepped : a.step piStart nbSamples x rest = .ok (a', rest')) :
    a'.Pending piStart piSize (queued + (rest.length + 1 - rest'.length)) ∧
      0 < (a'.pi a'.piEnd).size := by
  unfold step at stepped
  split at stepped
  · cases stepped
  next a₁ closed =>
    dsimp only at stepped
    split at stepped
    · cases stepped
    simp only [Except.ok.injEq, Prod.mk.injEq] at stepped
    obtain ⟨rfl, rfl⟩ := stepped
    have takes := extendPeriod_takes a₁.state (a₁.pi a₁.piEnd).maxPeak (a₁.pi a₁.piEnd).size rest
      (by rw [closeIfNeeded_state piStart nbSamples a x closed]; exact continuesPeriod_diffSign x)
    have total := extendPeriod_size a₁.state (a₁.pi a₁.piEnd).maxPeak (a₁.pi a₁.piEnd).size (x :: rest)
    simp only [List.length_cons] at total
    refine ⟨(closeIfNeeded_pending inv closed).extend _ _ (by omega), ?_⟩
    simp only [Function.update_same]
    omega

theorem step_overflow (inv : a.Pending piStart piSize queued) {rest : List ℚ}
    (overflows : a.step piStart nbSamples x rest = .error .overflow) :
    intMax < queued + (rest.length + 1) := by
  unfold step at overflows
  split at overflows
  next closed =>
    cases overflows
    exact Nat.lt_add_right _ (closeIfNeeded_overflow inv closed)
  next a₁ closed =>
    dsimp only at overflows
    split at overflows
    next past =>
      have samples := (closeIfNeeded_pending inv closed).samples
      have total := extendPeriod_size a₁.state (a₁.pi a₁.piEnd).maxPeak (a₁.pi a₁.piEnd).size (x :: rest)
      simp only [List.length_cons] at total
      omega
    · cases overflows

end Analysis

/-- **The analysis loop keeps the invariant.** With enough fuel, the loop fails only by
overrunning the ring, or by an `int` overflow when the channel and the samples read are
more than `INT_MAX`; when it ends, the ring holds every sample it read, and the open
period is not empty once a sample was read. -/
theorem analyzeLoop_pending {piStart piSize nbSamples : Nat} (frame : 0 < nbSamples) (fuel : Nat) :
    ∀ (a : Analysis) (src : List ℚ) (queued : Nat), src.length ≤ fuel →
      a.Pending piStart piSize queued →
      (0 < (a.pi a.piEnd).size ∨ a.state = diffSign (src.headD 0) minPeak) →
      analyzeLoop piStart nbSamples fuel a src ≠ .error .assertion ∧
        (analyzeLoop piStart nbSamples fuel a src = .error .overflow → intMax < queued + src.length) ∧
        ∀ a', analyzeLoop piStart nbSamples fuel a src = .ok a' →
          a'.Pending piStart piSize (queued + src.length) ∧
            (src ≠ [] → 0 < (a'.pi a'.piEnd).size) := by
  induction fuel with
  | zero =>
    intro a src queued short inv _
    obtain rfl : src = [] := List.length_eq_zero.mp (Nat.le_zero.mp short)
    refine ⟨by simp [analyzeLoop], by simp [analyzeLoop], ?_⟩
    rintro a' ⟨⟩
    exact ⟨inv, fun absurd => (absurd rfl).elim⟩
  | succ fuel ih =>
    intro a src queued short inv ready
    cases src with
    | nil =>
      refine ⟨by simp [analyzeLoop], by simp [analyzeLoop], ?_⟩
      rintro a' ⟨⟩
      exact ⟨inv, fun absurd => (absurd rfl).elim⟩
    | cons x rest =>
      simp only [analyzeLoop]
      split
      next failure failed =>
        refine ⟨?_, fun overflows => ?_, fun _ absurd => by cases absurd⟩
        · rintro ⟨⟩
          exact Analysis.step_ne_assertion frame ready rest failed
        · cases overflows
          exact Analysis.step_overflow inv failed
      next a₁ rest₁ stepped =>
        obtain ⟨inv₁, started⟩ := Analysis.step_pending inv stepped
        have fewer := a.step_rest_length piStart nbSamples x stepped
        obtain ⟨safe, overflow, ends⟩ := ih a₁ rest₁ _ (by simp at short; omega) inv₁ (.inl started)
        refine ⟨safe, fun overflows => ?_, fun a' ended => ?_⟩
        · have := overflow overflows
          simp only [List.length_cons]
          omega
        · obtain ⟨inv', started'⟩ := ends a' ended
          refine ⟨by simpa [show queued + (rest.length + 1 - rest₁.length) + rest₁.length =
            queued + (rest.length + 1) by omega] using inv', fun _ => ?_⟩
          cases rest₁ with
          | nil =>
            simp only [analyzeLoop, Except.ok.injEq] at ended
            subst ended
            exact started
          | cons _ _ => exact started' (List.cons_ne_nil _ _)

/-- **The analysis keeps the channel invariant, or overruns the ring.** Analysing a frame
of at least one sample never fails an `av_assert1` other than
`pi_end != cc->pi_start`, overflows an `int` only when the channel and the frame hold more
than `INT_MAX` samples, and adds the frame's samples to the channel's ring. -/
theorem analyzeChannel_pending {cc : ChannelContext} {queued : Nat} (inv : cc.Pending queued)
    {src : List ℚ} (nonempty : src ≠ []) :
    analyzeChannel cc src ≠ .error .assertion ∧
      (analyzeChannel cc src = .error .overflow → intMax < queued + src.length) ∧
      ∀ cc', analyzeChannel cc src = .ok cc' → cc'.Pending (queued + src.length) := by
  have frame : 0 < src.length := List.length_pos.mpr nonempty
  have ready : 0 < (cc.pi cc.piEnd).size ∨
      (if cc.state = -2 then diffSign (src.headD 0) minPeak else cc.state) =
        diffSign (src.headD 0) minPeak := by
    by_cases fresh : cc.state = -2
    · exact .inr (if_pos fresh)
    · exact .inl (inv.started fresh)
  obtain ⟨safe, overflow, ends⟩ := analyzeLoop_pending frame src.length
    ⟨if cc.state = -2 then diffSign (src.headD 0) minPeak else cc.state, cc.piEnd, cc.pi, cc.acc⟩
    src queued le_rfl (inv.ring.withState _) ready
  unfold analyzeChannel
  dsimp only
  revert safe overflow ends
  generalize analyzeLoop _ _ _ _ _ = result
  intro safe overflow ends
  cases result with
  | error failure =>
    refine ⟨fun failed => safe ?_, fun overflows => overflow ?_, fun _ absurd => by cases absurd⟩
    · cases failed
      rfl
    · cases overflows
      rfl
  | ok a =>
    refine ⟨by simp [Except.map], by simp [Except.map], fun cc' analysed => ?_⟩
    cases analysed
    obtain ⟨inv', started⟩ := ends a rfl
    exact ⟨inv', fun _ => started nonempty⟩

end Librempeg.Avfilter.Speechnorm
