import Mathlib

/-!
Contract: the period analysis of libavfilter/af_speechnorm.c: `ChannelContext` with its
ring of `MAX_ITEMS` period items, and `ANALYZE_CHANNEL`, which cuts a channel's samples
into half-wave periods, closes a period at each sign change, and appends it to the ring.

Samples are exact rationals: the analysis compares samples with `MIN_PEAK` and takes
maxima, which `double` and `float` do exactly, so every decision of the loop is the C
one. The RMS sums and the gains are not modelled: no decision of the analysis or of the
consumption reads them. An `av_assert1` that fails is a `Failure`: `overrun` for
`pi_end != cc->pi_start`, `assertion` for the others.

The `int` counts (`PeriodItem.size`, `acc`, `pi_size`) are `Nat`s: the code adds sizes to
them and subtracts at most what they hold. Every sum that can pass `INT_MAX` is checked,
and one that does is `Failure.overflow`, the undefined behaviour of a signed overflow.

Owns: the ring index, `DIFFSIGN`, the inner loops that extend a period, one round of the
analysis loop and the loop itself; that every round reads at least one sample, so the
loop never runs out of its fuel; and that an alternating signal of `MAX_ITEMS + 1`
samples overruns the ring.

Does not own: the consumption of periods (`next_pi`, `consume_pi`), the filter's events.
-/

namespace Librempeg.Avfilter.Speechnorm

/-- `MAX_ITEMS`. -/
def maxItems : Nat := 882000

/-- `INT_MAX`, the largest `int`. -/
def intMax : Nat := 2147483647

/-- `MIN_PEAK`, `1. / 32768.`. -/
def minPeak : ℚ := 1 / 32768

/-- `DBL_MIN`, the smallest normal `double`. -/
def dblMin : ℚ := 1 / 2 ^ 1022

/-- A `PeriodItem`: the period's length in samples, its type (1 once closed) and its
peak. -/
structure PeriodItem where
  size : Nat
  type : Nat
  maxPeak : ℚ
  deriving DecidableEq, Repr

/-- The fields of a `ChannelContext` the analysis and the consumption use: the sign state
(-2 before the first sample), the ring `pi`, its start and end, the size left of the
period in use, and `acc`. -/
structure ChannelContext where
  state : Int
  pi : Nat → PeriodItem
  piStart : Nat
  piEnd : Nat
  piSize : Nat
  acc : Nat

/-- A channel as `config_input` leaves it: `av_calloc`'d, with `state = -2`. -/
def ChannelContext.initial : ChannelContext := ⟨-2, fun _ => ⟨0, 0, 0⟩, 0, 0, 0, 0⟩

/-- Where a run of the filter stops: the failure of an `av_assert1` (`overrun` is
`pi_end != cc->pi_start`), or an `int` sum past `INT_MAX`. -/
inductive Failure
  | overrun
  | assertion
  | overflow
  deriving DecidableEq, Repr

/-- `index++; if (index >= MAX_ITEMS) index = 0;`. -/
def nextIndex (index : Nat) : Nat := if maxItems ≤ index + 1 then 0 else index + 1

theorem nextIndex_eq_succ {index : Nat} (noWrap : nextIndex index ≠ 0) :
    nextIndex index = index + 1 ∧ index + 1 < maxItems := by
  unfold nextIndex at *
  split_ifs at noWrap ⊢ <;> omega

/-- `DIFFSIGN(x, y)`: `((x) > (y)) - ((x) < -(y))`. -/
def diffSign (x y : ℚ) : Int := (if y < x then 1 else 0) - (if x < -y then 1 else 0)

/-! ### The inner loops -/

/-- The condition of the inner `while` loop of the period's state: above `MIN_PEAK`
for a positive period, below `MIN_PEAK` for a negative one, within `±MIN_PEAK` for a
silent one. -/
def continuesPeriod (state : Int) (x : ℚ) : Bool :=
  if 0 < state then decide (minPeak < x)
  else if state < 0 then decide (x < minPeak)
  else decide (-minPeak ≤ x ∧ x ≤ minPeak)

/-- The period's peak after one more sample. -/
def peakAfter (state : Int) (maxPeak x : ℚ) : ℚ :=
  if 0 < state then max maxPeak x else if state < 0 then max maxPeak (-x) else minPeak

/-- The inner loop: the samples that continue the period are added to it; the result is
the period's peak and size and the samples left. -/
def extendPeriod (state : Int) : ℚ → Nat → List ℚ → ℚ × Nat × List ℚ
  | maxPeak, size, [] => (maxPeak, size, [])
  | maxPeak, size, x :: rest =>
      if continuesPeriod state x then extendPeriod state (peakAfter state maxPeak x) (size + 1) rest
      else (maxPeak, size, x :: rest)

theorem extendPeriod_size (state : Int) (maxPeak : ℚ) (size : Nat) (src : List ℚ) :
    (extendPeriod state maxPeak size src).2.1 + (extendPeriod state maxPeak size src).2.2.length =
      size + src.length := by
  induction src generalizing maxPeak size with
  | nil => rfl
  | cons x rest ih =>
    simp only [extendPeriod]
    split
    · rw [ih]; simp only [List.length_cons]; omega
    · rfl

theorem le_extendPeriod_size (state : Int) (maxPeak : ℚ) (size : Nat) (src : List ℚ) :
    size ≤ (extendPeriod state maxPeak size src).2.1 := by
  induction src generalizing maxPeak size with
  | nil => exact le_rfl
  | cons x rest ih =>
    simp only [extendPeriod]
    split
    · exact le_trans (Nat.le_succ size) (ih _ _)
    · exact le_rfl

theorem extendPeriod_takes (state : Int) (maxPeak : ℚ) (size : Nat) {x : ℚ} (rest : List ℚ)
    (continues : continuesPeriod state x = true) :
    size < (extendPeriod state maxPeak size (x :: rest)).2.1 := by
  simp only [extendPeriod, continues, if_true]
  exact le_extendPeriod_size state _ (size + 1) rest

theorem continuesPeriod_diffSign (x : ℚ) : continuesPeriod (diffSign x minPeak) x = true := by
  have positive : (0 : ℚ) < minPeak := by norm_num [minPeak]
  unfold continuesPeriod diffSign
  by_cases above : minPeak < x
  · simp [above, show ¬x < -minPeak by linarith]
  · by_cases below : x < -minPeak
    · simp [above, below, show x < minPeak by linarith]
    · simp only [above, below, if_false, sub_self, lt_self_iff_false, decide_eq_true_eq]
      constructor <;> linarith

/-! ### One round of the analysis -/

/-- The locals of `ANALYZE_CHANNEL` that outlive a round: the state, `pi_end`, the ring
and `cc->acc`. -/
structure Analysis where
  state : Int
  piEnd : Nat
  pi : Nat → PeriodItem
  acc : Nat

namespace Analysis

variable (piStart nbSamples : Nat) (a : Analysis) (x : ℚ)

/-- The test at the top of a round for the sample `x = src[n]`: at a sign change, or to
split a silent period as long as the frame, the open period is closed (type 1, its size
added to `acc`) and a new one opened at the next ring index; the new state is `x`'s. -/
def closeIfNeeded : Except Failure Analysis :=
  let split := decide (a.state = 0 ∧ nbSamples ≤ (a.pi a.piEnd).size)
  if a.state ≠ diffSign x minPeak ∨ split then
    let item := a.pi a.piEnd
    let state := diffSign x minPeak
    if item.size = 0 then .error .assertion
    else if minPeak ≤ item.maxPeak ∨ split then
      if intMax < a.acc + item.size then .error .overflow
      else
        let piEnd := nextIndex a.piEnd
        let pi := Function.update (Function.update a.pi a.piEnd { item with type := 1 }) piEnd
          ⟨0, 0, if state ≠ a.state then dblMin else item.maxPeak⟩
        if piEnd = piStart then .error .overrun
        else .ok ⟨state, piEnd, pi, a.acc + item.size⟩
    else .ok { a with state := state }
  else .ok a

/-- One round of the `while (n < nb_samples)` loop from the sample `x` followed by
`rest`: the test at the top, then the inner loop of the state, whose `new_size++` passes
`INT_MAX` exactly when the size it ends with is above it. -/
def step (rest : List ℚ) : Except Failure (Analysis × List ℚ) :=
  match a.closeIfNeeded piStart nbSamples x with
  | .error failure => .error failure
  | .ok a =>
      let item := a.pi a.piEnd
      let extended := extendPeriod a.state item.maxPeak item.size (x :: rest)
      if intMax < extended.2.1 then .error .overflow
      else
        let updated : PeriodItem := { item with maxPeak := extended.1, size := extended.2.1 }
        .ok ({ a with pi := Function.update a.pi a.piEnd updated }, extended.2.2)

theorem closeIfNeeded_state {a' : Analysis} (closed : a.closeIfNeeded piStart nbSamples x = .ok a') :
    a'.state = diffSign x minPeak := by
  dsimp only [closeIfNeeded] at closed
  split at closed
  · split at closed
    · cases closed
    split at closed
    · split at closed
      · cases closed
      split at closed
      · cases closed
      · cases closed; rfl
    · cases closed; rfl
  · cases closed
    next unchanged => simp only [not_or, not_not] at unchanged; exact unchanged.1

theorem step_rest_length {rest : List ℚ} {a' : Analysis} {rest' : List ℚ}
    (stepped : a.step piStart nbSamples x rest = .ok (a', rest')) : rest'.length ≤ rest.length := by
  unfold step at stepped
  split at stepped
  · cases stepped
  next a₁ closed =>
    dsimp only at stepped
    split at stepped
    · cases stepped
    simp only [Except.ok.injEq, Prod.mk.injEq] at stepped
    obtain ⟨-, rfl⟩ := stepped
    have takes := extendPeriod_takes a₁.state (a₁.pi a₁.piEnd).maxPeak (a₁.pi a₁.piEnd).size rest
      (by rw [a.closeIfNeeded_state piStart nbSamples x closed]; exact continuesPeriod_diffSign x)
    have total := extendPeriod_size a₁.state (a₁.pi a₁.piEnd).maxPeak (a₁.pi a₁.piEnd).size (x :: rest)
    simp only [List.length_cons] at total
    omega

end Analysis

/-! ### The analysis loop -/

/-- The `while (n < nb_samples)` loop of `ANALYZE_CHANNEL` over the samples `src`, with
at most `fuel` rounds. -/
def analyzeLoop (piStart nbSamples : Nat) : Nat → Analysis → List ℚ → Except Failure Analysis
  | _, a, [] => .ok a
  | 0, _, _ :: _ => .error .assertion
  | fuel + 1, a, x :: rest =>
      match a.step piStart nbSamples x rest with
      | .error failure => .error failure
      | .ok (a, rest) => analyzeLoop piStart nbSamples fuel a rest

/-- `analyze_channel(ctx, cc, src, nb_samples)`: the state of a fresh channel is the first
sample's sign; the loop runs over the frame's samples, one round per period at most. -/
def analyzeChannel (cc : ChannelContext) (src : List ℚ) : Except Failure ChannelContext :=
  let state := if cc.state = -2 then diffSign (src.headD 0) minPeak else cc.state
  (analyzeLoop cc.piStart src.length src.length ⟨state, cc.piEnd, cc.pi, cc.acc⟩ src).map
    fun a => { cc with state := a.state, piEnd := a.piEnd, pi := a.pi, acc := a.acc }

/-! ### A signal that overruns the ring -/

/-- A full-scale sample, positive or negative. -/
def fullScale (positive : Bool) : ℚ := if positive then 1 else -1

/-- `count` full-scale samples of alternating sign, the first one positive when
`positive`: every sample after the first is a sign change. -/
def alternating : Nat → Bool → List ℚ
  | 0, _ => []
  | count + 1, positive => fullScale positive :: alternating count (!positive)

/-- The period one full-scale sample leaves open: one sample of peak 1. -/
def fullScalePeriod : PeriodItem := ⟨1, 0, 1⟩

@[simp] theorem diffSign_fullScale (positive : Bool) :
    diffSign (fullScale positive) minPeak = if positive then 1 else -1 := by
  cases positive <;> norm_num [diffSign, fullScale, minPeak]

@[simp] theorem continuesPeriod_fullScale (positive positive' : Bool) :
    continuesPeriod (if positive then 1 else -1) (fullScale positive') = (positive == positive') := by
  cases positive <;> cases positive' <;> norm_num [continuesPeriod, fullScale, minPeak]

@[simp] theorem diffSign_one : diffSign 1 minPeak = 1 := by norm_num [diffSign, minPeak]

theorem extendPeriod_alternating (positive : Bool) (maxPeak : ℚ) (size count : Nat) :
    extendPeriod (if positive then 1 else -1) maxPeak size (alternating count (!positive)) =
      (maxPeak, size, alternating count (!positive)) := by
  cases count with
  | zero => rfl
  | succ count => simp [alternating, extendPeriod]

theorem step_alternating (nbSamples count : Nat) (positive : Bool) (a : Analysis)
    (sign : a.state = if positive then -1 else 1) (period : a.pi a.piEnd = fullScalePeriod)
    (accFits : a.acc < intMax) :
    (nextIndex a.piEnd = 0 ∧
        a.step 0 nbSamples (fullScale positive) (alternating count (!positive)) = .error .overrun) ∨
      (nextIndex a.piEnd ≠ 0 ∧ ∃ a' : Analysis,
        a.step 0 nbSamples (fullScale positive) (alternating count (!positive)) =
          .ok (a', alternating count (!positive)) ∧
        a'.state = (if positive then 1 else -1) ∧ a'.piEnd = nextIndex a.piEnd ∧
        a'.pi a'.piEnd = fullScalePeriod ∧ a'.acc = a.acc + 1) := by
  have changes : a.state ≠ diffSign (fullScale positive) minPeak := by
    rw [sign, diffSign_fullScale]; cases positive <;> decide
  have close : a.closeIfNeeded 0 nbSamples (fullScale positive) =
      if nextIndex a.piEnd = 0 then .error .overrun
      else .ok ⟨if positive then 1 else -1, nextIndex a.piEnd,
        Function.update (Function.update a.pi a.piEnd { fullScalePeriod with type := 1 })
          (nextIndex a.piEnd) ⟨0, 0, dblMin⟩, a.acc + 1⟩ := by
    simp only [Analysis.closeIfNeeded, period, diffSign_fullScale, fullScalePeriod]
    rw [if_pos (Or.inl (by rw [← diffSign_fullScale]; exact changes)), if_neg one_ne_zero,
      if_pos (Or.inl (by norm_num [minPeak])), if_neg (by omega)]
    cases positive <;> simp [sign]
  by_cases wraps : nextIndex a.piEnd = 0
  · exact Or.inl ⟨wraps, by simp only [Analysis.step, close, wraps, if_true]⟩
  · have extended : extendPeriod (if positive then 1 else -1) dblMin 0
        (fullScale positive :: alternating count (!positive)) = (1, 1, alternating count (!positive)) := by
      have small : dblMin ≤ 1 := by norm_num [dblMin]
      simp only [extendPeriod, continuesPeriod_fullScale, beq_self_eq_true, if_true,
        extendPeriod_alternating]
      cases positive <;> simp [peakAfter, fullScale, small]
    refine Or.inr ⟨wraps, ⟨if positive then 1 else -1, nextIndex a.piEnd,
      Function.update (Function.update (Function.update a.pi a.piEnd { fullScalePeriod with type := 1 })
        (nextIndex a.piEnd) ⟨0, 0, dblMin⟩) (nextIndex a.piEnd) fullScalePeriod, a.acc + 1⟩,
      ?_, rfl, rfl, by simp, rfl⟩
    simp only [Analysis.step, close, wraps, if_false, Function.update_same, extended,
      show ¬intMax < 1 by decide]
    rfl

/-- **An alternating signal overruns the ring.** From a one-sample open period at
`pi_end`, with `pi_start = 0`, an alternating signal that reaches `MAX_ITEMS` on the ring
closes a period onto `pi_start`. -/
theorem analyzeLoop_alternating (nbSamples : Nat) (positive : Bool) (count : Nat) :
    ∀ (a : Analysis) (fuel : Nat), a.state = (if positive then -1 else 1) →
      a.pi a.piEnd = fullScalePeriod → a.piEnd < maxItems → maxItems ≤ a.piEnd + count →
      a.acc + count ≤ intMax → count ≤ fuel →
      analyzeLoop 0 nbSamples fuel a (alternating count positive) = .error .overrun := by
  induction count generalizing positive with
  | zero => intro a _ _ _ inRing full _ _; omega
  | succ count ih =>
    intro a fuel sign period inRing full accFits enough
    obtain ⟨fuel, rfl⟩ : ∃ rounds, fuel = rounds + 1 := ⟨fuel - 1, by omega⟩
    rcases step_alternating nbSamples count positive a sign period (by omega) with
      ⟨-, overrun⟩ | ⟨wraps, a', stepped, sign', index, period', acc'⟩
    · simp only [alternating, analyzeLoop, overrun]
    · simp only [alternating, analyzeLoop, stepped]
      obtain ⟨next, inRing'⟩ := nextIndex_eq_succ wraps
      rw [next] at index
      exact ih (!positive) a' fuel (by cases positive <;> simp [sign']) period' (by omega)
        (by omega) (by omega) (by omega)

theorem length_alternating (count : Nat) (positive : Bool) :
    (alternating count positive).length = count := by
  induction count generalizing positive with
  | zero => rfl
  | succ count ih => simp [alternating, ih]

/-- **The ring overruns on one frame.** A fresh channel that analyses one frame of
`MAX_ITEMS + 1` full-scale samples of alternating sign closes `MAX_ITEMS` periods, the
last one onto `pi_start`: `av_assert1(pi_end != cc->pi_start)` fails, and the pending
first period is overwritten. -/
theorem analyzeChannel_alternating_overrun :
    analyzeChannel ChannelContext.initial (alternating (maxItems + 1) true) = .error .overrun := by
  have opens : extendPeriod 1 0 0 (fullScale true :: alternating maxItems false) =
      (1, 1, alternating maxItems false) := by
    have stops := extendPeriod_alternating true 1 1 maxItems
    simp only [Bool.not_true, if_true] at stops
    have continues : continuesPeriod 1 (fullScale true) = true := by
      simpa using continuesPeriod_fullScale true true
    have peak : peakAfter 1 0 (fullScale true) = 1 := by norm_num [peakAfter, fullScale]
    rw [extendPeriod, if_pos continues, peak, zero_add, stops]
  have first : Analysis.step 0 (maxItems + 1) ⟨1, 0, fun _ => ⟨0, 0, 0⟩, 0⟩ (fullScale true)
      (alternating maxItems false) =
      .ok (⟨1, 0, Function.update (fun _ => ⟨0, 0, 0⟩) 0 fullScalePeriod, 0⟩,
        alternating maxItems false) := by
    have kept : Analysis.closeIfNeeded 0 (maxItems + 1) ⟨1, 0, fun _ => ⟨0, 0, 0⟩, 0⟩ (fullScale true) =
        .ok ⟨1, 0, fun _ => ⟨0, 0, 0⟩, 0⟩ := by
      rw [Analysis.closeIfNeeded, diffSign_fullScale]
      rfl
    rw [Analysis.step, kept]
    simp only [opens]
    rfl
  rw [analyzeChannel, length_alternating, alternating]
  simp only [ChannelContext.initial, if_true, List.headD_cons, diffSign_fullScale, Bool.not_true]
  rw [analyzeLoop, first]
  dsimp only
  rw [analyzeLoop_alternating (maxItems + 1) false maxItems _ maxItems rfl
    (by simp [fullScalePeriod]) (by decide) (by simp) (by decide) le_rfl]
  rfl

/-! ### A signal that keeps its sign -/

theorem extendPeriod_positive (peak : ℚ) (size count : Nat) :
    (extendPeriod 1 peak size (List.replicate count 1)).2 = (size + count, []) := by
  induction count generalizing peak size with
  | zero => rfl
  | succ count ih =>
    rw [List.replicate_succ, extendPeriod, if_pos (by norm_num [continuesPeriod, minPeak]), ih]
    congr 1
    omega

/-- **A positive signal never closes a period.** On a positive state, a frame of
`count + 1` samples of `1.0` goes whole to the open period, whose `int` size overflows
when it passes `INT_MAX`; otherwise the ring is left as it was. -/
theorem analyzeLoop_positive (piStart nbSamples count : Nat) (a : Analysis) (positive : a.state = 1) :
    (intMax < (a.pi a.piEnd).size + (count + 1) →
        analyzeLoop piStart nbSamples (count + 1) a (List.replicate (count + 1) 1) = .error .overflow) ∧
      ((a.pi a.piEnd).size + (count + 1) ≤ intMax → ∃ a',
        analyzeLoop piStart nbSamples (count + 1) a (List.replicate (count + 1) 1) = .ok a' ∧
          a'.state = 1 ∧ a'.piEnd = a.piEnd ∧ (a'.pi a'.piEnd).size = (a.pi a.piEnd).size + (count + 1)) := by
  have kept : a.closeIfNeeded piStart nbSamples 1 = .ok a := by
    simp [Analysis.closeIfNeeded, positive]
  obtain ⟨grown, taken⟩ := Prod.ext_iff.mp
    (extendPeriod_positive (a.pi a.piEnd).maxPeak (a.pi a.piEnd).size (count + 1))
  dsimp only at grown taken
  rw [List.replicate_succ] at grown taken ⊢
  simp only [analyzeLoop, Analysis.step, kept, positive, grown, taken]
  refine ⟨fun past => by rw [if_pos past], fun fits => ?_⟩
  rw [if_neg (by omega)]
  simp only [analyzeLoop]
  exact ⟨_, rfl, rfl, rfl, by simp⟩

theorem analyzeChannel_positive (cc : ChannelContext) (positive : cc.state = 1 ∨ cc.state = -2)
    (count : Nat) :
    (intMax < (cc.pi cc.piEnd).size + (count + 1) →
        analyzeChannel cc (List.replicate (count + 1) 1) = .error .overflow) ∧
      ((cc.pi cc.piEnd).size + (count + 1) ≤ intMax → ∃ cc',
        analyzeChannel cc (List.replicate (count + 1) 1) = .ok cc' ∧
          cc'.state = 1 ∧ cc'.piEnd = cc.piEnd ∧ (cc'.pi cc'.piEnd).size = (cc.pi cc.piEnd).size + (count + 1)) := by
  have state : (if cc.state = -2 then diffSign ((List.replicate (count + 1) 1).headD 0) minPeak
      else cc.state) = 1 := by
    rcases positive with positive | fresh
    · simp [positive]
    · simp [fresh, List.replicate_succ]
  obtain ⟨overflows, fits⟩ := analyzeLoop_positive cc.piStart (count + 1) count
    ⟨1, cc.piEnd, cc.pi, cc.acc⟩ rfl
  unfold analyzeChannel
  rw [List.length_replicate]
  dsimp only
  rw [state]
  refine ⟨fun past => by rw [overflows past]; rfl, fun small => ?_⟩
  obtain ⟨a', ran, positive', atEnd, size⟩ := fits small
  exact ⟨_, by rw [ran]; rfl, positive', atEnd, size⟩

end Librempeg.Avfilter.Speechnorm
