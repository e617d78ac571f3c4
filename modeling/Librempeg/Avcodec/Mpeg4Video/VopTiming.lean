import Librempeg.Avcodec.Mpeg4Video.Headers

/-!
Contract: the time counters of libavcodec/mpeg4videodec.c: the timing block of
`decode_vop_header` (`time_base`, `last_time_base`, `time`, `last_non_b_time`, `pp_time`
for a non-B VOP; `time`, `pb_time`, `t_frame` and the field times for a B-VOP, with the
`FRAME_SKIPPED` exits), the reset of `t_frame` in `decode_vol_header`, and
`mpeg4_decode_gop_header`; and the runs of these headers from `decode_init`.

The header gives the timing block two numbers: `time_incr`, the count of
`modulo_time_base` 1-bits, and `time_increment`, the next `time_increment_bits` bits.
The fields' types are those of libavcodec/mpegvideo.h and mpeg4videodec.h (not in this
tree): `int` for `time_base`, `last_time_base` and `t_frame`, `int64_t` for `time` and
`last_non_b_time`, `uint16_t` for `pp_time`, `pb_time`, `pp_field_time` and
`pb_field_time`. A signed operation is checked (`intOp`, `int64Op`: `none` is undefined
behaviour); a store into a `uint16_t` wraps (`toUInt16`).

Owns: the timing state and its events, the run and the reachable states, that `t_frame`
is never negative, what a B-VOP that passes its checks guarantees and what no B-VOP
changes, and the overflow of `time_base` over a run.

Does not own: the rest of the VOP header (`Mpeg4Video.Headers`).
-/

namespace Librempeg.Avcodec.Mpeg4Video

open Librempeg.Avcodec Librempeg.Avutil

/-- A store into a `uint16_t`: reduction modulo `2^16`. -/
def toUInt16 (value : Int) : Nat := (value % 2 ^ 16).toNat

/-- The timing fields of the decoder context. -/
structure TimingState where
  timeBase : Int
  lastTimeBase : Int
  time : Int
  lastNonBTime : Int
  ppTime : Nat
  pbTime : Nat
  ppFieldTime : Nat
  pbFieldTime : Nat
  tFrame : Int
  deriving DecidableEq, Repr

/-- `decode_init`: the zeroed context. -/
def TimingState.initial : TimingState := ⟨0, 0, 0, 0, 0, 0, 0, 0, 0⟩

/-- What the timing block reads from the rest of the context: `framerate.num`,
`workaround_bugs & FF_BUG_UMP4` and `progressive_sequence`. -/
structure VopTimingEnv where
  framerateNum : Int
  ump4 : Bool
  progressiveSequence : Bool

/-- `ROUNDED_DIV(a, b)` on `int64_t`, with its addition checked. -/
def roundedDiv64 (a b : Int) : Option Int :=
  if a ≥ 0 then (fun sum : Int => sum.tdiv b) <$> int64Op (a + (b >>> (1 : Nat)))
  else (fun sum : Int => sum.tdiv b) <$> int64Op (a - (b >>> (1 : Nat)))

/-- The non-B branch: `last_time_base = time_base; time_base += time_incr;
time = time_base * framerate.num + time_increment`, the UMP4 workaround, then
`pp_time = time - last_non_b_time; last_non_b_time = time`. -/
def nonBTiming (env : VopTimingEnv) (timeIncr timeIncrement : Int) (st : TimingState) :
    Option TimingState := do
  let timeBase ← intOp (st.timeBase + timeIncr)
  let scaled ← int64Op (timeBase * env.framerateNum)
  let time ← int64Op (scaled + timeIncrement)
  let (timeBase, time) ←
    if env.ump4 ∧ time < st.lastNonBTime then do
      let timeBase ← intOp (timeBase + 1)
      let time ← int64Op (time + env.framerateNum)
      pure (timeBase, time)
    else pure (timeBase, time)
  let ppTime ← int64Op (time - st.lastNonBTime)
  pure { st with
    lastTimeBase := st.timeBase
    timeBase := timeBase
    time := time
    ppTime := toUInt16 ppTime
    lastNonBTime := time }

/-- `if (ctx->t_frame == 0) ctx->t_frame = s->pb_time; if (ctx->t_frame == 0)
ctx->t_frame = 1;`. -/
def chooseTFrame (tFrame : Int) (pbTime : Nat) : Int :=
  let tFrame := if tFrame = 0 then (pbTime : Int) else tFrame
  if tFrame = 0 then 1 else tFrame

/-- The field times of a B-VOP that passed the order test: `t_frame`, and
`pp_field_time`, `pb_field_time` as rounded quotients by it; `(2, 4)` when they are out
of order, and `FRAME_SKIPPED` for an interlaced sequence. -/
def bFieldTiming (env : VopTimingEnv) (st : TimingState) : Option (TimingState × Bool) := do
  let tFrame := chooseTFrame st.tFrame st.pbTime
  let back ← int64Op (st.lastNonBTime - st.ppTime)
  let anchor ← roundedDiv64 st.lastNonBTime tFrame
  let start ← roundedDiv64 back tFrame
  let here ← roundedDiv64 st.time tFrame
  let ppSpan ← int64Op (anchor - start)
  let ppField ← int64Op (ppSpan * 2)
  let pbSpan ← int64Op (here - start)
  let pbField ← int64Op (pbSpan * 2)
  let st := { st with
    tFrame := tFrame
    ppFieldTime := toUInt16 ppField
    pbFieldTime := toUInt16 pbField }
  if st.ppFieldTime ≤ st.pbFieldTime ∨ st.pbFieldTime ≤ 1 then
    pure ({ st with pbFieldTime := 2, ppFieldTime := 4 }, !env.progressiveSequence)
  else pure (st, false)

/-- The B branch: `time = (last_time_base + time_incr) * framerate.num + time_increment`,
`pb_time = pp_time - (last_non_b_time - time)`, `FRAME_SKIPPED` on a messed-up order,
then the field times. The result says whether the header returns `FRAME_SKIPPED`. -/
def bTiming (env : VopTimingEnv) (timeIncr timeIncrement : Int) (st : TimingState) :
    Option (TimingState × Bool) := do
  let base ← intOp (st.lastTimeBase + timeIncr)
  let scaled ← int64Op (base * env.framerateNum)
  let time ← int64Op (scaled + timeIncrement)
  let gap ← int64Op (st.lastNonBTime - time)
  let pbTime ← int64Op (st.ppTime - gap)
  let st := { st with time := time, pbTime := toUInt16 pbTime }
  if (st.ppTime : Int) ≤ st.pbTime ∨ (st.ppTime : Int) ≤ st.ppTime - st.pbTime ∨ st.ppTime ≤ 0 then
    pure (st, true)
  else bFieldTiming env st

/-- The timing block of `decode_vop_header` for a VOP of type `pictType` (`B` is 3). -/
def vopTiming (env : VopTimingEnv) (pictType : Nat) (timeIncr timeIncrement : Int)
    (st : TimingState) : Option (TimingState × Bool) :=
  if pictType ≠ 3 then (fun st => (st, false)) <$> nonBTiming env timeIncr timeIncrement st
  else bTiming env timeIncr timeIncrement st

/-- `mpeg4_decode_gop_header(s, gb)`: refused when the next 23 bits are 0, else
`time_base = seconds + 60 * (minutes + 60 * hours)` from 5, 6 and 6 bits. -/
def mpeg4DecodeGopHeader (st : TimingState) (gb : GetBitContext) :
    TimingState × Int × GetBitContext :=
  if gb.showBits 23 = 0 then (st, averrorInvalidData, gb)
  else
    let hours := gb.getBits 5
    let minutes := hours.2.getBits 6
    let seconds := (checkMarker minutes.2).getBits 6
    ({ st with timeBase := seconds.1 + 60 * (minutes.1 + 60 * hours.1) }, 0,
      (seconds.2.skipBits 1).skipBits 1)

/-- The headers that touch the time counters: a VOL header (`t_frame = 0`), a GOP
header, and a VOP header with its type, `time_incr` and `time_increment`. -/
inductive TimingEvent
  | vol
  | gop (gb : GetBitContext)
  | vop (env : VopTimingEnv) (pictType timeIncr timeIncrement : Nat)

/-- One header; `none` is undefined behaviour. -/
def timingStep (st : TimingState) : TimingEvent → Option TimingState
  | .vol => some { st with tFrame := 0 }
  | .gop gb => some (mpeg4DecodeGopHeader st gb).1
  | .vop env pictType timeIncr timeIncrement =>
      (fun result => result.1) <$> vopTiming env pictType timeIncr timeIncrement st

/-- A sequence of headers. -/
def timingRun (st : TimingState) : List TimingEvent → Option TimingState
  | [] => some st
  | event :: events => (timingStep st event).bind fun st => timingRun st events

/-- The timing states a decoder reaches from `decode_init`. -/
inductive TimingReachable : TimingState → Prop
  | initial : TimingReachable TimingState.initial
  | step {st st' : TimingState} (event : TimingEvent) :
      TimingReachable st → timingStep st event = some st' → TimingReachable st'

/-! ### What one header can do -/

section OneHeader

variable {env : VopTimingEnv} {st st' : TimingState} {skipped : Bool}

/-- The fields no B-VOP header writes. -/
structure KeepsAnchors (st st' : TimingState) : Prop where
  timeBase : st'.timeBase = st.timeBase
  lastTimeBase : st'.lastTimeBase = st.lastTimeBase
  lastNonBTime : st'.lastNonBTime = st.lastNonBTime
  ppTime : st'.ppTime = st.ppTime

theorem bFieldTiming_spec (timed : bFieldTiming env st = some (st', skipped)) :
    KeepsAnchors st st' ∧ st'.pbTime = st.pbTime ∧ (0 ≤ st.tFrame → 1 ≤ st'.tFrame) ∧
      (skipped = false → 2 ≤ st'.pbFieldTime ∧ st'.pbFieldTime < st'.ppFieldTime) := by
  simp only [bFieldTiming, bind, Option.bind_eq_some, pure] at timed
  obtain ⟨_, -, _, -, _, -, _, -, _, -, _, -, _, -, _, -, timed⟩ := timed
  have framed : 0 ≤ st.tFrame → 1 ≤ chooseTFrame st.tFrame st.pbTime := by
    intro nonNegative
    dsimp only [chooseTFrame]
    split_ifs <;> omega
  split_ifs at timed with outOfOrder
  · cases timed
    exact ⟨⟨rfl, rfl, rfl, rfl⟩, rfl, framed, fun _ => ⟨le_rfl, show 2 < 4 by decide⟩⟩
  · cases timed
    exact ⟨⟨rfl, rfl, rfl, rfl⟩, rfl, framed, fun _ => by dsimp only at outOfOrder ⊢; omega⟩

/-- **A B-VOP header keeps the anchors, and one that is not skipped is ordered.** -/
theorem bTiming_spec (timed : bTiming env timeIncr timeIncrement st = some (st', skipped)) :
    KeepsAnchors st st' ∧ (0 ≤ st.tFrame → 0 ≤ st'.tFrame) ∧
      (skipped = false → 0 < st'.pbTime ∧ st'.pbTime < st'.ppTime ∧ (0 ≤ st.tFrame → 1 ≤ st'.tFrame) ∧
        2 ≤ st'.pbFieldTime ∧ st'.pbFieldTime < st'.ppFieldTime) := by
  simp only [bTiming, bind, Option.bind_eq_some, pure] at timed
  obtain ⟨_, -, _, -, _, -, _, -, _, -, timed⟩ := timed
  split_ifs at timed with misordered
  · cases timed
    exact ⟨⟨rfl, rfl, rfl, rfl⟩, id, fun never => absurd never (by decide)⟩
  · obtain ⟨anchors, pbTime, framed, fields⟩ := bFieldTiming_spec timed
    refine ⟨⟨anchors.timeBase, anchors.lastTimeBase, anchors.lastNonBTime, anchors.ppTime⟩,
      fun nonNegative => ?_,
      fun proceeds => ⟨?_, ?_, framed, fields proceeds⟩⟩
    · have := framed nonNegative; omega
    · rw [pbTime]; dsimp only at misordered ⊢; omega
    · rw [pbTime, anchors.ppTime]; dsimp only at misordered ⊢; omega

theorem nonBTiming_tFrame (timed : nonBTiming env timeIncr timeIncrement st = some st') :
    st'.tFrame = st.tFrame := by
  simp only [nonBTiming, bind, Option.bind_eq_some, pure] at timed
  obtain ⟨_, -, _, -, _, -, timed⟩ := timed
  split_ifs at timed
  · simp only [Option.bind_eq_some, Option.some_bind, Option.some.injEq] at timed
    obtain ⟨_, -, _, -, _, -, rfl⟩ := timed
    rfl
  · simp only [Option.bind_eq_some, Option.some_bind, Option.some.injEq] at timed
    obtain ⟨_, -, rfl⟩ := timed
    rfl

end OneHeader

/-! ### Runs -/

theorem timingStep_tFrame {st st' : TimingState} (nonNegative : 0 ≤ st.tFrame) (event : TimingEvent)
    (stepped : timingStep st event = some st') : 0 ≤ st'.tFrame := by
  cases event with
  | vol => cases stepped; exact le_rfl
  | gop gb =>
    cases stepped
    unfold mpeg4DecodeGopHeader
    split <;> exact nonNegative
  | vop env pictType timeIncr timeIncrement =>
    simp only [timingStep, vopTiming, Option.map_eq_map, Option.map_eq_some'] at stepped
    obtain ⟨⟨st'', skipped⟩, timed, rfl⟩ := stepped
    split at timed
    · simp only [Option.map_eq_map, Option.map_eq_some', Prod.mk.injEq] at timed
      obtain ⟨_, timed, rfl, -⟩ := timed
      rw [nonBTiming_tFrame timed]; exact nonNegative
    · exact (bTiming_spec timed).2.1 nonNegative

theorem TimingReachable.tFrame_nonneg {st : TimingState} (reachable : TimingReachable st) :
    0 ≤ st.tFrame := by
  induction reachable with
  | initial => exact le_rfl
  | step event _ stepped nonNegative => exact timingStep_tFrame nonNegative event stepped

/-- **B-VOPs are timed against fixed anchors.** From any state a decoder reaches through
VOL, GOP and VOP headers, a B-VOP header, skipped or not, leaves `time_base`,
`last_time_base`, `last_non_b_time` and `pp_time` as they were; and when it gets past its
timing block, `0 < pb_time < pp_time`, `t_frame ≥ 1`, and `2 ≤ pb_field_time <
pp_field_time`. -/
theorem bVop_timing_anchored {st : TimingState} (reachable : TimingReachable st)
    (env : VopTimingEnv) (timeIncr timeIncrement : Int) {st' : TimingState} {skipped : Bool}
    (timed : vopTiming env 3 timeIncr timeIncrement st = some (st', skipped)) :
    (st'.timeBase = st.timeBase ∧ st'.lastTimeBase = st.lastTimeBase ∧
        st'.lastNonBTime = st.lastNonBTime ∧ st'.ppTime = st.ppTime) ∧
      (skipped = false → 0 < st'.pbTime ∧ st'.pbTime < st'.ppTime ∧ 1 ≤ st'.tFrame ∧
        2 ≤ st'.pbFieldTime ∧ st'.pbFieldTime < st'.ppFieldTime) := by
  rw [vopTiming, if_neg (by decide)] at timed
  obtain ⟨anchors, -, ordered⟩ := bTiming_spec timed
  refine ⟨⟨anchors.1, anchors.2, anchors.3, anchors.4⟩, fun proceeds => ?_⟩
  obtain ⟨pbPos, pbLt, framed, fields⟩ := ordered proceeds
  exact ⟨pbPos, pbLt, framed reachable.tFrame_nonneg, fields⟩

/-- A P-VOP one second after `decode_init`'s time 0, at 25 frames per second:
`time_base` 1, `time`, `last_non_b_time` and `pp_time` 25. -/
def oneSecondIn : TimingState := ⟨1, 0, 25, 25, 25, 0, 0, 0, 0⟩

theorem oneSecondIn_reachable : TimingReachable oneSecondIn :=
  .step (.vop ⟨25, false, true⟩ 2 1 0) .initial (by decide)

/-- The B-VOP 10 ticks after time 0 that follows `oneSecondIn`: `pb_time` 10, `t_frame` 10,
field times 2 and 6. -/
def bVopTenTicksIn : TimingState := ⟨1, 0, 10, 25, 25, 10, 6, 2, 10⟩

theorem bVop_timing_anchored_between :
    TimingReachable oneSecondIn ∧
      vopTiming ⟨25, false, true⟩ 3 0 10 oneSecondIn = some (bVopTenTicksIn, false) ∧
      (bVopTenTicksIn.timeBase = oneSecondIn.timeBase ∧
          bVopTenTicksIn.lastTimeBase = oneSecondIn.lastTimeBase ∧
          bVopTenTicksIn.lastNonBTime = oneSecondIn.lastNonBTime ∧
          bVopTenTicksIn.ppTime = oneSecondIn.ppTime) ∧
        (false = false → 0 < bVopTenTicksIn.pbTime ∧ bVopTenTicksIn.pbTime < bVopTenTicksIn.ppTime ∧
          1 ≤ bVopTenTicksIn.tFrame ∧ 2 ≤ bVopTenTicksIn.pbFieldTime ∧
          bVopTenTicksIn.pbFieldTime < bVopTenTicksIn.ppFieldTime) :=
  ⟨oneSecondIn_reachable, by decide,
    bVop_timing_anchored oneSecondIn_reachable ⟨25, false, true⟩ 0 10 (by decide)⟩

/-! ### Overflow of `time_base` -/

/-- A P-VOP header `time_incr` seconds after the previous one, at 25 frames per second,
on the second boundary. -/
def pVop (timeIncr : Nat) : TimingEvent := .vop ⟨25, false, true⟩ 2 timeIncr 0

/-- The state a run of such P-VOPs keeps: `time_base` in `[0, INT_MAX]` and
`last_non_b_time = 25 * time_base`. -/
structure SteadyPVops (st : TimingState) : Prop where
  base_nonneg : 0 ≤ st.timeBase
  base_le : st.timeBase ≤ intMax
  anchored : st.lastNonBTime = 25 * st.timeBase

theorem steadyPVops_initial : SteadyPVops TimingState.initial := ⟨le_rfl, by decide, rfl⟩

theorem timingStep_pVop_fits {st : TimingState} (steady : SteadyPVops st) (timeIncr : Nat)
    (fits : st.timeBase + timeIncr ≤ intMax) :
    ∃ st', timingStep st (pVop timeIncr) = some st' ∧ st'.timeBase = st.timeBase + timeIncr ∧
      SteadyPVops st' := by
  have nonNegative := steady.base_nonneg
  have anchored := steady.anchored
  unfold intMax at fits
  have base : InIntRange (st.timeBase + timeIncr) := inRange_of_bounds (by omega) (by omega)
  have scaled : InInt64Range ((st.timeBase + timeIncr) * 25) := ⟨by omega, by omega⟩
  have gap : InInt64Range ((st.timeBase + timeIncr) * 25 - st.lastNonBTime) := ⟨by omega, by omega⟩
  refine ⟨{ st with
    lastTimeBase := st.timeBase
    timeBase := st.timeBase + timeIncr
    time := (st.timeBase + timeIncr) * 25
    ppTime := toUInt16 ((st.timeBase + timeIncr) * 25 - st.lastNonBTime)
    lastNonBTime := (st.timeBase + timeIncr) * 25 }, ?_, rfl, ?_⟩
  simp [timingStep, pVop, vopTiming, nonBTiming, intOp_of_inRange base, int64Op_of_inRange scaled,
    int64Op_of_inRange gap]
  · exact ⟨by dsimp only; omega, by dsimp only; unfold intMax; omega, by dsimp only; omega⟩

theorem timingStep_pVop_overflows {st : TimingState} (timeIncr : Nat)
    (exceeds : intMax < st.timeBase + timeIncr) : timingStep st (pVop timeIncr) = none := by
  have outside : ¬InIntRange (st.timeBase + timeIncr) := fun inRange => by
    have := inRange.2; omega
  simp [timingStep, pVop, vopTiming, nonBTiming, intOp, outside]

/-- **`time_base` overflows over a run of P-VOPs.** Whatever the increments, once their
sum passes `INT_MAX` the signed addition `time_base += time_incr` overflows: the run
reaches undefined behaviour. -/
theorem timingRun_pVops_overflow (count timeIncr : Nat) (exceeds : intMax < count * timeIncr) :
    timingRun TimingState.initial (List.replicate count (pVop timeIncr)) = none := by
  suffices along : ∀ (count : Nat) (st : TimingState), SteadyPVops st →
      intMax < st.timeBase + count * timeIncr →
      timingRun st (List.replicate count (pVop timeIncr)) = none from
    along count _ steadyPVops_initial (by simpa [TimingState.initial] using exceeds)
  intro count
  induction count with
  | zero => intro st steady exceeds; have := steady.base_le; simp at exceeds; omega
  | succ count ih =>
    intro st steady exceeds
    rw [List.replicate_succ, timingRun]
    by_cases fits : st.timeBase + timeIncr ≤ intMax
    · obtain ⟨st', stepped, added, steady'⟩ := timingStep_pVop_fits steady timeIncr fits
      rw [stepped, Option.some_bind]
      exact ih st' steady' (by rw [added]; push_cast at exceeds ⊢; linarith)
    · rw [timingStep_pVop_overflows timeIncr (by omega), Option.none_bind]

theorem timingRun_pVops_overflow_twoHeaders :
    intMax < 2 * 2 ^ 30 ∧ timingRun TimingState.initial (List.replicate 2 (pVop (2 ^ 30))) = none :=
  ⟨by decide, timingRun_pVops_overflow 2 (2 ^ 30) (by decide)⟩

end Librempeg.Avcodec.Mpeg4Video
