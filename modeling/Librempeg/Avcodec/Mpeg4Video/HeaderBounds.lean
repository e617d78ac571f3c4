import Librempeg.Avcodec.Mpeg4Video.Headers

/-!
Contract: the bounds the header fields of libavcodec/mpeg4videodec.c keep over every
run: `time_increment_bits` in `[1, 16]`, `num_sprite_warping_points` at most 3,
`quant_precision` in `[3, 9]` and `sprite_warping_accuracy` at most 3, from
`decode_init` through any headers and any thread copies; so every width the parsers
derive from them is one the bit reader accepts. And what a VOP header that returns 0
leaves: `qscale`, `f_code` and `b_code`, whose bounds hold only when the VOP has a
texture, since a `BIN_ONLY_SHAPE` VOP reads no quantiser.

Owns: `HeaderState.Bounded`, one preservation lemma per parser, the bounds of every
reachable context, and the quantiser of a VOP header that returns 0.

Does not own: the parsers (`Mpeg4Video.Headers`).
-/

namespace Librempeg.Avcodec.Mpeg4Video

open Librempeg.Avcodec Librempeg.Avutil

/-- The bounds of the header fields the parsers read as widths. -/
structure HeaderState.Bounded (st : HeaderState) : Prop where
  timeIncrementBits_pos : 1 ≤ st.timeIncrementBits
  timeIncrementBits_le : st.timeIncrementBits ≤ 16
  numSpriteWarpingPoints_le : st.numSpriteWarpingPoints ≤ 3
  quantPrecision_ge : 3 ≤ st.quantPrecision
  quantPrecision_le : st.quantPrecision ≤ 9
  spriteWarpingAccuracy_le : st.spriteWarpingAccuracy ≤ 3

namespace HeaderState.Bounded

variable {c : HeaderConstants} {st : HeaderState}

theorem decodeInit : Mpeg4Video.decodeInit.Bounded := ⟨by decide, by decide, by decide, by decide, by decide, by decide⟩

theorem of_agree (inv : st.Bounded) {st' : HeaderState}
    (timeIncrementBits : st'.timeIncrementBits = st.timeIncrementBits)
    (points : st'.numSpriteWarpingPoints = st.numSpriteWarpingPoints)
    (precision : st'.quantPrecision = st.quantPrecision)
    (accuracy : st'.spriteWarpingAccuracy = st.spriteWarpingAccuracy) : st'.Bounded :=
  ⟨timeIncrementBits ▸ inv.1, timeIncrementBits ▸ inv.2, points ▸ inv.3, precision ▸ inv.4,
    precision ▸ inv.5, accuracy ▸ inv.6⟩

theorem volQuantPrecision (inv : st.Bounded) (env : VolEnv) (gb : GetBitContext) :
    (Mpeg4Video.volQuantPrecision env st gb).1.Bounded := by
  dsimp only [Mpeg4Video.volQuantPrecision]
  split
  · exact ⟨inv.1, inv.2, inv.3, by dsimp only; split <;> omega, by dsimp only; split <;> omega, inv.6⟩
  · exact ⟨inv.1, inv.2, inv.3, show 3 ≤ 5 by decide, show 5 ≤ 9 by decide, inv.6⟩

theorem volSprite (inv : st.Bounded) (env : VolEnv) (usage : Nat) (gb : GetBitContext) :
    (Mpeg4Video.volSprite c env usage st gb).1.Bounded := by
  dsimp only [Mpeg4Video.volSprite]
  split_ifs with sprite static many many
  · exact ⟨inv.1, inv.2, Nat.zero_le _, inv.4, inv.5, inv.6⟩
  · refine volQuantPrecision ?_ env _
    exact ⟨inv.1, inv.2, by dsimp only; omega, inv.4, inv.5,
      Nat.le_of_lt_succ (GetBitContext.getBits_fst_lt _ 2)⟩
  · exact ⟨inv.1, inv.2, Nat.zero_le _, inv.4, inv.5, inv.6⟩
  · refine volQuantPrecision ?_ env _
    exact ⟨inv.1, inv.2, by dsimp only; omega, inv.4, inv.5,
      Nat.le_of_lt_succ (GetBitContext.getBits_fst_lt _ 2)⟩
  · exact volQuantPrecision inv env gb

theorem volShape (inv : st.Bounded) (env : VolEnv) (voVerId shape : Nat) (gb : GetBitContext) :
    (Mpeg4Video.volShape c env voVerId shape st gb).1.Bounded := by
  refine volSprite ?_ env _ _
  exact inv.of_agree rfl rfl rfl rfl

theorem volTiming (inv : st.Bounded) (env : VolEnv) (voVerId shape framerateNum : Nat)
    (gb : GetBitContext) (below : framerateNum < 2 ^ 16) :
    (Mpeg4Video.volTiming c env voVerId shape st framerateNum gb).1.Bounded := by
  have tight := avLog2Go_le 32 (framerateNum - 1) 15 (by omega)
  have timed : Bounded { st with timeIncrementBits := max 1 (avLog2 (framerateNum - 1) + 1) } :=
    ⟨le_max_left _ _, max_le (by decide) (by unfold avLog2; omega), inv.3, inv.4, inv.5, inv.6⟩
  unfold Mpeg4Video.volTiming
  split
  · exact inv
  · dsimp only
    split
    · exact timed
    · exact volShape timed env voVerId shape _

theorem decodeVolHeader (inv : st.Bounded) (env : VolEnv) (gb : GetBitContext) :
    (Mpeg4Video.decodeVolHeader c env st gb).1.Bounded := by
  unfold Mpeg4Video.decodeVolHeader
  dsimp only
  split
  · split
    · refine inv.of_agree ?_ ?_ ?_ ?_ <;> rfl
    · exact inv
  split
  · exact inv
  · refine volTiming ?_ env _ _ _ _ (GetBitContext.getBits_fst_lt _ 16)
    exact inv.of_agree rfl rfl rfl rfl

theorem recoverTimeIncrementBits_mem (gmcLike : Bool) (gb : GetBitContext) (fuel : Nat) :
    ∀ bits, bits ≤ recoverTimeIncrementBits gmcLike gb fuel bits ∧
      recoverTimeIncrementBits gmcLike gb fuel bits ≤ bits + fuel := by
  induction fuel with
  | zero => intro bits; simp [recoverTimeIncrementBits]
  | succ fuel ih =>
    intro bits
    unfold recoverTimeIncrementBits
    split
    · omega
    · have := ih (bits + 1); omega

theorem recovered (inv : st.Bounded) (test : Prop) [Decidable test] (gmcLike : Bool)
    (gb : GetBitContext) :
    Bounded { st with timeIncrementBits :=
      if test then recoverTimeIncrementBits gmcLike gb 15 1 else st.timeIncrementBits } := by
  have scanned := recoverTimeIncrementBits_mem gmcLike gb 15 1
  have kept := inv.1
  have kept' := inv.2
  refine ⟨?_, ?_, inv.3, inv.4, inv.5, inv.6⟩ <;> dsimp only <;> split <;> omega

theorem vopQuantiser (inv : st.Bounded) (pictType : Nat) (gb : GetBitContext) :
    (Mpeg4Video.vopQuantiser c pictType st gb).1.Bounded := by
  dsimp only [Mpeg4Video.vopQuantiser]
  split_ifs <;> exact ⟨inv.1, inv.2, inv.3, inv.4, inv.5, inv.6⟩

theorem vopSprite (inv : st.Bounded) (env : VopEnv) (parseOnly : Bool) (pictType : Nat)
    (gb : GetBitContext) : (Mpeg4Video.vopSprite c env parseOnly pictType st gb).1.Bounded := by
  dsimp only [Mpeg4Video.vopSprite]
  split_ifs <;> first | exact inv | exact vopQuantiser inv pictType _

theorem vopCoded (inv : st.Bounded) (env : VopEnv) (parseOnly : Bool) (pictType : Nat)
    (gb : GetBitContext) : (Mpeg4Video.vopCoded c env parseOnly pictType st gb).1.Bounded := by
  dsimp only [Mpeg4Video.vopCoded, vopTexture]
  split_ifs <;> first | exact inv | exact vopSprite inv env parseOnly pictType _

theorem decodeVopHeader (inv : st.Bounded) (env : VopEnv) (parseOnly : Bool) (gb : GetBitContext) :
    (Mpeg4Video.decodeVopHeader c env parseOnly st gb).1.Bounded := by
  unfold Mpeg4Video.decodeVopHeader vopTimeIncrement
  dsimp only
  split
  · exact recovered inv _ _ _
  · exact vopCoded (recovered inv _ _ _) env parseOnly _ _

theorem parseUnits (inv : st.Bounded) (env : VolEnv) (vol : Bool) (units : List HeaderUnit) :
    (Mpeg4Video.parseUnits c env vol st units).1.Bounded := by
  induction units generalizing vol st with
  | nil => exact inv
  | cons unit units ih =>
    cases unit with
    | vol gb =>
      simp only [Mpeg4Video.parseUnits]
      split
      · exact ih inv vol
      · split
        · exact decodeVolHeader inv env gb
        · exact ih (decodeVolHeader inv env gb) true
    | vos studio =>
      simp only [Mpeg4Video.parseUnits]
      split
      · refine ih ?_ vol
        exact inv.of_agree rfl rfl rfl rfl
      · split
        · exact inv
        · exact ih inv vol
    | visualObject studioResult =>
      simp only [Mpeg4Video.parseUnits]
      split
      · exact inv
      · exact ih inv vol
    | other => exact ih inv vol

theorem parsePictureHeader (inv : st.Bounded) (volEnv : VolEnv) (vopEnv : VopEnv) (studioVop : Int)
    (parseOnly : Bool) (units : List HeaderUnit) (ending : HeaderEnd) :
    (Mpeg4Video.parsePictureHeader c volEnv vopEnv studioVop parseOnly st units ending).1.Bounded := by
  have parsed : (Mpeg4Video.parseUnits c volEnv false st units).1.Bounded :=
    parseUnits inv volEnv false units
  unfold Mpeg4Video.parsePictureHeader
  split
  next st' result returned => rw [returned] at parsed; exact parsed
  next st' continued =>
    rw [continued] at parsed
    cases ending with
    | exhausted result => exact parsed
    | vop gb =>
      dsimp only
      split
      · exact parsed
      · exact decodeVopHeader parsed vopEnv parseOnly gb

theorem updateThreadContext {dst src : HeaderState} (dstInv : dst.Bounded) (srcInv : src.Bounded)
    (mpvFields : Nat × Bool) : (Mpeg4Video.updateThreadContext dst src mpvFields).Bounded :=
  ⟨srcInv.1, srcInv.2, srcInv.3, dstInv.4, dstInv.5, srcInv.6⟩

end HeaderState.Bounded

/-- **Every reachable context is bounded.** -/
theorem HeaderReachable.bounded {c : HeaderConstants} {st : HeaderState}
    (reachable : HeaderReachable c st) : st.Bounded := by
  induction reachable with
  | init => exact HeaderState.Bounded.decodeInit
  | parse volEnv vopEnv studioVop parseOnly units ending _ inv =>
    exact inv.parsePictureHeader volEnv vopEnv studioVop parseOnly units ending
  | copy mpvFields _ _ dstInv srcInv => exact dstInv.updateThreadContext srcInv mpvFields

/-! ### The quantiser of a VOP header that returns 0 -/

/-- A quantiser and motion-vector ranges the decoder accepts: `qscale` at least 1,
`f_code` and `b_code` in `[1, 7]`. -/
def HeaderState.Quantised (st : HeaderState) : Prop :=
  1 ≤ st.qscale ∧ 1 ≤ st.fCode ∧ st.fCode ≤ 7 ∧ 1 ≤ st.bCode ∧ st.bCode ≤ 7

/-- What a VOP header that returns 0 leaves of the quantiser in `st'`, from the context
`st` it started from: a usable one for a VOP with a texture; for a `BIN_ONLY_SHAPE` VOP,
which reads none, `f_code` and `b_code` reset to 1 and `qscale` as it was. -/
def HeaderState.QuantiserAfter (st' : HeaderState) (c : HeaderConstants) (st : HeaderState) : Prop :=
  if st.shape = c.binOnlyShape then st'.fCode = 1 ∧ st'.bCode = 1 ∧ st'.qscale = st.qscale
  else st'.Quantised

section Quantiser

variable {c : HeaderConstants} {env : VopEnv} {pictType : Nat} {st st' : HeaderState}
  {gb : GetBitContext}

theorem result_ne_zero {code : Int} (nonzero : code ≠ 0) : (st, code) ≠ (st', 0) :=
  fun same => nonzero (congrArg Prod.snd same)

theorem averrorInvalidData_ne_zero : averrorInvalidData ≠ 0 := by decide

theorem vopCode_le (present : Bool) : (vopCode present gb).1 ≤ 7 := by
  unfold vopCode
  split
  · exact Nat.le_of_lt_succ (GetBitContext.getBits_fst_lt _ 3)
  · exact show 1 ≤ 7 by decide

theorem vopQuantiser_after (decoded : vopQuantiser c pictType st gb = (st', 0)) :
    st'.QuantiserAfter c st := by
  unfold HeaderState.QuantiserAfter
  dsimp only [vopQuantiser] at decoded
  split_ifs at decoded with binOnly qscaleZero fCodeZero bCodeZero
  · obtain ⟨rfl, -⟩ := Prod.mk.inj decoded
    rw [if_pos binOnly]
    exact ⟨rfl, rfl, rfl⟩
  · exact absurd decoded (result_ne_zero averrorInvalidData_ne_zero)
  · exact absurd decoded (result_ne_zero averrorInvalidData_ne_zero)
  · exact absurd decoded (result_ne_zero averrorInvalidData_ne_zero)
  · obtain ⟨rfl, -⟩ := Prod.mk.inj decoded
    rw [if_neg binOnly]
    exact ⟨Nat.one_le_iff_ne_zero.mpr qscaleZero, Nat.one_le_iff_ne_zero.mpr fCodeZero,
      vopCode_le _, Nat.one_le_iff_ne_zero.mpr bCodeZero, vopCode_le _⟩

theorem vopSprite_after (decoded : vopSprite c env false pictType st gb = (st', 0)) :
    st'.QuantiserAfter c st := by
  simp only [vopSprite, Bool.false_eq_true, ↓reduceIte] at decoded
  split_ifs at decoded
  · exact absurd decoded (result_ne_zero averrorInvalidData_ne_zero)
  all_goals exact vopQuantiser_after decoded

theorem vopTexture_after (decoded : vopTexture c env false pictType st gb = (st', 0)) :
    st'.QuantiserAfter c st := by
  dsimp only [vopTexture] at decoded
  split_ifs at decoded <;>
    first | exact vopSprite_after decoded | exact absurd decoded (result_ne_zero averrorInvalidData_ne_zero)

theorem vopCoded_after (skipped : c.frameSkipped ≠ 0)
    (decoded : vopCoded c env false pictType st gb = (st', 0)) : st'.QuantiserAfter c st := by
  dsimp only [vopCoded] at decoded
  split at decoded
  · exact absurd decoded (result_ne_zero skipped)
  · exact vopTexture_after decoded

/-- **A VOP header that returns 0 leaves the quantiser its shape calls for.** Every other
way out of `decode_vop_header` returns `FRAME_SKIPPED` or an error: an uncoded VOP
(`vop_coded` 0) or a skipped B-VOP never returns 0. -/
theorem decodeVopHeader_after (skipped : c.frameSkipped ≠ 0)
    (decoded : decodeVopHeader c env false st gb = (st', 0)) : st'.QuantiserAfter c st := by
  dsimp only [decodeVopHeader, vopTimeIncrement] at decoded
  by_cases timingSkipped : (gb.getBits 2).1 + 1 = 3 ∧ env.timingSkips = true
  · rw [if_pos timingSkipped] at decoded
    exact absurd decoded (result_ne_zero skipped)
  · rw [if_neg timingSkipped] at decoded
    simpa only [HeaderState.QuantiserAfter] using vopCoded_after skipped decoded

end Quantiser

/-! ### The persistent header state -/

theorem HeaderState.Bounded.widths {st : HeaderState} (inv : st.Bounded) :
    ∀ width ∈ [st.timeIncrementBits, st.timeIncrementBits + 1, st.timeIncrementBits + 6,
      min (st.timeIncrementBits + 3) 15, st.quantPrecision], 1 ≤ width ∧ width ≤ 25 := by
  have timePos := inv.1
  have timeLe := inv.2
  have precisionGe := inv.4
  have precisionLe := inv.5
  simp only [List.mem_cons, List.mem_singleton, List.not_mem_nil, or_false]
  rintro width (rfl | rfl | rfl | rfl | rfl) <;> omega

/-- **The header fields stay in range over every run.** From `decode_init`, through any
headers and any thread copies, the four width fields keep their bounds, so every width
the parsers derive from them is in the bit reader's `[1, 25]`; a VOP header that returns
0 for a VOP with a texture leaves `qscale` at least 1 and `f_code`, `b_code` in `[1, 7]`;
and one that returns 0 for a `BIN_ONLY_SHAPE` VOP sets `f_code` and `b_code` to 1 and
leaves `qscale` as it was. -/
theorem headerState_bounded (c : HeaderConstants) (skipped : c.frameSkipped ≠ 0) {st : HeaderState}
    (reachable : HeaderReachable c st) :
    st.Bounded ∧
      (∀ width ∈ [st.timeIncrementBits, st.timeIncrementBits + 1, st.timeIncrementBits + 6,
        min (st.timeIncrementBits + 3) 15, st.quantPrecision], 1 ≤ width ∧ width ≤ 25) ∧
      (∀ (env : VopEnv) (gb : GetBitContext) (st' : HeaderState), st.shape ≠ c.binOnlyShape →
        decodeVopHeader c env false st gb = (st', 0) → st'.Quantised) ∧
      ∀ (env : VopEnv) (gb : GetBitContext) (st' : HeaderState), st.shape = c.binOnlyShape →
        decodeVopHeader c env false st gb = (st', 0) →
          st'.fCode = 1 ∧ st'.bCode = 1 ∧ st'.qscale = st.qscale := by
  refine ⟨reachable.bounded, reachable.bounded.widths, fun _ _ _ textured decoded => ?_,
    fun _ _ _ binOnly decoded => ?_⟩
  · have after := decodeVopHeader_after skipped decoded
    rwa [HeaderState.QuantiserAfter, if_neg textured] at after
  · have after := decodeVopHeader_after skipped decoded
    rwa [HeaderState.QuantiserAfter, if_pos binOnly] at after

/-- A reader over the bits given as 0 and 1. -/
def bitsOf (bits : List Nat) : GetBitContext := ⟨bits.map (· == 1), 0⟩

/-- A VOL of shape `BIN_ONLY_SHAPE`: random access 0, `vo_type` 1, `is_ol_id` 0, aspect
ratio 1, no control parameters, shape 2, a marker, a frame rate of 25, a marker, no
fixed rate. -/
def binOnlyVol : GetBitContext :=
  bitsOf ([0] ++ [0, 0, 0, 0, 0, 0, 0, 1] ++ [0] ++ [0, 0, 0, 1] ++ [0] ++ [1, 0] ++ [1] ++
    [0, 0, 0, 0, 0, 0, 0, 0, 0, 0, 0, 1, 1, 0, 0, 1] ++ [1] ++ [0])

/-- An I-VOP for it: picture type 0, no `time_incr`, a marker, a 5-bit time increment, a
marker, `vop_coded` 1, the 56 bits of a non-rectangular shape, no alpha. -/
def binOnlyVop : GetBitContext :=
  bitsOf ([0, 0] ++ [0] ++ [1] ++ [0, 0, 0, 0, 0] ++ [1] ++ [1] ++ List.replicate 56 0 ++ [0])

/-- A decoder with the studio profile allowed, whose VOL and VOP headers need no more
than the modelled fields: a progressive sequence, no `new_pred`, no complexity
estimation, no timing skip. -/
def plainVolEnv : VolEnv := ⟨true, fun _ => 0, fun _ => 0⟩

def plainVopEnv : VopEnv := ⟨false, false, false, true, 0, 0, 0, fun gb => (0, gb)⟩

/-- The context after the VOL of `binOnlyVol` is parsed as extradata. -/
def binOnlyState : HeaderState :=
  (parsePictureHeader mpeg4Constants plainVolEnv plainVopEnv 0 false decodeInit
    [.vol binOnlyVol] (.exhausted 0)).1

theorem binOnlyState_headerState_bounded :
    mpeg4Constants.frameSkipped ≠ 0 ∧ HeaderReachable mpeg4Constants binOnlyState ∧
      binOnlyState.Bounded ∧
      (∀ width ∈ [binOnlyState.timeIncrementBits, binOnlyState.timeIncrementBits + 1,
        binOnlyState.timeIncrementBits + 6, min (binOnlyState.timeIncrementBits + 3) 15,
        binOnlyState.quantPrecision], 1 ≤ width ∧ width ≤ 25) ∧
      (∀ (env : VopEnv) (gb : GetBitContext) (st' : HeaderState),
        binOnlyState.shape ≠ mpeg4Constants.binOnlyShape →
        decodeVopHeader mpeg4Constants env false binOnlyState gb = (st', 0) → st'.Quantised) ∧
      ∀ (env : VopEnv) (gb : GetBitContext) (st' : HeaderState),
        binOnlyState.shape = mpeg4Constants.binOnlyShape →
        decodeVopHeader mpeg4Constants env false binOnlyState gb = (st', 0) →
          st'.fCode = 1 ∧ st'.bCode = 1 ∧ st'.qscale = binOnlyState.qscale :=
  ⟨by decide, .parse _ _ _ _ _ _ .init,
    headerState_bounded mpeg4Constants (by decide) (.parse _ _ _ _ _ _ .init)⟩

/-- A VOP of a `BIN_ONLY_SHAPE` VOL: `decode_vop_header` returns 0 for it, outside the
studio profile, with `qscale` still the 0 of `decode_init`. -/
theorem binOnlyVop_returns_zero_with_qscale_zero :
    HeaderReachable mpeg4Constants binOnlyState ∧ binOnlyState.studioProfile = false ∧
      decodeVopHeader mpeg4Constants plainVopEnv false binOnlyState binOnlyVop =
        (⟨5, 2, 0, 0, 0, 5, false, 0, 1, 1⟩, 0) :=
  ⟨.parse _ _ _ _ _ _ .init, by decide, by decide⟩

end Librempeg.Avcodec.Mpeg4Video
