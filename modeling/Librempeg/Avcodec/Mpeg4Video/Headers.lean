import Librempeg.Avcodec.GetBits
import Librempeg.Avutil.Common

/-!
Contract: the header fields of libavcodec/mpeg4videodec.c that the VOL, VOP and
video-packet parsers read as bit widths, and the VOP's quantiser and motion-vector
ranges: `decode_init`, the VOL header (`decode_vol_header`, with the shape and sprite
fields, `time_increment_bits` and `quant_precision`), the VOP header
(`decode_vop_header`, with the `time_increment_bits` recovery scan and the quantiser and
`f_code`/`b_code` reads), the dispatch of `ff_mpeg4_parse_picture_header`, and
`mpeg4_update_thread_context`.

Each function returns the context it leaves, whatever it returns: fields written before
an error stay written, as in C. The parts of the parsers that write none of the modelled
fields enter as their results (`VolEnv`, `VopEnv`): the VOL header after
`quant_precision`, the studio headers after the shape, the B-frame timing checks, the
sprite trajectory. The start-code loop enters as the headers it meets (`HeaderUnit`).
The constants of libavcodec/mpeg4video.h, h263dec.h and h263.h are not in this tree and
enter as `HeaderConstants`; the picture types are `AV_PICTURE_TYPE_I = 1`, `P = 2`,
`B = 3`, `S = 4`.

Owns: the modelled context `HeaderState` and its initial value, the parsers and the
thread copy, and the states they reach (`HeaderReachable`).

Does not own: the bounds (`Mpeg4Video.HeaderBounds`), the sprite trajectory
(`Mpeg4Video.SpriteTrajectory`).
-/

namespace Librempeg.Avcodec.Mpeg4Video

open Librempeg.Avcodec Librempeg.Avutil

/-- The constants the header parsers compare with: `RECT_SHAPE`, `BIN_ONLY_SHAPE`,
`GRAY_SHAPE`, `STATIC_SPRITE`, `GMC_SPRITE`, `CORE_STUDIO_VO_TYPE`,
`SIMPLE_STUDIO_VO_TYPE`, `FF_ASPECT_EXTENDED` and `FRAME_SKIPPED`. -/
structure HeaderConstants where
  rectShape : Nat
  binOnlyShape : Nat
  grayShape : Nat
  staticSprite : Nat
  gmcSprite : Nat
  coreStudioVoType : Nat
  simpleStudioVoType : Nat
  aspectExtended : Nat
  frameSkipped : Int

/-- The values libavcodec/mpeg4video.h, h263.h and h263dec.h give: `RECT_SHAPE` 0,
`BIN_ONLY_SHAPE` 2, `GRAY_SHAPE` 3, `STATIC_SPRITE` 1, `GMC_SPRITE` 2,
`CORE_STUDIO_VO_TYPE` 15, `SIMPLE_STUDIO_VO_TYPE` 14, `FF_ASPECT_EXTENDED` 15,
`FRAME_SKIPPED` 100. -/
def mpeg4Constants : HeaderConstants := ⟨0, 2, 3, 1, 2, 15, 14, 15, 100⟩

/-- The fields of `Mpeg4DecContext` and its `MpegEncContext` the header parsers keep:
`time_increment_bits`, `shape`, `vol_sprite_usage`, `num_sprite_warping_points`,
`sprite_warping_accuracy`, `quant_precision`, `studio_profile`, `qscale`, `f_code` and
`b_code`. -/
structure HeaderState where
  timeIncrementBits : Nat
  shape : Nat
  volSpriteUsage : Nat
  numSpriteWarpingPoints : Nat
  spriteWarpingAccuracy : Nat
  quantPrecision : Nat
  studioProfile : Bool
  qscale : Nat
  fCode : Nat
  bCode : Nat
  deriving DecidableEq, Repr

/-- `decode_init`: `time_increment_bits = 4`, `quant_precision = 5`, and the rest of the
`av_mallocz`'d context zero. -/
def decodeInit : HeaderState := ⟨4, 0, 0, 0, 0, 5, false, 0, 0, 0⟩

/-- `check_marker`: it reads one bit; a missing marker is only logged. -/
def checkMarker (gb : GetBitContext) : GetBitContext := gb.skipBits 1

/-! ### The VOL header -/

/-- What the VOL parsers decide beyond the modelled fields: whether `avctx->profile`
admits the studio profile, and the return values of the rest of
`decode_studio_vol_header` after the shape and of the rest of `decode_vol_header` after
`quant_precision` (matrices, complexity estimation, resync, partitioning, scalability),
neither of which writes a modelled field. -/
structure VolEnv where
  studioAllowed : Bool
  studioRest : GetBitContext → Int
  rest : GetBitContext → Int

/-- `decode_studio_vol_header` up to the shape test: the shape is written, and a shape
other than `RECT_SHAPE` is refused. -/
def decodeStudioVolHeader (c : HeaderConstants) (env : VolEnv) (st : HeaderState)
    (gb : GetBitContext) : HeaderState × Int :=
  let shape := (gb.skipBits 4).getBits 2
  ({ st with shape := shape.1 },
    if shape.1 ≠ c.rectShape then averrorPatchWelcome else env.studioRest (shape.2.skipBits 5))

/-- The `vol_control_parameters` flag, then `chroma_format`, `low_delay` and the VBV
parameters with their markers. -/
def volControlParameters (gb : GetBitContext) : GetBitContext :=
  let control := gb.getBits1
  if control.1 then
    let vbv := (control.2.skipBits 3).getBits1
    if vbv.1 then vbv.2.skipBits 79 else vbv.2
  else control.2

/-- The `not_8_bit` part: `quant_precision` from 4 bits, 5 when outside `[3, 9]` or
absent; then the rest of the VOL header. -/
def volQuantPrecision (env : VolEnv) (st : HeaderState) (gb : GetBitContext) : HeaderState × Int :=
  let not8Bit := gb.getBits1
  if not8Bit.1 then
    let precision := not8Bit.2.getBits 4
    ({ st with quantPrecision := if precision.1 < 3 ∨ 9 < precision.1 then 5 else precision.1 },
      env.rest (precision.2.skipBits 4))
  else ({ st with quantPrecision := 5 }, env.rest not8Bit.2)

/-- The sprite part: for a static or GMC sprite, `num_sprite_warping_points` from 6 bits
(above 3 it is reset to 0 and the header refused) and `sprite_warping_accuracy` from 2
bits. -/
def volSprite (c : HeaderConstants) (env : VolEnv) (usage : Nat) (st : HeaderState)
    (gb : GetBitContext) : HeaderState × Int :=
  if usage = c.staticSprite ∨ usage = c.gmcSprite then
    let points := (if usage = c.staticSprite then gb.skipBits 56 else gb).getBits 6
    if 3 < points.1 then ({ st with numSpriteWarpingPoints := 0 }, averrorInvalidData)
    else
      let accuracy := points.2.getBits 2
      volQuantPrecision env
        { st with numSpriteWarpingPoints := points.1, spriteWarpingAccuracy := accuracy.1 }
        (accuracy.2.skipBits (if usage = c.staticSprite then 2 else 1))
  else volQuantPrecision env st gb

/-- The `ctx->shape != BIN_ONLY_SHAPE` part of `decode_vol_header` up to
`quant_precision`: width and height, the interlace and OBMC flags, `vol_sprite_usage`
(1 bit for `vo_ver_id == 1`, else 2). -/
def volShape (c : HeaderConstants) (env : VolEnv) (voVerId shape : Nat) (st : HeaderState)
    (gb : GetBitContext) : HeaderState × Int :=
  let gb := if shape = c.rectShape then
    checkMarker ((checkMarker ((checkMarker gb).skipBits 13)).skipBits 13) else gb
  let usage := (gb.skipBits 2).getBits (if voVerId = 1 then 1 else 2)
  volSprite c env usage.1 { st with volSpriteUsage := usage.1 } usage.2

/-- `decode_vol_header` from `framerate.num` on: 0 is refused;
`time_increment_bits = av_log2(framerate.num - 1) + 1`, at least 1; `fixed_vop_rate`;
then, unless the shape is `BIN_ONLY_SHAPE`, the shape-dependent part. -/
def volTiming (c : HeaderConstants) (env : VolEnv) (voVerId shape : Nat) (st : HeaderState)
    (framerateNum : Nat) (gb : GetBitContext) : HeaderState × Int :=
  if framerateNum = 0 then (st, averrorInvalidData)
  else
    let st := { st with timeIncrementBits := max 1 (avLog2 (framerateNum - 1) + 1) }
    let fixedVopRate := (checkMarker gb).getBits1
    if shape = c.binOnlyShape then (st, 0)
    else
      volShape c env voVerId shape st
        (if fixedVopRate.1 then fixedVopRate.2.skipBits st.timeIncrementBits else fixedVopRate.2)

/-- `decode_vol_header` from `is_ol_id` to `framerate.num`: `vo_ver_id`, the aspect
ratio, the control parameters, and the shape. -/
def volObjectLayer (c : HeaderConstants) (env : VolEnv) (st : HeaderState) (gb : GetBitContext) :
    HeaderState × Int :=
  let isOlId := gb.getBits1
  let voVerId := if isOlId.1 then isOlId.2.getBits 4 else (1, isOlId.2)
  let aspect := (if isOlId.1 then voVerId.2.skipBits 3 else voVerId.2).getBits 4
  let shape := (volControlParameters (if aspect.1 = c.aspectExtended then aspect.2.skipBits 16
    else aspect.2)).getBits 2
  let framerateNum := (checkMarker (if shape.1 = c.grayShape ∧ voVerId.1 ≠ 1 then shape.2.skipBits 4
    else shape.2)).getBits 16
  volTiming c env voVerId.1 shape.1 { st with shape := shape.1 } framerateNum.1 framerateNum.2

/-- `decode_vol_header(ctx, gb)`: the random access flag and `vo_type`, the dispatch to
the studio profile, then the object layer. -/
def decodeVolHeader (c : HeaderConstants) (env : VolEnv) (st : HeaderState) (gb : GetBitContext) :
    HeaderState × Int :=
  let voType := (gb.skipBits 1).getBits 8
  if voType.1 = c.coreStudioVoType ∨ voType.1 = c.simpleStudioVoType then
    if env.studioAllowed then decodeStudioVolHeader c env { st with studioProfile := true } voType.2
    else (st, averrorInvalidData)
  else if st.studioProfile then (st, averrorPatchWelcome)
  else volObjectLayer c env st voType.2

/-! ### The VOP header -/

/-- `while (get_bits1(gb) != 0) time_incr++;`, with at most `fuel` reads. Past the end of
the buffer every bit reads as zero, so `size_in_bits + 1` reads end the loop. -/
def skipOnes : Nat → GetBitContext → GetBitContext
  | 0, gb => gb
  | fuel + 1, gb =>
      let bit := gb.getBits1
      if bit.1 then skipOnes fuel bit.2 else bit.2

/-- The break tests of the recovery scan for the width `bits`: the bits after a P-VOP's
(or a GMC S-VOP's) time increment, or after another VOP's. -/
def timeIncrementFits (gmcLike : Bool) (gb : GetBitContext) (bits : Nat) : Bool :=
  if gmcLike then gb.showBits (bits + 6) &&& 0x37 = 0x30
  else gb.showBits (bits + 5) &&& 0x1F = 0x18

/-- `for (ctx->time_increment_bits = 1; ctx->time_increment_bits < 16; ...)` from `bits`,
with `fuel` widths left: the first width that fits, 16 when none does. -/
def recoverTimeIncrementBits (gmcLike : Bool) (gb : GetBitContext) : Nat → Nat → Nat
  | 0, bits => bits
  | fuel + 1, bits =>
      if timeIncrementFits gmcLike gb bits then bits
      else recoverTimeIncrementBits gmcLike gb fuel (bits + 1)

/-- `decode_new_pred`: `len = FFMIN(time_increment_bits + 3, 15)` bits, once or twice. -/
def decodeNewPred (timeIncrementBits : Nat) (gb : GetBitContext) : GetBitContext :=
  let len := min (timeIncrementBits + 3) 15
  let twice := (gb.skipBits len).getBits1
  checkMarker (if twice.1 then twice.2.skipBits len else twice.2)

/-- What `decode_vop_header` decides beyond the modelled fields: `IS_3IV1`, whether the
timing checks of a B-VOP skip it (the times are not modelled), `new_pred`,
`progressive_sequence`, the complexity estimation lengths, and the result of
`mpeg4_decode_sprite_trajectory` (`Mpeg4Video.SpriteTrajectory`) with its reader. -/
structure VopEnv where
  is3iv1 : Bool
  timingSkips : Bool
  newPred : Bool
  progressiveSequence : Bool
  cplxEstimationTrashI : Nat
  cplxEstimationTrashP : Nat
  cplxEstimationTrashB : Nat
  spriteTrajectory : GetBitContext → Int × GetBitContext

/-- `f_code` or `b_code`: 3 bits for a picture type that has it, else the 1 it was reset
to. -/
def vopCode (present : Bool) (gb : GetBitContext) : Nat × GetBitContext :=
  if present then gb.getBits 3 else (1, gb)

/-- The end of `decode_vop_header` for a decoded VOP: `f_code = b_code = 1`; unless the
shape is `BIN_ONLY_SHAPE`, `qscale` from `quant_precision` bits (0 refused), `f_code`
for a non-I-VOP and `b_code` for a B-VOP (0 refused, reset to 1). -/
def vopQuantiser (c : HeaderConstants) (pictType : Nat) (st : HeaderState) (gb : GetBitContext) :
    HeaderState × Int :=
  let st := { st with fCode := 1, bCode := 1 }
  if st.shape = c.binOnlyShape then (st, 0)
  else
    let qscale := gb.getBits st.quantPrecision
    let st := { st with qscale := qscale.1 }
    if qscale.1 = 0 then (st, averrorInvalidData)
    else
      let fCode := vopCode (pictType != 1) qscale.2
      if fCode.1 = 0 then (st, averrorInvalidData)
      else
        let st := { st with fCode := fCode.1 }
        let bCode := vopCode (pictType == 3) fCode.2
        if bCode.1 = 0 then (st, averrorInvalidData)
        else ({ st with bCode := bCode.1 }, 0)

/-- `decode_vop_header` after the field flags: the end for `parse_only`, the sprite
trajectory of a static or GMC S-VOP, and the quantiser. -/
def vopSprite (c : HeaderConstants) (env : VopEnv) (parseOnly : Bool) (pictType : Nat)
    (st : HeaderState) (gb : GetBitContext) : HeaderState × Int :=
  if parseOnly then (st, 0)
  else if pictType = 4 ∧ (st.volSpriteUsage = c.staticSprite ∨ st.volSpriteUsage = c.gmcSprite) then
    let trajectory := env.spriteTrajectory gb
    if trajectory.1 < 0 then (st, averrorInvalidData) else vopQuantiser c pictType st trajectory.2
  else vopQuantiser c pictType st gb

/-- The complexity estimation bits a VOP of type `pictType` skips. -/
def cplxEstimationTrash (env : VopEnv) (pictType : Nat) : Nat :=
  env.cplxEstimationTrashI + (if pictType ≠ 1 then env.cplxEstimationTrashP else 0) +
    (if pictType = 3 then env.cplxEstimationTrashB else 0)

/-- `decode_vop_header` from the complexity estimation: unless the shape is
`BIN_ONLY_SHAPE`, the skipped estimation bits, the truncation test
(`get_bits_left(gb) < 3`), `intra_dc_threshold` and the field flags. -/
def vopTexture (c : HeaderConstants) (env : VopEnv) (parseOnly : Bool) (pictType : Nat)
    (st : HeaderState) (gb : GetBitContext) : HeaderState × Int :=
  if st.shape = c.binOnlyShape then vopSprite c env parseOnly pictType st gb
  else
    let gb := gb.skipBits (cplxEstimationTrash env pictType)
    if gb.sizeInBits < gb.index + 3 then (st, averrorInvalidData)
    else vopSprite c env parseOnly pictType st (gb.skipBits (3 + if env.progressiveSequence then 0 else 2))

/-- The bits of `decode_vop_header` between `vop_coded` and the complexity estimation:
`decode_new_pred`, the rounding type of a P-VOP or GMC S-VOP, and the fields of a
non-rectangular shape. -/
def vopShapeBits (c : HeaderConstants) (env : VopEnv) (pictType : Nat) (st : HeaderState)
    (gb : GetBitContext) : GetBitContext :=
  let gb := if env.newPred then decodeNewPred st.timeIncrementBits gb else gb
  let gb := if st.shape ≠ c.binOnlyShape ∧ (pictType = 2 ∨ (pictType = 4 ∧ st.volSpriteUsage = c.gmcSprite))
    then gb.skipBits 1 else gb
  if st.shape ≠ c.rectShape then
    let alpha := ((if st.volSpriteUsage ≠ 1 ∨ pictType ≠ 1 then gb.skipBits 55 else gb).skipBits 1).getBits1
    if alpha.1 then alpha.2.skipBits 8 else alpha.2
  else gb

/-- `decode_vop_header` from `vop_coded` on: an uncoded VOP is skipped. -/
def vopCoded (c : HeaderConstants) (env : VopEnv) (parseOnly : Bool) (pictType : Nat)
    (st : HeaderState) (gb : GetBitContext) : HeaderState × Int :=
  let coded := gb.getBits1
  if !coded.1 then (st, c.frameSkipped)
  else vopTexture c env parseOnly pictType st (vopShapeBits c env pictType st coded.2)

/-- `decode_vop_header` from the `time_increment_bits` test: the recovery scan when the
width is 0 or the bit after the time increment is not a marker, the time increment
(one bit for `IS_3IV1`), the B-VOP timing checks, and the marker before `vop_coded`. -/
def vopTimeIncrement (c : HeaderConstants) (env : VopEnv) (parseOnly : Bool) (pictType : Nat)
    (st : HeaderState) (gb : GetBitContext) : HeaderState × Int :=
  let gmcLike := pictType = 2 ∨ (pictType = 4 ∧ st.volSpriteUsage = c.gmcSprite)
  let st := { st with timeIncrementBits :=
    if st.timeIncrementBits = 0 ∨ gb.showBits (st.timeIncrementBits + 1) % 2 = 0 then
      recoverTimeIncrementBits gmcLike gb 15 1
    else st.timeIncrementBits }
  if pictType = 3 ∧ env.timingSkips then (st, c.frameSkipped)
  else vopCoded c env parseOnly pictType st
    (checkMarker (gb.skipBits (if env.is3iv1 then 1 else st.timeIncrementBits)))

/-- `decode_vop_header(ctx, gb, parse_only)`: the picture type, the `time_incr` loop
and its marker, then the time increment and the rest. -/
def decodeVopHeader (c : HeaderConstants) (env : VopEnv) (parseOnly : Bool) (st : HeaderState)
    (gb : GetBitContext) : HeaderState × Int :=
  let pictType := gb.getBits 2
  vopTimeIncrement c env parseOnly (pictType.1 + 1) st
    (checkMarker (skipOnes (pictType.2.sizeInBits + 1) pictType.2))

/-! ### One call, and the thread copy -/

/-- A start code the loop of `ff_mpeg4_parse_picture_header` meets before the VOP: a VOL
with the bits after it; a VOS, whose profile and level select the studio profile or
not; a visual object, with the result of `decode_studiovisualobject` in the studio
profile; or another header (user data, GOP), whose parser writes no modelled field. -/
inductive HeaderUnit
  | vol (gb : GetBitContext)
  | vos (studio : Bool)
  | visualObject (studioResult : Int)
  | other

/-- How the start-code loop ends: at a VOP start code, with the bits after it, or at
the end of the buffer with `FRAME_SKIPPED`, 0 or `AVERROR_INVALIDDATA`. -/
inductive HeaderEnd
  | vop (gb : GetBitContext)
  | exhausted (result : Int)

/-- The start-code loop over `units`; `vol` tells whether a VOL was parsed in this call
(later ones are ignored). The result is the context and, if the call returned in the
loop, its return value. -/
def parseUnits (c : HeaderConstants) (env : VolEnv) :
    Bool → HeaderState → List HeaderUnit → HeaderState × Option Int
  | _, st, [] => (st, none)
  | vol, st, .vol gb :: units =>
      if vol then parseUnits c env vol st units
      else
        let parsed := decodeVolHeader c env st gb
        if parsed.2 < 0 then (parsed.1, some parsed.2) else parseUnits c env true parsed.1 units
  | vol, st, .vos studio :: units =>
      if studio then parseUnits c env vol { st with studioProfile := true } units
      else if st.studioProfile then (st, some averrorPatchWelcome)
      else parseUnits c env vol st units
  | vol, st, .visualObject studioResult :: units =>
      if st.studioProfile ∧ studioResult < 0 then (st, some studioResult)
      else parseUnits c env vol st units
  | vol, st, .other :: units => parseUnits c env vol st units

/-- `ff_mpeg4_parse_picture_header(ctx, gb, header, parse_only)`: the start-code loop,
then the VOP header; `studioVop` is the result of the studio VOP path, which writes no
modelled field. -/
def parsePictureHeader (c : HeaderConstants) (volEnv : VolEnv) (vopEnv : VopEnv) (studioVop : Int)
    (parseOnly : Bool) (st : HeaderState) (units : List HeaderUnit) (ending : HeaderEnd) :
    HeaderState × Int :=
  match parseUnits c volEnv false st units with
  | (st, some result) => (st, result)
  | (st, none) =>
      match ending with
      | .exhausted result => (st, result)
      | .vop gb => if st.studioProfile then (st, studioVop) else decodeVopHeader c vopEnv parseOnly st gb

/-- `mpeg4_update_thread_context(dst, src)`: `time_increment_bits`, `shape`,
`vol_sprite_usage`, `sprite_warping_accuracy` and `num_sprite_warping_points` are copied;
`quant_precision`, `f_code` and `b_code` are not. `update_mpvctx` and
`ff_mpeg_update_thread_context` (the latter not in this tree) set the `MpegEncContext`
fields, `qscale` and `studio_profile` among them: they enter as `mpvFields`. -/
def updateThreadContext (dst src : HeaderState) (mpvFields : Nat × Bool) : HeaderState :=
  { dst with
    qscale := mpvFields.1
    studioProfile := mpvFields.2
    timeIncrementBits := src.timeIncrementBits
    shape := src.shape
    volSpriteUsage := src.volSpriteUsage
    spriteWarpingAccuracy := src.spriteWarpingAccuracy
    numSpriteWarpingPoints := src.numSpriteWarpingPoints }

/-- The contexts a decoder reaches: from `decode_init`, by parsing any headers with any
bits, and by copying another reachable thread's context. -/
inductive HeaderReachable (c : HeaderConstants) : HeaderState → Prop
  | init : HeaderReachable c decodeInit
  | parse {st : HeaderState} (volEnv : VolEnv) (vopEnv : VopEnv) (studioVop : Int) (parseOnly : Bool)
      (units : List HeaderUnit) (ending : HeaderEnd) :
      HeaderReachable c st →
        HeaderReachable c (parsePictureHeader c volEnv vopEnv studioVop parseOnly st units ending).1
  | copy {dst src : HeaderState} (mpvFields : Nat × Bool) :
      HeaderReachable c dst → HeaderReachable c src →
        HeaderReachable c (updateThreadContext dst src mpvFields)

end Librempeg.Avcodec.Mpeg4Video
