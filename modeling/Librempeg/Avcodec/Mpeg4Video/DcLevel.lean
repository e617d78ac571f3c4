import Librempeg.Avcodec.Mpeg4Video.DcPrediction
import Librempeg.Avcodec.Mpeg4Video.DecodeBlock

/-!
Contract: the intra DC of libavcodec/mpeg4videodec.c as `mpeg4_decode_dc` reads it and
`mpeg4_get_level_dc` rebuilds and stores it: the size code, the differential
(`get_xbits`, or the sign-first form of 3ivx), the marker after a size above 8, the
prediction of `mpeg4_pred_dc`, its rounding to the DC step, the reconstruction
`ret * scale`, its checks and clip to `[0, 2047]`, and its store into the `int16_t`
array `dc_val`.

`FASTDIV` (libavutil, not in this tree) divides through the `ff_inverse` table, exact
for a nonnegative dividend; `mpeg4_get_level_dc` relies on that ("we assume pred is
positive"), and the model is `none` where it does not hold. The DC scales come from
tables not in this tree and enter as positive fields; the DC size VLCs `dc_lum` and
`dc_chrom` enter as reads of the bitstream.

Owns: both functions and the closed form of `mpeg4_get_level_dc`
(`mpeg4GetLevelDc_eq`); every call that writes `dc_val` (`DcCall`) and the invariant
that keeps every entry in `[0, 2047]` over any sequence of them, so that the assumption
above holds at every call.

Does not own: the neighbours the prediction reads (`Mpeg4Video.DcPrediction`), the
block decoder (`Mpeg4Video.DecodeBlock`), the error concealment that runs after a frame.
-/

namespace Librempeg.Avcodec.Mpeg4Video

open Librempeg.Avcodec Librempeg.Avutil

/-- What `mpeg4_decode_dc` and `mpeg4_get_level_dc` read of the context besides
`dc_val`, the position and the bitstream. -/
structure DcLevelContext where
  /-- `s->y_dc_scale` and `s->c_dc_scale`, positive entries of the DC scale tables. -/
  yDcScale : Int
  cDcScale : Int
  yDcScalePos : 0 < yDcScale
  cDcScalePos : 0 < cDcScale
  /-- `IS_3IV1`: the differential of 3ivx and a DC step of 8. -/
  is3iv1 : Bool
  /-- `err_recognition & (AV_EF_BITSTREAM | AV_EF_AGGRESSIVE)`. -/
  strictDc : Bool
  /-- `err_recognition & (AV_EF_BITSTREAM | AV_EF_COMPLIANT)`. -/
  strictMarker : Bool
  /-- `workaround_bugs & FF_BUG_DC_CLIP`. -/
  bugDcClip : Bool
  /-- `get_vlc2(&s->gb, dc_lum, DC_VLC_BITS, 1)` and the same on `dc_chrom`: the DC
  size, negative for a code the table lacks. -/
  dcLum : GetBitContext → Int × GetBitContext
  dcChrom : GetBitContext → Int × GetBitContext

namespace DcLevelContext

/-- `scale` of `mpeg4_get_level_dc`: `y_dc_scale` for a luma block, `c_dc_scale` for a
chroma one, 8 under `IS_3IV1`. -/
def scale (ctx : DcLevelContext) (n : Fin 6) : Int :=
  if ctx.is3iv1 then 8 else if n.val < 4 then ctx.yDcScale else ctx.cDcScale

theorem scale_pos (ctx : DcLevelContext) (n : Fin 6) : 0 < ctx.scale n := by
  unfold scale
  split_ifs
  exacts [by decide, ctx.yDcScalePos, ctx.cDcScalePos]

end DcLevelContext

/-- `FASTDIV(a, b)`: `a / b` through `ff_inverse`, exact for `0 ≤ a`; a negative `a`
goes through `uint64_t` and is left `none`. -/
def fastDiv (a b : Int) : Option Int := if 0 ≤ a then some (a / b) else none

/-- `mpeg4_get_level_dc(s, n, pred, level)` at the macroblock `p` on the store `dcVal`:
`AVERROR_INVALIDDATA`, or the quantised DC `ret` and the store with
`dc_val[block_index[n]]` written. -/
def mpeg4GetLevelDc (ctx : DcLevelContext) (p : SlicePosition) (n : Fin 6) (pred level : Int)
    (dcVal : DcSlot → Int) : Option (Except Int (Int × (DcSlot → Int))) :=
  let scale := ctx.scale n
  (fastDiv (pred + (scale >>> (1 : Nat))) scale).map fun pred =>
    let level := level + pred
    let ret := level
    let level := level * scale
    if Int.land level (-2048) ≠ 0 then
      if ctx.strictDc ∧ level < 0 then .error averrorInvalidData
      else if ctx.strictDc ∧ 2048 + scale < level then .error averrorInvalidData
      else
        let level := if level < 0 then 0 else if !ctx.bugDcClip then 2047 else level
        .ok (ret, Function.update dcVal (dcSlot p.mbX p.mbY n) (toInt16 level))
    else .ok (ret, Function.update dcVal (dcSlot p.mbX p.mbY n) (toInt16 level))

/-- The differential after a nonzero DC size `code`: under `IS_3IV1` `2 * bit - 1` for
size 1 and a sign bit before the magnitude above; `get_xbits` otherwise. -/
def dcDifferential (is3iv1 : Bool) (code : Nat) (gb : GetBitContext) : Int × GetBitContext :=
  if is3iv1 then
    if code = 1 then
      let (bit, gb) := gb.getBits1
      (2 * (bit.toNat : Int) - 1, gb)
    else
      let (positive, gb) := gb.getBits1
      let (magnitude, gb) := gb.getBits (code - 1)
      (if positive then magnitude + 2 ^ (code - 1) else -(magnitude : Int) - 2 ^ (code - 1), gb)
  else gb.getXbits code

/-- An accepted `mpeg4_decode_dc`: the quantised DC it returns, `*dir_ptr`, the store
and the reader. -/
structure DcDecoded where
  dc : Int
  dir : Int
  dcVal : DcSlot → Int
  gb : GetBitContext

/-- `mpeg4_decode_dc(s, n, dir_ptr)` at the macroblock `p`. -/
def mpeg4DecodeDc (ctx : DcLevelContext) (p : SlicePosition) (n : Fin 6) (dcVal : DcSlot → Int)
    (gb : GetBitContext) : Option (Except Int DcDecoded) :=
  let (code, gb) := if n.val < 4 then ctx.dcLum gb else ctx.dcChrom gb
  if code < 0 then some (.error averrorInvalidData)
  else
    let (level, gb) := if code = 0 then ((0 : Int), gb) else dcDifferential ctx.is3iv1 code.toNat gb
    let (marker, gb) := if 8 < code then gb.getBits1 else (true, gb)
    if marker = false ∧ ctx.strictMarker = true then some (.error averrorInvalidData)
    else
      let (pred, dir) := p.mpeg4PredDc n dcVal
      (mpeg4GetLevelDc ctx p n pred level dcVal).map
        (Except.map fun (dc, dcVal) => ⟨dc, dir, dcVal, gb⟩)

/-! ### Closed form -/

/-- What `dc_val` receives for a reconstruction that passed the checks: itself inside
`[0, 2047]`, else 0 below and 2047 above (itself above under `FF_BUG_DC_CLIP`). -/
def storedDc (bugDcClip : Bool) (level : Int) : Int :=
  if 0 ≤ level ∧ level < 2048 then level
  else if level < 0 then 0 else if bugDcClip then level else 2047

theorem storedDc_mem (level : Int) : 0 ≤ storedDc false level ∧ storedDc false level ≤ 2047 := by
  unfold storedDc
  split_ifs <;> first | omega | contradiction

/-- **`mpeg4_get_level_dc` in closed form.** With `s = scale` and the prediction rounded
to `q = (pred + s / 2) / s`, the call returns `ret = level + q`; it refuses a
reconstruction `ret * s` below 0 or above `2048 + s` under strict error recognition and
stores `storedDc` of it otherwise. -/
theorem mpeg4GetLevelDc_eq (ctx : DcLevelContext) (p : SlicePosition) (n : Fin 6)
    (pred level : Int) (dcVal : DcSlot → Int) :
    mpeg4GetLevelDc ctx p n pred level dcVal =
      if 0 ≤ pred + ctx.scale n / 2 then
        let ret := level + (pred + ctx.scale n / 2) / ctx.scale n
        some (if ctx.strictDc ∧ (ret * ctx.scale n < 0 ∨ 2048 + ctx.scale n < ret * ctx.scale n)
          then .error averrorInvalidData
          else .ok (ret, Function.update dcVal (dcSlot p.mbX p.mbY n)
            (toInt16 (storedDc ctx.bugDcClip (ret * ctx.scale n)))))
      else none := by
  have half : ctx.scale n >>> (1 : Nat) = ctx.scale n / 2 := shiftRight_eq_ediv _ 1
  have scalePos := ctx.scale_pos n
  unfold mpeg4GetLevelDc fastDiv storedDc
  by_cases nonneg : 0 ≤ pred + ctx.scale n / 2
  case neg => simp only [half, nonneg, if_false, Option.map_none']
  simp only [half, nonneg, if_true, Option.map_some', Option.some.injEq]
  generalize (level + (pred + ctx.scale n / 2) / ctx.scale n) * ctx.scale n = x
  by_cases inside : 0 ≤ x ∧ x < 2048
  · have clear := (land_neg2048_eq_zero_iff x).mpr inside
    rw [if_neg (not_not.mpr clear), if_neg (by rintro ⟨-, low | high⟩ <;> omega), if_pos inside]
  · have set : Int.land x (-2048) ≠ 0 := fun clear => inside ((land_neg2048_eq_zero_iff x).mp clear)
    rw [if_pos set, if_neg inside]
    split_ifs <;> simp_all <;> omega

theorem mpeg4DecodeDc_cases (ctx : DcLevelContext) (p : SlicePosition) (n : Fin 6)
    (dcVal : DcSlot → Int) (gb : GetBitContext) :
    mpeg4DecodeDc ctx p n dcVal gb = some (.error averrorInvalidData) ∨
      ∃ level gb', mpeg4DecodeDc ctx p n dcVal gb =
        (mpeg4GetLevelDc ctx p n (p.mpeg4PredDc n dcVal).1 level dcVal).map
          (Except.map fun (dc, store) => ⟨dc, (p.mpeg4PredDc n dcVal).2, store, gb'⟩) := by
  unfold mpeg4DecodeDc
  generalize (if n.val < 4 then ctx.dcLum gb else ctx.dcChrom gb) = read
  obtain ⟨code, gb⟩ := read
  dsimp only
  generalize (if code = 0 then ((0 : Int), gb) else dcDifferential ctx.is3iv1 code.toNat gb) = read
  obtain ⟨level, gb⟩ := read
  dsimp only
  generalize (if 8 < code then gb.getBits1 else (true, gb)) = read
  obtain ⟨marker, gb⟩ := read
  dsimp only
  split_ifs
  · exact .inl rfl
  · exact .inl rfl
  · exact .inr ⟨level, gb, rfl⟩

/-! ### The `dc_val` store over a run -/

/-- Every entry of `dc_val` in `[0, 2047]`, the range of the clip in
`mpeg4_get_level_dc` and of the sentinel 1024. -/
def DcBounded (dcVal : DcSlot → Int) : Prop := ∀ slot, 0 ≤ dcVal slot ∧ dcVal slot ≤ 2047

theorem DcBounded.update {dcVal : DcSlot → Int} (bounded : DcBounded dcVal) (slot : DcSlot)
    {value : Int} (low : 0 ≤ value) (high : value ≤ 2047) :
    DcBounded (Function.update dcVal slot value) := by
  intro other
  by_cases same : other = slot
  · subst same
    simpa using ⟨low, high⟩
  · simpa [Function.update_noteq same] using bounded other

theorem mpeg4PredDc_mem (p : SlicePosition) (n : Fin 6) {dcVal : DcSlot → Int}
    (bounded : DcBounded dcVal) :
    0 ≤ (p.mpeg4PredDc n dcVal).1 ∧ (p.mpeg4PredDc n dcVal).1 ≤ 2047 := by
  simp only [SlicePosition.mpeg4PredDc, SlicePosition.boundaryValues_eq]
  split_ifs <;> first | exact bounded _ | norm_num

/-- `dc_val` after a call of `mpeg4_get_level_dc`, unchanged when it refused. -/
def levelDcStore (dcVal : DcSlot → Int) : Except Int (Int × (DcSlot → Int)) → DcSlot → Int
  | .ok (_, dcVal') => dcVal'
  | .error _ => dcVal

theorem mpeg4GetLevelDc_bounded {ctx : DcLevelContext} {p : SlicePosition} {n : Fin 6}
    {pred : Int} (level : Int) {dcVal : DcSlot → Int} (noBug : ctx.bugDcClip = false)
    (predNonneg : 0 ≤ pred) (bounded : DcBounded dcVal) :
    ∃ result, mpeg4GetLevelDc ctx p n pred level dcVal = some result ∧
      DcBounded (levelDcStore dcVal result) := by
  have scalePos := ctx.scale_pos n
  rw [mpeg4GetLevelDc_eq, if_pos (by omega), noBug]
  refine ⟨_, rfl, ?_⟩
  split_ifs
  · exact bounded
  · obtain ⟨low, high⟩ := storedDc_mem ((level + (pred + ctx.scale n / 2) / ctx.scale n) * ctx.scale n)
    rw [levelDcStore, toInt16_of_lt (by omega) (by omega)]
    exact bounded.update _ low high

/-- A call that writes `dc_val`: `mpeg4_decode_dc` for block `n` of the macroblock at
`p` (from partition A, or from `mpeg4_decode_block` with the DC VLC);
`mpeg4_get_level_dc` on the level the coefficient loop left in `block[0]` (from
`mpeg4_decode_block` without it); or the reset of an entry to 1024 by the clean-up
functions (`ff_mpeg4_clean_buffers`, `ff_clean_intra_table_entries`, not in this tree). -/
inductive DcCall
  | decodeDc (ctx : DcLevelContext) (p : SlicePosition) (n : Fin 6) (gb : GetBitContext)
  | levelDc (ctx : DcLevelContext) (p : SlicePosition) (n : Fin 6) (level : Int)
  | clean (slot : DcSlot)

namespace DcCall

/-- `FF_BUG_DC_CLIP` for the call; a reset does not clip. -/
def bugDcClip : DcCall → Bool
  | .decodeDc ctx .. | .levelDc ctx .. => ctx.bugDcClip
  | .clean _ => false

/-- The store after the call, unchanged by a refused one; `none` where `FASTDIV` saw a
negative dividend. A refusal of `mpeg4_decode_dc` abandons the video packet, but the
decoder goes on at the next resync marker with the same store. -/
def step : DcCall → (DcSlot → Int) → Option (DcSlot → Int)
  | .decodeDc ctx p n gb, dcVal => (mpeg4DecodeDc ctx p n dcVal gb).map fun
      | .ok decoded => decoded.dcVal
      | .error _ => dcVal
  | .levelDc ctx p n level, dcVal =>
      (mpeg4GetLevelDc ctx p n (p.mpeg4PredDc n dcVal).1 level dcVal).map (levelDcStore dcVal)
  | .clean slot, dcVal => some (Function.update dcVal slot 1024)

theorem step_bounded (call : DcCall) {dcVal : DcSlot → Int} (noBug : call.bugDcClip = false)
    (bounded : DcBounded dcVal) : ∃ dcVal', call.step dcVal = some dcVal' ∧ DcBounded dcVal' := by
  cases call with
  | decodeDc ctx p n gb =>
    rcases mpeg4DecodeDc_cases ctx p n dcVal gb with refused | ⟨level, gb', decoded⟩
    · exact ⟨dcVal, by rw [step, refused]; rfl, bounded⟩
    · obtain ⟨result, called, store⟩ :=
        mpeg4GetLevelDc_bounded level noBug (mpeg4PredDc_mem p n bounded).1 bounded
      refine ⟨_, by rw [step, decoded, called]; rfl, ?_⟩
      cases result <;> exact store
  | levelDc ctx p n level =>
    obtain ⟨result, called, store⟩ :=
      mpeg4GetLevelDc_bounded level noBug (mpeg4PredDc_mem p n bounded).1 bounded
    exact ⟨_, by rw [step, called]; rfl, store⟩
  | clean slot => exact ⟨_, rfl, bounded.update slot (by norm_num) (by norm_num)⟩

end DcCall

/-- The store after a sequence of calls, in order; `none` if a call divided a negative
prediction. -/
def dcRun : List DcCall → (DcSlot → Int) → Option (DcSlot → Int)
  | [], dcVal => some dcVal
  | call :: calls, dcVal => (call.step dcVal).bind (dcRun calls)

/-- **`dc_val` stays in `[0, 2047]`, so `FASTDIV` only sees nonnegative dividends.** For
every sequence of calls that write `dc_val` (`mpeg4_decode_dc` on any bitstream at any
position, `mpeg4_get_level_dc` on any level the coefficient loop leaves, resets to
1024), in any order and under any error recognition, with none under
`FF_BUG_DC_CLIP`: a store that starts in range stays in range and every call is
defined. Each prediction of `mpeg4_pred_dc` is a stored value or 1024, so the
assumption "pred is positive" of `mpeg4_get_level_dc` holds at every call. -/
theorem dcRun_bounded (calls : List DcCall) {dcVal : DcSlot → Int}
    (noBug : ∀ call ∈ calls, call.bugDcClip = false) (bounded : DcBounded dcVal) :
    ∃ dcVal', dcRun calls dcVal = some dcVal' ∧ DcBounded dcVal' := by
  induction calls generalizing dcVal with
  | nil => exact ⟨dcVal, rfl, bounded⟩
  | cons call calls ih =>
    obtain ⟨next, stepped, nextBounded⟩ :=
      call.step_bounded (noBug call (List.mem_cons_self _ _)) bounded
    obtain ⟨final, ran, finalBounded⟩ :=
      ih (fun other mem => noBug other (List.mem_cons_of_mem _ mem)) nextBounded
    exact ⟨final, by rw [dcRun, stepped, Option.some_bind, ran], finalBounded⟩

/-- A luma and chroma DC scale of 8, strict DC and marker checks, no `FF_BUG_DC_CLIP`. -/
def strictDcContext : DcLevelContext :=
  ⟨8, 8, by decide, by decide, false, true, true, false, fun gb => (0, gb), fun gb => (0, gb)⟩

/-- At the first macroblock of a slice: a reset of block 0's entry, a level of 300 that
the strict check refuses (`(300 + 128) * 8` is past `2048 + 8`), and a level of 10 that is
stored as `(10 + 128) * 8 = 1104`. -/
def resetThenLevels : List DcCall :=
  [.clean (.luma 0 0), .levelDc strictDcContext ⟨0, 0, 0, 0, true⟩ 0 300,
    .levelDc strictDcContext ⟨0, 0, 0, 0, true⟩ 0 10]

theorem dcRun_bounded_resetThenLevel :
    (∀ call ∈ resetThenLevels, call.bugDcClip = false) ∧ DcBounded (fun _ => 1024) ∧
      (∃ dcVal', dcRun resetThenLevels (fun _ => 1024) = some dcVal' ∧ DcBounded dcVal') ∧
      (dcRun resetThenLevels (fun _ => 1024)).map (· (.luma 0 0)) = some 1104 :=
  ⟨by decide, fun _ => by norm_num, dcRun_bounded _ (by decide) fun _ => by norm_num, by
    simp only [resetThenLevels, dcRun, DcCall.step, mpeg4GetLevelDc_eq]
    decide⟩

end Librempeg.Avcodec.Mpeg4Video
