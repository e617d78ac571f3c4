import Librempeg.Avcodec.Mpeg4Video.Headers

/-!
Contract: the studio-profile slice header of libavcodec/mpeg4videodec.c,
`ff_mpeg4_decode_studio_slice_header`, with `reset_studio_dc_predictors`: the slice start
code, the macroblock number in `av_log2(mb_width * mb_height) + 1` bits stored in a
`uint16_t`, the refusal of a number at or past `mb_num`, the slice position, the quantiser,
the extension bytes and the DC predictors.

The context is the one a studio VOL header and a studio VOP header leave
(`StudioContext`): `decode_studio_vol_header` admits 10-bit samples only, and
`decode_studio_vop_header` reads `dct_precision` and `intra_dc_precision` in two bits each.
`mb_width`, `mb_height` and `mb_num` are set with the picture size in
libavcodec/mpegvideo.c, not in this tree, and enter as they are. `SLICE_STARTCODE`
(libavcodec/mpeg4videodefs.h) and `mpeg_get_qscale` (libavcodec/mpegvideodec.h) are not in
this tree either: the start code is a parameter and the quantiser read a reader. An error
abandons the slice, so its result carries no context.

Owns: `StudioContext`, `StudioSliceState`, the slice header and the DC predictor reset,
and where a slice starts.

Does not own: the studio blocks (`Mpeg4Video.StudioBlock`).
-/

namespace Librempeg.Avcodec.Mpeg4Video

open Librempeg.Avcodec Librempeg.Avutil

/-- The fields of the decoder context the studio slice header and the studio block decoder
read, with what the studio VOL and VOP headers guarantee of them. -/
structure StudioContext where
  mbWidth : Nat
  mbHeight : Nat
  mbNum : Nat
  shape : Nat
  bitsPerRawSample : Nat
  dctPrecision : Nat
  intraDcPrecision : Nat
  tenBit : bitsPerRawSample = 10
  dctPrecision_lt : dctPrecision < 4
  intraDcPrecision_lt : intraDcPrecision < 4

/-- What a slice header sets: `mb_x`, `mb_y`, `qscale`, the DC predictors `last_dc[0..2]`
and the reader. -/
structure StudioSliceState where
  mbX : Nat
  mbY : Nat
  qscale : Int
  lastDc : Fin 3 → Int
  gb : GetBitContext

/-- `reset_studio_dc_predictors`: `1 << (bits_per_raw_sample + dct_precision +
intra_dc_precision - 1)` in all three predictors. -/
def resetStudioDcPredictors (ctx : StudioContext) : Fin 3 → Int :=
  fun _ => 2 ^ (ctx.bitsPerRawSample + ctx.dctPrecision + ctx.intraDcPrecision - 1)

/-- `while (get_bits1(gb)) skip_bits(gb, 8);`: the extension bytes of a slice, at most
`fuel` rounds. -/
def skipExtraInformationSlice : Nat → GetBitContext → Option GetBitContext
  | 0, _ => none
  | fuel + 1, gb =>
      let more := gb.getBits1
      if more.1 then skipExtraInformationSlice fuel (more.2.skipBits 8) else some more.2

/-- `ff_mpeg4_decode_studio_slice_header`. The extension loop ends within one round a
remaining bit, since bits past the end read as zero. -/
def ffMpeg4DecodeStudioSliceHeader (c : HeaderConstants)
    (getQscale : GetBitContext → Int × GetBitContext) (sliceStartcode : Nat)
    (ctx : StudioContext) (qscale : Int) (gb : GetBitContext) :
    Option (Except Int StudioSliceState) :=
  let startcode := gb.getBits 32
  if gb.index + 32 ≤ gb.sizeInBits ∧ startcode.1 = sliceStartcode then
    let vlcLen := avLog2 (ctx.mbWidth * ctx.mbHeight) + 1
    let field := startcode.2.getBits vlcLen
    let mbNum := field.1 % 2 ^ 16
    if ctx.mbNum ≤ mbNum then some (.error averrorInvalidData)
    else
      let quantiser := if ctx.shape ≠ c.binOnlyShape then getQscale field.2 else (qscale, field.2)
      let extension := quantiser.2.getBits1
      let extended :=
        if extension.1 then
          skipExtraInformationSlice (quantiser.2.sizeInBits + 1) (extension.2.skipBits 8)
        else some extension.2
      extended.map fun gb =>
        .ok ⟨mbNum % ctx.mbWidth, mbNum / ctx.mbWidth, quantiser.1,
          resetStudioDcPredictors ctx, gb⟩
  else some (.error averrorInvalidData)

theorem getBits1_fst_of_end (gb : GetBitContext) (atEnd : gb.sizeInBits ≤ gb.index) :
    gb.getBits1.1 = false := by
  simp only [GetBitContext.getBits1]
  rw [List.getD_eq_default _ _ atEnd]

theorem skipExtraInformationSlice_isSome (fuel : Nat) :
    ∀ gb : GetBitContext, gb.sizeInBits ≤ gb.index + fuel →
      (skipExtraInformationSlice (fuel + 1) gb).isSome := by
  induction fuel with
  | zero =>
    intro gb atEnd
    simp [skipExtraInformationSlice, getBits1_fst_of_end gb (by omega)]
  | succ fuel ih =>
    intro gb enough
    by_cases more : gb.getBits1.1
    · simp only [skipExtraInformationSlice, more, if_true]
      exact ih _ (by simp only [GetBitContext.getBits1_snd, GetBitContext.skipBits_skipBits,
        GetBitContext.sizeInBits_skipBits, GetBitContext.skipBits_index]; omega)
    · simp [skipExtraInformationSlice, more]

theorem extensionBytes_isSome (gb : GetBitContext) :
    (if gb.getBits1.1 then skipExtraInformationSlice (gb.sizeInBits + 1) (gb.getBits1.2.skipBits 8)
      else some gb.getBits1.2).isSome := by
  split_ifs
  · exact skipExtraInformationSlice_isSome _ _ (by
      simp only [GetBitContext.getBits1_snd, GetBitContext.sizeInBits_skipBits,
        GetBitContext.skipBits_index]
      omega)
  · rfl

/-- **Where a studio slice starts.** After the slice start code, a header whose macroblock
field holds `m` is refused when `m mod 2^16` is at or past `mb_num`; otherwise it starts
the slice at `mb_x = (m mod 2^16) mod mb_width`, `mb_y = (m mod 2^16) / mb_width` with
the DC predictors reset: the `uint16_t` keeps the low 16 bits of a field up to 21 bits
wide. -/
theorem studioSliceHeader_start (c : HeaderConstants)
    (getQscale : GetBitContext → Int × GetBitContext) (sliceStartcode : Nat)
    (ctx : StudioContext) (qscale : Int) (gb : GetBitContext) (m : Nat)
    (startcode : gb.index + 32 ≤ gb.sizeInBits ∧ (gb.getBits 32).1 = sliceStartcode)
    (coded : ((gb.skipBits 32).getBits (avLog2 (ctx.mbWidth * ctx.mbHeight) + 1)).1 = m) :
    (ctx.mbNum ≤ m % 2 ^ 16 →
        ffMpeg4DecodeStudioSliceHeader c getQscale sliceStartcode ctx qscale gb =
          some (.error averrorInvalidData)) ∧
    (m % 2 ^ 16 < ctx.mbNum →
        ∃ st, ffMpeg4DecodeStudioSliceHeader c getQscale sliceStartcode ctx qscale gb =
            some (.ok st) ∧
          st.mbX = m % 2 ^ 16 % ctx.mbWidth ∧ st.mbY = m % 2 ^ 16 / ctx.mbWidth ∧
          st.lastDc = resetStudioDcPredictors ctx) := by
  have field : ((gb.getBits 32).2.getBits (avLog2 (ctx.mbWidth * ctx.mbHeight) + 1)).1 = m :=
    coded
  refine ⟨fun refused => ?_, fun accepted => ?_⟩
  · simp only [ffMpeg4DecodeStudioSliceHeader, if_pos startcode, field, if_pos refused]
  · simp only [ffMpeg4DecodeStudioSliceHeader, if_pos startcode, field,
      if_neg (Nat.not_le.mpr accepted)]
    obtain ⟨gb', extended⟩ := Option.isSome_iff_exists.mp (extensionBytes_isSome _)
    rw [extended]
    exact ⟨_, rfl, rfl, rfl, rfl⟩

/-- A 4096x4112 studio picture: 256 by 257 macroblocks, `mb_num = 65792`. -/
def studio4096x4112 : StudioContext := ⟨256, 257, 65792, 0, 10, 0, 0, rfl, by decide, by decide⟩

/-- A slice header for macroblock 65536, the first of row 256: the start code `0x1B7`, the
17-bit field, `quantiser_scale_code` 1 and no extension. -/
def sliceAtRow256 : GetBitContext :=
  ⟨GetBitContext.codeBits 32 0x1B7 ++ GetBitContext.codeBits 17 65536 ++
    GetBitContext.codeBits 5 1 ++ [false], 0⟩

/-- `mpeg_get_qscale` with `q_scale_type = 0`: the code doubled. -/
def linearQscale (gb : GetBitContext) : Int × GetBitContext :=
  (2 * (gb.getBits 5).1, (gb.getBits 5).2)

/-- Macroblock 65536 of a 4096x4112 picture is accepted and starts the slice at row 0, not
at row 256. -/
theorem studioSliceHeader_start_row256 :
    (sliceAtRow256.index + 32 ≤ sliceAtRow256.sizeInBits ∧ (sliceAtRow256.getBits 32).1 = 0x1B7) ∧
    ((sliceAtRow256.skipBits 32).getBits
        (avLog2 (studio4096x4112.mbWidth * studio4096x4112.mbHeight) + 1)).1 = 65536 ∧
    65536 / studio4096x4112.mbWidth = 256 ∧
    ∃ st, ffMpeg4DecodeStudioSliceHeader mpeg4Constants linearQscale 0x1B7 studio4096x4112 2
        sliceAtRow256 = some (.ok st) ∧
      st.mbX = 0 ∧ st.mbY = 0 ∧ st.lastDc = resetStudioDcPredictors studio4096x4112 :=
  ⟨by decide, by decide, by decide,
    (studioSliceHeader_start mpeg4Constants linearQscale 0x1B7 studio4096x4112 2 sliceAtRow256
      65536 (by decide) (by decide)).2 (by decide)⟩

end Librempeg.Avcodec.Mpeg4Video
