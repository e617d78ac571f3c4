import Librempeg.Avcodec.Mpeg4Video.StudioBlock

/-!
Contract: the DPCM planes of the studio profile in libavcodec/mpeg4videodec.c,
`mpeg4_decode_dpcm_macroblock`: the block mean and its refusal at zero, the Rice parameter
and its refusals, and the sample loop over the rows and columns of a plane: the Rice-coded
or escaped residual and the refused prefix, its sign mapping, the gradient predictor
clamped between the left and top samples, the direction test against the neighbours'
midpoint, and the sample kept to `bits_per_raw_sample` bits.

`get_unary` (libavcodec/unary.h) and `get_bitsz` (libavcodec/get_bits.h) are not in this
tree; they are modelled from their loops. `chroma_x_shift` and `chroma_y_shift` enter as
they are. The `& ((1 << bits_per_raw_sample) - 1)` of a sample keeps its low bits, a residue
modulo `2^bits_per_raw_sample`; every intermediate value stays far inside an `int`.

Owns: `DpcmContext`, the residual reader, the predictor, the sample, row and plane loops,
and what a plane can be: every decoded sample in range, and every plane of in-range samples
the decoding of an escape-coded bitstream.

Does not own: the studio blocks and the DC predictors' reset (`Mpeg4Video.StudioBlock`,
`Mpeg4Video.StudioSlice`).
-/

namespace Librempeg.Avcodec.Mpeg4Video

open Librempeg.Avcodec Librempeg.Avutil GetBitContext

/-! ### The residual code -/

/-- `get_unary(gb, stop, len)`: `for (i = 0; i < len && get_bits1(gb) != stop; i++);`,
from `i` with `remaining = len - i` reads left. -/
def getUnary (stop : Bool) : Nat → Nat → GetBitContext → Nat × GetBitContext
  | 0, i, gb => (i, gb)
  | remaining + 1, i, gb =>
      let bit := gb.getBits1
      if bit.1 = stop then (i, bit.2) else getUnary stop remaining (i + 1) bit.2

/-- `get_bitsz(gb, n)`: no read for `n = 0`. -/
def getBitsz (gb : GetBitContext) (n : Nat) : Nat × GetBitContext :=
  if n = 0 then (0, gb) else gb.getBits n

/-- The residual code of a sample: the quotient `get_unary(gb, 1, 12)`; 11 escapes to a
`bits`-bit code, 12 is refused, and any other quotient `q` is followed by a
`rice_parameter`-bit suffix, for the code `(q << rice_parameter) + suffix`. -/
def dpcmResidualCode (bits riceParameter : Nat) (gb : GetBitContext) :
    Except Int (Nat × GetBitContext) :=
  let quotient := getUnary true 12 0 gb
  if quotient.1 = 11 then .ok (quotient.2.getBits bits)
  else if quotient.1 = 12 then .error averrorInvalidData
  else
    let suffix := getBitsz quotient.2 riceParameter
    .ok ((quotient.1 <<< riceParameter) + suffix.1, suffix.2)

/-- "Map to a signed residual": `(-1 * r) >> 1` for an odd code, `r >> 1` for an even one. -/
def dpcmSignedResidual (code : Nat) : Int :=
  if code % 2 = 1 then (-1 * (code : Int)) >>> (1 : Nat) else ((code >>> 1 : Nat) : Int)

/-! ### The sample -/

/-- `p`: `left + top - topleft`, raised to `FFMIN(left, top)` and lowered to
`FFMAX(left, top)`. -/
def dpcmPredictor (left top topleft : Int) : Int :=
  let p := left + top - topleft
  let p := if p < min left top then min left top else p
  if p > max left top then max left top else p

/-- `p2`: the midpoint of the three neighbours' range, `block_mean` where it equals `p`. -/
def dpcmMidpoint (left top topleft blockMean p : Int) : Int :=
  let p2 := (min (min left top) topleft + max (max left top) topleft) >>> (1 : Nat)
  if p2 = p then blockMean else p2

/-- One sample from its residual code: the signed residual, negated where `p2 > p`, added to
`p` and kept to `bits` bits. -/
def dpcmSample (bits : Nat) (left top topleft blockMean : Int) (code : Nat) : Int :=
  let p := dpcmPredictor left top topleft
  let residual := dpcmSignedResidual code
  let residual := if dpcmMidpoint left top topleft blockMean p > p then -1 * residual else residual
  (residual + p) % 2 ^ bits

/-! ### The plane -/

/-- What the DPCM decoder reads beyond the studio context: `chroma_x_shift` and
`chroma_y_shift`. -/
structure DpcmContext where
  studio : StudioContext
  chromaXShift : Nat
  chromaYShift : Nat

/-- The column loop of row `i` of a plane `w` samples wide, `cols` columns left, after the
samples `samples` (`idx` of them): `left` is the last sample, `topleft` the last `top`, and
below the first row `top` becomes the sample above, `macroblock[idx - w]`. -/
def dpcmRow (bits riceParameter w : Nat) (blockMean : Int) (i : Nat) :
    Nat → Int → Int → List Int → GetBitContext → Except Int (List Int × GetBitContext)
  | 0, _, _, samples, gb => .ok (samples, gb)
  | cols + 1, output, top, samples, gb =>
      let left := output
      let topleft := top
      match dpcmResidualCode bits riceParameter gb with
      | .error code => .error code
      | .ok (code, gb) =>
          let top := if i ≠ 0 then samples.getD (samples.length - w) 0 else top
          let output := dpcmSample bits left top topleft blockMean code
          dpcmRow bits riceParameter w blockMean i cols output top (samples ++ [output]) gb

/-- The row loop from row `i`, `rows` rows left; each row starts with `output` and `top` at
`1 << (bits_per_raw_sample - 1)`. -/
def dpcmRows (bits riceParameter w : Nat) (blockMean : Int) :
    Nat → Nat → List Int → GetBitContext → Except Int (List Int × GetBitContext)
  | 0, _, samples, gb => .ok (samples, gb)
  | rows + 1, i, samples, gb =>
      match dpcmRow bits riceParameter w blockMean i w (2 ^ (bits - 1)) (2 ^ (bits - 1)) samples gb with
      | .error code => .error code
      | .ok (samples, gb) => dpcmRows bits riceParameter w blockMean rows (i + 1) samples gb

/-- The plane of component `n`: `16 >> chroma_y_shift` rows and `16 >> chroma_x_shift`
columns for a chroma plane, 16 by 16 for luma. -/
def dpcmPlaneSize (ctx : DpcmContext) (n : Fin 3) : Nat × Nat :=
  (16 >>> (if n ≠ 0 then ctx.chromaYShift else 0), 16 >>> (if n ≠ 0 then ctx.chromaXShift else 0))

/-- `mpeg4_decode_dpcm_macroblock(s, macroblock, n)`: the DC predictors after the call, and
the plane's samples in raster order with the reader, or the error. -/
def mpeg4DecodeDpcmMacroblock (ctx : DpcmContext) (lastDc : Fin 3 → Int) (n : Fin 3)
    (gb : GetBitContext) : (Fin 3 → Int) × Except Int (List Int × GetBitContext) :=
  let bits := ctx.studio.bitsPerRawSample
  let blockMean := gb.getBits bits
  if blockMean.1 = 0 then (lastDc, .error averrorInvalidData)
  else
    let lastDc := Function.update lastDc n
      (blockMean.1 * 2 ^ (ctx.studio.dctPrecision + ctx.studio.intraDcPrecision))
    let rice := blockMean.2.getBits 4
    if rice.1 = 0 then (lastDc, .error averrorInvalidData)
    else
      let riceParameter := if rice.1 = 15 then 0 else rice.1
      if 11 < riceParameter then (lastDc, .error averrorInvalidData)
      else
        (lastDc, dpcmRows bits riceParameter (dpcmPlaneSize ctx n).2 blockMean.1
          (dpcmPlaneSize ctx n).1 0 [] rice.2)

/-! ### What a decoded plane holds -/

theorem dpcmSample_mem (bits : Nat) (left top topleft blockMean : Int) (code : Nat) :
    0 ≤ dpcmSample bits left top topleft blockMean code ∧
      dpcmSample bits left top topleft blockMean code < 2 ^ bits :=
  ⟨Int.emod_nonneg _ (pow_pos two_pos _).ne', Int.emod_lt_of_pos _ (pow_pos two_pos _)⟩

theorem dpcmRow_appends (bits riceParameter w : Nat) (blockMean : Int) (i : Nat) :
    ∀ cols output top samples gb samples' gb',
      dpcmRow bits riceParameter w blockMean i cols output top samples gb = .ok (samples', gb') →
      ∃ added, samples' = samples ++ added ∧ added.length = cols ∧
        ∀ v ∈ added, 0 ≤ v ∧ v < 2 ^ bits := by
  intro cols
  induction cols with
  | zero =>
    intro _ _ samples _ _ _ decoded
    cases decoded
    exact ⟨[], by simp, rfl, by simp⟩
  | succ cols ih =>
    intro output top samples gb samples' gb' decoded
    simp only [dpcmRow] at decoded
    split at decoded
    · cases decoded
    · obtain ⟨added, grown, counted, fits⟩ := ih _ _ _ _ _ _ decoded
      refine ⟨_ :: added, by rw [grown, List.append_assoc, List.singleton_append],
        by simp [counted], List.forall_mem_cons.mpr ⟨dpcmSample_mem _ _ _ _ _ _, fits⟩⟩

theorem dpcmRows_appends (bits riceParameter w : Nat) (blockMean : Int) :
    ∀ rows i samples gb samples' gb',
      dpcmRows bits riceParameter w blockMean rows i samples gb = .ok (samples', gb') →
      ∃ added, samples' = samples ++ added ∧ added.length = rows * w ∧
        ∀ v ∈ added, 0 ≤ v ∧ v < 2 ^ bits := by
  intro rows
  induction rows with
  | zero =>
    intro _ samples _ _ _ decoded
    cases decoded
    exact ⟨[], by simp, by simp, by simp⟩
  | succ rows ih =>
    intro i samples gb samples' gb' decoded
    simp only [dpcmRows] at decoded
    split at decoded
    · cases decoded
    · rename_i rowSamples _ row
      obtain ⟨first, rfl, firstCount, firstFits⟩ := dpcmRow_appends _ _ _ _ _ _ _ _ _ _ _ _ row
      obtain ⟨added, rfl, counted, fits⟩ := ih _ _ _ _ _ decoded
      refine ⟨first ++ added, by simp, by simp [firstCount, counted]; ring, ?_⟩
      intro v member
      rcases List.mem_append.mp member with inFirst | inAdded
      exacts [firstFits v inFirst, fits v inAdded]

/-- A whole plane of component `n` in range: one sample for each position, each below
`2^bits_per_raw_sample`. -/
def DpcmContext.PlaneFits (ctx : DpcmContext) (n : Fin 3) (plane : List Int) : Prop :=
  plane.length = (dpcmPlaneSize ctx n).1 * (dpcmPlaneSize ctx n).2 ∧
    ∀ v ∈ plane, 0 ≤ v ∧ v < 2 ^ ctx.studio.bitsPerRawSample

/-- **A decoded plane is whole and in range.** -/
theorem mpeg4DecodeDpcmMacroblock_plane {ctx : DpcmContext} {lastDc : Fin 3 → Int} {n : Fin 3}
    {gb gb' : GetBitContext} {samples : List Int}
    (decoded : (mpeg4DecodeDpcmMacroblock ctx lastDc n gb).2 = .ok (samples, gb')) :
    ctx.PlaneFits n samples := by
  simp only [mpeg4DecodeDpcmMacroblock] at decoded
  split_ifs at decoded
  all_goals
    obtain ⟨added, rfl, counted, fits⟩ := dpcmRows_appends _ _ _ _ _ _ _ _ _ _ decoded
    exact ⟨by simpa using counted, by simpa using fits⟩

/-! ### The residual words

A residual code is read as a quotient in unary and a suffix, or as an escape: eleven zeros,
a one, and the code in `bits_per_raw_sample` bits. -/

theorem getUnary_of_ahead (q : Nat) : ∀ remaining i (gb : GetBitContext) (after : List Bool),
    q < remaining → gb.ahead = List.replicate q false ++ true :: after →
      getUnary true remaining i gb = (i + q, gb.skipBits (q + 1)) := by
  induction q with
  | zero =>
    intro remaining i gb after within ahead
    obtain ⟨remaining, rfl⟩ := Nat.exists_eq_add_of_lt within
    simp only [getUnary, getBits1_of_ahead ahead, if_true, Nat.add_zero]
  | succ q ih =>
    intro remaining i gb after within ahead
    obtain ⟨remaining, rfl⟩ : ∃ left, remaining = left + 1 := ⟨remaining - 1, by omega⟩
    have first : gb.ahead = false :: (List.replicate q false ++ true :: after) := by
      rw [ahead, List.replicate_succ, List.cons_append]
    have rest : (gb.skipBits 1).ahead = _ := @ahead_skipBits gb [false] _ first
    simp only [getUnary, getBits1_of_ahead first, Bool.false_eq_true, if_false,
      ih remaining (i + 1) _ after (by omega) rest, skipBits_skipBits]
    exact Prod.ext (by omega) (congrArg gb.skipBits (by omega))

/-- The escaped word of a code: eleven zeros, a one, and the code in `bits` bits. -/
def dpcmEscapeWord (bits code : Nat) : List Bool :=
  List.replicate 11 false ++ true :: codeBits bits code

@[simp] theorem length_dpcmEscapeWord (bits code : Nat) :
    (dpcmEscapeWord bits code).length = 12 + bits := by
  simp only [dpcmEscapeWord, List.length_append, List.length_replicate, List.length_cons,
    length_codeBits]
  omega

theorem dpcmResidualCode_escape {bits code : Nat} (riceParameter : Nat) {gb : GetBitContext}
    {after : List Bool} (fits : code < 2 ^ bits)
    (ahead : gb.ahead = dpcmEscapeWord bits code ++ after) :
    dpcmResidualCode bits riceParameter gb = .ok (code, gb.skipBits (12 + bits)) := by
  have layout : gb.ahead = (List.replicate 11 false ++ [true]) ++ (codeBits bits code ++ after) := by
    simp only [ahead, dpcmEscapeWord, List.append_assoc, List.cons_append, List.singleton_append,
      List.nil_append]
  have unary : getUnary true 12 0 gb = (11, gb.skipBits 12) :=
    getUnary_of_ahead 11 12 0 gb _ (by omega) (by simpa using layout)
  have rest : (gb.skipBits 12).ahead = codeBits bits code ++ after := ahead_skipBits layout
  simp only [dpcmResidualCode, unary, if_true, getBits_of_ahead rest, Nat.mod_eq_of_lt fits,
    skipBits_skipBits]

/-! ### Every plane in range has a bitstream

The escape coder below is not in the source: it is the inverse the decoder admits, stated
to show that the decoder reaches every plane of in-range samples. -/

/-- The code of a signed residual: twice a residual that is not negative, an odd code for a
negative one. -/
def dpcmCodeOf (residual : Int) : Nat :=
  if 0 ≤ residual then (2 * residual).toNat else (-2 * residual - 1).toNat

theorem dpcmSignedResidual_codeOf (residual : Int) :
    dpcmSignedResidual (dpcmCodeOf residual) = residual := by
  unfold dpcmSignedResidual dpcmCodeOf
  rw [shiftRight_eq_ediv, Nat.shiftRight_eq_div_pow]
  split_ifs <;> omega

/-- The escape code of sample `v` at the neighbours `left`, `top` and `topleft`: the residual
`v - p`, or `p - v` where the decoder negates, centred into `bits` bits. -/
def dpcmEscapeCode (bits : Nat) (left top topleft blockMean v : Int) : Nat :=
  let p := dpcmPredictor left top topleft
  let residual := if dpcmMidpoint left top topleft blockMean p > p then p - v else v - p
  dpcmCodeOf ((residual + 2 ^ (bits - 1)) % 2 ^ bits - 2 ^ (bits - 1))

theorem centred_emod {m half r : Int} (double : m = 2 * half) (positive : 0 < half) :
    -half ≤ (r + half) % m - half ∧ (r + half) % m - half < half ∧
      ∃ q, (r + half) % m - half = r - m * q := by
  have low := Int.emod_nonneg (r + half) (show m ≠ 0 by omega)
  have high := Int.emod_lt_of_pos (r + half) (show 0 < m by omega)
  have split := Int.emod_add_ediv (r + half) m
  exact ⟨by omega, by omega, (r + half) / m, by linarith⟩

theorem sub_mul_emod_of_mem {m v q : Int} (fits : 0 ≤ v ∧ v < m) : (v - m * q) % m = v := by
  rw [sub_eq_add_neg, ← mul_neg, Int.add_mul_emod_self_left, Int.emod_eq_of_lt fits.1 fits.2]

theorem dpcmCodeOf_centred_lt {bits : Nat} (positive : 0 < bits) (residual : Int) :
    dpcmCodeOf ((residual + 2 ^ (bits - 1)) % 2 ^ bits - 2 ^ (bits - 1)) < 2 ^ bits := by
  have double : (2 : Int) ^ bits = 2 * 2 ^ (bits - 1) := by
    rw [← pow_succ', Nat.sub_add_cancel positive]
  obtain ⟨low, high, -⟩ := centred_emod (r := residual) double (pow_pos two_pos _)
  have coded : (dpcmCodeOf ((residual + 2 ^ (bits - 1)) % 2 ^ bits - 2 ^ (bits - 1)) : Int) <
      2 ^ bits := by
    unfold dpcmCodeOf
    split_ifs <;> omega
  exact_mod_cast coded

theorem dpcmEscapeCode_lt {bits : Nat} (positive : 0 < bits) (left top topleft blockMean v : Int) :
    dpcmEscapeCode bits left top topleft blockMean v < 2 ^ bits :=
  dpcmCodeOf_centred_lt positive _

theorem dpcmSample_escapeCode {bits : Nat} (positive : 0 < bits) (left top topleft blockMean : Int)
    {v : Int} (fits : 0 ≤ v ∧ v < 2 ^ bits) :
    dpcmSample bits left top topleft blockMean (dpcmEscapeCode bits left top topleft blockMean v) =
      v := by
  have double : (2 : Int) ^ bits = 2 * 2 ^ (bits - 1) := by
    rw [← pow_succ', Nat.sub_add_cancel positive]
  unfold dpcmSample dpcmEscapeCode
  generalize dpcmPredictor left top topleft = p
  by_cases negated : dpcmMidpoint left top topleft blockMean p > p
  · obtain ⟨q, centred⟩ := (centred_emod (r := p - v) double (pow_pos two_pos _)).2.2
    simp only [negated, if_true, dpcmSignedResidual_codeOf, centred]
    rw [show -1 * (p - v - 2 ^ bits * q) + p = v - 2 ^ bits * -q by ring]
    exact sub_mul_emod_of_mem fits
  · obtain ⟨q, centred⟩ := (centred_emod (r := v - p) double (pow_pos two_pos _)).2.2
    simp only [negated, if_false, dpcmSignedResidual_codeOf, centred]
    rw [show v - p - 2 ^ bits * q + p = v - 2 ^ bits * q by ring]
    exact sub_mul_emod_of_mem fits

/-- The neighbours of row `i`, column `j` of a plane `w` samples wide, read from the plane,
with `mid` outside it: `left`, `top` (`w` samples back) and `topleft`. -/
def dpcmNeighbours (mid : Int) (w : Nat) (plane : List Int) (i j : Nat) : Int × Int × Int :=
  (if j = 0 then mid else plane.getD (i * w + j - 1) 0,
    if i = 0 then mid else plane.getD (i * w + j - w) 0,
    if i = 0 ∨ j = 0 then mid else plane.getD (i * w + j - w - 1) 0)

/-- The escape word of the sample at row `i`, column `j`, from its neighbours in the plane. -/
def dpcmEscapeWordAt (bits w : Nat) (blockMean : Int) (plane : List Int) (i j : Nat) :
    List Bool :=
  let near := dpcmNeighbours (2 ^ (bits - 1)) w plane i j
  dpcmEscapeWord bits
    (dpcmEscapeCode bits near.1 near.2.1 near.2.2 blockMean (plane.getD (i * w + j) 0))

/-- The escape words of the first `rows` rows of a plane, in the decoder's order. -/
def dpcmEscapeWords (bits w : Nat) (blockMean : Int) (plane : List Int) (rows : Nat) :
    List Bool :=
  (List.range rows).flatMap fun i => (List.range w).flatMap (dpcmEscapeWordAt bits w blockMean plane i)

@[simp] theorem length_dpcmEscapeWordAt (bits w : Nat) (blockMean : Int) (plane : List Int)
    (i j : Nat) : (dpcmEscapeWordAt bits w blockMean plane i j).length = 12 + bits :=
  length_dpcmEscapeWord _ _

theorem length_flatMap_dpcmEscapeWordAt (bits w : Nat) (blockMean : Int) (plane : List Int)
    (i : Nat) (positions : List Nat) :
    (positions.flatMap (dpcmEscapeWordAt bits w blockMean plane i)).length =
      positions.length * (12 + bits) := by
  induction positions with
  | nil => simp
  | cons k positions ih =>
    simp only [List.flatMap_cons, List.length_append, length_dpcmEscapeWordAt, ih,
      List.length_cons]
    ring

theorem getD_take_of_lt {plane : List Int} {k m : Nat} (before : m < k) :
    (plane.take k).getD m 0 = plane.getD m 0 := by
  simp only [List.getD_eq_getElem?_getD, List.getElem?_take_of_lt before]

theorem take_succ_getD {plane : List Int} {k : Nat} (inside : k < plane.length) :
    plane.take k ++ [plane.getD k 0] = plane.take (k + 1) := by
  rw [List.take_succ, List.getElem?_eq_getElem inside, List.getD_eq_getElem _ _ inside]
  rfl

theorem dpcmRow_escapes {bits : Nat} (positive : 0 < bits) (riceParameter w : Nat)
    (blockMean : Int) {plane : List Int} (fits : ∀ v ∈ plane, 0 ≤ v ∧ v < 2 ^ bits) (i : Nat)
    (within : i * w + w ≤ plane.length) (after : List Bool) :
    ∀ cols j (gb : GetBitContext), j + cols = w →
      gb.ahead = (List.range' j cols).flatMap (dpcmEscapeWordAt bits w blockMean plane i) ++ after →
      dpcmRow bits riceParameter w blockMean i cols
          (dpcmNeighbours (2 ^ (bits - 1)) w plane i j).1
          (dpcmNeighbours (2 ^ (bits - 1)) w plane i j).2.2 (plane.take (i * w + j)) gb =
        .ok (plane.take (i * w + w), gb.skipBits (cols * (12 + bits))) := by
  intro cols
  induction cols with
  | zero =>
    intro j gb columns _
    obtain rfl : j = w := by omega
    rw [Nat.zero_mul, skipBits_zero]
    rfl
  | succ cols ih =>
    intro j gb columns ahead
    have inside : i * w + j < plane.length := by omega
    rw [List.range'_succ, List.flatMap_cons, List.append_assoc] at ahead
    have member : plane.getD (i * w + j) 0 ∈ plane := by
      rw [List.getD_eq_getElem _ _ inside]; exact List.getElem_mem inside
    have code := dpcmResidualCode_escape riceParameter (dpcmEscapeCode_lt positive _ _ _ _ _) ahead
    have rest := ahead_skipBits ahead
    rw [length_dpcmEscapeWordAt] at rest
    have above : (if i ≠ 0 then (plane.take (i * w + j)).getD ((plane.take (i * w + j)).length - w) 0
        else (dpcmNeighbours (2 ^ (bits - 1)) w plane i j).2.2) =
        (dpcmNeighbours (2 ^ (bits - 1)) w plane i j).2.1 := by
      by_cases first : i = 0
      · simp [first, dpcmNeighbours]
      · have : w ≤ i * w := Nat.le_mul_of_pos_left w (Nat.pos_of_ne_zero first)
        rw [List.length_take_of_le inside.le, getD_take_of_lt (by omega)]
        simp [first, dpcmNeighbours]
    have nextLeft : (dpcmNeighbours (2 ^ (bits - 1)) w plane i (j + 1)).1 =
        plane.getD (i * w + j) 0 := by
      simp [dpcmNeighbours]
    have nextTopleft : (dpcmNeighbours (2 ^ (bits - 1)) w plane i (j + 1)).2.2 =
        (dpcmNeighbours (2 ^ (bits - 1)) w plane i j).2.1 := by
      simp only [dpcmNeighbours, Nat.add_one_ne_zero, or_false]
      split_ifs <;> first | rfl | (congr 1; omega)
    simp only [dpcmRow, code, above]
    rw [dpcmSample_escapeCode positive _ _ _ _ (fits _ member), take_succ_getD inside,
      ← nextLeft, ← nextTopleft, show i * w + j + 1 = i * w + (j + 1) from rfl,
      ih (j + 1) _ (by omega) rest, skipBits_skipBits,
      show 12 + bits + cols * (12 + bits) = (cols + 1) * (12 + bits) by ring]

theorem dpcmRows_escapes {bits : Nat} (positive : 0 < bits) (riceParameter w : Nat)
    (blockMean : Int) {plane : List Int} (fits : ∀ v ∈ plane, 0 ≤ v ∧ v < 2 ^ bits)
    (after : List Bool) :
    ∀ rows i (gb : GetBitContext), (i + rows) * w ≤ plane.length →
      gb.ahead = (List.range' i rows).flatMap
          (fun i => (List.range w).flatMap (dpcmEscapeWordAt bits w blockMean plane i)) ++ after →
      dpcmRows bits riceParameter w blockMean rows i (plane.take (i * w)) gb =
        .ok (plane.take ((i + rows) * w), gb.skipBits (rows * w * (12 + bits))) := by
  intro rows
  induction rows with
  | zero => intro i gb _ _; simp [dpcmRows]
  | succ rows ih =>
    intro i gb within ahead
    rw [List.range'_succ, List.flatMap_cons, List.append_assoc] at ahead
    have row := dpcmRow_escapes positive riceParameter w blockMean fits i
      (by rw [Nat.add_succ, Nat.succ_mul] at within; nlinarith) _ w 0 gb (Nat.zero_add w)
      (by rwa [← List.range_eq_range'])
    have rest := ahead_skipBits ahead
    rw [length_flatMap_dpcmEscapeWordAt, List.length_range] at rest
    simp only [dpcmNeighbours, if_true, or_true, Nat.add_zero] at row
    simp only [dpcmRows, row]
    rw [show i * w + w = (i + 1) * w by ring,
      ih (i + 1) _ (by rw [Nat.add_succ] at within; linarith) rest,
      skipBits_skipBits, show i + 1 + rows = i + (rows + 1) by ring,
      show w * (12 + bits) + rows * w * (12 + bits) = (rows + 1) * w * (12 + bits) by ring]

/-- **The escape-coded plane decodes to itself.** Before a block mean in
`1 .. 2^bits_per_raw_sample - 1`, an accepted Rice parameter code and the escape words of a
plane of in-range samples, `mpeg4_decode_dpcm_macroblock` returns that plane and sets
`last_dc[n]` from the mean. -/
theorem mpeg4DecodeDpcmMacroblock_escapes (ctx : DpcmContext) (lastDc : Fin 3 → Int) (n : Fin 3)
    {plane : List Int} (fits : ∀ v ∈ plane, 0 ≤ v ∧ v < 2 ^ ctx.studio.bitsPerRawSample)
    (size : plane.length = (dpcmPlaneSize ctx n).1 * (dpcmPlaneSize ctx n).2)
    {blockMean riceCode : Nat} (mean : 0 < blockMean ∧ blockMean < 2 ^ ctx.studio.bitsPerRawSample)
    (rice : 0 < riceCode ∧ riceCode ≤ 11 ∨ riceCode = 15) {gb : GetBitContext}
    {after : List Bool}
    (ahead : gb.ahead = codeBits ctx.studio.bitsPerRawSample blockMean ++ codeBits 4 riceCode ++
      dpcmEscapeWords ctx.studio.bitsPerRawSample (dpcmPlaneSize ctx n).2 blockMean plane
        (dpcmPlaneSize ctx n).1 ++ after) :
    mpeg4DecodeDpcmMacroblock ctx lastDc n gb =
      (Function.update lastDc n
          (blockMean * 2 ^ (ctx.studio.dctPrecision + ctx.studio.intraDcPrecision)),
        .ok (plane, gb.skipBits (ctx.studio.bitsPerRawSample + 4 +
          plane.length * (12 + ctx.studio.bitsPerRawSample)))) := by
  have positive : 0 < ctx.studio.bitsPerRawSample := by rw [ctx.studio.tenBit]; omega
  rw [List.append_assoc, List.append_assoc] at ahead
  have meanRead := getBits_of_ahead ahead
  have riceAhead := ahead_skipBits ahead
  rw [length_codeBits] at riceAhead
  have riceRead := getBits_of_ahead riceAhead
  have planeAhead := ahead_skipBits riceAhead
  rw [length_codeBits, skipBits_skipBits] at planeAhead
  have rows := dpcmRows_escapes positive (if riceCode = 15 then 0 else riceCode)
    (dpcmPlaneSize ctx n).2 blockMean fits after (dpcmPlaneSize ctx n).1 0 _ (by simp [size])
    (by rwa [← List.range_eq_range'])
  simp only [Nat.zero_mul, List.take_zero, Nat.zero_add, ← size, List.take_length] at rows
  simp only [mpeg4DecodeDpcmMacroblock, meanRead, riceRead, getBits_snd, skipBits_skipBits,
    Nat.mod_eq_of_lt mean.2, Nat.mod_eq_of_lt (show riceCode < 2 ^ 4 by omega),
    if_neg (Nat.pos_iff_ne_zero.mp mean.1), if_neg (show riceCode ≠ 0 by omega),
    if_neg (show ¬11 < (if riceCode = 15 then 0 else riceCode) by split_ifs <;> omega), rows]

/-- **The planes the DPCM decoder produces are exactly the whole planes of in-range
samples.** -/
theorem dpcmPlane_decodable (ctx : DpcmContext) (lastDc : Fin 3 → Int) (n : Fin 3)
    (plane : List Int) :
    (∃ gb gb', (mpeg4DecodeDpcmMacroblock ctx lastDc n gb).2 = .ok (plane, gb')) ↔
      ctx.PlaneFits n plane := by
  constructor
  · rintro ⟨gb, gb', decoded⟩
    exact mpeg4DecodeDpcmMacroblock_plane decoded
  · rintro ⟨size, fits⟩
    have wide : 1 < 2 ^ ctx.studio.bitsPerRawSample := by rw [ctx.studio.tenBit]; norm_num
    exact ⟨_, _, congrArg Prod.snd (@mpeg4DecodeDpcmMacroblock_escapes ctx lastDc n plane fits size 1 1
      ⟨Nat.one_pos, wide⟩ (Or.inl ⟨Nat.one_pos, by omega⟩)
      ⟨codeBits ctx.studio.bitsPerRawSample 1 ++ codeBits 4 1 ++
        dpcmEscapeWords ctx.studio.bitsPerRawSample (dpcmPlaneSize ctx n).2 1 plane
          (dpcmPlaneSize ctx n).1, 0⟩ [] (by simp [GetBitContext.ahead]))⟩

end Librempeg.Avcodec.Mpeg4Video
