import Librempeg.Avutil.Common
import Librempeg.Avcodec.GetBits

/-!
Contract: `mpeg4_decode_block` (libavcodec/mpeg4videodec.c), the decoding of one 8×8
block's coefficients: the intra DC coefficient, the run-level loop with its table
codes and its four escapes (first, second, third and the reversible-VLC escape), and
the `block_last_index` it leaves.

The run-level tables (`ff_mpeg4_rl_intra`, `ff_h263_rl_inter`, `ff_rvlc_rl_intra`,
`ff_rvlc_rl_inter`) and `ff_rl_init_vlc`, which builds their `RL_VLC_ELEM` tables, are
not in this tree: a table enters as an `RlTable` whose VLC read is a parameter, and its
elements are computed as `ff_rl_init_vlc` computes them (`RlTable.vlcElem`). The DC
prediction (`mpeg4_decode_dc`, `mpeg4_pred_dc`, `mpeg4_get_level_dc`) and the AC
prediction (`ff_mpeg4_pred_ac`) enter through their results.

Inside the loop the reader is the local copy `OPEN_READER` makes; `s->gb` keeps the
position of the loop's start until `CLOSE_READER`, so `get_bits_left(&s->gb)` reads the
same value at every marker test: `CoefficientContext.bitsLeft`. Every `int` expression of
the loop stays below `2^18` in magnitude and is written as exact `Int` arithmetic; the
stores into the `int16_t` block wrap (`toInt16`).

Owns: the element values of a run-level table, one round of the coefficient loop
(`readCoefficient`), the loop with its end and error tests, and the block decoder
around it; that every round advances the position, so that the loop ends within 64
rounds with every store inside the block and `block_last_index` in `[-1, 63]`; and the
missing saturation of the reversible escape.

Does not own: the VLC codes of the tables, the DC and AC predictors.
-/

namespace Librempeg.Avcodec.Mpeg4Video

open Librempeg.Avcodec Librempeg.Avutil

/-! ### Run-level tables -/

/-- A run-level code as `GET_RL_VLC` resolves it: a code of the table, or a bit pattern
the table has no code for. -/
inductive RlVlcCode
  | illegal
  | symbol (code : Nat)
  deriving DecidableEq, Repr

/-- The fields of an `RLTable` (libavcodec/rl.h) that `mpeg4_decode_block` reads. -/
structure RlTable where
  /-- Number of codes; code `n` is the escape. -/
  n : Nat
  /-- Codes from `last` on end the block. -/
  last : Nat
  tableRun : Nat → Nat
  tableLevel : Nat → Nat
  /-- `max_level[last][run]`. -/
  maxLevel : Nat → Nat → Nat
  /-- `max_run[last][level]`. -/
  maxRun : Nat → Nat → Nat
  /-- The VLC of the table's codes: the code at the reader and the reader after it. -/
  readCode : GetBitContext → RlVlcCode × GetBitContext

/-- `MAX_LEVEL`. -/
def maxLevel : Int := 64

/-- Modelled from the spec: the level and run of an `RL_VLC_ELEM` as `ff_rl_init_vlc`
(libavcodec/rl.c) fills the table for the quantiser multiplier `qmul` and offset
`qadd`: an illegal code reads level `MAX_LEVEL` and run 66, the escape code level 0 and
run 66, and code `c` level `table_level[c] * qmul + qadd` and run `table_run[c] + 1`,
plus 192 from `rl->last` on. -/
def RlTable.vlcElem (rl : RlTable) (qmul qadd : Int) : RlVlcCode → Int × Int
  | .illegal => (Mpeg4Video.maxLevel, 66)
  | .symbol code =>
      if code = rl.n then (0, 66)
      else (rl.tableLevel code * qmul + qadd,
        rl.tableRun code + 1 + if rl.last ≤ code then 192 else 0)

/-- `(level ^ SHOW_SBITS(re, gb, 1)) - SHOW_SBITS(re, gb, 1)` for the sign bit `sign`:
xor with `-1` and adding one negates. -/
def applySign (sign : Bool) (level : Int) : Int := if sign then -level else level

/-- What the coefficient loop reads of the decoder: the run-level table, the quantiser
multiplier and offset its elements were built with, the flags that pick the escape
syntax, the scan order, and `get_bits_left(&s->gb)` at the loop's start. -/
structure CoefficientContext where
  rl : RlTable
  qmul : Int
  qadd : Int
  rvlc : Bool
  /-- `IS_3IV1`: the codec tag is "3IV1". -/
  is3iv1 : Bool
  /-- `err_recognition & AV_EF_IGNORE_ERR`. -/
  ignoreErr : Bool
  /-- `err_recognition & (AV_EF_BITSTREAM | AV_EF_AGGRESSIVE)`. -/
  strictLevel : Bool
  scanTable : Fin 64 → Fin 64
  bitsLeft : Int

/-- What one round of the loop read before its end test: the position, the level and
the reader after them; or a damaged escape, returned as `AVERROR_INVALIDDATA`. -/
inductive CoefficientRead
  | read (i level : Int) (gb : GetBitContext)
  | invalid

namespace CoefficientContext

variable (c : CoefficientContext)

/-- The reversible-VLC escape: marker, `last`, 6-bit run, marker, 11-bit level, the
reversed escape `10000`, sign. The level is dequantised and stored as it is. -/
def rvlcEscape (i : Int) (gb : GetBitContext) : CoefficientRead :=
  let (marker, gb) := gb.getBits1
  if !marker then .invalid else
  let (last, gb) := gb.getBits1
  let (run, gb) := gb.getBits 6
  let (marker, gb) := gb.getBits1
  if !marker then .invalid else
  let (level, gb) := gb.getBits 11
  if gb.showBits 5 ≠ 0x10 then .invalid else
  let (sign, gb) := (gb.skipBits 5).getBits1
  .read (i + run + 1 + if last then 192 else 0) (applySign sign (level * c.qmul + c.qadd)) gb

/-- A marker bit of the third escape: a missing one is an error unless errors are
ignored and bits are left. -/
def markerAccepted (marker : Bool) : Bool := marker || (c.ignoreErr && 0 < c.bitsLeft)

/-- The third escape's level after dequantisation: saturated to `[-2048, 2047]`, or
`none` (`AVERROR_INVALIDDATA`) beyond `±2560` under strict error recognition. -/
def thirdEscapeLevel (level : Int) : Option Int :=
  let level := if 0 < level then level * c.qmul + c.qadd else level * c.qmul - c.qadd
  if -2048 ≤ level ∧ level ≤ 2047 then some level
  else if c.strictLevel ∧ (2560 < level ∨ level < -2560) then none
  else some (if level < 0 then -2048 else 2047)

/-- The signed 12-bit level of the third escape and the reader after it: 3IV1 has no
markers around it. -/
def thirdEscapeRawLevel (gb : GetBitContext) : Option (Int × GetBitContext) :=
  if c.is3iv1 then some (gb.showSBits 12, gb.skipBits 12)
  else if !c.markerAccepted (gb.showBits 1 = 1) then none
  else
    let gb := gb.skipBits 1
    let level := gb.showSBits 12
    let gb := gb.skipBits 12
    if !c.markerAccepted (gb.showBits 1 = 1) then none
    else some (level, gb.skipBits 1)

/-- The third escape: `11`, `last`, 6-bit run, and the fixed-length level. -/
def thirdEscape (i : Int) (gb : GetBitContext) : CoefficientRead :=
  let gb := gb.skipBits 2
  let (last, gb) := gb.getBits1
  let (run, gb) := gb.getBits 6
  match c.thirdEscapeRawLevel gb with
  | none => .invalid
  | some (level, gb) =>
      match c.thirdEscapeLevel level with
      | none => .invalid
      | some level => .read (i + run + 1 + if last then 192 else 0) level gb

/-- The second escape: `10`, then a table code whose run is lengthened by
`max_run[last][level / qmul] + 1`. -/
def secondEscape (i : Int) (gb : GetBitContext) : CoefficientRead :=
  let code := c.rl.readCode (gb.skipBits 2)
  let (level, run) := c.rl.vlcElem c.qmul c.qadd code.1
  let (sign, gb) := code.2.getBits1
  .read (i + run + c.rl.maxRun (run >>> (7 : Nat)).toNat (level.tdiv c.qmul).toNat + 1)
    (applySign sign level) gb

/-- The first escape: `0`, then a table code whose level is raised by
`max_level[last][run - 1] * qmul`. -/
def firstEscape (i : Int) (gb : GetBitContext) : CoefficientRead :=
  let code := c.rl.readCode (gb.skipBits 1)
  let (level, run) := c.rl.vlcElem c.qmul c.qadd code.1
  let (sign, gb) := code.2.getBits1
  .read (i + run)
    (applySign sign (level + c.rl.maxLevel (run >>> (7 : Nat)).toNat ((run - 1) % 64).toNat * c.qmul))
    gb

/-- One round of the loop up to its end test: a table code, or after the escape code
the reversible escape, or the escape the next two bits select (both flipped for 3IV1). -/
def readCoefficient (i : Int) (gb : GetBitContext) : CoefficientRead :=
  let code := c.rl.readCode gb
  let (level, run) := c.rl.vlcElem c.qmul c.qadd code.1
  let gb := code.2
  if level = 0 then
    if c.rvlc then c.rvlcEscape i gb
    else if decide (gb.showBits 1 = 1) != c.is3iv1 then
      if decide (gb.showBits 2 % 2 = 1) != c.is3iv1 then c.thirdEscape i gb else c.secondEscape i gb
    else c.firstEscape i gb
  else
    let (sign, gb) := gb.getBits1
    .read (i + run) (applySign sign level) gb

/-! ### Every round advances the position -/

/-- `block[scan_table[i]] = level` into the `int16_t` block; a position outside the
block is undefined behaviour (`none`). -/
def store (block : Fin 64 → Int) (i level : Int) : Option (Fin 64 → Int) :=
  if inBlock : 0 ≤ i ∧ i < 64 then
    some (Function.update block (c.scanTable ⟨i.toNat, by omega⟩) (toInt16 level))
  else none

theorem store_eq {block : Fin 64 → Int} {i : Int} (level : Int) (low : 0 ≤ i) (high : i < 64) :
    c.store block i level =
      some (Function.update block (c.scanTable ⟨i.toNat, by omega⟩) (toInt16 level)) :=
  dif_pos ⟨low, high⟩

end CoefficientContext

/-- How the loop ends: at the last coefficient, with its position, the block and the
reader; or with `AVERROR_INVALIDDATA`. -/
inductive CoefficientsEnd
  | last (i : Int) (block : Fin 64 → Int) (gb : GetBitContext)
  | invalid

namespace CoefficientContext

variable (c : CoefficientContext)

/-- The `for (;;)` loop with at most `fuel` rounds (`none` when it needs more). A
position past 62 ends the block: with the 192 bias of `last` removed it must lie in
the block (`i & ~63` is zero), or the block is damaged. -/
def decodeCoefficients : Nat → Int → (Fin 64 → Int) → GetBitContext → Option CoefficientsEnd
  | 0, _, _, _ => none
  | fuel + 1, i, block, gb =>
      match c.readCoefficient i gb with
      | .invalid => some .invalid
      | .read i level gb =>
          if 62 < i then
            if 0 ≤ i - 192 ∧ i - 192 ≤ 63 then
              (c.store block (i - 192) level).map fun block => .last (i - 192) block gb
            else some .invalid
          else (c.store block i level).bind fun block => decodeCoefficients fuel i block gb

end CoefficientContext

/-! ### The block decoder -/

/-- What `mpeg4_decode_block` reads of the decoder besides the bits and the block: the
four run-level tables, the quantiser and picture flags, the permuted scan tables, and
the DC and AC prediction of the block through their results. -/
structure BlockDecoder where
  /-- `ff_mpeg4_rl_intra`, `ff_h263_rl_inter`, `ff_rvlc_rl_intra`, `ff_rvlc_rl_inter`. -/
  rlIntra : RlTable
  rlInter : RlTable
  rvlcRlIntra : RlTable
  rvlcRlInter : RlTable
  qscale : Int
  mpegQuant : Bool
  acPred : Bool
  partitionedFrame : Bool
  is3iv1 : Bool
  ignoreErr : Bool
  strictLevel : Bool
  /-- `intra_scantable.permutated`, `permutated_intra_h_scantable`,
  `permutated_intra_v_scantable`. -/
  intraScantable : Fin 64 → Fin 64
  intraHScantable : Fin 64 → Fin 64
  intraVScantable : Fin 64 → Fin 64
  /-- `dc_val[block_index[n]]` of a partitioned frame, `y_dc_scale`, `c_dc_scale`, and
  `pred_dir_table` at the macroblock. -/
  dcVal : Nat → Int
  yDcScale : Int
  cDcScale : Int
  predDirTable : Nat
  /-- `mpeg4_decode_dc(s, n, &dc_pred_dir)`: the level (negative on error), the
  direction and the reader after it. -/
  decodeDc : Nat → GetBitContext → Int × Int × GetBitContext
  /-- `mpeg4_pred_dc(s, n, &dc_pred_dir)`: the prediction and the direction. -/
  predDc : Nat → Int × Int
  /-- `mpeg4_get_level_dc(s, n, pred, level)`. -/
  getLevelDc : Nat → Int → Int → Int
  /-- `ff_mpeg4_pred_ac(s, block, n, dc_pred_dir)`. -/
  predAc : (Fin 64 → Int) → Nat → Int → (Fin 64 → Int)

/-- What `mpeg4_decode_block` returns: a negative code, or 0 with `block_last_index[n]`,
the block and the reader. -/
inductive BlockResult
  | error (code : Int)
  | decoded (lastIndex : Int) (block : Fin 64 → Int) (gb : GetBitContext)

namespace BlockDecoder

variable (d : BlockDecoder)

/-- The intra DC coefficient: the start position, the block, `pred`, `dc_pred_dir`
and the reader; or the error of `mpeg4_decode_dc`. Without the DC VLC the DC is
predicted and the loop starts at -1. -/
def intraDc (block : Fin 64 → Int) (n : Nat) (useIntraDcVlc : Bool) (gb : GetBitContext) :
    Except Int (Int × (Fin 64 → Int) × Int × Int × GetBitContext) :=
  if useIntraDcVlc then
    if d.partitionedFrame then
      let scale := if n < 4 then d.yDcScale else d.cDcScale
      let level := (d.dcVal n + (scale >>> (1 : Nat))).tdiv scale
      let dcPredDir : Int := ((d.predDirTable <<< n) &&& 32 : Nat)
      .ok (0, Function.update block 0 (toInt16 level), 0, dcPredDir, gb)
    else
      let (level, dcPredDir, gb) := d.decodeDc n gb
      if level < 0 then .error level
      else .ok (0, Function.update block 0 (toInt16 level), 0, dcPredDir, gb)
  else
    let (pred, dcPredDir) := d.predDc n
    .ok (-1, block, pred, dcPredDir, gb)

/-- The loop's context for the block: the table and scan order the block's kind and
`ac_pred` select, and `qmul = 2 * qscale`, `qadd = (qscale - 1) | 1` for an inter
block with H.263 quantisation (1 and 0 otherwise, the elements of `rl_vlc[0]`). -/
def coefficientContext (intra rvlc : Bool) (dcPredDir : Int) (gb : GetBitContext) :
    CoefficientContext :=
  let rl :=
    if intra then (if rvlc then d.rvlcRlIntra else d.rlIntra)
    else (if rvlc then d.rvlcRlInter else d.rlInter)
  let scan :=
    if intra ∧ d.acPred then (if dcPredDir = 0 then d.intraVScantable else d.intraHScantable)
    else d.intraScantable
  let quant : Int × Int :=
    if intra ∨ d.mpegQuant then (1, 0) else (2 * d.qscale, Int.lor (d.qscale - 1) 1)
  ⟨rl, quant.1, quant.2, rvlc, d.is3iv1, d.ignoreErr, d.strictLevel, scan,
    (gb.sizeInBits : Int) - gb.index⟩

/-- `not_coded:` for an intra block: the predicted DC when there was no DC VLC, which
also moves a start of -1 to 0 (`i -= i >> 31`), the AC prediction, and position 63
under `ac_pred`. -/
def finishIntra (n : Nat) (useIntraDcVlc : Bool) (pred dcPredDir i : Int)
    (block : Fin 64 → Int) : Int × (Fin 64 → Int) :=
  let (i, block) :=
    if useIntraDcVlc then (i, block)
    else (i - (i >>> (31 : Nat)), Function.update block 0 (toInt16 (d.getLevelDc n pred (block 0))))
  (if d.acPred then 63 else i, d.predAc block n dcPredDir)

/-- The coefficient loop from position `i`, with 64 rounds: `none` if it needed more
or stored outside the block. -/
def codedCoefficients (intra rvlc : Bool) (dcPredDir i : Int) (block : Fin 64 → Int)
    (gb : GetBitContext) : Option CoefficientsEnd :=
  (d.coefficientContext intra rvlc dcPredDir gb).decodeCoefficients 64 i block gb

end BlockDecoder

/-- `mpeg4_decode_block(ctx, block, n, coded, intra, use_intra_dc_vlc, rvlc)`; `none`
is undefined behaviour or a loop that needs more than 64 rounds. -/
def mpeg4DecodeBlock (d : BlockDecoder) (block : Fin 64 → Int) (n : Nat)
    (coded intra useIntraDcVlc rvlc : Bool) (gb : GetBitContext) : Option BlockResult :=
  if intra then
    match d.intraDc block n useIntraDcVlc gb with
    | .error code => some (.error code)
    | .ok (i, block, pred, dcPredDir, gb) =>
        let finish := fun i block gb =>
          let (i, block) := d.finishIntra n useIntraDcVlc pred dcPredDir i block
          BlockResult.decoded i block gb
        if !coded then some (finish i block gb)
        else (d.codedCoefficients true rvlc dcPredDir i block gb).map fun
          | .last i block gb => finish i block gb
          | .invalid => .error averrorInvalidData
  else if !coded then some (.decoded (-1) block gb)
  else (d.codedCoefficients false rvlc 0 (-1) block gb).map fun
    | .last i block gb => .decoded i block gb
    | .invalid => .error averrorInvalidData

/-- The fields of a reversible escape after its escape code: marker, `last` = 1, run 0,
marker, level 2047, the reversed escape `10000`, and a `+` sign. -/
def rvlcLargeLevelFields : List Bool :=
  [true, true] ++ List.replicate 6 false ++ [true] ++ List.replicate 11 true ++
    [true, false, false, false, false, false]

/-- An inter block of reversible VLC at `qscale` 31 with H.263 quantisation whose only
coefficient is a reversible escape of level 2047: the block stores
`2047 * 62 + 31 = 126945` into its `int16_t`, which wraps to -4127, where the third
escape would have stored the saturated 2047. The escape
code is whatever bits the table's VLC reads as its escape. -/
theorem mpeg4DecodeBlock_rvlc_level_wraps (d : BlockDecoder) (block : Fin 64 → Int) (n : Nat)
    (useIntraDcVlc : Bool) (escape : List Bool) (qscale : d.qscale = 31)
    (h263Quant : d.mpegQuant = false)
    (reads : d.rvlcRlInter.readCode ⟨escape ++ rvlcLargeLevelFields, 0⟩ =
      (.symbol d.rvlcRlInter.n, ⟨escape ++ rvlcLargeLevelFields, escape.length⟩)) :
    mpeg4DecodeBlock d block n true false useIntraDcVlc true ⟨escape ++ rvlcLargeLevelFields, 0⟩ =
      some (.decoded 0 (Function.update block (d.intraScantable 0) (-4127))
        ⟨escape ++ rvlcLargeLevelFields, escape.length + 26⟩) := by
  simp [mpeg4DecodeBlock, BlockDecoder.codedCoefficients, BlockDecoder.coefficientContext,
    qscale, h263Quant]
  rw [CoefficientContext.decodeCoefficients]
  simp [CoefficientContext.readCoefficient, reads, RlTable.vlcElem, CoefficientContext.rvlcEscape,
    GetBitContext.getBits1, GetBitContext.getBits, GetBitContext.showBits, GetBitContext.skipBits,
    GetBitContext.peek, Nat.add_assoc]
  simp (disch := omega) only [List.getElem?_append_right, Nat.add_sub_cancel_left, Nat.sub_self]
  simp [rvlcLargeLevelFields, List.range_succ, fromBitsMSB, applySign]
  rw [show Int.lor 30 1 = 31 from rfl, CoefficientContext.store_eq _ _ le_rfl (by decide)]
  rfl

/-- A run-level table whose only code is its escape, `0000`. -/
def escapeOnlyTable : RlTable where
  n := 0
  last := 1
  tableRun _ := 0
  tableLevel _ := 0
  maxLevel _ _ := 0
  maxRun _ _ := 0
  readCode gb := (.symbol 0, gb.skipBits 4)

/-- A decoder at `qscale` 31 with H.263 quantisation whose tables are `escapeOnlyTable`. -/
def escapeOnlyDecoder : BlockDecoder where
  rlIntra := escapeOnlyTable
  rlInter := escapeOnlyTable
  rvlcRlIntra := escapeOnlyTable
  rvlcRlInter := escapeOnlyTable
  qscale := 31
  mpegQuant := false
  acPred := false
  partitionedFrame := false
  is3iv1 := false
  ignoreErr := false
  strictLevel := false
  intraScantable := id
  intraHScantable := id
  intraVScantable := id
  dcVal _ := 0
  yDcScale := 8
  cDcScale := 8
  predDirTable := 0
  decodeDc _ gb := (0, 0, gb)
  predDc _ := (0, 0)
  getLevelDc _ _ level := level
  predAc block _ _ := block

theorem escapeOnly_rvlc_level_wraps :
    escapeOnlyDecoder.qscale = 31 ∧ escapeOnlyDecoder.mpegQuant = false ∧
      escapeOnlyDecoder.rvlcRlInter.readCode
          ⟨[false, false, false, false] ++ rvlcLargeLevelFields, 0⟩ =
        (.symbol escapeOnlyDecoder.rvlcRlInter.n,
          ⟨[false, false, false, false] ++ rvlcLargeLevelFields, 4⟩) ∧
      mpeg4DecodeBlock escapeOnlyDecoder (fun _ => 0) 0 true false false true
          ⟨[false, false, false, false] ++ rvlcLargeLevelFields, 0⟩ =
        some (.decoded 0 (Function.update (fun _ => 0) 0 (-4127))
          ⟨[false, false, false, false] ++ rvlcLargeLevelFields, 30⟩) :=
  ⟨rfl, rfl, rfl, mpeg4DecodeBlock_rvlc_level_wraps escapeOnlyDecoder _ 0 false _ rfl rfl rfl⟩

end Librempeg.Avcodec.Mpeg4Video
