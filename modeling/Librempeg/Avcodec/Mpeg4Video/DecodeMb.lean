import Librempeg.Avcodec.Mpeg4Video.PartitionPasses

/-!
Contract: `mpeg4_decode_mb` (libavcodec/mpeg4videodec.c), the decoder of one macroblock of a
VOP that is not data-partitioned. The P- and S-VOP branch: the `not_coded` bit and MCBPC
stuffing loop, skipped macroblocks (with global motion in a GMC S-VOP), the `mcsel` bit,
CBPY, the quantiser delta, `interlaced_dct`, and the three shapes of motion (global, one
16x16 or two field vectors, four 8x8 vectors) with the `>= 0xffff` check after every
`ff_h263_decode_motion`. The B-VOP branch: the reset of `last_mv` at the start of a row,
the macroblocks the next picture skipped, `modb`, `mb_type`, CBP, `dbquant`, field
selection, and the frame, field and direct vectors predicted from `last_mv`. The I-VOP
branch and the `intra:` path that P-VOPs jump to. The six blocks and the per-macroblock
end-of-slice check.

The VLC tables (`ff_h263_inter_MCBPC_vlc`, `ff_h263_intra_MCBPC_vlc`, `ff_h263_cbpy_vlc` and
the codes of `mb_type_b_vlc`), `ff_h263_pred_motion`, `ff_h263_decode_motion`, `get_amv`,
`ff_mpeg4_set_direct_mv` and the DC scale tables `ff_set_qscale` reads are not in this tree,
or read picture state the model does not keep: they enter as the readers of `MbEnv`. The
flags of `mb_type` (libavcodec/mpegutils.h) and `mv_dir` (libavcodec/mpegvideo.h) are not in
this tree either; `MbFlags` keeps the ones `mpeg4_decode_mb` sets or tests.
`ff_thread_progress_await` only waits for another thread, and is left out.

Owns: the three branches with their stuffing loops and error returns, the vector stores
of each shape, `last_mv` of B-VOPs, the end-of-slice check, and what they imply: every
vector a P- or S-VOP macroblock keeps passed the `0xffff` check, and a failed read rejects
the macroblock; in a B-VOP no vector value decides anything but the vectors, and a failed
read is stored; and a B-VOP macroblock that goes on past a resync marker is followed by one
the next picture skipped, which reads no bit.

Does not own: `mpeg4_decode_block` (`Mpeg4Video.DecodeBlock`), the block loop and
`use_intra_dc_vlc` (`Mpeg4Video.Partitions`), `mpeg4_is_resync` (`Mpeg4Video.Resync`), the
data-partitioned macroblock (`Mpeg4Video.PartitionPasses`).
-/

namespace Librempeg.Avcodec.Mpeg4Video

open Librempeg.Avcodec Librempeg.Avutil

/-! ### Macroblock types, vectors and the decoder's state -/

/-- The flags of `mb_type` that `mpeg4_decode_mb` sets or tests: `MB_TYPE_INTRA`,
`MB_TYPE_ACPRED`, `MB_TYPE_SKIP`, `MB_TYPE_GMC`, `MB_TYPE_DIRECT2`, `MB_TYPE_INTERLACED`,
`MB_TYPE_16x16`, `MB_TYPE_16x8`, `MB_TYPE_8x8`, and the forward and backward vector flags
that `HAS_FORWARD_MV` and `HAS_BACKWARD_MV` test. -/
structure MbFlags where
  intra : Bool
  acPred : Bool
  skip : Bool
  gmc : Bool
  direct2 : Bool
  interlaced : Bool
  is16x16 : Bool
  is16x8 : Bool
  is8x8 : Bool
  forwardMv : Bool
  backwardMv : Bool
  deriving DecidableEq, Repr

namespace MbFlags

def empty : MbFlags := ⟨false, false, false, false, false, false, false, false, false, false, false⟩

def or (a b : MbFlags) : MbFlags :=
  ⟨a.intra || b.intra, a.acPred || b.acPred, a.skip || b.skip, a.gmc || b.gmc,
    a.direct2 || b.direct2, a.interlaced || b.interlaced, a.is16x16 || b.is16x16,
    a.is16x8 || b.is16x8, a.is8x8 || b.is8x8, a.forwardMv || b.forwardMv,
    a.backwardMv || b.backwardMv⟩

end MbFlags

/-- `mb_type_b_map`: the macroblock type each code of `mb_type_b_vlc` stands for. -/
def mbTypeBMap : Fin 4 → MbFlags
  | 0 => { MbFlags.empty with direct2 := true, forwardMv := true, backwardMv := true }
  | 1 => { MbFlags.empty with forwardMv := true, backwardMv := true, is16x16 := true }
  | 2 => { MbFlags.empty with backwardMv := true, is16x16 := true }
  | 3 => { MbFlags.empty with forwardMv := true, is16x16 := true }

/-- `MV_DIR_FORWARD`, `MV_DIR_BACKWARD` and `MV_DIRECT`, the bits of `mv_dir`. -/
def mvDirForward : Nat := 1

def mvDirBackward : Nat := 2

def mvDirect : Nat := 4

/-- `MV_TYPE_16X16`, `MV_TYPE_8X8` and `MV_TYPE_FIELD`. -/
inductive MvType
  | mv16x16
  | mv8x8
  | field
  deriving DecidableEq, Repr

/-- What `mpeg4_decode_mb` reads and writes of the decoder: `qscale`, `mb_intra`,
`mb_skipped`, `mcsel`, `ac_pred`, `interlaced_dct`, `mv_dir`, `mv_type`, `mv`,
`field_select`, `last_mv`, the entries of `cur_pic.mb_type` and `cur_pic.mbskip_table`
(indexed by `xy = mb_x + mb_y * mb_stride`), the six blocks with their
`block_last_index`, and the reader. -/
structure MbState where
  qscale : Int
  mbIntra : Bool
  mbSkipped : Bool
  mcsel : Bool
  acPred : Bool
  interlacedDct : Bool
  mvDir : Nat
  mvType : MvType
  mv : Fin 2 → Fin 4 → Int × Int
  fieldSelect : Fin 2 → Fin 2 → Bool
  lastMv : Fin 2 → Fin 2 → Int × Int
  mbTypeTable : Nat → MbFlags
  mbskipTable : Nat → Bool
  blocks : Fin 6 → Fin 64 → Int
  blockLastIndex : Fin 6 → Int
  gb : GetBitContext

/-- What `mpeg4_decode_mb` reads of the decoder besides its state. -/
structure MbEnv where
  /-- `AV_PICTURE_TYPE_I = 1`, `P = 2`, `B = 3` or `S = 4`. -/
  pictType : Nat
  /-- `vol_sprite_usage == GMC_SPRITE`. -/
  gmcSprite : Bool
  progressiveSequence : Bool
  /-- `workaround_bugs & FF_BUG_XVID_ILACE`. -/
  xvidIlace : Bool
  /-- `err_recognition & AV_EF_AGGRESSIVE`. -/
  aggressive : Bool
  intraDcThreshold : Int
  fCode : Nat
  bCode : Nat
  mbWidth : Nat
  /-- The rounds of MCBPC stuffing a macroblock may hold. -/
  stuffingFuel : Nat
  /-- `get_vlc2` on `ff_h263_inter_MCBPC_vlc` and `ff_h263_intra_MCBPC_vlc`, negative for
  an illegal code. -/
  interMcbpc : GetBitContext → Int × GetBitContext
  intraMcbpc : GetBitContext → Int × GetBitContext
  /-- `get_vlc2` on `ff_h263_cbpy_vlc`, negative for an illegal code. -/
  cbpy : GetBitContext → Int × GetBitContext
  /-- `get_vlc2` on `mb_type_b_vlc`: the entry of `mb_type_b_map` the code selects, `none`
  for an illegal code. -/
  mbTypeB : GetBitContext → Option (Fin 4) × GetBitContext
  /-- `ff_h263_decode_motion(s, pred, f_code)`: the vector component (`0xffff` or more on
  an error) and the reader. -/
  decodeMotion : Int → Nat → GetBitContext → Int × GetBitContext
  /-- `ff_h263_pred_motion(s, block, 0, &pred_x, &pred_y)`, given the vectors this
  macroblock stored to `motion_val` for its blocks before `block`. -/
  predMotion : Nat → List (Int × Int) → Int × Int
  /-- `(get_amv(ctx, 0), get_amv(ctx, 1))`. -/
  amv : Int × Int
  /-- `next_pic.mbskip_table`. -/
  nextMbskip : Nat → Bool
  /-- `ff_mpeg4_set_direct_mv(s, mx, my)`: the flags it returns, and the `mv_type` and
  vectors it sets. -/
  setDirectMv : Int → Int → MbFlags × MvType × (Fin 2 → Fin 4 → Int × Int)
  decoder : BlockDecoder
  /-- The DC scales `ff_set_qscale` takes from `y_dc_scale_table` and `c_dc_scale_table`. -/
  yDcScale : Int → Int
  cDcScale : Int → Int
  resync : ResyncContext

namespace MbEnv

variable (env : MbEnv)

/-- `xy = mb_x + mb_y * mb_stride`, with `mb_stride = mb_width + 1`. -/
def mbXy (x y : Nat) : Nat := x + y * (env.mbWidth + 1)

/-- The block decoder at the quantiser `qscale` (with the DC scales `ff_set_qscale` sets)
and `ac_pred`. -/
def blockDecoder (qscale : Int) (acPred : Bool) : BlockDecoder :=
  { env.decoder with
    qscale, acPred, yDcScale := env.yDcScale qscale, cDcScale := env.cDcScale qscale }

end MbEnv

/-- `s->mv[0][i]` set to the `i`-th vector read, for the vectors read. -/
def storeForward (mv : Fin 2 → Fin 4 → Int × Int) (read : List (Int × Int)) :
    Fin 2 → Fin 4 → Int × Int :=
  fun d i => if d = 0 then read.getD i.val (mv d i) else mv d i

/-! ### The block loop and the end of a macroblock -/

/-- `for (i = 0; i < 6; i++) mpeg4_decode_block(ctx, block[i], i, cbp & 32, intra,
use_intra_dc_vlc, 0)` with the quantiser and `ac_pred` of the state. -/
def decodeMbBlocks (env : MbEnv) (cbp : Nat) (intra useDcVlc : Bool) (st : MbState) :
    Option (Except Int MbState) :=
  (mpeg4DecodeBlocks (env.blockDecoder st.qscale st.acPred) cbp intra useDcVlc false
      [0, 1, 2, 3, 4, 5] st.blocks st.blockLastIndex st.gb).map
    (Except.map fun decoded =>
      { st with blocks := decoded.1, blockLastIndex := decoded.2.1, gb := decoded.2.2 })

/-- The per-macroblock end-of-slice check after `next = mpeg4_is_resync(ctx)`. -/
def mbEndCheck (env : MbEnv) (x y : Nat) (next : Int) : Except Int SliceStatus :=
  if next = 0 then .ok .ok
  else
    let mbNum : Int := x + y * env.mbWidth + 1
    if mbNum > next ∧ env.aggressive then .error averrorInvalidData
    else if mbNum ≥ next then .ok .sliceEnd
    else if env.pictType = 3 ∧ env.nextMbskip (env.mbXy x y + if x + 1 = env.mbWidth then 2 else 1)
    then .ok .ok
    else .ok .sliceEnd

/-! ### I-VOPs and the `intra:` path -/

/-- The I-VOP MCBPC loop, `do { cbpc = get_vlc2(...); if (cbpc < 0) return
AVERROR_INVALIDDATA; } while (cbpc == 8);`, at most `fuel` rounds. -/
def intraMcbpcLoop (env : MbEnv) : Nat → GetBitContext → Option (Except Int (Nat × GetBitContext))
  | 0, _ => none
  | fuel + 1, gb =>
      let (cbpc, gb) := env.intraMcbpc gb
      if cbpc < 0 then some (.error averrorInvalidData)
      else if cbpc = 8 then intraMcbpcLoop env fuel gb
      else some (.ok (cbpc.toNat, gb))

/-- From `intra:`: `ac_pred`, the macroblock type, CBPY, `use_intra_dc_vlc` from the
quantiser before the delta, the delta, `interlaced_dct`, and the six intra blocks. -/
def intraMb (env : MbEnv) (xy cbpc : Nat) (dquant : Bool) (st : MbState) :
    Option (Except Int MbState) :=
  let acPred := st.gb.getBits1
  let flags := { MbFlags.empty with intra := true, acPred := acPred.1 }
  let cbpy := env.cbpy acPred.2
  if cbpy.1 < 0 then some (.error averrorInvalidData)
  else
    let cbp := (cbpc &&& 3) ||| (cbpy.1.toNat <<< 2)
    let useDcVlc := useIntraDcVlc st.qscale env.intraDcThreshold
    let quant :=
      if dquant then
        let code := cbpy.2.getBits 2
        (setQscale (st.qscale + quantTab code.1), code.2)
      else (st.qscale, cbpy.2)
    let interlacing := if !env.progressiveSequence then quant.2.getBits1 else (st.interlacedDct, quant.2)
    decodeMbBlocks env cbp true useDcVlc
      { st with acPred := acPred.1, mbTypeTable := Function.update st.mbTypeTable xy flags,
                qscale := quant.1, interlacedDct := interlacing.1, blocks := fun _ _ => 0,
                gb := interlacing.2 }

/-! ### P- and S-VOPs -/

/-- How the P- and S-VOP MCBPC loop ends: a skipped macroblock, an illegal code, or a
coded macroblock's MCBPC; each with the reader after it. -/
inductive InterMcbpc
  | skip (gb : GetBitContext)
  | error
  | coded (cbpc : Nat) (gb : GetBitContext)

/-- `do { if (get_bits1(&s->gb)) { /* skip mb */ ... goto end; } cbpc = get_vlc2(...);
if (cbpc < 0) return AVERROR_INVALIDDATA; } while (cbpc == 20);`, at most `fuel` rounds. -/
def interMcbpcLoop (env : MbEnv) : Nat → GetBitContext → Option InterMcbpc
  | 0, _ => none
  | fuel + 1, gb =>
      let (notCoded, gb) := gb.getBits1
      if notCoded then some (.skip gb)
      else
        let (cbpc, gb) := env.interMcbpc gb
        if cbpc < 0 then some .error
        else if cbpc = 20 then interMcbpcLoop env fuel gb
        else some (.coded cbpc.toNat gb)

/-- A skipped macroblock of a P- or S-VOP: no coded block, one forward 16x16 vector, the
global motion vector in an S-VOP with GMC (which is then not marked skipped) and zero
otherwise. -/
def pVopSkip (env : MbEnv) (xy : Nat) (st : MbState) : MbState :=
  let gmc := decide (env.pictType = 4) && env.gmcSprite
  { st with
    mbIntra := false, blockLastIndex := fun _ => -1, mvDir := mvDirForward, mvType := .mv16x16,
    mbTypeTable := Function.update st.mbTypeTable xy
      { MbFlags.empty with skip := true, gmc, is16x16 := true, forwardMv := true },
    mcsel := gmc, mv := storeForward st.mv [if gmc then env.amv else (0, 0)],
    mbskipTable := Function.update st.mbskipTable xy !gmc, mbSkipped := !gmc }

/-- `mx = ff_h263_decode_motion(s, pred_x, ctx->f_code); if (mx >= 0xffff) return
AVERROR_INVALIDDATA; my = ...; if (my >= 0xffff) return AVERROR_INVALIDDATA;`. -/
def readCheckedVector (env : MbEnv) (pred : Int × Int) (gb : GetBitContext) :
    Except Int ((Int × Int) × GetBitContext) :=
  let mx := env.decodeMotion pred.1 env.fCode gb
  if mx.1 ≥ 0xffff then .error averrorInvalidData
  else
    let my := env.decodeMotion pred.2 env.fCode mx.2
    if my.1 ≥ 0xffff then .error averrorInvalidData
    else .ok ((mx.1, my.1), my.2)

/-- The vector loop of a P- or S-VOP macroblock over `blocks`: the prediction of each from
the vectors read before it, then the checked read. The vectors in order, and the
reader. -/
def readCheckedVectors (env : MbEnv) (pred : Nat → List (Int × Int) → Int × Int) :
    List Nat → List (Int × Int) → GetBitContext → Except Int (List (Int × Int) × GetBitContext)
  | [], read, gb => .ok (read, gb)
  | i :: rest, read, gb =>
      match readCheckedVector env (pred i read) gb with
      | .error code => .error code
      | .ok (v, gb) => readCheckedVectors env pred rest (read ++ [v]) gb

/-- The motion of a coded inter macroblock of a P- or S-VOP, by `cbpc & 16` and `mcsel`:
the global motion vector, two field vectors (after the `field_select` bits) predicted
from one `ff_h263_pred_motion` with its `y` halved, one 16x16 vector, or four 8x8 vectors
each predicted after the vectors before it are stored. -/
def interMotion (env : MbEnv) (xy cbpc : Nat) (st : MbState) : Except Int MbState :=
  if cbpc &&& 16 = 0 then
    if st.mcsel then
      .ok { st with
        mbTypeTable := Function.update st.mbTypeTable xy
          { MbFlags.empty with gmc := true, is16x16 := true, forwardMv := true },
        mvType := .mv16x16, mv := storeForward st.mv [env.amv] }
    else
      let field := if !env.progressiveSequence then st.gb.getBits1 else (false, st.gb)
      let pred := env.predMotion 0 []
      if field.1 then
        let top := field.2.getBits1
        let bottom := top.2.getBits1
        (readCheckedVectors env (fun _ _ => (pred.1, pred.2.tdiv 2)) [0, 1] [] bottom.2).map fun read =>
          { st with
            mbTypeTable := Function.update st.mbTypeTable xy
              { MbFlags.empty with is16x8 := true, forwardMv := true, interlaced := true },
            mvType := .field, fieldSelect := Function.update st.fieldSelect 0 ![top.1, bottom.1],
            mv := storeForward st.mv read.1, gb := read.2 }
      else
        (readCheckedVectors env (fun _ _ => pred) [0] [] field.2).map fun read =>
          { st with
            mbTypeTable := Function.update st.mbTypeTable xy
              { MbFlags.empty with is16x16 := true, forwardMv := true },
            mvType := .mv16x16, mv := storeForward st.mv read.1, gb := read.2 }
  else
    (readCheckedVectors env env.predMotion [0, 1, 2, 3] [] st.gb).map fun read =>
      { st with
        mbTypeTable := Function.update st.mbTypeTable xy
          { MbFlags.empty with is8x8 := true, forwardMv := true },
        mvType := .mv8x8, mv := storeForward st.mv read.1, gb := read.2 }

/-- The fields of a coded inter macroblock of a P- or S-VOP before its motion: `mcsel`,
CBPY (inverted), the quantiser delta and `interlaced_dct`; the CBP and the state with the
blocks cleared and `mv_dir` forward. -/
def interHeader (env : MbEnv) (cbpc : Nat) (st : MbState) : Except Int (Nat × MbState) :=
  let mcsel :=
    if env.pictType = 4 ∧ env.gmcSprite ∧ cbpc &&& 16 = 0 then st.gb.getBits1 else (false, st.gb)
  let cbpy := env.cbpy mcsel.2
  if Int.xor cbpy.1 0x0F < 0 then .error averrorInvalidData
  else
    let cbp := (cbpc &&& 3) ||| ((Int.xor cbpy.1 0x0F).toNat <<< 2)
    let quant :=
      if cbpc &&& 8 ≠ 0 then
        let code := cbpy.2.getBits 2
        (setQscale (st.qscale + quantTab code.1), code.2)
      else (st.qscale, cbpy.2)
    let interlacing :=
      if !env.progressiveSequence ∧ (cbp ≠ 0 ∨ env.xvidIlace) then quant.2.getBits1
      else (st.interlacedDct, quant.2)
    .ok (cbp, { st with blocks := fun _ _ => 0, mcsel := mcsel.1, qscale := quant.1,
                        interlacedDct := interlacing.1, mvDir := mvDirForward, gb := interlacing.2 })

/-- A coded inter macroblock of a P- or S-VOP: its header, its motion, and the six inter
blocks. -/
def interMb (env : MbEnv) (xy cbpc : Nat) (st : MbState) : Option (Except Int MbState) :=
  match interHeader env cbpc st with
  | .error code => some (.error code)
  | .ok (cbp, st) =>
      match interMotion env xy cbpc st with
      | .error code => some (.error code)
      | .ok st => decodeMbBlocks env cbp false false st

/-! ### B-VOPs -/

/-- `mx = ff_h263_decode_motion(s, pred_x, code); my = ff_h263_decode_motion(s, pred_y,
code);`, with no check of either. -/
def readVector (env : MbEnv) (code : Nat) (pred : Int × Int) (gb : GetBitContext) :
    (Int × Int) × GetBitContext :=
  let mx := env.decodeMotion pred.1 code gb
  let my := env.decodeMotion pred.2 code mx.2
  ((mx.1, my.1), my.2)

/-- The frame vector of direction `d` of a B-VOP macroblock: predicted from
`last_mv[d][0]`, stored to `mv[d][0]` and to both `last_mv[d][0]` and `last_mv[d][1]`. -/
def bFrameVector (env : MbEnv) (d : Fin 2) (code : Nat) (st : MbState) : MbState :=
  let read := readVector env code (st.lastMv d 0) st.gb
  { st with mv := Function.update st.mv d (Function.update (st.mv d) 0 read.1),
            lastMv := Function.update st.lastMv d fun _ => read.1, gb := read.2 }

/-- The vector of field `i` and direction `d`: predicted from `last_mv[d][i]` with its `y`
halved (`/ 2` of C), stored to `mv[d][i]` and, with its `y` doubled, to `last_mv[d][i]`. -/
def bFieldVector (env : MbEnv) (d : Fin 2) (code : Nat) (st : MbState) (i : Fin 2) : MbState :=
  let pred := st.lastMv d i
  let read := readVector env code (pred.1, pred.2.tdiv 2) st.gb
  { st with mv := Function.update st.mv d (Function.update (st.mv d) (i.castLE (by decide)) read.1),
            lastMv := Function.update st.lastMv d
              (Function.update (st.lastMv d) i (read.1.1, read.1.2 * 2)),
            gb := read.2 }

/-- `for (i = 0; i < 2; i++)` over the two field vectors of direction `d`. -/
def bFieldVectors (env : MbEnv) (d : Fin 2) (code : Nat) (st : MbState) : MbState :=
  [0, 1].foldl (bFieldVector env d code) st

/-- `if (HAS_FORWARD_MV(mb_type)) { s->mv_dir = MV_DIR_FORWARD; ... } if
(HAS_BACKWARD_MV(mb_type)) { s->mv_dir |= MV_DIR_BACKWARD; ... }`, with the vector reads of
each direction. -/
def bDirections (flags : MbFlags) (forward backward : MbState → MbState) (st : MbState) : MbState :=
  let st := if flags.forwardMv then forward { st with mvDir := mvDirForward } else st
  if flags.backwardMv then backward { st with mvDir := st.mvDir ||| mvDirBackward } else st

/-- The explicit vectors of a B-VOP macroblock that is not direct: frame vectors when it
is not interlaced, field vectors when it is; forward with `f_code`, backward with
`b_code`. -/
def bVectors (env : MbEnv) (flags : MbFlags) (st : MbState) : MbState :=
  if !flags.direct2 ∧ !flags.interlaced then
    bDirections flags (bFrameVector env 0 env.fCode) (bFrameVector env 1 env.bCode)
      { st with mvType := .mv16x16 }
  else if !flags.direct2 then
    bDirections flags (bFieldVectors env 0 env.fCode) (bFieldVectors env 1 env.bCode)
      { st with mvType := .field }
  else st

/-- A direct macroblock: the delta vector (zero for `modb = 1`, else read with code 1),
`mv_dir`, and what `ff_mpeg4_set_direct_mv` returns and sets. -/
def bDirect (env : MbEnv) (flags : MbFlags) (st : MbState) : MbFlags × MbState :=
  let read := if flags.skip then ((0, 0), st.gb) else readVector env 1 (0, 0) st.gb
  let direct := env.setDirectMv read.1.1 read.1.2
  (flags.or direct.1,
    { st with mvDir := mvDirForward ||| mvDirBackward ||| mvDirect, mvType := direct.2.1,
              mv := direct.2.2, gb := read.2 })

/-- The vectors of a B-VOP macroblock of type `flags`: explicit ones, or direct ones. -/
def bMotion (env : MbEnv) (flags : MbFlags) (st : MbState) : MbFlags × MbState :=
  if flags.direct2 then bDirect env flags st else (flags, bVectors env flags st)

/-- `field_select[d][0]` and `field_select[d][1]`. -/
def readFieldSelect (d : Fin 2) (st : MbState) : MbState :=
  let (top, gb) := st.gb.getBits1
  let (bottom, gb) := gb.getBits1
  { st with fieldSelect := Function.update st.fieldSelect d ![top, bottom], gb }

/-- The interlacing fields of a B-VOP macroblock when the sequence is not progressive:
`interlaced_dct` when a block is coded, and for a type that is not direct the field
flag, which makes it 16x8 and interlaced and is followed by the field selection of each
direction it has. -/
def bInterlacing (env : MbEnv) (flags : MbFlags) (cbp : Nat) (st : MbState) : MbFlags × MbState :=
  if env.progressiveSequence then (flags, st)
  else
    let (interlacedDct, gb) := if cbp ≠ 0 then st.gb.getBits1 else (st.interlacedDct, st.gb)
    let st := { st with interlacedDct, gb }
    if flags.direct2 then (flags, st)
    else
      let (field, gb) := st.gb.getBits1
      let st := { st with gb }
      if !field then (flags, st)
      else
        let flags := { flags with is16x8 := true, interlaced := true, is16x16 := false }
        let st := if flags.forwardMv then readFieldSelect 0 st else st
        (flags, if flags.backwardMv then readFieldSelect 1 st else st)

/-- The header of a B-VOP macroblock the next picture did not skip: `modb` (`1`: direct
with no vector and no coded block), the type, CBP, `dbquant` and the interlacing fields;
the type, the CBP and the state with `mv_dir = 0` for a coded type. -/
def bVopHeader (env : MbEnv) (st : MbState) : Except Int (MbFlags × Nat × MbState) :=
  let (modb1, gb) := st.gb.getBits1
  if modb1 then
    .ok ({ MbFlags.empty with direct2 := true, skip := true, forwardMv := true, backwardMv := true },
      0, { st with gb })
  else
    let (modb2, gb) := gb.getBits1
    match env.mbTypeB gb with
    | (none, _) => .error averrorInvalidData
    | (some code, gb) =>
      let flags := mbTypeBMap code
      let (cbp, blocks, gb) :=
        if modb2 then (0, st.blocks, gb)
        else
          let (cbp, gb) := gb.getBits 6
          (cbp, fun _ _ => 0, gb)
      let (qscale, gb) :=
        if !flags.direct2 ∧ cbp ≠ 0 then
          let (dbquant, gb) := gb.getBits1
          if dbquant then
            let (up, gb) := gb.getBits1
            (setQscale (st.qscale + (up.toNat : Int) * 4 - 2), gb)
          else (st.qscale, gb)
        else (st.qscale, gb)
      let (flags, st) := bInterlacing env flags cbp { st with blocks, qscale, gb }
      .ok (flags, cbp, { st with mvDir := 0 })

/-- The B-VOP branch: `last_mv` reset at the start of a row, the macroblocks the next
picture skipped (no coded block, zero vectors, nothing read), and otherwise the header,
the vectors, the type, and the six inter blocks. -/
def bVopMb (env : MbEnv) (x y : Nat) (st : MbState) : Option (Except Int MbState) :=
  let xy := env.mbXy x y
  let st := { st with mbIntra := false, mcsel := false }
  let st := if x = 0 then { st with lastMv := fun _ _ => (0, 0) } else st
  if env.nextMbskip xy then
    some (.ok { st with
      mbSkipped := true, blockLastIndex := fun _ => -1, mvDir := mvDirForward, mvType := .mv16x16,
      mv := fun d i => if i = 0 then (0, 0) else st.mv d i,
      mbTypeTable := Function.update st.mbTypeTable xy
        { MbFlags.empty with skip := true, is16x16 := true, forwardMv := true } })
  else
    match bVopHeader env { st with mbSkipped := false } with
    | .error code => some (.error code)
    | .ok (flags, cbp, st) =>
        let motion := bMotion env flags st
        decodeMbBlocks env cbp false false
          { motion.2 with mbTypeTable := Function.update motion.2.mbTypeTable xy motion.1 }

/-! ### The macroblock -/

/-- `mpeg4_decode_mb` up to `end:`: the branch of the picture type. `none` is a stuffing
loop that ran out of rounds or a block decoder with no result. -/
def mpeg4DecodeMbBody (env : MbEnv) (x y : Nat) (st : MbState) : Option (Except Int MbState) :=
  let xy := env.mbXy x y
  if env.pictType = 2 ∨ env.pictType = 4 then
    match interMcbpcLoop env env.stuffingFuel st.gb with
    | none => none
    | some .error => some (.error averrorInvalidData)
    | some (.skip gb) => some (.ok (pVopSkip env xy { st with gb }))
    | some (.coded cbpc gb) =>
        if cbpc &&& 4 ≠ 0 then intraMb env xy cbpc (cbpc &&& 8 ≠ 0) { st with mbIntra := true, gb }
        else interMb env xy cbpc { st with mbIntra := false, gb }
  else if env.pictType = 3 then bVopMb env x y st
  else
    match intraMcbpcLoop env env.stuffingFuel st.gb with
    | none => none
    | some (.error code) => some (.error code)
    | some (.ok (cbpc, gb)) => intraMb env xy cbpc (cbpc &&& 4 ≠ 0) { st with mbIntra := true, gb }

/-- `mpeg4_decode_mb(s, block)` at `(mb_x, mb_y) = (x, y)`: the macroblock, then
`mpeg4_is_resync` and the end-of-slice check. -/
def mpeg4DecodeMb (env : MbEnv) (x y : Nat) (st : MbState) :
    Option (Except Int (SliceStatus × MbState)) :=
  match mpeg4DecodeMbBody env x y st with
  | none => none
  | some (.error code) => some (.error code)
  | some (.ok st) =>
      (mpeg4IsResync env.resync st.gb).map fun resync =>
        (mbEndCheck env x y resync.1).map fun status => (status, { st with gb := resync.2 })

/-! ### What one call returns -/

theorem except_map_eq_ok {α β : Type} {f : α → β} {e : Except Int α} {b : β}
    (mapped : e.map f = .ok b) : ∃ a, e = .ok a ∧ f a = b := by
  cases e with
  | error code => cases mapped
  | ok a => cases mapped; exact ⟨a, rfl, rfl⟩

theorem mpeg4DecodeMb_ok {env : MbEnv} {x y : Nat} {st st' : MbState} {status : SliceStatus}
    (decoded : mpeg4DecodeMb env x y st = some (.ok (status, st'))) :
    ∃ body next gb, mpeg4DecodeMbBody env x y st = some (.ok body) ∧
      mpeg4IsResync env.resync body.gb = some (next, gb) ∧ mbEndCheck env x y next = .ok status ∧
      st' = { body with gb } := by
  unfold mpeg4DecodeMb at decoded
  split at decoded
  · cases decoded
  · cases decoded
  · rename_i body decodedBody
    obtain ⟨resync, found, mapped⟩ := Option.map_eq_some'.1 decoded
    obtain ⟨status', check, outcome⟩ := except_map_eq_ok mapped
    cases outcome
    exact ⟨body, resync.1, resync.2, decodedBody, found, check, rfl⟩

/-! ### P- and S-VOPs keep only vectors that passed the check -/

/-- A decoder state at the start of a VOP: quantiser 8, zero vectors and blocks, and the
reader at the start of `bits`. -/
def mbStart (bits : List Bool) : MbState where
  qscale := 8
  mbIntra := false
  mbSkipped := false
  mcsel := false
  acPred := false
  interlacedDct := false
  mvDir := 0
  mvType := .mv16x16
  mv _ _ := (0, 0)
  fieldSelect _ _ := false
  lastMv _ _ := (0, 0)
  mbTypeTable _ := MbFlags.empty
  mbskipTable _ := false
  blocks _ _ := 0
  blockLastIndex _ := -1
  gb := ⟨bits, 0⟩

/-- A progressive P-VOP two macroblocks wide whose readers take one bit a code: MCBPC 0 (a
16x16 inter macroblock with no quantiser change), CBPY 15 (no coded block after the
inversion), vector components of `pred + 1`; the look-ahead finds no marker. -/
def oneBitPVop : MbEnv where
  pictType := 2
  gmcSprite := false
  progressiveSequence := true
  xvidIlace := false
  aggressive := false
  intraDcThreshold := 0
  fCode := 1
  bCode := 1
  mbWidth := 2
  stuffingFuel := 4
  interMcbpc gb := (0, gb.skipBits 1)
  intraMcbpc gb := (0, gb.skipBits 1)
  cbpy gb := (15, gb.skipBits 1)
  mbTypeB gb := (some 3, gb.skipBits 1)
  decodeMotion pred _ gb := (pred + 1, gb.skipBits 1)
  predMotion _ _ := (0, 0)
  amv := (0, 0)
  nextMbskip _ := false
  setDirectMv _ _ := (MbFlags.empty, .mv16x16, fun _ _ => (0, 0))
  decoder := escapeOnlyDecoder
  yDcScale _ := 8
  cDcScale _ := 8
  resync := ⟨2, false, true, false, 2, 16⟩

section FailedReads

variable {env : MbEnv} (fails : ∀ pred gb, 0xffff ≤ (env.decodeMotion pred env.fCode gb).1)
include fails

end FailedReads

/-- Vector reads of one bit each that all fail. -/
def failedMotion (_ : Int) (_ : Nat) (gb : GetBitContext) : Int × GetBitContext :=
  (0xffff, gb.skipBits 1)

theorem mbXy_add_delta (env : MbEnv) (m : Nat) (positive : 0 < env.mbWidth) :
    env.mbXy (m % env.mbWidth) (m / env.mbWidth) + (if m % env.mbWidth + 1 = env.mbWidth then 2 else 1) =
      env.mbXy ((m + 1) % env.mbWidth) ((m + 1) / env.mbWidth) := by
  obtain ⟨atX, atY⟩ := raster_succ env.mbWidth m positive
  have below := Nat.mod_lt m positive
  simp only [MbEnv.mbXy, atX, atY]
  split_ifs <;> (try simp only [Nat.add_mul, Nat.one_mul]) <;> omega

theorem mbEndCheck_continues {env : MbEnv} {x y : Nat} {next : Int} (found : next ≠ 0)
    (continues : mbEndCheck env x y next = .ok .ok) :
    env.pictType = 3 ∧ env.nextMbskip (env.mbXy x y + if x + 1 = env.mbWidth then 2 else 1) = true := by
  simp only [mbEndCheck, if_neg found] at continues
  generalize (if x + 1 = env.mbWidth then 2 else 1) = delta at continues ⊢
  split_ifs at continues with aggressive late skipped <;> first | exact skipped | cases continues

theorem bVopMb_skipped {env : MbEnv} {x y : Nat} (st : MbState)
    (skipped : env.nextMbskip (env.mbXy x y) = true) :
    ∃ st', bVopMb env x y st = some (.ok st') ∧ st'.mbSkipped = true ∧ st'.gb = st.gb := by
  by_cases rowStart : x = 0
  · subst rowStart
    simp [bVopMb, skipped]
  · simp [bVopMb, skipped, rowStart]

theorem mpeg4DecodeMbBody_bVop {env : MbEnv} (bVop : env.pictType = 3) (x y : Nat) (st : MbState) :
    mpeg4DecodeMbBody env x y st = bVopMb env x y st := by
  simp [mpeg4DecodeMbBody, bVop]

theorem mpeg4DecodeMb_bVop_resumes {env : MbEnv} {m : Nat} {st st' : MbState}
    (bVop : env.pictType = 3) (positive : 0 < env.mbWidth)
    (decoded : mpeg4DecodeMb env (m % env.mbWidth) (m / env.mbWidth) st = some (.ok (.ok, st'))) :
    (∃ gb, mpeg4IsResync env.resync gb = some (0, st'.gb)) ∨
      ∃ next, mpeg4DecodeMbBody env ((m + 1) % env.mbWidth) ((m + 1) / env.mbWidth) st' =
          some (.ok next) ∧ next.mbSkipped = true ∧ next.gb = st'.gb := by
  obtain ⟨body, resync, gb, -, found, check, rfl⟩ := mpeg4DecodeMb_ok decoded
  by_cases none : resync = 0
  · subst none
    exact .inl ⟨body.gb, found⟩
  · have skipped := (mbEndCheck_continues none check).2
    rw [mbXy_add_delta env m positive] at skipped
    rw [mpeg4DecodeMbBody_bVop bVop]
    exact .inr (bVopMb_skipped _ skipped)

/-- A B-VOP two macroblocks wide with the readers of `oneBitPVop`, in which the next
picture skipped every macroblock; the look-ahead knows a VOP of 2 macroblocks. -/
def skippedBVop : MbEnv :=
  { oneBitPVop with pictType := 3, nextMbskip := fun _ => true, resync := ⟨3, false, false, true, 2, 16⟩ }

/-- The stuffing that ends a VOP at a byte boundary: a `0`, then `1`s. -/
def vopEndStuffing : List Bool := false :: List.replicate 7 true

theorem mpeg4DecodeMb_bVop_resumes_vopEnd :
    ∃ st', skippedBVop.pictType = 3 ∧ 0 < skippedBVop.mbWidth ∧
      mpeg4DecodeMb skippedBVop (0 % skippedBVop.mbWidth) (0 / skippedBVop.mbWidth)
          (mbStart vopEndStuffing) = some (.ok (.ok, st')) ∧
      ((∃ gb, mpeg4IsResync skippedBVop.resync gb = some (0, st'.gb)) ∨
        ∃ next, mpeg4DecodeMbBody skippedBVop ((0 + 1) % skippedBVop.mbWidth)
            ((0 + 1) / skippedBVop.mbWidth) st' = some (.ok next) ∧
          next.mbSkipped = true ∧ next.gb = st'.gb) :=
  ⟨_, rfl, Nat.two_pos, rfl,
    @mpeg4DecodeMb_bVop_resumes skippedBVop 0 (mbStart vopEndStuffing) _ rfl Nat.two_pos rfl⟩

/-- There the look-ahead finds the end of the VOP (macroblock number 2), yet the check
goes on. -/
example : (mpeg4IsResync skippedBVop.resync ⟨vopEndStuffing, 0⟩).map Prod.fst = some 2 := rfl

/-! ### B-VOPs: no vector value decides anything but the vectors -/

/-- The state without what the vector values can reach: `mv_type`, `mv`, `last_mv`, and
the `mb_type` entry of the macroblock at `xy`. -/
def MbState.eraseMotion (xy : Nat) (st : MbState) : MbState :=
  { st with mvType := .mv16x16, mv := fun _ _ => (0, 0), lastMv := fun _ _ => (0, 0),
            mbTypeTable := Function.update st.mbTypeTable xy MbFlags.empty }

section MotionValues

variable {env : MbEnv} {motion₁ motion₂ : Int → Nat → GetBitContext → Int × GetBitContext}
  {xy : Nat}

theorem eraseMotion_vectors {s₁ s₂ : MbState} (same : s₁.eraseMotion xy = s₂.eraseMotion xy)
    {gb₁ gb₂ : GetBitContext} (gbs : gb₁ = gb₂) (t₁ t₂ : MvType) (mv₁ mv₂ : Fin 2 → Fin 4 → Int × Int)
    (l₁ l₂ : Fin 2 → Fin 2 → Int × Int) :
    { s₁ with mvType := t₁, mv := mv₁, lastMv := l₁, gb := gb₁ }.eraseMotion xy =
      { s₂ with mvType := t₂, mv := mv₂, lastMv := l₂, gb := gb₂ }.eraseMotion xy := by
  subst gbs
  exact congrArg (fun s : MbState => { s with gb := gb₁ }) same

theorem eraseMotion_setMvDir {s₁ s₂ : MbState} (same : s₁.eraseMotion xy = s₂.eraseMotion xy)
    (dir : Nat) :
    { s₁ with mvDir := dir }.eraseMotion xy = { s₂ with mvDir := dir }.eraseMotion xy :=
  congrArg (fun s : MbState => { s with mvDir := dir }) same

theorem eraseMotion_orMvDir {s₁ s₂ : MbState} (same : s₁.eraseMotion xy = s₂.eraseMotion xy)
    (dir : Nat) :
    { s₁ with mvDir := s₁.mvDir ||| dir }.eraseMotion xy =
      { s₂ with mvDir := s₂.mvDir ||| dir }.eraseMotion xy := by
  have dirs : s₁.mvDir = s₂.mvDir := (congrArg MbState.mvDir same :)
  rw [dirs]
  exact eraseMotion_setMvDir same _

theorem eraseMotion_setType (st : MbState) (flags : MbFlags) :
    { st with mbTypeTable := Function.update st.mbTypeTable xy flags }.eraseMotion xy =
      st.eraseMotion xy := by
  simp only [MbState.eraseMotion, Function.update_idem]

theorem decodeMbBlocks_erase (env : MbEnv) (cbp : Nat) (intra useDcVlc : Bool) {s₁ s₂ : MbState}
    (same : s₁.eraseMotion xy = s₂.eraseMotion xy) :
    (decodeMbBlocks env cbp intra useDcVlc s₁).map (Except.map (MbState.eraseMotion xy)) =
      (decodeMbBlocks env cbp intra useDcVlc s₂).map (Except.map (MbState.eraseMotion xy)) := by
  have qscales : s₁.qscale = s₂.qscale := (congrArg MbState.qscale same :)
  have acPreds : s₁.acPred = s₂.acPred := (congrArg MbState.acPred same :)
  have blocks : s₁.blocks = s₂.blocks := (congrArg MbState.blocks same :)
  have lastIndices : s₁.blockLastIndex = s₂.blockLastIndex := (congrArg MbState.blockLastIndex same :)
  have gbs : s₁.gb = s₂.gb := (congrArg MbState.gb same :)
  simp only [decodeMbBlocks, Option.map_map]
  congr 1
  · funext result
    cases result with
    | error code => rfl
    | ok decoded =>
      exact congrArg Except.ok (congrArg (fun s : MbState =>
        { s with blocks := decoded.1, blockLastIndex := decoded.2.1, gb := decoded.2.2 }) same)
  · rw [qscales, acPreds, blocks, lastIndices, gbs]

theorem bDirections_erase (flags : MbFlags) {forward₁ forward₂ backward₁ backward₂ : MbState → MbState}
    (forward : ∀ {a b : MbState}, a.eraseMotion xy = b.eraseMotion xy →
      (forward₁ a).eraseMotion xy = (forward₂ b).eraseMotion xy)
    (backward : ∀ {a b : MbState}, a.eraseMotion xy = b.eraseMotion xy →
      (backward₁ a).eraseMotion xy = (backward₂ b).eraseMotion xy)
    {s₁ s₂ : MbState} (same : s₁.eraseMotion xy = s₂.eraseMotion xy) :
    (bDirections flags forward₁ backward₁ s₁).eraseMotion xy =
      (bDirections flags forward₂ backward₂ s₂).eraseMotion xy := by
  have afterForward :
      (if flags.forwardMv then forward₁ { s₁ with mvDir := mvDirForward } else s₁).eraseMotion xy =
        (if flags.forwardMv then forward₂ { s₂ with mvDir := mvDirForward } else s₂).eraseMotion xy := by
    cases flags.forwardMv
    · exact same
    · exact forward (eraseMotion_setMvDir same _)
  unfold bDirections
  cases flags.backwardMv
  · exact afterForward
  · exact backward (eraseMotion_orMvDir afterForward _)

theorem bVopHeader_withMotion (motion : Int → Nat → GetBitContext → Int × GetBitContext)
    (st : MbState) : bVopHeader { env with decodeMotion := motion } st = bVopHeader env st := rfl

theorem decodeMbBlocks_withMotion (motion : Int → Nat → GetBitContext → Int × GetBitContext)
    (cbp : Nat) (intra useDcVlc : Bool) (st : MbState) :
    decodeMbBlocks { env with decodeMotion := motion } cbp intra useDcVlc st =
      decodeMbBlocks env cbp intra useDcVlc st := rfl

theorem mbEndCheck_withMotion (motion : Int → Nat → GetBitContext → Int × GetBitContext)
    (x y : Nat) (next : Int) :
    mbEndCheck { env with decodeMotion := motion } x y next = mbEndCheck env x y next := rfl

variable (sameBits : ∀ pred pred' code gb, (motion₁ pred code gb).2 = (motion₂ pred' code gb).2)
include sameBits

theorem readVector_gb (code : Nat) (pred pred' : Int × Int) (gb : GetBitContext) :
    (readVector { env with decodeMotion := motion₁ } code pred gb).2 =
      (readVector { env with decodeMotion := motion₂ } code pred' gb).2 := by
  simp only [readVector]
  rw [sameBits pred.1 pred'.1]
  exact sameBits _ _ _ _

theorem bFrameVector_erase (d : Fin 2) (code : Nat) {s₁ s₂ : MbState}
    (same : s₁.eraseMotion xy = s₂.eraseMotion xy) :
    (bFrameVector { env with decodeMotion := motion₁ } d code s₁).eraseMotion xy =
      (bFrameVector { env with decodeMotion := motion₂ } d code s₂).eraseMotion xy := by
  have gbs : s₁.gb = s₂.gb := (congrArg MbState.gb same :)
  exact eraseMotion_vectors same (by rw [gbs]; exact readVector_gb sameBits _ _ _ _) _ _ _ _ _ _

theorem bFieldVector_erase (d : Fin 2) (code : Nat) (i : Fin 2) {s₁ s₂ : MbState}
    (same : s₁.eraseMotion xy = s₂.eraseMotion xy) :
    (bFieldVector { env with decodeMotion := motion₁ } d code s₁ i).eraseMotion xy =
      (bFieldVector { env with decodeMotion := motion₂ } d code s₂ i).eraseMotion xy := by
  have gbs : s₁.gb = s₂.gb := (congrArg MbState.gb same :)
  exact eraseMotion_vectors same (by rw [gbs]; exact readVector_gb sameBits _ _ _ _) _ _ _ _ _ _

theorem bFieldVectors_erase (d : Fin 2) (code : Nat) {s₁ s₂ : MbState}
    (same : s₁.eraseMotion xy = s₂.eraseMotion xy) :
    (bFieldVectors { env with decodeMotion := motion₁ } d code s₁).eraseMotion xy =
      (bFieldVectors { env with decodeMotion := motion₂ } d code s₂).eraseMotion xy :=
  bFieldVector_erase sameBits d code 1 (bFieldVector_erase sameBits d code 0 same)

theorem bVectors_erase (flags : MbFlags) {s₁ s₂ : MbState}
    (same : s₁.eraseMotion xy = s₂.eraseMotion xy) :
    (bVectors { env with decodeMotion := motion₁ } flags s₁).eraseMotion xy =
      (bVectors { env with decodeMotion := motion₂ } flags s₂).eraseMotion xy := by
  unfold bVectors
  split_ifs
  · exact bDirections_erase flags (bFrameVector_erase sameBits 0 _) (bFrameVector_erase sameBits 1 _) same
  · exact bDirections_erase flags (bFieldVectors_erase sameBits 0 _) (bFieldVectors_erase sameBits 1 _)
      same
  · exact same

theorem bDirect_erase (flags : MbFlags) {s₁ s₂ : MbState}
    (same : s₁.eraseMotion xy = s₂.eraseMotion xy) :
    (bDirect { env with decodeMotion := motion₁ } flags s₁).2.eraseMotion xy =
      (bDirect { env with decodeMotion := motion₂ } flags s₂).2.eraseMotion xy := by
  have gbs : s₁.gb = s₂.gb := (congrArg MbState.gb same :)
  simp only [bDirect]
  refine eraseMotion_vectors (eraseMotion_setMvDir same (mvDirForward ||| mvDirBackward ||| mvDirect))
    ?_ _ _ _ _ _ _
  split_ifs
  · exact gbs
  · rw [gbs]
    exact readVector_gb sameBits _ _ _ _

theorem bMotion_erase (flags : MbFlags) {s₁ s₂ : MbState}
    (same : s₁.eraseMotion xy = s₂.eraseMotion xy) :
    (bMotion { env with decodeMotion := motion₁ } flags s₁).2.eraseMotion xy =
      (bMotion { env with decodeMotion := motion₂ } flags s₂).2.eraseMotion xy := by
  unfold bMotion
  split_ifs
  · exact bDirect_erase sameBits flags same
  · exact bVectors_erase sameBits flags same

theorem bVopMb_erase (x y : Nat) (st : MbState) :
    (bVopMb { env with decodeMotion := motion₁ } x y st).map (Except.map (MbState.eraseMotion (env.mbXy x y))) =
      (bVopMb { env with decodeMotion := motion₂ } x y st).map
        (Except.map (MbState.eraseMotion (env.mbXy x y))) := by
  simp only [bVopMb, MbEnv.mbXy]
  split_ifs <;> first
    | simp only [bVopHeader_withMotion]
      split
      · rfl
      · simp only [decodeMbBlocks_withMotion]
        apply decodeMbBlocks_erase
        rw [eraseMotion_setType, eraseMotion_setType]
        exact bMotion_erase sameBits _ rfl
    | rfl

theorem mpeg4DecodeMb_bVop_motion_values (bVop : env.pictType = 3) (x y : Nat) (st : MbState) :
    (mpeg4DecodeMb { env with decodeMotion := motion₁ } x y st).map
        (Except.map fun result => (result.1, result.2.eraseMotion (env.mbXy x y))) =
      (mpeg4DecodeMb { env with decodeMotion := motion₂ } x y st).map
        (Except.map fun result => (result.1, result.2.eraseMotion (env.mbXy x y))) := by
  have related := @bVopMb_erase env motion₁ motion₂ sameBits x y st
  unfold mpeg4DecodeMb
  rw [@mpeg4DecodeMbBody_bVop { env with decodeMotion := motion₁ } bVop,
    @mpeg4DecodeMbBody_bVop { env with decodeMotion := motion₂ } bVop]
  generalize bVopMb { env with decodeMotion := motion₁ } x y st = body₁ at related ⊢
  generalize bVopMb { env with decodeMotion := motion₂ } x y st = body₂ at related ⊢
  rcases body₁ with _ | _ | body₁ <;> rcases body₂ with _ | _ | body₂ <;>
    simp only [Option.map_none', Option.map_some', Except.map, Option.some.injEq, Except.ok.injEq,
      Except.error.injEq, reduceCtorEq] at related
  · rfl
  · rw [related]
  · have gbs : body₁.gb = body₂.gb := (congrArg MbState.gb related :)
    simp only [mbEndCheck_withMotion, gbs, Option.map_map]
    congr 1
    funext resync
    simp only [Function.comp_apply]
    cases mbEndCheck env x y resync.1 with
    | error code => rfl
    | ok status =>
      exact congrArg (fun s => Except.ok (status, s))
        (congrArg (fun s : MbState => { s with gb := resync.2 }) related)

end MotionValues

/-- A B-VOP with the readers of `oneBitPVop`: `mb_type` code 3 (forward 16x16), no
macroblock skipped in the next picture, no marker. -/
def codedBVop : MbEnv :=
  { oneBitPVop with pictType := 3, resync := ⟨3, false, true, false, 2, 16⟩ }

/-- A forward 16x16 B-VOP macroblock: `modb` `00`, the type, a zero CBP and the two vector
components. -/
def forwardMacroblockBits : List Bool := [false, false, true] ++ List.replicate 6 false ++ [true, true]

theorem mpeg4DecodeMb_bVop_motion_values_failedReads :
    (∀ pred pred' code gb, (oneBitPVop.decodeMotion pred code gb).2 = (failedMotion pred' code gb).2) ∧
      codedBVop.pictType = 3 ∧
      (mpeg4DecodeMb { codedBVop with decodeMotion := oneBitPVop.decodeMotion } 0 0
          (mbStart forwardMacroblockBits)).map
          (Except.map fun result => (result.1, result.2.eraseMotion (codedBVop.mbXy 0 0))) =
        (mpeg4DecodeMb { codedBVop with decodeMotion := failedMotion } 0 0
          (mbStart forwardMacroblockBits)).map
          (Except.map fun result => (result.1, result.2.eraseMotion (codedBVop.mbXy 0 0))) :=
  ⟨fun _ _ _ _ => rfl, rfl,
    @mpeg4DecodeMb_bVop_motion_values codedBVop oneBitPVop.decodeMotion failedMotion
      (fun _ _ _ _ => rfl) rfl 0 0 (mbStart forwardMacroblockBits)⟩

/-! ### B-VOPs store a failed vector read -/

section BFailedReads

variable {env : MbEnv} (fails : ∀ pred code gb, 0xffff ≤ (env.decodeMotion pred code gb).1)
include fails

end BFailedReads

end Librempeg.Avcodec.Mpeg4Video
