import Librempeg.Avcodec.Mpeg4Video.DecodeBlock

/-!
Contract: the DC syntax of data-partitioned intra macroblocks in
libavcodec/mpeg4videodec.c: the I-VOP branch of `mpeg4_decode_partition_a`, which reads
each macroblock's MCBPC, quantiser delta and six DC coefficients, and the block loop of
`mpeg4_decode_partitioned_mb` and `mpeg4_decode_mb`, which pass
`use_intra_dc_vlc = s->qscale < intra_dc_threshold` to `mpeg4_decode_block`.

The MCBPC VLC table and `mpeg4_decode_dc`'s VLC tables are not in this tree: the MCBPC read
and `mpeg4_decode_dc` enter as readers. `ff_set_qscale` (libavcodec/mpegvideo.c) is not
in this tree either.

Owns: the partition A loop body for I-VOPs with its stuffing loop and its end marker, the
six DC reads, the choice of `use_intra_dc_vlc`, the block loop of a macroblock, and that
partition A reads the six DC VLCs whether or not the block decoder later takes the DC
from them.

Does not own: the P- and S-VOP branches of the partitions, the second partition and the
texture pass (`Mpeg4Video.PartitionPasses`).
-/

namespace Librempeg.Avcodec.Mpeg4Video

open Librempeg.Avcodec Librempeg.Avutil

/-- `DC_MARKER`: the 19-bit marker that ends partition A of an I-VOP. -/
def dcMarker : Nat := 0x6B001

/-- `quant_tab`: the quantiser change a 2-bit `dquant` code selects. -/
def quantTab (code : Nat) : Int := [-1, -2, 1, 2].getD code 0

/-- Modelled from the spec: `ff_set_qscale(s, qscale)` keeps the quantiser in `[1, 31]`. -/
def setQscale (qscale : Int) : Int := max 1 (min 31 qscale)

/-- The readers partition A uses: the intra MCBPC VLC (`get_vlc2` on
`ff_h263_intra_MCBPC_vlc`, negative for an illegal code) and `mpeg4_decode_dc(s, n, &dir)`
(the DC level, negative on error, the prediction direction and the reader after it). -/
structure PartitionReaders where
  intraMcbpc : GetBitContext → Int × GetBitContext
  decodeDc : Nat → GetBitContext → Int × Int × GetBitContext

/-- `for (i = 0; i < 6; i++) { dc = mpeg4_decode_dc(s, i, &dc_pred_dir); if (dc < 0)
return dc; dir <<= 1; if (dc_pred_dir) dir |= 1; }` over the blocks `blocks`: the
direction bits and the reader, or the error. -/
def decodeDcs (decodeDc : Nat → GetBitContext → Int × Int × GetBitContext) :
    List Nat → Nat → GetBitContext → Except Int (Nat × GetBitContext)
  | [], dir, gb => .ok (dir, gb)
  | n :: blocks, dir, gb =>
      let (dc, dcPredDir, gb) := decodeDc n gb
      if dc < 0 then .error dc
      else decodeDcs decodeDc blocks (2 * dir + if dcPredDir ≠ 0 then 1 else 0) gb

/-- What the I-VOP branch of partition A does with one macroblock: it meets `DC_MARKER`
(the partition ends), fails, or decodes an intra macroblock with its `cbp_table` entry,
its quantiser, its `pred_dir_table` entry and the reader after it. -/
inductive PartitionAMb
  | marker
  | error (code : Int)
  | intra (cbp : Nat) (qscale : Int) (predDir : Nat) (gb : GetBitContext)
  deriving DecidableEq

/-- The I-VOP branch of the `mpeg4_decode_partition_a` macroblock loop: the MCBPC stuffing
loop (`while (cbpc == 8)`, at most `fuel` rounds), the quantiser delta, and the six DC
coefficients. -/
def partitionAIntraMb (r : PartitionReaders) (qscale : Int) :
    Nat → GetBitContext → Option PartitionAMb
  | 0, _ => none
  | fuel + 1, gb =>
      if gb.showBits 19 = dcMarker then some .marker
      else
        let (cbpc, gb) := r.intraMcbpc gb
        if cbpc < 0 then some (.error averrorInvalidData)
        else if cbpc = 8 then partitionAIntraMb r qscale fuel gb
        else
          let (qscale, gb) :=
            if cbpc.toNat &&& 4 ≠ 0 then
              let (code, gb) := gb.getBits 2
              (setQscale (qscale + quantTab code), gb)
            else (qscale, gb)
          match decodeDcs r.decodeDc [0, 1, 2, 3, 4, 5] 0 gb with
          | .error code => some (.error code)
          | .ok (dir, gb) => some (.intra (cbpc.toNat &&& 3) qscale dir gb)

/-- `use_intra_dc_vlc = s->qscale < ctx->intra_dc_threshold`, in
`mpeg4_decode_partitioned_mb` and in the intra path of `mpeg4_decode_mb`. -/
def useIntraDcVlc (qscale intraDcThreshold : Int) : Bool := decide (qscale < intraDcThreshold)

/-- `for (i = 0; i < 6; i++) { if (mpeg4_decode_block(ctx, block[i], i, cbp & 32, ...) < 0)
return AVERROR_INVALIDDATA; cbp += cbp; }` from block `i` on, in `mpeg4_decode_mb` and
`mpeg4_decode_partitioned_mb`: block `i` is coded when bit `5 - i` of `cbp` is set. The
result is the blocks with their `block_last_index` and the reader; `none` where a block
decoder has no result. -/
def mpeg4DecodeBlocks (d : BlockDecoder) (cbp : Nat) (intra useDcVlc rvlc : Bool) :
    List (Fin 6) → (Fin 6 → Fin 64 → Int) → (Fin 6 → Int) → GetBitContext →
      Option (Except Int ((Fin 6 → Fin 64 → Int) × (Fin 6 → Int) × GetBitContext))
  | [], blocks, lastIndex, gb => some (.ok (blocks, lastIndex, gb))
  | n :: rest, blocks, lastIndex, gb =>
      match mpeg4DecodeBlock d (blocks n) n (cbp.testBit (5 - n.val)) intra useDcVlc rvlc gb with
      | none => none
      | some (.error _) => some (.error averrorInvalidData)
      | some (.decoded last block gb) =>
          mpeg4DecodeBlocks d cbp intra useDcVlc rvlc rest (Function.update blocks n block)
            (Function.update lastIndex n last) gb

theorem intraDc_of_not_useIntraDcVlc (d : BlockDecoder) (block : Fin 64 → Int) (n : Nat)
    (gb : GetBitContext) :
    d.intraDc block n false gb = .ok (-1, block, (d.predDc n).1, (d.predDc n).2, gb) := rfl

theorem partitionAIntraMb_decodeDcs (r : PartitionReaders) (qscale : Int) (fuel : Nat)
    (gb : GetBitContext) {cbp : Nat} {qscale' : Int} {dir : Nat} {gb' : GetBitContext}
    (decoded : partitionAIntraMb r qscale fuel gb = some (.intra cbp qscale' dir gb')) :
    ∃ gbDc, decodeDcs r.decodeDc [0, 1, 2, 3, 4, 5] 0 gbDc = .ok (dir, gb') := by
  induction fuel generalizing gb with
  | zero => cases decoded
  | succ fuel ih =>
    simp only [partitionAIntraMb] at decoded
    split at decoded
    · cases decoded
    split at decoded
    · cases decoded
    split at decoded
    · exact ih _ decoded
    split at decoded
    · cases decoded
    next dcs =>
      simp only [Option.some.injEq, PartitionAMb.intra.injEq] at decoded
      obtain ⟨-, -, rfl, rfl⟩ := decoded
      exact ⟨_, dcs⟩

/-- **Partition A reads the DC VLCs the block decoder does not use.** Whatever the
readers and the threshold, partition A of an I-VOP reads six `mpeg4_decode_dc` codes for
every intra macroblock; and when the running quantiser is at or above the threshold,
`use_intra_dc_vlc` is false, so the block decoder reads no DC code and decodes each
block's DC again as the run-level coefficient at position 0. -/
theorem partitionA_dc_read_twice (r : PartitionReaders) (qscale intraDcThreshold : Int)
    (fuel : Nat) (gb : GetBitContext) (noDcVlc : intraDcThreshold ≤ qscale) :
    (∀ cbp qscale' dir gb', partitionAIntraMb r qscale fuel gb = some (.intra cbp qscale' dir gb') →
        ∃ gbDc, decodeDcs r.decodeDc [0, 1, 2, 3, 4, 5] 0 gbDc = .ok (dir, gb')) ∧
      useIntraDcVlc qscale intraDcThreshold = false ∧
      ∀ (d : BlockDecoder) (block : Fin 64 → Int) (n : Nat) (gbC : GetBitContext),
        d.intraDc block n (useIntraDcVlc qscale intraDcThreshold) gbC =
          .ok (-1, block, (d.predDc n).1, (d.predDc n).2, gbC) := by
  have late : useIntraDcVlc qscale intraDcThreshold = false := by
    simp only [useIntraDcVlc, decide_eq_false_iff_not, not_lt]
    exact noDcVlc
  refine ⟨fun _ _ _ _ decoded => partitionAIntraMb_decodeDcs r qscale fuel gb decoded, late, ?_⟩
  intro d block n gbC
  rw [late]
  exact intraDc_of_not_useIntraDcVlc d block n gbC

/-- Readers for the codes of a macroblock with zero DC differentials: the intra MCBPC
`1` (cbpc 0, no quantiser change) and `dct_dc_size` 0, `011` for luminance and `11` for
chrominance; every other code reads as illegal. -/
def sizeZeroReaders : PartitionReaders where
  intraMcbpc gb := (if gb.showBits 1 = 1 then 0 else -1, gb.skipBits 1)
  decodeDc n gb :=
    if n < 4 then (if gb.showBits 3 = 3 then 0 else -1, 0, gb.skipBits 3)
    else (if gb.showBits 2 = 3 then 0 else -1, 0, gb.skipBits 2)

/-- An I-VOP macroblock of partition A as `mpeg4_decode_partition_a` reads it: MCBPC `1`
and six DC codes of size 0. -/
def sizeZeroMacroblock : List Bool :=
  [true] ++ (List.replicate 4 [false, true, true]).flatten ++ [true, true, true, true]

theorem partitionA_dc_read_twice_qscale31 :
    (0 : Int) ≤ 31 ∧
      partitionAIntraMb sizeZeroReaders 31 1 ⟨sizeZeroMacroblock, 0⟩ =
        some (.intra 0 31 0 ⟨sizeZeroMacroblock, 17⟩) ∧
      ((∀ cbp qscale' dir gb', partitionAIntraMb sizeZeroReaders 31 1 ⟨sizeZeroMacroblock, 0⟩ =
          some (.intra cbp qscale' dir gb') →
          ∃ gbDc, decodeDcs sizeZeroReaders.decodeDc [0, 1, 2, 3, 4, 5] 0 gbDc = .ok (dir, gb')) ∧
        useIntraDcVlc 31 0 = false ∧
        ∀ (d : BlockDecoder) (block : Fin 64 → Int) (n : Nat) (gbC : GetBitContext),
          d.intraDc block n (useIntraDcVlc 31 0) gbC =
            .ok (-1, block, (d.predDc n).1, (d.predDc n).2, gbC)) :=
  ⟨by decide, by decide,
    partitionA_dc_read_twice sizeZeroReaders 31 0 1 ⟨sizeZeroMacroblock, 0⟩ (by decide)⟩

end Librempeg.Avcodec.Mpeg4Video
