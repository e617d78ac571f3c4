import Librempeg.Avcodec.GetBits

/-!
Contract: `mpeg4_is_resync` (libavcodec/mpeg4videodec.c), the look-ahead after a
macroblock for a resync marker: it skips the macroblock stuffing the picture type
allows, then matches the byte-alignment stuffing and the resync marker, and returns
the macroblock number of the next video packet (0 when there is none).

`ff_mpeg4_get_video_packet_prefix_length` is not in this tree; its value for the
current picture enters as `prefixLength`.

Owns: the stuffing loop, the end-of-stream test, the prefix table and the marker
probe, and the comparison of the skipped stuffing with the stuffing `mpeg4_decode_mb`
accepts.
-/

namespace Librempeg.Avcodec.Mpeg4Video

open Librempeg.Avcodec

/-- The decoder fields `mpeg4_is_resync` reads. `pictType` is `AV_PICTURE_TYPE_I = 1`,
`P = 2`, `B = 3` or `S = 4`. -/
structure ResyncContext where
  pictType : Nat
  partitionedFrame : Bool
  noPaddingWorkaround : Bool
  resyncMarker : Bool
  mbNum : Nat
  prefixLength : Nat

/-- `while (v <= 0xFF) { ... skip_bits(gb, 8 + pict_type); ... }`: the macroblock stuffing
loop (`bits_count` is `get_bits_count` throughout). Each round skips at least 9 bits
and past the end the shown bits are zero, which stops the loop, so `size_in_bits + 1`
rounds never run out. -/
def skipResyncStuffing (ctx : ResyncContext) : Nat → GetBitContext → Option GetBitContext
  | 0, _ => none
  | fuel + 1, gb =>
      let v := gb.showBits 16
      if v ≤ 0xFF then
        if ctx.pictType = 3 ∨ v >>> (8 - ctx.pictType) ≠ 1 ∨ ctx.partitionedFrame then some gb
        else skipResyncStuffing ctx fuel (gb.skipBits (8 + ctx.pictType))
      else some gb

/-- `mpeg4_resync_prefix`: the 16 bits that follow the byte-alignment stuffing at each
bit position within a byte, when a resync marker follows. -/
def resyncPrefix : List Nat :=
  [0x7F00, 0x7E00, 0x7C00, 0x7800, 0x7000, 0x6000, 0x4000, 0x0000]

/-- `for (len = 0; len < 32; len++) if (get_bits1(gb)) break;`, from `len`. -/
def countPrefixZeros : Nat → Nat → GetBitContext → Nat × GetBitContext
  | 0, len, gb => (len, gb)
  | remaining + 1, len, gb =>
      let (bit, gb) := gb.getBits1
      if bit then (len, gb) else countPrefixZeros remaining (len + 1) gb

/-- `mpeg4_is_resync(ctx)`: the macroblock number of the next video packet, `-1` for an
invalid one, 0 when no marker follows; and the reader, left past the stuffing. -/
def mpeg4IsResync (ctx : ResyncContext) (gb : GetBitContext) : Option (Int × GetBitContext) := do
  if ctx.noPaddingWorkaround ∧ ¬ctx.resyncMarker then return (0, gb)
  let gb ← skipResyncStuffing ctx (gb.sizeInBits + 1) gb
  let bitsCount := gb.index
  let v := gb.showBits 16
  if bitsCount + 8 ≥ gb.sizeInBits then
    let v := v >>> 8 ||| 0x7F >>> (7 - bitsCount % 8)
    return (if v = 0x7F then ctx.mbNum else 0, gb)
  if v = resyncPrefix.getD (bitsCount % 8) 0 then
    let mbNumBits := avLog2 ((((ctx.mbNum : Int) - 1) % 2 ^ 32).toNat) + 1
    let (len, probe) := countPrefixZeros 32 0 (gb.skipBits 1).alignGetBits
    let (mbNum, probe) := probe.getBits mbNumBits
    let mbNum : Int :=
      if mbNum = 0 ∨ mbNum > ctx.mbNum ∨ probe.index + 6 > probe.sizeInBits then -1 else mbNum
    if len ≥ ctx.prefixLength then return (mbNum, gb)
  return (0, gb)

/-! ## Stuffing before a resync marker -/

/-- The stuffing `mpeg4_decode_mb`'s MCBPC loops skip: `0000 0000 1` (intra MCBPC 8) in an
I-VOP, a `0` not_coded bit and `0000 0000 1` (inter MCBPC 20) in a P- or S-VOP. -/
def macroblockStuffing (pictType : Nat) : List Bool :=
  (if pictType = 1 then [] else [false]) ++ List.replicate 8 false ++ [true]

/-- The bits after the last macroblock of a packet, starting at a byte boundary: `count`
stuffing codes, the byte-alignment stuffing (a `0`, then `1`s to the boundary), a
resync marker of `prefixLength` zeros and a `1`, the 7-bit macroblock number `mbIndex`
and eight more bits. -/
def stuffedResync (pictType count prefixLength mbIndex : Nat) : List Bool :=
  let stuffing := (List.replicate count (macroblockStuffing pictType)).flatten
  let alignment := 8 - stuffing.length % 8
  stuffing ++ (false :: List.replicate (alignment - 1) true) ++
    List.replicate prefixLength false ++ [true] ++
    (List.range 7).reverse.map (fun bit => mbIndex.testBit bit) ++ List.replicate 8 false

/-- **The S-VOP look-ahead skips the wrong stuffing length.** One stuffing code before the
resync marker of macroblock 5 in a 99-macroblock S-VOP: without it `mpeg4_is_resync`
finds the marker, with it the loop skips nothing (it expects `8 + pict_type = 12` bits)
and the call returns 0; the same bits in a P-VOP are skipped and the marker found. -/
theorem mpeg4IsResync_sVop_stuffing :
    (mpeg4IsResync ⟨4, false, false, true, 99, 16⟩ ⟨stuffedResync 4 0 16 5, 0⟩).map Prod.fst =
        some 5 ∧
      (mpeg4IsResync ⟨4, false, false, true, 99, 16⟩ ⟨stuffedResync 4 1 16 5, 0⟩).map Prod.fst =
        some 0 ∧
      (mpeg4IsResync ⟨2, false, false, true, 99, 16⟩ ⟨stuffedResync 2 1 16 5, 0⟩).map Prod.fst =
        some 5 := by
  decide

end Librempeg.Avcodec.Mpeg4Video
