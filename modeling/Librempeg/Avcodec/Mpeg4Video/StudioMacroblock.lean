import Librempeg.Avcodec.Mpeg4Video.StudioDpcm
import Librempeg.Avcodec.Mpeg4Video.PartitionPasses

/-!
Contract: the studio-profile macroblock of libavcodec/mpeg4videodec.c,
`mpeg4_decode_studio_mb`: the compression mode; the DCT macroblock with its type, the
quantiser it may read and its `mpeg4_block_count[chroma_format]` studio blocks; the DPCM
macroblock with its marker, its direction and its three planes; and the end-of-slice tests
with `next_start_code_studio`.

`mpeg_get_qscale` (libavcodec/mpegvideodec.h) is not in this tree: it enters as a reader.
An error ends the slice, and the next slice header resets the quantiser and the DC
predictors, so an error carries no state. The slice loop around the macroblock is in
libavcodec/h263dec.c, not in this tree.

Owns: `StudioMbContext`, `StudioMbState`, the macroblock and its two loops, the end tests,
what an accepted macroblock holds, and that a macroblock whose reads end past the buffer
passes as `SLICE_OK` while the one after it fails.

Does not own: the studio blocks (`Mpeg4Video.StudioBlock`), the DPCM planes
(`Mpeg4Video.StudioDpcm`), `SliceStatus` (`Mpeg4Video.PartitionPasses`).
-/

namespace Librempeg.Avcodec.Mpeg4Video

open Librempeg.Avcodec Librempeg.Avutil GetBitContext

/-! ### Where a slice ends -/

/-- The byte loop of `next_start_code_studio`: while 24 bits remain and they are not the
start code prefix `0x000001`, skip a byte; at most `fuel` bytes. -/
def nextStartCodeStudioLoop : Nat → GetBitContext → GetBitContext
  | 0, gb => gb
  | fuel + 1, gb =>
      if gb.index + 24 ≤ gb.sizeInBits ∧ gb.showBits 24 ≠ 1 then
        nextStartCodeStudioLoop fuel (gb.getBits 8).2
      else gb

/-- `next_start_code_studio`: `align_get_bits`, then the byte loop, which ends within a round
for each remaining bit. -/
def nextStartCodeStudio (gb : GetBitContext) : GetBitContext :=
  nextStartCodeStudioLoop (gb.sizeInBits + 1) gb.alignGetBits

/-- The end-of-slice tests after a studio macroblock, on `get_bits_left`, an `int`: at least
24 bits left with 23 zero bits ahead end the slice at the next start code; no bit left ends
it; fewer than `8U` bits left, all zero, end it, a test made in `unsigned`. -/
def studioMbEnd (gb : GetBitContext) : SliceStatus × GetBitContext :=
  let left : Int := gb.sizeInBits - gb.index
  if 24 ≤ left ∧ gb.showBits 23 = 0 then (.sliceEnd, nextStartCodeStudio gb)
  else if left = 0 then (.sliceEnd, gb)
  else if toUnsigned left < 8 ∧ gb.showBits left.toNat = 0 then (.sliceEnd, gb)
  else (.ok, gb)

/-! ### The macroblock -/

/-- What the studio macroblock reads beyond the block decoder's context: `chroma_format`,
`chroma_x_shift`, `chroma_y_shift` and `mpeg_get_qscale`. -/
structure StudioMbContext where
  block : StudioBlockContext
  chromaFormat : Nat
  chromaXShift : Nat
  chromaYShift : Nat
  getQscale : GetBitContext → Int × GetBitContext

def StudioMbContext.dpcm (ctx : StudioMbContext) : DpcmContext :=
  ⟨ctx.block.studio, ctx.chromaXShift, ctx.chromaYShift⟩

/-- What a studio macroblock leaves: `dpcm_direction`, `qscale`, the DC predictors, the
blocks `block32[0..]` of a DCT macroblock or the planes `dpcm_macroblock[0..2]` of a DPCM
one, and the reader. -/
structure StudioMbState where
  dpcmDirection : Int
  qscale : Int
  lastDc : Fin 3 → Int
  blocks : List (Fin 64 → Int)
  planes : List (List Int)
  gb : GetBitContext

/-- The block loop of a DCT macroblock over the block numbers `ns`, at most `fuel` AC groups
a block. -/
def studioMbBlocks (ctx : StudioBlockContext) (v : StudioVlcs) (fuel : Nat) :
    List Nat → (Fin 3 → Int) → List (Fin 64 → Int) → GetBitContext →
      Option (Except Int ((Fin 3 → Int) × List (Fin 64 → Int) × GetBitContext))
  | [], lastDc, blocks, gb => some (.ok (lastDc, blocks, gb))
  | n :: ns, lastDc, blocks, gb =>
      match mpeg4DecodeStudioBlock ctx v fuel lastDc n gb with
      | none => none
      | some (_, .error _) => some (.error averrorInvalidData)
      | some (lastDc, .ok (block, gb)) => studioMbBlocks ctx v fuel ns lastDc (blocks ++ [block]) gb

/-- The plane loop of a DPCM macroblock over the components `ns`. -/
def studioMbPlanes (ctx : DpcmContext) :
    List (Fin 3) → (Fin 3 → Int) → List (List Int) → GetBitContext →
      Except Int ((Fin 3 → Int) × List (List Int) × GetBitContext)
  | [], lastDc, planes, gb => .ok (lastDc, planes, gb)
  | n :: ns, lastDc, planes, gb =>
      match mpeg4DecodeDpcmMacroblock ctx lastDc n gb with
      | (_, .error _) => .error averrorInvalidData
      | (lastDc, .ok (plane, gb)) => studioMbPlanes ctx ns lastDc (planes ++ [plane]) gb

/-- `mpeg4_decode_studio_mb` from the quantiser `qscale` and the predictors `lastDc`, at most
`fuel` AC groups a block: the slice status and what the macroblock leaves, or the error. -/
def mpeg4DecodeStudioMb (ctx : StudioMbContext) (v : StudioVlcs) (fuel : Nat) (qscale : Int)
    (lastDc : Fin 3 → Int) (gb : GetBitContext) :
    Option (Except Int (SliceStatus × StudioMbState)) :=
  let compressionMode := gb.getBits1
  if compressionMode.1 then
    let macroblockType := compressionMode.2.getBits1
    let quantiser :=
      if macroblockType.1 then (qscale, macroblockType.2)
      else ctx.getQscale (macroblockType.2.skipBits 1)
    (studioMbBlocks { ctx.block with qscale := quantiser.1 } v fuel
        (List.range (mpeg4BlockCount.getD ctx.chromaFormat 0)) lastDc [] quantiser.2).map
      fun decoded => decoded.map fun (lastDc, blocks, gb) =>
        let ended := studioMbEnd gb
        (ended.1, ⟨0, quantiser.1, lastDc, blocks, [], ended.2⟩)
  else
    let direction := (checkMarker compressionMode.2).getBits1
    some ((studioMbPlanes ctx.dpcm [0, 1, 2] lastDc [] direction.2).map fun (lastDc, planes, gb) =>
      let ended := studioMbEnd gb
      (ended.1, ⟨if direction.1 then -1 else 1, qscale, lastDc, [], planes, ended.2⟩))

/-! ### Where the end tests leave the reader -/

theorem nextStartCodeStudioLoop_stops (fuel : Nat) : ∀ gb : GetBitContext,
    gb.sizeInBits < gb.index + 24 + 8 * fuel →
      let found := nextStartCodeStudioLoop fuel gb
      ((found.sizeInBits < found.index + 24 ∨ found.showBits 24 = 1) ∧
        gb.index ≤ found.index ∧ found.index % 8 = gb.index % 8) ∧
        (gb.index ≤ gb.sizeInBits → found.index ≤ found.sizeInBits) := by
  induction fuel with
  | zero =>
    intro gb short
    simp only [nextStartCodeStudioLoop]
    exact ⟨⟨Or.inl (by omega), le_refl _, trivial⟩, id⟩
  | succ fuel ih =>
    intro gb enough
    simp only [nextStartCodeStudioLoop]
    split_ifs with more
    · have next := ih (gb.getBits 8).2
        (by simp only [getBits_snd, sizeInBits_skipBits, skipBits_index]; omega)
      simp only [getBits_snd, sizeInBits_skipBits, skipBits_index] at next ⊢
      omega
    · simp only [not_and, not_not] at more
      refine ⟨⟨?_, le_refl _, rfl⟩, id⟩
      by_cases room : gb.index + 24 ≤ gb.sizeInBits
      · exact Or.inr (more room)
      · exact Or.inl (by omega)

theorem nextStartCodeStudio_within {gb : GetBitContext} (room : gb.index + 24 ≤ gb.sizeInBits) :
    (nextStartCodeStudio gb).index ≤ (nextStartCodeStudio gb).sizeInBits := by
  have aligned : gb.alignGetBits.index = gb.index + (8 - gb.index % 8) % 8 ∧
      gb.alignGetBits.sizeInBits = gb.sizeInBits := ⟨rfl, rfl⟩
  exact (nextStartCodeStudioLoop_stops (gb.sizeInBits + 1) gb.alignGetBits (by omega)).2
    (by omega)

theorem toUnsigned_of_neg {left : Int} (negative : left < 0) (near : -(2 ^ 32 - 8) ≤ left) :
    ¬toUnsigned left < 8 := by
  unfold toUnsigned
  omega

theorem studioMbEnd_of_past {gb : GetBitContext}
    (past : (studioMbEnd gb).2.sizeInBits < (studioMbEnd gb).2.index)
    (near : (studioMbEnd gb).2.index < (studioMbEnd gb).2.sizeInBits + 2 ^ 32 - 8) :
    (studioMbEnd gb).1 = .ok := by
  simp only [studioMbEnd] at past near ⊢
  split_ifs at past near ⊢ with tail noneLeft shortTail <;> dsimp only at past near
  · have := @nextStartCodeStudio_within gb (by omega)
    omega
  · omega
  · exact absurd shortTail.1 (toUnsigned_of_neg (by omega) (by omega))
  · rfl

/-! ### What an accepted macroblock holds -/

/-- A block the studio block decoder accepts as block `n`, from some predictors and reader. -/
def StudioBlockContext.Decodes (ctx : StudioBlockContext) (v : StudioVlcs) (fuel n : Nat)
    (block : Fin 64 → Int) : Prop :=
  ∃ lastDc lastDc' gb gb',
    mpeg4DecodeStudioBlock ctx v fuel lastDc n gb = some (lastDc', .ok (block, gb'))

theorem studioMbBlocks_accepted (ctx : StudioBlockContext) (v : StudioVlcs) (fuel : Nat) :
    ∀ ns lastDc blocks gb lastDc' blocks' gb',
      studioMbBlocks ctx v fuel ns lastDc blocks gb = some (.ok (lastDc', blocks', gb')) →
      ∃ added, blocks' = blocks ++ added ∧ List.Forall₂ (ctx.Decodes v fuel) ns added := by
  intro ns
  induction ns with
  | nil =>
    intro _ blocks _ _ _ _ accepted
    cases accepted
    exact ⟨[], by simp, .nil⟩
  | cons n ns ih =>
    intro lastDc blocks gb lastDc' blocks' gb' accepted
    simp only [studioMbBlocks] at accepted
    split at accepted
    · cases accepted
    · cases accepted
    · rename_i lastDc₁ block gb₁ decoded
      obtain ⟨added, rfl, forall₂⟩ := ih _ _ _ _ _ _ accepted
      exact ⟨block :: added, by simp, .cons ⟨_, _, _, _, decoded⟩ forall₂⟩

theorem studioMbPlanes_accepted (ctx : DpcmContext) :
    ∀ ns lastDc planes gb lastDc' planes' gb',
      studioMbPlanes ctx ns lastDc planes gb = .ok (lastDc', planes', gb') →
      ∃ added, planes' = planes ++ added ∧ List.Forall₂ ctx.PlaneFits ns added := by
  intro ns
  induction ns with
  | nil =>
    intro _ planes _ _ _ _ accepted
    cases accepted
    exact ⟨[], by simp, .nil⟩
  | cons n ns ih =>
    intro lastDc planes gb lastDc' planes' gb' accepted
    simp only [studioMbPlanes] at accepted
    split at accepted
    · cases accepted
    · rename_i lastDc₁ plane gb₁ decoded
      obtain ⟨added, rfl, forall₂⟩ := ih _ _ _ _ _ _ accepted
      exact ⟨plane :: added, by simp,
        .cons (mpeg4DecodeDpcmMacroblock_plane (congrArg Prod.snd decoded)) forall₂⟩

/-- **An accepted studio macroblock** is either a DCT macroblock, `dpcm_direction = 0`, of
`mpeg4_block_count[chroma_format]` blocks each accepted by the block decoder as its number
at the macroblock's quantiser, or a DPCM macroblock, `dpcm_direction = ±1` at the quantiser
it found, of three whole in-range planes; and its status and reader are the end tests'. -/
theorem mpeg4DecodeStudioMb_accepted {ctx : StudioMbContext} {v : StudioVlcs} {fuel : Nat}
    {qscale : Int} {lastDc : Fin 3 → Int} {gb : GetBitContext} {status : SliceStatus}
    {st : StudioMbState}
    (accepted : mpeg4DecodeStudioMb ctx v fuel qscale lastDc gb = some (.ok (status, st))) :
    (∃ gb', studioMbEnd gb' = (status, st.gb)) ∧
      ((st.dpcmDirection = 0 ∧ st.planes = [] ∧
          List.Forall₂ ({ ctx.block with qscale := st.qscale }.Decodes v fuel)
            (List.range (mpeg4BlockCount.getD ctx.chromaFormat 0)) st.blocks) ∨
        ((st.dpcmDirection = -1 ∨ st.dpcmDirection = 1) ∧ st.qscale = qscale ∧ st.blocks = [] ∧
          List.Forall₂ ctx.dpcm.PlaneFits [0, 1, 2] st.planes)) := by
  by_cases compressed : gb.getBits1.1
  · simp only [mpeg4DecodeStudioMb, compressed, if_true, Option.map_eq_some'] at accepted
    obtain ⟨result, blocks, mapped⟩ := accepted
    obtain ⟨⟨lastDc', blocks', gb'⟩, rfl, built⟩ := exists_of_map_eq_ok mapped
    simp only [Prod.mk.injEq] at built
    obtain ⟨rfl, rfl⟩ := built
    obtain ⟨added, rfl, forall₂⟩ := studioMbBlocks_accepted _ _ _ _ _ _ _ _ _ _ blocks
    exact ⟨⟨gb', rfl⟩, .inl ⟨rfl, rfl, by simpa using forall₂⟩⟩
  · simp only [mpeg4DecodeStudioMb, compressed, Bool.false_eq_true, if_false,
      Option.some.injEq] at accepted
    obtain ⟨⟨lastDc', planes', gb'⟩, planes, built⟩ := exists_of_map_eq_ok accepted
    simp only [Prod.mk.injEq] at built
    obtain ⟨rfl, rfl⟩ := built
    obtain ⟨added, rfl, forall₂⟩ := studioMbPlanes_accepted _ _ _ _ _ _ _ _ planes
    refine ⟨⟨gb', rfl⟩, .inr ⟨?_, rfl, rfl, by simpa using forall₂⟩⟩
    split_ifs <;> simp

/-! ### Past the end of the buffer -/

theorem mpeg4DecodeStudioMb_of_end (ctx : StudioMbContext) (v : StudioVlcs) (fuel : Nat)
    (qscale : Int) (lastDc : Fin 3 → Int) {gb : GetBitContext} (atEnd : gb.sizeInBits ≤ gb.index) :
    mpeg4DecodeStudioMb ctx v fuel qscale lastDc gb = some (.error averrorInvalidData) := by
  have noMean : ((((checkMarker (gb.getBits1.2)).getBits1.2).getBits
      ctx.dpcm.studio.bitsPerRawSample).1 = 0) := by
    simp only [getBits, getBits1_snd, checkMarker, skipBits_skipBits]
    exact showBits_of_end _ _ (by simp only [sizeInBits_skipBits, skipBits_index]; omega)
  simp only [mpeg4DecodeStudioMb, getBits1_fst_of_end gb atEnd, Bool.false_eq_true, if_false,
    studioMbPlanes, mpeg4DecodeDpcmMacroblock, noMean, if_true, Except.map]

/-- **An overread is caught one macroblock late.** A studio macroblock whose reads end past
the buffer, by fewer than `2^32 - 8` bits, is reported as `SLICE_OK`: `get_bits_left` is
negative, and as `unsigned` it passes the last end test. The macroblock after it, read from
the zero padding, fails. -/
theorem studioMb_overread {ctx : StudioMbContext} {v : StudioVlcs} {fuel : Nat} {qscale : Int}
    {lastDc : Fin 3 → Int} {gb : GetBitContext} {status : SliceStatus} {st : StudioMbState}
    (accepted : mpeg4DecodeStudioMb ctx v fuel qscale lastDc gb = some (.ok (status, st)))
    (past : st.gb.sizeInBits < st.gb.index) (near : st.gb.index < st.gb.sizeInBits + 2 ^ 32 - 8) :
    status = .ok ∧
      mpeg4DecodeStudioMb ctx v fuel st.qscale st.lastDc st.gb = some (.error averrorInvalidData) := by
  obtain ⟨⟨gb', ended⟩, -⟩ := mpeg4DecodeStudioMb_accepted accepted
  have reported := @studioMbEnd_of_past gb' (by rw [ended]; exact past)
    (by rw [ended]; exact near)
  rw [ended] at reported
  exact ⟨reported, mpeg4DecodeStudioMb_of_end ctx v fuel _ _ past.le⟩

/-- A 4:2:0 DCT macroblock of the 10-bit context with `dct_precision = 3`, whose stand-in
tables read each block as a DC size bit and an end-of-block bit: from a two-bit buffer its
six blocks read twelve bits past the end. -/
def overreadContext : StudioMbContext :=
  ⟨precision3BlockContext id, 1, 1, 1, linearQscale⟩

theorem studioMb_overread_twoBits : ∃ st : StudioMbState,
    mpeg4DecodeStudioMb overreadContext levelOrEndVlcs 2 2 (fun _ => 0) ⟨[true, true], 0⟩ =
        some (.ok (.ok, st)) ∧
      st.gb.sizeInBits < st.gb.index ∧ st.gb.index < st.gb.sizeInBits + 2 ^ 32 - 8 ∧
      (SliceStatus.ok = .ok ∧ mpeg4DecodeStudioMb overreadContext levelOrEndVlcs 2 st.qscale st.lastDc
        st.gb = some (.error averrorInvalidData)) :=
  ⟨_, rfl, by decide, by decide, @studioMb_overread overreadContext levelOrEndVlcs 2 2 (fun _ => 0)
    ⟨[true, true], 0⟩ .ok _ rfl (by decide) (by decide)⟩

end Librempeg.Avcodec.Mpeg4Video
