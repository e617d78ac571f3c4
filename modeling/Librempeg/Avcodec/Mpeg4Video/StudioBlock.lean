import Librempeg.Avcodec.Mpeg4Video.StudioSlice

/-!
Contract: the studio-profile intra block decoder of libavcodec/mpeg4videodec.c,
`mpeg4_decode_studio_block`: the DC differential and the predictor `last_dc[cc]`, the
reconstructed and clipped DC, the AC loop over the coefficient groups of `ac_state_tab`
(end of block, zero runs, runs with a level of one, levels, escapes), the dequantisation
and clip of every AC coefficient, the running `mismatch` and the final toggle of
`block[63]`.

The VLC tables (`ff_mpeg4_studio_dc_luma`, `ff_mpeg4_studio_dc_chroma` and
`ff_mpeg4_studio_intra` of libavcodec/mpeg4data.h) are not in this tree: each enters as a
reader giving the symbol, negative for an illegal code, and the reader after it
(`StudioVlcs`). Every signed `int` product and sum goes through `intOp`; `none` marks an
overflow, a symbol past `ac_state_tab`, or a loop that outlasts its fuel. The predictors
are context state, so they are returned also when the block fails after updating them.

Owns: `StudioVlcs`, `StudioBlockContext`, the block decoder and its AC loop, the mismatch
invariant and the coefficient parity it gives.

Does not own: the slice header and the predictor reset (`Mpeg4Video.StudioSlice`).
-/

namespace Librempeg.Avcodec.Mpeg4Video

open Librempeg.Avcodec Librempeg.Avutil

/-- `ac_state_tab`: for each coefficient group, the length of its additional code and the
VLC table of the next group. -/
def acStateTab : List (Nat × Nat) :=
  [(0, 0), (0, 1), (1, 1), (2, 1), (3, 1), (4, 1), (5, 1), (1, 2), (2, 2), (3, 2), (4, 2),
    (5, 2), (6, 2), (1, 3), (2, 4), (3, 5), (4, 6), (5, 7), (6, 8), (7, 9), (8, 10), (0, 11)]

/-- The VLC reads of the studio block decoder: `studio_luma_dc`, `studio_chroma_dc` and
`studio_intra_tab[i]` through `get_vlc2`. -/
structure StudioVlcs where
  lumaDc : GetBitContext → Int × GetBitContext
  chromaDc : GetBitContext → Int × GetBitContext
  intra : Nat → GetBitContext → Int × GetBitContext

/-- What the block decoder reads beyond the studio context: `rgb`, `mpeg_quant`,
`qscale`, `intra_matrix`, `chroma_intra_matrix` and `intra_scantable.permutated`. -/
structure StudioBlockContext where
  studio : StudioContext
  rgb : Bool
  mpegQuant : Bool
  qscale : Int
  intraMatrix : Fin 64 → Nat
  chromaIntraMatrix : Fin 64 → Nat
  scantable : Fin 64 → Fin 64

/-- `min = -1 * (1 << (bits_per_raw_sample + 6))`. -/
def studioMin (ctx : StudioContext) : Int := -2 ^ (ctx.bitsPerRawSample + 6)

/-- `max = (1 << (bits_per_raw_sample + 6)) - 1`. -/
def studioMax (ctx : StudioContext) : Int := 2 ^ (ctx.bitsPerRawSample + 6) - 1

/-- The DC differential: `dct_dc_size` from the luma table for blocks 0..3 and for the
chroma blocks of an RGB picture, else from the chroma table; `get_xbits` of that size, and
a marker after a size over 8. A negative size, an illegal code, reaches `get_xbits`,
whose shift by it is undefined. -/
def studioDctDiff (ctx : StudioBlockContext) (v : StudioVlcs) (n : Nat) (gb : GetBitContext) :
    Option (Except Int (Int × GetBitContext)) :=
  let size := if n < 4 ∨ ctx.rgb then v.lumaDc gb else v.chromaDc gb
  if size.1 = 0 then some (.ok (0, size.2))
  else if size.1 < 0 then none
  else
    let diff := size.2.getXbits size.1.toNat
    if 8 < size.1 then
      let marker := diff.2.getBits1
      if marker.1 then some (.ok (diff.1, marker.2)) else some (.error averrorInvalidData)
    else some (.ok diff)

/-- `s->last_dc[cc] += dct_diff` and the DC before its clip: `last_dc[cc] * (8 >>
intra_dc_precision)`, times `8 >> dct_precision` without `mpeg_quant`. -/
def studioDc (ctx : StudioBlockContext) (lastDc dctDiff : Int) : Option (Int × Int) := do
  let lastDc ← intOp (lastDc + dctDiff)
  let dc ← intOp (lastDc * (8 >>> ctx.studio.intraDcPrecision : Nat))
  if ctx.mpegQuant then pure (lastDc, dc)
  else
    let dc ← intOp (dc * (8 >>> ctx.studio.dctPrecision : Nat))
    pure (lastDc, dc)

/-- The coefficient of a run/level group (7..12), a level group (13..20) or the escape
(21), from the scan position `idx`: the position it takes, its level and the reader, or
the error of a position past 63. -/
def studioGroupLevel (ctx : StudioBlockContext) (group additionalCodeLen : Nat) (idx : Int)
    (gb : GetBitContext) : Option (Except Int (Int × Int × GetBitContext)) :=
  if group ≤ 12 then
    let code := gb.getBits additionalCodeLen
    let run := 2 ^ (additionalCodeLen - 1) + code.1 / 2
    (intOp (idx + run)).map fun idx =>
      if 63 < idx then .error averrorInvalidData
      else .ok (idx, if code.1 % 2 = 1 then 1 else -1, code.2)
  else if 63 < idx then some (.error averrorInvalidData)
  else if group ≤ 20 then
    let level := gb.getXbits additionalCodeLen
    some (.ok (idx, level.1, level.2))
  else
    let len := ctx.studio.bitsPerRawSample + ctx.studio.dctPrecision + 4
    let flc := gb.getBits len
    some (.ok (idx, if flc.1 >>> (len - 1) ≠ 0 then -(((flc.1 ^^^ (2 ^ len - 1)) + 1 : Nat) : Int)
      else flc.1, flc.2))

/-- `block[j] = ((block[j] * quant_matrix[j] * s->qscale) * (1 << shift)) / 16` with
`shift = 3 - dct_precision`, then `av_clip(block[j], min, max)`. -/
def studioDequant (ctx : StudioBlockContext) (matrix : Fin 64 → Nat) (j : Fin 64) (level : Int) :
    Option Int := do
  let scaled ← intOp (level * matrix j)
  let scaled ← intOp (scaled * ctx.qscale)
  let scaled ← intOp (scaled * 2 ^ (3 - ctx.studio.dctPrecision))
  pure (avClip (scaled.tdiv 16) (studioMin ctx.studio) (studioMax ctx.studio))

/-- The AC loop of `mpeg4_decode_studio_block` from a group read with `studio_intra_tab[vlc]`,
at most `fuel` groups: at the end of block, the coefficients, the mismatch and the reader. -/
def studioAcLoop (ctx : StudioBlockContext) (v : StudioVlcs) (matrix : Fin 64 → Nat) :
    Nat → Nat → Int → (Fin 64 → Int) → Int → GetBitContext →
      Option (Except Int ((Fin 64 → Int) × Int × GetBitContext))
  | 0, _, _, _, _, _ => none
  | fuel + 1, vlc, idx, block, mismatch, gb =>
      let read := v.intra vlc gb
      if read.1 < 0 then some (.error averrorInvalidData)
      else
        match acStateTab[read.1.toNat]? with
        | none => none
        | some (additionalCodeLen, next) =>
            if read.1 = 0 then some (.ok (block, mismatch, read.2))
            else if read.1 ≤ 6 then
              let extra := read.2.getBits additionalCodeLen
              let run := 2 ^ additionalCodeLen + if additionalCodeLen ≠ 0 then extra.1 else 0
              match intOp (idx + run) with
              | none => none
              | some idx =>
                  studioAcLoop ctx v matrix fuel next idx block mismatch
                    (if additionalCodeLen ≠ 0 then extra.2 else read.2)
            else
              match studioGroupLevel ctx read.1.toNat additionalCodeLen idx read.2 with
              | none => none
              | some (.error code) => some (.error code)
              | some (.ok (idx, level, gb)) =>
                  if inBlock : 0 ≤ idx ∧ idx ≤ 63 then
                    let j := ctx.scantable ⟨idx.toNat, by omega⟩
                    match studioDequant ctx matrix j level with
                    | none => none
                    | some value =>
                        studioAcLoop ctx v matrix fuel next (idx + 1) (Function.update block j value)
                          (Int.xor mismatch value) gb
                  else none

/-- `cc`, the DC predictor of block `n`: 0 for the luma blocks 0..3, then 1 and 2 in turn. -/
def studioCc (n : Nat) : Fin 3 := if n < 4 then 0 else ⟨n % 2 + 1, by omega⟩

/-- `mpeg4_decode_studio_block(s, block, n)` with at most `fuel` AC groups: the predictors
after the block and the block with the reader, or the error. -/
def mpeg4DecodeStudioBlock (ctx : StudioBlockContext) (v : StudioVlcs) (fuel : Nat)
    (lastDc : Fin 3 → Int) (n : Nat) (gb : GetBitContext) :
    Option ((Fin 3 → Int) × Except Int ((Fin 64 → Int) × GetBitContext)) :=
  let cc := studioCc n
  let matrix := if n < 4 then ctx.intraMatrix else ctx.chromaIntraMatrix
  match studioDctDiff ctx v n gb with
  | none => none
  | some (.error code) => some (lastDc, .error code)
  | some (.ok (dctDiff, gb)) =>
      match studioDc ctx (lastDc cc) dctDiff with
      | none => none
      | some (last, dc) =>
          let lastDc := Function.update lastDc cc last
          let dc := avClip dc (studioMin ctx.studio) (studioMax ctx.studio)
          match studioAcLoop ctx v matrix fuel 0 1 (Function.update (fun _ => 0) 0 dc)
              (Int.xor 1 dc) gb with
          | none => none
          | some (.error code) => some (lastDc, .error code)
          | some (.ok (block, mismatch, gb)) =>
              some (lastDc,
                .ok (Function.update block 63 (Int.xor (block 63) (Int.land mismatch 1)), gb))

/-! ### The mismatch control -/

theorem studioMin_le_studioMax (ctx : StudioContext) : studioMin ctx ≤ studioMax ctx := by
  unfold studioMin studioMax
  have : (0 : Int) < 2 ^ (ctx.bitsPerRawSample + 6) := by positivity
  omega

theorem sum_update_eq (block : Fin 64 → Int) (j : Fin 64) (value : Int) :
    ∑ k, Function.update block j value k = ∑ k, block k - block j + value := by
  rw [Finset.sum_update_of_mem (Finset.mem_univ j), Finset.sdiff_singleton_eq_erase,
    ← Finset.add_sum_erase _ _ (Finset.mem_univ j)]
  omega

theorem studioDequant_bounded {ctx : StudioBlockContext} {matrix : Fin 64 → Nat} {j : Fin 64}
    {level value : Int} (dequantised : studioDequant ctx matrix j level = some value) :
    studioMin ctx.studio ≤ value ∧ value ≤ studioMax ctx.studio := by
  simp only [studioDequant, Option.bind_eq_bind, Option.bind_eq_some, pure, Option.some.injEq]
    at dequantised
  obtain ⟨_, -, _, -, _, -, rfl⟩ := dequantised
  exact avClip_mem _ (studioMin_le_studioMax ctx.studio)

theorem studioGroupLevel_position {ctx : StudioBlockContext} {group additionalCodeLen : Nat}
    {idx position level : Int} {gb gb' : GetBitContext}
    (taken : studioGroupLevel ctx group additionalCodeLen idx gb = some (.ok (position, level, gb'))) :
    idx ≤ position ∧ position ≤ 63 := by
  unfold studioGroupLevel at taken
  split_ifs at taken with runLevel late
  · obtain ⟨moved, summed, stored⟩ := Option.map_eq_some'.mp taken
    obtain ⟨-, rfl⟩ := intOp_eq_some.mp summed
    have positive : 1 ≤ 2 ^ (additionalCodeLen - 1) := Nat.one_le_two_pow
    split_ifs at stored <;> cases stored <;> constructor <;> omega
  all_goals cases taken
  all_goals omega

section Mismatch

variable (ctx : StudioBlockContext)

/-- The AC loop's invariant: the scan has reached `idx ≥ 1`, the scan positions from `idx` on
still hold zero, every coefficient is within `[min, max]`, and the low bit of the mismatch is
the complement of the low bit of the coefficient sum. -/
structure MismatchInvariant (idx : Int) (block : Fin 64 → Int) (mismatch : Int) : Prop where
  started : 1 ≤ idx
  unwritten : ∀ i : Fin 64, idx ≤ i.val → block (ctx.scantable i) = 0
  bounded : ∀ k, studioMin ctx.studio ≤ block k ∧ block k ≤ studioMax ctx.studio
  parity : mismatch.bodd = !(∑ k, block k).bodd

variable {ctx}

theorem MismatchInvariant.skip {idx idx' : Int} {block : Fin 64 → Int} {mismatch : Int}
    (inv : MismatchInvariant ctx idx block mismatch) (ahead : idx ≤ idx') :
    MismatchInvariant ctx idx' block mismatch where
  started := by have := inv.started; omega
  unwritten i later := inv.unwritten i (by omega)
  bounded := inv.bounded
  parity := inv.parity

theorem MismatchInvariant.store {idx position : Int} {block : Fin 64 → Int} {mismatch value : Int}
    (injective : Function.Injective ctx.scantable) (inv : MismatchInvariant ctx idx block mismatch)
    (ahead : idx ≤ position) (inBlock : 0 ≤ position ∧ position ≤ 63)
    (clipped : studioMin ctx.studio ≤ value ∧ value ≤ studioMax ctx.studio) :
    MismatchInvariant ctx (position + 1)
      (Function.update block (ctx.scantable ⟨position.toNat, by omega⟩) value)
      (Int.xor mismatch value) := by
  have empty : block (ctx.scantable ⟨position.toNat, by omega⟩) = 0 :=
    inv.unwritten _ (by simp only; omega)
  refine ⟨by omega, fun i later => ?_, fun k => ?_, ?_⟩
  · have other : ctx.scantable i ≠ ctx.scantable ⟨position.toNat, by omega⟩ :=
      injective.ne (fun same => by rw [same] at later; simp only at later; omega)
    rw [Function.update_noteq other]
    exact inv.unwritten i (by omega)
  · by_cases stored : k = ctx.scantable ⟨position.toNat, by omega⟩
    · subst stored; simpa using clipped
    · rw [Function.update_noteq stored]; exact inv.bounded k
  · rw [bodd_xor, inv.parity, sum_update_eq, empty, sub_zero, Int.bodd_add]
    cases (∑ k, block k).bodd <;> cases value.bodd <;> rfl

theorem MismatchInvariant.initial (injective : Function.Injective ctx.scantable)
    (dcFirst : ctx.scantable 0 = 0) {dc : Int}
    (clipped : studioMin ctx.studio ≤ dc ∧ dc ≤ studioMax ctx.studio) :
    MismatchInvariant ctx 1 (Function.update (fun _ => 0) 0 dc) (Int.xor 1 dc) where
  started := le_refl _
  unwritten i later := by
    have other : ctx.scantable i ≠ 0 := fun atDc => by
      rw [injective (atDc.trans dcFirst.symm)] at later
      simp at later
    rw [Function.update_noteq other]
  bounded k := by
    have ordered := studioMin_le_studioMax ctx.studio
    by_cases atDc : k = 0
    · subst atDc; simpa using clipped
    · rw [Function.update_noteq atDc]
      unfold studioMin studioMax at *
      constructor <;> linarith [pow_pos (two_pos : (0 : Int) < 2) (ctx.studio.bitsPerRawSample + 6)]
  parity := by
    rw [bodd_xor, sum_update_eq]
    simp

/-- **The AC loop keeps the mismatch invariant.** Whatever the tables and the stream, an AC
loop that ends at an end-of-block group leaves every coefficient in `[min, max]` and the
mismatch's low bit the complement of the coefficient sum's. -/
theorem studioAcLoop_invariant (v : StudioVlcs) (matrix : Fin 64 → Nat)
    (injective : Function.Injective ctx.scantable) (fuel : Nat) :
    ∀ {vlc : Nat} {idx : Int} {block : Fin 64 → Int} {mismatch : Int} {gb : GetBitContext}
      {block' : Fin 64 → Int} {mismatch' : Int} {gb' : GetBitContext},
      MismatchInvariant ctx idx block mismatch →
      studioAcLoop ctx v matrix fuel vlc idx block mismatch gb = some (.ok (block', mismatch', gb')) →
      (∀ k, studioMin ctx.studio ≤ block' k ∧ block' k ≤ studioMax ctx.studio) ∧
        mismatch'.bodd = !(∑ k, block' k).bodd := by
  induction fuel with
  | zero => intro _ _ _ _ _ _ _ _ _ ended; cases ended
  | succ fuel ih =>
    intro vlc idx block mismatch gb block' mismatch' gb' inv ended
    simp only [studioAcLoop] at ended
    split at ended
    · cases ended
    split at ended
    · cases ended
    next additionalCodeLen next _ =>
    split at ended
    case isTrue => cases ended; exact ⟨inv.bounded, inv.parity⟩
    split at ended
    case isTrue =>
      split at ended
      · cases ended
      next summed =>
        obtain ⟨-, rfl⟩ := intOp_eq_some.mp summed
        have positive : 1 ≤ 2 ^ additionalCodeLen := Nat.one_le_two_pow
        exact ih (inv.skip (by omega)) ended
    split at ended
    · cases ended
    · cases ended
    next position level gb taken =>
    split at ended
    case isFalse => cases ended
    next inBlock =>
    split at ended
    · cases ended
    next value dequantised =>
    exact ih (inv.store injective (studioGroupLevel_position taken).1 inBlock
      (studioDequant_bounded dequantised)) ended

end Mismatch

theorem studioMin_studioMax_parity (ctx : StudioContext) :
    studioMin ctx % 2 = 0 ∧ studioMax ctx % 2 = 1 := by
  have doubled : (2 : Int) ^ (ctx.bitsPerRawSample + 6) = 2 * 2 ^ (ctx.bitsPerRawSample + 5) := by
    rw [pow_succ]; ring
  unfold studioMin studioMax
  omega

theorem toggleLast_odd {ctx : StudioContext} {block : Fin 64 → Int} {mismatch : Int}
    (bounded : ∀ k, studioMin ctx ≤ block k ∧ block k ≤ studioMax ctx)
    (parity : mismatch.bodd = !(∑ k, block k).bodd) :
    Odd (∑ k, Function.update block 63 (Int.xor (block 63) (Int.land mismatch 1)) k) ∧
      ∀ k, studioMin ctx ≤ Function.update block 63 (Int.xor (block 63) (Int.land mismatch 1)) k ∧
        Function.update block 63 (Int.xor (block 63) (Int.land mismatch 1)) k ≤ studioMax ctx := by
  have sumParity := emod_two_eq_bodd (∑ k, block k)
  have lastParity := emod_two_eq_bodd (block 63)
  have ends := studioMin_studioMax_parity ctx
  have last := bounded 63
  rw [Int.odd_iff, sum_update_eq, land_one]
  cases toggled : mismatch.bodd
  · have odd : (∑ k, block k).bodd = true := by simpa [toggled] using parity
    simp only [Bool.false_eq_true, if_false, xor_zero, Function.update_eq_self, sub_add_cancel]
    rw [sumParity, odd]
    exact ⟨rfl, bounded⟩
  · have even : (∑ k, block k).bodd = false := by simpa [toggled] using parity
    rw [if_pos rfl, xor_one]
    refine ⟨?_, fun k => ?_⟩
    · simp only [even, Bool.false_eq_true, if_false] at sumParity
      split_ifs at lastParity ⊢ <;> omega
    · by_cases atLast : k = 63
      · subst atLast
        rw [Function.update_same]
        split_ifs at lastParity ⊢ <;> omega
      · rw [Function.update_noteq atLast]; exact bounded k

/-- **Mismatch control of a studio block.** For an injective scan table that keeps the DC
position first, every block `mpeg4_decode_studio_block` decodes, whatever the tables and
the stream, has an odd coefficient sum, and every coefficient, `block[63]` after its
toggle included, lies in `[min, max]`. -/
theorem studioBlock_sum_odd (ctx : StudioBlockContext) (v : StudioVlcs) (fuel : Nat)
    (lastDc : Fin 3 → Int) (n : Nat) (gb : GetBitContext)
    (injective : Function.Injective ctx.scantable) (dcFirst : ctx.scantable 0 = 0)
    {lastDc' : Fin 3 → Int} {block : Fin 64 → Int} {gb' : GetBitContext}
    (decoded : mpeg4DecodeStudioBlock ctx v fuel lastDc n gb = some (lastDc', .ok (block, gb'))) :
    Odd (∑ k, block k) ∧ ∀ k, studioMin ctx.studio ≤ block k ∧ block k ≤ studioMax ctx.studio := by
  simp only [mpeg4DecodeStudioBlock] at decoded
  split at decoded
  · cases decoded
  · cases decoded
  split at decoded
  · cases decoded
  next last dc _ =>
  split at decoded
  · cases decoded
  · cases decoded
  next block₀ mismatch gb₀ ended =>
  simp only [Option.some.injEq, Prod.mk.injEq, Except.ok.injEq] at decoded
  obtain ⟨-, rfl, -⟩ := decoded
  obtain ⟨bounded, parity⟩ := studioAcLoop_invariant v _ injective fuel
    (MismatchInvariant.initial injective dcFirst (avClip_mem dc (studioMin_le_studioMax _))) ended
  exact toggleLast_odd bounded parity

/-- Readers standing in for the tables: a one-bit DC size code for size 0 and, in every AC
table, `1` for the level group 14 (a 2-bit level) and `0` for the end of block. -/
def levelOrEndVlcs : StudioVlcs where
  lumaDc gb := (0, gb.skipBits 1)
  chromaDc gb := (0, gb.skipBits 1)
  intra _ gb := (if gb.getBits1.1 then 14 else 0, gb.getBits1.2)

/-- A 10-bit studio context with `dct_precision = intra_dc_precision = 3`: the DC is
`last_dc` itself, and a level is scaled by `quant_matrix[j] * qscale / 16`. -/
def precision3Studio : StudioContext := ⟨1, 1, 1, 0, 10, 3, 3, rfl, by decide, by decide⟩

/-- The block context over `precision3Studio` with `qscale = 1`, matrices of 16 and the
given scan table. -/
def precision3BlockContext (scantable : Fin 64 → Fin 64) : StudioBlockContext :=
  ⟨precision3Studio, false, false, 1, fun _ => 16, fun _ => 16, scantable⟩

/-- A luma block of DC differential 0, the level 2 at scan position 1, and the end of
block. -/
def levelTwoBlockBits : GetBitContext := ⟨[true, true, true, false, false], 0⟩

theorem studioBlock_sum_odd_levelTwo :
    Function.Injective (precision3BlockContext id).scantable ∧
      (precision3BlockContext id).scantable 0 = 0 ∧
      ∃ lastDc' block gb', mpeg4DecodeStudioBlock (precision3BlockContext id) levelOrEndVlcs 2
          (fun _ => 1) 0 levelTwoBlockBits = some (lastDc', .ok (block, gb')) ∧
        Odd (∑ k, block k) ∧
          ∀ k, studioMin precision3Studio ≤ block k ∧ block k ≤ studioMax precision3Studio := by
  obtain ⟨lastDc', block, gb', decoded⟩ : ∃ lastDc' block gb',
      mpeg4DecodeStudioBlock (precision3BlockContext id) levelOrEndVlcs 2 (fun _ => 1) 0
        levelTwoBlockBits = some (lastDc', .ok (block, gb')) := ⟨_, _, _, rfl⟩
  exact ⟨Function.injective_id, rfl, lastDc', block, gb', decoded,
    studioBlock_sum_odd (precision3BlockContext id) levelOrEndVlcs 2 (fun _ => 1) 0
      levelTwoBlockBits Function.injective_id rfl decoded⟩

/-- A scan table that is a permutation but moves the DC position: scan position 1 maps to
coefficient 0, so the level there overwrites the DC the mismatch already took in, and the
block decodes with coefficient sum 2. -/
theorem studioBlock_swapped_sum_even :
    Function.Injective (precision3BlockContext (Equiv.swap 0 1)).scantable ∧
      ∃ lastDc' block gb', mpeg4DecodeStudioBlock (precision3BlockContext (Equiv.swap 0 1))
          levelOrEndVlcs 2 (fun _ => 1) 0 levelTwoBlockBits = some (lastDc', .ok (block, gb')) ∧
        ¬ Odd (∑ k, block k) :=
  ⟨(Equiv.swap 0 1).injective, _, _, _, rfl, by decide⟩

/-! ### The DC predictor over a slice -/

/-- The blocks of a slice in decoding order, `n` each block's number in its macroblock as
`mpeg4_decode_studio_mb` passes it, each from the predictors the one before left, up to
the first error. The macroblock loop around `mpeg4_decode_studio_mb` is in
libavcodec/h263dec.c, not in this tree. -/
def studioBlockRun (ctx : StudioBlockContext) (v : StudioVlcs) (fuel : Nat) :
    List Nat → (Fin 3 → Int) → GetBitContext → Option ((Fin 3 → Int) × Except Int GetBitContext)
  | [], lastDc, gb => some (lastDc, .ok gb)
  | n :: blocks, lastDc, gb =>
      match mpeg4DecodeStudioBlock ctx v fuel lastDc n gb with
      | none => none
      | some (lastDc, .error code) => some (lastDc, .error code)
      | some (lastDc, .ok (_, gb)) => studioBlockRun ctx v fuel blocks lastDc gb

/-- `mpeg4_block_count`: the blocks of a studio macroblock for each `chroma_format`. -/
def mpeg4BlockCount : List Nat := [0, 6, 8, 12]

/-- The block numbers of the slice's first `macroblocks` DCT-coded macroblocks, as the loop of
`mpeg4_decode_studio_mb` numbers them for `chroma_format`. -/
def studioSliceBlocks (chromaFormat macroblocks : Nat) : List Nat :=
  (List.replicate macroblocks (List.range (mpeg4BlockCount.getD chromaFormat 0))).flatten

/-- Readers standing in for the tables: a one-bit code for DC size 11 in both DC tables,
and a one-bit end-of-block code in every AC table. -/
def dcSize11Vlcs : StudioVlcs where
  lumaDc gb := (11, gb.skipBits 1)
  chromaDc gb := (11, gb.skipBits 1)
  intra _ gb := (0, gb.skipBits 1)

section ExactDc

variable {ctx : StudioBlockContext} (dcExact : ctx.studio.intraDcPrecision = 0)
  (acExact : ctx.studio.dctPrecision = 0) (noMpegQuant : ctx.mpegQuant = false)

include dcExact acExact noMpegQuant in
theorem studioDc_exact (last diff : Int) (nonneg : 0 ≤ last + diff) :
    studioDc ctx last diff =
      if (last + diff) * 64 ≤ intMax then some (last + diff, (last + diff) * 64) else none := by
  have eight : (8 >>> 0 : Nat) = 8 := rfl
  simp only [studioDc, dcExact, acExact, noMpegQuant, eight, Nat.cast_ofNat, Bool.false_eq_true,
    if_false, Option.bind_eq_bind, Option.pure_def]
  by_cases fits : (last + diff) * 64 ≤ intMax
  · have inRange : ∀ value : Int, 0 ≤ value → value ≤ (last + diff) * 64 → InIntRange value :=
      fun value low high => inRange_of_bounds (by omega) (by unfold intMax at fits; omega)
    rw [if_pos fits, intOp_of_inRange (inRange _ nonneg (by omega)), Option.some_bind,
      intOp_of_inRange (inRange ((last + diff) * 8) (by omega) (by omega)), Option.some_bind,
      intOp_of_inRange (inRange ((last + diff) * 8 * 8) (by omega) (by omega)), Option.some_bind]
    congr 2
    omega
  · rw [if_neg fits]
    cases summed : intOp (last + diff) with
    | none => rfl
    | some sum =>
      obtain ⟨-, rfl⟩ := intOp_eq_some.mp summed
      cases scaled : intOp ((last + diff) * 8) with
      | none => simp only [Option.some_bind, scaled, Option.none_bind]
      | some dc =>
        obtain ⟨-, rfl⟩ := intOp_eq_some.mp scaled
        simp only [Option.some_bind, scaled,
          intOp_eq_none (show intMax < (last + diff) * 8 * 8 by omega), Option.none_bind]

theorem getBits1_of_ones (gb : GetBitContext) (ones : ∀ bit ∈ gb.buffer, bit = true)
    (inside : gb.index < gb.sizeInBits) : gb.getBits1.1 = true := by
  simp only [GetBitContext.getBits1]
  rw [List.getD_eq_getElem _ _ inside]
  exact ones _ (List.getElem_mem inside)

theorem studioDctDiff_dcSize11 (ctx : StudioBlockContext) (n : Nat) (gb : GetBitContext)
    (ones : ∀ bit ∈ gb.buffer, bit = true) (room : gb.index + 13 ≤ gb.sizeInBits) :
    studioDctDiff ctx dcSize11Vlcs n gb = some (.ok (2047, gb.skipBits 13)) := by
  have elevenOnes := GetBitContext.fromBitsMSB_replicate_true 11
  have onesAfter : ∀ count, ∀ bit ∈ (gb.skipBits count).buffer, bit = true := by simpa using ones
  have diffBits : (gb.skipBits 1).showBits 11 = 2047 := by
    rw [GetBitContext.showBits, GetBitContext.peek_of_ones _ _ (onesAfter 1) (by simp; omega)]
    norm_num at elevenOnes
    omega
  have marker : (gb.skipBits 12).getBits1.1 = true :=
    getBits1_of_ones _ (by simpa using ones) (by simp; omega)
  have eleven : (11 : Int).toNat = 11 := rfl
  simp [studioDctDiff, dcSize11Vlcs, GetBitContext.getXbits, eleven, diffBits, marker,
    GetBitContext.getBits1_snd]

theorem studioAcLoop_dcSize11_end (matrix : Fin 64 → Nat) (fuel : Nat) (idx : Int)
    (block : Fin 64 → Int) (mismatch : Int) (gb : GetBitContext) :
    studioAcLoop ctx dcSize11Vlcs matrix (fuel + 1) 0 idx block mismatch gb =
      some (.ok (block, mismatch, gb.skipBits 1)) := rfl

include dcExact acExact noMpegQuant in
theorem studioBlock_dcSize11 (fuel : Nat) (lastDc : Fin 3 → Int) (n : Nat) (gb : GetBitContext)
    (ones : ∀ bit ∈ gb.buffer, bit = true) (room : gb.index + 14 ≤ gb.sizeInBits)
    (nonneg : 0 ≤ lastDc (studioCc n)) :
    ((lastDc (studioCc n) + 2047) * 64 ≤ intMax →
      ∃ block, mpeg4DecodeStudioBlock ctx dcSize11Vlcs (fuel + 1) lastDc n gb =
        some (Function.update lastDc (studioCc n) (lastDc (studioCc n) + 2047),
          .ok (block, gb.skipBits 14))) ∧
    (intMax < (lastDc (studioCc n) + 2047) * 64 →
      mpeg4DecodeStudioBlock ctx dcSize11Vlcs (fuel + 1) lastDc n gb = none) := by
  have exact := studioDc_exact dcExact acExact noMpegQuant (lastDc (studioCc n)) 2047 (by omega)
  simp only [mpeg4DecodeStudioBlock, studioDctDiff_dcSize11 ctx n gb ones (by omega), exact]
  refine ⟨fun fits => ?_, fun over => ?_⟩
  · simp only [if_pos fits, studioAcLoop_dcSize11_end, GetBitContext.skipBits_skipBits]
    exact ⟨_, rfl⟩
  · simp only [if_neg (not_le.mpr over)]

include dcExact acExact noMpegQuant in
theorem studioBlockRun_dcSize11_overflow (fuel : Nat) :
    ∀ (blocks : List Nat) (lastDc : Fin 3 → Int) (gb : GetBitContext),
      (∀ bit ∈ gb.buffer, bit = true) → gb.index + 14 * blocks.length ≤ gb.sizeInBits →
      (∀ c, 0 ≤ lastDc c ∧ lastDc c * 64 ≤ intMax) →
      ∀ c, intMax < (lastDc c + 2047 * blocks.countP (fun n => studioCc n = c)) * 64 →
        studioBlockRun ctx dcSize11Vlcs (fuel + 1) blocks lastDc gb = none := by
  intro blocks
  induction blocks with
  | nil =>
    intro lastDc gb _ _ fitting c over
    have := (fitting c).2
    simp at over
    omega
  | cons n blocks ih =>
    intro lastDc gb ones room fitting c over
    have block := studioBlock_dcSize11 dcExact acExact noMpegQuant fuel lastDc n gb ones
      (by simp at room; omega) (fitting _).1
    by_cases fits : (lastDc (studioCc n) + 2047) * 64 ≤ intMax
    · obtain ⟨decoded, step⟩ := block.1 fits
      simp only [studioBlockRun, step]
      refine ih _ _ (by simpa using ones) (by simp at room ⊢; omega) (fun c' => ?_) c ?_
      · by_cases same : c' = studioCc n
        · have := (fitting (studioCc n)).1
          subst same; simp only [Function.update_same]; constructor <;> omega
        · rw [Function.update_noteq same]; exact fitting c'
      · rw [List.countP_cons] at over
        by_cases same : c = studioCc n
        · subst same
          simp only [Function.update_same]
          simp at over
          omega
        · simp only [Function.update_noteq same]
          simpa [Ne.symm same] using over
    · simp only [studioBlockRun, block.2 (not_le.mp fits)]

end ExactDc

/-- **The studio DC predictor is never clipped.** With both precisions 0 and without
`mpeg_quant`, a slice whose predictors the slice header reset, of `macroblocks` 4:2:2
macroblocks whose blocks each code the DC differential 2047, has no result once
`64 * (512 + 4 * macroblocks * 2047)` passes `INT_MAX`: the luma predictor grows by 2047 a
block, and `last_dc[0] * 8 * 8` overflows `int` (4098 macroblocks suffice). -/
theorem studioSlice_dc_overflow (ctx : StudioBlockContext)
    (dcExact : ctx.studio.intraDcPrecision = 0) (acExact : ctx.studio.dctPrecision = 0)
    (noMpegQuant : ctx.mpegQuant = false) (fuel macroblocks : Nat)
    (exceeds : intMax < (512 + 4 * macroblocks * 2047) * 64) :
    studioBlockRun ctx dcSize11Vlcs (fuel + 1) (studioSliceBlocks 2 macroblocks)
      (resetStudioDcPredictors ctx.studio) ⟨List.replicate (14 * 8 * macroblocks) true, 0⟩ = none := by
  have reset : ∀ c, resetStudioDcPredictors ctx.studio c = 512 := fun c => by
    simp only [resetStudioDcPredictors, ctx.studio.tenBit, dcExact, acExact]
    norm_num
  have lumaBlocks : ((List.range 8).countP fun n => studioCc n = 0) = 4 := by decide
  apply studioBlockRun_dcSize11_overflow dcExact acExact noMpegQuant fuel _ _ _
    (fun bit member => List.eq_of_mem_replicate member)
    (by simp [studioSliceBlocks, mpeg4BlockCount, GetBitContext.sizeInBits]; omega)
    (fun c => by rw [reset]; unfold intMax; norm_num) 0
  simp only [reset, studioSliceBlocks, mpeg4BlockCount, List.countP_flatten, List.map_replicate,
    List.sum_replicate, smul_eq_mul, List.getD_cons_succ,
    List.getD_cons_zero]
  rw [lumaBlocks]
  push_cast
  omega

/-- A 10-bit 4:2:2 picture of 64 by 65 macroblocks with both precisions 0. -/
def precision0Studio : StudioContext := ⟨64, 65, 4160, 0, 10, 0, 0, rfl, by decide, by decide⟩

/-- The block context over `precision0Studio` without `mpeg_quant`. -/
def precision0BlockContext : StudioBlockContext :=
  ⟨precision0Studio, false, false, 1, fun _ => 16, fun _ => 16, id⟩

theorem studioSlice_dc_overflow_4098 :
    precision0BlockContext.studio.intraDcPrecision = 0 ∧
      precision0BlockContext.studio.dctPrecision = 0 ∧ precision0BlockContext.mpegQuant = false ∧
      intMax < (512 + 4 * 4098 * 2047) * 64 ∧
      studioBlockRun precision0BlockContext dcSize11Vlcs 1 (studioSliceBlocks 2 4098)
        (resetStudioDcPredictors precision0Studio)
        ⟨List.replicate (14 * 8 * 4098) true, 0⟩ = none :=
  ⟨rfl, rfl, rfl, by decide,
    studioSlice_dc_overflow precision0BlockContext rfl rfl rfl 0 4098 (by decide)⟩

end Librempeg.Avcodec.Mpeg4Video
