import Librempeg.Avcodec.Mpeg4Video.DcPrediction
import Librempeg.Avcodec.Mpeg4Video.Partitions
import Librempeg.Avcodec.Mpeg4Video.Resync

/-!
Contract: the three passes over a data-partitioned video packet in
libavcodec/mpeg4videodec.c. `mpeg4_decode_partition_a` walks the macroblocks from
`(resync_mb_x, resync_mb_y)` in raster order until a `DC_MARKER` or `MOTION_MARKER`, or
the end of the frame, and fills `cbp_table`, `mb_type`, `qscale_table` and
`pred_dir_table`. `ff_mpeg4_decode_partitions` checks the count against `mb_num` and the
marker. `mpeg4_decode_partition_b` walks as many macroblocks again and completes the
tables. `mpeg4_decode_partitioned_mb` decodes each macroblock's texture and decides
where the slice ends.

The two partition loops are kept as C writes them: two nested loops each, with their own
guards (`mb_y < mb_height` for A; `mb_num < mb_count` for B), as fuel-bounded structural
recursion. Their agreement with the raster walk `(m mod mb_width, m / mb_width)` is proved
here, not assumed. The VLC tables, `ff_h263_pred_motion`, `ff_h263_decode_motion` and the
slice loop of libavcodec/h263dec.c are not in this tree: the VLCs and the motion-vector
reads enter as readers, the motion vectors themselves are not modelled, and the texture
pass is the raster walk of `mpeg4_decode_partitioned_mb` calls. `mb_stride = mb_width + 1`
and `mb_num = mb_width * mb_height` as libavcodec/mpegvideo.c (not in this tree) sets them.

Owns: the raster walks and their equivalence lemmas, the P- and S-VOP branch of partition
A, partition B, the marker checks of `ff_mpeg4_decode_partitions`, and the texture
pass's end-of-slice decision.

Does not own: the I-VOP macroblock of partition A and the block loop
(`Mpeg4Video.Partitions`), `mpeg4_is_resync` (`Mpeg4Video.Resync`).
-/

namespace Librempeg.Avcodec.Mpeg4Video

open Librempeg.Avcodec Librempeg.Avutil

/-! ### The loops of the two partitions and the raster walk -/

/-- What partition A does at one macroblock: meet the partition's end marker, fail, or
decode it. -/
inductive PartitionAStep (σ : Type)
  | marker
  | error (code : Int)
  | decoded (st : σ)

/-- How one pass of partition A's `mb_x` loop ends: the row runs out, with `mb_num` and the
state, or the function returns. -/
inductive RowExit (σ : Type)
  | rowEnd (mbNum : Nat) (st : σ)
  | returned (result : Except Int (Nat × σ))

section Walks

variable {σ : Type} (w : Nat)

/-- Partition A's `for (; s->mb_x < s->mb_width; s->mb_x++)` over row `y` from column `x`,
`columns = mb_width - x` rounds: `mb_num++`, then the macroblock; a marker returns
`mb_num - 1`. -/
def partitionARowLoop (mb : Nat → Nat → σ → Option (PartitionAStep σ)) (y : Nat) :
    Nat → Nat → Nat → σ → Option (RowExit σ)
  | 0, _, mbNum, st => some (.rowEnd mbNum st)
  | columns + 1, x, mbNum, st =>
      match mb x y st with
      | none => none
      | some .marker => some (.returned (.ok (mbNum, st)))
      | some (.error code) => some (.returned (.error code))
      | some (.decoded st) => partitionARowLoop mb y columns (x + 1) (mbNum + 1) st

/-- Partition A's `for (; s->mb_y < s->mb_height; s->mb_y++)`, `rows = mb_height - y`
rounds, with `s->mb_x = 0` after each row; past the last row it returns `mb_num`. -/
def partitionALoop (mb : Nat → Nat → σ → Option (PartitionAStep σ)) :
    Nat → Nat → Nat → Nat → σ → Option (Except Int (Nat × σ))
  | 0, _, _, mbNum, st => some (.ok (mbNum, st))
  | rows + 1, y, x, mbNum, st =>
      match partitionARowLoop mb y (w - x) x mbNum st with
      | none => none
      | some (.returned result) => some result
      | some (.rowEnd mbNum st) => partitionALoop mb rows (y + 1) 0 mbNum st

/-- Partition B's `for (; mb_num < mb_count && s->mb_x < s->mb_width; s->mb_x++)` over row
`y` from column `x`, `columns = mb_width - x` rounds. -/
def partitionBRowLoop (mb : Nat → Nat → σ → Option (Except Int σ)) (count y : Nat) :
    Nat → Nat → Nat → σ → Option (Except Int (Nat × σ))
  | 0, _, mbNum, st => some (.ok (mbNum, st))
  | columns + 1, x, mbNum, st =>
      if mbNum < count then
        match mb x y st with
        | none => none
        | some (.error code) => some (.error code)
        | some (.ok st) => partitionBRowLoop mb count y columns (x + 1) (mbNum + 1) st
      else some (.ok (mbNum, st))

/-- Partition B's `for (s->mb_y = s->resync_mb_y; mb_num < mb_count; s->mb_y++)`: after
each row it returns once `mb_num >= mb_count`, else sets `s->mb_x = 0`. No guard bounds
the rows; each row after the first visits a macroblock, so `mb_count + 1` rounds of fuel
never run out. -/
def partitionBLoop (mb : Nat → Nat → σ → Option (Except Int σ)) (count : Nat) :
    Nat → Nat → Nat → Nat → σ → Option (Except Int σ)
  | 0, _, _, _, _ => none
  | rows + 1, y, x, mbNum, st =>
      if mbNum < count then
        match partitionBRowLoop mb count y (w - x) x mbNum st with
        | none => none
        | some (.error code) => some (.error code)
        | some (.ok (mbNum, st)) =>
            if count ≤ mbNum then some (.ok st) else partitionBLoop mb count rows (y + 1) 0 mbNum st
      else some (.ok st)

/-- The raster walk with partition A's exits: `remaining` macroblocks from number `m`, at
`(m mod mb_width, m / mb_width)` each. -/
def rasterWalkA (mb : Nat → Nat → σ → Option (PartitionAStep σ)) :
    Nat → Nat → Nat → σ → Option (Except Int (Nat × σ))
  | 0, _, mbNum, st => some (.ok (mbNum, st))
  | remaining + 1, m, mbNum, st =>
      match mb (m % w) (m / w) st with
      | none => none
      | some .marker => some (.ok (mbNum, st))
      | some (.error code) => some (.error code)
      | some (.decoded st) => rasterWalkA mb remaining (m + 1) (mbNum + 1) st

/-- The raster walk of `count` macroblocks from number `m`. -/
def rasterWalkB (mb : Nat → Nat → σ → Option (Except Int σ)) :
    Nat → Nat → σ → Option (Except Int σ)
  | 0, _, st => some (.ok st)
  | count + 1, m, st =>
      match mb (m % w) (m / w) st with
      | none => none
      | some (.error code) => some (.error code)
      | some (.ok st) => rasterWalkB mb count (m + 1) st

theorem raster_mod_div {x y : Nat} (inRow : x < w) :
    (x + y * w) % w = x ∧ (x + y * w) / w = y := by
  have positive : 0 < w := by omega
  refine ⟨by rw [Nat.add_mul_mod_self_right, Nat.mod_eq_of_lt inRow], ?_⟩
  rw [Nat.add_mul_div_right _ _ positive, Nat.div_eq_of_lt inRow, Nat.zero_add]

theorem raster_succ (m : Nat) (positive : 0 < w) :
    (m + 1) % w = (if m % w + 1 < w then m % w + 1 else 0) ∧
      (m + 1) / w = (if m % w + 1 < w then m / w else m / w + 1) := by
  have split := Nat.mod_add_div m w
  have below := Nat.mod_lt m positive
  split_ifs with inRow
  · rw [show m + 1 = m % w + 1 + m / w * w by rw [Nat.mul_comm]; omega]
    exact raster_mod_div w inRow
  · rw [show m + 1 = 0 + (m / w + 1) * w by rw [Nat.add_mul, Nat.one_mul, Nat.mul_comm]; omega]
    exact raster_mod_div w positive

theorem rasterWalkA_row (mb : Nat → Nat → σ → Option (PartitionAStep σ)) (y rest : Nat) :
    ∀ (columns x mbNum : Nat) (st : σ), x + columns ≤ w →
      rasterWalkA w mb (columns + rest) (x + y * w) mbNum st =
        match partitionARowLoop mb y columns x mbNum st with
        | none => none
        | some (.returned result) => some result
        | some (.rowEnd mbNum st) => rasterWalkA w mb rest (x + columns + y * w) mbNum st := by
  intro columns
  induction columns with
  | zero => intro x mbNum st _; simp [partitionARowLoop]
  | succ columns ih =>
    intro x mbNum st inRow
    obtain ⟨atX, atY⟩ := raster_mod_div w (y := y) (show x < w by omega)
    rw [show columns + 1 + rest = (columns + rest) + 1 by omega]
    simp only [rasterWalkA, partitionARowLoop, atX, atY]
    split
    · rfl
    · rfl
    · rfl
    · rw [show x + y * w + 1 = x + 1 + y * w by omega, ih (x + 1) _ _ (by omega),
        show x + 1 + columns = x + (columns + 1) by omega]

/-- **Partition A's nested loops are the raster walk.** From column `x ≤ mb_width` of row
`y`, the `mb_y` and `mb_x` loops over `rows` rows decode exactly what the raster walk from
macroblock `x + y * mb_width` decodes over the same `rows * mb_width - x` macroblocks. -/
theorem partitionALoop_eq_rasterWalkA (mb : Nat → Nat → σ → Option (PartitionAStep σ)) :
    ∀ (rows y x mbNum : Nat) (st : σ), x ≤ w →
      partitionALoop w mb rows y x mbNum st = rasterWalkA w mb (rows * w - x) (x + y * w) mbNum st := by
  intro rows
  induction rows with
  | zero => intro y x mbNum st _; simp [partitionALoop, rasterWalkA]
  | succ rows ih =>
    intro y x mbNum st atMost
    rw [show (rows + 1) * w - x = (w - x) + rows * w by rw [Nat.succ_mul]; omega,
      rasterWalkA_row w mb y (rows * w) (w - x) x mbNum st (by omega)]
    simp only [partitionALoop]
    split
    · rfl
    · rfl
    · rw [ih (y + 1) 0 _ _ (Nat.zero_le w), Nat.sub_zero,
        show x + (w - x) + y * w = 0 + (y + 1) * w by rw [Nat.succ_mul]; omega]

theorem rasterWalkB_add (mb : Nat → Nat → σ → Option (Except Int σ)) :
    ∀ (first rest m : Nat) (st : σ),
      rasterWalkB w mb (first + rest) m st =
        match rasterWalkB w mb first m st with
        | some (.ok st) => rasterWalkB w mb rest (m + first) st
        | other => other := by
  intro first
  induction first with
  | zero => intro rest m st; simp [rasterWalkB]
  | succ first ih =>
    intro rest m st
    rw [show first + 1 + rest = (first + rest) + 1 by omega]
    simp only [rasterWalkB]
    split
    · rfl
    · rfl
    · rw [ih, show m + 1 + first = m + (first + 1) by omega]

theorem partitionBRowLoop_eq (mb : Nat → Nat → σ → Option (Except Int σ)) (count y : Nat) :
    ∀ (columns x mbNum : Nat) (st : σ), x + columns ≤ w →
      partitionBRowLoop mb count y columns x mbNum st =
        (rasterWalkB w mb (min columns (count - mbNum)) (x + y * w) st).map
          (Except.map fun st => (mbNum + min columns (count - mbNum), st)) := by
  intro columns
  induction columns with
  | zero => intro x mbNum st _; simp [partitionBRowLoop, rasterWalkB, Except.map]
  | succ columns ih =>
    intro x mbNum st inRow
    by_cases within : mbNum < count
    · obtain ⟨atX, atY⟩ := raster_mod_div w (y := y) (show x < w by omega)
      rw [show min (columns + 1) (count - mbNum) = min columns (count - (mbNum + 1)) + 1 by omega]
      simp only [partitionBRowLoop, if_pos within, rasterWalkB, atX, atY]
      split
      · rfl
      · rfl
      · rw [ih (x + 1) _ _ (by omega), show x + y * w + 1 = x + 1 + y * w by omega,
          show mbNum + 1 + min columns (count - (mbNum + 1)) =
            mbNum + (min columns (count - (mbNum + 1)) + 1) by omega]
    · rw [show min (columns + 1) (count - mbNum) = 0 by omega]
      simp [partitionBRowLoop, within, rasterWalkB, Except.map]

/-- **Partition B's nested loops are the raster walk.** From column `x < mb_width` of row
`y`, with `mb_num` macroblocks done and more rounds than the `mb_count - mb_num` still to
do, the `mb_y` and `mb_x` loops decode exactly what the raster walk from macroblock
`x + y * mb_width` decodes over `mb_count - mb_num` macroblocks. -/
theorem partitionBLoop_eq_rasterWalkB (mb : Nat → Nat → σ → Option (Except Int σ))
    (count : Nat) (positive : 0 < w) :
    ∀ (rows y x mbNum : Nat) (st : σ), x < w → count - mbNum < rows →
      partitionBLoop w mb count rows y x mbNum st =
        rasterWalkB w mb (count - mbNum) (x + y * w) st := by
  intro rows
  induction rows with
  | zero => intro y x mbNum st _ fuel; omega
  | succ rows ih =>
    intro y x mbNum st inRow fuel
    by_cases within : mbNum < count
    · simp only [partitionBLoop, if_pos within]
      rw [partitionBRowLoop_eq w mb count y (w - x) x mbNum st (by omega)]
      generalize taken : min (w - x) (count - mbNum) = j
      rw [show count - mbNum = j + (count - mbNum - j) by omega, rasterWalkB_add]
      cases walk : rasterWalkB w mb j (x + y * w) st with
      | none => rfl
      | some result =>
        cases result with
        | error code => rfl
        | ok st =>
          simp only [Option.map_some', Except.map]
          by_cases done : count ≤ mbNum + j
          · rw [if_pos done, show count - mbNum - j = 0 by omega]
            rfl
          · rw [if_neg done, ih _ _ _ _ positive (by omega),
              show count - (mbNum + j) = count - mbNum - j by omega,
              show 0 + (y + 1) * w = x + y * w + j by rw [Nat.succ_mul]; omega]
    · simp only [partitionBLoop, if_neg within, show count - mbNum = 0 by omega]
      rfl

/-- The positions `(m mod mb_width, m / mb_width)` of the `count` macroblocks from number
`start`. -/
def rasterPositions (start count : Nat) : List (Nat × Nat) :=
  (List.range count).map fun i => ((start + i) % w, (start + i) / w)

theorem rasterPositions_succ (start count : Nat) :
    rasterPositions w start (count + 1) =
      (start % w, start / w) :: rasterPositions w (start + 1) count := by
  simp only [rasterPositions, List.range_succ_eq_map, List.map_cons, List.map_map, Nat.add_zero]
  congr 2
  funext i
  simp only [Function.comp, Nat.succ_eq_add_one, Nat.add_right_comm start 1 i, Nat.add_assoc]

def recordA (mb : Nat → Nat → σ → Option (PartitionAStep σ)) (x y : Nat)
    (st : σ × List (Nat × Nat)) : Option (PartitionAStep (σ × List (Nat × Nat))) :=
  (mb x y st.1).map fun
    | .marker => .marker
    | .error code => .error code
    | .decoded next => .decoded (next, st.2 ++ [(x, y)])

def recordB (mb : Nat → Nat → σ → Option (Except Int σ)) (x y : Nat)
    (st : σ × List (Nat × Nat)) : Option (Except Int (σ × List (Nat × Nat))) :=
  (mb x y st.1).map (Except.map fun next => (next, st.2 ++ [(x, y)]))

theorem rasterWalkA_record (mb : Nat → Nat → σ → Option (PartitionAStep σ)) :
    ∀ (remaining m mbNum : Nat) (st final : σ) (trace : List (Nat × Nat)) (count : Nat),
      rasterWalkA w mb remaining m mbNum st = some (.ok (count, final)) →
        mbNum ≤ count ∧ rasterWalkA w (recordA mb) remaining m mbNum (st, trace) =
          some (.ok (count, final, trace ++ rasterPositions w m (count - mbNum))) := by
  intro remaining
  induction remaining with
  | zero =>
    intro m mbNum st final trace count walk
    simp only [rasterWalkA, Option.some.injEq, Except.ok.injEq, Prod.mk.injEq] at walk
    obtain ⟨rfl, rfl⟩ := walk
    simp [rasterWalkA, rasterPositions]
  | succ remaining ih =>
    intro m mbNum st final trace count walk
    simp only [rasterWalkA, recordA] at walk ⊢
    cases step : mb (m % w) (m / w) st with
    | none => simp [step] at walk
    | some result =>
      cases result with
      | marker =>
        simp only [step, Option.some.injEq, Except.ok.injEq, Prod.mk.injEq] at walk
        obtain ⟨rfl, rfl⟩ := walk
        simp [rasterPositions]
      | error code => simp [step] at walk
      | decoded next =>
        simp only [step] at walk
        obtain ⟨atLeast, traced⟩ := ih _ _ _ _ (trace ++ [(m % w, m / w)]) _ walk
        refine ⟨by omega, ?_⟩
        simp only [Option.map_some']
        rw [traced, show count - mbNum = count - (mbNum + 1) + 1 by omega, rasterPositions_succ,
          List.append_assoc, List.singleton_append]

theorem rasterWalkB_record (mb : Nat → Nat → σ → Option (Except Int σ)) :
    ∀ (count m : Nat) (st final : σ) (trace : List (Nat × Nat)),
      rasterWalkB w mb count m st = some (.ok final) →
        rasterWalkB w (recordB mb) count m (st, trace) =
          some (.ok (final, trace ++ rasterPositions w m count)) := by
  intro count
  induction count with
  | zero =>
    intro m st final trace walk
    simp only [rasterWalkB, Option.some.injEq, Except.ok.injEq] at walk
    subst walk
    simp [rasterWalkB, rasterPositions]
  | succ count ih =>
    intro m st final trace walk
    simp only [rasterWalkB, recordB] at walk ⊢
    cases step : mb (m % w) (m / w) st with
    | none => simp [step] at walk
    | some result =>
      cases result with
      | error code => simp [step] at walk
      | ok next =>
        simp only [step] at walk
        simp only [Option.map_some', Except.map]
        rw [ih _ _ _ (trace ++ [(m % w, m / w)]) walk, rasterPositions_succ, List.append_assoc,
          List.singleton_append]

end Walks

/-! ### Two walks in step -/

section Agreement

variable {σ τ : Type} (w : Nat)

/-- Two results of a partition A macroblock that agree: both undefined, both the marker,
the same error, or related states. -/
inductive StepAgree (R : σ → τ → Prop) :
    Option (PartitionAStep σ) → Option (PartitionAStep τ) → Prop
  | none : StepAgree R none none
  | marker : StepAgree R (some .marker) (some .marker)
  | error (code : Int) : StepAgree R (some (.error code)) (some (.error code))
  | decoded {st₁ : σ} {st₂ : τ} : R st₁ st₂ → StepAgree R (some (.decoded st₁)) (some (.decoded st₂))

/-- Two results that agree: both undefined, the same error, or related values. -/
inductive ResultAgree (R : σ → τ → Prop) : Option (Except Int σ) → Option (Except Int τ) → Prop
  | none : ResultAgree R none none
  | error (code : Int) : ResultAgree R (some (.error code)) (some (.error code))
  | ok {st₁ : σ} {st₂ : τ} : R st₁ st₂ → ResultAgree R (some (.ok st₁)) (some (.ok st₂))

theorem ResultAgree.map {σ' τ' : Type} {R : σ → τ → Prop} {R' : σ' → τ' → Prop}
    {f : σ → σ'} {g : τ → τ'} {r₁ : Option (Except Int σ)} {r₂ : Option (Except Int τ)}
    (agree : ResultAgree R r₁ r₂) (related : ∀ st₁ st₂, R st₁ st₂ → R' (f st₁) (g st₂)) :
    ResultAgree R' (r₁.map (Except.map f)) (r₂.map (Except.map g)) := by
  cases agree with
  | none => exact .none
  | error code => exact .error code
  | ok rel => exact .ok (related _ _ rel)

theorem rasterWalkA_agree (R : Nat → σ → τ → Prop) (mb₁ : Nat → Nat → σ → Option (PartitionAStep σ))
    (mb₂ : Nat → Nat → τ → Option (PartitionAStep τ)) (base : Nat)
    (step : ∀ c st₁ st₂, R c st₁ st₂ →
      StepAgree (R (c + 1)) (mb₁ ((base + c) % w) ((base + c) / w) st₁)
        (mb₂ ((base + c) % w) ((base + c) / w) st₂)) :
    ∀ (remaining c : Nat) (st₁ : σ) (st₂ : τ), R c st₁ st₂ →
      ResultAgree (fun r₁ r₂ => r₁.1 = r₂.1 ∧ R r₁.1 r₁.2 r₂.2)
        (rasterWalkA w mb₁ remaining (base + c) c st₁) (rasterWalkA w mb₂ remaining (base + c) c st₂) := by
  intro remaining
  induction remaining with
  | zero => intro c st₁ st₂ related; exact .ok ⟨rfl, related⟩
  | succ remaining ih =>
    intro c st₁ st₂ related
    have agree := step c st₁ st₂ related
    simp only [rasterWalkA]
    generalize mb₁ ((base + c) % w) ((base + c) / w) st₁ = r₁ at agree ⊢
    generalize mb₂ ((base + c) % w) ((base + c) / w) st₂ = r₂ at agree ⊢
    cases agree with
    | none => exact .none
    | marker => exact .ok ⟨rfl, related⟩
    | error code => exact .error code
    | decoded rel => exact ih (c + 1) _ _ rel

theorem rasterWalkB_agree (R : Nat → σ → τ → Prop) (mb₁ : Nat → Nat → σ → Option (Except Int σ))
    (mb₂ : Nat → Nat → τ → Option (Except Int τ)) (base bound : Nat)
    (step : ∀ c st₁ st₂, c < bound → R c st₁ st₂ →
      ResultAgree (R (c + 1)) (mb₁ ((base + c) % w) ((base + c) / w) st₁)
        (mb₂ ((base + c) % w) ((base + c) / w) st₂)) :
    ∀ (count c : Nat) (st₁ : σ) (st₂ : τ), c + count ≤ bound → R c st₁ st₂ →
      ResultAgree (R (c + count)) (rasterWalkB w mb₁ count (base + c) st₁)
        (rasterWalkB w mb₂ count (base + c) st₂) := by
  intro count
  induction count with
  | zero => intro c st₁ st₂ _ related; exact .ok related
  | succ count ih =>
    intro c st₁ st₂ inside related
    have agree := step c st₁ st₂ (by omega) related
    simp only [rasterWalkB]
    generalize mb₁ ((base + c) % w) ((base + c) / w) st₁ = r₁ at agree ⊢
    generalize mb₂ ((base + c) % w) ((base + c) / w) st₂ = r₂ at agree ⊢
    cases agree with
    | none => exact .none
    | error code => exact .error code
    | ok rel =>
      rw [show c + (count + 1) = c + 1 + count by omega]
      exact ih (c + 1) _ _ (by omega) rel

end Agreement

/-! ### The two partitions of a packet -/

/-- `MOTION_MARKER`: the 17-bit marker that ends partition A of a P- or S-VOP. -/
def motionMarker : Nat := 0x1F001

/-- The flags of `cur_pic.mb_type` the passes set and test: `IS_INTRA`, `IS_SKIP` and
`IS_ACPRED`. The 16x16, 8x8, GMC and forward-vector flags select motion compensation,
which is not modelled. -/
structure MbType where
  intra : Bool
  skip : Bool
  acPred : Bool
  deriving DecidableEq, Repr

/-- `MB_TYPE_INTRA`. -/
def intraMbType : MbType := ⟨true, false, false⟩

/-- `MB_TYPE_SKIP`, with or without `MB_TYPE_GMC`. -/
def skipMbType : MbType := ⟨false, true, false⟩

/-- A coded inter macroblock: `MB_TYPE_16x16` or `MB_TYPE_8x8`, with or without
`MB_TYPE_GMC`. -/
def interMbType : MbType := ⟨false, false, false⟩

/-- What the passes read and write, the tables indexed by `xy = mb_x + mb_y * mb_stride`:
`cbp_table` (`uint8_t`), the flags of `cur_pic.mb_type`, `cur_pic.qscale_table`,
`pred_dir_table`, `s->qscale` and the reader. -/
structure PartitionState where
  cbpTable : Nat → Nat
  mbType : Nat → MbType
  qscaleTable : Nat → Int
  predDirTable : Nat → Nat
  qscale : Int
  gb : GetBitContext

/-- What the partitions read of the decoder besides their state: `pict_type`, whether
`vol_sprite_usage == GMC_SPRITE`, the picture in macroblocks, the readers of the I-VOP
branch, the inter MCBPC VLC, the motion vectors of an inter macroblock, the CBPY VLC,
and the rounds of MCBPC stuffing a macroblock may hold. -/
structure PartitionEnv where
  pictType : Nat
  gmcSprite : Bool
  mbWidth : Nat
  mbHeight : Nat
  intra : PartitionReaders
  /-- `get_vlc2` on `ff_h263_inter_MCBPC_vlc`, negative for an illegal code. -/
  interMcbpc : GetBitContext → Int × GetBitContext
  /-- The motion vectors of an inter macroblock with four vectors or not and with
  `mcsel` or not: `ff_h263_decode_motion` for each component, `none` when one of them
  returns `0xffff` or more; `get_amv` under `mcsel`. -/
  motion : Bool → Bool → GetBitContext → Option GetBitContext
  /-- `get_vlc2` on `ff_h263_cbpy_vlc`, negative for an illegal code. -/
  cbpy : GetBitContext → Int × GetBitContext
  stuffingFuel : Nat

namespace PartitionEnv

/-- `xy = mb_x + mb_y * mb_stride`, with `mb_stride = mb_width + 1`. -/
def mbXy (env : PartitionEnv) (x y : Nat) : Nat := x + y * (env.mbWidth + 1)

def rasterXy (env : PartitionEnv) (m : Nat) : Nat := env.mbXy (m % env.mbWidth) (m / env.mbWidth)

/-- The `cbp_table` entry partition B reads: in an I-VOP and for intra or coded inter
macroblocks, not for a skipped macroblock of a P- or S-VOP. -/
def readsCbp (env : PartitionEnv) (mbType : MbType) : Bool :=
  env.pictType = 1 || mbType.intra || !mbType.skip

end PartitionEnv

/-- What the P- and S-VOP branch of partition A does with one macroblock: it meets
`MOTION_MARKER`, fails, skips the macroblock, or reads an intra or an inter macroblock
with its `cbp_table` entry. Each case carries the reader after it. -/
inductive PartitionAInter
  | marker
  | error (code : Int)
  | skip (gb : GetBitContext)
  | intra (cbp : Nat) (gb : GetBitContext)
  | inter (cbp : Nat) (gb : GetBitContext)

/-- The P- and S-VOP branch of the partition A macroblock loop, from `try_again:`, at most
`fuel` stuffing codes (`cbpc == 20`): the marker, the `not_coded` bit, the MCBPC, the
`mcsel` bit of an S-VOP with global motion compensation, and the motion vectors. -/
def partitionAInterMb (env : PartitionEnv) : Nat → GetBitContext → Option PartitionAInter
  | 0, _ => none
  | fuel + 1, gb =>
      let bits := gb.showBits 17
      if bits = motionMarker then some .marker
      else if bits &&& 0x10000 ≠ 0 then some (.skip (gb.skipBits 1))
      else
        let cbpc := env.interMcbpc (gb.skipBits 1)
        if cbpc.1 < 0 then some (.error averrorInvalidData)
        else if cbpc.1 = 20 then partitionAInterMb env fuel cbpc.2
        else if cbpc.1.toNat &&& 4 ≠ 0 then some (.intra (cbpc.1.toNat &&& 11) cbpc.2)
        else
          let fourMv := cbpc.1.toNat &&& 16 ≠ 0
          let mcsel :=
            if env.pictType = 4 ∧ env.gmcSprite ∧ ¬fourMv then cbpc.2.getBits1 else (false, cbpc.2)
          match env.motion fourMv mcsel.1 mcsel.2 with
          | none => some (.error averrorInvalidData)
          | some gb => some (.inter (cbpc.1.toNat &&& 11) gb)

/-- One macroblock of `mpeg4_decode_partition_a` at `(x, y)`: the I-VOP branch writes
`cbp_table`, `mb_type`, `qscale_table` and `pred_dir_table` and may change the quantiser;
the P- and S-VOP branch writes `mb_type`, and `cbp_table` unless the macroblock is
skipped. -/
def partitionAMb (env : PartitionEnv) (x y : Nat) (st : PartitionState) :
    Option (PartitionAStep PartitionState) :=
  let xy := env.mbXy x y
  if env.pictType = 1 then
    (partitionAIntraMb env.intra st.qscale env.stuffingFuel st.gb).map fun
      | .marker => .marker
      | .error code => .error code
      | .intra cbp qscale dir gb =>
          .decoded ⟨Function.update st.cbpTable xy cbp, Function.update st.mbType xy intraMbType,
            Function.update st.qscaleTable xy qscale, Function.update st.predDirTable xy dir,
            qscale, gb⟩
  else
    (partitionAInterMb env env.stuffingFuel st.gb).map fun
      | .marker => .marker
      | .error code => .error code
      | .skip gb => .decoded { st with mbType := Function.update st.mbType xy skipMbType, gb }
      | .intra cbp gb =>
          .decoded { st with cbpTable := Function.update st.cbpTable xy cbp,
                             mbType := Function.update st.mbType xy intraMbType, gb }
      | .inter cbp gb =>
          .decoded { st with cbpTable := Function.update st.cbpTable xy cbp,
                             mbType := Function.update st.mbType xy interMbType, gb }

/-- `if (s->cbp_table[xy] & 8) ff_set_qscale(s, s->qscale + quant_tab[get_bits(&s->gb, 2)]);`
in partition B: the quantiser and the reader. -/
def partitionBDquant (cbp : Nat) (qscale : Int) (gb : GetBitContext) : Int × GetBitContext :=
  if cbp &&& 8 ≠ 0 then
    let code := gb.getBits 2
    (setQscale (qscale + quantTab code.1), code.2)
  else (qscale, gb)

/-- One macroblock of `mpeg4_decode_partition_b` at `(x, y)`: in an I-VOP the `ac_pred`
bit and the CBPY; in a P- or S-VOP, by the `mb_type` partition A wrote, an intra
macroblock's `ac_pred`, CBPY, quantiser and six DC coefficients, nothing for a skipped
one, and a coded inter macroblock's CBPY and quantiser. Stores to `cbp_table` keep 8
bits. -/
def partitionBMb (env : PartitionEnv) (x y : Nat) (st : PartitionState) :
    Option (Except Int PartitionState) :=
  let xy := env.mbXy x y
  let mbType := st.mbType xy
  let cbp := st.cbpTable xy
  if env.pictType = 1 then
    let acPred := st.gb.getBits1
    let cbpy := env.cbpy acPred.2
    if cbpy.1 < 0 then some (.error averrorInvalidData)
    else some (.ok { st with
      cbpTable := Function.update st.cbpTable xy ((cbp ||| cbpy.1.toNat <<< 2) % 256),
      mbType := Function.update st.mbType xy { mbType with acPred := mbType.acPred || acPred.1 },
      gb := cbpy.2 })
  else if mbType.intra then
    let acPred := st.gb.getBits1
    let cbpy := env.cbpy acPred.2
    if cbpy.1 < 0 then some (.error averrorInvalidData)
    else
      let dquant := partitionBDquant cbp st.qscale cbpy.2
      match decodeDcs env.intra.decodeDc [0, 1, 2, 3, 4, 5] 0 dquant.2 with
      | .error code => some (.error code)
      | .ok (dir, gb) => some (.ok ⟨
          Function.update st.cbpTable xy ((cbp &&& 3 ||| cbpy.1.toNat <<< 2) % 256),
          Function.update st.mbType xy { mbType with acPred := mbType.acPred || acPred.1 },
          Function.update st.qscaleTable xy dquant.1, Function.update st.predDirTable xy dir,
          dquant.1, gb⟩)
  else if mbType.skip then
    some (.ok { st with cbpTable := Function.update st.cbpTable xy 0,
                        qscaleTable := Function.update st.qscaleTable xy st.qscale })
  else
    let cbpy := env.cbpy st.gb
    if cbpy.1 < 0 then some (.error averrorInvalidData)
    else
      let dquant := partitionBDquant cbp st.qscale cbpy.2
      some (.ok { st with
        cbpTable := Function.update st.cbpTable xy ((cbp &&& 3 ||| (cbpy.1.toNat ^^^ 0xf) <<< 2) % 256),
        qscaleTable := Function.update st.qscaleTable xy dquant.1,
        qscale := dquant.1, gb := dquant.2 })

/-- `while (show_bits(&s->gb, width) == 1) skip_bits(&s->gb, width);`, at most `fuel`
rounds: the stuffing before a partition's end marker. -/
def skipMarkerStuffing (width : Nat) : Nat → GetBitContext → Option GetBitContext
  | 0, _ => none
  | fuel + 1, gb =>
      if gb.showBits width = 1 then skipMarkerStuffing width fuel (gb.skipBits width) else some gb

/-- The end marker of partition A: stuffing codes of `width` bits, then `get_bits(&s->gb,
markerBits) != marker` refuses the packet. Past the end the shown bits are zero, which
ends the stuffing, so `size_in_bits + 1` rounds never run out. -/
def readPartitionMarker (width markerBits marker : Nat) (st : PartitionState) :
    Option (Except Int PartitionState) :=
  (skipMarkerStuffing width (st.gb.sizeInBits + 1) st.gb).map fun gb =>
    if (gb.getBits markerBits).1 = marker then .ok { st with gb := (gb.getBits markerBits).2 }
    else .error averrorInvalidData

/-- The marker check of `ff_mpeg4_decode_partitions`: `DC_MARKER` after 9-bit stuffing in
an I-VOP, `MOTION_MARKER` after 10-bit stuffing in a P- or S-VOP. -/
def checkPartitionMarker (env : PartitionEnv) (st : PartitionState) :
    Option (Except Int PartitionState) :=
  if env.pictType = 1 then readPartitionMarker 9 19 dcMarker st
  else readPartitionMarker 10 17 motionMarker st

/-- `ff_mpeg4_decode_partitions` for a packet from `(resync_mb_x, resync_mb_y)`: partition
A, the refusal of an empty one or of one that runs past `mb_num`, the marker, and
partition B over as many macroblocks. The result is `mb_num_left` and the state. -/
def ffMpeg4DecodePartitions (env : PartitionEnv) (resyncX resyncY : Nat) (st : PartitionState) :
    Option (Except Int (Nat × PartitionState)) :=
  match partitionALoop env.mbWidth (partitionAMb env) (env.mbHeight - resyncY) resyncY resyncX 0 st with
  | none => none
  | some (.error code) => some (.error code)
  | some (.ok (mbNum, st)) =>
      if mbNum = 0 then some (.error averrorInvalidData)
      else if env.mbWidth * env.mbHeight < resyncX + resyncY * env.mbWidth + mbNum then
        some (.error averrorInvalidData)
      else
        match checkPartitionMarker env st with
        | none => none
        | some (.error code) => some (.error code)
        | some (.ok st) =>
            (partitionBLoop env.mbWidth (partitionBMb env) mbNum (mbNum + 1) resyncY resyncX 0 st).map
              (Except.map fun st => (mbNum, st))

/-! ### Partition B reads what partition A wrote -/

/-- What two runs from states that differ only in their tables share when `started`
macroblocks from number `base` have passed partition A and `done` of them partition B:
the quantiser, the reader, and at each started macroblock its `mb_type` and, once done or
wherever partition B reads it, its `cbp_table` entry. -/
structure TablesAgree (env : PartitionEnv) (base started done : Nat) (st₁ st₂ : PartitionState) :
    Prop where
  qscale : st₁.qscale = st₂.qscale
  gb : st₁.gb = st₂.gb
  mbType : ∀ j < started, st₁.mbType (env.rasterXy (base + j)) = st₂.mbType (env.rasterXy (base + j))
  cbp : ∀ j < started, j < done ∨ env.readsCbp (st₁.mbType (env.rasterXy (base + j))) →
    st₁.cbpTable (env.rasterXy (base + j)) = st₂.cbpTable (env.rasterXy (base + j))

section TablesAgree

variable {env : PartitionEnv} {base c : Nat} {st₁ st₂ st₁' st₂' : PartitionState}

theorem update_agree {α : Type} {f₁ f₂ : Nat → α} (xy i : Nat) (v : α)
    (away : i ≠ xy → f₁ i = f₂ i) : Function.update f₁ xy v i = Function.update f₂ xy v i := by
  by_cases here : i = xy
  · rw [here, Function.update_same, Function.update_same]
  · rw [Function.update_noteq here, Function.update_noteq here, away here]

theorem TablesAgree.partitionA (agree : TablesAgree env base c 0 st₁ st₂) (t : MbType)
    (mbType₁ : st₁'.mbType = Function.update st₁.mbType (env.rasterXy (base + c)) t)
    (mbType₂ : st₂'.mbType = Function.update st₂.mbType (env.rasterXy (base + c)) t)
    (cbp : (∃ v, st₁'.cbpTable = Function.update st₁.cbpTable (env.rasterXy (base + c)) v ∧
        st₂'.cbpTable = Function.update st₂.cbpTable (env.rasterXy (base + c)) v) ∨
      (env.readsCbp t = false ∧ st₁'.cbpTable = st₁.cbpTable ∧ st₂'.cbpTable = st₂.cbpTable))
    (qscale : st₁'.qscale = st₂'.qscale) (gb : st₁'.gb = st₂'.gb) :
    TablesAgree env base (c + 1) 0 st₁' st₂' := by
  refine ⟨qscale, gb, fun j below => ?_, fun j below reads => ?_⟩
  · rw [mbType₁, mbType₂]
    exact update_agree _ _ t fun away => agree.mbType j (by
      rcases Nat.lt_succ_iff_lt_or_eq.mp below with earlier | rfl
      · exact earlier
      · exact absurd rfl away)
  · by_cases here : env.rasterXy (base + j) = env.rasterXy (base + c)
    · rcases cbp with ⟨v, cbp₁, cbp₂⟩ | ⟨skipped, -, -⟩
      · rw [cbp₁, cbp₂, here]
        simp
      · rw [mbType₁, here, Function.update_same, skipped] at reads
        simp at reads
    · have earlier : j < c := by
        rcases Nat.lt_succ_iff_lt_or_eq.mp below with earlier | rfl
        · exact earlier
        · exact absurd rfl here
      have before : st₁'.mbType (env.rasterXy (base + j)) = st₁.mbType (env.rasterXy (base + j)) := by
        rw [mbType₁, Function.update_noteq here]
      have same := agree.cbp j earlier (by rw [← before]; simpa using reads)
      rcases cbp with ⟨v, cbp₁, cbp₂⟩ | ⟨-, cbp₁, cbp₂⟩
      · rw [cbp₁, cbp₂, Function.update_noteq here, Function.update_noteq here, same]
      · rw [cbp₁, cbp₂, same]

theorem TablesAgree.partitionB {k : Nat} (agree : TablesAgree env base k c st₁ st₂) (v : Nat)
    (cbp₁ : st₁'.cbpTable = Function.update st₁.cbpTable (env.rasterXy (base + c)) v)
    (cbp₂ : st₂'.cbpTable = Function.update st₂.cbpTable (env.rasterXy (base + c)) v)
    (mbType : (∃ t, st₁'.mbType = Function.update st₁.mbType (env.rasterXy (base + c)) t ∧
        st₂'.mbType = Function.update st₂.mbType (env.rasterXy (base + c)) t) ∨
      (st₁'.mbType = st₁.mbType ∧ st₂'.mbType = st₂.mbType))
    (qscale : st₁'.qscale = st₂'.qscale) (gb : st₁'.gb = st₂'.gb) :
    TablesAgree env base k (c + 1) st₁' st₂' := by
  refine ⟨qscale, gb, fun j below => ?_, fun j below reads => ?_⟩
  · rcases mbType with ⟨t, mbType₁, mbType₂⟩ | ⟨mbType₁, mbType₂⟩
    · rw [mbType₁, mbType₂]
      exact update_agree _ _ t fun _ => agree.mbType j below
    · rw [mbType₁, mbType₂]
      exact agree.mbType j below
  · rw [cbp₁, cbp₂]
    refine update_agree _ _ v fun here => agree.cbp j below ?_
    have unchanged : st₁'.mbType (env.rasterXy (base + j)) = st₁.mbType (env.rasterXy (base + j)) := by
      rcases mbType with ⟨t, mbType₁, -⟩ | ⟨mbType₁, -⟩
      · rw [mbType₁, Function.update_noteq here]
      · rw [mbType₁]
    rcases reads with earlier | reads
    · rcases Nat.lt_succ_iff_lt_or_eq.mp earlier with earlier | rfl
      · exact .inl earlier
      · exact absurd rfl here
    · exact .inr (unchanged ▸ reads)

theorem partitionAMb_agree (agree : TablesAgree env base c 0 st₁ st₂) :
    StepAgree (TablesAgree env base (c + 1) 0)
      (partitionAMb env ((base + c) % env.mbWidth) ((base + c) / env.mbWidth) st₁)
      (partitionAMb env ((base + c) % env.mbWidth) ((base + c) / env.mbWidth) st₂) := by
  simp only [partitionAMb, agree.qscale, agree.gb]
  split_ifs with intraVop
  · cases partitionAIntraMb env.intra st₂.qscale env.stuffingFuel st₂.gb with
    | none => exact .none
    | some result =>
      cases result with
      | marker => exact .marker
      | error code => exact .error code
      | intra cbp qscale dir gb =>
        exact .decoded (agree.partitionA intraMbType rfl rfl (.inl ⟨cbp, rfl, rfl⟩) rfl rfl)
  · cases partitionAInterMb env env.stuffingFuel st₂.gb with
    | none => exact .none
    | some result =>
      cases result with
      | marker => exact .marker
      | error code => exact .error code
      | skip gb =>
        have unread : env.readsCbp skipMbType = false := by
          simp [PartitionEnv.readsCbp, skipMbType, intraVop]
        exact .decoded (agree.partitionA skipMbType rfl rfl (.inr ⟨unread, rfl, rfl⟩) rfl rfl)
      | intra cbp gb =>
        exact .decoded (agree.partitionA intraMbType rfl rfl (.inl ⟨cbp, rfl, rfl⟩) rfl rfl)
      | inter cbp gb =>
        exact .decoded (agree.partitionA interMbType rfl rfl (.inl ⟨cbp, rfl, rfl⟩) rfl rfl)

theorem checkPartitionMarker_agree {k : Nat} (agree : TablesAgree env base k 0 st₁ st₂) :
    ResultAgree (TablesAgree env base k 0) (checkPartitionMarker env st₁)
      (checkPartitionMarker env st₂) := by
  have marker (width markerBits marker : Nat) :
      ResultAgree (TablesAgree env base k 0) (readPartitionMarker width markerBits marker st₁)
        (readPartitionMarker width markerBits marker st₂) := by
    simp only [readPartitionMarker, agree.gb]
    cases skipMarkerStuffing width (st₂.gb.sizeInBits + 1) st₂.gb with
    | none => exact .none
    | some gb =>
      simp only [Option.map_some']
      split_ifs
      · exact .ok ⟨agree.qscale, rfl, agree.mbType, agree.cbp⟩
      · exact .error _
  unfold checkPartitionMarker
  split_ifs <;> exact marker _ _ _

theorem partitionBMb_agree {k : Nat} (agree : TablesAgree env base k c st₁ st₂) (below : c < k) :
    ResultAgree (TablesAgree env base k (c + 1))
      (partitionBMb env ((base + c) % env.mbWidth) ((base + c) / env.mbWidth) st₁)
      (partitionBMb env ((base + c) % env.mbWidth) ((base + c) / env.mbWidth) st₂) := by
  have mbType := agree.mbType c below
  have cbp (reads : env.readsCbp (st₂.mbType (env.rasterXy (base + c)))) :
      st₁.cbpTable (env.rasterXy (base + c)) = st₂.cbpTable (env.rasterXy (base + c)) :=
    agree.cbp c below (.inr (mbType ▸ reads))
  simp only [partitionBMb, PartitionEnv.rasterXy] at mbType cbp ⊢
  set xy := env.mbXy ((base + c) % env.mbWidth) ((base + c) / env.mbWidth)
  rw [mbType, agree.gb, agree.qscale]
  by_cases intraVop : env.pictType = 1
  · rw [cbp (by simp [PartitionEnv.readsCbp, intraVop]), if_pos intraVop, if_pos intraVop]
    split_ifs
    · exact .error _
    · exact .ok (agree.partitionB _ rfl rfl (.inl ⟨_, rfl, rfl⟩) rfl rfl)
  rw [if_neg intraVop, if_neg intraVop]
  by_cases isIntra : (st₂.mbType xy).intra = true
  · rw [cbp (by simp [PartitionEnv.readsCbp, isIntra]), if_pos isIntra, if_pos isIntra]
    split_ifs
    · exact .error _
    · split
      · exact .error _
      · exact .ok (agree.partitionB _ rfl rfl (.inl ⟨_, rfl, rfl⟩) rfl rfl)
  rw [if_neg isIntra, if_neg isIntra]
  by_cases isSkip : (st₂.mbType xy).skip = true
  · rw [if_pos isSkip, if_pos isSkip]
    exact .ok (agree.partitionB _ rfl rfl (.inr ⟨rfl, rfl⟩) rfl rfl)
  · rw [cbp (by simp [PartitionEnv.readsCbp, isSkip]), if_neg isSkip, if_neg isSkip]
    split_ifs
    · exact .error _
    · exact .ok (agree.partitionB _ rfl rfl (.inr ⟨rfl, rfl⟩) rfl rfl)

/-- **Partition B reads only what partition A wrote.** From two states that differ only in
their tables, `ff_mpeg4_decode_partitions` ends alike: undefined for both, the same error,
or the same count `k` with the quantiser, the reader and, at each of the `k` macroblocks,
`mb_type` and `cbp_table` in common. -/
theorem ffMpeg4DecodePartitions_agree (env : PartitionEnv) (resyncX resyncY : Nat)
    (st₁ st₂ : PartitionState) (inRow : resyncX < env.mbWidth)
    (qscale : st₁.qscale = st₂.qscale) (gb : st₁.gb = st₂.gb) :
    ResultAgree (fun r₁ r₂ => r₁.1 = r₂.1 ∧
        TablesAgree env (resyncX + resyncY * env.mbWidth) r₁.1 r₁.1 r₁.2 r₂.2)
      (ffMpeg4DecodePartitions env resyncX resyncY st₁)
      (ffMpeg4DecodePartitions env resyncX resyncY st₂) := by
  have start : TablesAgree env (resyncX + resyncY * env.mbWidth) 0 0 st₁ st₂ :=
    ⟨qscale, gb, fun j below => absurd below (Nat.not_lt_zero j),
      fun j below => absurd below (Nat.not_lt_zero j)⟩
  have partitionA := rasterWalkA_agree env.mbWidth
    (fun c => TablesAgree env (resyncX + resyncY * env.mbWidth) c 0) (partitionAMb env)
    (partitionAMb env) _ (fun _ _ _ agree => partitionAMb_agree agree)
    ((env.mbHeight - resyncY) * env.mbWidth - resyncX) 0 st₁ st₂ start
  rw [Nat.add_zero] at partitionA
  simp only [ffMpeg4DecodePartitions]
  rw [partitionALoop_eq_rasterWalkA _ _ _ _ _ _ _ inRow.le,
    partitionALoop_eq_rasterWalkA _ _ _ _ _ _ _ inRow.le]
  generalize rasterWalkA _ _ _ _ _ st₁ = r₁ at partitionA ⊢
  generalize rasterWalkA _ _ _ _ _ st₂ = r₂ at partitionA ⊢
  cases partitionA with
  | none => exact .none
  | error code => exact .error code
  | @ok a₁ a₂ related =>
    obtain ⟨k, a₁⟩ := a₁
    obtain ⟨_, a₂⟩ := a₂
    obtain ⟨rfl, related⟩ := related
    dsimp only
    split_ifs
    · exact .error _
    · exact .error _
    · have marker := checkPartitionMarker_agree related
      generalize checkPartitionMarker env a₁ = m₁ at marker ⊢
      generalize checkPartitionMarker env a₂ = m₂ at marker ⊢
      cases marker with
      | none => exact .none
      | error code => exact .error code
      | ok related =>
        have partitionB := rasterWalkB_agree env.mbWidth
          (fun c => TablesAgree env (resyncX + resyncY * env.mbWidth) k c) (partitionBMb env)
          (partitionBMb env) _ k (fun _ _ _ below agree => partitionBMb_agree agree below) k 0 _ _
          (by omega) related
        rw [Nat.add_zero, Nat.zero_add] at partitionB
        dsimp only
        rw [partitionBLoop_eq_rasterWalkB _ _ _ (by omega) _ _ _ _ _ inRow (by omega),
          partitionBLoop_eq_rasterWalkB _ _ _ (by omega) _ _ _ _ _ inRow (by omega), Nat.sub_zero]
        exact partitionB.map fun _ _ agree => ⟨rfl, agree⟩

end TablesAgree

/-! ### The texture pass -/

/-- `SLICE_OK`, `SLICE_END` and `SLICE_NOEND`. -/
inductive SliceStatus
  | ok
  | sliceEnd
  | noEnd
  deriving DecidableEq, Repr

/-- What the texture pass reads besides the partitions' state: the block decoder (its
`dc_val`, scan tables and run-level tables), the DC scales `ff_set_qscale` takes from
`y_dc_scale_table` and `c_dc_scale_table` (not in this tree), `intra_dc_threshold`,
`rvlc`, and what `mpeg4_is_resync` reads. -/
structure TextureEnv where
  decoder : BlockDecoder
  yDcScale : Int → Int
  cDcScale : Int → Int
  intraDcThreshold : Int
  rvlc : Bool
  resync : ResyncContext

/-- The texture of the macroblock at `xy` in `mpeg4_decode_partitioned_mb`: the quantiser
from `qscale_table`, and unless the macroblock is skipped its six blocks, with
`use_intra_dc_vlc` from the quantiser before the change. `ac_pred` is read for intra
blocks only. The result is the quantiser and the reader after the blocks. -/
def partitionedMbTexture (env : PartitionEnv) (tex : TextureEnv) (xy : Nat) (st : PartitionState) :
    Option (Except Int (Int × GetBitContext)) :=
  let mbType := st.mbType xy
  let useDcVlc := useIntraDcVlc st.qscale tex.intraDcThreshold
  let qscale := if st.qscaleTable xy ≠ st.qscale then setQscale (st.qscaleTable xy) else st.qscale
  let intra := if env.pictType = 2 ∨ env.pictType = 4 then mbType.intra else true
  let decoder := { tex.decoder with
    qscale, yDcScale := tex.yDcScale qscale, cDcScale := tex.cDcScale qscale,
    acPred := mbType.acPred, predDirTable := st.predDirTable xy }
  if mbType.skip then some (.ok (qscale, st.gb))
  else
    (mpeg4DecodeBlocks decoder (st.cbpTable xy) intra useDcVlc tex.rvlc [0, 1, 2, 3, 4, 5]
        (fun _ _ => 0) (fun _ => -1) st.gb).map
      (Except.map fun decoded => (qscale, decoded.2.2))

/-- The per-macroblock end-of-slice check of `mpeg4_decode_partitioned_mb`, from
`mpeg4_is_resync`'s result, `mb_num_left` before `--s->mb_num_left`, and
`cbp_table[xy + delta]`, the next macroblock's entry. -/
def sliceEndCheck (resync mbNumLeft : Int) (nextCbp : Nat) : SliceStatus :=
  if mbNumLeft - 1 ≤ 0 then (if resync ≠ 0 then .sliceEnd else .noEnd)
  else if resync ≠ 0 ∧ nextCbp ≠ 0 then .sliceEnd
  else .ok

/-- `mpeg4_decode_partitioned_mb` at `(x, y)` with `mb_num_left` before its decrement: the
texture, then `mpeg4_is_resync` and the end-of-slice check. -/
def mpeg4DecodePartitionedMb (env : PartitionEnv) (tex : TextureEnv) (x y : Nat)
    (mbNumLeft : Int) (st : PartitionState) : Option (Except Int (SliceStatus × PartitionState)) :=
  let xy := env.mbXy x y
  match partitionedMbTexture env tex xy st with
  | none => none
  | some (.error code) => some (.error code)
  | some (.ok texture) =>
      (mpeg4IsResync tex.resync texture.2).map fun resync =>
        let delta := if x + 1 = env.mbWidth then 2 else 1
        .ok (sliceEndCheck resync.1 mbNumLeft (st.cbpTable (xy + delta)),
          { st with qscale := texture.1, gb := resync.2 })

/-- Modelled from the spec: the texture pass, as the slice loop of libavcodec/h263dec.c
(not in this tree) drives it. `mpeg4_decode_partitioned_mb` for each macroblock in raster
order from number `m` with `mb_num_left = left`, until it reports anything but
`SLICE_OK`: the macroblock where it stopped, what it reported, and the state. -/
def texturePass (env : PartitionEnv) (tex : TextureEnv) :
    Nat → Nat → PartitionState → Option (Except Int (Nat × SliceStatus × PartitionState))
  | 0, m, st =>
      (mpeg4DecodePartitionedMb env tex (m % env.mbWidth) (m / env.mbWidth) 0 st).map
        (Except.map fun result => (m, result))
  | left + 1, m, st =>
      match mpeg4DecodePartitionedMb env tex (m % env.mbWidth) (m / env.mbWidth) (left + 1) st with
      | none => none
      | some (.error code) => some (.error code)
      | some (.ok (.ok, st)) => texturePass env tex left (m + 1) st
      | some (.ok (status, st)) => some (.ok (m, status, st))

theorem rasterXy_add_delta (env : PartitionEnv) (m : Nat) (positive : 0 < env.mbWidth) :
    env.rasterXy m + (if m % env.mbWidth + 1 = env.mbWidth then 2 else 1) = env.rasterXy (m + 1) := by
  obtain ⟨atX, atY⟩ := raster_succ env.mbWidth m positive
  have below := Nat.mod_lt m positive
  simp only [PartitionEnv.rasterXy, PartitionEnv.mbXy, atX, atY]
  split_ifs <;> (try simp only [Nat.add_mul, Nat.one_mul]) <;> omega

theorem sliceEndCheck_last {resync mbNumLeft : Int} (nextCbp : Nat) (last : mbNumLeft ≤ 1) :
    sliceEndCheck resync mbNumLeft nextCbp ≠ .ok := by
  simp only [sliceEndCheck, if_pos (show mbNumLeft - 1 ≤ 0 by omega)]
  split_ifs <;> decide

theorem sliceEndCheck_early {resync mbNumLeft : Int} {nextCbp : Nat} (early : 1 < mbNumLeft) :
    sliceEndCheck resync mbNumLeft nextCbp ≠ .noEnd ∧
      (sliceEndCheck resync mbNumLeft nextCbp = .sliceEnd ↔ resync ≠ 0 ∧ nextCbp ≠ 0) := by
  simp only [sliceEndCheck, if_neg (show ¬(mbNumLeft - 1 ≤ 0) by omega)]
  split_ifs with found <;> simp [found]

theorem mpeg4DecodePartitionedMb_ok {env : PartitionEnv} {tex : TextureEnv} {x y : Nat}
    {mbNumLeft : Int} {st st' : PartitionState} {status : SliceStatus}
    (decoded : mpeg4DecodePartitionedMb env tex x y mbNumLeft st = some (.ok (status, st'))) :
    st'.cbpTable = st.cbpTable ∧ ∃ gb resync, mpeg4IsResync tex.resync gb = some (resync, st'.gb) ∧
      status = sliceEndCheck resync mbNumLeft
        (st.cbpTable (env.mbXy x y + if x + 1 = env.mbWidth then 2 else 1)) := by
  simp only [mpeg4DecodePartitionedMb] at decoded
  split at decoded
  · cases decoded
  · cases decoded
  · rename_i texture _
    cases resync : mpeg4IsResync tex.resync texture.2 with
    | none => simp [resync] at decoded
    | some r =>
      simp only [resync, Option.map_some', Option.some.injEq, Except.ok.injEq,
        Prod.mk.injEq] at decoded
      obtain ⟨rfl, rfl⟩ := decoded
      exact ⟨rfl, texture.2, r.1, resync, rfl⟩

/-- **Where the texture pass stops.** A pass from macroblock `m` with `mb_num_left = left`
stops at a macroblock `stop` in `[m, m + left)` (at `m` when `left = 0`) with `SLICE_END` or
`SLICE_NOEND` and leaves `cbp_table` as it was; it stops before the last of those
macroblocks only with `SLICE_END`, after `mpeg4_is_resync` found a marker, when the next
macroblock's `cbp_table` entry is not zero. -/
theorem texturePass_stop (env : PartitionEnv) (tex : TextureEnv) (positive : 0 < env.mbWidth) :
    ∀ (left m : Nat) (st : PartitionState) (stop : Nat) (status : SliceStatus)
      (final : PartitionState),
      texturePass env tex left m st = some (.ok (stop, status, final)) →
        m ≤ stop ∧ stop < m + max left 1 ∧ status ≠ .ok ∧ final.cbpTable = st.cbpTable ∧
        (stop + 1 < m + left → status = .sliceEnd ∧ st.cbpTable (env.rasterXy (stop + 1)) ≠ 0 ∧
          ∃ gb resync, resync ≠ 0 ∧ mpeg4IsResync tex.resync gb = some (resync, final.gb)) := by
  intro left
  induction left with
  | zero =>
    intro m st stop status final pass
    simp only [texturePass] at pass
    cases decoded : mpeg4DecodePartitionedMb env tex (m % env.mbWidth) (m / env.mbWidth) 0 st with
    | none => simp [decoded] at pass
    | some result =>
      cases result with
      | error code => simp [decoded, Except.map] at pass
      | ok result =>
        simp only [decoded, Option.map_some', Except.map, Option.some.injEq, Except.ok.injEq,
          Prod.mk.injEq] at pass
        obtain ⟨rfl, rfl⟩ := pass
        obtain ⟨kept, _, _, _, reported⟩ := mpeg4DecodePartitionedMb_ok decoded
        exact ⟨le_rfl, by omega, reported ▸ sliceEndCheck_last _ (by omega), kept,
          fun early => absurd early (by omega)⟩
  | succ left ih =>
    intro m st stop status final pass
    simp only [texturePass] at pass
    cases decoded : mpeg4DecodePartitionedMb env tex (m % env.mbWidth) (m / env.mbWidth)
        ((left : Int) + 1) st with
    | none => simp [decoded] at pass
    | some result =>
      cases result with
      | error code => simp [decoded] at pass
      | ok result =>
        obtain ⟨reported, next⟩ := result
        obtain ⟨kept, gb, resync, found, reportedIs⟩ := mpeg4DecodePartitionedMb_ok decoded
        have nextXy := rasterXy_add_delta env m positive
        simp only [PartitionEnv.rasterXy] at nextXy
        rw [nextXy] at reportedIs
        cases reported with
        | ok =>
          simp only [decoded] at pass
          have early : (1 : Int) < left + 1 := by
            by_contra last
            exact sliceEndCheck_last _ (not_lt.mp last) reportedIs.symm
          obtain ⟨after, bound, stops, keptAll, ends⟩ := ih _ _ _ _ _ pass
          refine ⟨by omega, by omega, stops, keptAll.trans kept, fun before => ?_⟩
          obtain ⟨isEnd, nextCoded, rest⟩ := ends (by omega)
          exact ⟨isEnd, kept ▸ nextCoded, rest⟩
        | sliceEnd =>
          simp only [decoded, Option.some.injEq, Except.ok.injEq, Prod.mk.injEq] at pass
          obtain ⟨rfl, rfl, rfl⟩ := pass
          refine ⟨le_rfl, by omega, by decide, kept, fun before => ⟨rfl, ?_, gb, resync, ?_⟩⟩
          · exact ((sliceEndCheck_early (by omega)).2.mp reportedIs.symm).2
          · exact ⟨((sliceEndCheck_early (by omega)).2.mp reportedIs.symm).1, found⟩
        | noEnd =>
          simp only [decoded, Option.some.injEq, Except.ok.injEq, Prod.mk.injEq] at pass
          obtain ⟨rfl, rfl, rfl⟩ := pass
          refine ⟨le_rfl, by omega, by decide, kept, fun before => ?_⟩
          exact absurd reportedIs.symm (sliceEndCheck_early (by omega)).1

/-! ### The three passes of a packet -/

theorem ffMpeg4DecodePartitions_accepted {env : PartitionEnv} {resyncX resyncY k : Nat}
    {st after : PartitionState}
    (accepted : ffMpeg4DecodePartitions env resyncX resyncY st = some (.ok (k, after))) :
    ∃ a b, partitionALoop env.mbWidth (partitionAMb env) (env.mbHeight - resyncY) resyncY resyncX 0 st =
        some (.ok (k, a)) ∧
      0 < k ∧ resyncX + resyncY * env.mbWidth + k ≤ env.mbWidth * env.mbHeight ∧
      checkPartitionMarker env a = some (.ok b) ∧
      partitionBLoop env.mbWidth (partitionBMb env) k (k + 1) resyncY resyncX 0 b = some (.ok after) := by
  simp only [ffMpeg4DecodePartitions] at accepted
  split at accepted
  · cases accepted
  · cases accepted
  · rename_i count a partitionA
    split_ifs at accepted with empty past
    · cases accepted
    · cases accepted
    split at accepted
    · cases accepted
    · cases accepted
    · rename_i b marker
      cases partitionB : partitionBLoop env.mbWidth (partitionBMb env) count (count + 1) resyncY resyncX 0 b with
      | none => simp [partitionB] at accepted
      | some result =>
        cases result with
        | error code => simp [partitionB, Except.map] at accepted
        | ok final =>
          simp only [partitionB, Option.map_some', Except.map, Option.some.injEq, Except.ok.injEq,
            Prod.mk.injEq] at accepted
          obtain ⟨rfl, rfl⟩ := accepted
          exact ⟨a, b, partitionA, by omega, by omega, marker, partitionB⟩

theorem rasterPositions_inside {w h start count : Nat} (positive : 0 < w)
    (fits : start + count ≤ w * h) : ∀ p ∈ rasterPositions w start count, p.1 < w ∧ p.2 < h := by
  intro p member
  simp only [rasterPositions, List.mem_map, List.mem_range] at member
  obtain ⟨i, below, rfl⟩ := member
  exact ⟨Nat.mod_lt _ positive, (Nat.div_lt_iff_lt_mul positive).mpr (by rw [Nat.mul_comm]; omega)⟩

/-- What holds of a packet from `(resyncX, resyncY)` that `ff_mpeg4_decode_partitions`
accepted from `st` with `k` macroblocks, leaving `after`, and of its texture pass. -/
structure PartitionedPacket (env : PartitionEnv) (tex : TextureEnv) (resyncX resyncY : Nat)
    (st : PartitionState) (k : Nat) (after : PartitionState) : Prop where
  /-- The packet is not empty. -/
  nonempty : 0 < k
  /-- Partition A decodes the `k` macroblocks from `resync_mb_x + resync_mb_y * mb_width`
  in raster order, and partition B, after the marker, visits the same ones in the same
  order. -/
  samePositions : ∃ a b,
    partitionALoop env.mbWidth (recordA (partitionAMb env)) (env.mbHeight - resyncY) resyncY resyncX 0
        (st, []) =
      some (.ok (k, a, rasterPositions env.mbWidth (resyncX + resyncY * env.mbWidth) k)) ∧
    checkPartitionMarker env a = some (.ok b) ∧
    partitionBLoop env.mbWidth (recordB (partitionBMb env)) k (k + 1) resyncY resyncX 0 (b, []) =
      some (.ok (after, rasterPositions env.mbWidth (resyncX + resyncY * env.mbWidth) k))
  /-- Those macroblocks lie in the picture's columns and rows. -/
  inside : ∀ p ∈ rasterPositions env.mbWidth (resyncX + resyncY * env.mbWidth) k,
    p.1 < env.mbWidth ∧ p.2 < env.mbHeight
  /-- Whatever the tables held before the packet, it is accepted alike, with the same
  quantiser, reader, and `cbp_table` and `mb_type` entries at its macroblocks: partition B
  reads only the entries partition A wrote. -/
  readsWritten : ∀ cbpTable mbType qscaleTable predDirTable, ∃ after',
    ffMpeg4DecodePartitions env resyncX resyncY
        ⟨cbpTable, mbType, qscaleTable, predDirTable, st.qscale, st.gb⟩ = some (.ok (k, after')) ∧
      after'.qscale = after.qscale ∧ after'.gb = after.gb ∧
      ∀ p ∈ rasterPositions env.mbWidth (resyncX + resyncY * env.mbWidth) k,
        after'.cbpTable (env.mbXy p.1 p.2) = after.cbpTable (env.mbXy p.1 p.2) ∧
        after'.mbType (env.mbXy p.1 p.2) = after.mbType (env.mbXy p.1 p.2)
  /-- The texture pass with `mb_num_left = k` stops at one of the `k` macroblocks with
  `SLICE_END` or `SLICE_NOEND`, reports `SLICE_NOEND` only at the last, and stops before the
  last only with `SLICE_END`, a resync marker found and coded blocks in the next
  macroblock. -/
  textureStop : ∀ stop status final,
    texturePass env tex k (resyncX + resyncY * env.mbWidth) after = some (.ok (stop, status, final)) →
      resyncX + resyncY * env.mbWidth ≤ stop ∧ stop < resyncX + resyncY * env.mbWidth + k ∧
      status ≠ .ok ∧ (status = .noEnd → stop + 1 = resyncX + resyncY * env.mbWidth + k) ∧
      (stop + 1 < resyncX + resyncY * env.mbWidth + k →
        status = .sliceEnd ∧ after.cbpTable (env.rasterXy (stop + 1)) ≠ 0 ∧
          ∃ gb resync, resync ≠ 0 ∧ mpeg4IsResync tex.resync gb = some (resync, final.gb))

/-- **The three passes of a data-partitioned packet.** For every packet from a column
`resync_mb_x < mb_width` that `ff_mpeg4_decode_partitions` accepts with `k` macroblocks:
both partitions walk the same `k` raster positions inside the picture, partition B reads
only the table entries partition A wrote, and the texture pass ends the slice at the
`k`-th macroblock, or earlier with `SLICE_END` when a resync marker and a coded next
macroblock follow. -/
theorem partitionedPacket_passes (env : PartitionEnv) (tex : TextureEnv) (resyncX resyncY : Nat)
    (st after : PartitionState) (k : Nat) (inRow : resyncX < env.mbWidth)
    (accepted : ffMpeg4DecodePartitions env resyncX resyncY st = some (.ok (k, after))) :
    PartitionedPacket env tex resyncX resyncY st k after := by
  have positive : 0 < env.mbWidth := by omega
  obtain ⟨a, b, partitionA, nonempty, fits, marker, partitionB⟩ :=
    ffMpeg4DecodePartitions_accepted accepted
  refine ⟨nonempty, ⟨a, b, ?_, marker, ?_⟩, rasterPositions_inside positive fits, ?_, ?_⟩
  · rw [partitionALoop_eq_rasterWalkA _ _ _ _ _ _ _ inRow.le] at partitionA ⊢
    simpa using (rasterWalkA_record _ _ _ _ _ _ _ [] _ partitionA).2
  · rw [partitionBLoop_eq_rasterWalkB _ _ _ positive _ _ _ _ _ inRow (by omega)] at partitionB ⊢
    simpa using rasterWalkB_record _ _ _ _ _ _ [] partitionB
  · intro cbpTable mbType qscaleTable predDirTable
    have agree := ffMpeg4DecodePartitions_agree env resyncX resyncY st
      ⟨cbpTable, mbType, qscaleTable, predDirTable, st.qscale, st.gb⟩ inRow rfl rfl
    rw [accepted] at agree
    generalize other : ffMpeg4DecodePartitions env resyncX resyncY _ = r at agree
    obtain _ | _ | @⟨_, ⟨_, after'⟩, ⟨rfl, tables⟩⟩ := agree
    refine ⟨after', rfl, tables.qscale.symm, tables.gb.symm, fun p member => ?_⟩
    simp only [rasterPositions, List.mem_map, List.mem_range] at member
    obtain ⟨j, below, rfl⟩ := member
    exact ⟨(tables.cbp j below (.inl below)).symm, (tables.mbType j below).symm⟩
  · intro stop status final pass
    obtain ⟨atLeast, bound, stops, -, ends⟩ :=
      texturePass_stop env tex positive k _ after stop status final pass
    refine ⟨atLeast, by omega, stops, fun noEnd => ?_, ends⟩
    by_contra early
    exact absurd ((ends (by omega)).1) (by rw [noEnd]; decide)

/-- A picture two macroblocks wide and one high, in an I-VOP: the intra MCBPC a 3-bit
code, `mpeg4_decode_dc` reading no bits, the CBPY a 4-bit code. -/
def twoMacroblockVop : PartitionEnv where
  pictType := 1
  gmcSprite := false
  mbWidth := 2
  mbHeight := 1
  intra := ⟨fun gb => ((gb.getBits 3).1, (gb.getBits 3).2), fun _ gb => (0, 0, gb)⟩
  interMcbpc gb := (0, gb)
  motion _ _ gb := some gb
  cbpy gb := ((gb.getBits 4).1, (gb.getBits 4).2)
  stuffingFuel := 1

/-- A packet of both macroblocks: MCBPC 0 twice, `DC_MARKER`, `ac_pred` 0 with CBPY 0 and
`ac_pred` 0 with CBPY 1, then, at bit 35, the stuffing to the byte boundary, a resync marker
of 16 zeros and a 1, macroblock number 1 and eight zeros. -/
def resyncAfterFirstMb : List Bool :=
  GetBitContext.codeBits 3 0 ++ GetBitContext.codeBits 3 0 ++ GetBitContext.codeBits 19 dcMarker ++
    GetBitContext.codeBits 5 0 ++ GetBitContext.codeBits 5 1 ++ GetBitContext.codeBits 5 0xF ++
    List.replicate 16 false ++ [true, true] ++ List.replicate 8 false

/-- Empty tables, quantiser 2, and the packet's bits. -/
def resyncAfterFirstMbState : PartitionState :=
  ⟨fun _ => 0, fun _ => interMbType, fun _ => 0, fun _ => 0, 2, ⟨resyncAfterFirstMb, 0⟩⟩

/-- The texture of a partitioned I-VOP: DC from `dc_val`, as `intra_dc_threshold` 99 asks,
and `mpeg4_is_resync` for two macroblocks with the I-VOP's 16-bit prefix. -/
def partitionedTexture : TextureEnv :=
  ⟨{ escapeOnlyDecoder with partitionedFrame := true }, fun _ => 8, fun _ => 8, 99, false,
    ⟨1, true, false, true, 2, 16⟩⟩

/-- Both macroblocks of the packet are accepted, and the texture pass ends the slice at the
first: a resync marker follows its texture and the second has coded blocks. -/
theorem partitionedPacket_endsEarly :
    ∃ after final,
      ffMpeg4DecodePartitions twoMacroblockVop 0 0 resyncAfterFirstMbState = some (.ok (2, after)) ∧
      texturePass twoMacroblockVop partitionedTexture 2 0 after = some (.ok (0, .sliceEnd, final)) :=
  ⟨_, _, rfl, rfl⟩

theorem partitionedPacket_passes_resyncAfterFirstMb :
    0 < twoMacroblockVop.mbWidth ∧ ∃ after,
      ffMpeg4DecodePartitions twoMacroblockVop 0 0 resyncAfterFirstMbState = some (.ok (2, after)) ∧
      PartitionedPacket twoMacroblockVop partitionedTexture 0 0 resyncAfterFirstMbState 2 after := by
  obtain ⟨after, accepted⟩ : ∃ after,
      ffMpeg4DecodePartitions twoMacroblockVop 0 0 resyncAfterFirstMbState = some (.ok (2, after)) :=
    ⟨_, rfl⟩
  exact ⟨by decide, after, accepted, partitionedPacket_passes twoMacroblockVop partitionedTexture 0 0
    resyncAfterFirstMbState after 2 (by decide) accepted⟩

end Librempeg.Avcodec.Mpeg4Video
