import Librempeg.Avcodec.Mpeg4Video.SpriteTrajectory

/-!
Contract: `get_amv` (libavcodec/mpeg4videodec.c), the average motion vector of a
GMC macroblock, read from the offsets, deltas and shifts that
`mpeg4_decode_sprite_trajectory` stored.

Two branches: with `real_sprite_warping_points == 1` a single `RSHIFT` of the
translation (or the DivX 5.00 build 413 division); otherwise the sum of the warped
positions of the 256 luma pixels, rounded by `RSHIFT`. Unsigned arithmetic wraps
(`toUnsigned`), its conversion back to `int` wraps (`toInt`), every signed
operation is checked (`intOp`).

Owns: the model of `get_amv`, the closed form of its summation loops, and the
comparison of the one-point branch with the summation branch on the same
translation.
-/

namespace Librempeg.Avcodec.Mpeg4Video

open Librempeg.Avutil

/-- What `get_amv` reads of the picture besides the GMC fields: `ctx->f_code`,
`s->quarter_sample`, `s->workaround_bugs & FF_BUG_AMV`, and the macroblock. -/
structure AmvPicture where
  fCode : Nat
  quarterSample : Nat
  bugAmv : Bool
  mbX : Int
  mbY : Int

/-- The inner loop `for (x = 0; x < 16; x++) { sum += v >> shift; v += dx; }`, run
`count` more times from `(sum, v)`. -/
def amvRowLoop (shift : Nat) (dx : Int) : Nat → Int → Int → Option (Int × Int)
  | 0, sum, v => some (sum, v)
  | count + 1, sum, v => do
      let sum ← intOp (sum + (v >>> shift))
      let v ← intOp (v + dx)
      amvRowLoop shift dx count sum v

/-- The outer loop over the rows `y, y + 1, …` (`count` of them):
`v = mb_v + (unsigned)dy * y;` then the inner loop. -/
def amvRows (shift : Nat) (dx dy mbV : Int) : Nat → Nat → Int → Option Int
  | _, 0, sum => some sum
  | y, count + 1, sum => do
      let v := toInt (toUnsigned (mbV + toUnsigned (dy * y)))
      let (sum, _) ← amvRowLoop shift dx 16 sum v
      amvRows shift dx dy mbV (y + 1) count sum

/-- The horizontal step of the summation branch: `sprite_delta[n][0]`, less
`1 << (shift + a + 1)` for `n = 0`. -/
def amvDx (ctx : GmcContext) (n : Fin 2) : Int :=
  if n = 0 then
    ctx.spriteDelta n 0 - 2 ^ (ctx.spriteShift 0 + ctx.spriteWarpingAccuracy + 1).toNat
  else ctx.spriteDelta n 0

/-- The vertical step: `sprite_delta[n][1]`, less `1 << (shift + a + 1)` for `n = 1`. -/
def amvDy (ctx : GmcContext) (n : Fin 2) : Int :=
  if n = 0 then ctx.spriteDelta n 1
  else ctx.spriteDelta n 1 - 2 ^ (ctx.spriteShift 0 + ctx.spriteWarpingAccuracy + 1).toNat

/-- The summation branch: the corrected steps, `mb_v` in unsigned arithmetic, the
16×16 sum, and `RSHIFT(sum, a + 8 - quarter_sample)`. -/
def amvSummation (ctx : GmcContext) (pic : AmvPicture) (n : Fin 2) : Option Int := do
  let dx := amvDx ctx n
  let dy := amvDy ctx n
  let mbV := toInt (toUnsigned (toUnsigned (ctx.spriteOffset 0 n +
    toUnsigned (dx * pic.mbX * 16)) + toUnsigned (dy * pic.mbY * 16)))
  let total ← afterIntOps
    [2 ^ (ctx.spriteShift 0 + ctx.spriteWarpingAccuracy + 1).toNat, if n = 0 then dx else dy,
      dx * pic.mbX, dy * pic.mbY]
    (amvRows (ctx.spriteShift 0).toNat dx dy mbV 0 16 0)
  rshiftOp (← total) (ctx.spriteWarpingAccuracy + 8 - pic.quarterSample)

/-- The one-point branch: the DivX 5.00 build 413 division, or
`RSHIFT(sprite_offset[0][n] * (1 << quarter_sample), a)`. -/
def amvTranslation (ctx : GmcContext) (pic : AmvPicture) (n : Fin 2) : Option Int := do
  let a := ctx.spriteWarpingAccuracy
  if ctx.divx500Build413 ∧ a ≥ pic.quarterSample then
    return (ctx.spriteOffset 0 n).tdiv (← intOp (2 ^ (a - pic.quarterSample)))
  rshiftOp (← intOp (ctx.spriteOffset 0 n * (← intOp (2 ^ pic.quarterSample)))) a

/-- `sum` clamped to `[-len, len - 1]`. -/
def clampAmv (len sum : Int) : Int :=
  if sum < -len then -len else if sum ≥ len then len - 1 else sum

/-- `get_amv(ctx, n)` for the macroblock `(pic.mbX, pic.mbY)`. -/
def getAmv (ctx : GmcContext) (pic : AmvPicture) (n : Fin 2) : Option Int := do
  let len ← intOp (2 ^ (pic.fCode + 4))
  let len := if pic.bugAmv then len >>> pic.quarterSample else len
  let sum ← if ctx.realSpriteWarpingPoints = 1 then amvTranslation ctx pic n
    else amvSummation ctx pic n
  pure (clampAmv len sum)

/-! ## The summation loops in closed form -/

def rowSum (shift : Nat) (dx : Int) : Nat → Int → Int
  | 0, _ => 0
  | count + 1, v => (v >>> shift) + rowSum shift dx count (v + dx)

def rowsSum (shift : Nat) (dx dy mbV : Int) : Nat → Nat → Int
  | _, 0 => 0
  | y, count + 1 => rowSum shift dx 16 (mbV + dy * y) + rowsSum shift dx dy mbV (y + 1) count

theorem amvRowLoop_eq (shift : Nat) (dx : Int) :
    ∀ (count : Nat) (sum v : Int), (∀ x ≤ count, InIntRange (v + dx * x)) →
      (∀ x ≤ count, InIntRange (sum + rowSum shift dx x v)) →
      amvRowLoop shift dx count sum v = some (sum + rowSum shift dx count v, v + dx * count)
  | 0, sum, v, _, _ => by simp [amvRowLoop, rowSum]
  | count + 1, sum, v, positions, partials => by
      have first : InIntRange (sum + (v >>> shift)) := by
        simpa [rowSum] using partials 1 (by omega)
      have next : InIntRange (v + dx) := by simpa using positions 1 (by omega)
      have rest := amvRowLoop_eq shift dx count (sum + (v >>> shift)) (v + dx)
        (fun x bound => by
          have shifted := positions (x + 1) (by omega)
          rwa [show v + dx * ((x + 1 : Nat) : Int) = v + dx + dx * x by push_cast; ring] at shifted)
        (fun x bound => by simpa [rowSum, add_assoc] using partials (x + 1) (by omega))
      simp only [amvRowLoop, intOp_of_inRange first, intOp_of_inRange next, Option.bind_eq_bind,
        Option.some_bind, rest, rowSum]
      congr 2 <;> push_cast <;> ring

theorem shiftRight_sixteen_abs_le {value : Int} (inRange : InIntRange value) :
    |value >>> (16 : Nat)| ≤ 2 ^ 15 := by
  obtain ⟨low, high⟩ := inRange
  simp only [intMin, intMax] at low high
  rw [shiftRight_eq_ediv, abs_le]
  constructor <;> omega

theorem rowSum_abs_le (dx : Int) : ∀ (count : Nat) (v : Int),
    (∀ x < count, InIntRange (v + dx * x)) → |rowSum 16 dx count v| ≤ count * 2 ^ 15
  | 0, _, _ => by simp [rowSum]
  | count + 1, v, positions => by
      have head := shiftRight_sixteen_abs_le (by simpa using positions 0 (by omega))
      have tail := rowSum_abs_le dx count (v + dx) fun x bound => by
        have shifted := positions (x + 1) (by omega)
        rwa [show v + dx * ((x + 1 : Nat) : Int) = v + dx + dx * x by push_cast; ring] at shifted
      simp only [rowSum]
      calc |(v >>> (16 : Nat)) + rowSum 16 dx count (v + dx)|
          ≤ |v >>> (16 : Nat)| + |rowSum 16 dx count (v + dx)| := abs_add _ _
        _ ≤ ((count + 1 : Nat) : Int) * 2 ^ 15 := by push_cast; linarith

theorem amvRows_eq (dx dy mbV : Int) : ∀ (count y : Nat) (sum : Int),
    (∀ row < count, ∀ x : Nat, x ≤ 16 → InIntRange (mbV + dy * (y + row : Nat) + dx * x)) →
    |sum| + count * 2 ^ 19 < 2 ^ 31 →
    amvRows 16 dx dy mbV y count sum = some (sum + rowsSum 16 dx dy mbV y count)
  | 0, _, sum, _, _ => by simp [amvRows, rowsSum]
  | count + 1, y, sum, positions, small => by
      have rowStart : toInt (toUnsigned (mbV + toUnsigned (dy * y))) = mbV + dy * y := by
        rw [toInt_toUnsigned, toInt_add_toUnsigned]
        simpa using toInt_of_inRange (positions 0 (by omega) 0 (by omega))
      have rowPositions : ∀ x : Nat, x ≤ 16 → InIntRange (mbV + dy * y + dx * x) :=
        fun x bound => by simpa using positions 0 (by omega) x bound
      have rowBound := rowSum_abs_le dx 16 (mbV + dy * y) fun x bound => rowPositions x bound.le
      have row := amvRowLoop_eq 16 dx 16 sum (mbV + dy * y) rowPositions fun x bound => by
        have partialBound := rowSum_abs_le dx x (mbV + dy * y) fun x' bound' =>
          rowPositions x' (by omega)
        apply inRange_of_abs_lt
        calc |sum + rowSum 16 dx x (mbV + dy * y)|
            ≤ |sum| + |rowSum 16 dx x (mbV + dy * y)| := abs_add _ _
          _ < 2 ^ 31 := by push_cast at small partialBound ⊢; omega
      have rest := amvRows_eq dx dy mbV count (y + 1) (sum + rowSum 16 dx 16 (mbV + dy * y))
        (fun row bound x xBound => by
          simpa [add_assoc, add_comm 1] using positions (row + 1) (by omega) x xBound)
        (by
          calc |sum + rowSum 16 dx 16 (mbV + dy * y)| + count * 2 ^ 19
              ≤ |sum| + |rowSum 16 dx 16 (mbV + dy * y)| + count * 2 ^ 19 := by
                gcongr; exact abs_add _ _
            _ < 2 ^ 31 := by push_cast at small rowBound ⊢; omega)
      simp only [amvRows, rowStart, row, Option.bind_eq_bind, Option.some_bind, rest, rowsSum,
        add_assoc]

theorem rowsSum_abs_le (dx dy mbV : Int) : ∀ (count y : Nat),
    (∀ row < count, ∀ x : Nat, x < 16 → InIntRange (mbV + dy * (y + row : Nat) + dx * x)) →
    |rowsSum 16 dx dy mbV y count| ≤ count * 2 ^ 19
  | 0, _, _ => by simp [rowsSum]
  | count + 1, y, positions => by
      have head := rowSum_abs_le dx 16 (mbV + dy * y) fun x bound => by
        simpa using positions 0 (by omega) x bound
      have tail := rowsSum_abs_le dx dy mbV count (y + 1) fun row bound x xBound => by
        simpa [add_assoc, add_comm 1] using positions (row + 1) (by omega) x xBound
      simp only [rowsSum]
      calc |rowSum 16 dx 16 (mbV + dy * y) + rowsSum 16 dx dy mbV (y + 1) count|
          ≤ |rowSum 16 dx 16 (mbV + dy * y)| + |rowsSum 16 dx dy mbV (y + 1) count| :=
            abs_add _ _
        _ ≤ ((count + 1 : Nat) : Int) * 2 ^ 19 := by push_cast at head ⊢; linarith

/-- The exact value of `v` at column `x` of row `y` of the macroblock:
`sprite_offset[0][n] + dx * (16 mb_x + x) + dy * (16 mb_y + y)`. -/
def amvPosition (ctx : GmcContext) (pic : AmvPicture) (n : Fin 2) (x y : Int) : Int :=
  ctx.spriteOffset 0 n + amvDx ctx n * (16 * pic.mbX + x) + amvDy ctx n * (16 * pic.mbY + y)

/-- **The summation branch computes its exact sum.** With shift 16, accuracy at most 3
and every warped position of the macroblock (one column past its right edge included)
inside `int`, `get_amv`'s summation branch is `RSHIFT` of the exact 16×16 sum. -/
theorem amvSummation_eq (ctx : GmcContext) (pic : AmvPicture) (n : Fin 2)
    (shiftSixteen : ctx.spriteShift 0 = 16) (accuracy : ctx.spriteWarpingAccuracy ≤ 3)
    (quarter : pic.quarterSample ≤ 1)
    (stepOp : InIntRange (if n = 0 then amvDx ctx n else amvDy ctx n))
    (stepX : InIntRange (amvDx ctx n * pic.mbX)) (stepY : InIntRange (amvDy ctx n * pic.mbY))
    (positions : ∀ y : Nat, y < 16 → ∀ x : Nat, x ≤ 16 → InIntRange (amvPosition ctx pic n x y)) :
    amvSummation ctx pic n = some (rshift (rowsSum 16 (amvDx ctx n) (amvDy ctx n)
      (amvPosition ctx pic n 0 0) 0 16) (ctx.spriteWarpingAccuracy + 8 - pic.quarterSample)) := by
  rw [show amvPosition ctx pic n 0 0 = ctx.spriteOffset 0 n + amvDx ctx n * pic.mbX * 16 +
    amvDy ctx n * pic.mbY * 16 by unfold amvPosition; ring]
  set dx := amvDx ctx n
  set dy := amvDy ctx n
  set mbV := ctx.spriteOffset 0 n + dx * pic.mbX * 16 + dy * pic.mbY * 16
  have shiftNat : (ctx.spriteShift 0).toNat = 16 := by rw [shiftSixteen]; rfl
  have grid : ∀ row < 16, ∀ x : Nat, x ≤ 16 →
      InIntRange (mbV + dy * ((0 + row : Nat) : Int) + dx * x) := fun row bound x xBound => by
    have position := positions row bound x xBound
    rwa [show amvPosition ctx pic n x row = mbV + dy * ((0 + row : Nat) : Int) + dx * x by
      simp only [amvPosition, mbV, dx, dy]; push_cast; ring] at position
  have mbVExact : toInt (toUnsigned (toUnsigned (ctx.spriteOffset 0 n +
      toUnsigned (dx * pic.mbX * 16)) + toUnsigned (dy * pic.mbY * 16))) = mbV := by
    have wrapped : toInt (toUnsigned (toUnsigned (ctx.spriteOffset 0 n +
        toUnsigned (dx * pic.mbX * 16)) + toUnsigned (dy * pic.mbY * 16))) = toInt mbV := by
      simp only [toInt, toUnsigned, mbV]; omega
    rw [wrapped, toInt_of_inRange (by simpa using grid 0 (by omega) 0 (by omega))]
  have unitSmall : InIntRange (2 ^ (ctx.spriteShift 0 + ctx.spriteWarpingAccuracy + 1).toNat) := by
    have power : (2 : Int) ^ (ctx.spriteShift 0 + ctx.spriteWarpingAccuracy + 1).toNat ≤ 2 ^ 20 :=
      pow_le_pow_right₀ (by norm_num) (by omega)
    have : (0 : Int) < 2 ^ (ctx.spriteShift 0 + ctx.spriteWarpingAccuracy + 1).toNat := by positivity
    constructor <;> simp only [intMin, intMax] <;> omega
  have ops : ∀ op ∈ [2 ^ (ctx.spriteShift 0 + ctx.spriteWarpingAccuracy + 1).toNat,
      if n = 0 then dx else dy, dx * pic.mbX, dy * pic.mbY], InIntRange op := by
    simp only [List.mem_cons, List.mem_singleton, List.not_mem_nil, or_false, forall_eq_or_imp,
      forall_eq]
    exact ⟨unitSmall, stepOp, stepX, stepY⟩
  have rows := amvRows_eq dx dy mbV 16 0 0 grid (by norm_num)
  have totalBound := rowsSum_abs_le dx dy mbV 16 0 fun row bound x xBound =>
    grid row bound x xBound.le
  have half : ((1 <<< (ctx.spriteWarpingAccuracy + 8 - pic.quarterSample) >>> 1 : Nat) : Int)
      ≤ 2 ^ 10 := by
    rw [half_pow_eq]
    split
    · norm_num
    · exact pow_le_pow_right₀ (by norm_num) (by omega)
  have halfNonneg : (0 : Int) ≤ ((1 <<< (ctx.spriteWarpingAccuracy + 8 - pic.quarterSample) >>> 1 : Nat) : Int) := by positivity
  rw [abs_le] at totalBound
  unfold amvSummation
  simp only [shiftNat, mbVExact, afterIntOps_of_forall _ ops, rows, Option.bind_eq_bind, Option.some_bind, zero_add]
  apply rshiftOp_of_inRange <;> constructor <;> simp only [intMin, intMax] <;> push_cast at totalBound <;> omega


/-! ## The one-point branch against the summation branch -/

/-- The general representation of the translation that the simplification in
`mpeg4_decode_sprite_trajectory` collapsed to one point: offsets scaled by `2^16`, the
delta `(2 << a) << 16` on the diagonal, both shifts 16, and a warping-point count other
than one, so that `get_amv` takes its summation branch. -/
def GmcContext.asSummation (ctx : GmcContext) : GmcContext :=
  { ctx with
    realSpriteWarpingPoints := 2
    spriteOffset := fun i n => ctx.spriteOffset i n * 2 ^ 16
    spriteDelta := diagonal (2 * 2 ^ ctx.spriteWarpingAccuracy * 2 ^ 16)
    spriteShift := ![16, 16] }

/-- A 176×144 GMC picture with no warping points at accuracy 0, before its trajectory is
decoded (`divx_version` and `divx_build` unset). -/
def zeroPointContext : GmcContext :=
  ⟨176, 144, 0, 0, -1, -1, 0, fun _ _ => 0, fun _ _ => 0, fun _ => 0, fun _ _ => 0⟩

theorem getAmv_zero_points_accuracy_zero :
    (mpeg4DecodeSpriteTrajectory zeroPointContext fun _ _ => 0).map (fun result =>
      (result.1, result.2.realSpriteWarpingPoints,
        [getAmv result.2 ⟨1, 0, false, 3, 2⟩ 0, getAmv result.2 ⟨1, 0, false, 3, 2⟩ 1,
          getAmv result.2.asSummation ⟨1, 0, false, 3, 2⟩ 0,
          getAmv result.2.asSummation ⟨1, 0, false, 3, 2⟩ 1])) =
      some (0, 1, [some (-1), some (-1), some 0, some 0]) := by
  decide

/-! ## The summation branch on a guarded trajectory -/

/-- `len` of `get_amv`: `1 << (f_code + 4)`, shifted right by `quarter_sample` under
`FF_BUG_AMV`. -/
def AmvPicture.len (pic : AmvPicture) : Int :=
  let len : Int := 2 ^ (pic.fCode + 4)
  if pic.bugAmv then len >>> pic.quarterSample else len

theorem clampAmv_mem {len : Int} (lenPos : 0 < len) (sum : Int) :
    -len ≤ clampAmv len sum ∧ clampAmv len sum ≤ len - 1 := by
  unfold clampAmv
  split_ifs <;> omega

theorem AmvPicture.len_pos (pic : AmvPicture) (quarter : pic.quarterSample ≤ 1) : 0 < pic.len := by
  unfold AmvPicture.len
  split
  · rw [shiftRight_eq_ediv]
    have : (2 : Int) ^ pic.quarterSample ≤ 2 := (pow_le_pow_right₀ (by norm_num) quarter).trans (by norm_num)
    have : (2 : Int) ^ 4 ≤ 2 ^ (pic.fCode + 4) := pow_le_pow_right₀ (by norm_num) (by omega)
    have := (Int.le_ediv_iff_mul_le (show (0 : Int) < 2 ^ pic.quarterSample by positivity)).mpr
      (show 1 * 2 ^ pic.quarterSample ≤ (2 : Int) ^ (pic.fCode + 4) by linarith)
    omega
  · positivity

theorem getAmv_of_summation (ctx : GmcContext) (pic : AmvPicture) (n : Fin 2)
    (fCode : pic.fCode ≤ 7) (real : ctx.realSpriteWarpingPoints ≠ 1) :
    getAmv ctx pic n = (clampAmv pic.len) <$> amvSummation ctx pic n := by
  have lenFits := pow_inRange (show pic.fCode + 4 ≤ 30 by omega)
  simp only [getAmv, intOp_of_inRange lenFits, real, if_false, AmvPicture.len,
    Option.bind_eq_bind, Option.some_bind]
  cases amvSummation ctx pic n <;> rfl

theorem mul_between (p : Int) {x bound : Int} (xRange : 0 ≤ x ∧ x ≤ bound) :
    (0 ≤ p * x ∧ p * x ≤ p * bound) ∨ (p * bound ≤ p * x ∧ p * x ≤ 0) := by
  rcases le_total 0 p with nonneg | nonpos
  · exact .inl ⟨mul_nonneg nonneg xRange.1, mul_le_mul_of_nonneg_left xRange.2 nonneg⟩
  · exact .inr ⟨mul_le_mul_of_nonpos_left xRange.2 nonpos, by nlinarith⟩

theorem affine_inRange_of_corners {o p q width height x y : Int}
    (xRange : 0 ≤ x ∧ x ≤ width) (yRange : 0 ≤ y ∧ y ≤ height) (origin : InIntRange o)
    (right : InIntRange (o + p * width)) (below : InIntRange (o + q * height))
    (opposite : InIntRange (o + p * width + q * height)) :
    InIntRange (o + p * x + q * y) := by
  unfold InIntRange at *
  rcases mul_between p xRange with px | px <;> rcases mul_between q yRange with qy | qy <;> omega


theorem inRange_of_between {value above below : Int} (aboveNonneg : 0 ≤ above)
    (belowNonneg : 0 ≤ below) (upper : |value + above| < intMax)
    (lower : |value - below| < intMax) : InIntRange value := by
  rw [abs_lt] at upper lower
  unfold InIntRange intMin
  simp only [intMax] at *
  omega

/-- The macroblocks `get_amv` runs on: inside the picture's macroblock grid
(`mb_width = (width + 15) / 16`), with the `f_code` and `quarter_sample` a VOP header
can set. -/
structure AmvPicture.Within (pic : AmvPicture) (width height : Int) : Prop where
  column : 0 ≤ pic.mbX ∧ pic.mbX < (width + 15) / 16
  row : 0 ≤ pic.mbY ∧ pic.mbY < (height + 15) / 16
  fCodeLe : pic.fCode ≤ 7
  quarterLe : pic.quarterSample ≤ 1

/-- What `get_amv` computes for one macroblock and component: every `v` it visits is
exact and fits in `int`, the result is the clamped `RSHIFT` of the exact sum, and it
lies in `[-len, len - 1]`. -/
structure AmvExact (ctx : GmcContext) (pic : AmvPicture) (n : Fin 2) : Prop where
  positions : ∀ y : Nat, y < 16 → ∀ x : Nat, x ≤ 16 → InIntRange (amvPosition ctx pic n x y)
  result : getAmv ctx pic n = some (clampAmv pic.len (rshift (rowsSum 16 (amvDx ctx n)
    (amvDy ctx n) (amvPosition ctx pic n 0 0) 0 16) (ctx.spriteWarpingAccuracy + 8 - pic.quarterSample)))
  inLen : ∀ amv, getAmv ctx pic n = some amv → -pic.len ≤ amv ∧ amv ≤ pic.len - 1

theorem step_inRange {o p bound column : Int} (origin : InIntRange o)
    (far : InIntRange (o + p * bound)) (columnRange : 0 ≤ column ∧ 16 * column ≤ bound) :
    InIntRange (p * column) := by
  have scaled : p * (16 * column) = 16 * (p * column) := by ring
  have between := mul_between p (show 0 ≤ 16 * column ∧ 16 * column ≤ bound by omega)
  rw [scaled] at between
  unfold InIntRange intMin intMax at *
  omega

theorem amvExact_of_corners (ctx : GmcContext) (pic : AmvPicture) (n : Fin 2)
    (accuracy : ctx.spriteWarpingAccuracy ≤ 3) (real : ctx.realSpriteWarpingPoints ≠ 1)
    (shiftSixteen : ctx.spriteShift 0 = 16) (within : pic.Within ctx.width ctx.height)
    (origin : InIntRange (ctx.spriteOffset 0 n))
    (right : InIntRange (ctx.spriteOffset 0 n + amvDx ctx n * (ctx.width + 16)))
    (below : InIntRange (ctx.spriteOffset 0 n + amvDy ctx n * (ctx.height + 16)))
    (opposite : InIntRange (ctx.spriteOffset 0 n + amvDx ctx n * (ctx.width + 16) +
      amvDy ctx n * (ctx.height + 16)))
    (stepOp : InIntRange (if n = 0 then amvDx ctx n else amvDy ctx n)) : AmvExact ctx pic n := by
  have column := within.column
  have row := within.row
  have positions : ∀ y : Nat, y < 16 → ∀ x : Nat, x ≤ 16 →
      InIntRange (amvPosition ctx pic n x y) := fun y yBound x xBound =>
    affine_inRange_of_corners (by omega) (by omega) origin right below opposite
  have summation := amvSummation_eq ctx pic n shiftSixteen accuracy within.quarterLe stepOp
    (step_inRange origin right (by omega)) (step_inRange origin below (by omega)) positions
  have result : getAmv ctx pic n = some (clampAmv pic.len (rshift (rowsSum 16 (amvDx ctx n)
      (amvDy ctx n) (amvPosition ctx pic n 0 0) 0 16)
      (ctx.spriteWarpingAccuracy + 8 - pic.quarterSample))) := by
    rw [getAmv_of_summation ctx pic n within.fCodeLe real, summation]; rfl
  refine ⟨positions, result, fun amv returned => ?_⟩
  rw [result, Option.some.injEq] at returned
  exact returned ▸ clampAmv_mem (pic.len_pos within.quarterLe) _

/-- **The second guard bounds every macroblock.** A stored trajectory that passed
`mpeg4_decode_sprite_trajectory`'s second guard at index `n` has its four corners in
`int`: three are guarded directly, and the fourth, the mixed corner `get_amv` reaches,
lies between two guarded sums. -/
theorem amvExact_of_guard (ctx : GmcContext) (pic : AmvPicture) (n : Fin 2)
    (accuracy : ctx.spriteWarpingAccuracy ≤ 3) (width : 1 ≤ ctx.width) (height : 1 ≤ ctx.height)
    (real : ctx.realSpriteWarpingPoints ≠ 1) (shift : ctx.spriteShift = ![16, 16])
    (origin : InIntRange (ctx.spriteOffset 0 n))
    (guard : secondGuardFails (2 * 2 ^ ctx.spriteWarpingAccuracy) ctx.width ctx.height
      ctx.spriteOffset ctx.spriteDelta n = false)
    (within : pic.Within ctx.width ctx.height) : AmvExact ctx pic n := by
  simp only [secondGuardFails, Bool.or_eq_false_iff, decide_eq_false_iff_not, not_le] at guard
  obtain ⟨⟨⟨⟨⟨⟨⟨⟨⟨g1, g2⟩, g3⟩, g4⟩, g5⟩, g6⟩, g7⟩, g8⟩, g9⟩, g10⟩ := guard
  have unit : (2 : Int) ^ (ctx.spriteShift 0 + ctx.spriteWarpingAccuracy + 1).toNat =
      2 * 2 ^ ctx.spriteWarpingAccuracy * 2 ^ 16 := by
    rw [shift, show ((![16, 16] : Fin 2 → Int) 0 + ctx.spriteWarpingAccuracy + 1).toNat =
      1 + ctx.spriteWarpingAccuracy + 16 by simp; omega, pow_add, pow_add]; ring
  set A : Int := 2 * 2 ^ ctx.spriteWarpingAccuracy * 2 ^ 16 with aDef
  have aPos : 0 < A := by positivity
  have fits : ∀ value, |value| < intMax → InIntRange value := fun value small =>
    inRange_of_abs_lt (small.trans (by simp [intMax]))
  have wPos : 0 < ctx.width + 16 := by omega
  have hPos : 0 < ctx.height + 16 := by omega
  have lumaShift : ctx.spriteShift 0 = 16 := by rw [shift]; rfl
  fin_cases n
  · have dx : amvDx ctx 0 = ctx.spriteDelta 0 0 - A := by simp [amvDx, unit, aDef]
    have dy : amvDy ctx 0 = ctx.spriteDelta 0 1 := by simp [amvDy]
    refine amvExact_of_corners ctx pic 0 accuracy real lumaShift within origin ?_ ?_ ?_ ?_ <;>
      simp only [dx, dy, Fin.zero_eta, Fin.isValue, ↓reduceIte] at g2 g3 g6 g8 g10 ⊢
    · exact fits _ g8
    · exact fits _ g2
    · refine inRange_of_between (mul_pos aPos wPos).le (mul_pos aPos hPos).le ?_ ?_
      · convert g3 using 2; ring
      · convert g10 using 2; ring
    · exact fits _ g6
  · have dx : amvDx ctx 1 = ctx.spriteDelta 1 0 := by simp [amvDx]
    have dy : amvDy ctx 1 = ctx.spriteDelta 1 1 - A := by simp [amvDy, unit, aDef]
    refine amvExact_of_corners ctx pic 1 accuracy real lumaShift within origin ?_ ?_ ?_ ?_ <;>
      simp only [dx, dy, Fin.mk_one, Fin.isValue, one_ne_zero, ↓reduceIte] at g1 g3 g7 g9 g10 ⊢
    · exact fits _ g1
    · exact fits _ g9
    · refine inRange_of_between (mul_pos aPos hPos).le (mul_pos aPos wPos).le ?_ ?_
      · convert g3 using 2; ring
      · convert g10 using 2; ring
    · exact fits _ g7

end Librempeg.Avcodec.Mpeg4Video
