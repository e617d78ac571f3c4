import Librempeg.Avutil.Common

/-!
Contract: `mpeg4_decode_sprite_trajectory` (libavcodec/mpeg4videodec.c), from the
decoded warping-point displacements to the stored GMC offsets, deltas and shifts.
Every signed `int` operation of the source is an `intOp`, every assignment of an
`int64_t` value to an `int` a `toInt`; the `int64_t` expressions are exact.

Owns: the context fields the resolver reads and writes, the two exponent loops,
the sprite and virtual reference points, the four warping cases, the collapse to
one warping point, the two overflow guards and the final store.

Does not own: reading the displacements. The sprite-trajectory VLC and
`get_xbits` belong to the bit reader; the model takes the decoded `(x, y)` pairs.
-/

namespace Librempeg.Avcodec.Mpeg4Video

open Librempeg.Avutil

/-- A `[2][2]` table of integers, indexed as in C. -/
abbrev Table2 := Fin 2 → Fin 2 → Int

/-- The fields of `Mpeg4DecContext` (and of its `MpegEncContext`) that the
trajectory resolver and `get_amv` read or write. -/
structure GmcContext where
  width : Int
  height : Int
  spriteWarpingAccuracy : Nat
  numSpriteWarpingPoints : Nat
  divxVersion : Int
  divxBuild : Int
  realSpriteWarpingPoints : Nat
  spriteOffset : Table2
  spriteDelta : Table2
  spriteShift : Fin 2 → Int
  spriteTraj : Fin 4 → Fin 2 → Int

/-- `ctx->divx_version == 500 && ctx->divx_build == 413`. -/
def GmcContext.divx500Build413 (ctx : GmcContext) : Bool :=
  ctx.divxVersion == 500 && ctx.divxBuild == 413

/-- `while ((1 << exponent) < bound) exponent++;`. The shift reaches the sign bit
after at most 31 steps, so 32 steps of fuel never run out. -/
def shiftUntilCovers (bound : Int) : Nat → Nat → Option Nat
  | 0, _ => none
  | fuel + 1, exponent => do
      let power ← intOp (2 ^ exponent)
      if power < bound then shiftUntilCovers bound fuel (exponent + 1) else some exponent

/-- The running sums `base + t₁`, `base + t₁ + t₂`, … of a left-to-right `int` sum. -/
def partialSums (base : Int) : List Int → List Int
  | [] => []
  | term :: rest => (base + term) :: partialSums (base + term) rest

/-- `vop_ref`: `{ {0, 0}, {w, 0}, {0, h}, {w, h} }`. -/
def vopRef (width height : Int) : Fin 4 → Fin 2 → Int :=
  ![![0, 0], ![width, 0], ![0, height], ![width, height]]

@[simp] theorem vopRef_zero (width height : Int) (j : Fin 2) : vopRef width height 0 j = 0 := by
  fin_cases j <;> rfl

@[simp] theorem vopRef_one_zero (width height : Int) : vopRef width height 1 0 = width := rfl

@[simp] theorem vopRef_one_one (width height : Int) : vopRef width height 1 1 = 0 := rfl

@[simp] theorem vopRef_two_zero (width height : Int) : vopRef width height 2 0 = 0 := rfl

@[simp] theorem vopRef_two_one (width height : Int) : vopRef width height 2 1 = height := rfl

/-- The displacements added into `sprite_ref[i][j]`: `d[0][j]`, and `d[i][j]` for `i > 0`. -/
def refDisplacements (d : Fin 4 → Fin 2 → Int) (i : Fin 3) (j : Fin 2) : List Int :=
  if i = 0 then [d 0 j] else [d 0 j, d i.castSucc j]

/-- One `sprite_ref[i][j]`: `(a >> 1) * (2 * vop_ref[i][j] + d[0][j] + d[i][j])`, or
`a * vop_ref[i][j] + d[0][j] + d[i][j]` under the DivX 5.00 build 413 quirk. -/
def spriteRefValue (quirk : Bool) (a vop : Int) (displacements : List Int) : Int :=
  if quirk then a * vop + displacements.sum
  else (a >>> (1 : Nat)) * (2 * vop + displacements.sum)

/-- The signed `int` operations computing one `sprite_ref[i][j]`. -/
def spriteRefOps (quirk : Bool) (a vop : Int) (displacements : List Int) : List Int :=
  if quirk then a * vop :: partialSums (a * vop) displacements
  else 2 * vop :: partialSums (2 * vop) displacements ++
    [spriteRefValue quirk a vop displacements]

/-- `sprite_ref[0..2][0..1]` (the fourth point is not used for GMC). -/
def spriteRefs (quirk : Bool) (a : Int) (vop d : Fin 4 → Fin 2 → Int) :
    Option (Fin 3 → Fin 2 → Int) :=
  afterIntOps ([0, 1, 2].flatMap fun i => [0, 1].flatMap fun j =>
      spriteRefOps quirk a (vop i j) (refDisplacements d i j))
    fun i j => spriteRefValue quirk a (vop i.castSucc j) (refDisplacements d i j)

/-- One `virtual_ref[i][j]` from its `int` base:
`base + ROUNDED_DIV((len - len2) * (r * s0 - 16LL * v0) + len2 * (r * s1 - 16LL * v1), len)`,
an `int64_t` stored into an `int`. -/
def virtualRefValue (base len len2 r s0 v0 s1 v1 : Int) : Int :=
  toInt (base + roundedDiv ((len - len2) * (r * s0 - 16 * v0) + len2 * (r * s1 - 16 * v1)) len)

/-- `virtual_ref[0..1][0..1]`: the reference points moved to the power-of-two
distances `w2` and `h2`. -/
def virtualRefs (w h w2 h2 r : Int) (vop : Fin 4 → Fin 2 → Int) (ref : Fin 3 → Fin 2 → Int) :
    Option Table2 :=
  afterIntOps [vop 0 0 + w2, 16 * (vop 0 0 + w2), w - w2, r * ref 0 0, r * ref 1 0,
      16 * vop 0 1, w - w2, r * ref 0 1, r * ref 1 1,
      16 * vop 0 0, h - h2, r * ref 0 0, r * ref 2 0,
      vop 0 1 + h2, 16 * (vop 0 1 + h2), h - h2, r * ref 0 1, r * ref 2 1]
    ![![virtualRefValue (16 * (vop 0 0 + w2)) w w2 r (ref 0 0) (vop 0 0) (ref 1 0) (vop 1 0),
        virtualRefValue (16 * vop 0 1) w w2 r (ref 0 1) (vop 0 1) (ref 1 1) (vop 1 1)],
      ![virtualRefValue (16 * vop 0 0) h h2 r (ref 0 0) (vop 0 0) (ref 2 0) (vop 2 0),
        virtualRefValue (16 * (vop 0 1 + h2)) h h2 r (ref 0 1) (vop 0 1) (ref 2 1) (vop 2 1)]]

/-- `(x >> 1) | (x & 1)`, the chroma offset of the one-point case. -/
def halfKeepOdd (x : Int) : Int := Int.lor (x >>> (1 : Nat)) (Int.land x 1)

private theorem lor_zero_right (m : Int) : Int.lor m 0 = m := by
  rcases m with m | m <;> simp [Int.lor, Nat.ldiff]

private theorem land_zero_right (m : Int) : Int.land m 0 = 0 := by
  rcases m with m | m <;> simp [Int.land, Nat.ldiff]

theorem lor_land_one (y x : Int) :
    Int.lor y (Int.land x 1) = y + (if y.bodd = false ∧ x.bodd = true then 1 else 0) := by
  have one : (1 : Int) = Int.bit true 0 := by simp [Int.bit_val]
  have bits : Int.lor y (Int.land x 1) = Int.bit (y.bodd || x.bodd) y.div2 := by
    conv_lhs => rw [← Int.bit_decomp y, ← Int.bit_decomp x, one, Int.land_bit,
      land_zero_right, Int.lor_bit, lor_zero_right]
    simp
  have decomposed := Int.bodd_add_div2 y
  rw [bits, Int.bit_val]
  rcases oddY : y.bodd <;> rcases oddX : x.bodd <;> simp [oddY, oddX] at decomposed ⊢ <;> omega

theorem halfKeepOdd_sub_shift (x : Int) :
    0 ≤ halfKeepOdd x - (x >>> (1 : Nat)) ∧ halfKeepOdd x - (x >>> (1 : Nat)) ≤ 1 := by
  rw [halfKeepOdd, lor_land_one]
  split <;> omega

/-- The raw result of the `switch`: `int64_t` offsets and deltas, and the shifts it
stores into `ctx->sprite_shift`. -/
structure RawWarp where
  offset : Table2
  delta : Table2
  shift : Fin 2 → Int

/-- The diagonal delta table `{ {a, 0}, {0, a} }`. -/
def diagonal (a : Int) : Table2 := ![![a, 0], ![0, a]]

/-- `case 1:` (GMC only), a pure translation. -/
def onePointWarp (a : Int) (vop : Fin 4 → Fin 2 → Int) (ref : Fin 3 → Fin 2 → Int) :
    Option RawWarp :=
  afterIntOps [a * vop 0 0, ref 0 0 - a * vop 0 0, a * vop 0 1, ref 0 1 - a * vop 0 1,
      a * (vop 0 0).tdiv 2, halfKeepOdd (ref 0 0) - a * (vop 0 0).tdiv 2,
      a * (vop 0 1).tdiv 2, halfKeepOdd (ref 0 1) - a * (vop 0 1).tdiv 2]
    ⟨![![ref 0 0 - a * vop 0 0, ref 0 1 - a * vop 0 1],
        ![halfKeepOdd (ref 0 0) - a * (vop 0 0).tdiv 2,
          halfKeepOdd (ref 0 1) - a * (vop 0 1).tdiv 2]], diagonal a, ![0, 0]⟩

/-- `case 2:` two warping points (rotation and zoom). -/
def twoPointWarp (r w2 : Int) (alpha rho : Nat) (vop : Fin 4 → Fin 2 → Int)
    (ref : Fin 3 → Fin 2 → Int) (virt : Table2) : Option RawWarp :=
  let scale : Int := 2 ^ (alpha + rho)
  let half : Int := 2 ^ (alpha + rho - 1)
  let chromaRound : Int := 2 ^ (alpha + rho + 1)
  afterIntOps [scale, half, -r, -vop 0 0, -vop 0 1, 2 * w2, 2 * w2 * r, 16 * w2, chromaRound,
      -r * ref 0 0, -r * ref 0 0 + virt 0 0, r * ref 0 1, r * ref 0 1 - virt 0 1,
      -r * ref 0 1, -r * ref 0 1 + virt 0 1]
    ⟨![![ref 0 0 * scale + (-r * ref 0 0 + virt 0 0) * -vop 0 0 +
            (r * ref 0 1 - virt 0 1) * -vop 0 1 + half,
          ref 0 1 * scale + (-r * ref 0 1 + virt 0 1) * -vop 0 0 +
            (-r * ref 0 0 + virt 0 0) * -vop 0 1 + half],
        ![(-r * ref 0 0 + virt 0 0) * (-2 * vop 0 0 + 1) +
            (r * ref 0 1 - virt 0 1) * (-2 * vop 0 1 + 1) + 2 * w2 * r * ref 0 0 - 16 * w2 +
            chromaRound,
          (-r * ref 0 1 + virt 0 1) * (-2 * vop 0 0 + 1) +
            (-r * ref 0 0 + virt 0 0) * (-2 * vop 0 1 + 1) + 2 * w2 * r * ref 0 1 - 16 * w2 +
            chromaRound]],
      ![![-r * ref 0 0 + virt 0 0, r * ref 0 1 - virt 0 1],
        ![-r * ref 0 1 + virt 0 1, -r * ref 0 0 + virt 0 0]],
      ![(alpha + rho : Nat), (alpha + rho + 2 : Nat)]⟩

/-- `case 3:` three warping points (a general affine map). -/
def threePointWarp (r w2 h2 : Int) (alpha beta rho : Nat) (vop : Fin 4 → Fin 2 → Int)
    (ref : Fin 3 → Fin 2 → Int) (virt : Table2) : Option RawWarp :=
  let minAB := min alpha beta
  let w3 := w2 >>> minAB
  let h3 := h2 >>> minAB
  let shift := alpha + beta + rho - minAB
  afterIntOps [2 ^ shift, -r, -vop 0 0, -vop 0 1, -2 * vop 0 0, -2 * vop 0 0 + 1,
      -2 * vop 0 1, -2 * vop 0 1 + 1, 16 * w2, 16 * w2 * h3]
    ⟨![![ref 0 0 * 2 ^ shift + (-r * ref 0 0 + virt 0 0) * h3 * -vop 0 0 +
            (-r * ref 0 0 + virt 1 0) * w3 * -vop 0 1 + 2 ^ (shift - 1),
          ref 0 1 * 2 ^ shift + (-r * ref 0 1 + virt 0 1) * h3 * -vop 0 0 +
            (-r * ref 0 1 + virt 1 1) * w3 * -vop 0 1 + 2 ^ (shift - 1)],
        ![(-r * ref 0 0 + virt 0 0) * h3 * (-2 * vop 0 0 + 1) +
            (-r * ref 0 0 + virt 1 0) * w3 * (-2 * vop 0 1 + 1) +
            2 * w2 * h3 * r * ref 0 0 - 16 * w2 * h3 + 2 ^ (shift + 1),
          (-r * ref 0 1 + virt 0 1) * h3 * (-2 * vop 0 0 + 1) +
            (-r * ref 0 1 + virt 1 1) * w3 * (-2 * vop 0 1 + 1) +
            2 * w2 * h3 * r * ref 0 1 - 16 * w2 * h3 + 2 ^ (shift + 1)]],
      ![![(-r * ref 0 0 + virt 0 0) * h3, (-r * ref 0 0 + virt 1 0) * w3],
        ![(-r * ref 0 1 + virt 0 1) * h3, (-r * ref 0 1 + virt 1 1) * w3]],
      ![(shift : Nat), (shift + 2 : Nat)]⟩

/-- The `switch (ctx->num_sprite_warping_points)`; a count above 3 reaches
`av_unreachable`, undefined behaviour. -/
def warpCase (points : Nat) (a r w2 h2 : Int) (alpha beta rho : Nat)
    (vop : Fin 4 → Fin 2 → Int) (ref : Fin 3 → Fin 2 → Int) (virt : Table2) :
    Option RawWarp :=
  match points with
  | 0 => some ⟨fun _ _ => 0, diagonal a, ![0, 0]⟩
  | 1 => onePointWarp a vop ref
  | 2 => twoPointWarp r w2 alpha rho vop ref virt
  | 3 => threePointWarp r w2 h2 alpha beta rho vop ref virt
  | _ => none

/-- How the resolver leaves the `switch`: through the `overflow` label (with the
shifts it had stored by then), or with the final offsets, deltas, shifts and
`real_sprite_warping_points`. -/
inductive WarpOutcome
  | overflow (shift : Fin 2 → Int)
  | resolved (offset delta : Table2) (shift : Fin 2 → Int) (realPoints : Nat)

/-- `FFABS(x) >= INT_MAX >> shift`. -/
def tooLargeFor (shift : Nat) (value : Int) : Bool := decide (|value| ≥ intMax >>> shift)

/-- The first guard at index `i`, evaluated left to right as `||` does; `none` never
occurs since a negative shift is caught before it is used. -/
def firstGuardFails (shiftY shiftC : Int) (raw : RawWarp) (i : Fin 2) : Bool :=
  decide (shiftC < 0) || decide (shiftY < 0) ||
    tooLargeFor shiftY.toNat (raw.offset 0 i) || tooLargeFor shiftC.toNat (raw.offset 1 i) ||
    tooLargeFor shiftY.toNat (raw.delta 0 i) || tooLargeFor shiftY.toNat (raw.delta 1 i)

/-- The second guard at index `i`: ten `llabs(...) >= INT_MAX` tests on the scaled
values, with `sd` the deltas less `a * 2^16`. -/
def secondGuardFails (a w h : Int) (offset delta : Table2) (i : Fin 2) : Bool :=
  let sd0 := delta i 0 - a * 2 ^ 16
  let sd1 := delta i 1 - a * 2 ^ 16
  decide (|offset 0 i + delta i 0 * (w + 16)| ≥ intMax) ||
    decide (|offset 0 i + delta i 1 * (h + 16)| ≥ intMax) ||
    decide (|offset 0 i + delta i 0 * (w + 16) + delta i 1 * (h + 16)| ≥ intMax) ||
    decide (|delta i 0 * (w + 16)| ≥ intMax) ||
    decide (|delta i 1 * (h + 16)| ≥ intMax) ||
    decide (|sd0| ≥ intMax) || decide (|sd1| ≥ intMax) ||
    decide (|offset 0 i + sd0 * (w + 16)| ≥ intMax) ||
    decide (|offset 0 i + sd1 * (h + 16)| ≥ intMax) ||
    decide (|offset 0 i + sd0 * (w + 16) + sd1 * (h + 16)| ≥ intMax)

/-- The `else` branch: both guards, and between them the scaling of every offset and
delta to the fixed shift 16. -/
def guardAndScale (points : Nat) (a w h : Int) (raw : RawWarp) : Option WarpOutcome := do
  let shiftY ← intOp (16 - raw.shift 0)
  let shiftC ← intOp (16 - raw.shift 1)
  if firstGuardFails shiftY shiftC raw 0 || firstGuardFails shiftY shiftC raw 1 then
    return .overflow raw.shift
  let unitY ← intOp (2 ^ shiftY.toNat)
  let unitC ← intOp (2 ^ shiftC.toNat)
  let offset : Table2 := ![![raw.offset 0 0 * unitY, raw.offset 0 1 * unitY],
    ![raw.offset 1 0 * unitC, raw.offset 1 1 * unitC]]
  let delta : Table2 := fun row column => raw.delta row column * unitY
  let shift : Fin 2 → Int := ![16, 16]
  if secondGuardFails a w h offset delta 0 || secondGuardFails a w h offset delta 1 then
    return .overflow shift
  return .resolved offset delta shift points

/-- "try to simplify the situation": a pure scaling by `a` collapses to one warping
point with zero shifts; anything else goes through the guards. -/
def simplifyOrGuard (points : Nat) (a w h : Int) (raw : RawWarp) : Option WarpOutcome := do
  let scaledA ← intOp (a * 2 ^ (raw.shift 0).toNat)
  if raw.delta 0 0 = scaledA ∧ raw.delta 0 1 = 0 ∧ raw.delta 1 0 = 0 ∧ raw.delta 1 1 = scaledA then
    let offset : Table2 := ![![raw.offset 0 0 >>> (raw.shift 0).toNat,
      raw.offset 0 1 >>> (raw.shift 0).toNat],
      ![raw.offset 1 0 >>> (raw.shift 1).toNat, raw.offset 1 1 >>> (raw.shift 1).toNat]]
    return .resolved offset (diagonal a) ![0, 0] 1
  guardAndScale points a w h raw

/-- The displacements the loop over the warping points stores in `d` and in
`ctx->sprite_traj`: the decoded pairs for `i < num_sprite_warping_points`, zero for
the rest. -/
def trajectoryOf (points : Nat) (decoded : Fin 4 → Fin 2 → Int) : Fin 4 → Fin 2 → Int :=
  fun i j => if i.val < points then decoded i j else 0

/-- The exponents `alpha` and `beta` of `w2 = 1 << alpha >= w` and `h2 = 1 << beta >= h`
(`alpha` starts at 1, `beta` at 0), with `w2` and `h2`. -/
def warpingExponents (w h : Int) : Option (Nat × Nat × Int × Int) := do
  let alpha ← shiftUntilCovers w 32 1
  let beta ← shiftUntilCovers h 32 0
  afterIntOps [2 ^ alpha, 2 ^ beta] (alpha, beta, 2 ^ alpha, 2 ^ beta)

/-- The part of `mpeg4_decode_sprite_trajectory` after the size check: the exponent
loops, the reference points, the `switch`, and the simplification or the guards. A
`resolved` outcome carries the `int64_t` locals `sprite_offset` and `sprite_delta`. -/
def resolveSpriteWarp (points : Nat) (quirk : Bool) (a rho r w h : Int)
    (d : Fin 4 → Fin 2 → Int) : Option WarpOutcome := do
  let vop := vopRef w h
  let (alpha, beta, w2, h2) ← warpingExponents w h
  let ref ← spriteRefs quirk a vop d
  let virt ← virtualRefs w h w2 h2 r vop ref
  let raw ← warpCase points a r w2 h2 alpha beta rho.toNat vop ref virt
  simplifyOrGuard points a w h raw

/-- The stores after the `switch`: through `overflow`, the shifts stored so far and
zeroed offsets and deltas; otherwise each `int64_t` local stored into its `int` field. -/
def storeSpriteWarp (ctx : GmcContext) : WarpOutcome → Int × GmcContext
  | .overflow shift =>
      (averrorPatchWelcome,
        { ctx with spriteShift := shift, spriteOffset := fun _ _ => 0,
                   spriteDelta := fun _ _ => 0 })
  | .resolved offset delta shift realPoints =>
      (0, { ctx with spriteShift := shift, realSpriteWarpingPoints := realPoints,
                     spriteOffset := fun i j => toInt (offset i j),
                     spriteDelta := fun i j => toInt (delta i j) })

/-- `mpeg4_decode_sprite_trajectory`: the return code and the updated context. -/
def mpeg4DecodeSpriteTrajectory (ctx : GmcContext) (decoded : Fin 4 → Fin 2 → Int) :
    Option (Int × GmcContext) := do
  let accuracy := ctx.spriteWarpingAccuracy
  let (a, rho) ← afterIntOps [2 * 2 ^ accuracy, 3 - accuracy]
    ((2 * 2 ^ accuracy : Int), (3 - accuracy : Int))
  let r := (16 : Int).tdiv a
  if ctx.width ≤ 0 ∨ ctx.height ≤ 0 then return (averrorInvalidData, ctx)
  let d := trajectoryOf ctx.numSpriteWarpingPoints decoded
  let outcome ← resolveSpriteWarp ctx.numSpriteWarpingPoints ctx.divx500Build413 a rho r
    ctx.width ctx.height d
  return storeSpriteWarp { ctx with spriteTraj := d } outcome

/-- The `int64_t` locals (offsets, deltas, shifts) that `mpeg4_decode_sprite_trajectory`
computes for `ctx` past its size check, before storing them. -/
def GmcContext.spriteWarp (ctx : GmcContext) (decoded : Fin 4 → Fin 2 → Int) :
    Option WarpOutcome :=
  let a : Int := 2 * 2 ^ ctx.spriteWarpingAccuracy
  resolveSpriteWarp ctx.numSpriteWarpingPoints ctx.divx500Build413 a
    (3 - ctx.spriteWarpingAccuracy) ((16 : Int).tdiv a) ctx.width ctx.height
    (trajectoryOf ctx.numSpriteWarpingPoints decoded)

theorem mpeg4DecodeSpriteTrajectory_eq (ctx : GmcContext) (decoded : Fin 4 → Fin 2 → Int)
    (accuracy : ctx.spriteWarpingAccuracy ≤ 3) (widthPos : 0 < ctx.width)
    (heightPos : 0 < ctx.height) :
    mpeg4DecodeSpriteTrajectory ctx decoded = (ctx.spriteWarp decoded).map (storeSpriteWarp
      { ctx with spriteTraj := trajectoryOf ctx.numSpriteWarpingPoints decoded }) := by
  have unit : (2 : Int) ^ ctx.spriteWarpingAccuracy ≤ 2 ^ 3 :=
    pow_le_pow_right₀ (by norm_num) accuracy
  have unitPos : (0 : Int) < 2 ^ ctx.spriteWarpingAccuracy := by positivity
  have constants : ∀ op ∈ [(2 * 2 ^ ctx.spriteWarpingAccuracy : Int), 3 - ctx.spriteWarpingAccuracy],
      InIntRange op := by
    simp only [List.mem_cons, List.not_mem_nil, or_false, forall_eq_or_imp, forall_eq]
    exact ⟨inRange_of_bounds (by omega) (by omega), inRange_of_bounds (by omega) (by omega)⟩
  simp only [mpeg4DecodeSpriteTrajectory, GmcContext.spriteWarp, afterIntOps_of_forall _ constants,
    Option.bind_eq_bind, Option.some_bind, not_or, not_le.mpr widthPos, not_le.mpr heightPos,
    or_self, if_false]
  generalize resolveSpriteWarp _ _ _ _ _ _ _ _ = outcome
  cases outcome <;> rfl

end Librempeg.Avcodec.Mpeg4Video
