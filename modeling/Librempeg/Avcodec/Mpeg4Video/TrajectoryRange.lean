import Librempeg.Avcodec.Mpeg4Video.AverageMotion

/-!
Contract: the ranges of `mpeg4_decode_sprite_trajectory` for the pictures and
trajectories the VOL and VOP headers can describe: sizes up to 8191, accuracy at most
3, at most three warping points, displacements below `2^14` in magnitude.

Every signed `int` expression of the resolver fits, so the model never reaches
undefined behaviour; it either takes the `overflow` exit with zeroed offsets and
deltas, or stores `int64_t` values that all fit in `int`. When the result is not a
single translation, the second guard bounds the four corners of the warped
macroblock grid, and with them every position `get_amv` visits.

Owns: the bounds of each stage (exponent loops, reference points, virtual points,
the four warping cases, the collapse, the guards) and the run of `get_amv` on a
stored trajectory.

Does not own: the model of either function.
-/

namespace Librempeg.Avcodec.Mpeg4Video

open Librempeg.Avutil

/-! ## The exponent loops -/

theorem shiftUntilCovers_eq (bound : Int) (boundSmall : bound ≤ 2 ^ 30) :
    ∀ (fuel exponent : Nat), exponent ≤ 30 → 30 < exponent + fuel →
      ∃ final, shiftUntilCovers bound fuel exponent = some final ∧ exponent ≤ final ∧
        final ≤ 30 ∧ bound ≤ 2 ^ final ∧ (final = exponent ∨ 2 ^ (final - 1) < bound)
  | 0, _, _, enough => absurd enough (by omega)
  | fuel + 1, exponent, small, enough => by
      have power : (2 : Int) ^ exponent ≤ 2 ^ 30 := pow_le_pow_right₀ (by norm_num) small
      have powerPos : (0 : Int) < 2 ^ exponent := by positivity
      have powerFits : InIntRange (2 ^ exponent) := inRange_of_bounds (by omega) (by omega)
      simp only [shiftUntilCovers, intOp_of_inRange powerFits,
        Option.bind_eq_bind, Option.some_bind]
      split
      case isTrue below =>
        have below30 : exponent < 30 := by
          by_contra atLimit
          have : exponent = 30 := by omega
          subst this; omega
        obtain ⟨final, run, ge, le, covers, last⟩ :=
          shiftUntilCovers_eq bound boundSmall fuel (exponent + 1) (by omega) (by omega)
        refine ⟨final, run, by omega, le, covers, .inr ?_⟩
        rcases last with rfl | last
        · simpa using below
        · exact last
      case isFalse covers => exact ⟨exponent, rfl, le_rfl, small, by omega, .inl rfl⟩

/-- What the exponent loops establish: `w2 = 2^alpha` and `h2 = 2^beta` are the least
powers covering the picture (`alpha` at least 1), at most `2^13`. -/
structure CoveringExponents (w h : Int) (alpha beta : Nat) : Prop where
  alphaPos : 1 ≤ alpha
  alphaLe : alpha ≤ 13
  betaLe : beta ≤ 13
  widthLe : w ≤ 2 ^ alpha
  widthDouble : 2 ^ alpha ≤ 2 * w
  heightLe : h ≤ 2 ^ beta
  heightDouble : 2 ^ beta ≤ 2 * h

theorem exponent_le_thirteen {bound : Int} {start final : Nat} (boundLe : bound ≤ 8191)
    (last : final = start ∨ 2 ^ (final - 1) < bound) (startLe : start ≤ 1) : final ≤ 13 := by
  rcases last with rfl | below
  · exact startLe.trans (by norm_num)
  · by_contra large
    have : (2 : Int) ^ 13 ≤ 2 ^ (final - 1) := pow_le_pow_right₀ (by norm_num) (by omega)
    omega

theorem power_le_double {bound : Int} {start final : Nat} (boundPos : 1 ≤ bound)
    (last : final = start ∨ 2 ^ (final - 1) < bound) (startLe : start ≤ 1) :
    (2 : Int) ^ final ≤ 2 * bound := by
  rcases last with rfl | below
  · interval_cases final <;> omega
  · rcases Nat.eq_zero_or_pos final with rfl | positive
    · omega
    · rw [show final = final - 1 + 1 by omega, pow_succ]; omega

theorem warpingExponents_eq {w h : Int} (width : 1 ≤ w ∧ w ≤ 8191) (height : 1 ≤ h ∧ h ≤ 8191) :
    ∃ alpha beta, warpingExponents w h = some (alpha, beta, 2 ^ alpha, 2 ^ beta) ∧
      CoveringExponents w h alpha beta := by
  obtain ⟨alpha, alphaRun, alphaGe, alphaLe, widthLe, alphaLast⟩ :=
    shiftUntilCovers_eq w (by omega) 32 1 (by omega) (by omega)
  obtain ⟨beta, betaRun, -, betaLe, heightLe, betaLast⟩ :=
    shiftUntilCovers_eq h (by omega) 32 0 (by omega) (by omega)
  have alphaSmall := exponent_le_thirteen width.2 alphaLast le_rfl
  have betaSmall := exponent_le_thirteen height.2 betaLast (by omega)
  have alphaPower : (2 : Int) ^ alpha ≤ 2 ^ 13 := pow_le_pow_right₀ (by norm_num) alphaSmall
  have betaPower : (2 : Int) ^ beta ≤ 2 ^ 13 := pow_le_pow_right₀ (by norm_num) betaSmall
  refine ⟨alpha, beta, ?_, alphaGe, alphaSmall, betaSmall, widthLe,
    power_le_double width.1 alphaLast le_rfl, heightLe, power_le_double height.1 betaLast (by omega)⟩
  simp only [warpingExponents, alphaRun, betaRun, Option.bind_eq_bind, Option.some_bind]
  apply afterIntOps_of_forall
  simp only [List.mem_cons, List.mem_singleton, List.not_mem_nil, or_false, forall_eq_or_imp,
    forall_eq]
  have alphaPos : (0 : Int) < 2 ^ alpha := by positivity
  have betaPos : (0 : Int) < 2 ^ beta := by positivity
  exact ⟨inRange_of_bounds (by omega) (by omega), inRange_of_bounds (by omega) (by omega)⟩

/-! ## The reference points -/

theorem resolver_constants {accuracy : Nat} (accuracyLe : accuracy ≤ 3) :
    (16 : Int).tdiv (2 * 2 ^ accuracy) = 2 ^ (3 - accuracy) ∧
      (2 * 2 ^ accuracy : Int) >>> (1 : Nat) = 2 ^ accuracy := by
  interval_cases accuracy <;> decide

theorem scale_mul_half {accuracy : Nat} (accuracyLe : accuracy ≤ 3) :
    (2 : Int) ^ (3 - accuracy) * 2 ^ accuracy = 8 := by
  rw [← pow_add, Nat.sub_add_cancel accuracyLe]; norm_num

theorem sum_abs_le_of_short {displacements : List Int} (short : displacements.length ≤ 2)
    (small : ∀ x ∈ displacements, |x| < 2 ^ 14) : |displacements.sum| ≤ 2 * (2 ^ 14 - 1) := by
  match displacements, short with
  | [], _ => simp
  | [x], _ => have := small x (by simp); simp; rw [abs_lt] at this; rw [abs_le]; omega
  | [x, y], _ =>
      have hx := small x (by simp)
      have hy := small y (by simp)
      simp only [List.sum_cons, List.sum_nil, add_zero]
      rw [abs_lt] at hx hy; rw [abs_le]; omega

theorem spriteRefValue_scaled (quirk : Bool) {accuracy : Nat} (accuracyLe : accuracy ≤ 3)
    (vop : Int) (displacements : List Int) :
    |2 ^ (3 - accuracy) * spriteRefValue quirk (2 * 2 ^ accuracy) vop displacements - 16 * vop|
      ≤ 8 * |displacements.sum| := by
  have eight := scale_mul_half accuracyLe
  have rLe : (2 : Int) ^ (3 - accuracy) ≤ 8 := by
    calc (2 : Int) ^ (3 - accuracy) ≤ 2 ^ 3 := pow_le_pow_right₀ (by norm_num) (by omega)
      _ = 8 := by norm_num
  cases quirk
  · simp only [spriteRefValue, Bool.false_eq_true, ↓reduceIte, (resolver_constants accuracyLe).2]
    rw [← mul_assoc, eight, show 8 * (2 * vop + displacements.sum) - 16 * vop =
      8 * displacements.sum by ring, abs_mul]
    norm_num
  · simp only [spriteRefValue, ↓reduceIte]
    rw [show 2 ^ (3 - accuracy) * (2 * 2 ^ accuracy * vop + displacements.sum) - 16 * vop =
      2 ^ (3 - accuracy) * displacements.sum by linear_combination (2 * vop) * eight, abs_mul,
      abs_of_pos (by positivity)]
    exact mul_le_mul_of_nonneg_right rLe (abs_nonneg _)

theorem partialSums_abs_le {bound : Int} : ∀ (base : Int) (terms : List Int),
    (∀ term ∈ terms, |term| ≤ bound) →
      ∀ runningSum ∈ partialSums base terms, |runningSum| ≤ |base| + terms.length * bound
  | _, [], _ => by simp [partialSums]
  | base, term :: rest, small => by
      have head := small term (by simp)
      have tail := partialSums_abs_le (base + term) rest fun x member => small x (by simp [member])
      have grow : |base + term| ≤ |base| + bound := (abs_add _ _).trans (by linarith)
      simp only [partialSums, List.mem_cons, List.length_cons]
      rintro runningSum (rfl | member)
      · push_cast; nlinarith [abs_nonneg term]
      · have := tail runningSum member; push_cast; linarith

theorem spriteRefValue_abs_lt (quirk : Bool) {accuracy : Nat} (accuracyLe : accuracy ≤ 3)
    {vop : Int} (vopSmall : |vop| ≤ 8191) {displacements : List Int}
    (sumSmall : |displacements.sum| ≤ 2 * (2 ^ 14 - 1)) :
    |spriteRefValue quirk (2 * 2 ^ accuracy) vop displacements| < 2 ^ 19 := by
  have unit : (2 : Int) ^ accuracy ≤ 8 :=
    (pow_le_pow_right₀ (by norm_num) accuracyLe).trans (by norm_num)
  have unitPos : (0 : Int) < 2 ^ accuracy := by positivity
  cases quirk
  · simp only [spriteRefValue, Bool.false_eq_true, ↓reduceIte, (resolver_constants accuracyLe).2]
    have inner : |2 * vop + displacements.sum| ≤ 2 * 8191 + 2 * (2 ^ 14 - 1) := by
      rw [abs_le] at vopSmall sumSmall ⊢; omega
    have := abs_mul_le_of_le (abs_of_pos unitPos ▸ unit) inner
    linarith
  · simp only [spriteRefValue, ↓reduceIte]
    have product := abs_mul_le_of_le (show |2 * 2 ^ accuracy| ≤ (16 : Int) by
      rw [abs_of_pos (by positivity)]; omega) vopSmall
    have := abs_add (2 * 2 ^ accuracy * vop) displacements.sum
    linarith

theorem spriteRefOps_inRange (quirk : Bool) {accuracy : Nat} (accuracyLe : accuracy ≤ 3)
    {vop : Int} (vopSmall : |vop| ≤ 8191) {displacements : List Int}
    (short : displacements.length ≤ 2) (small : ∀ x ∈ displacements, |x| < 2 ^ 14) :
    ∀ op ∈ spriteRefOps quirk (2 * 2 ^ accuracy) vop displacements, InIntRange op := by
  have sumSmall := sum_abs_le_of_short short small
  have value := spriteRefValue_abs_lt quirk accuracyLe vopSmall sumSmall
  have fits : ∀ x : Int, |x| < 2 ^ 31 → InIntRange x := fun x => inRange_of_abs_lt
  have small' : ∀ x ∈ displacements, |x| ≤ 2 ^ 14 - 1 := fun x member =>
    Int.le_sub_one_of_lt (small x member)
  cases quirk
  · have start : |2 * vop| ≤ 2 * 8191 := by rw [abs_le] at vopSmall ⊢; omega
    have running := partialSums_abs_le (2 * vop) displacements small'
    simp only [spriteRefOps, Bool.false_eq_true, ↓reduceIte, List.mem_cons, List.mem_append,
      List.not_mem_nil, or_false]
    rintro op ((rfl | running') | rfl)
    · exact fits _ (by linarith)
    · have := running op running'
      exact fits _ (by nlinarith)
    · exact fits _ (by linarith)
  · have start := abs_mul_le_of_le (show |2 * 2 ^ accuracy| ≤ (16 : Int) by
      rw [abs_of_pos (by positivity)]
      have : (2 : Int) ^ accuracy ≤ 8 :=
        (pow_le_pow_right₀ (by norm_num) accuracyLe).trans (by norm_num)
      omega) vopSmall
    have running := partialSums_abs_le (2 * 2 ^ accuracy * vop) displacements small'
    simp only [spriteRefOps, ↓reduceIte, List.mem_cons]
    rintro op (rfl | running')
    · exact fits _ (by linarith)
    · have := running op running'
      exact fits _ (by nlinarith)

theorem vopRef_abs_le {w h : Int} (width : 1 ≤ w ∧ w ≤ 8191) (height : 1 ≤ h ∧ h ≤ 8191)
    (i : Fin 4) (j : Fin 2) : |vopRef w h i j| ≤ 8191 := by
  rw [abs_le]
  fin_cases i <;> fin_cases j <;> simp [vopRef, Matrix.vecHead, Matrix.vecTail] <;> omega

theorem refDisplacements_short (d : Fin 4 → Fin 2 → Int) (i : Fin 3) (j : Fin 2) :
    (refDisplacements d i j).length ≤ 2 := by
  unfold refDisplacements; split <;> simp

theorem refDisplacements_small {d : Fin 4 → Fin 2 → Int} (small : ∀ i j, |d i j| < 2 ^ 14)
    (i : Fin 3) (j : Fin 2) : ∀ x ∈ refDisplacements d i j, |x| < 2 ^ 14 := by
  unfold refDisplacements
  split <;> intro x member <;> simp only [List.mem_cons, List.not_mem_nil, or_false] at member <;>
    rcases member with rfl | rfl <;> exact small _ _

/-- What the reference points satisfy: scaled by `r` they are `16 * vop_ref` up to
`2^18`, and each fits in 19 bits. -/
structure RefBounds (r w h : Int) (ref : Fin 3 → Fin 2 → Int) : Prop where
  scaled : ∀ i j, |r * ref i j - 16 * vopRef w h i.castSucc j| ≤ 2 ^ 18
  small : ∀ i j, |ref i j| < 2 ^ 19

theorem spriteRefs_eq (quirk : Bool) {accuracy : Nat} (accuracyLe : accuracy ≤ 3) {w h : Int}
    (width : 1 ≤ w ∧ w ≤ 8191) (height : 1 ≤ h ∧ h ≤ 8191) {d : Fin 4 → Fin 2 → Int}
    (small : ∀ i j, |d i j| < 2 ^ 14) :
    ∃ ref, spriteRefs quirk (2 * 2 ^ accuracy) (vopRef w h) d = some ref ∧
      RefBounds (2 ^ (3 - accuracy)) w h ref := by
  refine ⟨_, afterIntOps_of_forall _ ?_, fun i j => ?_, fun i j => ?_⟩
  · simp only [List.mem_flatMap]
    rintro op ⟨i, -, j, -, member⟩
    exact spriteRefOps_inRange quirk accuracyLe (vopRef_abs_le width height i j)
      (refDisplacements_short d _ j) (refDisplacements_small small _ j) op member
  · exact (spriteRefValue_scaled quirk accuracyLe _ _).trans (by
      have := sum_abs_le_of_short (refDisplacements_short d i j) (refDisplacements_small small i j)
      linarith)
  · exact spriteRefValue_abs_lt quirk accuracyLe (vopRef_abs_le width height _ j)
      (sum_abs_le_of_short (refDisplacements_short d i j) (refDisplacements_small small i j))

/-! ## The virtual reference points -/

theorem virtualRefValue_sub_abs_le {base len len2 r s0 v0 s1 v1 : Int} (lenPos : 0 < len)
    (lenLe : len ≤ len2) (double : len2 ≤ 2 * len) (first : |r * s0 - 16 * v0| ≤ 2 ^ 18)
    (second : |r * s1 - 16 * v1| ≤ 2 ^ 18) (baseSmall : |base| ≤ 2 ^ 18) :
    |virtualRefValue base len len2 r s0 v0 s1 v1 - base| ≤ 3 * 2 ^ 18 := by
  have weight0 := abs_mul_le_of_le (show |len - len2| ≤ len by rw [abs_le]; omega) first
  have weight1 := abs_mul_le_of_le (show |len2| ≤ 2 * len by rw [abs_le]; omega) second
  have quotient : |roundedDiv ((len - len2) * (r * s0 - 16 * v0) + len2 * (r * s1 - 16 * v1))
      len| ≤ 3 * 2 ^ 18 := roundedDiv_abs_le lenPos ((abs_add _ _).trans (by linarith))
  have sumFits := inRange_of_abs_lt ((abs_add base _).trans_lt (by linarith [quotient]))
  rw [virtualRefValue, toInt_of_inRange sumFits, add_sub_cancel_left]
  exact quotient

/-- What the virtual reference points satisfy: each lies within `3 · 2^18` of its
ideal position, `16 * w2` and `16 * h2` on the diagonal and 0 off it. -/
structure VirtualBounds (w2 h2 : Int) (virt : Table2) : Prop where
  corner00 : |virt 0 0 - 16 * w2| ≤ 3 * 2 ^ 18
  corner01 : |virt 0 1| ≤ 3 * 2 ^ 18
  corner10 : |virt 1 0| ≤ 3 * 2 ^ 18
  corner11 : |virt 1 1 - 16 * h2| ≤ 3 * 2 ^ 18

theorem virtualRefs_eq {w h r : Int} (width : 1 ≤ w ∧ w ≤ 8191) (height : 1 ≤ h ∧ h ≤ 8191)
    {alpha beta : Nat} (exponents : CoveringExponents w h alpha beta)
    {ref : Fin 3 → Fin 2 → Int} (refs : RefBounds r w h ref) :
    ∃ virt, virtualRefs w h (2 ^ alpha) (2 ^ beta) r (vopRef w h) ref = some virt ∧
      VirtualBounds (2 ^ alpha) (2 ^ beta) virt := by
  have wLe := exponents.widthLe
  have wDouble := exponents.widthDouble
  have hLe := exponents.heightLe
  have hDouble := exponents.heightDouble
  have s00 : |r * ref 0 0 - 16 * 0| ≤ 2 ^ 18 := refs.scaled 0 0
  have s01 : |r * ref 0 1 - 16 * 0| ≤ 2 ^ 18 := refs.scaled 0 1
  have s10 : |r * ref 1 0 - 16 * w| ≤ 2 ^ 18 := refs.scaled 1 0
  have s11 : |r * ref 1 1 - 16 * 0| ≤ 2 ^ 18 := refs.scaled 1 1
  have s20 : |r * ref 2 0 - 16 * 0| ≤ 2 ^ 18 := refs.scaled 2 0
  have s21 : |r * ref 2 1 - 16 * h| ≤ 2 ^ 18 := refs.scaled 2 1
  refine ⟨_, afterIntOps_of_forall _ ?_, ?_, ?_, ?_, ?_⟩
  · simp only [vopRef_zero, List.mem_cons, List.not_mem_nil, or_false, forall_eq_or_imp, forall_eq,
      InIntRange, intMin, intMax]
    rw [abs_le] at s00 s01 s10 s11 s20 s21
    omega
  all_goals simp only [Matrix.cons_val_zero, Matrix.cons_val_one, Matrix.head_cons, vopRef_zero,
    vopRef_one_zero, vopRef_one_one, vopRef_two_zero, vopRef_two_one, zero_add, mul_zero]
  · exact virtualRefValue_sub_abs_le (by omega) wLe wDouble s00 s10 (by rw [abs_le]; omega)
  · simpa using virtualRefValue_sub_abs_le (by omega) wLe wDouble s01 s11
      (show |(0 : Int)| ≤ 2 ^ 18 by simp)
  · simpa using virtualRefValue_sub_abs_le (by omega) hLe hDouble s00 s20
      (show |(0 : Int)| ≤ 2 ^ 18 by simp)
  · exact virtualRefValue_sub_abs_le (by omega) hLe hDouble s01 s21 (by rw [abs_le]; omega)

/-! ## The warping cases -/

/-- What a warping case leaves for the collapse and the guards: the luma shift in
`0..16`, the chroma shift in `0..18`, and offsets that fit in `int` once a pure
scaling by `a` is shifted back. -/
structure RawWarp.Sound (a : Int) (raw : RawWarp) : Prop where
  lumaShift : 0 ≤ raw.shift 0 ∧ raw.shift 0 ≤ 16
  chromaShift : 0 ≤ raw.shift 1 ∧ raw.shift 1 ≤ 18
  collapse : raw.delta 0 0 = a * 2 ^ (raw.shift 0).toNat ∧ raw.delta 0 1 = 0 ∧
    raw.delta 1 0 = 0 ∧ raw.delta 1 1 = a * 2 ^ (raw.shift 0).toNat →
    ∀ i j, InIntRange (raw.offset i j >>> (raw.shift i).toNat)

theorem noPointWarp_sound (a : Int) :
    RawWarp.Sound a ⟨fun _ _ => 0, diagonal a, ![0, 0]⟩ :=
  ⟨by simp, by simp, fun _ i j => by fin_cases i <;> simp <;> decide⟩

theorem onePointWarp_eq (a : Int) {w h : Int}
    {ref : Fin 3 → Fin 2 → Int} (refSmall : ∀ i j, |ref i j| < 2 ^ 19) :
    ∃ raw, onePointWarp a (vopRef w h) ref = some raw ∧ raw.Sound a := by
  have half0 := halfKeepOdd_sub_shift (ref 0 0)
  have half1 := halfKeepOdd_sub_shift (ref 0 1)
  have r00 := refSmall 0 0
  have r01 := refSmall 0 1
  rw [abs_lt] at r00 r01
  rw [shiftRight_eq_ediv] at half0 half1
  refine ⟨_, afterIntOps_of_forall _ ?_, by simp, by simp, fun _ i j => ?_⟩
  · simp only [vopRef_zero, mul_zero, sub_zero, Int.zero_tdiv, List.mem_cons, List.not_mem_nil,
      or_false, forall_eq_or_imp, forall_eq, InIntRange, intMin, intMax]
    omega
  · fin_cases i <;> fin_cases j <;>
      simp only [vopRef_zero, mul_zero, sub_zero, Int.zero_tdiv, Fin.zero_eta, Fin.mk_one,
        Matrix.cons_val_zero, Matrix.cons_val_one, Matrix.head_cons, Int.toNat_zero,
        shiftRight_eq_ediv, pow_zero, Int.ediv_one, InIntRange, intMin, intMax] <;> omega

theorem shiftRight_mul_pow_add_half (x : Int) {shift : Nat} (shiftPos : 1 ≤ shift) :
    (x * 2 ^ shift + 2 ^ (shift - 1)) >>> shift = x := by
  have halfLt : (2 : Int) ^ (shift - 1) < 2 ^ shift := pow_lt_pow_right₀ (by norm_num) (by omega)
  rw [shiftRight_eq_ediv, add_comm, Int.add_mul_ediv_right _ _ (by positivity),
    Int.ediv_eq_zero_of_lt (by positivity) halfLt, zero_add]

theorem shiftRight_pow_mul (x : Int) (shift : Nat) :
    (2 ^ (shift + 1) * x) >>> (shift + 2) = x >>> (1 : Nat) := by
  rw [shiftRight_eq_ediv, shiftRight_eq_ediv, show (2 : Int) ^ (shift + 2) = 2 ^ (shift + 1) * 2 ^ 1
    by rw [← pow_add], Int.mul_ediv_mul_of_pos _ _ (by positivity)]

theorem collapsed_inRange {x : Int} (small : |x| < 2 ^ 19) {shift : Nat} (shiftPos : 1 ≤ shift) :
    InIntRange ((x * 2 ^ shift + 2 ^ (shift - 1)) >>> shift) ∧
      InIntRange ((2 ^ (shift + 1) * (x + 1)) >>> (shift + 2)) := by
  rw [shiftRight_mul_pow_add_half x shiftPos, shiftRight_pow_mul, shiftRight_eq_ediv]
  rw [abs_lt] at small
  exact ⟨inRange_of_bounds (by omega) (by omega), inRange_of_bounds (by omega) (by omega)⟩

theorem twoPointWarp_eq {accuracy : Nat} (accuracyLe : accuracy ≤ 3) {w h : Int}
    {alpha beta : Nat} (exponents : CoveringExponents w h alpha beta)
    {ref : Fin 3 → Fin 2 → Int} (refs : RefBounds (2 ^ (3 - accuracy)) w h ref) {virt : Table2}
    (virts : VirtualBounds (2 ^ alpha) (2 ^ beta) virt) :
    ∃ raw, twoPointWarp (2 ^ (3 - accuracy)) (2 ^ alpha) alpha (3 - accuracy) (vopRef w h) ref
      virt = some raw ∧ raw.Sound (2 * 2 ^ accuracy) := by
  have alphaLe := exponents.alphaLe
  have alphaPos := exponents.alphaPos
  have scale : (2 : Int) ^ (alpha + (3 - accuracy)) ≤ 2 ^ 16 :=
    pow_le_pow_right₀ (by norm_num) (by omega)
  have half : (2 : Int) ^ (alpha + (3 - accuracy) - 1) ≤ 2 ^ 15 :=
    pow_le_pow_right₀ (by norm_num) (by omega)
  have chroma : (2 : Int) ^ (alpha + (3 - accuracy) + 1) ≤ 2 ^ 17 :=
    pow_le_pow_right₀ (by norm_num) (by omega)
  have width2 : (2 : Int) ^ alpha ≤ 2 ^ 13 := pow_le_pow_right₀ (by norm_num) alphaLe
  have unit : (2 : Int) ^ (3 - accuracy) ≤ 2 ^ 3 := pow_le_pow_right₀ (by norm_num) (by omega)
  have unitPos : (0 : Int) < 2 ^ (3 - accuracy) := by positivity
  have width2Pos : (0 : Int) < 2 ^ alpha := by positivity
  have halfPos : (0 : Int) < 2 ^ (alpha + (3 - accuracy) - 1) := by positivity
  have scalePos : (0 : Int) < 2 ^ (alpha + (3 - accuracy)) := by positivity
  have chromaPos : (0 : Int) < 2 ^ (alpha + (3 - accuracy) + 1) := by positivity
  have product : 2 * 2 ^ alpha * 2 ^ (3 - accuracy) = (2 : Int) ^ (alpha + (3 - accuracy) + 1) := by
    ring
  have scaledA : 2 * 2 ^ accuracy * 2 ^ (alpha + (3 - accuracy)) = 16 * (2 : Int) ^ alpha := by
    rw [show 2 * 2 ^ accuracy * (2 : Int) ^ (alpha + (3 - accuracy)) =
      2 ^ (accuracy + (3 - accuracy) + 1) * 2 ^ alpha by ring, Nat.add_sub_cancel' accuracyLe]
    norm_num
  have s00 : |2 ^ (3 - accuracy) * ref 0 0 - 16 * 0| ≤ 2 ^ 18 := refs.scaled 0 0
  have s01 : |2 ^ (3 - accuracy) * ref 0 1 - 16 * 0| ≤ 2 ^ 18 := refs.scaled 0 1
  have v00 := virts.corner00
  have v01 := virts.corner01
  rw [abs_le] at s00 s01 v00 v01
  refine ⟨_, afterIntOps_of_forall _ ?_,
    ⟨by simp only [Nat.cast_add, Nat.cast_ofNat, Matrix.cons_val_zero]; omega,
      by simp only [Nat.cast_add, Nat.cast_ofNat, Matrix.cons_val_zero]; omega⟩,
    ⟨by simp only [Nat.cast_add, Nat.cast_ofNat, Matrix.cons_val_one, Matrix.head_cons]; omega,
      by simp only [Nat.cast_add, Nat.cast_ofNat, Matrix.cons_val_one, Matrix.head_cons]; omega⟩, ?_⟩
  · simp only [vopRef_zero, neg_zero, neg_mul, product, List.mem_cons, List.not_mem_nil, or_false,
      forall_eq_or_imp, forall_eq, InIntRange, intMin, intMax]
    omega
  · rintro ⟨e00, e01, e10, e11⟩ i j
    simp only [Matrix.cons_val_zero, Matrix.cons_val_one, Matrix.head_cons, Int.toNat_natCast,
      scaledA] at e00 e01 e10 e11
    have sPos : 1 ≤ alpha + (3 - accuracy) := by omega
    fin_cases i <;> fin_cases j <;>
      simp only [neg_mul, vopRef_zero, neg_zero, mul_zero, add_zero, zero_add, mul_one, Fin.zero_eta,
        Fin.mk_one, Matrix.cons_val', Matrix.cons_val_zero, Matrix.cons_val_one, Matrix.head_cons,
        Matrix.empty_val', Matrix.cons_val_fin_one, Matrix.head_fin_const]
    · exact (collapsed_inRange (refs.small 0 0) sPos).1
    · exact (collapsed_inRange (refs.small 0 1) sPos).1
    · convert (collapsed_inRange (refs.small 0 0) sPos).2 using 2
      linear_combination e00 + e01 + ref 0 0 * product
    · convert (collapsed_inRange (refs.small 0 1) sPos).2 using 2
      linear_combination e00 + e10 + ref 0 1 * product

theorem pow_shiftRight_eq {exponent bits : Nat} (bitsLe : bits ≤ exponent) :
    (2 : Int) ^ exponent >>> bits = 2 ^ (exponent - bits) := by
  rw [shiftRight_eq_ediv, show (2 : Int) ^ exponent = 2 ^ (exponent - bits) * 2 ^ bits by
    rw [← pow_add, Nat.sub_add_cancel bitsLe], Int.mul_ediv_cancel _ (by positivity)]

theorem threePointWarp_eq {accuracy : Nat} (accuracyLe : accuracy ≤ 3) {w h : Int}
    {alpha beta : Nat} (exponents : CoveringExponents w h alpha beta)
    {ref : Fin 3 → Fin 2 → Int} (refs : RefBounds (2 ^ (3 - accuracy)) w h ref) {virt : Table2} :
    ∃ raw, threePointWarp (2 ^ (3 - accuracy)) (2 ^ alpha) (2 ^ beta) alpha beta (3 - accuracy)
      (vopRef w h) ref virt = some raw ∧ raw.Sound (2 * 2 ^ accuracy) := by
  have alphaLe := exponents.alphaLe
  have alphaPos := exponents.alphaPos
  have betaLe := exponents.betaLe
  have minLeft := min_le_left alpha beta
  have minRight := min_le_right alpha beta
  have minChoice := min_choice alpha beta
  have width3 := pow_shiftRight_eq minLeft
  have height3 := pow_shiftRight_eq minRight
  have scale : (2 : Int) ^ (alpha + beta + (3 - accuracy) - min alpha beta) ≤ 2 ^ 16 :=
    pow_le_pow_right₀ (by norm_num) (by omega)
  have scalePos : (0 : Int) < 2 ^ (alpha + beta + (3 - accuracy) - min alpha beta) := by positivity
  have unitPos : (0 : Int) < 2 ^ (3 - accuracy) := by positivity
  have unit : (2 : Int) ^ (3 - accuracy) ≤ 2 ^ 3 := pow_le_pow_right₀ (by norm_num) (by omega)
  have width2 : (2 : Int) ^ alpha ≤ 2 ^ 13 := pow_le_pow_right₀ (by norm_num) alphaLe
  have width2Pos : (0 : Int) < 2 ^ alpha := by positivity
  have area : 2 ^ alpha * 2 ^ (beta - min alpha beta) = (2 : Int) ^ (alpha + beta - min alpha beta) := by
    rw [← pow_add]; congr 1; omega
  have areaLe : (2 : Int) ^ (alpha + beta - min alpha beta) ≤ 2 ^ 13 :=
    pow_le_pow_right₀ (by norm_num) (by omega)
  have areaPos : (0 : Int) < 2 ^ (alpha + beta - min alpha beta) := by positivity
  have product : 2 * 2 ^ alpha * 2 ^ (beta - min alpha beta) * 2 ^ (3 - accuracy) =
      (2 : Int) ^ (alpha + beta + (3 - accuracy) - min alpha beta + 1) := by
    rw [show alpha + beta + (3 - accuracy) - min alpha beta + 1 =
      alpha + (beta - min alpha beta) + (3 - accuracy) + 1 by omega]
    ring
  have scaledA : 2 * 2 ^ accuracy * 2 ^ (alpha + beta + (3 - accuracy) - min alpha beta) =
      16 * 2 ^ alpha * (2 : Int) ^ (beta - min alpha beta) := by
    rw [show alpha + beta + (3 - accuracy) - min alpha beta =
      alpha + (beta - min alpha beta) + (3 - accuracy) by omega, pow_add, pow_add]
    linear_combination (2 * 2 ^ alpha * 2 ^ (beta - min alpha beta)) * scale_mul_half accuracyLe
  refine ⟨_, afterIntOps_of_forall _ ?_,
    ⟨by simp only [Nat.cast_add, Nat.cast_ofNat, Matrix.cons_val_zero, Nat.cast_nonneg],
      by simp only [Nat.cast_add, Nat.cast_ofNat, Matrix.cons_val_zero]; omega⟩,
    ⟨by simp only [Nat.cast_add, Nat.cast_ofNat, Matrix.cons_val_one, Matrix.head_cons]; positivity,
      by simp only [Nat.cast_add, Nat.cast_ofNat, Matrix.cons_val_one, Matrix.head_cons]; omega⟩, ?_⟩
  · simp only [vopRef_zero, neg_zero, mul_zero, zero_add, width3, height3, List.mem_cons,
      List.not_mem_nil, or_false, forall_eq_or_imp, forall_eq, InIntRange, intMin, intMax]
    rw [mul_assoc, area]
    omega
  · rintro ⟨e00, e01, e10, e11⟩ i j
    simp only [Matrix.cons_val_zero, Matrix.cons_val_one, Matrix.head_cons, Int.toNat_natCast,
      width3, height3, scaledA] at e00 e01 e10 e11
    have sPos : 1 ≤ alpha + beta + (3 - accuracy) - min alpha beta := by omega
    fin_cases i <;> fin_cases j <;>
      simp only [width3, height3, neg_mul, vopRef_zero, neg_zero, mul_zero, add_zero, zero_add,
        mul_one, Fin.zero_eta, Fin.mk_one, Matrix.cons_val', Matrix.cons_val_zero, Matrix.cons_val_one, Matrix.head_cons,
        Matrix.empty_val', Matrix.cons_val_fin_one, Matrix.head_fin_const]
    · exact (collapsed_inRange (refs.small 0 0) sPos).1
    · exact (collapsed_inRange (refs.small 0 1) sPos).1
    · convert (collapsed_inRange (refs.small 0 0) sPos).2 using 2
      linear_combination e00 + e01 + ref 0 0 * product
    · convert (collapsed_inRange (refs.small 0 1) sPos).2 using 2
      linear_combination e10 + e11 + ref 0 1 * product

/-! ## The collapse and the guards -/

theorem inRange_of_not_tooLargeFor {shift : Nat} {value : Int}
    (fits : tooLargeFor shift value = false) : InIntRange (value * 2 ^ shift) := by
  have powerPos : (0 : Int) < 2 ^ shift := by positivity
  have bound : |value| + 1 ≤ intMax / 2 ^ shift := by
    simpa [tooLargeFor, shiftRight_eq_ediv, Int.lt_iff_add_one_le] using fits
  have scaled : (|value| + 1) * 2 ^ shift ≤ intMax :=
    (mul_le_mul_of_nonneg_right bound powerPos.le).trans (Int.ediv_mul_le _ powerPos.ne')
  have magnitude : |value * 2 ^ shift| < 2 ^ 31 := by
    rw [abs_mul, abs_of_pos powerPos]
    simp only [intMax] at scaled
    linarith
  exact inRange_of_abs_lt magnitude

/-- What the resolver guarantees of its outcome when it does not overflow: every
`int64_t` offset and delta fits in `int`, and a result other than a single translation
has both shifts 16 and passed the second guard. -/
def WarpOutcome.Fits (a w h : Int) : WarpOutcome → Prop
  | .overflow _ => True
  | .resolved offset delta shift realPoints =>
      (∀ i j, InIntRange (offset i j) ∧ InIntRange (delta i j)) ∧
        (realPoints ≠ 1 → shift = ![16, 16] ∧ ∀ i, secondGuardFails a w h offset delta i = false)

theorem guardAndScale_fits (points : Nat) (a w h : Int) {raw : RawWarp}
    (luma : 0 ≤ raw.shift 0 ∧ raw.shift 0 ≤ 16) (chroma : 0 ≤ raw.shift 1 ∧ raw.shift 1 ≤ 18) :
    ∃ outcome, guardAndScale points a w h raw = some outcome ∧ outcome.Fits a w h := by
  have fitsY : InIntRange (16 - raw.shift 0) := inRange_of_bounds (by omega) (by omega)
  have fitsC : InIntRange (16 - raw.shift 1) := inRange_of_bounds (by omega) (by omega)
  unfold guardAndScale
  simp only [intOp_of_inRange fitsY, intOp_of_inRange fitsC, Option.bind_eq_bind,
    Option.some_bind]
  split
  · exact ⟨_, rfl, trivial⟩
  case isFalse passed =>
    simp only [firstGuardFails, Bool.or_eq_true, decide_eq_true_eq, not_or, Bool.not_eq_true]
      at passed
    obtain ⟨⟨⟨⟨⟨⟨chromaFits, lumaFits⟩, o00⟩, o10⟩, d00⟩, d10⟩, ⟨⟨⟨-, o01⟩, o11⟩, d01⟩, d11⟩ := passed
    have unitY := pow_inRange (show (16 - raw.shift 0).toNat ≤ 30 by omega)
    have unitC := pow_inRange (show (16 - raw.shift 1).toNat ≤ 30 by omega)
    simp only [intOp_of_inRange unitY, intOp_of_inRange unitC, Option.bind_eq_bind,
      Option.some_bind, pure_bind]
    split
    · exact ⟨_, rfl, trivial⟩
    case isFalse secondPassed =>
      simp only [Bool.or_eq_true, not_or, Bool.not_eq_true] at secondPassed
      refine ⟨_, rfl, fun i j => ⟨?_, ?_⟩, fun _ => ⟨rfl, fun i => ?_⟩⟩
      · fin_cases i <;> fin_cases j
        · exact inRange_of_not_tooLargeFor o00
        · exact inRange_of_not_tooLargeFor o01
        · exact inRange_of_not_tooLargeFor o10
        · exact inRange_of_not_tooLargeFor o11
      · fin_cases i <;> fin_cases j
        · exact inRange_of_not_tooLargeFor d00
        · exact inRange_of_not_tooLargeFor d01
        · exact inRange_of_not_tooLargeFor d10
        · exact inRange_of_not_tooLargeFor d11
      · fin_cases i
        · exact secondPassed.1
        · exact secondPassed.2

theorem simplifyOrGuard_fits (points : Nat) {a : Int} (aPos : 0 < a) (aLe : a ≤ 16) (w h : Int)
    {raw : RawWarp} (sound : raw.Sound a) :
    ∃ outcome, simplifyOrGuard points a w h raw = some outcome ∧ outcome.Fits a w h := by
  have luma := sound.lumaShift
  have unit : (2 : Int) ^ (raw.shift 0).toNat ≤ 2 ^ 16 :=
    pow_le_pow_right₀ (by norm_num) (by omega)
  have unitPos : (0 : Int) < 2 ^ (raw.shift 0).toNat := by positivity
  have scaled : InIntRange (a * 2 ^ (raw.shift 0).toNat) :=
    inRange_of_bounds (by nlinarith) (by nlinarith)
  unfold simplifyOrGuard
  simp only [intOp_of_inRange scaled, Option.bind_eq_bind, Option.some_bind]
  split
  case isTrue diagonalDelta =>
    refine ⟨_, rfl, fun i j => ⟨?_, ?_⟩, fun notOne => absurd rfl notOne⟩
    · have collapsed := sound.collapse diagonalDelta i j
      fin_cases i <;> fin_cases j <;> exact collapsed
    · fin_cases i <;> fin_cases j <;> simp [diagonal, InIntRange, intMin, intMax] <;> omega
  case isFalse => exact guardAndScale_fits points a w h sound.lumaShift sound.chromaShift

theorem warpCase_eq {accuracy : Nat} (accuracyLe : accuracy ≤ 3) {points : Nat}
    (pointsLe : points ≤ 3) {w h : Int} {alpha beta : Nat}
    (exponents : CoveringExponents w h alpha beta) {ref : Fin 3 → Fin 2 → Int}
    (refs : RefBounds (2 ^ (3 - accuracy)) w h ref) {virt : Table2}
    (virts : VirtualBounds (2 ^ alpha) (2 ^ beta) virt) :
    ∃ raw, warpCase points (2 * 2 ^ accuracy) (2 ^ (3 - accuracy)) (2 ^ alpha) (2 ^ beta) alpha
      beta (3 - accuracy) (vopRef w h) ref virt = some raw ∧ raw.Sound (2 * 2 ^ accuracy) := by
  match points, pointsLe with
  | 0, _ => exact ⟨_, rfl, noPointWarp_sound _⟩
  | 1, _ => exact onePointWarp_eq _ refs.small
  | 2, _ => exact twoPointWarp_eq accuracyLe exponents refs virts
  | 3, _ => exact threePointWarp_eq accuracyLe exponents refs

/-! ## The whole resolver -/

/-- **The resolver never overflows.** Past the size check it computes every stage
without signed overflow and ends in a fitting outcome. -/
theorem resolveSpriteWarp_fits (quirk : Bool) {accuracy : Nat} (accuracyLe : accuracy ≤ 3)
    {points : Nat} (pointsLe : points ≤ 3) {w h : Int} (width : 1 ≤ w ∧ w ≤ 8191)
    (height : 1 ≤ h ∧ h ≤ 8191) {d : Fin 4 → Fin 2 → Int} (small : ∀ i j, |d i j| < 2 ^ 14) :
    ∃ outcome, resolveSpriteWarp points quirk (2 * 2 ^ accuracy) ((3 : Int) - accuracy)
      ((16 : Int).tdiv (2 * 2 ^ accuracy)) w h d = some outcome ∧
      outcome.Fits (2 * 2 ^ accuracy) w h := by
  obtain ⟨alpha, beta, exponentsRun, exponents⟩ := warpingExponents_eq width height
  obtain ⟨ref, refsRun, refs⟩ := spriteRefs_eq quirk accuracyLe width height small
  obtain ⟨virt, virtRun, virts⟩ := virtualRefs_eq width height exponents refs
  obtain ⟨raw, rawRun, sound⟩ := warpCase_eq accuracyLe pointsLe exponents refs virts
  have aPos : (0 : Int) < 2 * 2 ^ accuracy := by positivity
  have aLe : (2 : Int) * 2 ^ accuracy ≤ 16 := by
    have : (2 : Int) ^ accuracy ≤ 2 ^ 3 := pow_le_pow_right₀ (by norm_num) accuracyLe
    omega
  obtain ⟨outcome, outcomeRun, fits⟩ := simplifyOrGuard_fits points aPos aLe w h sound
  have rho : ((3 : Int) - accuracy).toNat = 3 - accuracy := by omega
  refine ⟨outcome, ?_, fits⟩
  simp only [resolveSpriteWarp, (resolver_constants accuracyLe).1, exponentsRun, refsRun, virtRun,
    rho, rawRun, outcomeRun, Option.bind_eq_bind, Option.some_bind]

theorem trajectoryOf_small {points : Nat} {decoded : Fin 4 → Fin 2 → Int}
    (small : ∀ i j, |decoded i j| < 2 ^ 14) (i : Fin 4) (j : Fin 2) :
    |trajectoryOf points decoded i j| < 2 ^ 14 := by
  unfold trajectoryOf
  split
  · exact small i j
  · simp

/-- The inputs a VOL and VOP header can give the resolver: a picture of 13-bit sizes, a
2-bit accuracy, at most three warping points and displacements read by `get_xbits` of
at most 14 bits. -/
structure TrajectoryInput (ctx : GmcContext) (decoded : Fin 4 → Fin 2 → Int) : Prop where
  width : 1 ≤ ctx.width ∧ ctx.width ≤ 8191
  height : 1 ≤ ctx.height ∧ ctx.height ≤ 8191
  accuracy : ctx.spriteWarpingAccuracy ≤ 3
  points : ctx.numSpriteWarpingPoints ≤ 3
  displacements : ∀ i j, |decoded i j| < 2 ^ 14

/-- How the resolver ends on such an input: the `overflow` exit with zeroed offsets and
deltas, or success with each `int64_t` local stored unchanged and, past a single
translation, shifts 16 and an exact `get_amv` on every macroblock of the picture. -/
def TrajectoryResult (ctx : GmcContext) (decoded : Fin 4 → Fin 2 → Int) (code : Int)
    (stored : GmcContext) : Prop :=
  (code = averrorPatchWelcome ∧ ∀ i j, stored.spriteOffset i j = 0 ∧ stored.spriteDelta i j = 0) ∨
    (code = 0 ∧ ∃ shift realPoints, ctx.spriteWarp decoded =
        some (.resolved stored.spriteOffset stored.spriteDelta shift realPoints) ∧
      (stored.realSpriteWarpingPoints ≠ 1 → stored.spriteShift = ![16, 16] ∧
        ∀ (pic : AmvPicture) (n : Fin 2), pic.Within ctx.width ctx.height → AmvExact stored pic n))

/-- **`mpeg4_decode_sprite_trajectory` is free of overflow.** On every input a header
can describe it evaluates all of its `int` expressions without overflow, stores exact
values, and leaves `get_amv` exact on every macroblock. -/
theorem mpeg4DecodeSpriteTrajectory_fits (ctx : GmcContext) (decoded : Fin 4 → Fin 2 → Int)
    (input : TrajectoryInput ctx decoded) :
    ∃ code stored, mpeg4DecodeSpriteTrajectory ctx decoded = some (code, stored) ∧
      TrajectoryResult ctx decoded code stored := by
  obtain ⟨width, height, accuracy, points, displacements⟩ := input
  obtain ⟨outcome, warp, fits⟩ := resolveSpriteWarp_fits ctx.divx500Build413 accuracy points
    width height (trajectoryOf_small displacements)
  replace warp : ctx.spriteWarp decoded = some outcome := warp
  rw [mpeg4DecodeSpriteTrajectory_eq ctx decoded accuracy (by omega) (by omega), warp,
    Option.map_some']
  cases outcome with
  | overflow shift => exact ⟨_, _, rfl, .inl ⟨rfl, fun _ _ => ⟨rfl, rfl⟩⟩⟩
  | resolved offset delta shift realPoints =>
    obtain ⟨inRange, guarded⟩ := fits
    have storedOffset : (fun i j => toInt (offset i j)) = offset :=
      funext₂ fun i j => toInt_of_inRange (inRange i j).1
    have storedDelta : (fun i j => toInt (delta i j)) = delta :=
      funext₂ fun i j => toInt_of_inRange (inRange i j).2
    refine ⟨_, _, rfl, .inr ⟨rfl, shift, realPoints, ?_, fun real => ?_⟩⟩
    · simpa only [storeSpriteWarp, storedOffset, storedDelta] using warp
    · obtain ⟨shiftSixteen, passed⟩ := guarded real
      refine ⟨shiftSixteen, fun pic n within => ?_⟩
      refine amvExact_of_guard _ pic n accuracy width.1 height.1 real shiftSixteen
        (toInt_inRange _) ?_ within
      simpa only [storedOffset, storedDelta] using passed n

/-- A 176×144 picture with two warping points at accuracy 3. -/
def twoPointContext : GmcContext :=
  ⟨176, 144, 3, 2, -1, -1, 0, fun _ _ => 0, fun _ _ => 0, fun _ => 0, fun _ _ => 0⟩

/-- A two-point trajectory. -/
def twoPointTrajectory : Fin 4 → Fin 2 → Int := ![![3, -2], ![5, 7], ![0, 0], ![0, 0]]

theorem mpeg4DecodeSpriteTrajectory_fits_twoPoint :
    TrajectoryInput twoPointContext twoPointTrajectory ∧
      ∃ code stored, mpeg4DecodeSpriteTrajectory twoPointContext twoPointTrajectory =
        some (code, stored) ∧ TrajectoryResult twoPointContext twoPointTrajectory code stored :=
  have input : TrajectoryInput twoPointContext twoPointTrajectory :=
    ⟨by decide, by decide, by decide, by decide, by decide⟩
  ⟨input, mpeg4DecodeSpriteTrajectory_fits twoPointContext twoPointTrajectory input⟩

end Librempeg.Avcodec.Mpeg4Video
