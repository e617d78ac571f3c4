import Mathlib.Data.Finset.Lattice.Fold
import Mathlib.Algebra.Order.Group.Abs
import Mathlib.Tactic.Linarith

/-!
Contract: `ff_clean_h263_qscales` (libavcodec/ituh263enc.c), which makes a picture's
quantiser table encodable in H.263, where a macroblock can change the quantiser by at most
2 (`dquant_code[dquant + 2]`): a forward pass lowers each entry to at most 2 above its
predecessor in coding order, a backward pass to at most 2 above its successor; outside
H.263+ an `INTER4V` candidate whose quantiser changed is also made an `INTER` candidate.

The table is `cur_pic.qscale_table`, indexed by `mb_xy` and read in coding order through
`mb_index2xy`. Its entries are `int8_t`; a pass writes only a value strictly below the entry
it replaces and at least 2 above another entry, so every write fits and the entries are
exact integers here. `CANDIDATE_MB_TYPE_INTER4V` and `CANDIDATE_MB_TYPE_INTER`
(libavcodec/mpegvideoenc.h, not in this tree) are the masks `inter4v` and `inter`.

Owns: the two passes and the `mb_type` loop; the coding-order view of the table and the
frame lemma for writes through an injective `mb_index2xy`; the local equations each pass
leaves; the closed form `min_j (q_j + 2 * |i - j|)` and what follows from it.

Does not own: the encoder that reads `dquant` (libavcodec/mpegvideo_enc.c).
-/

namespace Librempeg.Avcodec.Ituh263Enc

/-- `dquant_code`: the 2-bit code of a quantiser change `dquant` in `[-2, 2]`, at
`dquant + 2`. -/
def dquantCode : List Nat := [1, 0, 9, 2, 3]

/-- One round of the forward loop: `if (q[xy(i)] - q[xy(i-1)] > 2) q[xy(i)] = q[xy(i-1)] + 2`. -/
def forwardStep (index2xy : Nat → Nat) (i : Nat) (table : Nat → Int) : Nat → Int :=
  if table (index2xy i) - table (index2xy (i - 1)) > 2 then
    Function.update table (index2xy i) (table (index2xy (i - 1)) + 2)
  else table

/-- `for (i = 1; i < mb_num; i++)`, up to `i = last`. -/
def forwardLoop (index2xy : Nat → Nat) (table : Nat → Int) : Nat → Nat → Int
  | 0 => table
  | last + 1 => forwardStep index2xy (last + 1) (forwardLoop index2xy table last)

/-- One round of the backward loop: `if (q[xy(i)] - q[xy(i+1)] > 2) q[xy(i)] = q[xy(i+1)] + 2`. -/
def backwardStep (index2xy : Nat → Nat) (i : Nat) (table : Nat → Int) : Nat → Int :=
  if table (index2xy i) - table (index2xy (i + 1)) > 2 then
    Function.update table (index2xy i) (table (index2xy (i + 1)) + 2)
  else table

/-- `for (i = mb_num - 2; i >= 0; i--)`: `backwardLoop count` runs `i = count - 1` down
to 0. -/
def backwardLoop (index2xy : Nat → Nat) : Nat → (Nat → Int) → Nat → Int
  | 0, table => table
  | count + 1, table => backwardLoop index2xy count (backwardStep index2xy count table)

/-- The outside-H.263+ loop: `if (q[mb_xy] != q[xy(i-1)] && (mb_type[mb_xy] & INTER4V))
mb_type[mb_xy] |= INTER`, for `i = 1, ..., count`. -/
def markInter4v (inter4v inter : Nat) (index2xy : Nat → Nat) (table : Nat → Int)
    (mbType : Nat → Nat) : Nat → Nat → Nat
  | 0 => mbType
  | count + 1 =>
      let mbType := markInter4v inter4v inter index2xy table mbType count
      let mbXy := index2xy (count + 1)
      if table mbXy ≠ table (index2xy count) ∧ mbType mbXy &&& inter4v ≠ 0 then
        Function.update mbType mbXy (mbType mbXy ||| inter)
      else mbType

/-- `ff_clean_h263_qscales(s)`: the cleaned quantiser table and `mb_type`. -/
def cleanH263Qscales (h263p : Bool) (inter4v inter : Nat) (mbNum : Nat) (index2xy : Nat → Nat)
    (table : Nat → Int) (mbType : Nat → Nat) : (Nat → Int) × (Nat → Nat) :=
  let table := backwardLoop index2xy (mbNum - 1) (forwardLoop index2xy table (mbNum - 1))
  (table, if h263p then mbType else markInter4v inter4v inter index2xy table mbType (mbNum - 1))

/-! ### The table in coding order -/

section CodingOrder

variable {index2xy : Nat → Nat} {mbNum : Nat}

/-- `mb_index2xy` is injective on the coded macroblocks. -/
def InjectiveBelow (index2xy : Nat → Nat) (mbNum : Nat) : Prop :=
  ∀ i < mbNum, ∀ j < mbNum, index2xy i = index2xy j → i = j

theorem update_index2xy (injective : InjectiveBelow index2xy mbNum) (table : Nat → Int)
    {i k : Nat} (iBelow : i < mbNum) (kBelow : k < mbNum) (value : Int) :
    Function.update table (index2xy i) value (index2xy k) = if k = i then value else table (index2xy k) := by
  by_cases same : k = i
  · subst same; simp
  · rw [if_neg same, Function.update_noteq]
    exact fun collide => same (injective k kBelow i iBelow collide)

/-- `min (q_i, f_{i-1} + 2)` from the left: what the forward pass leaves in coding order. -/
def forwardMin (q : Nat → Int) : Nat → Int
  | 0 => q 0
  | i + 1 => min (q (i + 1)) (forwardMin q i + 2)

theorem forwardLoop_view (injective : InjectiveBelow index2xy mbNum) (table : Nat → Int) :
    ∀ last, last < mbNum → ∀ k < mbNum,
      forwardLoop index2xy table last (index2xy k) =
        if k ≤ last then forwardMin (fun j => table (index2xy j)) k else table (index2xy k)
  | 0, _, k, _ => by
    by_cases zero : k = 0
    · subst zero; rfl
    · simp [forwardLoop, zero]
  | last + 1, below, k, kBelow => by
    have earlier := forwardLoop_view injective table last (by omega)
    have atPrevious := earlier last (by omega)
    have atLast := earlier (last + 1) below
    simp only [le_refl, if_true, show ¬last + 1 ≤ last by omega, if_false] at atPrevious atLast
    simp only [forwardLoop, forwardStep, Nat.add_sub_cancel, atPrevious, atLast]
    split
    · rw [update_index2xy injective _ below kBelow, earlier k kBelow]
      by_cases same : k = last + 1
      · subst same; simp [forwardMin]; omega
      · simp only [same, if_false]
        split <;> split <;> first | rfl | omega
    · rw [earlier k kBelow]
      by_cases same : k = last + 1
      · subst same; simp [forwardMin]; omega
      · split <;> split <;> first | rfl | omega

/-- What the backward pass has settled from `first` on, over the forward pass's view `f`:
the last coded entry is `f`'s, every entry from `first` on is `min (f_k, r_{k+1} + 2)`,
and the entries before `first` are still `f`'s. -/
structure BackwardSettled (f : Nat → Int) (mbNum first : Nat) (r : Nat → Int) : Prop where
  before : ∀ k < first, r k = f k
  last : first ≤ mbNum - 1 → r (mbNum - 1) = f (mbNum - 1)
  settled : ∀ k, first ≤ k → k + 1 < mbNum → r k = min (f k) (r (k + 1) + 2)

theorem backwardStep_settled (injective : InjectiveBelow index2xy mbNum) {f : Nat → Int}
    {table : Nat → Int} {first : Nat} (below : first + 1 < mbNum)
    (settled : BackwardSettled f mbNum (first + 1) fun k => table (index2xy k)) :
    BackwardSettled f mbNum first fun k => backwardStep index2xy first table (index2xy k) := by
  have atFirst := settled.before first (by omega)
  have frame : ∀ k < mbNum, k ≠ first →
      backwardStep index2xy first table (index2xy k) = table (index2xy k) := by
    intro k kBelow other
    unfold backwardStep
    split
    · rw [update_index2xy injective _ (by omega) kBelow, if_neg other]
    · rfl
  have stepped : backwardStep index2xy first table (index2xy first) =
      min (f first) (table (index2xy (first + 1)) + 2) := by
    unfold backwardStep
    split
    · rw [update_index2xy injective _ (by omega) (by omega), if_pos rfl]; omega
    · omega
  refine ⟨fun k kBelow => ?_, fun _ => ?_, fun k atLeast kBelow => ?_⟩
  · rw [frame k (by omega) (by omega)]; exact settled.before k (by omega)
  · rw [frame _ (by omega) (by omega)]; exact settled.last (by omega)
  · rw [frame (k + 1) kBelow (by omega)]
    by_cases same : k = first
    · subst same; exact stepped
    · rw [frame k (by omega) same]; exact settled.settled k (by omega) kBelow

theorem backwardLoop_settled (injective : InjectiveBelow index2xy mbNum) {f : Nat → Int} :
    ∀ (count : Nat) (table : Nat → Int), count < mbNum →
      BackwardSettled f mbNum count (fun k => table (index2xy k)) →
        BackwardSettled f mbNum 0 fun k => backwardLoop index2xy count table (index2xy k)
  | 0, _, _, settled => settled
  | count + 1, table, below, settled =>
    backwardLoop_settled injective count _ (by omega) (backwardStep_settled injective below settled)

end CodingOrder

/-! ### The closed form -/

/-- `q_j + 2 * |i - j|`: the bound entry `j` puts on entry `i`. -/
def spread (q : Nat → Int) (i j : Nat) : Int := q j + 2 * |(i : Int) - j|

/-- `min_j (q_j + 2 * |i - j|)` over the `mbNum` coded macroblocks. -/
def minSpread (q : Nat → Int) (mbNum : Nat) (coded : 0 < mbNum) (i : Nat) : Int :=
  (Finset.range mbNum).inf' ⟨0, Finset.mem_range.mpr coded⟩ (spread q i)

section ClosedForm

variable {q f r : Nat → Int} {mbNum : Nat}

theorem forwardMin_le (i : Nat) : ∀ j ≤ i, forwardMin q i ≤ q j + 2 * ((i : Int) - j) := by
  induction i with
  | zero => intro j atMost; obtain rfl : j = 0 := by omega
            simp [forwardMin]
  | succ i ih =>
    intro j atMost
    by_cases same : j = i + 1
    · subst same; simp [forwardMin]
    · have := ih j (by omega)
      have := min_le_right (q (i + 1)) (forwardMin q i + 2)
      simp only [forwardMin]; push_cast; omega

theorem forwardMin_attained (i : Nat) : ∃ j ≤ i, forwardMin q i = q j + 2 * ((i : Int) - j) := by
  induction i with
  | zero => exact ⟨0, le_rfl, by simp [forwardMin]⟩
  | succ i ih =>
    obtain ⟨j, atMost, reached⟩ := ih
    simp only [forwardMin]
    rcases min_choice (q (i + 1)) (forwardMin q i + 2) with fromHere | fromLeft
    · exact ⟨i + 1, le_rfl, by rw [fromHere]; simp⟩
    · exact ⟨j, by omega, by rw [fromLeft, reached]; push_cast; omega⟩

theorem backward_le (settled : BackwardSettled f mbNum 0 r) :
    ∀ d i, i + d < mbNum → r i ≤ f (i + d) + 2 * (d : Int)
  | 0, i, below => by
    by_cases lastOne : i + 1 < mbNum
    · rw [settled.settled i (Nat.zero_le _) lastOne]; simp
    · obtain rfl : i = mbNum - 1 := by omega
      rw [settled.last (Nat.zero_le _)]; simp
  | d + 1, i, below => by
    have step := settled.settled i (Nat.zero_le _) (by omega)
    have later := backward_le settled d (i + 1) (by omega)
    have := min_le_right (f i) (r (i + 1) + 2)
    rw [show i + 1 + d = i + (d + 1) by omega] at later
    push_cast; omega

theorem backward_attained (settled : BackwardSettled f mbNum 0 r) :
    ∀ d i, i + d + 1 = mbNum → ∃ k, i ≤ k ∧ k < mbNum ∧ r i = f k + 2 * ((k : Int) - i)
  | 0, i, last => ⟨i, le_rfl, by omega, by
      rw [show i = mbNum - 1 by omega, settled.last (Nat.zero_le _)]; simp⟩
  | d + 1, i, below => by
    rw [settled.settled i (Nat.zero_le _) (by omega)]
    rcases min_choice (f i) (r (i + 1) + 2) with fromHere | fromRight
    · exact ⟨i, le_rfl, by omega, by rw [fromHere]; simp⟩
    · obtain ⟨k, atLeast, kBelow, reached⟩ := backward_attained settled d (i + 1) (by omega)
      exact ⟨k, by omega, kBelow, by rw [fromRight, reached]; push_cast; omega⟩

/-- **The two passes leave `min_j (q_j + 2 * |i - j|)`.** Every entry is below each
bound `q_j + 2 * |i - j|`, and it reaches one of them. -/
theorem backward_eq_minSpread (settled : BackwardSettled (forwardMin q) mbNum 0 r)
    (coded : 0 < mbNum) {i : Nat} (iBelow : i < mbNum) : r i = minSpread q mbNum coded i := by
  apply le_antisymm
  · refine (Finset.le_inf'_iff _ _).mpr fun j member => ?_
    have jBelow := Finset.mem_range.mp member
    unfold spread
    rcases le_total j i with left | right
    · have toSelf := backward_le settled 0 i (by omega)
      have fromLeft := forwardMin_le (q := q) i j left
      rw [abs_of_nonneg (by omega)]
      simp only [Nat.add_zero, Nat.cast_zero, mul_zero, add_zero] at toSelf
      omega
    · have toRight := backward_le settled (j - i) i (by omega)
      have atRight := forwardMin_le (q := q) j j le_rfl
      rw [abs_of_nonpos (by omega), show i + (j - i) = j by omega] at *
      push_cast [right] at toRight
      omega
  · obtain ⟨k, atLeast, kBelow, reached⟩ := backward_attained settled (mbNum - 1 - i) i (by omega)
    obtain ⟨j, atMost, fromJ⟩ := forwardMin_attained (q := q) k
    calc minSpread q mbNum coded i ≤ spread q i j := Finset.inf'_le _ (Finset.mem_range.mpr (by omega))
      _ ≤ r i := by
        unfold spread
        rw [reached, fromJ]
        rcases le_total j i with left | right
        · rw [abs_of_nonneg (by omega)]; omega
        · rw [abs_of_nonpos (by omega)]; omega

theorem minSpread_le_self (coded : 0 < mbNum) {i : Nat} (iBelow : i < mbNum) :
    minSpread q mbNum coded i ≤ q i :=
  calc minSpread q mbNum coded i ≤ spread q i i := Finset.inf'_le _ (Finset.mem_range.mpr iBelow)
    _ = q i := by simp [spread]

theorem minSpread_le_add (coded : 0 < mbNum) (i k : Nat) :
    minSpread q mbNum coded i ≤ minSpread q mbNum coded k + 2 * |(i : Int) - k| := by
  obtain ⟨j, member, reached⟩ := Finset.exists_mem_eq_inf' ⟨0, Finset.mem_range.mpr coded⟩ (spread q k)
  have atJ := Finset.inf'_le (spread q i) member
  have triangle := abs_sub_le (i : Int) k j
  unfold minSpread at *
  rw [reached]
  unfold spread at *
  omega

theorem le_add_of_steps {t : Nat → Int} (steps : ∀ i, i + 1 < mbNum → |t (i + 1) - t i| ≤ 2) :
    ∀ d i, i + d < mbNum → t i ≤ t (i + d) + 2 * (d : Int) ∧ t (i + d) ≤ t i + 2 * (d : Int)
  | 0, i, _ => by simp
  | d + 1, i, below => by
    have near := abs_sub_le_iff.mp (steps (i + d) (by omega))
    have far := le_add_of_steps steps d i (by omega)
    rw [show i + (d + 1) = i + d + 1 by omega]
    push_cast; omega

/-- **The closed form is the largest table below `q` with steps of at most 2.** -/
theorem le_minSpread (coded : 0 < mbNum) {t : Nat → Int} (below : ∀ i < mbNum, t i ≤ q i)
    (steps : ∀ i, i + 1 < mbNum → |t (i + 1) - t i| ≤ 2) {i : Nat} (iBelow : i < mbNum) :
    t i ≤ minSpread q mbNum coded i := by
  refine (Finset.le_inf'_iff _ _).mpr fun j member => ?_
  have jBelow := Finset.mem_range.mp member
  unfold spread
  rcases le_total i j with left | right
  · have near := (le_add_of_steps steps (j - i) i (by omega)).1
    rw [show i + (j - i) = j by omega] at near
    rw [abs_of_nonpos (by omega)]
    have := below j jBelow
    push_cast [left] at near; omega
  · have near := (le_add_of_steps steps (i - j) j (by omega)).2
    rw [show j + (i - j) = i by omega] at near
    rw [abs_of_nonneg (by omega)]
    have := below j jBelow
    push_cast [right] at near; omega

end ClosedForm

/-! ### `ff_clean_h263_qscales` -/

theorem cleaned_eq_minSpread {index2xy : Nat → Nat} {mbNum : Nat}
    (injective : InjectiveBelow index2xy mbNum) (coded : 0 < mbNum) (table : Nat → Int) {i : Nat}
    (iBelow : i < mbNum) :
    backwardLoop index2xy (mbNum - 1) (forwardLoop index2xy table (mbNum - 1)) (index2xy i) =
      minSpread (fun j => table (index2xy j)) mbNum coded i := by
  have forward := forwardLoop_view injective table (mbNum - 1) (by omega)
  have start : BackwardSettled (forwardMin fun j => table (index2xy j)) mbNum (mbNum - 1)
      fun k => forwardLoop index2xy table (mbNum - 1) (index2xy k) :=
    ⟨fun k kBelow => by rw [forward k (by omega), if_pos (by omega)],
      fun _ => by rw [forward _ (by omega), if_pos le_rfl], fun k _ _ => by omega⟩
  exact backward_eq_minSpread (backwardLoop_settled injective _ _ (by omega) start) coded iBelow

/-- **`ff_clean_h263_qscales` leaves the largest encodable table below the original.**
For any number of coded macroblocks and any `mb_index2xy` injective on them, every entry
of the cleaned table, in coding order, is `min_j (q_j + 2 * |i - j|)` over the original
entries; so neighbours differ by at most 2 and index `dquant_code`, no entry grows, and
every table with both properties lies below it. -/
theorem cleanH263Qscales_minSpread (h263p : Bool) (inter4v inter mbNum : Nat) (coded : 0 < mbNum)
    (index2xy : Nat → Nat) (injective : InjectiveBelow index2xy mbNum) (table : Nat → Int)
    (mbType : Nat → Nat) :
    let cleaned := (cleanH263Qscales h263p inter4v inter mbNum index2xy table mbType).1
    let q := fun j => table (index2xy j)
    (∀ i < mbNum, cleaned (index2xy i) = minSpread q mbNum coded i) ∧
      (∀ i, i + 1 < mbNum → |cleaned (index2xy (i + 1)) - cleaned (index2xy i)| ≤ 2 ∧
        (cleaned (index2xy (i + 1)) - cleaned (index2xy i) + 2).toNat < dquantCode.length) ∧
      (∀ i < mbNum, cleaned (index2xy i) ≤ q i) ∧
      ∀ t : Nat → Int, (∀ i < mbNum, t i ≤ q i) →
        (∀ i, i + 1 < mbNum → |t (i + 1) - t i| ≤ 2) → ∀ i < mbNum, t i ≤ cleaned (index2xy i) := by
  intro cleaned q
  have closed : ∀ i < mbNum, cleaned (index2xy i) = minSpread q mbNum coded i :=
    fun i iBelow => cleaned_eq_minSpread injective coded table iBelow
  refine ⟨closed, fun i below => ?_, fun i iBelow => ?_, fun t atMost steps i iBelow => ?_⟩
  · have up := minSpread_le_add (q := q) coded i (i + 1)
    have down := minSpread_le_add (q := q) coded (i + 1) i
    rw [abs_of_nonpos (by omega)] at up
    rw [abs_of_nonneg (by omega)] at down
    push_cast at up down
    rw [closed i (by omega), closed (i + 1) below]
    have bounded : |minSpread q mbNum coded (i + 1) - minSpread q mbNum coded i| ≤ 2 :=
      abs_sub_le_iff.mpr ⟨by omega, by omega⟩
    refine ⟨bounded, ?_⟩
    have := abs_le.mp bounded
    simp only [dquantCode, List.length_cons, List.length_nil]
    omega
  · rw [closed i iBelow]; exact minSpread_le_self coded iBelow
  · rw [closed i iBelow]; exact le_minSpread coded atMost steps iBelow

theorem cleanH263Qscales_minSpread_three :
    InjectiveBelow id 3 ∧ ∀ i < 3,
      (cleanH263Qscales false 0 0 3 id (fun i => [31, 1, 31].getD i 0) fun _ => 0).1 (id i) =
        minSpread (fun j => [31, 1, 31].getD (id j) 0) 3 (by decide) i :=
  ⟨fun _ _ _ _ same => same,
    (cleanH263Qscales_minSpread false 0 0 3 (by decide) id (fun _ _ _ _ same => same)
      (fun i => [31, 1, 31].getD i 0) fun _ => 0).1⟩

example : (cleanH263Qscales false 0 0 3 id (fun i => [31, 1, 31].getD i 0) fun _ => 0).1 0 = 3 := by
  decide

end Librempeg.Avcodec.Ituh263Enc
