import Librempeg.Avutil.Common
import Librempeg.Avcodec.Mpeg4Video.DcPrediction

/-!
Contract: `ff_mpeg4_pred_ac` (libavcodec/mpeg4videodec.c), the AC prediction of an intra
block: under `ac_pred` the first column (from the left neighbour) or the first row (from
the top neighbour) of coefficients gains the neighbour's, rescaled to the current qscale
when the neighbour's macroblock has another one; then the block's own first column and
row are stored for the blocks after it.

The `ac_val` array has the layout of `dc_val` (`block_index`, `block_wrap` of
libavcodec/mpegvideo.c, not in this tree), sixteen entries per block: an entry is named by
its `DcSlot` and its place in the slot. `idct_permutation` (libavcodec/idctdsp.c, not in
this tree) is a permutation of the 64 positions, and `qscale_table` enters as the qscale
of the macroblock at a position.

Owns: the prediction and store loops, and their closed form (`ffMpeg4PredAc_eq_spec`):
each neighbour coefficient is rescaled from the qscale of the macroblock it belongs to,
the same-qscale branch being the case where that rescaling is the identity; and that
inside a macroblock a block predicts from exactly the coefficients its neighbour stored
(`ffMpeg4PredAc_inside_macroblock`).

Does not own: the choice of the direction (`mpeg4_pred_dc`), the `ac_pred` flag, the
clearing of `ac_val` for skipped and inter macroblocks.
-/

namespace Librempeg.Avcodec.Mpeg4Video

open Librempeg.Avutil

/-- What `ff_mpeg4_pred_ac` reads of the decoder context. -/
structure AcPredContext where
  acPred : Bool
  mbX : Nat
  mbY : Nat
  qscale : Int
  /-- `cur_pic.qscale_table[x + y * mb_stride]`: the qscale of the macroblock at `(x, y)`. -/
  qscaleTable : Int → Int → Int
  /-- `idsp.idct_permutation`: where the coefficient of each natural position is stored. -/
  idctPermutation : Equiv.Perm (Fin 64)

/-- An `ac_val` array: sixteen entries per block. -/
abbrev AcVal := DcSlot → Fin 16 → Int

/-- `block[idct_permutation[i << 3]] += add(i)` for `i` from 1 to 7 (`pos i = i << 3`), or
`block[idct_permutation[i]] += add(i)` (`pos i = i`): each sum stored in an `int16_t`. -/
def addAlong (perm : Equiv.Perm (Fin 64)) (pos : Nat → Fin 64) (add : Nat → Int)
    (block : Fin 64 → Int) : Fin 64 → Int :=
  (List.range' 1 7).foldl (fun block i =>
    Function.update block (perm (pos i)) (toInt16 (block (perm (pos i)) + add i))) block

/-- `ac_val1[offset + i] = block[idct_permutation[pos i]]` for `i` from 1 to 7. -/
def copyAlong (perm : Equiv.Perm (Fin 64)) (pos : Nat → Fin 64) (offset : Nat)
    (block : Fin 64 → Int) (row : Fin 16 → Int) : Fin 16 → Int :=
  (List.range' 1 7).foldl (fun row i =>
    Function.update row (Fin.ofNat' 16 (offset + i)) (block (perm (pos i)))) row

/-- `i << 3`: the natural position of row `i` of the first column. -/
def leftPos (i : Nat) : Fin 64 := Fin.ofNat' 64 (i <<< 3)

/-- `i`: the natural position of column `i` of the first row. -/
def topPos (i : Nat) : Fin 64 := Fin.ofNat' 64 i

/-- The prediction part of `ff_mpeg4_pred_ac(s, block, n, dir)`: the block after it. -/
def acPredicted (ctx : AcPredContext) (acVal : AcVal) (block : Fin 64 → Int) (n : Fin 6)
    (dir : Int) : Fin 64 → Int :=
  let slot := dcSlot ctx.mbX ctx.mbY n
  let perm := ctx.idctPermutation
  if ctx.acPred then
    if dir = 0 then
      let q := ctx.qscaleTable ((ctx.mbX : Int) - 1) ctx.mbY
      let acValLeft := acVal (slot.shift (-1) 0)
      if ctx.mbX = 0 ∨ ctx.qscale = q ∨ n = 1 ∨ n = 3 then
        addAlong perm leftPos (fun i => acValLeft (Fin.ofNat' 16 i)) block
      else
        addAlong perm leftPos
          (fun i => roundedDiv (acValLeft (Fin.ofNat' 16 i) * q) ctx.qscale) block
    else
      let q := ctx.qscaleTable ctx.mbX ((ctx.mbY : Int) - 1)
      let acValTop := acVal (slot.shift 0 (-1))
      if ctx.mbY = 0 ∨ ctx.qscale = q ∨ n = 2 ∨ n = 3 then
        addAlong perm topPos (fun i => acValTop (Fin.ofNat' 16 (i + 8))) block
      else
        addAlong perm topPos
          (fun i => roundedDiv (acValTop (Fin.ofNat' 16 (i + 8)) * q) ctx.qscale) block
  else block

/-- `ff_mpeg4_pred_ac(s, block, n, dir)`: the block and the `ac_val` array after it. -/
def ffMpeg4PredAc (ctx : AcPredContext) (acVal : AcVal) (block : Fin 64 → Int) (n : Fin 6)
    (dir : Int) : (Fin 64 → Int) × AcVal :=
  let slot := dcSlot ctx.mbX ctx.mbY n
  let perm := ctx.idctPermutation
  let block := acPredicted ctx acVal block n dir
  let row := copyAlong perm leftPos 0 block (acVal slot)
  let row := copyAlong perm topPos 8 block row
  (block, Function.update acVal slot row)

/-! ### The plain statement -/

/-- The natural position of the coefficient that entry `k` of an `ac_val` slot holds:
entries 1 to 7 the first column, 9 to 15 the first row. -/
def acEntryPos (k : Fin 16) : Fin 64 :=
  if small : k.val < 8 then ⟨8 * k.val, by omega⟩ else ⟨k.val - 8, by omega⟩

/-- The qscale a neighbour's coefficients were quantised with: that of the macroblock
owning its slot, the current one inside the macroblock and on the border. -/
def AcPredContext.ownerQscale (ctx : AcPredContext) (slot : DcSlot) : Int :=
  match slot.owner with
  | some (x, y) => if x = ctx.mbX ∧ y = ctx.mbY then ctx.qscale else ctx.qscaleTable x y
  | none => ctx.qscale

/-- The slot a block predicts from: the left neighbour's for `dir = 0`, else the top one's. -/
def predSource (slot : DcSlot) (dir : Int) : DcSlot :=
  if dir = 0 then slot.shift (-1) 0 else slot.shift 0 (-1)

/-- AC prediction as it is meant: under `ac_pred`, each coefficient of the first column
(`dir = 0`) or of the first row gains the neighbour's stored one, rescaled from the qscale
it was quantised with to the current one; the slot of the block then holds its first
column and row. -/
def predAcSpec (ctx : AcPredContext) (acVal : AcVal) (block : Fin 64 → Int) (n : Fin 6)
    (dir : Int) : (Fin 64 → Int) × AcVal :=
  let slot := dcSlot ctx.mbX ctx.mbY n
  let source := predSource slot dir
  let rescaled (k : Nat) : Int :=
    roundedDiv (acVal source (Fin.ofNat' 16 k) * ctx.ownerQscale source) ctx.qscale
  let predicted : Fin 64 → Int := fun j =>
    let p := ctx.idctPermutation.symm j
    if ctx.acPred ∧ dir = 0 ∧ p.val % 8 = 0 ∧ p.val ≠ 0 then toInt16 (block j + rescaled (p.val / 8))
    else if ctx.acPred ∧ dir ≠ 0 ∧ p.val < 8 ∧ p.val ≠ 0 then
      toInt16 (block j + rescaled (p.val + 8))
    else block j
  (predicted, Function.update acVal slot fun k =>
    if k.val % 8 = 0 then acVal slot k else predicted (ctx.idctPermutation (acEntryPos k)))

/-! ### The loops -/

section Loops

variable {α β : Type} [DecidableEq α] (l : List Nat) (pos : Nat → α) (f : Nat → β → β)

theorem foldl_update_of_forall_ne (g : α → β) {j : α} (away : ∀ i ∈ l, pos i ≠ j) :
    (l.foldl (fun g i => Function.update g (pos i) (f i (g (pos i)))) g) j = g j := by
  induction l generalizing g with
  | nil => rfl
  | cons i l ih =>
    rw [List.foldl_cons, ih _ fun k mem => away k (.tail _ mem),
      Function.update_noteq (away i (.head _)).symm]

theorem foldl_update_at (nodup : l.Nodup) (inj : ∀ i ∈ l, ∀ k ∈ l, pos i = pos k → i = k)
    (g : α → β) {i : Nat} (mem : i ∈ l) :
    (l.foldl (fun g i => Function.update g (pos i) (f i (g (pos i)))) g) (pos i) =
      f i (g (pos i)) := by
  induction l generalizing g with
  | nil => cases mem
  | cons k l ih =>
    obtain ⟨notMem, nodup⟩ := List.nodup_cons.1 nodup
    rw [List.foldl_cons]
    by_cases same : i = k
    · subst same
      rw [foldl_update_of_forall_ne _ _ _ _ fun k mem eq =>
          notMem (inj k (.tail _ mem) i (.head _) eq ▸ mem), Function.update_same]
    · rw [ih nodup (fun a am b bm => inj a (.tail _ am) b (.tail _ bm)) _
          ((List.mem_cons.1 mem).resolve_left same),
        Function.update_noteq fun eq => same (inj i mem k (.head _) eq)]

end Loops

theorem mem_range'_one_seven {i : Nat} : i ∈ List.range' 1 7 ↔ 1 ≤ i ∧ i ≤ 7 := by
  rw [List.mem_range'_1]; omega

theorem leftPos_val {i : Nat} (lt : i < 8) : (leftPos i).val = 8 * i := by
  simp only [leftPos, Fin.ofNat', Nat.shiftLeft_eq]; omega

theorem topPos_val {i : Nat} (lt : i < 64) : (topPos i).val = i := by
  simp only [topPos, Fin.ofNat']; omega

theorem addAlong_leftPos (perm : Equiv.Perm (Fin 64)) (add : Nat → Int) (block : Fin 64 → Int)
    (p : Fin 64) :
    addAlong perm leftPos add block (perm p) =
      if p.val % 8 = 0 ∧ p.val ≠ 0 then toInt16 (block (perm p) + add (p.val / 8))
      else block (perm p) := by
  have inj : ∀ i ∈ List.range' 1 7, ∀ k ∈ List.range' 1 7,
      perm (leftPos i) = perm (leftPos k) → i = k := by
    intro i im k km eq
    rw [mem_range'_one_seven] at im km
    have := congrArg Fin.val (perm.injective eq)
    rw [leftPos_val (by omega), leftPos_val (by omega)] at this
    omega
  split_ifs with column
  · generalize atP : p.val / 8 = i
    have atI : leftPos i = p := Fin.ext (by rw [leftPos_val (by omega)]; omega)
    rw [← atI]
    exact foldl_update_at _ (fun i => perm (leftPos i)) (fun i v => toInt16 (v + add i))
      (List.nodup_range' 1 7) inj block (mem_range'_one_seven.2 ⟨by omega, by omega⟩)
  · refine foldl_update_of_forall_ne _ (fun i => perm (leftPos i)) (fun i v => toInt16 (v + add i))
      block fun i im eq => column ?_
    rw [mem_range'_one_seven] at im
    have := congrArg Fin.val (perm.injective eq)
    rw [leftPos_val (by omega)] at this
    omega

theorem addAlong_topPos (perm : Equiv.Perm (Fin 64)) (add : Nat → Int) (block : Fin 64 → Int)
    (p : Fin 64) :
    addAlong perm topPos add block (perm p) =
      if p.val < 8 ∧ p.val ≠ 0 then toInt16 (block (perm p) + add p.val) else block (perm p) := by
  have inj : ∀ i ∈ List.range' 1 7, ∀ k ∈ List.range' 1 7,
      perm (topPos i) = perm (topPos k) → i = k := by
    intro i im k km eq
    rw [mem_range'_one_seven] at im km
    have := congrArg Fin.val (perm.injective eq)
    rw [topPos_val (by omega), topPos_val (by omega)] at this
    exact this
  split_ifs with row
  · generalize atP : p.val = i at row
    have atI : topPos i = p := Fin.ext (by rw [topPos_val (by omega)]; omega)
    rw [← atI]
    exact foldl_update_at _ (fun i => perm (topPos i)) (fun i v => toInt16 (v + add i))
      (List.nodup_range' 1 7) inj block (mem_range'_one_seven.2 ⟨by omega, by omega⟩)
  · refine foldl_update_of_forall_ne _ (fun i => perm (topPos i)) (fun i v => toInt16 (v + add i))
      block fun i im eq => row ?_
    rw [mem_range'_one_seven] at im
    have := congrArg Fin.val (perm.injective eq)
    rw [topPos_val (by omega)] at this
    omega

theorem acEntryPos_of_lt {k : Fin 16} (column : k.val < 8) : acEntryPos k = leftPos k.val :=
  Fin.ext (by rw [leftPos_val column]; simp [acEntryPos, column])

theorem acEntryPos_of_ge {k : Fin 16} (row : 8 ≤ k.val) : acEntryPos k = topPos (k.val - 8) :=
  Fin.ext (by rw [topPos_val (by omega)]; simp [acEntryPos, show ¬k.val < 8 by omega])

theorem copyAlong_apply (perm : Equiv.Perm (Fin 64)) (pos : Nat → Fin 64) {offset : Nat}
    (offsetLe : offset ≤ 8) (block : Fin 64 → Int) (row : Fin 16 → Int) (k : Fin 16) :
    copyAlong perm pos offset block row k =
      if offset < k.val ∧ k.val ≤ offset + 7 then block (perm (pos (k.val - offset)))
      else row k := by
  have entryVal : ∀ i ∈ List.range' 1 7, (Fin.ofNat' 16 (offset + i)).val = offset + i := by
    intro i im
    rw [mem_range'_one_seven] at im
    simp only [Fin.ofNat']; omega
  split_ifs with inside
  · have atK : Fin.ofNat' 16 (offset + (k.val - offset)) = k := by
      ext; rw [entryVal _ (mem_range'_one_seven.2 ⟨by omega, by omega⟩)]; omega
    conv_lhs => rw [← atK]
    exact foldl_update_at _ (fun i => Fin.ofNat' 16 (offset + i)) (fun i _ => block (perm (pos i)))
      (List.nodup_range' 1 7)
      (fun i im j jm eq => by
        have := congrArg Fin.val eq; rw [entryVal i im, entryVal j jm] at this; omega)
      row (mem_range'_one_seven.2 ⟨by omega, by omega⟩)
  · refine foldl_update_of_forall_ne _ (fun i => Fin.ofNat' 16 (offset + i))
      (fun i _ => block (perm (pos i))) row fun i im eq => inside ?_
    have := congrArg Fin.val eq
    rw [entryVal i im] at this
    rw [mem_range'_one_seven] at im
    omega

theorem ffMpeg4PredAc_snd (ctx : AcPredContext) (acVal : AcVal) (block : Fin 64 → Int)
    (n : Fin 6) (dir : Int) :
    (ffMpeg4PredAc ctx acVal block n dir).2 =
      Function.update acVal (dcSlot ctx.mbX ctx.mbY n) fun k =>
        if k.val % 8 = 0 then acVal (dcSlot ctx.mbX ctx.mbY n) k
        else acPredicted ctx acVal block n dir (ctx.idctPermutation (acEntryPos k)) := by
  refine congrArg (Function.update acVal _) (funext fun k => ?_)
  rw [copyAlong_apply _ _ (by norm_num), copyAlong_apply _ _ (by norm_num)]
  by_cases column : k.val < 8
  · rw [acEntryPos_of_lt column]
    split_ifs <;> first | rfl | omega
  · rw [acEntryPos_of_ge (by omega)]
    split_ifs <;> first | rfl | omega

/-! ### The rescaling -/

theorem roundedDiv_mul_self (a : Int) {q : Int} (qPos : 0 < q) : roundedDiv (a * q) q = a := by
  have halfNonneg : 0 ≤ q / 2 ^ 1 := by omega
  have half : q / 2 ^ 1 / q = 0 := Int.ediv_eq_zero_of_lt halfNonneg (by omega)
  unfold roundedDiv
  rw [shiftRight_eq_ediv]
  split_ifs with nonneg
  · have : 0 ≤ a := by
      by_contra negative
      nlinarith
    rw [Int.tdiv_eq_ediv (by linarith) qPos.le, add_comm, Int.add_mul_ediv_right _ _ qPos.ne',
      half, zero_add]
  · have : a < 0 := by
      by_contra nonneg'
      exact nonneg (Int.mul_nonneg (by omega) qPos.le)
    rw [show a * q - q / 2 ^ 1 = -(q / 2 ^ 1 + -a * q) by ring, Int.neg_tdiv,
      Int.tdiv_eq_ediv (by nlinarith) qPos.le, Int.add_mul_ediv_right _ _ qPos.ne', half]
    ring

theorem owner_left (mbX mbY : Nat) (n : Fin 6) :
    ((dcSlot mbX mbY n).shift (-1) 0).owner =
      if n = 1 ∨ n = 3 then some ((mbX : Int), (mbY : Int)) else if mbX = 0 then none
      else some ((mbX : Int) - 1, (mbY : Int)) := by
  fin_cases n <;> simp [dcSlot, DcSlot.shift, DcSlot.owner] <;> (try split_ifs) <;> (try simp) <;>
    omega

theorem owner_top (mbX mbY : Nat) (n : Fin 6) :
    ((dcSlot mbX mbY n).shift 0 (-1)).owner =
      if n = 2 ∨ n = 3 then some ((mbX : Int), (mbY : Int)) else if mbY = 0 then none
      else some ((mbX : Int), (mbY : Int) - 1) := by
  fin_cases n <;> simp [dcSlot, DcSlot.shift, DcSlot.owner] <;> (try split_ifs) <;> (try simp) <;>
    omega

theorem leftBranches_eq (ctx : AcPredContext) (n : Fin 6) (qscalePos : 0 < ctx.qscale)
    (a : Nat → Int) (block : Fin 64 → Int) :
    (if ctx.mbX = 0 ∨ ctx.qscale = ctx.qscaleTable ((ctx.mbX : Int) - 1) ctx.mbY ∨ n = 1 ∨ n = 3
      then addAlong ctx.idctPermutation leftPos a block
      else addAlong ctx.idctPermutation leftPos
        (fun i => roundedDiv (a i * ctx.qscaleTable ((ctx.mbX : Int) - 1) ctx.mbY) ctx.qscale)
        block) =
      addAlong ctx.idctPermutation leftPos (fun i => roundedDiv
        (a i * ctx.ownerQscale ((dcSlot ctx.mbX ctx.mbY n).shift (-1) 0)) ctx.qscale) block := by
  unfold AcPredContext.ownerQscale
  rw [owner_left]
  split_ifs with same inside edge <;> simp_all [roundedDiv_mul_self]

theorem topBranches_eq (ctx : AcPredContext) (n : Fin 6) (qscalePos : 0 < ctx.qscale)
    (a : Nat → Int) (block : Fin 64 → Int) :
    (if ctx.mbY = 0 ∨ ctx.qscale = ctx.qscaleTable ctx.mbX ((ctx.mbY : Int) - 1) ∨ n = 2 ∨ n = 3
      then addAlong ctx.idctPermutation topPos a block
      else addAlong ctx.idctPermutation topPos
        (fun i => roundedDiv (a i * ctx.qscaleTable ctx.mbX ((ctx.mbY : Int) - 1)) ctx.qscale)
        block) =
      addAlong ctx.idctPermutation topPos (fun i => roundedDiv
        (a i * ctx.ownerQscale ((dcSlot ctx.mbX ctx.mbY n).shift 0 (-1))) ctx.qscale) block := by
  unfold AcPredContext.ownerQscale
  rw [owner_top]
  split_ifs with same inside edge <;> simp_all [roundedDiv_mul_self]

/-! ### The closed form -/

theorem acPredicted_eq_spec {ctx : AcPredContext} (acVal : AcVal) (block : Fin 64 → Int)
    (n : Fin 6) (dir : Int) (qscalePos : 0 < ctx.qscale) :
    acPredicted ctx acVal block n dir = (predAcSpec ctx acVal block n dir).1 := by
  funext j
  obtain ⟨p, rfl⟩ := ctx.idctPermutation.surjective j
  dsimp only [acPredicted, predAcSpec, predSource]
  rw [Equiv.symm_apply_apply]
  by_cases acPred : ctx.acPred
  · by_cases dir0 : dir = 0
    · rw [if_pos acPred, if_pos dir0, if_pos dir0, leftBranches_eq ctx n qscalePos,
        addAlong_leftPos]
      simp [acPred, dir0]
    · rw [if_pos acPred, if_neg dir0, if_neg dir0, topBranches_eq ctx n qscalePos,
        addAlong_topPos]
      simp [acPred, dir0]
  · simp [acPred]

/-- **`ff_mpeg4_pred_ac` in closed form.** For a positive qscale, the function is the plain
statement of AC prediction: under `ac_pred` every coefficient of the first column (left
prediction) or of the first row (top prediction) gains the neighbour's stored coefficient,
rescaled from the qscale of the macroblock that neighbour belongs to, each sum kept in 16
bits; the other coefficients are left; and the block's slot of `ac_val` then holds its
first column and row, every other slot untouched. The branch that skips the rescaling is
the case where the neighbour's qscale is the current one. -/
theorem ffMpeg4PredAc_eq_spec {ctx : AcPredContext} (acVal : AcVal) (block : Fin 64 → Int)
    (n : Fin 6) (dir : Int) (qscalePos : 0 < ctx.qscale) :
    ffMpeg4PredAc ctx acVal block n dir = predAcSpec ctx acVal block n dir := by
  have predicted := acPredicted_eq_spec acVal block n dir qscalePos
  refine Prod.ext predicted ?_
  rw [ffMpeg4PredAc_snd, predicted]
  rfl

/-- A context for the witnesses: `ac_pred` on, the macroblock at `(1, 0)` with qscale 4,
every other macroblock with qscale 8, and the identity permutation. -/
def rescalingContext : AcPredContext where
  acPred := true
  mbX := 1
  mbY := 0
  qscale := 4
  qscaleTable := fun _ _ => 8
  idctPermutation := Equiv.refl _

/-- Block 0 predicts from block 1 of the macroblock to the left, quantised with 8: its
stored 3 comes back as `ROUNDED_DIV(3 * 8, 4) = 6`. -/
example : (ffMpeg4PredAc rescalingContext (fun _ k => if k.val = 1 then 3 else 0)
    (fun _ => 0) 0 0).1 (leftPos 1) = 6 := by decide

theorem ffMpeg4PredAc_eq_spec_rescaling :
    0 < rescalingContext.qscale ∧
      ffMpeg4PredAc rescalingContext (fun _ k => if k.val = 1 then 3 else 0) (fun _ => 0) 0 0 =
        predAcSpec rescalingContext (fun _ k => if k.val = 1 then 3 else 0) (fun _ => 0) 0 0 :=
  ⟨by decide, ffMpeg4PredAc_eq_spec _ _ _ _ (by decide)⟩

/-! ### Inside a macroblock -/

theorem inside_of_left {mbX mbY : Nat} {n m : Fin 6}
    (neighbour : (dcSlot mbX mbY m).shift (-1) 0 = dcSlot mbX mbY n) : m = 1 ∨ m = 3 := by
  have owners := owner_left mbX mbY m
  rw [neighbour, owner_dcSlot (by omega) (by omega)] at owners
  split_ifs at owners with inside
  · exact inside
  · simp at owners; omega

theorem inside_of_top {mbX mbY : Nat} {n m : Fin 6}
    (neighbour : (dcSlot mbX mbY m).shift 0 (-1) = dcSlot mbX mbY n) : m = 2 ∨ m = 3 := by
  have owners := owner_top mbX mbY m
  rw [neighbour, owner_dcSlot (by omega) (by omega)] at owners
  split_ifs at owners with inside
  · exact inside
  · simp at owners; omega

theorem ffMpeg4PredAc_fst (ctx : AcPredContext) (acVal : AcVal) (block : Fin 64 → Int)
    (n : Fin 6) (dir : Int) :
    (ffMpeg4PredAc ctx acVal block n dir).1 = acPredicted ctx acVal block n dir := rfl

/-- **A block predicts from what its neighbour in the macroblock stored.** When block `m`
predicts (under `ac_pred`) from a block `n` of the same macroblock, each coefficient of
its first column (left) or row (top) gains exactly the one block `n` ended with, whatever
the qscales: the store of one call and the read of the next agree. -/
theorem ffMpeg4PredAc_inside_macroblock (ctx : AcPredContext) (acVal : AcVal)
    (blockN blockM : Fin 64 → Int) {n m : Fin 6} (dirN dir : Int) (acPred : ctx.acPred = true)
    (neighbour : predSource (dcSlot ctx.mbX ctx.mbY m) dir = dcSlot ctx.mbX ctx.mbY n)
    {i : Nat} (inside : 1 ≤ i ∧ i ≤ 7) :
    (ffMpeg4PredAc ctx (ffMpeg4PredAc ctx acVal blockN n dirN).2 blockM m dir).1
        (ctx.idctPermutation (if dir = 0 then leftPos i else topPos i)) =
      toInt16 (blockM (ctx.idctPermutation (if dir = 0 then leftPos i else topPos i)) +
        (ffMpeg4PredAc ctx acVal blockN n dirN).1
          (ctx.idctPermutation (if dir = 0 then leftPos i else topPos i))) := by
  rw [ffMpeg4PredAc_snd, ffMpeg4PredAc_fst ctx acVal blockN n dirN]
  generalize acPredicted ctx acVal blockN n dirN = blockN'
  unfold predSource at neighbour
  by_cases dir0 : dir = 0
  · rw [if_pos dir0] at neighbour
    simp only [ffMpeg4PredAc, acPredicted, acPred, dir0, if_true, neighbour,
      inside_of_left neighbour, or_true, addAlong_leftPos]
    have entry : (Fin.ofNat' 16 i).val = i := by simp only [Fin.ofNat']; omega
    rw [leftPos_val (by omega), if_pos (by omega), show 8 * i / 8 = i by omega,
      Function.update_same, if_neg (by omega), acEntryPos_of_lt (by omega), entry]
  · rw [if_neg dir0] at neighbour
    simp only [ffMpeg4PredAc, acPredicted, acPred, dir0, if_true, if_false, neighbour,
      inside_of_top neighbour, or_true, addAlong_topPos]
    have entry : (Fin.ofNat' 16 (i + 8)).val = i + 8 := by simp only [Fin.ofNat']; omega
    rw [topPos_val (by omega), if_pos (by omega), Function.update_same, if_neg (by omega),
      acEntryPos_of_ge (by omega), entry, Nat.add_sub_cancel]

theorem ffMpeg4PredAc_inside_macroblock_blockOne :
    rescalingContext.acPred = true ∧
      predSource (dcSlot rescalingContext.mbX rescalingContext.mbY 1) 0 =
        dcSlot rescalingContext.mbX rescalingContext.mbY 0 ∧ (1 ≤ 1 ∧ 1 ≤ 7) ∧
      (ffMpeg4PredAc rescalingContext (ffMpeg4PredAc rescalingContext (fun _ _ => 0)
          (fun _ => 5) 0 0).2 (fun _ => 1) 1 0).1
          (rescalingContext.idctPermutation (if (0 : Int) = 0 then leftPos 1 else topPos 1)) =
        toInt16 ((fun _ => 1) (rescalingContext.idctPermutation
            (if (0 : Int) = 0 then leftPos 1 else topPos 1)) +
          (ffMpeg4PredAc rescalingContext (fun _ _ => 0) (fun _ => 5) 0 0).1
            (rescalingContext.idctPermutation (if (0 : Int) = 0 then leftPos 1 else topPos 1))) :=
  ⟨rfl, by decide, by decide,
    ffMpeg4PredAc_inside_macroblock rescalingContext (fun _ _ => 0) (fun _ => 5) (fun _ => 1) 0 0
      rfl (by decide) (by decide)⟩

end Librempeg.Avcodec.Mpeg4Video
