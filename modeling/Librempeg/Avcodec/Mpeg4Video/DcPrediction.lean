import Mathlib

/-!
Contract: `mpeg4_pred_dc` (libavcodec/mpeg4videodec.c) at the boundaries of a video
packet, over the macroblock positions that `mpeg4_decode_partition_a` and
`mpeg4_decode_partition_b` walk through with their `first_slice_line` flag.

The `dc_val` array and its indexing (`block_index`, `block_wrap`, set by
`ff_init_block_index` and `ff_update_block_index` of libavcodec/mpegvideo.c) are not in
this tree: `DcSlot` names an entry by its position in the luma grid of 8×8 blocks or in a
chroma plane, with the border row above and the border column left of the picture.

Owns: the slots of a macroblock's blocks and of their neighbours, the sentinel
replacement of `mpeg4_pred_dc` in closed form (`boundaryValues_eq`), the walk through a
slice with its invariant (`slicePosition_reachable`), and that the prediction reads
only DC values of the current video packet or of the border.

Does not own: the DC values themselves (`mpeg4_get_level_dc` stores them at
`dcSlot`), nor the walk of the non-partitioned decoder.
-/

namespace Librempeg.Avcodec.Mpeg4Video

/-! ### The `dc_val` grid -/

/-- Modelled from the spec: an entry of `dc_val`, at column `gx` and row `gy` of the luma
grid (one entry per 8×8 block), or at column `x` and row `y` of chroma plane `plane` (one
per macroblock). Column and row -1 are the border. -/
inductive DcSlot
  | luma (gx gy : Int)
  | chroma (plane : Fin 2) (x y : Int)
  deriving DecidableEq, Repr

namespace DcSlot

/-- `dc_val[index + dx + dy * wrap]`: the entry `dx` columns and `dy` rows away. -/
def shift : DcSlot → Int → Int → DcSlot
  | .luma gx gy, dx, dy => .luma (gx + dx) (gy + dy)
  | .chroma plane x y, dx, dy => .chroma plane (x + dx) (y + dy)

/-- The macroblock whose block stores its DC in the entry, `none` on the border. -/
def owner : DcSlot → Option (Int × Int)
  | .luma gx gy => if 0 ≤ gx ∧ 0 ≤ gy then some (gx / 2, gy / 2) else none
  | .chroma _ x y => if 0 ≤ x ∧ 0 ≤ y then some (x, y) else none

@[simp] theorem owner_luma_eq_some {gx gy x y : Int} :
    (luma gx gy).owner = some (x, y) ↔ 0 ≤ gx ∧ 0 ≤ gy ∧ gx / 2 = x ∧ gy / 2 = y := by
  simp only [owner]
  split <;> simp_all

@[simp] theorem owner_chroma_eq_some {plane : Fin 2} {cx cy x y : Int} :
    (chroma plane cx cy).owner = some (x, y) ↔ 0 ≤ cx ∧ 0 ≤ cy ∧ cx = x ∧ cy = y := by
  simp only [owner]
  split <;> simp_all

end DcSlot

/-- `dc_val + block_index[n]` for block `n` of the macroblock at `(mbX, mbY)`: blocks 0
to 3 are the four luma blocks in raster order, 4 and 5 the chroma blocks. -/
def dcSlot (mbX mbY : Int) (n : Fin 6) : DcSlot :=
  if n.val < 4 then .luma (2 * mbX + n.val % 2) (2 * mbY + n.val / 2)
  else .chroma ⟨n.val - 4, by omega⟩ mbX mbY

theorem owner_dcSlot {mbX mbY : Int} (column : 0 ≤ mbX) (row : 0 ≤ mbY) (n : Fin 6) :
    (dcSlot mbX mbY n).owner = some (mbX, mbY) := by
  unfold dcSlot
  split
  · simp only [DcSlot.owner]
    rw [if_pos (by omega)]
    congr 2 <;> omega
  · simp only [DcSlot.owner]
    rw [if_pos ⟨column, row⟩]

theorem owner_shift_dcSlot {x y : Int} (n : Fin 6) {dx dy x' y' : Int} (dxIn : dx = -1 ∨ dx = 0)
    (dyIn : dy = -1 ∨ dy = 0) (owned : ((dcSlot x y n).shift dx dy).owner = some (x', y')) :
    0 ≤ x' ∧ 0 ≤ y' ∧ (x' = x ∨ (x' = x + dx ∧ n ≠ 1 ∧ n ≠ 3)) ∧
      (y' = y ∨ (y' = y + dy ∧ n ≠ 2 ∧ n ≠ 3)) := by
  fin_cases n <;> simp [dcSlot, DcSlot.shift] at owned ⊢ <;> omega

/-! ### `mpeg4_pred_dc` -/

/-- What `mpeg4_pred_dc` reads of the slice state. -/
structure SlicePosition where
  mbX : Nat
  mbY : Nat
  resyncMbX : Nat
  resyncMbY : Nat
  firstSliceLine : Bool
  deriving DecidableEq, Repr

namespace SlicePosition

variable (p : SlicePosition) (n : Fin 6)

/-- The outside-slice handling of `mpeg4_pred_dc` on the neighbours `a` (left), `b`
(top-left) and `c` (top): on the slice's first line the top neighbours of blocks other
than 2 and 3, and at the slice's start column the left ones of blocks other than 1 and
3, become 1024; on the row below the slice start the top-left of blocks 0, 4 and 5. -/
def boundaryValues (a b c : Int) : Int × Int × Int :=
  let (a, b, c) :=
    if p.firstSliceLine ∧ n ≠ 3 then
      let (b, c) := if n ≠ 2 then ((1024 : Int), (1024 : Int)) else (b, c)
      if n ≠ 1 ∧ p.mbX = p.resyncMbX then ((1024 : Int), (1024 : Int), c) else (a, b, c)
    else (a, b, c)
  let b :=
    if p.mbX = p.resyncMbX ∧ p.mbY = p.resyncMbY + 1 ∧ (n = 0 ∨ n = 4 ∨ n = 5) then 1024 else b
  (a, b, c)

/-- `mpeg4_pred_dc(s, n, &dir)` on the DC values `dcVal`: the prediction and the
direction, 1 for the top neighbour and 0 for the left one. -/
def mpeg4PredDc (dcVal : DcSlot → Int) : Int × Int :=
  let slot := dcSlot p.mbX p.mbY n
  let (a, b, c) := p.boundaryValues n (dcVal (slot.shift (-1) 0))
    (dcVal (slot.shift (-1) (-1))) (dcVal (slot.shift 0 (-1)))
  if |a - b| < |b - c| then (c, 1) else (a, 0)

/-- The left neighbour is kept unless the block is on the slice's first line, at its
start column, and not block 1 or 3. -/
def KeepsLeft : Prop :=
  ¬(p.firstSliceLine ∧ n ≠ 3 ∧ n ≠ 1 ∧ p.mbX = p.resyncMbX)

/-- The top-left neighbour is kept unless a replacement of the first line or of the row
below the slice start applies. -/
def KeepsTopLeft : Prop :=
  ¬(p.firstSliceLine ∧ n ≠ 3 ∧ (n ≠ 2 ∨ p.mbX = p.resyncMbX)) ∧
    ¬(p.mbX = p.resyncMbX ∧ p.mbY = p.resyncMbY + 1 ∧ (n = 0 ∨ n = 4 ∨ n = 5))

/-- The top neighbour is kept unless the block is on the slice's first line and is not
block 2 or 3. -/
def KeepsTop : Prop := ¬(p.firstSliceLine ∧ n ≠ 3 ∧ n ≠ 2)

instance : Decidable (p.KeepsLeft n) := inferInstanceAs (Decidable (¬_))
instance : Decidable (p.KeepsTopLeft n) := inferInstanceAs (Decidable (_ ∧ _))
instance : Decidable (p.KeepsTop n) := inferInstanceAs (Decidable (¬_))

/-- **The sentinel replacement in closed form.** Each neighbour is read as stored or
replaced by 1024, as its `Keeps` condition says. -/
theorem boundaryValues_eq (a b c : Int) :
    p.boundaryValues n a b c =
      (if p.KeepsLeft n then a else 1024, if p.KeepsTopLeft n then b else 1024,
        if p.KeepsTop n then c else 1024) := by
  obtain ⟨mbX, mbY, resyncMbX, resyncMbY, firstSliceLine⟩ := p
  unfold boundaryValues KeepsLeft KeepsTopLeft KeepsTop
  fin_cases n <;> by_cases column : mbX = resyncMbX <;> cases firstSliceLine <;> simp [column]

end SlicePosition

/-! ### The walk through a slice -/

namespace SlicePosition

variable (p : SlicePosition)

/-- `if (s->mb_x == s->resync_mb_x && s->mb_y == s->resync_mb_y + 1)
s->first_slice_line = 0;` at the top of each macroblock. -/
def enterMb : SlicePosition :=
  if p.mbX = p.resyncMbX ∧ p.mbY = p.resyncMbY + 1 then { p with firstSliceLine := false }
  else p

/-- `s->mb_x++`, and `s->mb_x = 0` with `s->mb_y++` at the end of a row. -/
def nextMb (mbWidth : Nat) : SlicePosition :=
  if p.mbX + 1 < mbWidth then { p with mbX := p.mbX + 1 } else { p with mbX := 0, mbY := p.mbY + 1 }

/-- The positions the partition loops reach in a slice: inside the picture's width, at
or after the slice start in raster order, with `first_slice_line` set exactly on the
slice's first row and on the part of the next row left of the start column. -/
structure Reachable (mbWidth : Nat) : Prop where
  startColumn : p.resyncMbX < mbWidth
  column : p.mbX < mbWidth
  afterStart : p.resyncMbY < p.mbY ∨ (p.resyncMbY = p.mbY ∧ p.resyncMbX ≤ p.mbX)
  firstLine : p.firstSliceLine = true ↔
    p.mbY = p.resyncMbY ∨ (p.mbY = p.resyncMbY + 1 ∧ p.mbX < p.resyncMbX)

end SlicePosition

/-- The position at which a partition loop decodes the `k`-th macroblock of the slice
that starts at `(resyncMbX, resyncMbY)` with `first_slice_line = 1`. -/
def slicePosition (mbWidth resyncMbX resyncMbY : Nat) : Nat → SlicePosition
  | 0 => SlicePosition.enterMb ⟨resyncMbX, resyncMbY, resyncMbX, resyncMbY, true⟩
  | k + 1 => ((slicePosition mbWidth resyncMbX resyncMbY k).nextMb mbWidth).enterMb

namespace SlicePosition

theorem reachable_start {mbWidth resyncMbX : Nat} (resyncMbY : Nat)
    (startColumn : resyncMbX < mbWidth) :
    (enterMb ⟨resyncMbX, resyncMbY, resyncMbX, resyncMbY, true⟩).Reachable mbWidth := by
  unfold enterMb
  rw [if_neg (by simp)]
  exact ⟨startColumn, startColumn, by simp, by simp⟩

theorem Reachable.next {p : SlicePosition} {mbWidth : Nat} (reach : p.Reachable mbWidth) :
    ((p.nextMb mbWidth).enterMb).Reachable mbWidth := by
  obtain ⟨mbX, mbY, resyncMbX, resyncMbY, firstSliceLine⟩ := p
  obtain ⟨startColumn, column, afterStart, firstLine⟩ := reach
  unfold nextMb enterMb
  cases firstSliceLine <;> split <;> split <;> constructor <;> simp at * <;> omega

/-- **The walk's invariant.** Every position a partition loop reaches in a slice is
`Reachable`. -/
theorem slicePosition_reachable {mbWidth resyncMbX : Nat} (resyncMbY : Nat)
    (startColumn : resyncMbX < mbWidth) (k : Nat) :
    (slicePosition mbWidth resyncMbX resyncMbY k).Reachable mbWidth := by
  induction k with
  | zero => exact reachable_start resyncMbY startColumn
  | succ k ih => exact ih.next

end SlicePosition

/-! ### Prediction inside the video packet -/

def rasterIndex (mbWidth : Nat) (mbX mbY : Int) : Int := mbY * mbWidth + mbX

theorem rasterIndex_le {mbWidth : Nat} {x y x' y' : Int} (column : x < mbWidth)
    (column' : 0 ≤ x') (before : y < y' ∨ (y = y' ∧ x ≤ x')) :
    rasterIndex mbWidth x y ≤ rasterIndex mbWidth x' y' := by
  unfold rasterIndex
  rcases before with above | ⟨rfl, left⟩
  · calc y * mbWidth + x ≤ (y + 1) * mbWidth := by linarith
      _ ≤ y' * mbWidth := Int.mul_le_mul_of_nonneg_right (by omega) (by omega)
      _ ≤ y' * mbWidth + x' := by omega
  · omega

namespace SlicePosition

variable (p : SlicePosition)

/-- An entry the prediction at `p` may read: the border, or the entry of a block of a
macroblock from the slice start up to the current macroblock in raster order. -/
def Visible (mbWidth : Nat) (slot : DcSlot) : Prop :=
  ∀ x y, slot.owner = some (x, y) →
    rasterIndex mbWidth p.resyncMbX p.resyncMbY ≤ rasterIndex mbWidth x y ∧
      rasterIndex mbWidth x y ≤ rasterIndex mbWidth p.mbX p.mbY

theorem visible_of_between {mbWidth : Nat} {slot : DcSlot} (startColumn : p.resyncMbX < mbWidth)
    (column : p.mbX < mbWidth)
    (between : ∀ x y, slot.owner = some (x, y) → 0 ≤ x ∧ x ≤ p.mbX ∧
      ((p.resyncMbY : Int) < y ∨ ((p.resyncMbY : Int) = y ∧ (p.resyncMbX : Int) ≤ x)) ∧
      (y < p.mbY ∨ (y = p.mbY ∧ x ≤ p.mbX))) :
    p.Visible mbWidth slot := by
  intro x y owned
  obtain ⟨low, high, afterStart, beforeCurrent⟩ := between x y owned
  exact ⟨rasterIndex_le (by omega) low afterStart, rasterIndex_le (by omega) (by omega) beforeCurrent⟩

variable {p} {mbWidth : Nat} (reach : p.Reachable mbWidth) (n : Fin 6)
include reach

theorem visible_left (keeps : p.KeepsLeft n) :
    p.Visible mbWidth ((dcSlot p.mbX p.mbY n).shift (-1) 0) := by
  obtain ⟨startColumn, column, afterStart, firstLine⟩ := reach
  refine p.visible_of_between startColumn column fun x y owned => ?_
  unfold KeepsLeft at keeps
  obtain ⟨xPos, yPos, xIs | ⟨xIs, notOne, notThree⟩, yIs | ⟨yIs, notTwo, notThree⟩⟩ :=
    owner_shift_dcSlot n (.inl rfl) (.inr rfl) owned
  all_goals refine ⟨xPos, by omega, ?_, by omega⟩
  all_goals cases firstSliceLine : p.firstSliceLine <;> simp only [firstSliceLine,
    Bool.false_eq_true, false_iff, true_iff, true_and, false_and, not_false_eq_true] at firstLine keeps <;>
    omega

theorem visible_topLeft (keeps : p.KeepsTopLeft n) :
    p.Visible mbWidth ((dcSlot p.mbX p.mbY n).shift (-1) (-1)) := by
  obtain ⟨startColumn, column, afterStart, firstLine⟩ := reach
  refine p.visible_of_between startColumn column fun x y owned => ?_
  unfold KeepsTopLeft at keeps
  obtain ⟨xPos, yPos, xIs | ⟨xIs, notOne, notThree⟩, yIs | ⟨yIs, notTwo, notThree⟩⟩ :=
    owner_shift_dcSlot n (.inl rfl) (.inl rfl) owned
  all_goals refine ⟨xPos, by omega, ?_, by omega⟩
  all_goals cases firstSliceLine : p.firstSliceLine <;> simp only [firstSliceLine,
    Bool.false_eq_true, false_iff, true_iff, true_and, false_and, not_false_eq_true] at firstLine keeps <;>
    omega

theorem visible_top (keeps : p.KeepsTop n) :
    p.Visible mbWidth ((dcSlot p.mbX p.mbY n).shift 0 (-1)) := by
  obtain ⟨startColumn, column, afterStart, firstLine⟩ := reach
  refine p.visible_of_between startColumn column fun x y owned => ?_
  unfold KeepsTop at keeps
  obtain ⟨xPos, yPos, xIs | ⟨xIs, notOne, notThree⟩, yIs | ⟨yIs, notTwo, notThree⟩⟩ :=
    owner_shift_dcSlot n (.inr rfl) (.inl rfl) owned
  all_goals refine ⟨xPos, by omega, ?_, by omega⟩
  all_goals cases firstSliceLine : p.firstSliceLine <;> simp only [firstSliceLine,
    Bool.false_eq_true, false_iff, true_iff, true_and, false_and, not_false_eq_true] at firstLine keeps <;>
    omega

end SlicePosition

/-- **DC prediction stays inside the video packet.** For every picture width, every
slice start inside it and every macroblock the partition loops decode in that slice,
`mpeg4_pred_dc` gives the same prediction and direction on any two `dc_val` arrays that
agree on the border and on the blocks of the macroblocks from the slice start to the
current one: every neighbour it does not replace by 1024 is such an entry. -/
theorem mpeg4PredDc_slice_local (mbWidth resyncMbX resyncMbY k : Nat)
    (startColumn : resyncMbX < mbWidth) (n : Fin 6) (dcVal dcVal' : DcSlot → Int)
    (agree : ∀ slot, (slicePosition mbWidth resyncMbX resyncMbY k).Visible mbWidth slot →
      dcVal slot = dcVal' slot) :
    (slicePosition mbWidth resyncMbX resyncMbY k).mpeg4PredDc n dcVal =
      (slicePosition mbWidth resyncMbX resyncMbY k).mpeg4PredDc n dcVal' := by
  have reach := SlicePosition.slicePosition_reachable resyncMbY startColumn k
  generalize slicePosition mbWidth resyncMbX resyncMbY k = p at reach agree
  have read : ∀ (keeps : Prop) [Decidable keeps] (slot : DcSlot),
      (keeps → p.Visible mbWidth slot) →
        (if keeps then dcVal slot else 1024) = (if keeps then dcVal' slot else 1024) := by
    intro keeps _ slot visible
    split_ifs with kept
    · exact agree slot (visible kept)
    · rfl
  simp only [SlicePosition.mpeg4PredDc, SlicePosition.boundaryValues_eq]
  rw [read _ _ (SlicePosition.visible_left reach n), read _ _ (SlicePosition.visible_topLeft reach n),
    read _ _ (SlicePosition.visible_top reach n)]

theorem mpeg4PredDc_slice_local_secondRow :
    3 < 11 ∧
      (slicePosition 11 3 2 12).mpeg4PredDc 0 (fun _ => 0) =
        (slicePosition 11 3 2 12).mpeg4PredDc 0
          (fun slot => if slot.owner = some (0, 0) then 7 else 0) :=
  ⟨by decide, mpeg4PredDc_slice_local 11 3 2 12 (by decide) 0 _ _ fun slot visible => by
    split_ifs with earlier
    · exact absurd (visible 0 0 earlier).1 (by decide)
    · rfl⟩

end Librempeg.Avcodec.Mpeg4Video
