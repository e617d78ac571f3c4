import Librempeg.Avcodec.GetBits
import Librempeg.Avutil.Common

/-!
Contract: the quantiser matrices of libavcodec/mpeg4videodec.c: `mpeg4_load_default_matrices`,
the custom matrices of `decode_vol_header` (`vol_quant_type`, `load_intra_quant_mat`,
`load_nonintra_quant_mat`), and `permute_quant_matrix` with `switch_to_xvid_idct`.

A matrix is stored in IDCT order: the value of scan position `i` goes to
`idct_permutation[ff_zigzag_direct[i]]` (the default tables are in raster order and go
to `idct_permutation[i]`). A custom matrix is read as 8-bit values up to the first 0 or
64 values, and the last value read fills the remaining positions. The default tables
(`ff_mpeg4_default_intra_matrix`, `ff_mpeg4_default_non_intra_matrix`),
`ff_zigzag_direct` and the permutations `ff_mpv_idct_init` selects are not in this tree
and enter as parameters. The chroma matrices, which the non-studio decoder does not
read, are left out.

Owns: the write loops, their effect position by position, what a custom matrix load
leaves for a header of `k` values, and that permuting a matrix loaded under one
permutation gives the matrix loading under the other would have given.

Does not own: the studio matrices (`read_quant_matrix_ext`).
-/

namespace Librempeg.Avcodec.Mpeg4Video

open Librempeg.Avcodec Librempeg.Avutil

/-- A `uint16_t matrix[64]` in IDCT order. -/
abbrev QuantMatrix := Fin 64 → Nat

/-- The write loop `for (i ...) matrix[position[i]] = value[i]` over `indices`. -/
def writeAlong (position : Fin 64 → Fin 64) (value : Fin 64 → Nat) (indices : List (Fin 64))
    (matrix : QuantMatrix) : QuantMatrix :=
  indices.foldl (fun matrix i => Function.update matrix (position i) (value i)) matrix

/-- `mpeg4_load_default_matrices` for one matrix: `matrix[idct_permutation[i]] = table[i]`. -/
def loadDefaultMatrix (perm : Fin 64 → Fin 64) (table : Fin 64 → Nat) (matrix : QuantMatrix) :
    QuantMatrix :=
  writeAlong perm table (List.finRange 64) matrix

/-- The read loop of a custom matrix over the scan positions `indices`:
`if (get_bits_left(gb) < 8) return AVERROR_INVALIDDATA; v = get_bits(gb, 8); if (v == 0)
break; last = v; matrix[P[zigzag[i]]] = v;`. The result is the matrix, and `none` for a
truncated header, else the positions left, `last` and the reader. -/
def readMatrix (perm zigzag : Fin 64 → Fin 64) :
    List (Fin 64) → Nat → QuantMatrix → GetBitContext →
      QuantMatrix × Option (List (Fin 64) × Nat × GetBitContext)
  | [], last, matrix, gb => (matrix, some ([], last, gb))
  | i :: rest, last, matrix, gb =>
      if gb.sizeInBits < gb.index + 8 then (matrix, none)
      else
        let v := gb.getBits 8
        if v.1 = 0 then (matrix, some (i :: rest, last, v.2))
        else readMatrix perm zigzag rest v.1 (Function.update matrix (perm (zigzag i)) v.1) v.2

/-- A custom matrix of `decode_vol_header`: the read loop from `last = 0`, then
`for (; i < 64; i++) matrix[P[zigzag[i]]] = last`. The intra loop stores `last` and the
non-intra loop `v`, the same value. -/
def loadCustomMatrix (perm zigzag : Fin 64 → Fin 64) (matrix : QuantMatrix) (gb : GetBitContext) :
    QuantMatrix × Except Int GetBitContext :=
  match readMatrix perm zigzag (List.finRange 64) 0 matrix gb with
  | (matrix, none) => (matrix, .error averrorInvalidData)
  | (matrix, some (rest, last, gb)) =>
      (writeAlong (fun i => perm (zigzag i)) (fun _ => last) rest matrix, .ok gb)

/-- The `vol_quant_type` part of `decode_vol_header`: `mpeg_quant`, the default matrices,
and a custom intra and a custom non-intra matrix when their flags are set. The matrices
written before an error stay written. -/
def volQuantMatrices (perm zigzag : Fin 64 → Fin 64) (defaultIntra defaultNonIntra : Fin 64 → Nat)
    (intra inter : QuantMatrix) (gb : GetBitContext) :
    Bool × QuantMatrix × QuantMatrix × Except Int GetBitContext :=
  let mpegQuant := gb.getBits1
  if !mpegQuant.1 then (false, intra, inter, .ok mpegQuant.2)
  else
    let intra := loadDefaultMatrix perm defaultIntra intra
    let inter := loadDefaultMatrix perm defaultNonIntra inter
    let loadIntra := mpegQuant.2.getBits1
    let intraLoaded :=
      if loadIntra.1 then loadCustomMatrix perm zigzag intra loadIntra.2 else (intra, .ok loadIntra.2)
    match intraLoaded.2 with
    | .error code => (true, intraLoaded.1, inter, .error code)
    | .ok gb =>
        let loadInter := gb.getBits1
        let interLoaded :=
          if loadInter.1 then loadCustomMatrix perm zigzag inter loadInter.2 else (inter, .ok loadInter.2)
        (true, intraLoaded.1, interLoaded.1, interLoaded.2)

/-- `permute_quant_matrix(matrix, new_perm, old_perm)`: from a copy `tmp` of the matrix,
`matrix[new_perm[i]] = tmp[old_perm[i]]`. -/
def permuteQuantMatrix (matrix : QuantMatrix) (newPerm oldPerm : Fin 64 → Fin 64) : QuantMatrix :=
  writeAlong newPerm (fun i => matrix (oldPerm i)) (List.finRange 64) matrix

/-- `switch_to_xvid_idct`: the intra and non-intra matrices move from the old permutation
to the one `ff_mpv_idct_init` selects for the Xvid IDCT. -/
def switchToXvidIdct (newPerm oldPerm : Fin 64 → Fin 64) (intra inter : QuantMatrix) :
    QuantMatrix × QuantMatrix :=
  (permuteQuantMatrix intra newPerm oldPerm, permuteQuantMatrix inter newPerm oldPerm)

/-! ### Write loops -/

section WriteAlong

variable {position : Fin 64 → Fin 64} {value : Fin 64 → Nat}

theorem writeAlong_apply (injective : Function.Injective position) (indices : List (Fin 64))
    (matrix : QuantMatrix) (j : Fin 64) :
    writeAlong position value indices matrix (position j) =
      if j ∈ indices then value j else matrix (position j) := by
  induction indices generalizing matrix with
  | nil => simp [writeAlong]
  | cons i rest ih =>
    simp only [writeAlong, List.foldl_cons] at ih ⊢
    rw [ih]
    by_cases later : j ∈ rest
    · simp [later]
    · by_cases same : j = i
      · subst same; simp
      · rw [Function.update_noteq (injective.ne same)]
        simp [later, same]

theorem writeAlong_finRange_eq (injective : Function.Injective position) (matrix matrix' : QuantMatrix)
    (atPositions : ∀ j, matrix' (position j) = value j) :
    writeAlong position value (List.finRange 64) matrix = matrix' := by
  funext p
  obtain ⟨j, rfl⟩ := Finite.surjective_of_injective injective p
  rw [writeAlong_apply injective, if_pos (List.mem_finRange j), atPositions]

end WriteAlong

/-! ### A custom matrix -/

section Custom

variable {perm zigzag : Fin 64 → Fin 64} {gb : GetBitContext} {v : Nat → Nat} {k : Nat}

theorem finRange_drop (i : Nat) (below : i < 64) :
    (List.finRange 64).drop i = ⟨i, below⟩ :: (List.finRange 64).drop (i + 1) := by
  rw [List.drop_eq_getElem_cons (by simpa using below)]
  simp

theorem mem_finRange_drop (i : Nat) (j : Fin 64) : j ∈ (List.finRange 64).drop i ↔ i ≤ j.val := by
  rw [List.mem_iff_getElem]
  simp only [List.length_drop, List.length_finRange, List.getElem_drop, List.getElem_finRange]
  constructor
  · rintro ⟨n, _, rfl⟩
    simp
  · intro atLeast
    exact ⟨j.val - i, by omega, Fin.ext (by simp; omega)⟩

/-- The value the loops leave at scan position `i` for a header of `k` values: `v_i`
before the terminator, then the last value read (0 when there is none). -/
def customValue (v : Nat → Nat) (k : Nat) (i : Fin 64) : Nat :=
  if i.val < k then v i else if k = 0 then 0 else v (k - 1)

theorem readMatrix_spec (injective : Function.Injective fun i => perm (zigzag i)) (atMost : k ≤ 64)
    (values : ∀ i < k, (gb.skipBits (8 * i)).showBits 8 = v i ∧ v i ≠ 0)
    (terminated : k < 64 → (gb.skipBits (8 * k)).showBits 8 = 0)
    (enough : gb.index + 8 * min (k + 1) 64 ≤ gb.sizeInBits) :
    ∀ count start, start + count = k → ∀ (last : Nat) (matrix : QuantMatrix),
      ∃ matrix', readMatrix perm zigzag ((List.finRange 64).drop start) last matrix
          (gb.skipBits (8 * start)) =
        (matrix', some ((List.finRange 64).drop k, if count = 0 then last else v (k - 1),
          gb.skipBits (8 * min (k + 1) 64))) ∧
        ∀ j : Fin 64, matrix' (perm (zigzag j)) =
          if start ≤ j.val ∧ j.val < k then v j else matrix (perm (zigzag j))
  | 0, start, reached, last, matrix => by
    obtain rfl : start = k := by omega
    refine ⟨matrix, ?_, fun j => by rw [if_neg (by omega)]⟩
    by_cases full : start < 64
    · have roomy : ¬(gb.skipBits (8 * start)).sizeInBits < (gb.skipBits (8 * start)).index + 8 := by
        simp only [GetBitContext.sizeInBits_skipBits, GetBitContext.skipBits_index]; omega
      rw [finRange_drop start full, readMatrix, if_neg roomy]
      simp only [GetBitContext.getBits, terminated full, if_true, GetBitContext.skipBits_skipBits]
      rw [← finRange_drop start full, show min (start + 1) 64 = start + 1 by omega,
        show 8 * start + 8 = 8 * (start + 1) by omega]
    · obtain rfl : start = 64 := by omega
      simp [readMatrix, List.drop_eq_nil_of_le]
  | count + 1, start, reached, last, matrix => by
    have below : start < 64 := by omega
    obtain ⟨read, nonzero⟩ := values start (by omega)
    have roomy : ¬(gb.skipBits (8 * start)).sizeInBits < (gb.skipBits (8 * start)).index + 8 := by
      simp only [GetBitContext.sizeInBits_skipBits, GetBitContext.skipBits_index]; omega
    obtain ⟨matrix', rest, stored⟩ := readMatrix_spec injective atMost values terminated enough count (start + 1)
      (by omega) (v start) (Function.update matrix (perm (zigzag ⟨start, below⟩)) (v start))
    refine ⟨matrix', ?_, fun j => ?_⟩
    · rw [finRange_drop start below, readMatrix, if_neg roomy]
      simp only [GetBitContext.getBits, read, if_neg nonzero, GetBitContext.skipBits_skipBits]
      rw [show 8 * start + 8 = 8 * (start + 1) by omega, rest]
      by_cases last : count = 0
      · subst last; simp only [if_true, Nat.add_zero] at reached ⊢; rw [← reached]; simp
      · simp [last]
    · rw [stored j]
      by_cases same : j = ⟨start, below⟩
      · subst same; simp [show start < k by omega]
      · have other : j.val ≠ start := fun same' => same (Fin.ext same')
        rw [Function.update_noteq (injective.ne same)]
        by_cases inRange : start + 1 ≤ j.val ∧ j.val < k
        · rw [if_pos inRange, if_pos ⟨by omega, inRange.2⟩]
        · rw [if_neg inRange, if_neg (by omega)]

/-- **A custom matrix of `k` values.** The load reads the `k` values and the terminator,
and leaves `customValue v k i` at every scan position `i`, whatever the matrix held. -/
theorem loadCustomMatrix_spec (injective : Function.Injective fun i => perm (zigzag i))
    (atMost : k ≤ 64) (values : ∀ i < k, (gb.skipBits (8 * i)).showBits 8 = v i ∧ v i ≠ 0)
    (terminated : k < 64 → (gb.skipBits (8 * k)).showBits 8 = 0)
    (enough : gb.index + 8 * min (k + 1) 64 ≤ gb.sizeInBits) (matrix : QuantMatrix) :
    (loadCustomMatrix perm zigzag matrix gb).2 = .ok (gb.skipBits (8 * min (k + 1) 64)) ∧
      ∀ i, (loadCustomMatrix perm zigzag matrix gb).1 (perm (zigzag i)) = customValue v k i := by
  obtain ⟨matrix', read, stored⟩ :=
    readMatrix_spec injective atMost values terminated enough k 0 (by omega) 0 matrix
  unfold loadCustomMatrix
  rw [show readMatrix perm zigzag (List.finRange 64) 0 matrix gb =
    readMatrix perm zigzag ((List.finRange 64).drop 0) 0 matrix (gb.skipBits (8 * 0)) from rfl, read]
  refine ⟨rfl, fun i => ?_⟩
  simp only [writeAlong_apply injective, mem_finRange_drop, stored i, customValue]
  split_ifs <;> first | rfl | omega

end Custom

/-- **Matrices follow the IDCT permutation.** For permutations `P`, `P'` of the 64
positions and any zigzag scan, a custom matrix header of `k` nonzero 8-bit values and a
terminator (none when `k = 64`) leaves `v_i` at `P[zigzag[i]]` for `i < k` and the last
value (0 when `k = 0`) at the others; and `permute_quant_matrix` from `P` to `P'` turns
the custom and the default matrices loaded under `P` into exactly the ones loading under
`P'` gives. -/
theorem quantMatrix_permutation_laws (perm perm' zigzag : Fin 64 → Fin 64)
    (permutes : Function.Injective perm) (permutes' : Function.Injective perm')
    (scans : Function.Injective zigzag) (table matrix matrix' : QuantMatrix) (gb : GetBitContext)
    (v : Nat → Nat) (k : Nat) (atMost : k ≤ 64)
    (values : ∀ i < k, (gb.skipBits (8 * i)).showBits 8 = v i ∧ v i ≠ 0)
    (terminated : k < 64 → (gb.skipBits (8 * k)).showBits 8 = 0)
    (enough : gb.index + 8 * min (k + 1) 64 ≤ gb.sizeInBits) :
    ((loadCustomMatrix perm zigzag matrix gb).2 = .ok (gb.skipBits (8 * min (k + 1) 64)) ∧
      ∀ i, (loadCustomMatrix perm zigzag matrix gb).1 (perm (zigzag i)) = customValue v k i) ∧
    permuteQuantMatrix (loadCustomMatrix perm zigzag matrix gb).1 perm' perm =
      (loadCustomMatrix perm' zigzag matrix' gb).1 ∧
    permuteQuantMatrix (loadDefaultMatrix perm table matrix) perm' perm =
      loadDefaultMatrix perm' table matrix' := by
  have scanned : Function.Injective fun i => perm (zigzag i) := permutes.comp scans
  have scanned' : Function.Injective fun i => perm' (zigzag i) := permutes'.comp scans
  have loaded := loadCustomMatrix_spec scanned atMost values terminated enough matrix
  have loaded' := loadCustomMatrix_spec scanned' atMost values terminated enough matrix'
  refine ⟨loaded, writeAlong_finRange_eq permutes' _ _ fun j => ?_,
    writeAlong_finRange_eq permutes' _ _ fun j => ?_⟩
  · obtain ⟨i, rfl⟩ := Finite.surjective_of_injective scans j
    rw [loaded'.2 i, loaded.2 i]
  · simp only [loadDefaultMatrix, writeAlong_apply permutes, writeAlong_apply permutes',
      if_pos (List.mem_finRange j)]

/-- `FF_IDCT_PERM_TRANSPOSE`: the order of an IDCT that works on the transposed block. -/
def transposePermutation (i : Fin 64) : Fin 64 := ⟨i.val % 8 * 8 + i.val / 8, by omega⟩

theorem transposePermutation_injective : Function.Injective transposePermutation :=
  Function.LeftInverse.injective (g := transposePermutation) (by decide)

/-- A header of two values, 5 and 7, and the terminator. -/
def twoValueMatrixHeader : GetBitContext :=
  ⟨GetBitContext.codeBits 8 5 ++ GetBitContext.codeBits 8 7 ++ GetBitContext.codeBits 8 0, 0⟩

/-- The values of `twoValueMatrixHeader`. -/
def twoValues (i : Nat) : Nat := if i = 0 then 5 else 7

theorem quantMatrix_permutation_laws_transpose :
    ((loadCustomMatrix transposePermutation id (fun _ => 16) twoValueMatrixHeader).2 =
          .ok (twoValueMatrixHeader.skipBits (8 * min (2 + 1) 64)) ∧
        ∀ i, (loadCustomMatrix transposePermutation id (fun _ => 16) twoValueMatrixHeader).1
            (transposePermutation (id i)) = customValue twoValues 2 i) ∧
      permuteQuantMatrix (loadCustomMatrix transposePermutation id (fun _ => 16) twoValueMatrixHeader).1
          id transposePermutation =
        (loadCustomMatrix id id (fun _ => 0) twoValueMatrixHeader).1 ∧
      permuteQuantMatrix (loadDefaultMatrix transposePermutation (fun i => 8 + i.val) (fun _ => 16))
          id transposePermutation =
        loadDefaultMatrix id (fun i => 8 + i.val) (fun _ => 0) :=
  quantMatrix_permutation_laws transposePermutation id id transposePermutation_injective
    Function.injective_id Function.injective_id (fun i => 8 + i.val) (fun _ => 16) (fun _ => 0)
    twoValueMatrixHeader twoValues 2 (by decide) (by decide) (fun _ => by decide) (by decide)

end Librempeg.Avcodec.Mpeg4Video
