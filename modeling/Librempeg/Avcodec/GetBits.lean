import Mathlib

/-!
Contract: the bit reader of `libavcodec/get_bits.h` (not in this tree) as the decoder
uses it: the buffer as its bits, most significant first, and the reader position.
Bits past the end read as zero, the padding every packet buffer carries.

Owns: `show_bits`, `SHOW_SBITS`, `skip_bits`, `skip_bits_long`, `get_bits`, `get_xbits`, `get_bits1`, `align_get_bits` and
`get_bits_count`, and `av_log2`; what stands before the reader (`ahead`) and how each read
takes a code from it; fixed-width codes of numbers (`codeBits`) and their inverse.

Does not own: any VLC table; a VLC read is modelled by its caller.
-/

namespace Librempeg.Avcodec

/-- A most-significant-first bit list as a number. -/
def fromBitsMSB (bits : List Bool) : Nat :=
  bits.foldl (fun acc bit => 2 * acc + bit.toNat) 0

/-- `GetBitContext`: the buffer's bits and the reader position (`get_bits_count`). -/
structure GetBitContext where
  buffer : List Bool
  index : Nat
  deriving DecidableEq, Repr

namespace GetBitContext

/-- `size_in_bits`. -/
def sizeInBits (gb : GetBitContext) : Nat := gb.buffer.length

/-- The `count` bits at the reader position, zero past the end. -/
def peek (gb : GetBitContext) (count : Nat) : List Bool :=
  (List.range count).map fun k => gb.buffer.getD (gb.index + k) false

/-- `show_bits(gb, count)`. -/
def showBits (gb : GetBitContext) (count : Nat) : Nat := fromBitsMSB (gb.peek count)

/-- `SHOW_SBITS(re, gb, count)`: the `count` bits as a two's complement number. -/
def showSBits (gb : GetBitContext) (count : Nat) : Int :=
  let value := gb.showBits count
  if 2 ^ (count - 1) ≤ value then value - 2 ^ count else value

/-- The `count`-bit code of `value`, most significant bit first. -/
def codeBits (count value : Nat) : List Bool :=
  (List.range count).reverse.map fun k => value.testBit k

/-- `skip_bits(gb, count)`. -/
def skipBits (gb : GetBitContext) (count : Nat) : GetBitContext :=
  { gb with index := gb.index + count }

/-- `get_bits(gb, count)`: the value and the advanced reader. -/
def getBits (gb : GetBitContext) (count : Nat) : Nat × GetBitContext :=
  (gb.showBits count, gb.skipBits count)

/-- `get_bits1(gb)`. -/
def getBits1 (gb : GetBitContext) : Bool × GetBitContext :=
  (gb.buffer.getD gb.index false, gb.skipBits 1)

/-- `skip_bits_long(gb, count)` for a count that may be negative, as a rewind uses it. -/
def skipBitsLong (gb : GetBitContext) (count : Int) : GetBitContext :=
  { gb with index := (gb.index + count).toNat }

/-- `get_xbits(gb, count)`: `count` bits read as a magnitude with its sign in the top bit,
set for a positive value and clear for `value - (2^count - 1)`. -/
def getXbits (gb : GetBitContext) (count : Nat) : Int × GetBitContext :=
  let value := gb.showBits count
  (if 2 ^ (count - 1) ≤ value then value else (value : Int) - (2 ^ count - 1), gb.skipBits count)

/-- `align_get_bits(gb)`: skip to the next byte boundary. -/
def alignGetBits (gb : GetBitContext) : GetBitContext :=
  gb.skipBits ((8 - gb.index % 8) % 8)

def ahead (gb : GetBitContext) : List Bool := gb.buffer.drop gb.index

@[simp] theorem skipBits_index (gb : GetBitContext) (count : Nat) :
    (gb.skipBits count).index = gb.index + count := rfl

@[simp] theorem skipBits_buffer (gb : GetBitContext) (count : Nat) :
    (gb.skipBits count).buffer = gb.buffer := rfl

@[simp] theorem skipBits_skipBits (gb : GetBitContext) (count count' : Nat) :
    (gb.skipBits count).skipBits count' = gb.skipBits (count + count') := by
  simp only [skipBits, Nat.add_assoc]

@[simp] theorem skipBits_zero (gb : GetBitContext) : gb.skipBits 0 = gb := rfl

@[simp] theorem sizeInBits_skipBits (gb : GetBitContext) (count : Nat) :
    (gb.skipBits count).sizeInBits = gb.sizeInBits := rfl

theorem getBits_snd (gb : GetBitContext) (count : Nat) :
    (gb.getBits count).2 = gb.skipBits count := rfl

theorem getBits1_snd (gb : GetBitContext) : gb.getBits1.2 = gb.skipBits 1 := rfl

theorem skipBits_skipBitsLong_back (gb : GetBitContext) (count : Nat) :
    (gb.skipBits count).skipBitsLong ((gb.index : Int) - (gb.skipBits count).index) = gb := by
  show GetBitContext.mk gb.buffer _ = gb
  rw [add_sub_cancel, Int.toNat_ofNat]

theorem peek_of_ones (gb : GetBitContext) (count : Nat) (ones : ∀ bit ∈ gb.buffer, bit = true)
    (inside : gb.index + count ≤ gb.sizeInBits) : gb.peek count = List.replicate count true := by
  refine List.ext_get (by simp [peek]) fun k within _ => ?_
  simp only [peek, List.get_eq_getElem, List.getElem_map, List.getElem_range, List.getElem_replicate]
  have inBuffer : gb.index + k < gb.buffer.length := by simp [peek] at within; unfold sizeInBits at inside; omega
  rw [List.getD_eq_getElem _ _ inBuffer]
  exact ones _ (List.getElem_mem inBuffer)

theorem fromBitsMSB_replicate_true (count : Nat) :
    fromBitsMSB (List.replicate count true) + 1 = 2 ^ count := by
  have ones : ∀ acc, (List.replicate count true).foldl (fun acc bit => 2 * acc + bit.toNat) acc + 1 =
      (acc + 1) * 2 ^ count := by
    induction count with
    | zero => intro acc; simp
    | succ count ih =>
      intro acc
      rw [List.replicate_succ, List.foldl_cons, ih, pow_succ]
      simp only [Bool.toNat_true]
      ring
  simpa using ones 0

theorem showBits_of_end (gb : GetBitContext) (count : Nat) (atEnd : gb.sizeInBits ≤ gb.index) :
    gb.showBits count = 0 := by
  have zeros : gb.peek count = List.replicate count false := by
    refine List.ext_get (by simp [peek]) fun k _ _ => ?_
    simp only [peek, List.get_eq_getElem, List.getElem_map, List.getElem_range,
      List.getElem_replicate]
    exact List.getD_eq_default _ _ (by unfold sizeInBits at atEnd; omega)
  have fold : ∀ n, (List.replicate n false).foldl (fun acc bit => 2 * acc + bit.toNat) 0 = 0 := by
    intro n
    induction n with
    | zero => rfl
    | succ n ih => rw [List.replicate_succ, List.foldl_cons]; simpa using ih
  simp only [showBits, fromBitsMSB, zeros, fold]

theorem showBits_lt (gb : GetBitContext) (count : Nat) : gb.showBits count < 2 ^ count := by
  have below : ∀ (bits : List Bool) (acc : Nat),
      bits.foldl (fun acc bit => 2 * acc + bit.toNat) acc < (acc + 1) * 2 ^ bits.length := by
    intro bits
    induction bits with
    | nil => intro acc; simp
    | cons bit bits ih =>
      intro acc
      calc _ < (2 * acc + bit.toNat + 1) * 2 ^ bits.length := ih _
        _ ≤ (acc + 1) * 2 ^ (bits.length + 1) := by
          rw [pow_succ]; cases bit <;> simp <;> nlinarith [Nat.one_le_two_pow (n := bits.length)]
  simpa [showBits, fromBitsMSB, peek] using below (gb.peek count) 0

theorem getBits_fst_lt (gb : GetBitContext) (count : Nat) : (gb.getBits count).1 < 2 ^ count :=
  gb.showBits_lt count

theorem foldl_bits (bits : List Bool) (acc : Nat) :
    bits.foldl (fun acc bit => 2 * acc + bit.toNat) acc =
      acc * 2 ^ bits.length + fromBitsMSB bits := by
  induction bits generalizing acc with
  | nil => simp [fromBitsMSB]
  | cons bit bits ih =>
    have head : fromBitsMSB (bit :: bits) = bit.toNat * 2 ^ bits.length + fromBitsMSB bits := by
      rw [fromBitsMSB, List.foldl_cons, ih]; simp
    rw [List.foldl_cons, ih, head, List.length_cons, pow_succ]
    ring

theorem fromBitsMSB_cons (bit : Bool) (bits : List Bool) :
    fromBitsMSB (bit :: bits) = bit.toNat * 2 ^ bits.length + fromBitsMSB bits := by
  rw [fromBitsMSB, List.foldl_cons, foldl_bits]
  simp

theorem fromBitsMSB_lt (bits : List Bool) : fromBitsMSB bits < 2 ^ bits.length := by
  induction bits with
  | nil => simp [fromBitsMSB]
  | cons bit bits ih =>
    rw [fromBitsMSB_cons, List.length_cons, pow_succ]
    cases bit <;> simp <;> omega

theorem eq_of_fromBitsMSB_eq : ∀ {left right : List Bool}, left.length = right.length →
    fromBitsMSB left = fromBitsMSB right → left = right
  | [], [], _, _ => rfl
  | l :: left, r :: right, sameLength, sameValue => by
    have lengths : left.length = right.length := by simpa using sameLength
    have leftLt := fromBitsMSB_lt left
    have rightLt := fromBitsMSB_lt right
    rw [fromBitsMSB_cons, fromBitsMSB_cons, lengths] at sameValue
    rw [lengths] at leftLt
    have heads : l = r := by cases l <;> cases r <;> simp at sameValue ⊢ <;> omega
    subst heads
    rw [eq_of_fromBitsMSB_eq lengths (by omega)]

@[simp] theorem length_codeBits (count value : Nat) : (codeBits count value).length = count := by
  simp [codeBits]

@[simp] theorem codeBits_zero (value : Nat) : codeBits 0 value = [] := rfl

theorem codeBits_succ (count value : Nat) :
    codeBits (count + 1) value = value.testBit count :: codeBits count value := by
  simp [codeBits, List.range_succ]

theorem codeBits_two_mul_add (count value : Nat) (bit : Bool) :
    codeBits (count + 1) (2 * value + bit.toNat) = codeBits count value ++ [bit] := by
  have half : (2 * value + bit.toNat) / 2 = value := by cases bit <;> simp; omega
  have low : (2 * value + bit.toNat).testBit 0 = bit := by cases bit <;> simp [Nat.mul_add_mod]
  rw [codeBits, List.range_succ_eq_map, List.reverse_cons, List.map_append, codeBits,
    List.map_reverse, List.map_reverse, List.map_map]
  simp [Function.comp_def, Nat.testBit_succ, half, low]

theorem fromBitsMSB_codeBits (count value : Nat) :
    fromBitsMSB (codeBits count value) = value % 2 ^ count := by
  induction count with
  | zero => simp [codeBits, fromBitsMSB, Nat.mod_one]
  | succ count ih =>
    rw [codeBits_succ, fromBitsMSB_cons, ih, length_codeBits, Nat.mod_pow_succ, Nat.toNat_testBit]
    ring

theorem codeBits_eq_of_fromBitsMSB {bits : List Bool} {count value : Nat}
    (length : bits.length = count) (reads : fromBitsMSB bits = value) :
    codeBits count value = bits := by
  apply eq_of_fromBitsMSB_eq (by simp [length])
  rw [fromBitsMSB_codeBits, ← reads, Nat.mod_eq_of_lt (length ▸ fromBitsMSB_lt bits)]

theorem peek_of_ahead {gb : GetBitContext} {bits after : List Bool}
    (ahead : gb.ahead = bits ++ after) : gb.peek bits.length = bits := by
  refine List.ext_get (by simp [peek]) fun k within _ => ?_
  have inBits : k < bits.length := by simpa [peek] using within
  have read : gb.buffer[gb.index + k]? = bits[k]? := by
    rw [← List.getElem?_drop, show gb.buffer.drop gb.index = gb.ahead from rfl, ahead,
      List.getElem?_append_left inBits]
  simp only [peek, List.get_eq_getElem, List.getElem_map, List.getElem_range,
    List.getD_eq_getElem?_getD, read, List.getElem?_eq_getElem inBits, Option.getD_some]

theorem ahead_skipBits {gb : GetBitContext} {bits after : List Bool}
    (ahead : gb.ahead = bits ++ after) : (gb.skipBits bits.length).ahead = after := by
  simp only [GetBitContext.ahead, skipBits_buffer, skipBits_index, ← List.drop_drop]
  rw [show gb.buffer.drop gb.index = gb.ahead from rfl, ahead, List.drop_left]

theorem getBits_of_ahead {gb : GetBitContext} {count value : Nat} {after : List Bool}
    (ahead : gb.ahead = codeBits count value ++ after) :
    gb.getBits count = (value % 2 ^ count, gb.skipBits count) := by
  have shown := peek_of_ahead ahead
  rw [length_codeBits] at shown
  simp only [getBits, showBits, shown, fromBitsMSB_codeBits]

theorem getBits1_of_ahead {gb : GetBitContext} {bit : Bool} {after : List Bool}
    (ahead : gb.ahead = bit :: after) : gb.getBits1 = (bit, gb.skipBits 1) := by
  have read : gb.buffer[gb.index]? = some bit := by
    rw [← Nat.add_zero gb.index, ← List.getElem?_drop,
      show gb.buffer.drop gb.index = gb.ahead from rfl, ahead, List.getElem?_cons_zero]
  simp only [getBits1, List.getD_eq_getElem?_getD, read, Option.getD_some]

end GetBitContext

/-- `av_log2` (libavutil, not in this tree) on an `unsigned` argument: the index of the
highest set bit, 0 for 0. The halving runs at most 32 times. -/
def avLog2Go : Nat → Nat → Nat
  | 0, _ => 0
  | fuel + 1, value => if value ≤ 1 then 0 else avLog2Go fuel (value / 2) + 1

/-- `av_log2(value)` for a value below `2^32`. -/
def avLog2 (value : Nat) : Nat := avLog2Go 32 value

theorem avLog2Go_le (fuel : Nat) : ∀ value bits, value < 2 ^ (bits + 1) → avLog2Go fuel value ≤ bits := by
  induction fuel with
  | zero => intro _ _ _; exact Nat.zero_le _
  | succ fuel ih =>
    intro value bits below
    unfold avLog2Go
    split
    · exact Nat.zero_le _
    · obtain ⟨bits, rfl⟩ : ∃ lower, bits = lower + 1 := ⟨bits - 1, by
        rcases bits with _ | bits
        · simp at below; omega
        · rfl⟩
      have half : value / 2 < 2 ^ (bits + 1) := by rw [pow_succ] at below; omega
      exact Nat.succ_le_succ (ih _ _ half)

end Librempeg.Avcodec
