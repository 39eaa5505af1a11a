import Mathlib.Algebra.Ring.Nat
import Mathlib.Data.List.Basic
/-!
# Little-endian numbers

Numbers of a fixed width in a list of bytes. What is written is read back (`readAt_bytes`), in a
header of several numbers each at its place (`readAt_fields`).
-/

namespace LittleEndian

def number (bs : List UInt8) : Nat := bs.foldr (fun b acc => b.toNat + 256 * acc) 0

/-- A number as `n` bytes. -/
def bytes (value : Nat) : Nat → List UInt8
  | 0 => []
  | n + 1 => UInt8.ofNat (value % 256) :: bytes (value / 256) n

/-- The number in the `n` bytes from `offset` on. -/
def readAt (buf : List UInt8) (offset n : Nat) : Nat := number ((buf.drop offset).take n)

variable {value n : Nat} {as bs buf mid : List UInt8} {b : UInt8}

@[simp] theorem length_bytes (value n : Nat) : (bytes value n).length = n := by
  induction n generalizing value with
  | zero => rfl
  | succ n ih => rw [bytes, List.length_cons, ih]

theorem number_cons : number (b :: bs) = b.toNat + 256 * number bs := rfl

theorem number_bytes (h : value < 256 ^ n) : number (bytes value n) = value := by
  induction n generalizing value with
  | zero =>
    rw [Nat.pow_zero] at h
    rw [Nat.lt_one_iff.1 h]
    rfl
  | succ n ih =>
    have hdiv : value / 256 < 256 ^ n := by
      rw [Nat.pow_succ] at h
      omega
    have hbyte : (UInt8.ofNat (value % 256)).toNat = value % 256 := by
      rw [UInt8.toNat_ofNat']
      omega
    rw [bytes, number_cons, ih hdiv, hbyte]
    omega

/-- What stands at an offset is read there. -/
theorem readAt_append (hmid : mid.length = n) : readAt (as ++ (mid ++ bs)) as.length n = number mid := by
  rw [readAt, List.drop_left, List.take_left' hmid]

/-- A number that is written is read back. -/
theorem readAt_bytes (h : value < 256 ^ n) :
    readAt (as ++ (bytes value n ++ bs)) as.length n = value := by
  rw [readAt_append (length_bytes value n), number_bytes h]

/-- A number inside a part is read from that part. -/
theorem readAt_inside {k : Nat} (h : k + n ≤ mid.length) :
    readAt (as ++ (mid ++ bs)) (as.length + k) n = readAt mid k n := by
  rw [readAt, readAt, List.drop_length_add_append, List.drop_append_of_le_length (by omega),
    List.take_append_of_le_length]
  rw [List.length_drop]
  omega

/-- A number behind a part is read from what stands there. -/
theorem readAt_back (as bs : List UInt8) (k n : Nat) :
    readAt (as ++ bs) (as.length + k) n = readAt bs k n := by
  rw [readAt, readAt, List.drop_length_add_append]

/-- What is read in front stands there whatever follows. -/
theorem readAt_front {offset : Nat} (hlen : offset + n ≤ as.length) (h : readAt as offset n = value) :
    readAt (as ++ bs) offset n = value := by
  rw [← h, readAt, readAt, List.drop_append_of_le_length (by omega), List.take_append_of_le_length]
  rw [List.length_drop]
  omega

/-- Numbers one after another, each with its width. -/
def fields (fs : List (Nat × Nat)) : List UInt8 := fs.flatMap fun f => bytes f.1 f.2

theorem length_fields (fs : List (Nat × Nat)) : (fields fs).length = (fs.map (·.2)).sum := by
  induction fs with
  | nil => rfl
  | cons f fs ih =>
    have hcons : fields (f :: fs) = bytes f.1 f.2 ++ fields fs := List.flatMap_cons
    rw [hcons, List.length_append, length_bytes, ih, List.map_cons, List.sum_cons]

/-- Every number is read behind the numbers before it. -/
theorem readAt_fields {fs : List (Nat × Nat)} {offset : Nat} (k : Nat) (hk : fs[k]? = some (value, n))
    (hoffset : ((fs.take k).map (·.2)).sum = offset) (h : value < 256 ^ n) :
    readAt (fields fs) offset n = value := by
  obtain ⟨hlt, hget⟩ := List.getElem?_eq_some_iff.1 hk
  have hfs : fs = fs.take k ++ (value, n) :: fs.drop (k + 1) := by
    rw [← hget, ← List.drop_eq_getElem_cons hlt, List.take_append_drop]
  have hsplit : fields fs = fields (fs.take k) ++ (bytes value n ++ fields (fs.drop (k + 1))) := by
    conv_lhs => rw [hfs, fields, List.flatMap_append, List.flatMap_cons]
    rfl
  rw [hsplit, ← hoffset, ← length_fields, readAt_bytes h]

end LittleEndian
