import Mathlib

/-!
# Bytes and words in memory

A memory is a byte for every address. A range of it is filled, or copied from another range; both can be done piece by piece, a copy from the low end wherever the pieces that are still to be read are not yet written. Words are loaded and stored byte by byte, in either order of the bytes.
-/

namespace ByteMemory

variable {mem mem' : Nat → UInt8} {a b dst src n k v i : Nat} {c : UInt8} {big : Bool} {l : List UInt8}

/-- The bytes of `l` lie from `a` on. -/
def overlay (mem : Nat → UInt8) (a : Nat) (l : List UInt8) : Nat → UInt8 :=
  fun i => if a ≤ i ∧ i < a + l.length then l.getD (i - a) 0 else mem i

def fill (mem : Nat → UInt8) (a n : Nat) (c : UInt8) : Nat → UInt8 := fun i => if a ≤ i ∧ i < a + n then c else mem i

def copy (mem : Nat → UInt8) (dst src n : Nat) : Nat → UInt8 := fun i => if dst ≤ i ∧ i < dst + n then mem (src + (i - dst)) else mem i

/-! ## Words -/

def wordBytes : Nat → Nat → List UInt8
  | 0, _ => []
  | n + 1, v => UInt8.ofNat v :: wordBytes n (v / 256)

def bytesWord : List UInt8 → Nat
  | [] => 0
  | c :: l => c.toNat + 256 * bytesWord l

def inOrder (big : Bool) (l : List UInt8) : List UInt8 := if big then l.reverse else l

def store (big : Bool) (n : Nat) (mem : Nat → UInt8) (a v : Nat) : Nat → UInt8 := overlay mem a (inOrder big (wordBytes n v))

def load (big : Bool) (n : Nat) (mem : Nat → UInt8) (a : Nat) : Nat := bytesWord (inOrder big ((List.range n).map fun i => mem (a + i)))

@[simp]
theorem length_wordBytes (n v : Nat) : (wordBytes n v).length = n := by
  induction n generalizing v with
  | zero => rfl
  | succ n ih => rw [wordBytes, List.length_cons, ih]

@[simp]
theorem length_inOrder : (inOrder big l).length = l.length := by
  cases big
  · rfl
  · exact List.length_reverse

theorem inOrder_inOrder : inOrder big (inOrder big l) = l := by
  cases big
  · rfl
  · exact List.reverse_reverse l

theorem bytesWord_wordBytes (hv : v < 256 ^ n) : bytesWord (wordBytes n v) = v := by
  induction n generalizing v with
  | zero =>
    have hzero : v = 0 := by omega
    rw [hzero]
    rfl
  | succ n ih =>
    have hdiv : v / 256 < 256 ^ n := by
      apply Nat.div_lt_of_lt_mul
      rwa [Nat.pow_succ, Nat.mul_comm] at hv
    rw [wordBytes, bytesWord, ih hdiv, UInt8.toNat_ofNat']
    omega

theorem wordBytes_bytesWord (l : List UInt8) : wordBytes l.length (bytesWord l) = l := by
  induction l with
  | nil => rfl
  | cons c l ih =>
    have hc := c.toNat_lt
    have hlow : UInt8.ofNat (c.toNat + 256 * bytesWord l) = c := by
      apply UInt8.toNat_inj.mp
      rw [UInt8.toNat_ofNat']
      omega
    have hhigh : (c.toNat + 256 * bytesWord l) / 256 = bytesWord l := by omega
    rw [bytesWord, List.length_cons, wordBytes, hlow, hhigh, ih]

/-! ## Ranges -/

theorem overlay_inside (hi : i < l.length) : overlay mem a l (a + i) = l.getD i 0 := by
  rw [overlay, if_pos ⟨Nat.le_add_right a i, by omega⟩, Nat.add_sub_cancel_left]

theorem overlay_outside (h : i < a ∨ a + l.length ≤ i) : overlay mem a l i = mem i := by
  rw [overlay, if_neg (by omega)]

theorem map_overlay (a : Nat) (l : List UInt8) : (List.range l.length).map (fun i => overlay mem a l (a + i)) = l := by
  apply List.ext_getElem
  · simp
  · intro i hi hi'
    rw [List.getElem_map, List.getElem_range, overlay_inside hi', List.getD_eq_getElem _ _ hi']

theorem load_store (hv : v < 256 ^ n) : load big n (store big n mem a v) a = v := by
  have hrange : (List.range (inOrder big (wordBytes n v)).length).map (fun i => overlay mem a (inOrder big (wordBytes n v)) (a + i)) =
      inOrder big (wordBytes n v) := map_overlay a _
  rw [length_inOrder, length_wordBytes] at hrange
  rw [load, store, hrange, inOrder_inOrder, bytesWord_wordBytes hv]

theorem load_congr (h : ∀ i, a ≤ i → i < a + n → mem i = mem' i) : load big n mem a = load big n mem' a := by
  have hbytes : ((List.range n).map fun i => mem (a + i)) = (List.range n).map fun i => mem' (a + i) := by
    apply List.map_congr_left
    intro i hi
    have hin := List.mem_range.mp hi
    exact h (a + i) (Nat.le_add_right a i) (by omega)
  rw [load, load, hbytes]

theorem store_load (big : Bool) (n : Nat) (mem : Nat → UInt8) (dst src : Nat) :
    store big n mem dst (load big n mem src) = copy mem dst src n := by
  have hlength : ((List.range n).map fun i => mem (src + i)).length = n := by rw [List.length_map, List.length_range]
  have hbytes : inOrder big (wordBytes n (load big n mem src)) = (List.range n).map fun i => mem (src + i) := by
    have hround := wordBytes_bytesWord (inOrder big ((List.range n).map fun i => mem (src + i)))
    rw [length_inOrder, hlength] at hround
    rw [load, hround, inOrder_inOrder]
  funext i
  rw [store, hbytes, overlay, copy, hlength]
  by_cases hin : dst ≤ i ∧ i < dst + n
  · have hlt : i - dst < ((List.range n).map fun i => mem (src + i)).length := by
      rw [hlength]
      omega
    rw [if_pos hin, if_pos hin, List.getD_eq_getElem _ _ hlt, List.getElem_map, List.getElem_range]
  · rw [if_neg hin, if_neg hin]

theorem store_fill (h : wordBytes n v = List.replicate n c) : store big n mem a v = fill mem a n c := by
  have hbytes : inOrder big (wordBytes n v) = List.replicate n c := by
    rw [h]
    cases big
    · rfl
    · exact List.reverse_replicate
  funext i
  rw [store, hbytes, overlay, fill, List.length_replicate]
  by_cases hin : a ≤ i ∧ i < a + n
  · have hlt : i - a < (List.replicate n c).length := by
      rw [List.length_replicate]
      omega
    rw [if_pos hin, if_pos hin, List.getD_eq_getElem _ _ hlt, List.getElem_replicate]
  · rw [if_neg hin, if_neg hin]

theorem fill_zero : fill mem a 0 c = mem := by
  funext i
  rw [fill, if_neg (by omega)]

theorem copy_zero : copy mem dst src 0 = mem := by
  funext i
  rw [copy, if_neg (by omega)]

theorem fill_add (mem : Nat → UInt8) (a n k : Nat) (c : UInt8) : fill (fill mem a n c) (a + n) k c = fill mem a (n + k) c := by
  funext i
  simp only [fill]
  split_ifs <;> first | rfl | omega

/-- The bytes from `src` on can be copied from the low end: none of them lies behind `dst` in the range. -/
def Forward (dst src n : Nat) : Prop := ¬(src < dst ∧ dst < src + n)

theorem Forward.left (h : Forward dst src (n + k)) : Forward dst src n := by
  unfold Forward at h ⊢
  omega

theorem Forward.right (h : Forward dst src (n + k)) : Forward (dst + n) (src + n) k := by
  unfold Forward at h ⊢
  omega

theorem copy_add (h : Forward dst src (n + k)) : copy (copy mem dst src n) (dst + n) (src + n) k = copy mem dst src (n + k) := by
  unfold Forward at h
  funext i
  by_cases hhigh : dst + n ≤ i ∧ i < dst + n + k
  · have hsource : src + n + (i - (dst + n)) = src + (i - dst) := by omega
    have hunread : ¬(dst ≤ src + (i - dst) ∧ src + (i - dst) < dst + n) := by omega
    have hin : dst ≤ i ∧ i < dst + (n + k) := by omega
    simp only [copy]
    rw [if_pos hhigh, hsource, if_neg hunread, if_pos hin]
  · simp only [copy]
    rw [if_neg hhigh]
    by_cases hlow : dst ≤ i ∧ i < dst + n
    · rw [if_pos hlow, if_pos (by omega)]
    · rw [if_neg hlow, if_neg (by omega)]

theorem copy_add_high (h : src < dst) : copy (copy mem (dst + n) (src + n) k) dst src n = copy mem dst src (n + k) := by
  funext i
  by_cases hlow : dst ≤ i ∧ i < dst + n
  · have hunread : ¬(dst + n ≤ src + (i - dst) ∧ src + (i - dst) < dst + n + k) := by omega
    simp only [copy]
    rw [if_pos hlow, if_neg hunread, if_pos (by omega)]
  · simp only [copy]
    rw [if_neg hlow]
    by_cases hhigh : dst + n ≤ i ∧ i < dst + n + k
    · rw [if_pos hhigh, if_pos (by omega), show src + n + (i - (dst + n)) = src + (i - dst) by omega]
    · rw [if_neg hhigh, if_neg (by omega)]

end ByteMemory
