import Mathlib.Data.List.Basic
import Mathlib.Data.List.Nodup
import Mathlib.Data.List.Range

/-! A list read page by page.

A reader asks for windows of one size at offsets of its own. If the list has no
duplicates and the reader asks for as many windows as the list needs, their concatenation
is the list exactly when the offsets are the multiples of the size (`flatten_windows_iff`). -/
namespace Pages
variable {α : Type}

/-- The `size` elements from an offset on. -/
def window (l : List α) (offset size : Nat) : List α := (l.drop offset).take size

/-- How many windows the list needs. -/
def count (l : List α) (size : Nat) : Nat := (l.length + size - 1) / size

theorem lt_count_iff {l : List α} {size k : Nat} (hsize : 0 < size) : k < count l size ↔ k * size < l.length := by
  unfold count
  rw [← Nat.succ_le_iff, Nat.le_div_iff_mul_le hsize, Nat.succ_mul]
  omega

theorem length_le_count_mul {l : List α} {size : Nat} (hsize : 0 < size) : l.length ≤ count l size * size := by
  have h := (lt_count_iff (l := l) (k := count l size) hsize).not.mp (Nat.lt_irrefl _)
  omega

/-- The windows at the multiples of the size are the list's beginning. -/
theorem flatten_windows (l : List α) (size n : Nat) :
    ((List.range n).map fun k => window l (k * size) size).flatten = l.take (n * size) := by
  induction n with
  | zero => simp
  | succ n ih =>
    rw [List.range_succ, List.map_append, List.flatten_append, ih, Nat.succ_mul, List.take_add]
    simp [window]

/-- Every element is in one of the windows. -/
theorem exists_mem_window {l : List α} {size : Nat} (hsize : 0 < size) {a : α} (ha : a ∈ l) :
    ∃ k < count l size, a ∈ window l (k * size) size := by
  have hall := flatten_windows l size (count l size)
  rw [List.take_of_length_le (length_le_count_mul hsize)] at hall
  rw [← hall] at ha
  simpa using ha

theorem length_flatten_windows_le (l : List α) (size n : Nat) (offset : Nat → Nat) :
    ((List.range n).map fun k => window l (offset k) size).flatten.length ≤ n * size := by
  induction n with
  | zero => simp
  | succ n ih =>
    rw [List.range_succ, List.map_append, List.flatten_append, List.length_append, Nat.succ_mul]
    have hlast : (window l (offset n) size).length ≤ size := List.length_take_le _ _
    simpa using Nat.add_le_add ih hlast

theorem window_head? (l : List α) {offset size : Nat} (hsize : 0 < size) :
    (window l offset size).head? = l[offset]? := by
  unfold window
  rw [List.head?_take, if_neg (by omega), List.head?_drop]

theorem flatten_windows_iff {l : List α} (hnodup : l.Nodup) {size : Nat} (hsize : 0 < size) (offset : Nat → Nat) :
    ((List.range (count l size)).map fun k => window l (offset k) size).flatten = l ↔
      ∀ k < count l size, offset k = k * size := by
  constructor
  · intro h k
    induction k using Nat.strong_induction_on with
    | _ k ih =>
      intro hk
      have hlt := (lt_count_iff hsize).mp hk
      obtain ⟨m, hm⟩ : ∃ m, count l size = k + (m + 1) := ⟨count l size - k - 1, by omega⟩
      -- the windows before are right, so this one begins where they end
      have hbefore : ((List.range k).map fun i => window l (offset i) size).flatten = l.take (k * size) := by
        rw [← flatten_windows]
        congr 1
        refine List.map_congr_left fun i hi => ?_
        have hik := List.mem_range.mp hi
        rw [ih i hik (by omega)]
      rw [hm, List.range_add, List.map_append, List.flatten_append, hbefore, List.range_succ_eq_map] at h
      have hdrop : window l (offset k) size ++
          ((List.range m).map fun i => window l (offset (k + (i + 1))) size).flatten = l.drop (k * size) := by
        have hsplit := h.trans (List.take_append_drop (k * size) l).symm
        simpa [Function.comp_def] using List.append_cancel_left hsplit
      -- and the windows after are too few for the rest of the list
      have hafter := length_flatten_windows_le l size m fun i => offset (k + (i + 1))
      have hrest : k * size + m * size < l.length := by
        rw [← Nat.add_mul]
        exact (lt_count_iff hsize).mp (by omega)
      have hne : window l (offset k) size ≠ [] := by
        intro hnil
        have hlength := congrArg List.length hdrop
        rw [hnil, List.nil_append, List.length_drop] at hlength
        omega
      have hhead : l[offset k]? = l[k * size]? := by
        rw [← window_head? l hsize, ← List.head?_drop, ← hdrop, List.head?_append_of_ne_nil _ hne]
      exact ((List.getElem?_inj hlt hnodup).mp hhead.symm).symm
  · intro h
    have hwindows : ((List.range (count l size)).map fun k => window l (offset k) size) =
        (List.range (count l size)).map fun k => window l (k * size) size := by
      refine List.map_congr_left fun k hk => ?_
      rw [h k (List.mem_range.mp hk)]
    rw [hwindows, flatten_windows, List.take_of_length_le (length_le_count_mul hsize)]

end Pages
