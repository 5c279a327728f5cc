import Mathlib.Tactic.Common

/-!
# Lists in pages

A list cut into pages of one size, and page by page overwritten. In which order that
happens, and how often, does not show.
-/

namespace OtaUpdater.Lib.Paged

variable {α : Type} {n : Nat}

def pageAt (n : Nat) (xs : List α) (i : Nat) : List α := (xs.drop (i * n)).take n

def overwrite (xs : List α) (start : Nat) (ys : List α) : List α :=
  xs.take start ++ ys ++ xs.drop (start + ys.length)

/-! ## One position -/

theorem getElem?_pageAt (xs : List α) (i k : Nat) :
    (pageAt n xs i)[k]? = if k < n then xs[i * n + k]? else none := by
  unfold pageAt
  rw [List.getElem?_take, List.getElem?_drop]

theorem getElem?_overwrite (xs ys : List α) (start k : Nat) (h : start ≤ xs.length) :
    (overwrite xs start ys)[k]? =
      if start ≤ k ∧ k < start + ys.length then ys[k - start]? else xs[k]? := by
  have hfront : (xs.take start).length = start := List.length_take_of_le h
  unfold overwrite
  rcases Nat.lt_or_ge k start with hlt | hge
  · rw [if_neg (by omega), List.append_assoc, List.getElem?_append_left (by omega),
      List.getElem?_take, if_pos hlt]
  rcases Nat.lt_or_ge k (start + ys.length) with hin | hout
  · rw [if_pos ⟨hge, hin⟩, List.append_assoc, List.getElem?_append_right (by omega), hfront,
      List.getElem?_append_left (by omega)]
  · have hskip : start + ys.length + (k - (start + ys.length)) = k := by omega
    rw [if_neg (by omega), List.getElem?_append_right (by rw [List.length_append]; omega),
      List.length_append, hfront, List.getElem?_drop, hskip]

theorem length_overwrite (xs ys : List α) (start : Nat) (h : start + ys.length ≤ xs.length) :
    (overwrite xs start ys).length = xs.length := by
  unfold overwrite
  simp only [List.length_append, List.length_take, List.length_drop]
  omega

/-! ## Pages -/

theorem pageAt_overwrite_self (xs ys : List α) (i : Nat) (hys : ys.length = n)
    (h : i * n ≤ xs.length) : pageAt n (overwrite xs (i * n) ys) i = ys := by
  apply List.ext_getElem?
  intro k
  rw [getElem?_pageAt, getElem?_overwrite _ _ _ _ h]
  rcases Nat.lt_or_ge k n with hlt | hge
  · rw [if_pos hlt, if_pos (by omega), Nat.add_sub_cancel_left]
  · rw [if_neg (by omega), List.getElem?_eq_none (by omega)]

theorem pageAt_overwrite_of_ne (xs ys : List α) (i j : Nat) (hys : ys.length = n)
    (h : i * n ≤ xs.length) (hne : i ≠ j) :
    pageAt n (overwrite xs (i * n) ys) j = pageAt n xs j := by
  apply List.ext_getElem?
  intro k
  rw [getElem?_pageAt, getElem?_pageAt, getElem?_overwrite _ _ _ _ h]
  rcases Nat.lt_or_ge k n with hlt | hge
  · have hapart : i * n + n ≤ j * n ∨ j * n + n ≤ i * n := by
      rw [← Nat.succ_mul, ← Nat.succ_mul]
      rcases Nat.lt_or_gt_of_ne hne with hij | hji
      · exact Or.inl (Nat.mul_le_mul_right n hij)
      · exact Or.inr (Nat.mul_le_mul_right n hji)
    rw [if_pos hlt, if_pos hlt, if_neg (by omega)]
  · rw [if_neg (by omega), if_neg (by omega)]

theorem flatMap_pageAt (xs : List α) (k : Nat) :
    (List.range k).flatMap (pageAt n xs) = xs.take (k * n) := by
  induction k with
  | zero => simp
  | succ k ih =>
    rw [List.range_succ, List.flatMap_append, ih, List.flatMap_singleton, pageAt, Nat.add_mul,
      Nat.one_mul, List.take_add]

theorem eq_of_pages {xs ys : List α} {k : Nat} (hx : xs.length = k * n) (hy : ys.length = k * n)
    (h : ∀ i < k, pageAt n xs i = pageAt n ys i) : xs = ys := by
  have hsame : (List.range k).flatMap (pageAt n xs) = (List.range k).flatMap (pageAt n ys) := by
    rw [List.flatMap_def, List.flatMap_def]
    congr 1
    apply List.map_congr_left
    intro i hi
    exact h i (List.mem_range.mp hi)
  rw [flatMap_pageAt, flatMap_pageAt, List.take_of_length_le (Nat.le_of_eq hx),
    List.take_of_length_le (Nat.le_of_eq hy)] at hsame
  exact hsame

/-! ## Many pages -/

/-- `xs` with the pages `is` of `target` in place of its own, one after the other. -/
def overwriteAll (n : Nat) (target : List α) (is : List Nat) (xs : List α) : List α :=
  is.foldl (fun xs i => overwrite xs (i * n) (pageAt n target i)) xs

/-- Any order and any repetition does, if the pages left out are right already. -/
theorem overwriteAll_eq {target xs : List α} {k : Nat} (is : List Nat) (htarget : target.length = k * n)
    (hxs : xs.length = k * n) (his : ∀ i ∈ is, i < k)
    (hrest : ∀ i < k, i ∉ is → pageAt n xs i = pageAt n target i) :
    overwriteAll n target is xs = target := by
  unfold overwriteAll
  induction is generalizing xs with
  | nil => exact eq_of_pages hxs htarget (fun i hi => hrest i hi (List.not_mem_nil))
  | cons i is ih =>
    have hi : i < k := his i List.mem_cons_self
    have hend : i * n + n ≤ k * n := by
      rw [← Nat.succ_mul]
      exact Nat.mul_le_mul_right n hi
    have hpage : (pageAt n target i).length = n := by
      unfold pageAt
      rw [List.length_take, List.length_drop]
      omega
    rw [List.foldl_cons]
    apply ih
    · rw [length_overwrite _ _ _ (by omega), hxs]
    · exact fun j hj => his j (List.mem_cons_of_mem _ hj)
    · intro j hj hnot
      rcases eq_or_ne i j with rfl | hne
      · exact pageAt_overwrite_self _ _ _ hpage (by omega)
      · rw [pageAt_overwrite_of_ne _ _ _ _ hpage (by omega) hne]
        apply hrest j hj
        rw [List.mem_cons, not_or]
        exact ⟨hne.symm, hnot⟩

end OtaUpdater.Lib.Paged
