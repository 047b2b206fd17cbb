import Mathlib.Data.List.Perm.Subperm
import Mathlib.Order.Lattice

/-!
# Reading a changing list page by page

A list is sorted by descending ranks and read one page after the other, while it changes. An
element whose rank no other has is on the page that the number of elements before it says. It is
missed only if that number drops between two pages, that is if something before it disappears.
-/
namespace Kepryx.Paging

variable {α κ ι : Type*} [LinearOrder κ] {rank : α → κ} {key : α → ι}

/-- The page `k` of `n` elements, counted from one. -/
def page (n k : ℕ) (l : List α) : List α := (l.drop ((k - 1) * n)).take n

/-- The elements that come before those of rank `x`. -/
def before (rank : α → κ) (x : κ) (l : List α) : List α := l.filter fun a => x < rank a

/-- The list is sorted by rank, has every key once, and `r` is its only element of that rank. -/
structure Alone (rank : α → κ) (key : α → ι) (r : α) (l : List α) : Prop where
  sorted : l.Pairwise fun a b => rank b ≤ rank a
  nodup : (l.map key).Nodup
  mem : r ∈ l
  unique : ∀ a ∈ l, rank a = rank r → key a = key r

/-- The place of an element is the number of elements before it, and it has no other. -/
theorem Alone.getElem?_eq_some_iff {l : List α} {r : α} (hr : Alone rank key r l) (i : ℕ) :
    l[i]? = some r ↔ i = (before rank (rank r) l).length := by
  obtain ⟨xs, ys, rfl⟩ := List.append_of_mem hr.mem
  obtain ⟨-, hys, hcross⟩ := List.pairwise_append.mp hr.sorted
  have hnodup := hr.nodup
  rw [List.map_append, List.map_cons, List.nodup_append, List.nodup_cons] at hnodup
  obtain ⟨-, ⟨hrys, -⟩, hrxs⟩ := hnodup
  have hbefore : ∀ a ∈ xs, rank r < rank a := by
    intro a ha
    refine lt_of_le_of_ne (hcross a ha r List.mem_cons_self) fun htie => ?_
    have hkey := hr.unique a (List.mem_append_left _ ha) htie.symm
    exact hrxs _ (List.mem_map_of_mem ha) _ List.mem_cons_self hkey
  have hafter : ∀ b ∈ ys, ¬ rank r < rank b := fun b hb =>
    not_lt.mpr ((List.pairwise_cons.mp hys).1 b hb)
  have hlength : (before rank (rank r) (xs ++ r :: ys)).length = xs.length := by
    rw [before, List.filter_append, List.filter_cons_of_neg (by simp),
      List.filter_eq_self.mpr fun a ha => decide_eq_true (hbefore a ha),
      List.filter_eq_nil_iff.mpr fun b hb => by simpa using hafter b hb, List.append_nil]
  rw [hlength]
  constructor
  · intro h
    rcases Nat.lt_trichotomy i xs.length with hlt | heq | hgt
    · rw [List.getElem?_append_left hlt] at h
      exact absurd (hbefore r (List.mem_of_getElem? h)) (lt_irrefl _)
    · exact heq
    · obtain ⟨j, rfl⟩ := Nat.exists_eq_add_of_lt hgt
      rw [List.getElem?_append_right (by omega),
        show xs.length + j + 1 - xs.length = j + 1 by omega, List.getElem?_cons_succ] at h
      exact absurd (List.mem_map_of_mem (List.mem_of_getElem? h)) hrys
  · rintro rfl
    rw [List.getElem?_append_right (Nat.le_refl _), Nat.sub_self, List.getElem?_cons_zero]

/-- An element is on a page if and only if its place is one of the page. -/
theorem Alone.mem_page_iff {l : List α} {r : α} (hr : Alone rank key r l) (n k : ℕ) :
    r ∈ page n k l ↔ (k - 1) * n ≤ (before rank (rank r) l).length ∧
      (before rank (rank r) l).length < (k - 1) * n + n := by
  rw [page, List.mem_iff_getElem?]
  constructor
  · rintro ⟨i, hi⟩
    rw [List.getElem?_take] at hi
    split at hi
    · rename_i hlt
      rw [List.getElem?_drop, hr.getElem?_eq_some_iff] at hi
      omega
    · cases hi
  · rintro ⟨hle, hlt⟩
    refine ⟨(before rank (rank r) l).length - (k - 1) * n, ?_⟩
    rw [List.getElem?_take, if_pos (by omega), List.getElem?_drop, hr.getElem?_eq_some_iff]
    omega

theorem Alone.before_length_lt {l : List α} {r : α} (hr : Alone rank key r l) :
    (before rank (rank r) l).length < l.length := by
  refine List.length_filter_lt_length_iff_exists.mpr ⟨r, hr.mem, ?_⟩
  simp

/-- Fewer elements come before `x` only if one of them is lost. -/
theorem exists_lost {l l' : List α} (hl : (l.map key).Nodup) {x : κ}
    (h : (before rank x l').length < (before rank x l).length) :
    ∃ a ∈ l, x < rank a ∧ ∀ b ∈ l', x < rank b → key b ≠ key a := by
  by_contra hnone
  have hsubset : (before rank x l).map key ⊆ (before rank x l').map key := by
    intro i hi
    obtain ⟨a, ha, rfl⟩ := List.mem_map.mp hi
    obtain ⟨ha, hrank⟩ := List.mem_filter.mp ha
    by_contra hlost
    refine hnone ⟨a, ha, of_decide_eq_true hrank, fun b hb hrankb hkey => hlost ?_⟩
    exact List.mem_map.mpr ⟨b, List.mem_filter.mpr ⟨hb, decide_eq_true hrankb⟩, hkey⟩
  have hnodup : ((before rank x l).map key).Nodup := (List.filter_sublist.map key).nodup hl
  have hlength := (hnodup.subperm hsubset).length_le
  rw [List.length_map, List.length_map] at hlength
  exact absurd hlength (Nat.not_le.mpr h)

section Reader
variable {L : ℕ → List α} {r : ℕ → α} {n m : ℕ} {x : κ}

/-- If no element before `r` is lost between two pages, a reader who stops at a page that is not
full has seen `r`. -/
theorem exists_page (hm : 1 ≤ m) (hr : ∀ k, 1 ≤ k → k ≤ m → Alone rank key (r k) (L k))
    (hrank : ∀ k, 1 ≤ k → k ≤ m → rank (r k) = x)
    (hkept : ∀ k, 1 ≤ k → k < m → (before rank x (L k)).length ≤ (before rank x (L (k + 1))).length)
    (hshort : (page n m (L m)).length < n) : ∃ k, 1 ≤ k ∧ k ≤ m ∧ r k ∈ page n k (L k) := by
  by_contra hnone
  have hmissed : ∀ k, 1 ≤ k → k ≤ m → r k ∉ page n k (L k) := fun k hk hkm hmem =>
    hnone ⟨k, hk, hkm, hmem⟩
  have hfar : ∀ j, j < m → (j + 1) * n ≤ (before rank x (L (j + 1))).length := by
    intro j
    induction j with
    | zero =>
      intro hj
      have hnot := hmissed 1 (Nat.le_refl 1) hm
      rw [(hr 1 (Nat.le_refl 1) hm).mem_page_iff, hrank 1 (Nat.le_refl 1) hm] at hnot
      simp only [Nat.sub_self, Nat.zero_mul, Nat.zero_le, true_and, Nat.zero_add] at hnot
      rw [Nat.zero_add, Nat.one_mul]
      omega
    | succ j ih =>
      intro hj
      have hprev := Nat.le_trans (ih (by omega)) (hkept (j + 1) (by omega) hj)
      have hnot := hmissed (j + 1 + 1) (by omega) hj
      rw [(hr (j + 1 + 1) (by omega) hj).mem_page_iff, hrank (j + 1 + 1) (by omega) hj,
        Nat.add_sub_cancel] at hnot
      have hsucc : (j + 1 + 1) * n = (j + 1) * n + n := Nat.succ_mul (j + 1) n
      omega
  obtain ⟨j, rfl⟩ : ∃ j, m = j + 1 := ⟨m - 1, by omega⟩
  have hlast := hfar j (Nat.lt_succ_self j)
  have hlength := (hr (j + 1) hm (Nat.le_refl _)).before_length_lt
  rw [hrank (j + 1) hm (Nat.le_refl _)] at hlength
  have hsucc : (j + 1) * n = j * n + n := Nat.succ_mul j n
  rw [page, List.length_take, List.length_drop, Nat.add_sub_cancel] at hshort
  omega

/-- What is missed by a reader who stops at a page that is not full: something before it was lost
between two pages. -/
theorem lost_of_missed (hm : 1 ≤ m) (hr : ∀ k, 1 ≤ k → k ≤ m → Alone rank key (r k) (L k))
    (hrank : ∀ k, 1 ≤ k → k ≤ m → rank (r k) = x) (hshort : (page n m (L m)).length < n)
    (hmissed : ∀ k, 1 ≤ k → k ≤ m → r k ∉ page n k (L k)) :
    ∃ k, 1 ≤ k ∧ k < m ∧
      ∃ a ∈ L k, x < rank a ∧ ∀ b ∈ L (k + 1), x < rank b → key b ≠ key a := by
  by_contra hnone
  have hkept : ∀ k, 1 ≤ k → k < m →
      (before rank x (L k)).length ≤ (before rank x (L (k + 1))).length := by
    intro k hk hkm
    by_contra hdrop
    exact hnone ⟨k, hk, hkm, exists_lost (hr k hk (by omega)).nodup (Nat.lt_of_not_le hdrop)⟩
  obtain ⟨k, hk, hkm, hmem⟩ := exists_page hm hr hrank hkept hshort
  exact hmissed k hk hkm hmem

end Reader

end Kepryx.Paging
