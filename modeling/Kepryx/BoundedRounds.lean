import Mathlib.Data.List.Basic
import Mathlib.Data.List.Count
import Mathlib.Tactic.Cases

/-!
# Rounds with a bounded number of places

Every round serves the first listed items of a fixed list, as many as there are places. An item
may be listed again after it was served, and then takes a place from those behind it.
-/
namespace Kepryx.BoundedRounds
variable {σ κ : Type*} (listed : ℕ → σ → Bool) (serve : ℕ → σ → σ)

/-- What becomes of an item that the round `s` has a place for. -/
def visit (s : ℕ) (x : σ) : σ := if listed s x then serve s x else x

/-- The round `s` with `c` places. -/
def round (s : ℕ) : ℕ → List σ → List σ
  | _, [] => []
  | 0, xs => xs
  | c + 1, x :: xs => if listed s x then serve s x :: round s c xs else x :: round s (c + 1) xs

/-- The rounds from `s` on, with `n` places each. -/
def rounds (n : ℕ) : ℕ → ℕ → List σ → List σ
  | 0, _, xs => xs
  | k + 1, s, xs => rounds n k (s + 1) (round listed serve s n xs)

/-- The groups are served in the rounds from `s` on, while the items in front of them, served
before, may be listed again: a group is still listed in its round, and only the last group
leaves places empty. -/
def Scheduled (n : ℕ) : ℕ → List σ → List (List σ) → Prop
  | _, _, [] => True
  | s, done, g :: gs =>
    (∀ x ∈ g, listed 0 x → listed s x) ∧
    (done ++ g).countP (listed s) ≤ n ∧
    (gs ≠ [] → (done ++ g).countP (listed s) = n) ∧
    Scheduled n (s + 1) ((done ++ g).map (visit listed serve s)) gs

variable {listed serve}

/-! ## One round -/

@[simp] theorem round_nil (s c : ℕ) : round listed serve s c [] = [] := by cases c <;> rfl

@[simp] theorem round_zero (s : ℕ) (xs : List σ) : round listed serve s 0 xs = xs := by
  cases xs <;> rfl

theorem round_eq_self {s : ℕ} (c : ℕ) {xs : List σ} (h : ∀ x ∈ xs, listed s x = false) :
    round listed serve s c xs = xs := by
  induction xs with
  | nil => exact round_nil s c
  | cons x xs ih =>
    cases c with
    | zero => rfl
    | succ c =>
      rw [round, if_neg (by simp [h x]), ih fun y hy => h y (List.mem_cons_of_mem x hy)]

/-- Items that have a place leave the rest to those behind them. -/
theorem round_append {s c : ℕ} {xs : List σ} (h : xs.countP (listed s) ≤ c) (ys : List σ) :
    round listed serve s c (xs ++ ys) =
      xs.map (visit listed serve s) ++ round listed serve s (c - xs.countP (listed s)) ys := by
  induction xs generalizing c with
  | nil => rfl
  | cons x xs ih =>
    cases hx : listed s x with
    | true =>
      rw [List.countP_cons_of_pos hx] at h ⊢
      obtain ⟨c, rfl⟩ : ∃ d, c = d + 1 := ⟨c - 1, by omega⟩
      rw [List.cons_append, round, if_pos hx, ih (by omega), List.map_cons, visit, if_pos hx,
        Nat.add_sub_add_right, List.cons_append]
    | false =>
      have hnot : ¬ listed s x = true := by simp [hx]
      rw [List.countP_cons_of_neg hnot] at h ⊢
      cases c with
      | zero =>
        have hnone : ∀ y ∈ xs, ¬ listed s y = true := List.countP_eq_zero.mp (by omega)
        have hsame : xs.map (visit listed serve s) = xs :=
          (List.map_congr_left fun y hy => if_neg (hnone y hy)).trans (List.map_id _)
        rw [round_zero, List.map_cons, hsame, visit, if_neg hnot, Nat.zero_sub, round_zero]
      | succ c => rw [List.cons_append, round, if_neg hnot, ih h, List.map_cons, visit, if_neg hnot,
          List.cons_append]

/-- Without enough places the round does not get past the first items. -/
theorem round_append_of_le {s c : ℕ} {xs : List σ} (h : c ≤ xs.countP (listed s)) (ys : List σ) :
    round listed serve s c (xs ++ ys) = round listed serve s c xs ++ ys := by
  induction xs generalizing c with
  | nil =>
    obtain rfl : c = 0 := by simpa using h
    rw [round_zero, round_zero]
  | cons x xs ih =>
    cases c with
    | zero => rw [round_zero, round_zero]
    | succ c =>
      cases hx : listed s x with
      | true =>
        rw [List.countP_cons_of_pos hx] at h
        rw [List.cons_append, round, if_pos hx, round, if_pos hx, ih (by omega), List.cons_append]
      | false =>
        have hnot : ¬ listed s x = true := by simp [hx]
        rw [List.countP_cons_of_neg hnot] at h
        rw [List.cons_append, round, if_neg hnot, round, if_neg hnot, ih h, List.cons_append]

/-- With distinct keys, a round serves exactly the first listed items. -/
theorem round_eq_map [DecidableEq κ] (key : σ → κ) (s c : ℕ) {xs : List σ}
    (h : (xs.map key).Nodup) : round listed serve s c xs =
      xs.map fun x =>
        if key x ∈ ((xs.filter (listed s)).take c).map key then serve s x else x := by
  induction xs generalizing c with
  | nil => exact round_nil s c
  | cons x xs ih =>
    obtain ⟨hx, hnodup⟩ := List.nodup_cons.mp h
    have hkey : ∀ d, key x ∉ ((xs.filter (listed s)).take d).map key := by
      intro d hmem
      obtain ⟨y, hy, heq⟩ := List.mem_map.mp hmem
      exact hx (List.mem_map.mpr ⟨y, List.mem_of_mem_filter (List.mem_of_mem_take hy), heq⟩)
    cases c with
    | zero => simp
    | succ c =>
      cases hlisted : listed s x with
      | true =>
        rw [round, if_pos hlisted, ih c hnodup, List.filter_cons_of_pos hlisted,
          List.take_succ_cons, List.map_cons, List.map_cons, if_pos List.mem_cons_self]
        refine congrArg _ (List.map_congr_left fun y hy => ?_)
        have hne : key y ≠ key x := fun heq => hx (heq ▸ List.mem_map_of_mem hy)
        simp only [List.mem_cons, hne, false_or]
      | false =>
        have hnot : ¬ listed s x = true := by simp [hlisted]
        rw [round, if_neg hnot, ih (c + 1) hnodup, List.filter_cons_of_neg hnot, List.map_cons,
          if_neg (hkey _)]

/-- What serving keeps, rounds keep. -/
theorem map_rounds {β : Type*} {f : σ → β} (h : ∀ s x, f (serve s x) = f x) (n k s : ℕ)
    (xs : List σ) : (rounds listed serve n k s xs).map f = xs.map f := by
  have hround : ∀ (s c : ℕ) (xs : List σ), (round listed serve s c xs).map f = xs.map f := by
    intro s c xs
    induction xs generalizing c with
    | nil => rw [round_nil]
    | cons x xs ih =>
      cases c with
      | zero => rfl
      | succ c =>
        rw [round]
        split
        · rw [List.map_cons, List.map_cons, h, ih]
        · rw [List.map_cons, List.map_cons, ih]
  induction k generalizing s xs with
  | zero => rfl
  | succ k ih => rw [rounds, ih, hround]

/-- One more round at the end. -/
theorem rounds_succ (n k s : ℕ) (xs : List σ) : rounds listed serve n (k + 1) s xs =
    round listed serve (s + k) n (rounds listed serve n k s xs) := by
  induction k generalizing s xs with
  | zero => rfl
  | succ k ih => rw [rounds, ih, rounds, Nat.add_right_comm, Nat.add_assoc]

/-- As long as the items in front take every place, those behind them get none. -/
theorem rounds_append_of_full {n : ℕ} {P : σ → Prop} (hlisted : ∀ s x, P x → listed s x)
    (hserve : ∀ s x, P x → P (serve s x)) (k s : ℕ) {front : List σ} (hfront : ∀ x ∈ front, P x)
    (hn : n ≤ front.length) (back : List σ) :
    rounds listed serve n k s (front ++ back) = rounds listed serve n k s front ++ back := by
  induction k generalizing s front with
  | zero => rfl
  | succ k ih =>
    have hall : front.countP (listed s) = front.length :=
      List.countP_eq_length.mpr fun x hx => hlisted s x (hfront x hx)
    have hround : ∀ (c : ℕ) (xs : List σ), (∀ x ∈ xs, P x) →
        (∀ x ∈ round listed serve s c xs, P x) ∧
          (round listed serve s c xs).length = xs.length := by
      intro c xs hxs
      induction xs generalizing c with
      | nil => rw [round_nil]; exact ⟨hxs, rfl⟩
      | cons x xs ihxs =>
        obtain ⟨hx, hxs'⟩ := List.forall_mem_cons.mp hxs
        cases c with
        | zero => exact ⟨hxs, rfl⟩
        | succ c =>
          rw [round, if_pos (hlisted s x hx)]
          obtain ⟨hP, hlength⟩ := ihxs c hxs'
          exact ⟨List.forall_mem_cons.mpr ⟨hserve s x hx, hP⟩,
            by rw [List.length_cons, List.length_cons, hlength]⟩
    obtain ⟨hP, hlength⟩ := hround n front hfront
    rw [rounds, rounds, round_append_of_le (hall ▸ hn), ih (s + 1) hP (hlength ▸ hn)]

/-! ## Who is served at all -/

section Waiting
variable {waiting : σ → Bool}

/-- At most as many items stop waiting as the round has places. -/
theorem countP_round (s c : ℕ) (xs : List σ) :
    xs.countP waiting ≤ (round listed serve s c xs).countP waiting + c := by
  induction xs generalizing c with
  | nil => simp
  | cons x xs ih =>
    cases c with
    | zero => simp
    | succ c =>
      have hserved := ih c
      have hpassed := ih (c + 1)
      rw [round]
      split
      · rw [List.countP_cons, List.countP_cons]
        split <;> split <;> omega
      · rw [List.countP_cons, List.countP_cons]
        omega

theorem countP_rounds (n k s : ℕ) (xs : List σ) :
    xs.countP waiting ≤ (rounds listed serve n k s xs).countP waiting + n * k := by
  induction k generalizing s xs with
  | zero => simp [rounds]
  | succ k ih =>
    have hround : xs.countP waiting ≤ (round listed serve s n xs).countP waiting + n :=
      countP_round s n xs
    have hrest := ih (s + 1) (round listed serve s n xs)
    rw [rounds, Nat.mul_succ]
    omega

/-- Serving an item ends its waiting, and an item that is not served is listed no longer than
before. -/
structure Rules (listed : ℕ → σ → Bool) (serve : ℕ → σ → σ) (waiting : σ → Bool) : Prop where
  served : ∀ s x, waiting (serve s x) = false
  fading : ∀ s x, listed (s + 1) x → listed s x

variable {n s : ℕ} {done rest : List σ} {gs : List (List σ)}

theorem Rules.listed_zero (hrules : Rules listed serve waiting) {s : ℕ} {x : σ}
    (h : listed s x) : listed 0 x := by
  induction s with
  | zero => exact h
  | succ s ih => exact ih (hrules.fading s x h)

theorem Rules.waiting_visit (hrules : Rules listed serve waiting) {x : σ}
    (h : waiting x → listed s x) : waiting (visit listed serve s x) = false := by
  unfold visit
  split
  · exact hrules.served s x
  · rename_i hnot
    exact Bool.eq_false_iff.mpr fun hw => hnot (h hw)

/-- In a schedule every item is served. -/
theorem waiting_of_scheduled (hrules : Rules listed serve waiting)
    (h : Scheduled listed serve n s done gs) (hdone : ∀ x ∈ done, waiting x = false)
    (hgs : ∀ x ∈ gs.flatten, waiting x = listed 0 x)
    (hrest : ∀ x ∈ rest, waiting x = false ∧ listed 0 x = false) :
    ∀ x ∈ rounds listed serve n gs.length s (done ++ gs.flatten ++ rest), waiting x = false := by
  induction gs generalizing s done with
  | nil =>
    intro x hx
    rw [List.flatten_nil, List.append_nil] at hx
    rcases List.mem_append.mp hx with hx | hx
    · exact hdone x hx
    · exact (hrest x hx).1
  | cons g gs ih =>
    obtain ⟨hlisted, hle, hfull, hnext⟩ := h
    have hvisited : ∀ x ∈ (done ++ g).map (visit listed serve s), waiting x = false := by
      intro x hx
      obtain ⟨y, hy, rfl⟩ := List.mem_map.mp hx
      refine hrules.waiting_visit fun hw => ?_
      rcases List.mem_append.mp hy with hy | hy
      · simp [hdone y hy] at hw
      · exact hlisted y hy (by rw [← hgs y (List.mem_flatten.mpr ⟨g, List.mem_cons_self, hy⟩), hw])
    have hround : round listed serve s n (done ++ (g :: gs).flatten ++ rest) =
        (done ++ g).map (visit listed serve s) ++ gs.flatten ++ rest := by
      rw [List.flatten_cons, ← List.append_assoc done, List.append_assoc, round_append hle,
        List.append_assoc]
      cases gs with
      | nil =>
        have hnone : ∀ x ∈ rest, listed s x = false := by
          intro x hx
          refine Bool.eq_false_iff.mpr fun hl => ?_
          exact Bool.eq_false_iff.mp (hrest x hx).2 (hrules.listed_zero hl)
        rw [List.flatten_nil, List.nil_append, round_eq_self _ hnone]
      | cons g' gs => rw [hfull (List.cons_ne_nil _ _), Nat.sub_self, round_zero]
    rw [List.length_cons, rounds, hround]
    refine ih hnext hvisited fun x hx => hgs x ?_
    exact List.mem_append_right g hx

/-- An item that waits and is not listed is never served. -/
theorem waiting_of_unlisted (hrules : Rules listed serve waiting) {k : ℕ} {xs : List σ} {x : σ}
    (hx : x ∈ xs) (hnot : listed s x = false) : x ∈ rounds listed serve n k s xs := by
  induction k generalizing s xs with
  | zero => exact hx
  | succ k ih =>
    have hround : ∀ (c : ℕ) (ys : List σ), x ∈ ys → x ∈ round listed serve s c ys := by
      intro c ys hy
      induction ys generalizing c with
      | nil => cases hy
      | cons y ys ihys =>
        cases c with
        | zero => exact hy
        | succ c =>
          rw [round]
          rcases List.mem_cons.mp hy with rfl | hy
          · rw [if_neg (by simp [hnot])]
            exact List.mem_cons_self
          · split
            · exact List.mem_cons_of_mem _ (ihys c hy)
            · exact List.mem_cons_of_mem _ (ihys (c + 1) hy)
    refine ih (hround n xs hx) (Bool.eq_false_iff.mpr fun hl => ?_)
    exact absurd (hrules.fading s x hl) (by simp [hnot])

/-- A list can be cut where `c` of its items are counted. -/
theorem exists_cut {p : σ → Bool} {c : ℕ} {xs : List σ} (h : c ≤ xs.countP p) :
    ∃ g ys, xs = g ++ ys ∧ g.countP p = c := by
  induction xs generalizing c with
  | nil => exact ⟨[], [], rfl, (Nat.le_zero.mp h).symm⟩
  | cons x xs ih =>
    cases c with
    | zero => exact ⟨[], x :: xs, rfl, rfl⟩
    | succ c =>
      cases hx : p x with
      | true =>
        rw [List.countP_cons_of_pos hx] at h
        obtain ⟨g, ys, rfl, hg⟩ := ih (by omega : c ≤ xs.countP p)
        exact ⟨x :: g, ys, rfl, by rw [List.countP_cons_of_pos hx, hg]⟩
      | false =>
        have hnot : ¬ p x = true := by simp [hx]
        rw [List.countP_cons_of_neg hnot] at h
        obtain ⟨g, ys, rfl, hg⟩ := ih h
        exact ⟨x :: g, ys, rfl, by rw [List.countP_cons_of_neg hnot, hg]⟩

/-- An item that does not wait after the last round is listed as long as it waits. -/
theorem listed_of_served (hrules : Rules listed serve waiting) {k : ℕ} {xs : List σ}
    (h : ∀ x ∈ rounds listed serve n k s xs, waiting x = false) {x : σ} (hx : x ∈ xs)
    (hw : waiting x) : listed s x := by
  by_contra hnot
  have hlast := waiting_of_unlisted (n := n) (k := k) hrules hx (Bool.eq_false_iff.mpr hnot)
  exact Bool.eq_false_iff.mp (h x hlast) hw

/-- The items that were served before leave a place, if the rounds are only just enough. -/
theorem room_of_served {k : ℕ} (hk : n * (k + 1) < rest.countP waiting + n)
    (h : ∀ x ∈ rounds listed serve n (k + 1) s (done ++ rest), waiting x = false) :
    done.countP (listed s) < n := by
  by_contra hfull
  rw [Nat.mul_succ] at hk
  rw [rounds, round_append_of_le (by omega)] at h
  have hnone : (rounds listed serve n k (s + 1)
      (round listed serve s n done ++ rest)).countP waiting = 0 :=
    List.countP_eq_zero.mpr fun x hx => Bool.eq_false_iff.mp (h x hx)
  have hafter : (round listed serve s n done ++ rest).countP waiting ≤
      (rounds listed serve n k (s + 1) (round listed serve s n done ++ rest)).countP waiting +
        n * k := countP_rounds n k (s + 1) _
  rw [List.countP_append, hnone] at hafter
  omega

/-- If as few rounds as the waiting items need serve all of them, then they are scheduled. -/
theorem scheduled_of_waiting (hrules : Rules listed serve waiting) {k : ℕ}
    (hk : n * k < rest.countP waiting + n) (hdone : ∀ x ∈ done, waiting x = false)
    (hfresh : ∀ x ∈ rest, waiting x = listed 0 x)
    (h : ∀ x ∈ rounds listed serve n k s (done ++ rest), waiting x = false) :
    ∃ gs ys, rest = gs.flatten ++ ys ∧ gs.length = k ∧ (∀ y ∈ ys, waiting y = false) ∧
      Scheduled listed serve n s done gs := by
  induction k generalizing s done rest with
  | zero =>
    exact ⟨[], rest, rfl, rfl, fun y hy => h y (List.mem_append_right done hy), trivial⟩
  | succ k ih =>
    have hlisted : ∀ x ∈ rest, waiting x → listed s x := fun x hx =>
      listed_of_served hrules h (List.mem_append_right done hx)
    have hsame : ∀ x ∈ rest, waiting x ↔ listed s x := fun x hx =>
      ⟨hlisted x hx, fun hl => (hfresh x hx).trans (hrules.listed_zero hl)⟩
    have hcount : rest.countP waiting = rest.countP (listed s) := List.countP_congr hsame
    have hroom : done.countP (listed s) < n := room_of_served hk h
    rw [Nat.mul_succ] at hk
    by_cases hcut : n - done.countP (listed s) ≤ rest.countP (listed s)
    · obtain ⟨g, ys, rfl, hg⟩ := exists_cut hcut
      have hfull : (done ++ g).countP (listed s) = n := by
        rw [List.countP_append]
        omega
      have hround : round listed serve s n (done ++ (g ++ ys)) =
          (done ++ g).map (visit listed serve s) ++ ys := by
        rw [← List.append_assoc, round_append (Nat.le_of_eq hfull), hfull, Nat.sub_self, round_zero]
      have hvisited : ∀ x ∈ (done ++ g).map (visit listed serve s), waiting x = false := by
        intro x hx
        obtain ⟨y, hy, rfl⟩ := List.mem_map.mp hx
        refine hrules.waiting_visit fun hw => ?_
        rcases List.mem_append.mp hy with hy | hy
        · simp [hdone y hy] at hw
        · exact hlisted y (List.mem_append_left ys hy) hw
      have hgcount : g.countP waiting = g.countP (listed s) :=
        List.countP_congr fun x hx => hsame x (List.mem_append_left ys hx)
      rw [List.countP_append] at hk
      rw [rounds, hround] at h
      obtain ⟨gs, zs, rfl, hlength, hzs, hgs⟩ :=
        ih (by omega) hvisited (fun x hx => hfresh x (List.mem_append_right g hx)) h
      refine ⟨g :: gs, zs, ?_, by rw [List.length_cons, hlength], hzs, ?_⟩
      · rw [List.flatten_cons, List.append_assoc]
      · refine ⟨fun x hx hl => ?_, (Nat.le_of_eq hfull), fun _ => hfull, hgs⟩
        have hx := List.mem_append_left (gs.flatten ++ zs) hx
        exact hlisted x hx ((hfresh x hx).trans hl)
    · obtain rfl : k = 0 := by
        by_contra hk0
        have := Nat.le_mul_of_pos_right n (Nat.pos_of_ne_zero hk0)
        omega
      refine ⟨[rest], [], ?_, rfl, nofun, ?_⟩
      · rw [List.flatten_cons, List.flatten_nil, List.append_nil, List.append_nil]
      · refine ⟨fun x hx hl => hlisted x hx ((hfresh x hx).trans hl), ?_, fun hne => absurd rfl hne,
          trivial⟩
        rw [List.countP_append]
        omega

end Waiting

end Kepryx.BoundedRounds
