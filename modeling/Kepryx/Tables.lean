import Mathlib.Data.List.Nodup

/-!
# Keyed tables

A table is a list of rows whose keys are pairwise distinct, as a primary key or
a unique constraint makes them. An insertion that would repeat a key is refused,
and an update replaces the row with the same key, so no operation can build a
table that breaks the constraint.
-/
namespace Kepryx.Tables

variable {ρ κ ε : Type*}

/-- `Result.scalar_one_or_none`: no row, the only row, or the exception `err`. -/
def scalarOneOrNone (err : ε) : List ρ → Except ε (Option ρ)
  | [] => .ok none
  | [r] => .ok (some r)
  | _ :: _ :: _ => .error err

theorem scalarOneOrNone_some {err : ε} {rs : List ρ} {r : ρ}
    (h : scalarOneOrNone err rs = .ok (some r)) : rs = [r] := by
  match rs, h with
  | [a], h => simpa [scalarOneOrNone] using h

theorem scalarOneOrNone_none {err : ε} {rs : List ρ}
    (h : scalarOneOrNone err rs = .ok none) : rs = [] := by
  rcases rs with _ | ⟨a, _ | ⟨b, rs⟩⟩
  · rfl
  · simp [scalarOneOrNone] at h
  · simp [scalarOneOrNone] at h

theorem scalarOneOrNone_ok {err : ε} {rs : List ρ} (h : rs.length ≤ 1) :
    scalarOneOrNone err rs = .ok rs.head? := by
  match rs, h with
  | [], _ => rfl
  | [a], _ => rfl

theorem scalarOneOrNone_error {err e : ε} {rs : List ρ}
    (h : scalarOneOrNone err rs = .error e) : e = err ∧ 2 ≤ rs.length := by
  match rs, h with
  | a :: b :: rs, h => exact ⟨by simpa [scalarOneOrNone] using h.symm, by simp⟩

theorem scalarOneOrNone_of_two_le {err : ε} {rs : List ρ} (h : 2 ≤ rs.length) :
    scalarOneOrNone err rs = .error err := by
  match rs, h with
  | _ :: _ :: _, _ => rfl

/-- Rows with pairwise distinct keys. -/
structure Table (key : ρ → κ) where
  rows : List ρ
  nodup : (rows.map key).Nodup

namespace Table

variable {key : ρ → κ}

def empty : Table key := ⟨[], by simp⟩

instance : Inhabited (Table key) := ⟨empty⟩

instance [DecidableEq ρ] : DecidableEq (Table key) := fun s t =>
  decidable_of_iff (s.rows = t.rows) (by cases s; cases t; simp)

theorem ext_rows {s t : Table key} (h : s.rows = t.rows) : s = t := by
  cases s
  cases t
  simpa using h

/-- Two rows of a table with one key are the same row. -/
theorem eq_of_key {t : Table key} {a b : ρ} (ha : a ∈ t.rows) (hb : b ∈ t.rows)
    (h : key a = key b) : a = b := List.inj_on_of_nodup_map t.nodup ha hb h

/-- A condition that singles out a row is met by at most one. -/
theorem filter_length_le_one {t : Table key} {p : ρ → Bool}
    (h : ∀ a ∈ t.rows, ∀ b ∈ t.rows, p a → p b → a = b) : (t.rows.filter p).length ≤ 1 := by
  have hnodup : (t.rows.filter p).Nodup := t.nodup.of_map.filter p
  match hf : t.rows.filter p with
  | [] => simp
  | [a] => simp
  | a :: b :: rest =>
    have ha : a ∈ t.rows.filter p := by simp [hf]
    have hb : b ∈ t.rows.filter p := by simp [hf]
    obtain ⟨ha, hpa⟩ := List.mem_filter.mp ha
    obtain ⟨hb, hpb⟩ := List.mem_filter.mp hb
    have hab := h a ha b hb hpa hpb
    rw [hf, hab] at hnodup
    simp at hnodup

theorem filter_length_le_one_iff {t : Table key} {p : ρ → Bool} :
    (t.rows.filter p).length ≤ 1 ↔ ∀ a ∈ t.rows, ∀ b ∈ t.rows, p a → p b → a = b := by
  refine ⟨fun h a ha b hb hpa hpb => ?_, filter_length_le_one⟩
  have ha' : a ∈ t.rows.filter p := List.mem_filter.mpr ⟨ha, hpa⟩
  have hb' : b ∈ t.rows.filter p := List.mem_filter.mpr ⟨hb, hpb⟩
  match hf : t.rows.filter p, h with
  | [], _ => simp [hf] at ha'
  | [c], _ =>
    rw [hf] at ha' hb'
    rw [List.mem_singleton.mp ha', List.mem_singleton.mp hb']

/-- A condition that singles out a row is met by that row alone. -/
theorem filter_eq_singleton {t : Table key} {p : ρ → Bool} {r : ρ} (hr : r ∈ t.rows)
    (hp : p r) (h : ∀ a ∈ t.rows, p a → a = r) : t.rows.filter p = [r] := by
  have hle : (t.rows.filter p).length ≤ 1 := filter_length_le_one fun a ha b hb hpa hpb =>
    (h a ha hpa).trans (h b hb hpb).symm
  have hmem : r ∈ t.rows.filter p := List.mem_filter.mpr ⟨hr, hp⟩
  obtain ⟨a, ha⟩ := List.length_eq_one_iff.mp
    (Nat.le_antisymm hle (List.length_pos_of_mem hmem))
  rw [ha] at hmem ⊢
  rw [List.mem_singleton.mp hmem]

/-- Delete the rows that meet `p`. -/
def delete (t : Table key) (p : ρ → Bool) : Table key where
  rows := t.rows.filter fun r => !p r
  nodup := (List.filter_sublist.map key).nodup t.nodup

@[simp] theorem mem_delete {t : Table key} {p : ρ → Bool} {x : ρ} :
    x ∈ (t.delete p).rows ↔ x ∈ t.rows ∧ p x = false := by
  simp [delete]

variable [DecidableEq κ]

/-- Lookup by key. -/
def find (t : Table key) (k : κ) : Option ρ := t.rows.find? (fun r => key r = k)

theorem find_eq_some {t : Table key} {k : κ} {r : ρ} :
    t.find k = some r ↔ r ∈ t.rows ∧ key r = k := by
  constructor
  · intro h
    exact ⟨List.mem_of_find?_eq_some h, by simpa using List.find?_some h⟩
  · rintro ⟨hr, rfl⟩
    cases hf : t.find (key r) with
    | none =>
      have hne := List.find?_eq_none.mp hf r hr
      simp at hne
    | some r' =>
      have hk : key r' = key r := by simpa using List.find?_some hf
      rw [eq_of_key (List.mem_of_find?_eq_some hf) hr hk]

theorem find_eq_none {t : Table key} {k : κ} :
    t.find k = none ↔ ∀ r ∈ t.rows, key r ≠ k := by
  simp [find, List.find?_eq_none]

theorem find_key {t : Table key} {r : ρ} (hr : r ∈ t.rows) : t.find (key r) = some r :=
  find_eq_some.mpr ⟨hr, rfl⟩

theorem find_some_key {t : Table key} {k : κ} {r : ρ} (h : t.find k = some r) : key r = k :=
  (find_eq_some.mp h).2

/-- Replace the row that has the key of `r`; a table without such a row is unchanged. -/
def put (t : Table key) (r : ρ) : Table key where
  rows := t.rows.map fun x => if key x = key r then r else x
  nodup := by
    have he : (t.rows.map fun x => if key x = key r then r else x).map key = t.rows.map key := by
      rw [List.map_map]
      refine List.map_congr_left fun x _ => ?_
      by_cases h : key x = key r <;> simp [h]
    rw [he]
    exact t.nodup

theorem mem_put {t : Table key} {r x : ρ} :
    x ∈ (t.put r).rows ↔ (x = r ∧ ∃ y ∈ t.rows, key y = key r) ∨ (x ∈ t.rows ∧ key x ≠ key r) := by
  simp only [put, List.mem_map]
  constructor
  · rintro ⟨y, hy, rfl⟩
    by_cases h : key y = key r
    · exact .inl ⟨by simp [h], y, hy, h⟩
    · exact .inr (by simp [h, hy])
  · rintro (⟨rfl, y, hy, h⟩ | ⟨hx, h⟩)
    · exact ⟨y, hy, by simp [h]⟩
    · exact ⟨x, hx, by simp [h]⟩

theorem find_put_of_ne {t : Table key} {r : ρ} {k : κ} (h : k ≠ key r) :
    (t.put r).find k = t.find k := by
  cases hf : t.find k with
  | none =>
    rw [find_eq_none] at hf ⊢
    intro x hx
    rcases mem_put.mp hx with ⟨rfl, _⟩ | ⟨hx, _⟩
    · exact Ne.symm h
    · exact hf x hx
  | some x =>
    obtain ⟨hx, rfl⟩ := find_eq_some.mp hf
    exact find_eq_some.mpr ⟨mem_put.mpr (.inr ⟨hx, h⟩), rfl⟩

theorem find_put_self {t : Table key} {r : ρ} (h : (t.find (key r)).isSome) :
    (t.put r).find (key r) = some r := by
  obtain ⟨y, hy⟩ := Option.isSome_iff_exists.mp h
  obtain ⟨hy, hk⟩ := find_eq_some.mp hy
  exact find_eq_some.mpr ⟨mem_put.mpr (.inl ⟨rfl, y, hy, hk⟩), rfl⟩

theorem mem_foldl_put {ws : List ρ} {t : Table key} {x : ρ} (hx : x ∈ (ws.foldl put t).rows) :
    x ∈ ws ∨ x ∈ t.rows := by
  induction ws generalizing t with
  | nil => exact .inr hx
  | cons w ws ih =>
    rcases ih hx with hws | hput
    · exact .inl (List.mem_cons_of_mem w hws)
    · rcases mem_put.mp hput with ⟨rfl, _⟩ | ⟨hold, _⟩
      · exact .inl List.mem_cons_self
      · exact .inr hold

theorem find_foldl_put_of_notMem {ws : List ρ} {t : Table key} {k : κ}
    (hk : k ∉ ws.map key) : (ws.foldl put t).find k = t.find k := by
  induction ws generalizing t with
  | nil => rfl
  | cons w ws ih =>
    rw [List.map_cons, List.mem_cons, not_or] at hk
    rw [List.foldl_cons, ih hk.2, find_put_of_ne hk.1]

/-- Rows with distinct keys that replace stored rows are all found afterwards. -/
theorem find_foldl_put {ws : List ρ} {t : Table key} (hnodup : (ws.map key).Nodup)
    (hstored : ∀ w ∈ ws, (t.find (key w)).isSome) {w : ρ} (hw : w ∈ ws) :
    (ws.foldl put t).find (key w) = some w := by
  induction ws generalizing t with
  | nil => exact absurd hw List.not_mem_nil
  | cons x ws ih =>
    rw [List.map_cons, List.nodup_cons] at hnodup
    rw [List.foldl_cons]
    rcases List.mem_cons.mp hw with rfl | htail
    · rw [find_foldl_put_of_notMem hnodup.1]
      exact find_put_self (hstored w List.mem_cons_self)
    · apply ih hnodup.2 _ htail
      intro y hy
      have hne : key y ≠ key x := fun he => hnodup.1 (he ▸ List.mem_map_of_mem hy)
      rw [find_put_of_ne hne]
      exact hstored y (List.mem_cons_of_mem x hy)

theorem rows_put_singleton {t : Table key} {r r' : ρ} (hrows : t.rows = [r])
    (hkey : key r' = key r) : (t.put r').rows = [r'] := by
  simp [put, hrows, hkey]

/-- Replacing a row changes a count by what the two rows count. -/
theorem countP_put {t : Table key} {r w : ρ} (h : t.find (key w) = some r) (p : ρ → Bool) :
    (t.put w).rows.countP p + [r].countP p = t.rows.countP p + [w].countP p := by
  obtain ⟨hr, hkey⟩ := find_eq_some.mp h
  obtain ⟨before, after, hrows⟩ := List.append_of_mem hr
  have hnodup := t.nodup
  rw [hrows, List.map_append, List.map_cons, List.nodup_append] at hnodup
  obtain ⟨-, hcons, hdisjoint⟩ := hnodup
  have hbefore : ∀ x ∈ before, key x ≠ key w := fun x hx he =>
    hdisjoint _ (List.mem_map_of_mem hx) _ List.mem_cons_self (he.trans hkey.symm)
  have hafter : ∀ x ∈ after, key x ≠ key w := fun x hx he =>
    (List.nodup_cons.mp hcons).1 (List.mem_map.mpr ⟨x, hx, he.trans hkey.symm⟩)
  have hkeep : ∀ {xs : List ρ}, (∀ x ∈ xs, key x ≠ key w) →
      (xs.map fun x => if key x = key w then w else x) = xs := fun hxs =>
    (List.map_congr_left fun x hx => if_neg (hxs x hx)).trans (List.map_id _)
  have hput : (t.put w).rows = before ++ w :: after := by
    simp only [put, hrows, List.map_append, List.map_cons, hkeep hbefore, hkeep hafter,
      if_pos hkey]
  rw [hput, hrows]
  simp only [List.countP_append, List.countP_cons, List.countP_nil]
  omega

/-- Putting a row back changes nothing. -/
theorem put_self {t : Table key} {r : ρ} (hr : r ∈ t.rows) : t.put r = t := by
  refine ext_rows ((List.map_congr_left fun x hx => ?_).trans (List.map_id t.rows))
  by_cases h : key x = key r
  · simp [eq_of_key hx hr h]
  · simp [h]

/-- Replace every row, keeping its key. -/
def mapRows (t : Table key) (f : ρ → ρ) (hf : ∀ r, key (f r) = key r) : Table key where
  rows := t.rows.map f
  nodup := by
    rw [List.map_map, show key ∘ f = key from funext hf]
    exact t.nodup

theorem find_mapRows (t : Table key) (f : ρ → ρ) (hf : ∀ r, key (f r) = key r) (k : κ) :
    (t.mapRows f hf).find k = (t.find k).map f := by
  cases h : t.find k with
  | none =>
    refine find_eq_none.mpr fun x hx => ?_
    obtain ⟨y, hy, rfl⟩ := List.mem_map.mp hx
    rw [hf]
    exact find_eq_none.mp h y hy
  | some r =>
    obtain ⟨hr, hk⟩ := find_eq_some.mp h
    exact find_eq_some.mpr ⟨List.mem_map.mpr ⟨r, hr, rfl⟩, (hf r).trans hk⟩

/-- Insert a row, refused when its key is taken. -/
def insert? (t : Table key) (r : ρ) : Option (Table key) :=
  if h : key r ∈ t.rows.map key then none
  else some ⟨t.rows ++ [r], by
    rw [List.map_append, List.nodup_append]
    refine ⟨t.nodup, by simp, ?_⟩
    rintro a ha b hb rfl
    simp only [List.map_cons, List.map_nil, List.mem_singleton] at hb
    exact h (hb ▸ ha)⟩

theorem insert?_eq_some {t t' : Table key} {r : ρ} (h : t.insert? r = some t') :
    t'.rows = t.rows ++ [r] ∧ t.find (key r) = none := by
  unfold insert? at h
  split at h
  · cases h
  · rename_i hk
    cases h
    refine ⟨rfl, find_eq_none.mpr fun x hx he => hk ?_⟩
    exact List.mem_map.mpr ⟨x, hx, he⟩

theorem insert?_eq_none {t : Table key} {r : ρ} :
    t.insert? r = none ↔ (t.find (key r)).isSome := by
  unfold insert?
  split
  · rename_i hk
    obtain ⟨x, hx, he⟩ := List.mem_map.mp hk
    simp [show t.find (key r) = some x from find_eq_some.mpr ⟨hx, he⟩]
  · rename_i hk
    have hn : t.find (key r) = none :=
      find_eq_none.mpr fun x hx he => hk (List.mem_map.mpr ⟨x, hx, he⟩)
    simp [hn]

theorem mem_insert? {t t' : Table key} {r x : ρ} (h : t.insert? r = some t') :
    x ∈ t'.rows ↔ x ∈ t.rows ∨ x = r := by
  simp [(insert?_eq_some h).1]

theorem find_insert? {t t' : Table key} {r : ρ} (h : t.insert? r = some t') (k : κ) :
    t'.find k = if key r = k then some r else t.find k := by
  obtain ⟨hrows, hnone⟩ := insert?_eq_some h
  simp only [find, hrows, List.find?_append]
  by_cases hk : key r = k
  · subst hk
    rw [show t.rows.find? (fun x => key x = key r) = none from hnone]
    simp
  · simp [hk]

/-- Insert rows one after another, as one flush does. -/
def insertAll (t : Table key) : List ρ → Option (Table key)
  | [] => some t
  | r :: rs => (t.insert? r).bind fun t => t.insertAll rs

theorem insertAll_eq_none {t : Table key} {rs : List ρ} :
    t.insertAll rs = none ↔ ¬ ((rs.map key).Nodup ∧ ∀ r ∈ rs, t.find (key r) = none) := by
  induction rs generalizing t with
  | nil => simp [insertAll]
  | cons r rs ih =>
    cases h : t.insert? r with
    | none =>
      have htaken := Option.isSome_iff_exists.mp (insert?_eq_none.mp h)
      obtain ⟨x, hx⟩ := htaken
      simp [insertAll, h, hx]
    | some t' =>
      have hfree := (insert?_eq_some h).2
      simp only [insertAll, h, Option.bind_some, ih, find_insert? h, List.map_cons,
        List.nodup_cons, List.mem_map, List.forall_mem_cons, hfree, true_and, not_iff_not]
      constructor
      · rintro ⟨hnodup, hnew⟩
        have hne : ∀ x ∈ rs, key r ≠ key x := by
          intro x hx he
          simpa [he] using hnew x hx
        refine ⟨⟨fun ⟨x, hx, he⟩ => hne x hx he.symm, hnodup⟩, fun x hx => ?_⟩
        simpa [hne x hx] using hnew x hx
      · rintro ⟨⟨hnot, hnodup⟩, hnew⟩
        refine ⟨hnodup, fun x hx => ?_⟩
        have hne : key r ≠ key x := fun he => hnot ⟨x, hx, he.symm⟩
        simpa [hne] using hnew x hx

theorem find_insertAll {t t' : Table key} {rs : List ρ} (h : t.insertAll rs = some t') (k : κ) :
    t'.find k = (t.find k).or (rs.find? fun r => key r = k) := by
  induction rs generalizing t with
  | nil =>
    simp only [insertAll, Option.some.injEq] at h
    simp [h]
  | cons r rs ih =>
    obtain ⟨t₁, h₁, h⟩ := Option.bind_eq_some_iff.mp h
    rw [ih h, find_insert? h₁]
    by_cases hk : key r = k
    · subst hk
      simp [(insert?_eq_some h₁).2]
    · simp [hk]

theorem find_delete {t : Table key} {p : ρ → Bool} (k : κ) :
    (t.delete p).find k = (t.find k).filter fun r => !p r := by
  cases h : t.find k with
  | none =>
    refine find_eq_none.mpr fun r hr => ?_
    exact find_eq_none.mp h r (mem_delete.mp hr).1
  | some r =>
    obtain ⟨hr, hk⟩ := find_eq_some.mp h
    cases hp : p r with
    | false =>
      have hkept : (some r).filter (fun r => !p r) = some r := by simp [hp]
      rw [hkept]
      exact find_eq_some.mpr ⟨mem_delete.mpr ⟨hr, hp⟩, hk⟩
    | true =>
      have hdropped : (some r).filter (fun r => !p r) = none := by simp [hp]
      rw [hdropped]
      refine find_eq_none.mpr fun x hx he => ?_
      obtain ⟨hx, hpx⟩ := mem_delete.mp hx
      rw [eq_of_key hx hr (he.trans hk.symm), hp] at hpx
      cases hpx

/-- Write a row, whether or not its key is taken. -/
def upsert (t : Table key) (r : ρ) : Table key := (t.insert? r).getD (t.put r)

@[simp] theorem find_upsert (t : Table key) (r : ρ) (k : κ) :
    (t.upsert r).find k = if key r = k then some r else t.find k := by
  unfold upsert
  cases h : t.insert? r with
  | some t' => exact find_insert? h k
  | none =>
    by_cases hk : key r = k
    · subst hk
      simpa using find_put_self (insert?_eq_none.mp h)
    · simpa [hk] using find_put_of_ne (Ne.symm hk)

theorem mem_upsert {t : Table key} {r x : ρ} :
    x ∈ (t.upsert r).rows ↔ x = r ∨ x ∈ t.rows ∧ key x ≠ key r := by
  constructor
  · intro hx
    have hfind := find_upsert t r (key x)
    rw [find_key hx] at hfind
    by_cases hk : key r = key x
    · rw [if_pos hk] at hfind
      exact .inl (Option.some.inj hfind)
    · rw [if_neg hk] at hfind
      exact .inr ⟨(find_eq_some.mp hfind.symm).1, Ne.symm hk⟩
  · intro hx
    have hfind := find_upsert t r (key x)
    rcases hx with rfl | ⟨hx, hk⟩
    · rw [if_pos rfl] at hfind
      exact (find_eq_some.mp hfind).1
    · rw [if_neg (Ne.symm hk), find_key hx] at hfind
      exact (find_eq_some.mp hfind).1

end Table

/-! ## Dictionaries as lists of pairs -/

section Pairs
variable {κ β : Type*} [DecidableEq κ]

theorem lookup_pair (d : List (κ × β)) (key key' : κ) (value : β) :
    List.lookup key' ((key, value) :: d) = if key' = key then some value else d.lookup key' := by
  rw [List.lookup_cons]
  by_cases h : key' = key
  · rw [if_pos h, beq_iff_eq.mpr h]
  · rw [if_neg h, beq_false_of_ne h]

/-- A value is replaced wherever its key stands. -/
theorem lookup_replace (d : List (κ × β)) (key key' : κ) (value : β) :
    (d.map fun e => if e.1 = key then (key, value) else e).lookup key' =
      if key' = key then (d.lookup key).map fun _ => value else d.lookup key' := by
  induction d with
  | nil => simp
  | cons e d ih =>
    obtain ⟨k, v⟩ := e
    rw [List.map_cons, lookup_pair, lookup_pair]
    by_cases hk : k = key
    · rw [if_pos hk, lookup_pair, ih, hk, if_pos rfl]
      by_cases hk' : key' = key
      · rw [if_pos hk', if_pos hk']
        rfl
      · rw [if_neg hk', if_neg hk', if_neg hk', if_neg hk']
    · rw [if_neg hk, lookup_pair, ih, if_neg (Ne.symm hk)]
      by_cases hk' : key' = key
      · rw [if_pos hk', if_pos hk', if_neg (hk' ▸ Ne.symm hk)]
      · rw [if_neg hk', if_neg hk']

/-- A value is written in the place of its key, or behind all others. -/
theorem lookup_write (d : List (κ × β)) (key key' : κ) (value : β) :
    (if (d.lookup key).isSome then d.map fun e => if e.1 = key then (key, value) else e
      else d ++ [(key, value)]).lookup key' = if key' = key then some value else d.lookup key' := by
  split
  next hsome =>
    obtain ⟨old, hold⟩ := Option.isSome_iff_exists.mp hsome
    rw [lookup_replace, hold, Option.map_some]
  next hnone =>
    rw [Option.not_isSome_iff_eq_none] at hnone
    rw [List.lookup_append, lookup_pair, List.lookup_nil]
    by_cases hk' : key' = key
    · rw [hk', hnone, Option.none_or]
    · rw [if_neg hk', if_neg hk', Option.or_none]

end Pairs

end Kepryx.Tables
