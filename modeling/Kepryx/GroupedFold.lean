import Mathlib.Algebra.BigOperators.Group.List.Lemmas
import Mathlib.Algebra.GroupWithZero.Nat
import Mathlib.Data.List.Basic

/-!
# Rows grouped in a dictionary

A pass over rows that keeps one value for each key: the first row of a key starts from a
default, every row changes the value of its own key. Each value is a fold over the rows of its
key, in their order.
-/
namespace Kepryx.GroupedFold

variable {ρ κ ν : Type*} [DecidableEq κ]

/-- The value under each key, if there is one. -/
abbrev Dict (κ ν : Type*) := κ → Option ν

/-- `d.setdefault(key, init)`, and then a change of the value. -/
def Dict.alter (d : Dict κ ν) (k : κ) (init : ν) (f : ν → ν) : Dict κ ν :=
  fun k' => if k' = k then some (f ((d k).getD init)) else d k'

def groupFrom (key : ρ → κ) (init : ν) (add : ν → ρ → ν) (d : Dict κ ν) (rows : List ρ) :
    Dict κ ν :=
  rows.foldl (fun d r => d.alter (key r) init (add · r)) d

/-- The values that the rows leave, from an empty dictionary. -/
def group (key : ρ → κ) (init : ν) (add : ν → ρ → ν) (rows : List ρ) : Dict κ ν :=
  groupFrom key init add (fun _ => none) rows

theorem groupFrom_lookup (key : ρ → κ) (init : ν) (add : ν → ρ → ν) (d : Dict κ ν)
    (rows : List ρ) (k : κ) : groupFrom key init add d rows k =
      if rows.filter (fun r => key r = k) = [] then d k
      else some ((rows.filter fun r => key r = k).foldl add ((d k).getD init)) := by
  induction rows generalizing d with
  | nil => rfl
  | cons r rows ih =>
    have hstep : groupFrom key init add d (r :: rows) =
        groupFrom key init add (d.alter (key r) init (add · r)) rows := rfl
    rw [hstep, ih]
    by_cases hk : key r = k
    · subst hk
      by_cases hrest : rows.filter (fun x => key x = key r) = []
      · simp [hrest, Dict.alter]
      · simp [hrest, Dict.alter]
    · simp [hk, Ne.symm hk, Dict.alter]

/-- The value of a key is the fold over its rows. -/
theorem group_lookup (key : ρ → κ) (init : ν) (add : ν → ρ → ν) {rows : List ρ} {r : ρ}
    (hr : r ∈ rows) : group key init add rows (key r) =
      some ((rows.filter fun x => key x = key r).foldl add init) := by
  have hne : rows.filter (fun x => key x = key r) ≠ [] :=
    List.ne_nil_of_mem (List.mem_filter.mpr ⟨hr, by simp⟩)
  rw [group, groupFrom_lookup, if_neg hne]
  rfl

/-- With the default for a key that has no rows, every value is the fold over the rows of its
key. -/
theorem group_getD (key : ρ → κ) (init : ν) (add : ν → ρ → ν) (rows : List ρ) (k : κ) :
    (group key init add rows k).getD init =
      (rows.filter fun r => key r = k).foldl add init := by
  rw [group, groupFrom_lookup]
  split
  · rename_i hnone
    rw [hnone]
    rfl
  · rfl

/-- When the rows of a fold have distinct kinds, something that only the row of one kind sets
has the value of that row, or is still zero. -/
theorem foldl_observed {α : Type*} [DecidableEq α] {kind : ρ → α} {value : ρ → ℕ}
    {add : ν → ρ → ν} {a : α} (observe : ν → ℕ)
    (hother : ∀ v r, kind r ≠ a → observe (add v r) = observe v)
    (hself : ∀ v r, kind r = a → observe v = 0 → observe (add v r) = value r)
    {rows : List ρ} (hkinds : (rows.map kind).Nodup) {init : ν} (hinit : observe init = 0) :
    observe (rows.foldl add init) = ((rows.find? fun r => kind r = a).map value).getD 0 := by
  have hafter : ∀ (rows : List ρ) (v : ν), (∀ r ∈ rows, kind r ≠ a) →
      observe (rows.foldl add v) = observe v := by
    intro rows
    induction rows with
    | nil => exact fun _ _ => rfl
    | cons r rows ih =>
      intro v hnone
      rw [List.foldl_cons, ih _ fun x hx => hnone x (List.mem_cons_of_mem _ hx),
        hother v r (hnone r (List.mem_cons_self ..))]
  induction rows generalizing init with
  | nil => exact hinit
  | cons r rows ih =>
    rw [List.map_cons, List.nodup_cons] at hkinds
    rw [List.foldl_cons]
    by_cases hk : kind r = a
    · have hnone : ∀ x ∈ rows, kind x ≠ a := fun x hx he =>
        hkinds.1 (List.mem_map.mpr ⟨x, hx, he.trans hk.symm⟩)
      rw [hafter rows _ hnone, hself init r hk hinit]
      simp [hk]
    · rw [ih hkinds.2 ((hother init r hk).trans hinit)]
      simp [hk]

/-- The values that the rows leave when the first row of a key gives the default. -/
def groupEach (key : ρ → κ) (init : ρ → ν) (add : ν → ρ → ν) (rows : List ρ) : Dict κ ν :=
  rows.foldl (fun d r => d.alter (key r) (init r) (add · r)) fun _ => none

/-- The value of a key is the fold over its rows from the default of the first. -/
theorem groupEach_lookup (key : ρ → κ) (init : ρ → ν) (add : ν → ρ → ν) (rows : List ρ) (k : κ) :
    groupEach key init add rows k = (rows.filter fun r => key r = k).head?.map fun r =>
      (rows.filter fun r => key r = k).foldl add (init r) := by
  have hfrom : ∀ (rows : List ρ) (d : Dict κ ν),
      rows.foldl (fun d r => d.alter (key r) (init r) (add · r)) d k =
        ((d k).or ((rows.filter fun r => key r = k).head?.map init)).map fun v =>
          (rows.filter fun r => key r = k).foldl add v := by
    intro rows
    induction rows with
    | nil => intro d; simp
    | cons r rows ih =>
      intro d
      rw [List.foldl_cons, ih]
      by_cases hk : key r = k
      · subst hk
        cases hd : d (key r) <;> simp [Dict.alter, hd]
      · simp [hk, Ne.symm hk, Dict.alter]
  rw [groupEach, hfrom]
  simp [Function.comp_def]

/-! ## Counted groups -/

/-- Every value that occurs, with the number of its occurrences. -/
def counted {α : Type*} [DecidableEq α] (keys : List α) : List (α × ℕ) :=
  keys.dedup.map fun k => (k, keys.count k)

/-- The counts of some groups add up to the number of their rows. -/
theorem sum_counted {α : Type*} [DecidableEq α] (p : α → Bool) (keys : List α) :
    (((counted keys).filter fun g => p g.1).map Prod.snd).sum = keys.countP p := by
  rw [← List.sum_map_count_dedup_filter_eq_countP, counted, List.filter_map, List.map_map]
  rfl

end Kepryx.GroupedFold
