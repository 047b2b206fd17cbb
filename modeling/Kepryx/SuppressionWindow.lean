import Mathlib.Data.List.Pairwise
import Mathlib.Algebra.Order.Group.Int

/-!
# A log with a suppression window

The entries of a log have a key and a time. An entry is recent while the window that opened at
its time has not passed. Suppression aims at a log in which two entries with one key are never
recent together, or even never closer than the window.
-/
namespace Kepryx.SuppressionWindow

variable {α κ : Type*} {key : α → κ} {time : α → ℤ} {window now now' : ℤ}

/-- The window of the entry has not passed. -/
def Recent (time : α → ℤ) (window now : ℤ) (a : α) : Prop := now - window < time a

/-- Entries with one key are at least the window apart, in the order of the log. -/
def Spaced (key : α → κ) (time : α → ℤ) (window : ℤ) (log : List α) : Prop :=
  log.Pairwise fun a b => key a = key b → time a + window ≤ time b

/-- No two recent entries have the same key. -/
def OneRecent (key : α → κ) (time : α → ℤ) (window now : ℤ) (log : List α) : Prop :=
  log.Pairwise fun a b => key a = key b → Recent time window now a → ¬ Recent time window now b

instance (a : α) : Decidable (Recent time window now a) := inferInstanceAs (Decidable (_ < _))

instance [DecidableEq κ] (log : List α) : Decidable (Spaced key time window log) :=
  inferInstanceAs (Decidable (log.Pairwise _))

theorem not_recent_iff {a : α} : ¬ Recent time window now a ↔ time a + window ≤ now := by
  unfold Recent
  omega

/-- What is recent was recent before. -/
theorem Recent.earlier {a : α} (hle : now ≤ now') (h : Recent time window now' a) :
    Recent time window now a := by
  unfold Recent at h ⊢
  omega

theorem OneRecent.later {log : List α} (hle : now ≤ now')
    (h : OneRecent key time window now log) : OneRecent key time window now' log := by
  refine List.Pairwise.imp ?_ h
  intro a b hab hkey ha hb
  exact hab hkey (ha.earlier hle) (hb.earlier hle)

theorem OneRecent.sublist {xs ys : List α} (hsub : List.Sublist xs ys)
    (h : OneRecent key time window now ys) : OneRecent key time window now xs :=
  List.Pairwise.sublist hsub h

theorem Spaced.sublist {xs ys : List α} (hsub : List.Sublist xs ys)
    (h : Spaced key time window ys) : Spaced key time window xs :=
  List.Pairwise.sublist hsub h

/-- Only the keys and the times matter. -/
theorem spaced_iff_stamps {log : List α} : Spaced key time window log ↔
    Spaced Prod.fst Prod.snd window (log.map fun a => (key a, time a)) := by
  unfold Spaced
  rw [List.pairwise_map]

theorem spaced_append {xs ys : List α} :
    Spaced key time window (xs ++ ys) ↔ Spaced key time window xs ∧ Spaced key time window ys ∧
      ∀ x ∈ xs, ∀ y ∈ ys, key x = key y → time x + window ≤ time y :=
  List.pairwise_append

theorem oneRecent_append {xs ys : List α} :
    OneRecent key time window now (xs ++ ys) ↔
      OneRecent key time window now xs ∧ OneRecent key time window now ys ∧
      ∀ x ∈ xs, ∀ y ∈ ys, key x = key y → Recent time window now x → ¬ Recent time window now y :=
  List.pairwise_append

/-- In a log that is spaced out and ends by now, only one entry of a key is recent. -/
theorem Spaced.oneRecent {log : List α} (h : Spaced key time window log)
    (hpast : ∀ a ∈ log, time a ≤ now) : OneRecent key time window now log := by
  refine List.Pairwise.imp_of_mem ?_ h
  intro a b _ hb hab hkey ha _
  have hgap := hab hkey
  have hend := hpast b hb
  unfold Recent at ha
  omega

/-- Entries with pairwise distinct keys are spaced out. -/
theorem spaced_of_nodup {log : List α} (h : (log.map key).Nodup) : Spaced key time window log := by
  refine List.Pairwise.imp ?_ (List.pairwise_map.mp h)
  intro a b hne hkey
  exact absurd hkey hne

/-- Two recent entries of a key are the same entry. -/
theorem OneRecent.eq_of_recent {log : List α} {a b : α} (h : OneRecent key time window now log)
    (ha : a ∈ log) (hb : b ∈ log) (hkey : key a = key b) (harecent : Recent time window now a)
    (hbrecent : Recent time window now b) : a = b := by
  by_contra hne
  have hsymm : Std.Symm fun x y : α =>
      key x = key y → Recent time window now x → ¬ Recent time window now y :=
    ⟨fun x y hxy heq hy hx => hxy heq.symm hx hy⟩
  exact List.Pairwise.forall h ha hb hne hkey harecent hbrecent

/-- Filtering for the recent entries of a key finds one at most. -/
theorem OneRecent.filter_length_le_one {log : List α} {p : α → Bool} {k : κ}
    (h : OneRecent key time window now log)
    (hp : ∀ a ∈ log, p a → key a = k ∧ Recent time window now a) :
    (log.filter p).length ≤ 1 := by
  match hf : log.filter p with
  | [] => simp
  | [a] => simp
  | a :: b :: rest =>
    have hmem : ∀ x ∈ log.filter p, key x = k ∧ Recent time window now x := by
      intro x hx
      obtain ⟨hx, hpx⟩ := List.mem_filter.mp hx
      exact hp x hx hpx
    have hpair := h.sublist (List.filter_sublist (p := p))
    rw [hf] at hpair hmem
    obtain ⟨hakey, harecent⟩ := hmem a (by simp)
    obtain ⟨hbkey, hbrecent⟩ := hmem b (by simp)
    have hnot := (List.pairwise_cons.mp hpair).1 b (by simp) (hakey.trans hbkey.symm) harecent
    exact absurd hbrecent hnot

end Kepryx.SuppressionWindow
