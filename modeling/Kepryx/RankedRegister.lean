import Kepryx.Runs
import Mathlib.Order.Lattice

/-!
# A register written by ranked sources

Several sources offer values for one register. An offer is admitted when no source
that took part before is recorded with a higher rank, whether or not that source
ever wrote the register. The rank of an offering source and the rank it is recorded
with may differ, as long as a source that can be outranked is recorded with its rank.
-/
namespace Kepryx.RankedRegister
open Kepryx.Runs

variable {S V R : Type*} [LinearOrder R]

/-- The value, the source that wrote it last, and every source that took part. -/
structure Register (S V : Type*) where
  value : V
  writer : S
  seen : List S

/-- No source that took part is recorded with a higher rank than the offering one. -/
def Admits (offering recorded : S → R) (x : Register S V) (s : S) : Prop :=
  ∀ t ∈ x.seen, recorded t ≤ offering s

instance (offering recorded : S → R) (x : Register S V) (s : S) :
    Decidable (Admits offering recorded x s) :=
  inferInstanceAs (Decidable (∀ t ∈ x.seen, recorded t ≤ offering s))

/-- The register after an offer; a source without a value takes part all the same. -/
def offer (offering recorded : S → R) (x : Register S V) (o : S × Option V) : Register S V :=
  match o.2 with
  | some v =>
    if Admits offering recorded x o.1 then ⟨v, o.1, x.seen ++ [o.1]⟩
    else { x with seen := x.seen ++ [o.1] }
  | none => { x with seen := x.seen ++ [o.1] }

variable {offering recorded : S → R}

theorem offer_admitted {x : Register S V} {s : S} (h : Admits offering recorded x s) (v : V) :
    offer offering recorded x (s, some v) = ⟨v, s, x.seen ++ [s]⟩ := by simp [offer, h]

theorem offer_rejected {x : Register S V} {s : S} (h : ¬ Admits offering recorded x s) (v : V) :
    offer offering recorded x (s, some v) = { x with seen := x.seen ++ [s] } := by simp [offer, h]

@[simp] theorem mem_seen_offer {x : Register S V} {o : S × Option V} {t : S} :
    t ∈ (offer offering recorded x o).seen ↔ t ∈ x.seen ∨ t = o.1 := by
  unfold offer
  split
  · split <;> simp
  · simp

theorem writer_mem_offer {x : Register S V} (h : x.writer ∈ x.seen) (o : S × Option V) :
    (offer offering recorded x o).writer ∈ (offer offering recorded x o).seen := by
  rw [mem_seen_offer]
  unfold offer
  split
  · split
    · exact .inr rfl
    · exact .inl h
  · exact .inl h

/-- A source of a lower rank than the last writer does not change the value. -/
theorem offer_lower {x : Register S V} (hmem : x.writer ∈ x.seen)
    (hrank : ∀ s t, offering s < offering t → offering s < recorded t)
    {o : S × Option V} (hlt : offering o.1 < offering x.writer) :
    (offer offering recorded x o).value = x.value := by
  have hrejected : ¬ Admits offering recorded x o.1 := fun h =>
    absurd (h x.writer hmem) (not_le.mpr (hrank _ _ hlt))
  obtain ⟨s, _ | v⟩ := o
  · rfl
  · rw [offer_rejected hrejected]

end Kepryx.RankedRegister
