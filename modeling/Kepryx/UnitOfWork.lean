import Mathlib.Data.List.Basic

/-!
# Unit of work: what a session writes back

A session loads a row into an object, the program changes the object's
attributes, and the flush writes an attribute only when its current value
differs from the one that was loaded. A mutable value is held by reference:
changing it in place changes what both the loaded and the current reference
denote, so a flush cannot see the change.
-/
namespace Kepryx.UnitOfWork

/-- One column of a flushed row: written only when it differs from what was loaded. -/
def writeBack {α : Type*} [DecidableEq α] (loaded current stored : α) : α :=
  if current = loaded then stored else current

section WriteBack
variable {α : Type*} [DecidableEq α]

@[simp] theorem writeBack_unchanged (loaded stored : α) :
    writeBack loaded loaded stored = stored := by simp [writeBack]

/-- With no writer in between, a flush stores the current value. -/
@[simp] theorem writeBack_fresh (loaded current : α) :
    writeBack loaded current loaded = current := by
  by_cases h : current = loaded <;> simp [writeBack, h]

theorem writeBack_changed {loaded current : α} (h : current ≠ loaded) (stored : α) :
    writeBack loaded current stored = current := by simp [writeBack, h]

end WriteBack

/-- The address of a mutable object. -/
abbrev Ref := ℕ

/-- The mutable objects a session can reach, by address. -/
structure Heap (α : Type*) where
  cells : List α
  deriving Repr

namespace Heap
variable {α : Type*}

def empty : Heap α := ⟨[]⟩

def read (h : Heap α) (r : Ref) : Option α := h.cells[r]?

/-- The address that the next new object gets. -/
def next (h : Heap α) : Ref := h.cells.length

/-- Build a new object; its address is `h.next`. -/
def alloc (h : Heap α) (x : α) : Heap α := ⟨h.cells ++ [x]⟩

/-- Change an object in place. -/
def modify (h : Heap α) (r : Ref) (f : α → α) : Heap α := ⟨h.cells.modify r f⟩

@[simp] theorem read_alloc_next (h : Heap α) (x : α) : (h.alloc x).read h.next = some x := by
  simp [read, alloc, next]

theorem read_alloc_of_read {h : Heap α} {r : Ref} {y : α} (hr : h.read r = some y) (x : α) :
    (h.alloc x).read r = some y := by
  have hlt : r < h.cells.length := (List.getElem?_eq_some_iff.mp hr).1
  simpa [read, alloc, List.getElem?_append_left hlt] using hr

theorem read_modify_self {h : Heap α} {r : Ref} {x : α} (hr : h.read r = some x) (f : α → α) :
    (h.modify r f).read r = some (f x) := by
  simp only [read, modify] at *
  simp [hr]

theorem read_modify_of_ne {h : Heap α} {r r' : Ref} (hne : r ≠ r') (f : α → α) :
    (h.modify r f).read r' = h.read r' := by
  simp [read, modify, hne]

/-- What an attribute denotes: an object, or the null value. -/
def value (h : Heap α) (r : Option Ref) : Option α := r.bind h.read

@[simp] theorem value_none (h : Heap α) : h.value none = none := rfl

@[simp] theorem value_some (h : Heap α) (r : Ref) : h.value (some r) = h.read r := rfl

end Heap

/-- An attribute whose value is a mutable object: the object the session loaded and the
object assigned last. -/
structure Attribute where
  loaded : Option Ref
  current : Option Ref
  deriving DecidableEq, Repr

namespace Attribute
variable {α : Type*} [DecidableEq α]

/-- What the flush leaves in the column that holds `stored`. -/
def flush (h : Heap α) (a : Attribute) (stored : Option α) : Option α :=
  writeBack (h.value a.loaded) (h.value a.current) stored

/-- Assigning the loaded object again never reaches the row, whatever was done to it in
place. -/
theorem flush_same_object (h : Heap α) {a : Attribute} (ha : a.current = a.loaded)
    (stored : Option α) : a.flush h stored = stored := by simp [flush, ha]

/-- As long as the loaded object still has the stored value, the current value reaches the
row. -/
theorem flush_of_intact (h : Heap α) {a : Attribute} {stored : Option α}
    (ha : h.value a.loaded = stored) : a.flush h stored = h.value a.current := by
  simp [flush, ha]

end Attribute

end Kepryx.UnitOfWork
