import Mathlib.Data.String.Basic
import Kepryx.JsonReader

/-!
# Canonical JSON

Dumped with sorted keys, a document has one text in whatever order its objects hold their members,
and documents with one text differ in nothing but that order.
-/
namespace Kepryx.JsonText

mutual

/-- The members of every object in the order of their keys. -/
def Json.sorted : Json → Json
  | .null => .null
  | .bool b => .bool b
  | .int n => .int n
  | .float text => .float text
  | .str s => .str s
  | .arr elements => .arr (sortedElements elements)
  | .obj members => .obj ((sortedMembers members).insertionSort fun a b => a.1 ≤ b.1)

def sortedElements : List Json → List Json
  | [] => []
  | e :: es => e.sorted :: sortedElements es

def sortedMembers : List (String × Json) → List (String × Json)
  | [] => []
  | (k, v) :: ms => (k, v.sorted) :: sortedMembers ms

end

theorem sortedElements_eq_map (elements : List Json) :
    sortedElements elements = elements.map Json.sorted := by
  induction elements with
  | nil => rfl
  | cons e es ih => rw [sortedElements, ih, List.map_cons]

theorem sortedMembers_eq_map (members : List (String × Json)) :
    sortedMembers members = members.map fun m => (m.1, m.2.sorted) := by
  induction members with
  | nil => rfl
  | cons m ms ih =>
    obtain ⟨k, v⟩ := m
    rw [sortedMembers, ih, List.map_cons]

/-- What is written with sorted keys is the sorted document. -/
theorem dumps_eq_sorted {o : DumpOptions} (hsort : o.sortKeys = true) {doc : Json}
    (hdoc : WellFormed doc) : doc.dumps o = doc.sorted.dumps { o with sortKeys := false } := by
  induction hdoc with
  | null => rfl
  | bool b => rfl
  | int n => rfl
  | float text htext => rfl
  | str s => rfl
  | arr elements h ih =>
    have hmap : elements.map (Json.dumps o) =
        (elements.map Json.sorted).map (Json.dumps { o with sortKeys := false }) := by
      rw [List.map_map]
      exact List.map_congr_left ih
    rw [Json.dumps, Json.sorted, Json.dumps, dumpsElements_eq_map, dumpsElements_eq_map,
      sortedElements_eq_map, hmap]
  | obj members hkeys h ih =>
    have hmap : members.map (fun m => (m.1, m.2.dumps o)) = (members.map fun m =>
        (m.1, m.2.sorted)).map fun m => (m.1, m.2.dumps { o with sortKeys := false }) := by
      rw [List.map_map]
      exact List.map_congr_left fun m hm => by rw [Function.comp_apply, ih m hm]
    have hcomm := List.map_insertionSort (r := fun a b : String × Json => a.1 ≤ b.1)
      (s := fun a b : String × List Char => a.1 ≤ b.1)
      (f := fun m => (m.1, m.2.dumps { o with sortKeys := false }))
      (l := members.map fun m => (m.1, m.2.sorted)) (fun _ _ _ _ => Iff.rfl)
    rw [Json.dumps, Json.sorted, Json.dumps, orderMembers, orderMembers, if_pos hsort,
      if_neg Bool.false_ne_true, dumpsMembers_eq_map, dumpsMembers_eq_map, sortedMembers_eq_map,
      hmap, hcomm]
    rfl

theorem wellFormed_sorted {doc : Json} (hdoc : WellFormed doc) : WellFormed doc.sorted := by
  induction hdoc with
  | null => exact .null
  | bool b => exact .bool b
  | int n => exact .int n
  | float text htext => exact .float text htext
  | str s => exact .str s
  | arr elements h ih =>
    refine .arr _ fun sorted hsorted => ?_
    rw [sortedElements_eq_map] at hsorted
    obtain ⟨e, he, rfl⟩ := List.mem_map.mp hsorted
    exact ih e he
  | obj members hkeys h ih =>
    refine .obj _ ?_ fun sorted hsorted => ?_
    · have hperm := (List.perm_insertionSort (fun a b : String × Json => a.1 ≤ b.1)
        (sortedMembers members)).map Prod.fst
      rw [hperm.nodup_iff, sortedMembers_eq_map, List.map_map]
      exact hkeys
    · rw [List.mem_insertionSort, sortedMembers_eq_map] at hsorted
      obtain ⟨m, hm, rfl⟩ := List.mem_map.mp hsorted
      exact ih m hm

/-- What was dumped with sorted keys is read back sorted. -/
theorem read_dumps_sorted {o : DumpOptions} (ho : o.Readable) (hsort : o.sortKeys = true)
    {doc : Json} (hdoc : WellFormed doc) : read (doc.dumps o) = some doc.sorted := by
  have ho' : ({ o with sortKeys := false } : DumpOptions).Readable := ⟨ho.item, ho.key⟩
  rw [dumps_eq_sorted hsort hdoc]
  exact read_dumps ho' rfl (wellFormed_sorted hdoc)

/-- Documents have one canonical text if and only if they differ in the order of members alone. -/
theorem dumps_eq_iff {o : DumpOptions} (ho : o.Readable) (hsort : o.sortKeys = true)
    {doc doc' : Json} (hdoc : WellFormed doc) (hdoc' : WellFormed doc') :
    doc.dumps o = doc'.dumps o ↔ doc.sorted = doc'.sorted := by
  constructor
  · intro h
    have hread := read_dumps_sorted ho hsort hdoc
    rw [h, read_dumps_sorted ho hsort hdoc'] at hread
    exact (Option.some.inj hread).symm
  · intro h
    rw [dumps_eq_sorted hsort hdoc, dumps_eq_sorted hsort hdoc', h]

/-- A digest has one value for two texts. -/
def Collides {α β : Type*} (digest : α → β) (x y : α) : Prop := x ≠ y ∧ digest x = digest y

/-- One value of a digest means equal texts, or a collision of the two. -/
theorem digest_eq_iff {α β : Type*} (digest : α → β) (x y : α) :
    digest x = digest y ↔ x = y ∨ Collides digest x y := by
  constructor
  · intro h
    by_cases hxy : x = y
    · exact .inl hxy
    · exact .inr ⟨hxy, h⟩
  · rintro (rfl | ⟨-, h⟩)
    · rfl
    · exact h

/-! ## Members in another order -/

/-- Objects may hold their members in another order, at every depth. -/
inductive Reordered : Json → Json → Prop
  | refl (doc : Json) : Reordered doc doc
  | arr (pairs : List (Json × Json)) (h : ∀ p ∈ pairs, Reordered p.1 p.2) :
    Reordered (.arr (pairs.map Prod.fst)) (.arr (pairs.map Prod.snd))
  | obj (entries : List (String × Json × Json)) (h : ∀ e ∈ entries, Reordered e.2.1 e.2.2)
    (members : List (String × Json))
    (hperm : members.Perm (entries.map fun e => (e.1, e.2.2))) :
    Reordered (.obj (entries.map fun e => (e.1, e.2.1))) (.obj members)

/-- Members with distinct keys have one sorted order. -/
theorem insertionSort_eq_of_perm {α : Type*} {members members' : List (String × α)}
    (hkeys : (members.map Prod.fst).Nodup) (hperm : members.Perm members') :
    members.insertionSort (fun a b => a.1 ≤ b.1) =
      members'.insertionSort fun a b => a.1 ≤ b.1 := by
  have hsort := List.perm_insertionSort (fun a b : String × α => a.1 ≤ b.1) members
  have hsort' := List.perm_insertionSort (fun a b : String × α => a.1 ≤ b.1) members'
  have : Std.Total fun a b : String × α => a.1 ≤ b.1 := ⟨fun a b => le_total a.1 b.1⟩
  have : IsTrans (String × α) fun a b => a.1 ≤ b.1 := ⟨fun _ _ _ => le_trans⟩
  refine List.Perm.eq_of_pairwise (fun a b ha hb hab hba => ?_) (List.pairwise_insertionSort _ _)
    (List.pairwise_insertionSort _ _) ((hsort.trans hperm).trans hsort'.symm)
  refine List.inj_on_of_nodup_map hkeys (hsort.mem_iff.mp ha) ?_ (le_antisymm hab hba)
  exact hperm.mem_iff.mpr (hsort'.mem_iff.mp hb)

/-- A document in another order is the same when sorted. -/
theorem sorted_eq_of_reordered {doc doc' : Json} (h : Reordered doc doc') (hdoc : WellFormed doc) :
    doc.sorted = doc'.sorted := by
  induction h with
  | refl doc => rfl
  | arr pairs h ih =>
    cases hdoc with
    | arr _ hwell =>
      rw [Json.sorted, Json.sorted, sortedElements_eq_map, sortedElements_eq_map, List.map_map,
        List.map_map]
      refine congrArg Json.arr (List.map_congr_left fun p hp => ?_)
      exact ih p hp (hwell p.1 (List.mem_map_of_mem hp))
  | obj entries h members hperm ih =>
    cases hdoc with
    | obj _ hkeys hwell =>
      have hvalues : ∀ e ∈ entries, e.2.1.sorted = e.2.2.sorted := fun e he =>
        ih e he (hwell (e.1, e.2.1) (List.mem_map_of_mem (f := fun e => (e.1, e.2.1)) he))
      have hmap : (entries.map fun e => (e.1, e.2.1)).map (fun m => (m.1, m.2.sorted)) =
          (entries.map fun e => (e.1, e.2.2)).map fun m => (m.1, m.2.sorted) := by
        rw [List.map_map, List.map_map]
        exact List.map_congr_left fun e he => by
          rw [Function.comp_apply, Function.comp_apply, hvalues e he]
      have hfst : ((entries.map fun e => (e.1, e.2.1)).map fun m =>
          (m.1, m.2.sorted)).map Prod.fst = (entries.map fun e => (e.1, e.2.1)).map Prod.fst := by
        rw [List.map_map]
        rfl
      rw [Json.sorted, Json.sorted, sortedMembers_eq_map, sortedMembers_eq_map]
      refine congrArg Json.obj (insertionSort_eq_of_perm (by rw [hfst]; exact hkeys) ?_)
      rw [hmap]
      exact (hperm.map _).symm

/-- The order of members does not decide whether a document is well formed. -/
theorem wellFormed_of_reordered {doc doc' : Json} (h : Reordered doc doc') (hdoc : WellFormed doc) :
    WellFormed doc' := by
  induction h with
  | refl doc => exact hdoc
  | arr pairs h ih =>
    cases hdoc with
    | arr _ hwell =>
      refine .arr _ fun e he => ?_
      obtain ⟨p, hp, rfl⟩ := List.mem_map.mp he
      exact ih p hp (hwell p.1 (List.mem_map_of_mem hp))
  | obj entries h members hperm ih =>
    cases hdoc with
    | obj _ hkeys hwell =>
      refine .obj _ ?_ fun m hm => ?_
      · rw [(hperm.map Prod.fst).nodup_iff, List.map_map]
        rw [List.map_map] at hkeys
        exact hkeys
      · obtain ⟨e, he, rfl⟩ := List.mem_map.mp (hperm.mem_iff.mp hm)
        exact ih e he (hwell (e.1, e.2.1) (List.mem_map_of_mem (f := fun e => (e.1, e.2.1)) he))

end Kepryx.JsonText
