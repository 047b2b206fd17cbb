import Mathlib.Data.List.Nodup

/-!
# Graphs with a bound on their nodes

A graph is built by additions only. A node that would exceed the bound is refused, and the
refusal is remembered; an edge is entered only between nodes that are there, and once for each
relation. The bound, the distinct identifiers and the ends of the edges are fields, so no
addition can build a graph that breaks them.
-/
namespace Kepryx.BoundedGraph

variable {ι ν ρ ε : Type*}

/-! ## A cap on the rows of each owner -/

section Keep
variable {α κ : Type*} [DecidableEq κ] (cap : ℕ) (owner : α → Option κ)

/-- The rows that a cap lets through, after `counts` of each owner. -/
def keep : (κ → ℕ) → List α → List α
  | _, [] => []
  | counts, r :: rows =>
    match owner r with
    | none => keep counts rows
    | some k =>
      if cap ≤ counts k then keep counts rows
      else r :: keep (Function.update counts k (counts k + 1)) rows

theorem mem_of_mem_keep {counts : κ → ℕ} {rows : List α} {r : α}
    (h : r ∈ keep cap owner counts rows) : r ∈ rows := by
  induction rows generalizing counts with
  | nil => simp [keep] at h
  | cons q rows ih =>
    unfold keep at h
    split at h
    · exact List.mem_cons_of_mem q (ih h)
    · split_ifs at h
      · exact List.mem_cons_of_mem q (ih h)
      · rcases List.mem_cons.mp h with rfl | h
        · exact List.mem_cons_self
        · exact List.mem_cons_of_mem q (ih h)

def ownedBy (k : κ) (r : α) : Bool := owner r = some k

/-- What the cap leaves of one owner. -/
theorem countP_keep (k : κ) (counts : κ → ℕ) (rows : List α) :
    (keep cap owner counts rows).countP (ownedBy owner k) =
      min (cap - counts k) (rows.countP (ownedBy owner k)) := by
  induction rows generalizing counts with
  | nil => simp [keep]
  | cons r rows ih =>
    unfold keep
    split
    · rename_i hr
      rw [ih, List.countP_cons_of_neg (by simp [ownedBy, hr])]
    · rename_i j hr
      by_cases hjk : j = k
      · subst hjk
        have hp : ownedBy owner j r = true := by simp [ownedBy, hr]
        split_ifs with hcap
        · rw [ih, List.countP_cons_of_pos hp]
          omega
        · rw [List.countP_cons_of_pos hp, ih, List.countP_cons_of_pos hp, Function.update_self]
          omega
      · have hp : ¬ ownedBy owner k r = true := by simp [ownedBy, hr, hjk]
        split_ifs with hcap
        · rw [ih, List.countP_cons_of_neg hp]
        · rw [List.countP_cons_of_neg hp, ih, List.countP_cons_of_neg hp,
            Function.update_of_ne (Ne.symm hjk)]

end Keep

/-! ## Graphs -/

structure Node (ι ν : Type*) where
  id : ι
  data : ν
  deriving DecidableEq, Repr

structure Edge (ι ρ ε : Type*) where
  source : ι
  target : ι
  relation : ρ
  data : ε
  deriving DecidableEq, Repr

/-- What an edge is entered once for. -/
def Edge.key (e : Edge ι ρ ε) : ι × ι × ρ := (e.source, e.target, e.relation)

/-- The graph built so far, and whether a node was refused. -/
structure Graph (ι ν ρ ε : Type*) (limit : ℕ) where
  nodes : List (Node ι ν)
  edges : List (Edge ι ρ ε)
  truncated : Bool
  bounded : nodes.length ≤ limit
  distinct : (nodes.map Node.id).Nodup
  once : (edges.map Edge.key).Nodup
  ends : ∀ e ∈ edges, e.source ∈ nodes.map Node.id ∧ e.target ∈ nodes.map Node.id

namespace Graph

variable {limit : ℕ}

def nodeIds (g : Graph ι ν ρ ε limit) : List ι := g.nodes.map Node.id

def edgeIds (g : Graph ι ν ρ ε limit) : List (ι × ι × ρ) := g.edges.map Edge.key

def empty : Graph ι ν ρ ε limit :=
  ⟨[], [], false, Nat.zero_le limit, List.nodup_nil, List.nodup_nil, by simp⟩

@[simp] theorem empty_nodes : (empty : Graph ι ν ρ ε limit).nodes = [] := rfl
@[simp] theorem empty_edges : (empty : Graph ι ν ρ ε limit).edges = [] := rfl

/-- `g` has become `g'` by additions. -/
structure Grows (g g' : Graph ι ν ρ ε limit) : Prop where
  nodes : g.nodes <+: g'.nodes
  edges : g.edges <+: g'.edges
  truncated : g.truncated → g'.truncated

@[refl] theorem Grows.refl (g : Graph ι ν ρ ε limit) : Grows g g :=
  ⟨List.prefix_refl _, List.prefix_refl _, id⟩

theorem Grows.trans {g h k : Graph ι ν ρ ε limit} (hgh : Grows g h) (hhk : Grows h k) :
    Grows g k :=
  ⟨hgh.nodes.trans hhk.nodes, hgh.edges.trans hhk.edges, fun ht => hhk.truncated (hgh.truncated ht)⟩

theorem Grows.nodeIds {g g' : Graph ι ν ρ ε limit} (h : Grows g g') : g.nodeIds <+: g'.nodeIds :=
  h.nodes.map Node.id

theorem Grows.length_le {g g' : Graph ι ν ρ ε limit} (h : Grows g g') :
    g.nodes.length ≤ g'.nodes.length :=
  h.nodes.length_le

/-- A graph that was never refused a node was not refused one before. -/
theorem Grows.not_truncated {g g' : Graph ι ν ρ ε limit} (h : Grows g g')
    (ht : g'.truncated = false) : g.truncated = false := by
  cases hg : g.truncated with
  | false => rfl
  | true => exact absurd (h.truncated hg) (by simp [ht])

/-- Every node but the roots has an edge. -/
def Attached (root : ν → Prop) (g : Graph ι ν ρ ε limit) : Prop :=
  ∀ n ∈ g.nodes, ¬ root n.data → ∃ e ∈ g.edges, e.source = n.id ∨ e.target = n.id

theorem Attached.mono {root : ν → Prop} {g g' : Graph ι ν ρ ε limit} (h : Attached root g)
    (hg : Grows g g') (hnodes : g'.nodes = g.nodes) : Attached root g' := by
  intro n hn hroot
  rw [hnodes] at hn
  obtain ⟨e, he, hends⟩ := h n hn hroot
  exact ⟨e, hg.edges.subset he, hends⟩

/-! ## Adding a node -/

variable [DecidableEq ι]

/-- A node with a known identifier is there already. Whether the node is there in the end. -/
def addNode (n : Node ι ν) (g : Graph ι ν ρ ε limit) : Bool × Graph ι ν ρ ε limit :=
  if h : n.id ∈ g.nodes.map Node.id then (true, g)
  else if hfull : limit ≤ g.nodes.length then (false, { g with truncated := true })
  else
    (true,
      { g with
        nodes := g.nodes ++ [n]
        bounded := by simp; omega
        distinct := by
          rw [List.map_append, List.nodup_append]
          refine ⟨g.distinct, by simp, ?_⟩
          intro i hi j hj hij
          have hn : j = n.id := by simpa using hj
          exact h (hn ▸ hij ▸ hi)
        ends := by
          intro e he
          have hends := g.ends e he
          exact ⟨by simp [hends.1], by simp [hends.2]⟩ })

/-- The three outcomes of `addNode`. -/
theorem addNode_cases (n : Node ι ν) (g : Graph ι ν ρ ε limit) :
    (n.id ∈ g.nodeIds ∧ addNode n g = (true, g)) ∨
    (limit ≤ g.nodes.length ∧ (addNode n g).1 = false ∧ (addNode n g).2.nodes = g.nodes ∧
      (addNode n g).2.edges = g.edges ∧ (addNode n g).2.truncated = true) ∨
    (g.nodes.length < limit ∧ (addNode n g).1 = true ∧ (addNode n g).2.nodes = g.nodes ++ [n] ∧
      (addNode n g).2.edges = g.edges ∧ (addNode n g).2.truncated = g.truncated) := by
  unfold addNode nodeIds
  split_ifs with h hfull
  · exact .inl ⟨h, rfl⟩
  · exact .inr (.inl ⟨hfull, rfl, rfl, rfl, rfl⟩)
  · exact .inr (.inr ⟨Nat.lt_of_not_le hfull, rfl, rfl, rfl, rfl⟩)

theorem addNode_grows (n : Node ι ν) (g : Graph ι ν ρ ε limit) : Grows g (addNode n g).2 := by
  rcases addNode_cases n g with ⟨-, h⟩ | ⟨-, -, hn, he, ht⟩ | ⟨-, -, hn, he, ht⟩
  · rw [h]
  · refine ⟨?_, ?_, fun _ => ht⟩
    · exact hn ▸ List.prefix_refl _
    · exact he ▸ List.prefix_refl _
  · refine ⟨?_, ?_, fun h => by rw [ht, h]⟩
    · rw [hn]
      exact List.prefix_append _ _
    · exact he ▸ List.prefix_refl _

@[simp] theorem addNode_edges (n : Node ι ν) (g : Graph ι ν ρ ε limit) :
    (addNode n g).2.edges = g.edges := by
  rcases addNode_cases n g with ⟨-, h⟩ | ⟨-, -, -, he, -⟩ | ⟨-, -, -, he, -⟩
  · rw [h]
  · exact he
  · exact he

theorem mem_addNode {n : Node ι ν} {g : Graph ι ν ρ ε limit} (h : (addNode n g).1 = true) :
    n.id ∈ (addNode n g).2.nodeIds := by
  rcases addNode_cases n g with ⟨hmem, ha⟩ | ⟨-, hf, -⟩ | ⟨-, -, hn, -⟩
  · rw [ha]
    exact hmem
  · rw [hf] at h
    cases h
  · simp [nodeIds, hn]

/-- A refusal is remembered, and it happens in a full graph only. -/
theorem addNode_refused {n : Node ι ν} {g : Graph ι ν ρ ε limit} (h : (addNode n g).1 = false) :
    limit ≤ g.nodes.length ∧ (addNode n g).2.truncated = true := by
  rcases addNode_cases n g with ⟨-, ha⟩ | ⟨hfull, -, -, -, ht⟩ | ⟨-, ha, -⟩
  · rw [ha] at h
    cases h
  · exact ⟨hfull, ht⟩
  · rw [ha] at h
    cases h

theorem addNode_nodes_of_full {n : Node ι ν} {g : Graph ι ν ρ ε limit}
    (hfull : limit ≤ g.nodes.length) : (addNode n g).2.nodes = g.nodes := by
  rcases addNode_cases n g with ⟨-, h⟩ | ⟨-, -, hn, -⟩ | ⟨hlt, -⟩
  · rw [h]
  · exact hn
  · omega

theorem addNode_nodes_cases (n : Node ι ν) (g : Graph ι ν ρ ε limit) :
    (addNode n g).2.nodes = g.nodes ∨
      (addNode n g).1 = true ∧ (addNode n g).2.nodes = g.nodes ++ [n] := by
  rcases addNode_cases n g with ⟨-, h⟩ | ⟨-, -, hn, -⟩ | ⟨-, ha, hn, -⟩
  · exact .inl (by rw [h])
  · exact .inl hn
  · exact .inr ⟨ha, hn⟩

theorem mem_addNode_nodes {n m : Node ι ν} {g : Graph ι ν ρ ε limit}
    (h : m ∈ (addNode n g).2.nodes) : m ∈ g.nodes ∨ m = n := by
  rcases addNode_nodes_cases n g with hn | ⟨-, hn⟩
  · rw [hn] at h
    exact .inl h
  · rw [hn] at h
    simpa using h

theorem Attached.addNode {root : ν → Prop} {n : Node ι ν} {g : Graph ι ν ρ ε limit}
    (h : Attached root g) (hroot : root n.data) : Attached root (addNode n g).2 := by
  intro m hm hm'
  rw [addNode_edges]
  rcases addNode_nodes_cases n g with hn | ⟨-, hn⟩
  · rw [hn] at hm
    exact h m hm hm'
  · rw [hn] at hm
    rcases List.mem_append.mp hm with hm | hm
    · exact h m hm hm'
    · rw [List.mem_singleton.mp hm] at hm'
      exact absurd hroot hm'

/-! ## Adding an edge -/

variable [DecidableEq ρ]

/-- An edge with an unknown end, or one that is there already, changes nothing. -/
def addEdge (e : Edge ι ρ ε) (g : Graph ι ν ρ ε limit) : Graph ι ν ρ ε limit :=
  if hends : e.source ∈ g.nodes.map Node.id ∧ e.target ∈ g.nodes.map Node.id then
    if h : e.key ∈ g.edges.map Edge.key then g
    else
      { g with
        edges := g.edges ++ [e]
        once := by
          rw [List.map_append, List.nodup_append]
          refine ⟨g.once, by simp, ?_⟩
          intro k hk j hj hkj
          have he : j = e.key := by simpa using hj
          exact h (he ▸ hkj ▸ hk)
        ends := by
          intro d hd
          rcases List.mem_append.mp hd with hd | hd
          · exact g.ends d hd
          · rw [List.mem_singleton.mp hd]
            exact hends }
  else g

@[simp] theorem addEdge_nodes (e : Edge ι ρ ε) (g : Graph ι ν ρ ε limit) :
    (addEdge e g).nodes = g.nodes := by
  unfold addEdge
  split_ifs <;> rfl

@[simp] theorem addEdge_truncated (e : Edge ι ρ ε) (g : Graph ι ν ρ ε limit) :
    (addEdge e g).truncated = g.truncated := by
  unfold addEdge
  split_ifs <;> rfl

theorem addEdge_grows (e : Edge ι ρ ε) (g : Graph ι ν ρ ε limit) : Grows g (addEdge e g) := by
  refine ⟨by simp, ?_, by rw [addEdge_truncated]; exact id⟩
  unfold addEdge
  split_ifs
  · exact List.prefix_refl _
  · exact List.prefix_append _ _
  · exact List.prefix_refl _

theorem mem_addEdge_edges {e d : Edge ι ρ ε} {g : Graph ι ν ρ ε limit}
    (h : d ∈ (addEdge e g).edges) : d ∈ g.edges ∨ d = e := by
  unfold addEdge at h
  split_ifs at h
  · exact .inl h
  · simpa using h
  · exact .inl h

/-- With both ends there, the edge or one that counts as the same is there afterwards. -/
theorem mem_addEdge {e : Edge ι ρ ε} {g : Graph ι ν ρ ε limit} (hs : e.source ∈ g.nodeIds)
    (ht : e.target ∈ g.nodeIds) : ∃ d ∈ (addEdge e g).edges, d.key = e.key := by
  have hends : e.source ∈ g.nodes.map Node.id ∧ e.target ∈ g.nodes.map Node.id := ⟨hs, ht⟩
  by_cases h : e.key ∈ g.edges.map Edge.key
  · obtain ⟨d, hd, hkey⟩ := List.mem_map.mp h
    refine ⟨d, ?_, hkey⟩
    rw [addEdge, dif_pos hends, dif_pos h]
    exact hd
  · refine ⟨e, ?_, rfl⟩
    rw [addEdge, dif_pos hends, dif_neg h]
    exact List.mem_append_right _ (List.mem_singleton_self e)

theorem addEdge_edges {e : Edge ι ρ ε} {g : Graph ι ν ρ ε limit} (hs : e.source ∈ g.nodeIds)
    (ht : e.target ∈ g.nodeIds) (hnew : e.key ∉ g.edgeIds) :
    (addEdge e g).edges = g.edges ++ [e] := by
  have hends : e.source ∈ g.nodes.map Node.id ∧ e.target ∈ g.nodes.map Node.id := ⟨hs, ht⟩
  have hkey : e.key ∉ g.edges.map Edge.key := hnew
  rw [addEdge, dif_pos hends, dif_neg hkey]

/-! ## A node with its edge -/

/-- A node, and its edge if the node is there. -/
def attach (n : Node ι ν) (e : Edge ι ρ ε) (g : Graph ι ν ρ ε limit) :
    Bool × Graph ι ν ρ ε limit :=
  match addNode n g with
  | (true, g) => (true, addEdge e g)
  | (false, g) => (false, g)

@[simp] theorem attach_fst (n : Node ι ν) (e : Edge ι ρ ε) (g : Graph ι ν ρ ε limit) :
    (attach n e g).1 = (addNode n g).1 := by
  unfold attach
  split
  · rename_i h
    rw [h]
  · rename_i h
    rw [h]

theorem attach_snd (n : Node ι ν) (e : Edge ι ρ ε) (g : Graph ι ν ρ ε limit) :
    (attach n e g).2 =
      if (addNode n g).1 then addEdge e (addNode n g).2 else (addNode n g).2 := by
  unfold attach
  split
  · rename_i h
    simp [h]
  · rename_i h
    simp [h]

@[simp] theorem attach_nodes (n : Node ι ν) (e : Edge ι ρ ε) (g : Graph ι ν ρ ε limit) :
    (attach n e g).2.nodes = (addNode n g).2.nodes := by
  rw [attach_snd]
  split_ifs
  · rw [addEdge_nodes]
  · rfl

@[simp] theorem attach_truncated (n : Node ι ν) (e : Edge ι ρ ε) (g : Graph ι ν ρ ε limit) :
    (attach n e g).2.truncated = (addNode n g).2.truncated := by
  rw [attach_snd]
  split_ifs
  · rw [addEdge_truncated]
  · rfl

theorem mem_attach_edges {n : Node ι ν} {e d : Edge ι ρ ε} {g : Graph ι ν ρ ε limit}
    (h : d ∈ (attach n e g).2.edges) : d ∈ g.edges ∨ d = e := by
  rw [attach_snd] at h
  split_ifs at h
  · rcases mem_addEdge_edges h with h | h
    · rw [addNode_edges] at h
      exact .inl h
    · exact .inr h
  · rw [addNode_edges] at h
    exact .inl h

theorem mem_attach_nodes {n m : Node ι ν} {e : Edge ι ρ ε} {g : Graph ι ν ρ ε limit}
    (h : m ∈ (attach n e g).2.nodes) : m ∈ g.nodes ∨ m = n := by
  rw [attach_nodes] at h
  exact mem_addNode_nodes h

theorem attach_grows (n : Node ι ν) (e : Edge ι ρ ε) (g : Graph ι ν ρ ε limit) :
    Grows g (attach n e g).2 := by
  rw [attach_snd]
  split_ifs
  · exact (addNode_grows n g).trans (addEdge_grows e _)
  · exact addNode_grows n g

/-- A node that was let in brings its edge, if the source is there and the edge is new. -/
theorem attach_edges {n : Node ι ν} {e : Edge ι ρ ε} {g : Graph ι ν ρ ε limit}
    (hin : (addNode n g).1 = true) (hs : e.source ∈ g.nodeIds) (ht : e.target = n.id)
    (hnew : e.key ∉ g.edgeIds) : (attach n e g).2.edges = g.edges ++ [e] := by
  have hnew' : e.key ∉ (addNode n g).2.edgeIds := by
    rw [edgeIds, addNode_edges]
    exact hnew
  have hs' := (addNode_grows n g).nodeIds.subset hs
  have ht' : e.target ∈ (addNode n g).2.nodeIds := ht ▸ mem_addNode hin
  rw [attach_snd, if_pos hin, addEdge_edges hs' ht' hnew', addNode_edges]

/-- A node that hangs on one that is there. In a full graph the source may be missing, for then
no node comes in. -/
theorem Attached.attach {root : ν → Prop} {n : Node ι ν} {e : Edge ι ρ ε}
    {g : Graph ι ν ρ ε limit} (h : Attached root g) (ht : e.target = n.id)
    (hs : e.source ∈ g.nodeIds ∨ limit ≤ g.nodes.length) : Attached root (attach n e g).2 := by
  have hgrows := attach_grows n e g
  rcases addNode_nodes_cases n g with hn | ⟨hin, hn⟩
  · exact h.mono hgrows (by rw [attach_nodes, hn])
  · have hs : e.source ∈ g.nodeIds := by
      refine hs.resolve_right fun hfull => ?_
      have hlen := congrArg List.length (hn.symm.trans (addNode_nodes_of_full hfull))
      simp at hlen
    intro m hm hroot
    rw [attach_nodes, hn] at hm
    rcases List.mem_append.mp hm with hm | hm
    · obtain ⟨d, hd, hends⟩ := h m hm hroot
      exact ⟨d, hgrows.edges.subset hd, hends⟩
    · have hs' := (addNode_grows n g).nodeIds.subset hs
      have ht' : e.target ∈ (Graph.addNode n g).2.nodeIds := ht ▸ mem_addNode hin
      obtain ⟨d, hd, hkey⟩ := mem_addEdge hs' ht'
      refine ⟨d, ?_, .inr ?_⟩
      · rw [attach_snd, if_pos hin]
        exact hd
      · have htarget : d.target = e.target := congrArg (fun k => k.2.1) hkey
        rw [htarget, ht, List.mem_singleton.mp hm]

/-! ## Several nodes, each with its edge -/

def attachAll (links : List (Node ι ν × Edge ι ρ ε)) (g : Graph ι ν ρ ε limit) :
    Graph ι ν ρ ε limit :=
  links.foldl (fun g l => (attach l.1 l.2 g).2) g

theorem attachAll_grows (links : List (Node ι ν × Edge ι ρ ε)) (g : Graph ι ν ρ ε limit) :
    Grows g (attachAll links g) := by
  induction links generalizing g with
  | nil => exact Grows.refl g
  | cons l links ih => exact (attach_grows l.1 l.2 g).trans (ih _)

theorem mem_attachAll_edges {links : List (Node ι ν × Edge ι ρ ε)} {d : Edge ι ρ ε}
    {g : Graph ι ν ρ ε limit} (h : d ∈ (attachAll links g).edges) :
    d ∈ g.edges ∨ ∃ l ∈ links, d = l.2 := by
  induction links generalizing g with
  | nil => exact .inl h
  | cons l links ih =>
    rcases ih h with hd | ⟨l', hl', rfl⟩
    · rcases mem_attach_edges hd with hd | rfl
      · exact .inl hd
      · exact .inr ⟨l, by simp⟩
    · exact .inr ⟨l', by simp [hl']⟩

theorem mem_attachAll_nodes {links : List (Node ι ν × Edge ι ρ ε)} {n : Node ι ν}
    {g : Graph ι ν ρ ε limit} (h : n ∈ (attachAll links g).nodes) :
    n ∈ g.nodes ∨ ∃ l ∈ links, n = l.1 := by
  induction links generalizing g with
  | nil => exact .inl h
  | cons l links ih =>
    rcases ih h with hn | ⟨l', hl', rfl⟩
    · rcases mem_attach_nodes hn with hn | rfl
      · exact .inl hn
      · exact .inr ⟨l, by simp⟩
    · exact .inr ⟨l', by simp [hl']⟩

/-- All of them hang on a node that is there. -/
theorem Attached.attachAll {root : ν → Prop} {links : List (Node ι ν × Edge ι ρ ε)}
    {g : Graph ι ν ρ ε limit} (h : Attached root g) (ht : ∀ l ∈ links, l.2.target = l.1.id)
    (hs : ∀ l ∈ links, l.2.source ∈ g.nodeIds) : Attached root (attachAll links g) := by
  induction links generalizing g with
  | nil => exact h
  | cons l links ih =>
    have hhead := h.attach (ht l (by simp)) (.inl (hs l (by simp)))
    refine ih hhead (fun l' hl' => ht l' (by simp [hl'])) fun l' hl' => ?_
    exact (attach_grows l.1 l.2 g).nodeIds.subset (hs l' (by simp [hl']))

/-! ## Rows with a cap -/

section Capped
variable {α κ : Type*} [DecidableEq κ] (cap : ℕ) (owner : α → Option κ)

variable (node : α → Node ι ν) (edge : κ → α → Edge ι ρ ε)

/-- One row: without an owner, or beyond the cap, it is passed over. -/
def cappedTurn (s : Graph ι ν ρ ε limit × (κ → ℕ)) (r : α) :
    Graph ι ν ρ ε limit × (κ → ℕ) :=
  match owner r with
  | none => s
  | some k =>
    if cap ≤ s.2 k then s
    else
      match attach (node r) (edge k r) s.1 with
      | (true, g) => (g, Function.update s.2 k (s.2 k + 1))
      | (false, g) => (g, s.2)

/-- What one row does: it is passed over, or its node is tried. -/
theorem cappedTurn_cases (s : Graph ι ν ρ ε limit × (κ → ℕ)) (r : α) :
    (cappedTurn cap owner node edge s r = s ∧ ∀ rows,
      keep cap owner s.2 (r :: rows) = keep cap owner s.2 rows) ∨
    ∃ k, owner r = some k ∧ ¬ cap ≤ s.2 k ∧
      (cappedTurn cap owner node edge s r).1 = (attach (node r) (edge k r) s.1).2 ∧
      ((addNode (node r) s.1).1 = true →
        (cappedTurn cap owner node edge s r).2 = Function.update s.2 k (s.2 k + 1)) := by
  cases hr : owner r with
  | none => exact .inl ⟨by simp [cappedTurn, hr], fun rows => by simp [keep, hr]⟩
  | some k =>
    by_cases hcap : cap ≤ s.2 k
    · exact .inl ⟨by simp [cappedTurn, hr, hcap], fun rows => by simp [keep, hr, hcap]⟩
    · refine .inr ⟨k, rfl, hcap, ?_, ?_⟩
      · simp only [cappedTurn, hr, if_neg hcap]
        split
        · rename_i h
          rw [h]
        · rename_i h
          rw [h]
      · intro hin
        rw [← attach_fst (node r) (edge k r) s.1] at hin
        simp only [cappedTurn, hr, if_neg hcap]
        split
        · rfl
        · rename_i h
          rw [h] at hin
          cases hin

theorem cappedTurn_grows (s : Graph ι ν ρ ε limit × (κ → ℕ)) (r : α) :
    Grows s.1 (cappedTurn cap owner node edge s r).1 := by
  rcases cappedTurn_cases cap owner node edge s r with ⟨h, -⟩ | ⟨k, -, -, h, -⟩
  · rw [h]
  · rw [h]
    exact attach_grows _ _ _

theorem foldl_cappedTurn_grows (rows : List α) (s : Graph ι ν ρ ε limit × (κ → ℕ)) :
    Grows s.1 (rows.foldl (cappedTurn cap owner node edge) s).1 := by
  induction rows generalizing s with
  | nil => exact Grows.refl s.1
  | cons r rows ih => exact (cappedTurn_grows cap owner node edge s r).trans (ih _)

variable {cap owner node edge}

theorem Attached.foldl_cappedTurn {root : ν → Prop} {rows : List α}
    {s : Graph ι ν ρ ε limit × (κ → ℕ)} (h : Attached root s.1)
    (ht : ∀ k, ∀ r ∈ rows, (edge k r).target = (node r).id)
    (hs : ∀ k, ∀ r ∈ rows, owner r = some k →
      (edge k r).source ∈ s.1.nodeIds ∨ limit ≤ s.1.nodes.length) :
    Attached root (rows.foldl (cappedTurn cap owner node edge) s).1 := by
  induction rows generalizing s with
  | nil => exact h
  | cons r rows ih =>
    have hgrows := cappedTurn_grows cap owner node edge s r
    apply ih
    · rcases cappedTurn_cases cap owner node edge s r with ⟨he, -⟩ | ⟨k, hk, -, he, -⟩
      · rw [he]
        exact h
      · rw [he]
        exact h.attach (ht k r (by simp)) (hs k r (by simp) hk)
    · exact fun k q hq => ht k q (by simp [hq])
    · intro k q hq hk
      rcases hs k q (by simp [hq]) hk with hs | hfull
      · exact .inl (hgrows.nodeIds.subset hs)
      · exact .inr (Nat.le_trans hfull hgrows.length_le)

/-- Where no node is refused, the edges that come in are those of the rows the cap lets through. -/
theorem foldl_cappedTurn_edges {rows : List α} {s : Graph ι ν ρ ε limit × (κ → ℕ)}
    {owning : α → κ} (howner : ∀ r ∈ rows, ∀ k, owner r = some k → owning r = k)
    (ht : ∀ r ∈ rows, (edge (owning r) r).target = (node r).id)
    (hs : ∀ r ∈ rows, (edge (owning r) r).source ∈ s.1.nodeIds)
    (hkeys : (rows.map fun r => (edge (owning r) r).key).Nodup)
    (hnew : ∀ r ∈ rows, (edge (owning r) r).key ∉ s.1.edgeIds)
    (huntruncated : (rows.foldl (cappedTurn cap owner node edge) s).1.truncated = false) :
    (rows.foldl (cappedTurn cap owner node edge) s).1.edges =
      s.1.edges ++ (keep cap owner s.2 rows).map fun r => edge (owning r) r := by
  induction rows generalizing s with
  | nil => simp [keep]
  | cons r rows ih =>
    rw [List.foldl_cons] at huntruncated ⊢
    rw [List.map_cons, List.nodup_cons] at hkeys
    have howner' : ∀ q ∈ rows, ∀ k, owner q = some k → owning q = k :=
      fun q hq => howner q (by simp [hq])
    have ht' : ∀ q ∈ rows, (edge (owning q) q).target = (node q).id :=
      fun q hq => ht q (by simp [hq])
    have hgrows := cappedTurn_grows cap owner node edge s r
    have hs' : ∀ q ∈ rows, (edge (owning q) q).source ∈
        (cappedTurn cap owner node edge s r).1.nodeIds :=
      fun q hq => hgrows.nodeIds.subset (hs q (by simp [hq]))
    rcases cappedTurn_cases cap owner node edge s r with ⟨he, hkeep⟩ | ⟨k, hk, hcap, he, hcount⟩
    · rw [he] at huntruncated ⊢
      rw [he] at hs'
      rw [ih howner' ht' hs' hkeys.2 (fun q hq => hnew q (by simp [hq])) huntruncated, hkeep]
    · have hr : owning r = k := howner r (by simp) k hk
      -- the node was not refused, for a refusal would be remembered
      have hin : (addNode (node r) s.1).1 = true := by
        by_contra hf
        have hrefused := (addNode_refused (by simpa using hf)).2
        have hlater := foldl_cappedTurn_grows cap owner node edge rows
          (cappedTurn cap owner node edge s r)
        have hnot := hlater.not_truncated huntruncated
        rw [he, attach_truncated, hrefused] at hnot
        cases hnot
      have hkey := hnew r (by simp)
      have htarget := ht r (by simp)
      have hsource := hs r (by simp)
      rw [hr] at hkey htarget hsource
      have hedges := attach_edges hin hsource htarget hkey
      rw [← he] at hedges
      have hnew' : ∀ q ∈ rows, (edge (owning q) q).key ∉
          (cappedTurn cap owner node edge s r).1.edgeIds := by
        intro q hq hmem
        rw [edgeIds, hedges, List.map_append, List.mem_append] at hmem
        rcases hmem with hmem | hmem
        · exact hnew q (by simp [hq]) hmem
        · have hqr : (edge (owning q) q).key = (edge k r).key := by simpa using hmem
          rw [← hr] at hqr
          exact hkeys.1 (hqr ▸ List.mem_map_of_mem hq)
      rw [ih howner' ht' hs' hkeys.2 hnew' huntruncated, hedges, hcount hin]
      simp [keep, hk, hcap, hr]

end Capped

end Graph

end Kepryx.BoundedGraph
