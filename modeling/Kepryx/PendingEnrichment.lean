import Kepryx.BoundedRounds
import Kepryx.RiskPaths

/-!
# The assets that enrichment reaches

A run of `_enrich_pending_assets` enriches the first fifty assets that its query selects. The
query reads `last_seen`, which the update of the risk columns sets, and the links, which an
answer without CVEs does not add. So an enriched asset may be selected again and again.
-/
namespace Kepryx.PendingEnrichment
open Kepryx.Models Kepryx.Tables Kepryx.CveFeeds Kepryx.RiskWriters Kepryx.BoundedRounds

/-! ## `_enrich_pending_assets` -/

/-- `Asset.cves.any()` -/
def hasCves (db : Database) (assetId : ℕ) : Bool :=
  db.assetCves.rows.any fun l => l.assetId = assetId

/-- The `where` clause of the selection; a null is not the empty list. -/
def pending (now : Time) (db : Database) (a : Asset) : Bool :=
  a.cpe ≠ some [] && (decide (now - hours 24 < a.lastSeen) || !hasCves db a.id)

def selectPending (now : Time) (db : Database) : List Asset :=
  (db.assets.rows.filter (pending now db)).take 50

/-- What a run leaves: the assets that were passed to the enricher, the committed database, and
the exception that ended it. -/
structure RunResult where
  passed : List ℕ
  db : Database
  error : Option Failure

/-- An asset without CPEs is not passed to the enricher. -/
def given (a : Asset) : List ℕ := if a.cpe.getD [] = [] then [] else [a.id]

/-- The loop over the selected assets, with a commit after each. -/
def enrichEach (clock : ℕ → Time) (enrich : ℕ → List String → Except FeedError Answer) :
    Database → List Asset → RunResult
  | db, [] => ⟨[], db, none⟩
  | db, a :: assets =>
    match enrichOneAsset (clock a.id) (enrich a.id) db a.id with
    | .error e => ⟨given a, db, some e⟩
    | .ok db' =>
      let rest := enrichEach clock enrich db' assets
      ⟨given a ++ rest.passed, rest.db, rest.error⟩

/-- `_enrich_pending_assets` -/
def enrichPendingAssets (now : Time) (clock : ℕ → Time)
    (enrich : ℕ → List String → Except FeedError Answer) (db : Database) : RunResult :=
  enrichEach clock enrich db (selectPending now db)

/-! ## Consecutive runs -/

/-- The clock and the answers of the runs of a day: `now s` is read when the run `s` starts,
`clock s i` when it stores the asset `i`, and no request fails. -/
structure Day where
  now : ℕ → Time
  clock : ℕ → ℕ → Time
  answer : ℕ → ℕ → List String → Answer
  ordered : Monotone now
  started : ∀ s i, now s ≤ clock s i
  within : ∀ s t, now t - hours 24 < now s

/-- The run `s` of the day. -/
def Day.run (D : Day) (s : ℕ) (db : Database) : RunResult :=
  enrichPendingAssets (D.now s) (D.clock s) (fun i cpes => .ok (D.answer s i cpes)) db

/-- The database after the first runs. -/
def Day.after (D : Day) (db : Database) : ℕ → Database
  | 0 => db
  | s + 1 => (D.run s (D.after db s)).db

/-- The assets that match the selection of the first run. -/
def eligible (D : Day) (db : Database) : List Asset :=
  db.assets.rows.filter (pending (D.now 0) db)

/-- `ceil(E / 50)` -/
def runCount (D : Day) (db : Database) : ℕ := ((eligible D db).length + 49) / 50

/-- That many runs pass every eligible asset to the enricher. -/
def ReachesAll (D : Day) (db : Database) : Prop :=
  ∀ a ∈ eligible D db, ∃ s < runCount D db, a.id ∈ (D.run s (D.after db s)).passed

/-! ## The assets by themselves -/

/-- What the query and the enrichment of an asset depend on, and whether the asset is still to be
enriched. -/
structure Item where
  asset : Asset
  linked : Bool
  waiting : Bool

/-- The selection of the run `s`. -/
def listed (D : Day) (s : ℕ) (x : Item) : Bool :=
  x.asset.cpe ≠ some [] && (decide (D.now s - hours 24 < x.asset.lastSeen) || !x.linked)

/-- The row that an answer leaves. -/
def enriched (now : Time) (a : Asset) (answer : Answer) : Asset :=
  flushUpdate now a (storeRisk a (riskOf a.toAssetColumns (answer.rows.map answerEvidence)))

/-- The enrichment of an asset in the run `s`. -/
def serve (D : Day) (s : ℕ) (x : Item) : Item :=
  if x.asset.cpe.getD [] = [] then { x with waiting := false }
  else
    let answer := D.answer s x.asset.id (x.asset.cpe.getD [])
    { asset := enriched (D.clock s x.asset.id) x.asset answer
      linked := x.linked || !answer.rows.isEmpty
      waiting := false }

/-- The rows of a database as items; `W` says which are still to be enriched. -/
def itemsOf (W : ℕ → Bool) (db : Database) : List Item :=
  db.assets.rows.map fun a => ⟨a, hasCves db a.id, W a.id⟩

/-- The items at the start of the day. -/
def itemsAtStart (D : Day) (db : Database) : List Item :=
  db.assets.rows.map fun a => ⟨a, hasCves db a.id, pending (D.now 0) db a⟩

/-- No eligible asset has a null for its CPEs, and the assets can be cut into one group for each
run: the eligible ones of a group are still selected in its run, and with those of the groups
before it that are selected again they make fifty, at most fifty in the last run. -/
structure InGroups (D : Day) (db : Database) : Prop where
  cpe : ∀ a ∈ eligible D db, a.cpe ≠ none
  groups : ∃ gs ys, itemsAtStart D db = gs.flatten ++ ys ∧ gs.length = runCount D db ∧
    (∀ y ∈ ys, listed D 0 y = false) ∧ Scheduled (listed D) (serve D) 50 0 [] gs

/-! ## One enrichment -/

@[simp] theorem enriched_id (now : Time) (a : Asset) (answer : Answer) :
    (enriched now a answer).id = a.id := flushUpdate_id (storeRisk_id a _)

@[simp] theorem enriched_cpe (now : Time) (a : Asset) (answer : Answer) :
    (enriched now a answer).cpe = a.cpe := by
  rw [enriched, flushUpdate_eq]
  rfl

theorem serve_id (D : Day) (s : ℕ) (x : Item) : (serve D s x).asset.id = x.asset.id := by
  unfold serve
  split
  · rfl
  · exact enriched_id _ _ _

theorem serve_cpe (D : Day) (s : ℕ) (x : Item) : (serve D s x).asset.cpe = x.asset.cpe := by
  unfold serve
  split
  · rfl
  · exact enriched_cpe _ _ _

theorem serve_waiting (D : Day) (s : ℕ) (x : Item) : (serve D s x).waiting = false := by
  unfold serve
  split
  · rfl
  · rfl

/-- An enriched asset is selected again if its risk changed, if its `last_seen` is still recent,
or if it has no CVE. -/
theorem listed_serve_iff (D : Day) (s t : ℕ) {x : Item} (hcpe : x.asset.cpe.getD [] ≠ []) :
    listed D t (serve D s x) ↔
      storedRisk x.asset ≠ storedRisk (storeRisk x.asset (riskOf x.asset.toAssetColumns
        ((D.answer s x.asset.id (x.asset.cpe.getD [])).rows.map answerEvidence))) ∨
      D.now t - hours 24 < x.asset.lastSeen ∨
      (x.linked = false ∧ (D.answer s x.asset.id (x.asset.cpe.getD [])).rows = []) := by
  have hne : x.asset.cpe ≠ some [] := fun h => hcpe (by rw [h]; rfl)
  have hlisted : listed D t (serve D s x) ↔
      D.now t - hours 24 < (serve D s x).asset.lastSeen ∨ (serve D s x).linked = false := by
    rw [listed, serve_cpe, Bool.and_eq_true, Bool.or_eq_true, decide_eq_true_eq,
      decide_eq_true_eq, Bool.not_eq_true', and_iff_right hne]
  rw [hlisted, serve, if_neg hcpe]
  generalize D.answer s x.asset.id (x.asset.cpe.getD []) = answer
  generalize hrisk : riskOf x.asset.toAssetColumns (answer.rows.map answerEvidence) = risk
  have hlink : (x.linked || !answer.rows.isEmpty) = false ↔
      x.linked = false ∧ answer.rows = [] := by
    rw [Bool.or_eq_false_iff, Bool.not_eq_false', List.isEmpty_iff]
  by_cases hsame : storedRisk x.asset = storedRisk (storeRisk x.asset risk)
  · have hself : storeRisk x.asset risk = x.asset := storeRisk_eq_self.mpr hsame
    simp only [enriched, hrisk, hself, flushUpdate_self, hlink, ne_eq, not_true_eq_false,
      false_or]
  · have hchanged : storeRisk x.asset risk ≠ x.asset := fun h =>
      hsame (by rw [h])
    have hseen : (enriched (D.clock s x.asset.id) x.asset answer).lastSeen =
        D.clock s x.asset.id := by
      rw [enriched, hrisk]
      exact flushUpdate_lastSeen_of_changed hchanged rfl
    have hrecent := (D.within s t).trans_le (D.started s x.asset.id)
    simp only [hseen, hrecent, true_or, ne_eq, hsame, not_false_eq_true]

/-! ## The loop over the selected assets -/

theorem hasCves_iff {db : Database} {i : ℕ} :
    hasCves db i ↔ ∃ x, (db.assetCves.find (i, x)).isSome := by
  rw [hasCves, List.any_eq_true]
  constructor
  · rintro ⟨l, hl, hi⟩
    obtain rfl : l.assetId = i := of_decide_eq_true hi
    exact ⟨l.cveId, by rw [show (l.assetId, l.cveId) = l.key from rfl, Table.find_key hl]; rfl⟩
  · rintro ⟨x, hx⟩
    obtain ⟨l, hl⟩ := Option.isSome_iff_exists.mp hx
    obtain ⟨hl, hkey⟩ := Table.find_eq_some.mp hl
    exact ⟨l, hl, decide_eq_true (congrArg Prod.fst hkey)⟩

theorem hasCves_storeAnswer (now : Time) (db : Database) (a : Asset) (answer : Answer) (i : ℕ) :
    hasCves (storeAnswer now db a answer) i =
      (hasCves db i || (decide (i = a.id) && !answer.rows.isEmpty)) := by
  have hfind : ∀ x, ((storeAnswer now db a answer).assetCves.find (i, x)).isSome ↔
      (db.assetCves.find (i, x)).isSome ∨ ∃ c ∈ answer.rows, (a.id, c.id) = (i, x) := by
    intro x
    refine (iff_of_eq (congrArg (fun o => Option.isSome o = true)
      (find_link_storeCves now a.id db answer.rows (i, x)))).trans ?_
    rw [Option.isSome_or, Bool.or_eq_true, Option.isSome_map, List.find?_isSome]
    simp only [decide_eq_true_eq]
  rw [Bool.eq_iff_iff, Bool.or_eq_true, Bool.and_eq_true, hasCves_iff, hasCves_iff,
    decide_eq_true_eq, Bool.not_eq_true', List.isEmpty_eq_false_iff]
  constructor
  · rintro ⟨x, hx⟩
    rcases (hfind x).mp hx with hold | ⟨c, hc, heq⟩
    · exact .inl ⟨x, hold⟩
    · exact .inr ⟨(congrArg Prod.fst heq).symm, List.ne_nil_of_mem hc⟩
  · rintro (⟨x, hx⟩ | ⟨rfl, hne⟩)
    · exact ⟨x, (hfind x).mpr (.inl hx)⟩
    · obtain ⟨c, hc⟩ := List.exists_mem_of_ne_nil _ hne
      exact ⟨c.id, (hfind c.id).mpr (.inr ⟨c, hc, rfl⟩)⟩

/-- The same database with one asset served. -/
theorem itemsOf_storeAnswer (D : Day) (s : ℕ) {W : ℕ → Bool} {db : Database} {a : Asset}
    (ha : db.assets.find a.id = some a) (hcpe : a.cpe.getD [] ≠ []) :
    itemsOf (fun i => W i && decide (i ≠ a.id))
        (storeAnswer (D.clock s a.id) db a (D.answer s a.id (a.cpe.getD []))) =
      (itemsOf W db).map fun x => if x.asset.id = a.id then serve D s x else x := by
  rw [itemsOf, itemsOf, assets_storeAnswer, Table.put, List.map_map, List.map_map]
  refine List.map_congr_left fun b hb => ?_
  rw [Function.comp_apply, Function.comp_apply, flushUpdate_id (storeRisk_id a _)]
  by_cases hid : b.id = a.id
  · obtain rfl : b = a := Option.some.inj ((Table.find_key hb).symm.trans (hid ▸ ha))
    rw [if_pos rfl, if_pos rfl, serve, if_neg hcpe, hasCves_storeAnswer]
    simp [enriched, flushUpdate_id (storeRisk_id b _)]
  · rw [if_neg hid, if_neg hid, hasCves_storeAnswer]
    simp [hid]

/-- The enrichment of a stored asset succeeds and serves this asset only. -/
theorem enrichOneAsset_spec (D : Day) (s : ℕ) (W : ℕ → Bool) {db : Database} {a : Asset}
    (ha : db.assets.find a.id = some a) : ∃ db',
    enrichOneAsset (D.clock s a.id) (fun cpes => .ok (D.answer s a.id cpes)) db a.id = .ok db' ∧
      itemsOf (fun i => W i && decide (i ≠ a.id)) db' =
        (itemsOf W db).map (fun x => if x.asset.id = a.id then serve D s x else x) ∧
      ∀ b : Asset, b.id ≠ a.id → db'.assets.find b.id = db.assets.find b.id := by
  unfold enrichOneAsset
  simp only [ha]
  by_cases hcpe : a.cpe.getD [] = []
  · rw [if_pos hcpe]
    refine ⟨db, rfl, ?_, fun _ _ => rfl⟩
    rw [itemsOf, itemsOf, List.map_map]
    refine List.map_congr_left fun b hb => ?_
    rw [Function.comp_apply]
    by_cases hid : b.id = a.id
    · obtain rfl : b = a := Option.some.inj ((Table.find_key hb).symm.trans (hid ▸ ha))
      rw [if_pos rfl, serve, if_pos hcpe]
      simp
    · rw [if_neg hid]
      simp [hid]
  · rw [if_neg hcpe]
    refine ⟨_, rfl, itemsOf_storeAnswer D s ha hcpe, fun b hb => ?_⟩
    rw [assets_storeAnswer]
    refine Table.find_put_of_ne ?_
    rwa [flushUpdate_id (storeRisk_id a _)]

/-- The loop serves each of its assets once, and no other. -/
theorem enrichEach_spec (D : Day) (s : ℕ) (W : ℕ → Bool) {db : Database} {assets : List Asset}
    (hnodup : (assets.map fun a => a.id).Nodup)
    (hfound : ∀ a ∈ assets, db.assets.find a.id = some a) :
    (enrichEach (D.clock s) (fun i cpes => .ok (D.answer s i cpes)) db assets).passed =
        assets.flatMap given ∧
      itemsOf (fun i => W i && decide (i ∉ assets.map fun a => a.id))
          (enrichEach (D.clock s) (fun i cpes => .ok (D.answer s i cpes)) db assets).db =
        (itemsOf W db).map fun x =>
          if x.asset.id ∈ assets.map (fun a => a.id) then serve D s x else x := by
  induction assets generalizing db W with
  | nil => simp [enrichEach]
  | cons a assets ih =>
    obtain ⟨hnot, hnodup⟩ := List.nodup_cons.mp hnodup
    obtain ⟨db', hrun, hitems, hother⟩ :=
      enrichOneAsset_spec D s W (hfound a List.mem_cons_self)
    have hfound' : ∀ b ∈ assets, db'.assets.find b.id = some b := by
      intro b hb
      rw [hother b fun heq => hnot (List.mem_map.mpr ⟨b, hb, heq⟩)]
      exact hfound b (List.mem_cons_of_mem a hb)
    obtain ⟨hpassed, hrest⟩ := ih (fun i => W i && decide (i ≠ a.id)) hnodup hfound'
    simp only [enrichEach, hrun, List.flatMap_cons]
    refine ⟨by rw [hpassed], ?_⟩
    have hW : (fun i => W i && decide (i ∉ (a :: assets).map fun b => b.id)) =
        fun i => (W i && decide (i ≠ a.id)) && decide (i ∉ assets.map fun b => b.id) := by
      funext i
      rw [List.map_cons, Bool.and_assoc, ← Bool.decide_and]
      simp only [List.mem_cons, not_or]
    rw [hW, hrest, hitems, List.map_map]
    refine List.map_congr_left fun x hx => ?_
    rw [Function.comp_apply]
    by_cases hid : x.asset.id = a.id
    · rw [if_pos hid, serve_id, hid, if_neg hnot, if_pos (by simp)]
    · rw [if_neg hid]
      simp [hid]

/-! ## The runs of the day -/

/-- A run is a round of fifty places. -/
theorem itemsOf_run (D : Day) (s : ℕ) (W : ℕ → Bool) (db : Database) :
    itemsOf (fun i => W i && decide (i ∉ (selectPending (D.now s) db).map fun a => a.id))
        (D.run s db).db = round (listed D) (serve D) s 50 (itemsOf W db) := by
  have hrows : (db.assets.rows.map fun a => a.id).Nodup := db.assets.nodup
  have hsub : (selectPending (D.now s) db).Sublist db.assets.rows :=
    (List.take_sublist _ _).trans List.filter_sublist
  have hspec := enrichEach_spec D s W (hrows.sublist (hsub.map _))
    fun a ha => Table.find_key (hsub.subset ha)
  have hkeys : ((itemsOf W db).map fun x => x.asset.id) = db.assets.rows.map fun a => a.id := by
    rw [itemsOf, List.map_map]
    rfl
  have hselected : (((itemsOf W db).filter (listed D s)).take 50).map (fun x => x.asset.id) =
      (selectPending (D.now s) db).map fun a => a.id := by
    rw [itemsOf, List.filter_map, ← List.map_take, List.map_map]
    rfl
  rw [round_eq_map (fun x : Item => x.asset.id) s 50 (hkeys ▸ hrows), hselected]
  exact hspec.2

/-- The assets that still wait after the first runs. -/
def waitingAfter (D : Day) (db : Database) : ℕ → ℕ → Bool
  | 0, i => decide (i ∈ (eligible D db).map fun a => a.id)
  | s + 1, i => waitingAfter D db s i &&
    decide (i ∉ (selectPending (D.now s) (D.after db s)).map fun a => a.id)

theorem itemsOf_start (D : Day) (db : Database) :
    itemsOf (waitingAfter D db 0) db = itemsAtStart D db := by
  refine List.map_congr_left fun a ha => ?_
  have hwaiting : waitingAfter D db 0 a.id = pending (D.now 0) db a := by
    rw [waitingAfter, Bool.eq_iff_iff, decide_eq_true_eq, List.mem_map]
    constructor
    · rintro ⟨b, hb, hid⟩
      obtain ⟨hb, hpending⟩ := List.mem_filter.mp hb
      exact Table.eq_of_key hb ha hid ▸ hpending
    · exact fun h => ⟨a, List.mem_filter.mpr ⟨ha, h⟩, rfl⟩
  rw [hwaiting]

/-- The runs of the day are rounds over the items at its start. -/
theorem itemsOf_after (D : Day) (db : Database) (s : ℕ) :
    itemsOf (waitingAfter D db s) (D.after db s) =
      rounds (listed D) (serve D) 50 s 0 (itemsAtStart D db) := by
  induction s with
  | zero => exact itemsOf_start D db
  | succ s ih =>
    rw [rounds_succ, ← ih, Nat.zero_add, ← itemsOf_run]
    rfl

/-! ## Who is passed to the enricher -/

/-- No run changes which assets there are, or their CPEs. -/
theorem cpes_after (D : Day) (db : Database) (s : ℕ) :
    ((D.after db s).assets.rows.map fun a => (a.id, a.cpe)) =
      db.assets.rows.map fun a => (a.id, a.cpe) := by
  have hserve : ∀ s x, ((serve D s x).asset.id, (serve D s x).asset.cpe) =
      (x.asset.id, x.asset.cpe) := fun s x => by rw [serve_id, serve_cpe]
  have hitems := congrArg (fun xs => xs.map fun x : Item => (x.asset.id, x.asset.cpe))
    (itemsOf_after D db s)
  rw [map_rounds (f := fun x : Item => (x.asset.id, x.asset.cpe)) hserve, itemsOf, itemsAtStart,
    List.map_map, List.map_map] at hitems
  exact hitems

/-- An asset is passed to the enricher when it is selected and has CPEs. -/
theorem mem_passed_iff (D : Day) {db : Database} (s : ℕ) {a : Asset} (ha : a ∈ db.assets.rows) :
    a.id ∈ (D.run s (D.after db s)).passed ↔
      a.cpe.getD [] ≠ [] ∧ a.id ∈ (selectPending (D.now s) (D.after db s)).map fun b => b.id := by
  have hrows := (D.after db s).assets.nodup
  have hsub : (selectPending (D.now s) (D.after db s)).Sublist (D.after db s).assets.rows :=
    (List.take_sublist _ _).trans List.filter_sublist
  have hpassed : (D.run s (D.after db s)).passed =
      (selectPending (D.now s) (D.after db s)).flatMap given :=
    (enrichEach_spec D s (fun _ => true) (hrows.sublist (hsub.map _))
      fun b hb => Table.find_key (hsub.subset hb)).1
  have hcpe : ∀ b ∈ selectPending (D.now s) (D.after db s), b.id = a.id → b.cpe = a.cpe := by
    intro b hb hid
    have hmem : (b.id, b.cpe) ∈ (D.after db s).assets.rows.map fun c => (c.id, c.cpe) :=
      List.mem_map.mpr ⟨b, hsub.subset hb, rfl⟩
    rw [cpes_after] at hmem
    obtain ⟨c, hc, heq⟩ := List.mem_map.mp hmem
    obtain rfl : c = a := Table.eq_of_key hc ha ((congrArg Prod.fst heq).trans hid)
    exact (congrArg Prod.snd heq).symm
  rw [hpassed, List.mem_flatMap, List.mem_map]
  constructor
  · rintro ⟨b, hb, hgiven⟩
    unfold given at hgiven
    split at hgiven
    · cases hgiven
    · rename_i hne
      have hid := (List.mem_singleton.mp hgiven).symm
      exact ⟨hcpe b hb hid ▸ hne, b, hb, hid⟩
  · rintro ⟨hne, b, hb, hid⟩
    refine ⟨b, hb, ?_⟩
    rw [given, if_neg (hcpe b hb hid ▸ hne), hid]
    exact List.mem_singleton_self _

theorem waitingAfter_eq_false {D : Day} {db : Database} {s i : ℕ} :
    waitingAfter D db s i = false ↔ i ∈ (eligible D db).map (fun a => a.id) →
      ∃ t < s, i ∈ (selectPending (D.now t) (D.after db t)).map fun a => a.id := by
  induction s with
  | zero => simp [waitingAfter]
  | succ s ih =>
    rw [waitingAfter, Bool.and_eq_false_iff, ih, decide_eq_false_iff_not, not_not]
    constructor
    · rintro (h | h) hi
      · obtain ⟨t, ht, hmem⟩ := h hi
        exact ⟨t, ht.trans (Nat.lt_succ_self s), hmem⟩
      · exact ⟨s, Nat.lt_succ_self s, h⟩
    · intro h
      by_cases hlast : i ∈ (selectPending (D.now s) (D.after db s)).map fun a => a.id
      · exact .inr hlast
      · refine .inl fun hi => ?_
        obtain ⟨t, ht, hmem⟩ := h hi
        rcases Nat.lt_succ_iff_lt_or_eq.mp ht with ht | rfl
        · exact ⟨t, ht, hmem⟩
        · exact absurd hmem hlast

/-- A row that is selected has CPEs, or a null for them. -/
theorem cpes_ne_nil_iff {D : Day} {db : Database} {a : Asset} (ha : a ∈ eligible D db) :
    a.cpe.getD [] ≠ [] ↔ a.cpe ≠ none := by
  have hpending := (List.mem_filter.mp ha).2
  rw [pending, Bool.and_eq_true, decide_eq_true_eq] at hpending
  cases hcpe : a.cpe with
  | none => simp
  | some cpes => simpa [hcpe] using hpending.1

/-- No item waits after the rounds when no asset waits after the runs. -/
theorem rounds_waiting_iff (D : Day) (db : Database) :
    (∀ x ∈ rounds (listed D) (serve D) 50 (runCount D db) 0 (itemsAtStart D db),
      x.waiting = false) ↔
      ∀ a ∈ db.assets.rows, waitingAfter D db (runCount D db) a.id = false := by
  have hids : ∀ i, (∃ a ∈ (D.after db (runCount D db)).assets.rows, a.id = i) ↔
      ∃ a ∈ db.assets.rows, a.id = i := by
    intro i
    have h := congrArg (fun ps => i ∈ ps.map Prod.fst) (cpes_after D db (runCount D db))
    simpa using h
  rw [← itemsOf_after, itemsOf, List.forall_mem_map]
  constructor
  · intro h a ha
    obtain ⟨b, hb, hid⟩ := (hids a.id).mpr ⟨a, ha, rfl⟩
    exact hid ▸ h b hb
  · intro h b hb
    obtain ⟨a, ha, hid⟩ := (hids b.id).mp ⟨b, hb, rfl⟩
    exact hid ▸ h a ha

/-- All are reached when none has a null for its CPEs and none waits after the rounds. -/
theorem reachesAll_iff (D : Day) (db : Database) :
    ReachesAll D db ↔ (∀ a ∈ eligible D db, a.cpe ≠ none) ∧
      ∀ x ∈ rounds (listed D) (serve D) 50 (runCount D db) 0 (itemsAtStart D db),
        x.waiting = false := by
  rw [rounds_waiting_iff]
  constructor
  · intro h
    refine ⟨fun a ha => ?_, fun a ha => waitingAfter_eq_false.mpr fun hi => ?_⟩
    · obtain ⟨s, -, hs⟩ := h a ha
      exact (cpes_ne_nil_iff ha).mp ((mem_passed_iff D s (List.mem_of_mem_filter ha)).mp hs).1
    · obtain ⟨b, hb, hid⟩ := List.mem_map.mp hi
      obtain rfl : b = a := Table.eq_of_key (List.mem_of_mem_filter hb) ha hid
      obtain ⟨s, hs, hpassed⟩ := h b hb
      exact ⟨s, hs, ((mem_passed_iff D s ha).mp hpassed).2⟩
  · rintro ⟨hcpe, hwaiting⟩ a ha
    have hrow := List.mem_of_mem_filter ha
    obtain ⟨s, hs, hselected⟩ := waitingAfter_eq_false.mp (hwaiting a hrow)
      (List.mem_map.mpr ⟨a, ha, rfl⟩)
    refine ⟨s, hs, (mem_passed_iff D s hrow).mpr ⟨?_, hselected⟩⟩
    exact (cpes_ne_nil_iff ha).mpr (hcpe a ha)

theorem rules (D : Day) : Rules (listed D) (serve D) Item.waiting := by
  refine ⟨serve_waiting D, fun s x h => ?_⟩
  have hnow := D.ordered (Nat.le_succ s)
  rw [listed, Bool.and_eq_true, Bool.or_eq_true, decide_eq_true_eq, decide_eq_true_eq] at h ⊢
  exact ⟨h.1, h.2.imp_left fun hlt => lt_of_le_of_lt (sub_le_sub_right hnow _) hlt⟩

/-! ## Starvation -/

/-- Enrichment finds no CVE for the asset, whenever it runs. -/
structure Barren (D : Day) (x : Item) : Prop where
  cpe : x.asset.cpe.getD [] ≠ []
  linked : x.linked = false
  answer : ∀ s, (D.answer s x.asset.id (x.asset.cpe.getD [])).rows = []

theorem Barren.listed {D : Day} {x : Item} (h : Barren D x) (s : ℕ) : listed D s x := by
  have hne : x.asset.cpe ≠ some [] := fun hcpe => h.cpe (by rw [hcpe]; rfl)
  rw [PendingEnrichment.listed, h.linked, decide_eq_true hne, Bool.not_false, Bool.or_true,
    Bool.and_self]

theorem Barren.serve {D : Day} {x : Item} (h : Barren D x) (s : ℕ) : Barren D (serve D s x) := by
  refine ⟨by rw [serve_cpe]; exact h.cpe, ?_, fun t => by rw [serve_id, serve_cpe, h.answer]⟩
  rw [PendingEnrichment.serve, if_neg h.cpe]
  simp [h.linked, h.answer s]

/-- Fifty assets without CVEs keep every asset behind them from the enricher, in all runs. -/
theorem never_passed {D : Day} {db : Database} {front back : List Asset}
    (hrows : db.assets.rows = front ++ back) (hlength : 50 ≤ front.length)
    (hfront : ∀ a ∈ front, Barren D ⟨a, hasCves db a.id, pending (D.now 0) db a⟩) {a : Asset}
    (ha : a ∈ back) (hpending : pending (D.now 0) db a) (s : ℕ) :
    a.id ∉ (D.run s (D.after db s)).passed := by
  intro hpassed
  have hrow : a ∈ db.assets.rows := hrows ▸ List.mem_append_right front ha
  have hfinal : (⟨a, hasCves db a.id, true⟩ : Item) ∈
      itemsOf (waitingAfter D db (s + 1)) (D.after db (s + 1)) := by
    rw [itemsOf_after, itemsAtStart, hrows, List.map_append,
      rounds_append_of_full (P := Barren D) (fun s x h => h.listed s) (fun s x h => h.serve s)]
    · exact List.mem_append_right _ (List.mem_map.mpr ⟨a, ha, by rw [hpending]⟩)
    · exact List.forall_mem_map.mpr hfront
    · rwa [List.length_map]
  obtain ⟨b, -, hb⟩ := List.mem_map.mp hfinal
  obtain rfl : b = a := congrArg Item.asset hb
  have hwaiting : waitingAfter D db (s + 1) b.id = true := congrArg Item.waiting hb
  have hserved : waitingAfter D db (s + 1) b.id = false := waitingAfter_eq_false.mpr fun _ =>
    ⟨s, Nat.lt_succ_self s, ((mem_passed_iff D s hrow).mp hpassed).2⟩
  cases hwaiting.symm.trans hserved

/-- As many runs as the eligible assets need reach all of them exactly when the assets can be cut
into groups, one for each run, that the assets selected again leave room for. -/
theorem reachesAll_iff_inGroups (D : Day) (db : Database) : ReachesAll D db ↔ InGroups D db := by
  have hstart : ∀ x ∈ itemsAtStart D db, x.waiting = listed D 0 x := by
    intro x hx
    obtain ⟨a, -, rfl⟩ := List.mem_map.mp hx
    rfl
  have hcount : (itemsAtStart D db).countP Item.waiting = (eligible D db).length := by
    rw [itemsAtStart, List.countP_map, eligible, ← List.countP_eq_length_filter]
    rfl
  rw [reachesAll_iff]
  constructor
  · rintro ⟨hcpe, hwaiting⟩
    have hk : 50 * runCount D db < (itemsAtStart D db).countP Item.waiting + 50 := by
      rw [hcount, runCount]
      omega
    obtain ⟨gs, ys, hcut, hlength, hys, hgs⟩ :=
      scheduled_of_waiting (rules D) hk (List.forall_mem_nil _) hstart hwaiting
    refine ⟨hcpe, gs, ys, hcut, hlength, fun y hy => ?_, hgs⟩
    rw [← hstart y (hcut ▸ List.mem_append_right _ hy)]
    exact hys y hy
  · rintro ⟨hcpe, gs, ys, hcut, hlength, hys, hgs⟩
    refine ⟨hcpe, ?_⟩
    rw [hcut] at hstart ⊢
    rw [← hlength, ← List.nil_append gs.flatten]
    refine waiting_of_scheduled (rules D) hgs (List.forall_mem_nil _)
      (fun x hx => hstart x (List.mem_append_left _ hx)) fun y hy => ?_
    exact ⟨(hstart y (List.mem_append_right _ hy)).trans (hys y hy), hys y hy⟩

/-- An asset whose CPE has no CVE. -/
def barrenAsset (i : ℕ) : Asset :=
  { Reconciler.newColumns 0 i "manual" { cpe := .value ["cpe:2.3:a:x:y"] } "srv" "Server" with
    sources := some ["manual"] }

theorem barrenAssets_nodup : (((List.range 51).map barrenAsset).map fun a => a.id).Nodup := by
  rw [List.map_map, show (fun a : Asset => a.id) ∘ barrenAsset = id from rfl, List.map_id]
  exact List.nodup_range

/-- An inventory of fifty-one such assets. -/
def fiftyOne : Database where
  assets := ⟨(List.range 51).map barrenAsset, barrenAssets_nodup⟩
  cves := .empty
  assetCves := .empty
  alerts := []

/-- Two runs four hours apart, and no CVE in any answer. -/
def quietDay : Day where
  now s := if s = 0 then 0 else hours 4
  clock s _ := if s = 0 then 0 else hours 4
  answer _ _ _ := .empty
  ordered := by
    intro s t hst
    by_cases ht : t = 0
    · obtain rfl : s = 0 := by omega
      rw [ht]
    · by_cases hs : s = 0 <;> simp [hs, ht, hours]
  started _ _ := le_rfl
  within s t := by split <;> split <;> simp [hours]

theorem pending_barrenAsset (i : ℕ) : pending 0 fiftyOne (barrenAsset i) = true := rfl

theorem eligible_fiftyOne : eligible quietDay fiftyOne = (List.range 51).map barrenAsset := by
  refine List.filter_eq_self.mpr fun a ha => ?_
  obtain ⟨i, -, rfl⟩ := List.mem_map.mp ha
  exact pending_barrenAsset i

/-- Two runs do not reach the last of the fifty-one assets. -/
theorem quietDay_starves : (eligible quietDay fiftyOne).length = 51 ∧
    runCount quietDay fiftyOne = 2 ∧ ¬ ReachesAll quietDay fiftyOne := by
  have hlength : (eligible quietDay fiftyOne).length = 51 := by
    rw [eligible_fiftyOne, List.length_map, List.length_range]
  refine ⟨hlength, by rw [runCount, hlength], fun h => ?_⟩
  have hlast : barrenAsset 50 ∈ eligible quietDay fiftyOne := by
    rw [eligible_fiftyOne]
    exact List.mem_map.mpr ⟨50, by simp, rfl⟩
  obtain ⟨s, -, hpassed⟩ := h _ hlast
  have hrows : fiftyOne.assets.rows = (List.range 50).map barrenAsset ++ [barrenAsset 50] := by
    change (List.range 51).map barrenAsset = _
    rw [List.range_succ, List.map_append]
    rfl
  refine never_passed hrows (by simp) (fun a ha => ?_) (List.mem_singleton_self _)
    (pending_barrenAsset 50) s hpassed
  obtain ⟨i, -, rfl⟩ := List.mem_map.mp ha
  exact ⟨List.cons_ne_nil _ _, rfl, fun _ => rfl⟩

end Kepryx.PendingEnrichment
