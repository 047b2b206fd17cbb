import Kepryx.AssetIntake
import Kepryx.ReportHandling
import Kepryx.Runs

/-!
# Which assets are flagged as shadow

The reconciler computes the flag from the sources of an asset. A request that creates an asset
sets it to a constant, and an import computes it from other fields. Sources are taken as the
objects hold them, so that what a flush loses plays no part.
-/
namespace Kepryx.ShadowFlag
open Kepryx.Models Kepryx.Results Kepryx.Tables Kepryx.Runs Kepryx.UnitOfWork
open Kepryx.Reconciler Kepryx.ReportHandling Kepryx.RiskWriters Kepryx.AssetIntake

/-- Commit an asset object with the sources that it holds. -/
def keepObject (A : Addressing) (now : Time) (s : Session) (asset : AssetObject) :
    Except DbError Database :=
  match s.db.assets.find asset.id with
  | none => .ok s.db
  | some stored => do
    let ip ← flushText A.inet asset.loaded.ip asset.ip stored.ip
    let mac ← flushText A.macaddr asset.loaded.mac asset.mac stored.mac
    let current : Asset :=
      { asset.toAssetColumns with
        ip := ip
        mac := mac
        sources := s.heap.value asset.sources.current }
    return { s.db with assets := s.db.assets.put (flushUpdate now stored current) }

/-- It differs from the flush only in sources that the flush does not see. -/
theorem keepObject_eq_flushAsset {A : Addressing} {now : Time} {s : Session} {asset : AssetObject}
    (h : ∀ stored, s.db.assets.find asset.id = some stored →
      asset.sources.flush s.heap stored.sources = s.heap.value asset.sources.current) :
    keepObject A now s asset = (flushAsset A now s asset).map fun s => s.db := by
  unfold keepObject flushAsset
  cases hfind : s.db.assets.find asset.id with
  | none => rfl
  | some stored =>
    dsimp only
    rw [h stored hfind]
    cases flushText A.inet asset.loaded.ip asset.ip stored.ip with
    | error e => rfl
    | ok ip =>
      cases flushText A.macaddr asset.loaded.mac asset.mac stored.mac with
      | error e => rfl
      | ok mac => rfl

/-- `reconcile_host`, with the asset as its object holds it. -/
def reconcileInMemory (A : Addressing) (db : Database) (r : Report) : Except DbError Database := do
  let (s, asset) ← reconcileHost A ⟨db, .empty⟩ r
  keepObject A r.now s asset

/-- The operations that create or update assets. -/
inductive Op where
  | reconcileHost (report : Report)
  | createAsset (now : Time) (uuid : ℕ) (body : AssetCreate)
  | importAssetsCsv (now : Time) (uuid : ℕ → ℕ) (dryRun : Bool) (upload : Upload)
  | aiIngest (now : Time) (parsed : List (ℕ × HostData))
  | updateAsset (now : Time) (assetId : ℕ) (body : AssetUpdate)

/-- What an operation commits, unless it raises. -/
def perform (A : Addressing) (db : Database) : Op → Option Database
  | .reconcileHost r => (reconcileInMemory A db r).toOption
  | .createAsset now uuid body => (createAsset A now uuid db body).toOption
  | .importAssetsCsv now uuid dryRun u =>
    (importAssetsCsv A now uuid dryRun db u).toOption.map Prod.fst
  | .aiIngest now parsed => (aiIngest A now db parsed).toOption
  | .updateAsset now assetId body => (updateAsset now db assetId body).toOption

/-- The database after an operation; one that raises is rolled back. -/
def step (A : Addressing) (db : Database) (op : Op) : Database := (perform A db op).getD db

/-- The flag says that no authoritative source claims the asset. -/
def FlaggedRight (a : Asset) : Prop :=
  a.isShadow = true ↔ ∀ s ∈ a.sourceList, s ∉ authoritative

instance (a : Asset) : Decidable (FlaggedRight a) := inferInstanceAs (Decidable (_ ↔ _))

/-- Every asset has the right flag. -/
def AllFlaggedRight (db : Database) : Prop := ∀ a ∈ db.assets.rows, FlaggedRight a

instance (db : Database) : Decidable (AllFlaggedRight db) :=
  inferInstanceAs (Decidable (∀ a ∈ db.assets.rows, _))

/-- No request creates an asset, and every imported record has no EDR or no controls. -/
def BySources (A : Addressing) (db : Database) : Op → Prop
  | .createAsset now uuid body => perform A db (.createAsset now uuid body) = none
  | .importAssetsCsv now uuid dryRun u =>
    (perform A db (.importAssetsCsv now uuid dryRun u)).isSome → dryRun = false →
      ∀ e ∈ imported u uuid, text e.2 "edr_status" ∈ ["None", ""] ∨
        text e.2 "control_coverage" = "none"
  | _ => True

/-! ## The rows that an operation leaves -/

section Rows
variable {A : Addressing} {db db' : Database}

theorem flaggedRight_iff {a : Asset} : FlaggedRight a ↔ a.isShadow = isShadow a.sourceList := by
  unfold FlaggedRight isShadow
  cases a.isShadow with
  | false => simp
  | true => simp

/-- An asset whose only source is not authoritative has to be flagged. -/
theorem flaggedRight_single {a : Asset} {source : String} (hsources : a.sources = some [source])
    (hnot : source ∉ authoritative) : FlaggedRight a ↔ a.isShadow = true := by
  unfold FlaggedRight Asset.sourceList
  rw [hsources]
  simp [hnot]

theorem flushUpdate_flag (now : Time) (loaded current : Asset) :
    (flushUpdate now loaded current).isShadow = current.isShadow ∧
      (flushUpdate now loaded current).sources = current.sources := by
  rw [flushUpdate_eq]
  exact ⟨rfl, rfl⟩

/-- Committing an object leaves the other rows and puts the object with its own flag and
sources. -/
theorem keepObject_ok {now : Time} {s : Session} {asset : AssetObject}
    (h : keepObject A now s asset = .ok db') {x : Asset} (hx : x ∈ db'.assets.rows) :
    x ∈ s.db.assets.rows ∨
      x.isShadow = asset.isShadow ∧ x.sources = s.heap.value asset.sources.current := by
  unfold keepObject at h
  split at h
  · cases h
    exact .inl hx
  · obtain ⟨ip, -, h⟩ := bind_eq_ok.mp h
    obtain ⟨mac, -, h⟩ := bind_eq_ok.mp h
    cases h
    rcases Table.mem_put.mp hx with ⟨rfl, -⟩ | ⟨hx, -⟩
    · exact .inr (flushUpdate_flag ..)
    · exact .inl hx

theorem createFromSource_flagged {now : Time} {uuid : ℕ} {s s' : Session} {source : String}
    {data : HostData} {asset : AssetObject} (hdb : AllFlaggedRight s.db)
    (h : createFromSource A now uuid s source data = .ok (s', asset)) :
    AllFlaggedRight s'.db ∧ asset.isShadow = isShadow [source] := by
  obtain ⟨a, alerts, hcreated, -, hinsert, -, -, rfl⟩ := createFromSource_ok h
  refine ⟨fun x hx => ?_, hcreated.isShadow⟩
  rcases (Table.mem_insert? hinsert).mp hx with hx | rfl
  · exact hdb x hx
  · rw [flaggedRight_iff, hcreated.isShadow, Asset.sourceList, hcreated.sources]
    rfl

theorem reconcileInMemory_flagged {r : Report} (hdb : AllFlaggedRight db)
    (h : reconcileInMemory A db r = .ok db') : AllFlaggedRight db' := by
  unfold reconcileInMemory reconcileHost at h
  obtain ⟨⟨s, asset⟩, hhost, hkeep⟩ := bind_eq_ok.mp h
  obtain ⟨found, hfind, hhost⟩ := bind_eq_ok.mp hhost
  have hobject : AllFlaggedRight s.db ∧ ∃ sources,
      s.heap.value asset.sources.current = some sources ∧ asset.isShadow = isShadow sources := by
    cases found with
    | some a =>
      obtain ⟨hcols, -, -, -, hvalid⟩ := loadAsset_spec .empty a
      obtain ⟨alerts, hs, -, hmerged, -, -⟩ := mergeSource_ok hvalid hhost
      refine ⟨?_, _, mergeSource_recorded hvalid hhost, ?_⟩
      · rw [hs]
        exact hdb
      · rw [hmerged]
        rfl
    | none =>
      obtain ⟨hs, hflag⟩ := createFromSource_flagged hdb hhost
      exact ⟨hs, _, createFromSource_sources hhost, hflag⟩
  obtain ⟨hs, sources, hvalue, hflag⟩ := hobject
  intro x hx
  rcases keepObject_ok hkeep hx with hx | ⟨hshadow, hsources⟩
  · exact hs x hx
  · rw [flaggedRight_iff, hshadow, hflag, Asset.sourceList, hsources, hvalue]
    rfl

theorem aiIngest_flagged {now : Time} {parsed : List (ℕ × HostData)} (hdb : AllFlaggedRight db)
    (h : aiIngest A now db parsed = .ok db') : AllFlaggedRight db' := by
  obtain ⟨s, hloop, h⟩ := bind_eq_ok.mp h
  cases h
  refine foldlM_invariant (fun _ (s : Session) => AllFlaggedRight s.db) ?_ hdb hloop
  intro before d after s s' _ hs hturn
  obtain ⟨⟨t, asset⟩, hcreate, hturn⟩ := bind_eq_ok.mp hturn
  cases hturn
  exact (createFromSource_flagged hs hcreate).1

theorem applyUpdate_flag {body : AssetUpdate} {a b : Asset} (h : applyUpdate body a = .ok b) :
    b.isShadow = a.isShadow ∧ b.sources = a.sources := by
  unfold applyUpdate at h
  obtain ⟨criticality, -, h⟩ := bind_eq_ok.mp h
  obtain ⟨dataClassification, -, h⟩ := bind_eq_ok.mp h
  obtain ⟨controlCoverage, -, h⟩ := bind_eq_ok.mp h
  obtain ⟨authMethod, -, h⟩ := bind_eq_ok.mp h
  cases h
  exact ⟨rfl, rfl⟩

theorem updateAsset_flagged {now : Time} {assetId : ℕ} {body : AssetUpdate}
    (hdb : AllFlaggedRight db) (h : updateAsset now db assetId body = .ok db') :
    AllFlaggedRight db' := by
  unfold updateAsset at h
  split at h
  · cases h
  · rename_i a ha
    split at h
    · cases h
    · rename_i b hb
      cases h
      obtain ⟨hshadow, hsources⟩ := applyUpdate_flag hb
      intro x hx
      rcases Table.mem_put.mp hx with ⟨rfl, -⟩ | ⟨hx, -⟩
      · obtain ⟨hflag, hkept⟩ := flushUpdate_flag now a
          (storeRisk b (riskOf b.toAssetColumns (linkedEvidence db assetId)))
        have hright := flaggedRight_iff.mp (hdb a (Table.find_eq_some.mp ha).1)
        rw [flaggedRight_iff, hflag, Asset.sourceList, hkept]
        show b.isShadow = isShadow (b.sources.getD [])
        rw [hshadow, hsources]
        exact hright
      · exact hdb x hx

/-- An inserted row has the flag and the sources of the asset. -/
theorem insertedAs_flaggedRight {a x : Asset} {source : String} (h : InsertedAs a x)
    (hsources : a.sources = some [source]) (hnot : source ∉ authoritative) :
    FlaggedRight x ↔ a.isShadow = true := by
  obtain ⟨ip, mac, rfl⟩ := h
  exact flaggedRight_single hsources hnot

/-- A request that gets through creates an asset with the wrong flag. -/
theorem createAsset_misflagged {now : Time} {uuid : ℕ} {body : AssetCreate}
    (h : createAsset A now uuid db body = .ok db') : ¬ AllFlaggedRight db' := by
  intro hall
  obtain ⟨-, h⟩ := guard_eq_ok.mp h
  obtain ⟨-, h⟩ := guard_eq_ok.mp h
  cases hinsert : insertAsset A db (storeRisk (body.toAsset now uuid)
      (riskOf (body.toAsset now uuid).toAssetColumns [])) with
  | error e =>
    simp only [hinsert] at h
    cases h
  | ok db₁ =>
    simp only [hinsert] at h
    cases h
    obtain ⟨x, hx, hrows⟩ := insertAsset_ok hinsert
    have hright := hall x ((hrows x).mpr (.inr rfl))
    have hnot : "manual" ∉ authoritative := by decide
    have hflag : false = true := (insertedAs_flaggedRight hx rfl hnot).mp hright
    cases hflag

/-- An import that gets through leaves the right flags if and only if every record that it
imports is flagged. -/
theorem importAssetsCsv_flagged_iff {now : Time} {uuid : ℕ → ℕ} {dryRun : Bool} {u : Upload}
    {results : ImportResults} (hdb : AllFlaggedRight db)
    (h : importAssetsCsv A now uuid dryRun db u = .ok (db', results)) :
    AllFlaggedRight db' ↔ (dryRun = false → ∀ e ∈ imported u uuid,
      text e.2 "edr_status" ∈ ["None", ""] ∨ text e.2 "control_coverage" = "none") := by
  obtain ⟨names, -, h⟩ := bind_eq_ok.mp h
  cases dryRun with
  | true =>
    cases h
    exact iff_of_true hdb nofun
  | false =>
    simp only [Bool.false_eq_true, if_false] at h
    split at h
    · cases h
    · obtain ⟨-, h⟩ := guard_eq_ok.mp h
      cases hinsert : (importedRows now u uuid).foldlM (insertAsset A) db with
      | error e =>
        simp only [hinsert] at h
        cases h
      | ok db₁ =>
        simp only [hinsert] at h
        cases h
        obtain ⟨hkept, hadded, horigin⟩ := insertAssets_ok hinsert
        have hflag : ∀ e : ℕ × Dict, (∀ x, InsertedAs (storeRisk (importedAsset now e.1 e.2)
            (riskOf (importedAsset now e.1 e.2).toAssetColumns [])) x → (FlaggedRight x ↔
              text e.2 "edr_status" ∈ ["None", ""] ∨ text e.2 "control_coverage" = "none")) := by
          intro e x hx
          have hnot : "csv_import" ∉ authoritative := by decide
          rw [insertedAs_flaggedRight hx rfl hnot]
          show importedShadow e.2 = true ↔ _
          simp [importedShadow]
        constructor
        · intro hall _ e he
          obtain ⟨x, hx, hins⟩ := hadded _ (List.mem_map_of_mem he)
          exact (hflag e x hins).mp (hall x hx)
        · intro hrecords x hx
          rcases horigin x hx with hx | ⟨a, ha, hins⟩
          · exact hdb x hx
          · obtain ⟨e, he, rfl⟩ := List.mem_map.mp ha
            exact (hflag e x hins).mpr (hrecords rfl e he)

end Rows

/-! ## Runs -/

variable {A : Addressing}

/-- One operation leaves the right flags if and only if it takes them from the sources. -/
theorem flagged_step_iff {db : Database} (hdb : AllFlaggedRight db) (op : Op) :
    AllFlaggedRight (step A db op) ↔ BySources A db op := by
  unfold step
  cases op with
  | reconcileHost r =>
    refine iff_of_true ?_ trivial
    cases h : reconcileInMemory A db r with
    | error e => simpa [perform, h, Except.toOption] using hdb
    | ok db' => simpa [perform, h, Except.toOption] using reconcileInMemory_flagged hdb h
  | createAsset now uuid body =>
    cases h : createAsset A now uuid db body with
    | error e => simpa [perform, BySources, h, Except.toOption] using hdb
    | ok db' => simpa [perform, BySources, h, Except.toOption] using createAsset_misflagged h
  | importAssetsCsv now uuid dryRun u =>
    cases h : importAssetsCsv A now uuid dryRun db u with
    | error e => simpa [perform, BySources, h, Except.toOption] using hdb
    | ok out =>
      have hok : importAssetsCsv A now uuid dryRun db u = .ok (out.1, out.2) := h
      have hiff := importAssetsCsv_flagged_iff hdb hok
      simpa [perform, BySources, h, Except.toOption] using hiff
  | aiIngest now parsed =>
    refine iff_of_true ?_ trivial
    cases h : aiIngest A now db parsed with
    | error e => simpa [perform, h, Except.toOption] using hdb
    | ok db' => simpa [perform, h, Except.toOption] using aiIngest_flagged hdb h
  | updateAsset now assetId body =>
    refine iff_of_true ?_ trivial
    cases h : updateAsset now db assetId body with
    | error e => simpa [perform, h, Except.toOption] using hdb
    | ok db' => simpa [perform, h, Except.toOption] using updateAsset_flagged hdb h

/-- Along any sequence of operations every asset has the right flag in every state if and only if
no request creates an asset and every imported record is one that the import flags. -/
theorem flagged_iff_bySources (A : Addressing) (db : Database) (hdb : AllFlaggedRight db)
    (ops : List Op) :
    Along (step A) (fun db op => AllFlaggedRight (step A db op)) db ops ↔
      Along (step A) (BySources A) db ops :=
  along_iff_of_invariant AllFlaggedRight (fun _ op hdb => flagged_step_iff hdb op)
    (fun _ _ _ h => h) hdb ops

/-- One request on an empty inventory. -/
def manualServer : List Op := [.createAsset 0 1 { name := "srv-01", type := "Server" }]

theorem flagged_iff_bySources_empty :
    Along (step Addressing.canonical)
        (fun db op => AllFlaggedRight (step Addressing.canonical db op)) Database.empty
        manualServer ↔
      Along (step Addressing.canonical) (BySources Addressing.canonical) Database.empty
        manualServer :=
  flagged_iff_bySources Addressing.canonical Database.empty
    (fun _ h => absurd h List.not_mem_nil) manualServer

/-- The asset has no authoritative source and is not flagged. -/
theorem manual_asset_not_flagged :
    ¬ Along (step Addressing.canonical)
      (fun db op => AllFlaggedRight (step Addressing.canonical db op)) Database.empty
      manualServer := by
  decide +kernel

end Kepryx.ShadowFlag
