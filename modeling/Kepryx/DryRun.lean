import Kepryx.ImportedNames

/-!
# What a dry run predicts

Only a real import looks for the names in the database, and only its flush meets the columns. A
clean dry run tells how many assets a real import creates, and not whether it goes through.
-/
namespace Kepryx.DryRun
open Kepryx.Models Kepryx.Results Kepryx.Tables Kepryx.RiskWriters Kepryx.AssetIntake
open Kepryx.CsvReader Kepryx.CsvImport Kepryx.ImportedNames Kepryx.Reconciler
open Kepryx.Redaction (lower)

/-- What a real import needs beyond the checks of the dry run: no scanned name belongs to an
asset, and the columns take every value of the new rows. -/
structure Importable (A : Addressing) (now : Time) (uuid : ℕ → ℕ) (u : Upload) (db : Database) :
    Prop where
  fresh : ∀ cells ∈ u.records, scannedName u.fieldnames cells ≠ "" →
    ∀ b ∈ db.assets.rows, b.name ≠ scannedName u.fieldnames cells
  storable : ∀ a ∈ importedRows now u uuid, Storable A a
  patches : ∀ e ∈ imported u uuid, LastPatchFits (importedLastPatch e.2)

/-- The import goes through and creates `n` assets. -/
def Creates (A : Addressing) (now : Time) (uuid : ℕ → ℕ) (db : Database) (file : CsvFile)
    (n : ℕ) : Prop :=
  ∃ db' results, importFile A now uuid false db file = .ok (db', results) ∧
    results.created = n ∧ ∃ new, db'.assets.rows = db.assets.rows ++ new ∧ new.length = n

/-- A dry run reads the file as a real import does, and changes nothing. -/
theorem importAssetsCsv_true_ok {A : Addressing} {now : Time} {uuid : ℕ → ℕ} {u : Upload}
    {db db' : Database} {results : ImportResults}
    (h : importAssetsCsv A now uuid true db u = .ok (db', results)) :
    (∃ names, scan u = .ok names) ∧ db' = db ∧
      results.created = (importedRows now u uuid).length ∧ results.errors = rowErrors u := by
  obtain ⟨names, hscan, h⟩ := bind_eq_ok.mp h
  cases h
  exact ⟨⟨names, hscan⟩, rfl, rfl, rfl⟩

/-- How many records are imported does not depend on the clock or on the identifiers. -/
theorem importedRows_length (now now' : Time) (uuid uuid' : ℕ → ℕ) (u : Upload) :
    (importedRows now u uuid).length = (importedRows now' u uuid').length := by
  have h := imported_add_errors now uuid u
  have h' := imported_add_errors now' uuid' u
  omega

theorem importedRows_ids_nodup (now : Time) {uuid : ℕ → ℕ} (huuid : Function.Injective uuid)
    (u : Upload) : ((importedRows now u uuid).map fun a => a.id).Nodup := by
  have hids : (importedRows now u uuid).map (fun a => a.id) =
      (((dataRows u).filter fun e => readable u e.1).map Prod.snd).map uuid := by
    rw [importedRows, imported, dataRows, List.map_map]
    induction u.records.zipIdx 2 with
    | nil => rfl
    | cons e rows ih =>
      cases h : record u e.1 with
      | ok d =>
        rw [List.filterMap_cons_some (by rw [h]; rfl),
          List.filter_cons_of_pos (by rw [readable, h]; rfl), List.map_cons, List.map_cons,
          List.map_cons, ih]
        rfl
      | error m =>
        rw [List.filterMap_cons_none (by rw [h]; rfl),
          List.filter_cons_of_neg (by rw [readable, h]; simp [Except.toOption]), ih]
  rw [hids]
  exact ((dataRows_numbers u).sublist (List.filter_sublist.map _)).map huuid

/-- With identifiers that are not taken, an import goes through exactly when it is possible. -/
theorem importAssetsCsv_ok_iff {A : Addressing} {now : Time} {uuid : ℕ → ℕ} {u : Upload}
    {db : Database} {names : List String} (hscan : scan u = .ok names)
    (huuid : Function.Injective uuid) (hfree : ∀ n, db.assets.find (uuid n) = none) :
    (∃ db' results, importAssetsCsv A now uuid false db u = .ok (db', results)) ↔
      Importable A now uuid u db := by
  have hfreeRows : ∀ a ∈ importedRows now u uuid, db.assets.find a.id = none := by
    intro a ha
    obtain ⟨e, he, rfl⟩ := List.mem_map.mp ha
    obtain ⟨row, -, hrow⟩ := List.mem_filterMap.mp he
    obtain ⟨d, -, rfl⟩ := Option.map_eq_some_iff.mp hrow
    exact hfree row.2
  rw [importAssetsCsv_false_ok_iff hscan,
    insertAssets_ok_iff (importedRows_ids_nodup now huuid u) hfreeRows]
  obtain ⟨-, rfl⟩ := scan_ok hscan
  constructor
  · rintro ⟨hfresh, hpatches, hstorable⟩
    refine ⟨fun cells hcells hne b hb heq => hfresh b hb ?_, hstorable, hpatches⟩
    exact List.mem_filter.mpr ⟨List.mem_map.mpr ⟨cells, hcells, heq.symm⟩,
      decide_eq_true (heq.symm ▸ hne)⟩
  · rintro ⟨hfresh, hstorable, hpatches⟩
    refine ⟨fun b hb hmem => ?_, hpatches, hstorable⟩
    obtain ⟨hname, hne⟩ := List.mem_filter.mp hmem
    obtain ⟨cells, hcells, heq⟩ := List.mem_map.mp hname
    exact hfresh cells hcells (heq ▸ of_decide_eq_true hne) b hb heq.symm

theorem importFile_eq {A : Addressing} {now : Time} {uuid : ℕ → ℕ} {dryRun : Bool}
    {db : Database} {file : CsvFile} {u : Upload} (hread : readUpload file = .ok u) :
    importFile A now uuid dryRun db file =
      (importAssetsCsv A now uuid dryRun db u).mapError .request := by
  rw [importFile, hread, ok_bind]

theorem mapError_eq_ok {ε ε' α : Type*} {f : ε → ε'} {x : Except ε α} {a : α} :
    x.mapError f = .ok a ↔ x = .ok a := by
  cases x <;> simp [Except.mapError]

/-- After a dry run that goes through, clean or not, a real import creates the predicted number
of assets if it is possible, and raises if it is not. -/
theorem dryRun_predicts {A : Addressing} {now now' : Time} {uuid uuid' : ℕ → ℕ}
    {db dbDry : Database} {file : CsvFile} {u : Upload} {results : ImportResults}
    (hread : readUpload file = .ok u)
    (hdry : importFile A now uuid true db file = .ok (dbDry, results))
    (huuid : Function.Injective uuid') (hfree : ∀ n, db.assets.find (uuid' n) = none) :
    (Importable A now' uuid' u db → Creates A now' uuid' db file results.created) ∧
      (¬ Importable A now' uuid' u db → ∃ e, importFile A now' uuid' false db file = .error e) := by
  rw [importFile_eq hread, mapError_eq_ok] at hdry
  obtain ⟨⟨names, hscan⟩, -, hcreated, -⟩ := importAssetsCsv_true_ok hdry
  have hiff : (∃ db' results, importAssetsCsv A now' uuid' false db u = .ok (db', results)) ↔
      Importable A now' uuid' u db := importAssetsCsv_ok_iff hscan huuid hfree
  constructor
  · intro hpossible
    obtain ⟨db', results', himport⟩ := hiff.mpr hpossible
    obtain ⟨names', hdone⟩ := importAssetsCsv_false_ok himport
    obtain ⟨new, hrows, hnew⟩ := insertAssets_rows hdone.flushed
    have hcount : results'.created = results.created := by
      rw [hdone.created, hcreated, importedRows_length]
    refine ⟨db', results', ?_, hcount, new, hrows, ?_⟩
    · rw [importFile_eq hread, mapError_eq_ok]
      exact himport
    · rw [← hnew.length_eq, ← hdone.created, hcount]
  · intro hnot
    cases h : importFile A now' uuid' false db file with
    | error e => exact ⟨e, rfl⟩
    | ok out =>
      rw [importFile_eq hread, mapError_eq_ok] at h
      exact absurd (hiff.mp ⟨out.1, out.2, h⟩) hnot

/-- A file with the one name that is stored. -/
def taken : CsvFile where
  filename := some "assets.csv"
  content := "name,type\na,server\n".toUTF8

def takenUpload : Upload where
  filename := some "assets.csv"
  totalBytes := 19
  fieldnames := ["name", "type"]
  records := [["a", "server"]]

def stored : Database where
  assets := ⟨[importedAsset 0 1 capitalsDict], List.nodup_singleton _⟩
  cves := .empty
  assetCves := .empty
  alerts := []

theorem readUpload_taken : readUpload taken = .ok takenUpload := by
  have hdecode : decodeSig taken.content = some "name,type\na,server\n".toList :=
    decodeSig_toUTF8 (s := "name,type\na,server\n") (by decide +kernel)
  have hread : dictReader "name,type\na,server\n".toList =
      .ok (["name", "type"], [["a", "server"]]) := by decide +kernel
  have hname : (taken.filename.any fun f => lower f |>.endsWith ".csv") = true := by
    decide +kernel
  have hsize : taken.content.size = 19 := by decide +kernel
  simp only [readUpload, hname, not_true_eq_false, if_false, hsize, hdecode, hread]
  rfl

theorem scan_taken : scan takenUpload = .ok ["a"] := by decide +kernel

theorem dryRun_taken : ∃ dbDry results,
    importFile .canonical 0 id true stored taken = .ok (dbDry, results) ∧ results.created = 1 ∧
      results.errors = [] := by
  have hone : (importedRows 0 takenUpload id).length = 1 := by
    rw [importedRows, List.length_map]
    decide +kernel
  have hclean : rowErrors takenUpload = [] := by decide +kernel
  rw [importFile_eq readUpload_taken, importAssetsCsv, scan_taken]
  exact ⟨_, _, rfl, hone, hclean⟩

/-- A clean dry run predicts one asset, and the import of the same file raises. -/
theorem dryRun_mispredicts : ∃ dbDry results,
    importFile .canonical 0 id true stored taken = .ok (dbDry, results) ∧ results.created = 1 ∧
      results.errors = [] ∧ ¬ Creates .canonical 0 id stored taken 1 := by
  obtain ⟨dbDry, results, hdry, hone, hclean⟩ := dryRun_taken
  refine ⟨dbDry, results, hdry, hone, hclean, ?_⟩
  rintro ⟨db', results', himport, -⟩
  rw [importFile_eq readUpload_taken, mapError_eq_ok] at himport
  obtain ⟨names, hdone⟩ := importAssetsCsv_false_ok himport
  obtain rfl := Except.ok.inj (scan_taken.symm.trans hdone.scanned)
  exact hdone.fresh (importedAsset 0 1 capitalsDict) List.mem_cons_self List.mem_cons_self

theorem dryRun_predicts_taken : ∃ dbDry results,
    importFile .canonical 0 id true stored taken = .ok (dbDry, results) ∧
      (Importable .canonical 0 (fun n => n + 2) takenUpload stored →
        Creates .canonical 0 (fun n => n + 2) stored taken results.created) ∧
      (¬ Importable .canonical 0 (fun n => n + 2) takenUpload stored →
        ∃ e, importFile .canonical 0 (fun n => n + 2) false stored taken = .error e) := by
  obtain ⟨dbDry, results, hdry, -⟩ := dryRun_taken
  refine ⟨dbDry, results, hdry, dryRun_predicts readUpload_taken hdry (add_left_injective 2) ?_⟩
  refine fun n => Table.find_eq_none.mpr fun r hr => ?_
  rw [List.mem_singleton.mp hr]
  change 1 ≠ n + 2
  omega

end Kepryx.DryRun
