import Kepryx.AssetIntake
import Kepryx.CsvReader

/-!
# The import of a CSV file

The first pass checks the file and the names in it, the second makes an asset of every record
that it can, and one commit stores them. A record that is not imported is in the errors, and
whatever raises leaves nothing behind.
-/
namespace Kepryx.CsvImport
open Kepryx.Models Kepryx.Results Kepryx.Tables Kepryx.RiskWriters Kepryx.AssetIntake
open Kepryx.CsvReader Kepryx.Reconciler
open Kepryx.Redaction (lower)

/-! ## The request -/

structure CsvFile where
  filename : Option String
  content : ByteArray

/-- What ends the request: an answer of its own, or an exception of the reader. -/
inductive ImportError where
  | request (e : RequestError)
  | csv (e : CsvError)
  deriving DecidableEq, Repr

/-- The encoding `utf-8-sig`. -/
def decodeSig (content : ByteArray) : Option (List Char) :=
  (String.fromUTF8? content).map fun s =>
    if s.toList.head? = some (Char.ofNat 0xFEFF) then s.toList.tail else s.toList

/-- What the reader makes of the file. A later error of the file counts before an earlier one of
its rows; either way the request ends with it. -/
def readUpload (file : CsvFile) : Except ImportError Upload :=
  if ¬ (file.filename.any fun f => lower f |>.endsWith ".csv") then
    .error (.request (.badRequest "File must be .csv"))
  else if 50 * 1024 * 1024 < file.content.size then .error (.request .tooLarge)
  else match decodeSig file.content with
    | none => .error (.request (.badRequest "File must be UTF-8 encoded"))
    | some text => match dictReader text with
      | .error e => .error (.csv e)
      | .ok (fieldnames, records) => .ok
        { filename := file.filename
          totalBytes := file.content.size
          fieldnames := fieldnames
          records := records }

/-- `import_assets_csv` on the bytes of a file. -/
def importFile (A : Addressing) (now : Time) (uuid : ℕ → ℕ) (dryRun : Bool) (db : Database)
    (file : CsvFile) : Except ImportError (Database × ImportResults) := do
  let u ← readUpload file
  (importAssetsCsv A now uuid dryRun db u).mapError .request

/-- What is stored after the request: an exception rolls its transaction back. -/
def storedAfter (db : Database) : Except ImportError (Database × ImportResults) → Database
  | .ok (db', _) => db'
  | .error _ => db

/-! ## The rows that a flush adds -/

section Flush
variable {A : Addressing} {db db' : Database}

theorem insertAsset_rows {a : Asset} (h : insertAsset A db a = .ok db') :
    ∃ x, InsertedAs a x ∧ db'.assets.rows = db.assets.rows ++ [x] := by
  obtain ⟨-, h⟩ := guard_eq_ok.mp h
  obtain ⟨ip, -, h⟩ := bind_eq_ok.mp h
  obtain ⟨mac, -, h⟩ := bind_eq_ok.mp h
  split at h
  · cases h
  · rename_i assets hinsert
    cases h
    exact ⟨_, ⟨ip, mac, rfl⟩, (Table.insert?_eq_some hinsert).1⟩

/-- The flush of several new assets appends one row for each, in their order. -/
theorem insertAssets_rows {rows : List Asset} (h : rows.foldlM (insertAsset A) db = .ok db') :
    ∃ new, db'.assets.rows = db.assets.rows ++ new ∧ List.Forall₂ InsertedAs rows new := by
  induction rows generalizing db with
  | nil =>
    cases h
    exact ⟨[], (List.append_nil _).symm, .nil⟩
  | cons a rows ih =>
    rw [List.foldlM_cons] at h
    obtain ⟨db₁, hinsert, h⟩ := bind_eq_ok.mp h
    obtain ⟨x, hx, hrows₁⟩ := insertAsset_rows hinsert
    obtain ⟨new, hrows, hnew⟩ := ih h
    exact ⟨x :: new, by rw [hrows, hrows₁, List.append_assoc, List.singleton_append],
      .cons hx hnew⟩

/-- The columns of the row take its values. -/
structure Storable (A : Addressing) (a : Asset) : Prop where
  fits : Fits a.toAssetColumns
  ip : ∀ t ∈ a.ip, (A.inet t).isSome
  mac : ∀ t ∈ a.mac, (A.macaddr t).isSome

theorem bindText_ok_iff {convert : String → Option String} {t : Option String} :
    (∃ v, bindText convert t = .ok v) ↔ ∀ s ∈ t, (convert s).isSome := by
  cases t with
  | none => simp [bindText]
  | some s => cases h : convert s <;> simp [bindText, h]

/-- With an identifier that is not taken, a row is inserted exactly when its columns take it. -/
theorem insertAsset_ok_iff {a : Asset} (hfree : db.assets.find a.id = none) :
    (∃ db', insertAsset A db a = .ok db') ↔ Storable A a := by
  constructor
  · rintro ⟨db', h⟩
    obtain ⟨hfits, h⟩ := guard_eq_ok.mp h
    obtain ⟨ip, hip, h⟩ := bind_eq_ok.mp h
    obtain ⟨mac, hmac, -⟩ := bind_eq_ok.mp h
    exact ⟨not_not.mp hfits, bindText_ok_iff.mp ⟨ip, hip⟩, bindText_ok_iff.mp ⟨mac, hmac⟩⟩
  · rintro ⟨hfits, hip, hmac⟩
    obtain ⟨ip, hip⟩ := bindText_ok_iff.mpr hip
    obtain ⟨mac, hmac⟩ := bindText_ok_iff.mpr hmac
    cases hinsert : db.assets.insert? { a with ip := ip, mac := mac } with
    | none =>
      have htaken := Table.insert?_eq_none.mp hinsert
      rw [show db.assets.find ({ a with ip := ip, mac := mac } : Asset).id = none from hfree]
        at htaken
      cases htaken
    | some assets =>
      refine ⟨{ db with assets := assets }, ?_⟩
      rw [insertAsset, if_neg (not_not.mpr hfits), hip, ok_bind, hmac, ok_bind, hinsert]

/-- Rows with identifiers of their own are inserted exactly when the columns take all of them. -/
theorem insertAssets_ok_iff {rows : List Asset} (hnodup : (rows.map fun a => a.id).Nodup)
    (hfree : ∀ a ∈ rows, db.assets.find a.id = none) :
    (∃ db', rows.foldlM (insertAsset A) db = .ok db') ↔ ∀ a ∈ rows, Storable A a := by
  induction rows generalizing db with
  | nil => exact iff_of_true ⟨db, rfl⟩ (List.forall_mem_nil _)
  | cons a rows ih =>
    obtain ⟨hnot, hnodup⟩ := List.nodup_cons.mp hnodup
    obtain ⟨hfreeA, hfree⟩ := List.forall_mem_cons.mp hfree
    rw [List.foldlM_cons, List.forall_mem_cons, ← insertAsset_ok_iff hfreeA]
    have hrest : ∀ {db₁}, insertAsset A db a = .ok db₁ → ∀ b ∈ rows,
        db₁.assets.find b.id = none := by
      intro db₁ hinsert b hb
      obtain ⟨x, ⟨ip, mac, rfl⟩, hrows⟩ := insertAsset_rows hinsert
      refine Table.find_eq_none.mpr fun y hy => ?_
      rw [hrows] at hy
      rcases List.mem_append.mp hy with hy | hy
      · exact Table.find_eq_none.mp (hfree b hb) y hy
      · rw [List.mem_singleton.mp hy]
        exact fun heq => hnot (List.mem_map.mpr ⟨b, hb, heq.symm⟩)
    constructor
    · rintro ⟨db', h⟩
      obtain ⟨db₁, hinsert, h⟩ := bind_eq_ok.mp h
      exact ⟨⟨db₁, hinsert⟩, (ih hnodup (hrest hinsert)).mp ⟨db', h⟩⟩
    · rintro ⟨⟨db₁, hinsert⟩, h⟩
      obtain ⟨db', h⟩ := (ih hnodup (hrest hinsert)).mpr h
      exact ⟨db', by rw [hinsert, ok_bind, h]⟩

end Flush

/-! ## What an import that goes through has done -/

/-- Everything that an import with `dry_run = false` that goes through has checked and done. -/
structure Imported (A : Addressing) (now : Time) (uuid : ℕ → ℕ) (u : Upload) (db db' : Database)
    (results : ImportResults) (names : List String) : Prop where
  scanned : scan u = .ok names
  fresh : ∀ b ∈ db.assets.rows, b.name ∉ names
  patches : ∀ e ∈ imported u uuid, LastPatchFits (importedLastPatch e.2)
  flushed : (importedRows now u uuid).foldlM (insertAsset A) db = .ok db'
  created : results.created = (importedRows now u uuid).length
  errors : results.errors = rowErrors u

theorem importAssetsCsv_false_ok {A : Addressing} {now : Time} {uuid : ℕ → ℕ} {u : Upload}
    {db db' : Database} {results : ImportResults}
    (h : importAssetsCsv A now uuid false db u = .ok (db', results)) :
    ∃ names, Imported A now uuid u db db' results names := by
  obtain ⟨names, hscan, h⟩ := bind_eq_ok.mp h
  simp only [Bool.false_eq_true, if_false] at h
  obtain ⟨hexisting, h⟩ := guard_eq_ok.mp h
  obtain ⟨hpatches, h⟩ := guard_eq_ok.mp h
  cases hflush : (importedRows now u uuid).foldlM (insertAsset A) db with
  | error e =>
    rw [hflush] at h
    cases h
  | ok db₁ =>
    rw [hflush] at h
    cases h
    refine ⟨names, hscan, fun b hb hname => ?_, fun e he => ?_, hflush, rfl, rfl⟩
    · have hmem : b ∈ db.assets.rows.filter fun a => a.name ∈ names :=
        List.mem_filter.mpr ⟨hb, decide_eq_true hname⟩
      rw [not_not.mp hexisting] at hmem
      cases hmem
    · by_contra hnot
      exact hpatches ⟨e, he, hnot⟩

/-- An import with `dry_run = false` goes through exactly when its checks and its flush do. -/
theorem importAssetsCsv_false_ok_iff {A : Addressing} {now : Time} {uuid : ℕ → ℕ} {u : Upload}
    {db : Database} {names : List String} (hscan : scan u = .ok names) :
    (∃ db' results, importAssetsCsv A now uuid false db u = .ok (db', results)) ↔
      (∀ b ∈ db.assets.rows, b.name ∉ names) ∧
      (∀ e ∈ imported u uuid, LastPatchFits (importedLastPatch e.2)) ∧
      ∃ db', (importedRows now u uuid).foldlM (insertAsset A) db = .ok db' := by
  constructor
  · rintro ⟨db', results, h⟩
    obtain ⟨names', hdone⟩ := importAssetsCsv_false_ok h
    obtain rfl := Except.ok.inj (hscan.symm.trans hdone.scanned)
    exact ⟨hdone.fresh, hdone.patches, db', hdone.flushed⟩
  · rintro ⟨hfresh, hpatches, db', hflush⟩
    have hexisting : db.assets.rows.filter (fun a => a.name ∈ names) = [] :=
      List.filter_eq_nil_iff.mpr fun b hb => by simpa using hfresh b hb
    have hpatch : ¬ ∃ e ∈ imported u uuid, ¬ LastPatchFits (importedLastPatch e.2) :=
      fun ⟨e, he, hnot⟩ => hnot (hpatches e he)
    refine ⟨db', ⟨(importedRows now u uuid).length, rowErrors u, [], false⟩, ?_⟩
    simp only [importAssetsCsv, hscan, ok_bind, Bool.false_eq_true, if_false, hexisting,
      ne_eq, not_true_eq_false, if_neg hpatch, hflush]
    rfl

/-! ## One record, one asset or one error -/

section Records
variable {now : Time} {uuid : ℕ → ℕ} {u : Upload}

/-- The data rows with their numbers. -/
def dataRows (u : Upload) : List (List String × ℕ) := u.records.zipIdx 2

/-- The row is the asset that a data row is imported as. -/
def ImportOf (now : Time) (uuid : ℕ → ℕ) (u : Upload) (row : List String × ℕ) (x : Asset) : Prop :=
  ∃ d, record u row.1 = .ok d ∧ InsertedAs (storeRisk (importedAsset now (uuid row.2) d)
    (riskOf (importedAsset now (uuid row.2) d).toAssetColumns [])) x

/-- Whether a record is imported. -/
def readable (u : Upload) (cells : List String) : Bool := (record u cells).toOption.isSome

theorem rowErrors_numbers (u : Upload) :
    (rowErrors u).map Prod.fst = ((dataRows u).filter fun e => !readable u e.1).map Prod.snd := by
  rw [rowErrors, dataRows]
  induction u.records.zipIdx 2 with
  | nil => rfl
  | cons e rows ih =>
    cases h : record u e.1 with
    | ok d =>
      have hread : readable u e.1 = true := by rw [readable, h]; rfl
      rw [List.filterMap_cons_none (by rw [h]), List.filter_cons_of_neg (by rw [hread]; simp), ih]
    | error m =>
      have hread : readable u e.1 = false := by rw [readable, h]; rfl
      rw [List.filterMap_cons_some (by rw [h]), List.filter_cons_of_pos (by rw [hread]; rfl),
        List.map_cons, List.map_cons, ih]

theorem dataRows_numbers (u : Upload) : ((dataRows u).map Prod.snd).Nodup := by
  rw [dataRows, List.zipIdx_map_snd]
  exact List.nodup_range'

/-- The numbers in the errors are those of the rows that are not imported. -/
theorem mem_errors_iff {e : List String × ℕ} (he : e ∈ dataRows u) :
    e.2 ∈ (rowErrors u).map Prod.fst ↔ readable u e.1 = false := by
  rw [rowErrors_numbers, List.mem_map]
  constructor
  · rintro ⟨e', he', hnumber⟩
    obtain ⟨hmem, hread⟩ := List.mem_filter.mp he'
    obtain rfl := List.inj_on_of_nodup_map (dataRows_numbers u) hmem he hnumber
    simpa using hread
  · exact fun h => ⟨e, List.mem_filter.mpr ⟨he, by rw [h]; rfl⟩, rfl⟩

theorem rowErrors_nodup (u : Upload) : ((rowErrors u).map Prod.fst).Nodup := by
  rw [rowErrors_numbers]
  exact (dataRows_numbers u).sublist (List.filter_sublist.map _)

/-- Every data row is imported or in the errors. -/
theorem imported_add_errors (now : Time) (uuid : ℕ → ℕ) (u : Upload) :
    (importedRows now u uuid).length + (rowErrors u).length = u.records.length := by
  have hrows : u.records.length = (dataRows u).length := (List.length_zipIdx).symm
  rw [importedRows, List.length_map, hrows, imported, rowErrors, dataRows]
  induction u.records.zipIdx 2 with
  | nil => rfl
  | cons e rows ih =>
    cases h : record u e.1 with
    | ok d =>
      rw [List.filterMap_cons_some (by rw [h]; rfl), List.filterMap_cons_none (by rw [h]),
        List.length_cons, List.length_cons, ← ih]
      omega
    | error m =>
      rw [List.filterMap_cons_none (by rw [h]; rfl), List.filterMap_cons_some (by rw [h]),
        List.length_cons, List.length_cons, ← ih]
      omega

/-- The rows that are stored are, one by one, those of the records that are read. -/
theorem importOf_new {rows : List (List String × ℕ)} {new : List Asset}
    (h : List.Forall₂ InsertedAs ((rows.filterMap fun e =>
      (record u e.1).toOption.map fun d => (uuid e.2, d)).map fun e =>
        storeRisk (importedAsset now e.1 e.2)
          (riskOf (importedAsset now e.1 e.2).toAssetColumns [])) new) :
    List.Forall₂ (ImportOf now uuid u) (rows.filter fun e => readable u e.1) new := by
  induction rows generalizing new with
  | nil =>
    cases h
    exact .nil
  | cons e rows ih =>
    cases hrecord : record u e.1 with
    | ok d =>
      rw [List.filterMap_cons_some (by rw [hrecord]; rfl), List.map_cons] at h
      obtain ⟨x, new', hx, hrest, rfl⟩ := List.forall₂_cons_left_iff.mp h
      rw [List.filter_cons_of_pos (by rw [readable, hrecord]; rfl)]
      exact .cons ⟨d, hrecord, hx⟩ (ih hrest)
    | error m =>
      rw [List.filterMap_cons_none (by rw [hrecord]; rfl)] at h
      rw [List.filter_cons_of_neg (by rw [readable, hrecord]; simp [Except.toOption])]
      exact ih h

end Records

/-! ## All or nothing -/

/-- The account of an import: the new rows are those of the data rows that are not in the errors,
one for one, and the numbers add up. -/
structure Accounted (now : Time) (uuid : ℕ → ℕ) (u : Upload) (db db' : Database)
    (results : ImportResults) : Prop where
  stored : ∃ new, db'.assets.rows = db.assets.rows ++ new ∧ new.length = results.created ∧
    List.Forall₂ (ImportOf now uuid u)
      ((dataRows u).filter fun e => e.2 ∉ results.errors.map Prod.fst) new
  total : results.created + results.errors.length = u.records.length
  once : (results.errors.map Prod.fst).Nodup
  rows : ∀ n ∈ results.errors.map Prod.fst, n ∈ (dataRows u).map Prod.snd

theorem accounted {A : Addressing} {now : Time} {uuid : ℕ → ℕ} {u : Upload} {db db' : Database}
    {results : ImportResults} {names : List String}
    (h : Imported A now uuid u db db' results names) : Accounted now uuid u db db' results := by
  obtain ⟨new, hrows, hnew⟩ := insertAssets_rows h.flushed
  refine ⟨⟨new, hrows, ?_, ?_⟩, ?_, ?_, ?_⟩
  · rw [h.created, hnew.length_eq]
  · have hfilter : (dataRows u).filter (fun e => e.2 ∉ results.errors.map Prod.fst) =
        (dataRows u).filter fun e => readable u e.1 := by
      refine List.filter_congr fun e he => ?_
      rw [h.errors, Bool.eq_iff_iff, decide_eq_true_eq, mem_errors_iff he, Bool.not_eq_false]
    rw [hfilter]
    exact importOf_new hnew
  · rw [h.created, h.errors, imported_add_errors]
  · rw [h.errors]
    exact rowErrors_nodup u
  · intro n hn
    rw [h.errors, rowErrors_numbers] at hn
    exact (List.filter_sublist.map _).subset hn

/-- An import either raises and stores nothing, or stores an asset for every data row that is not
among its errors. -/
theorem importFile_all_or_nothing (A : Addressing) (now : Time) (uuid : ℕ → ℕ) (db : Database)
    (file : CsvFile) :
    (∃ e, importFile A now uuid false db file = .error e ∧
      storedAfter db (importFile A now uuid false db file) = db) ∨
    ∃ u db' results, readUpload file = .ok u ∧
      importFile A now uuid false db file = .ok (db', results) ∧
      Accounted now uuid u db db' results := by
  cases h : importFile A now uuid false db file with
  | error e => exact .inl ⟨e, rfl, rfl⟩
  | ok out =>
    obtain ⟨u, hread, h⟩ := bind_eq_ok.mp h
    cases himport : importAssetsCsv A now uuid false db u with
    | error e =>
      rw [himport] at h
      cases h
    | ok out' =>
      rw [himport] at h
      cases h
      obtain ⟨names, hdone⟩ := importAssetsCsv_false_ok himport
      exact .inr ⟨u, _, _, hread, rfl, accounted hdone⟩

end Kepryx.CsvImport
