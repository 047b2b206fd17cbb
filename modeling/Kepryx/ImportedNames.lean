import Kepryx.CsvImport

/-!
# The names of imported assets

The first pass reads the name of a record under the keys `name` and `Name`, the second under
every key that becomes `name` when it is stripped and lowered, and the last such column counts.
What the first pass checks is therefore what the second imports only where both readings agree.
-/
namespace Kepryx.ImportedNames
open Kepryx.Models Kepryx.Results Kepryx.Tables Kepryx.RiskWriters Kepryx.AssetIntake
open Kepryx.CsvReader Kepryx.CsvImport Kepryx.Reconciler
open Kepryx.Redaction (lower)

/-! ## Unique names and misread rows -/

/-- The new assets have names of their own, which no asset had before. -/
def NamesUnique (db db' : Database) : Prop :=
  ∃ new, db'.assets.rows = db.assets.rows ++ new ∧ (new.map fun a => a.name).Nodup ∧
    ∀ a ∈ new, ∀ b ∈ db.assets.rows, b.name ≠ a.name

/-- The name that a record is imported under, if it is imported. -/
def importedName (u : Upload) (cells : List String) : Option String :=
  (record u cells).toOption.map fun d => text d "name"

/-- The two passes read different names. -/
def Misread (u : Upload) (cells : List String) : Prop :=
  ∃ name, importedName u cells = some name ∧ scannedName u.fieldnames cells ≠ name

/-- Every record that the passes read differently is imported under a name that no other record
is imported under and that no asset has. -/
structure Settled (u : Upload) (db : Database) : Prop where
  distinct : ∀ (i j : ℕ) cells cells', u.records[i]? = some cells → u.records[j]? = some cells' →
    Misread u cells → importedName u cells = importedName u cells' → i = j
  fresh : ∀ cells ∈ u.records, Misread u cells → ∀ b ∈ db.assets.rows,
    importedName u cells ≠ some b.name

/-! ## What the passes read -/

theorem lookup_assign (d : Dict) (key value x : String) :
    (assign d key value).lookup x = if key = x then some value else d.lookup x := by
  rw [assign, lookup_write]
  simp only [eq_comm]

theorem text_assign (d : Dict) (key value x : String) :
    text (assign d key value) x = if key = x then value else text d x := by
  rw [text, text, lookup_assign]
  split <;> rfl

/-- No default is for the name. -/
theorem text_withDefaults_name (d : Dict) : text (withDefaults d) "name" = text d "name" := by
  have hdefaults : ∀ (es : Dict) (d : Dict), (∀ e ∈ es, e.1 ≠ "name") →
      text (es.foldl (fun d e => if text d e.1 = "" then assign d e.1 e.2 else d) d) "name" =
        text d "name" := by
    intro es
    induction es with
    | nil => exact fun _ _ => rfl
    | cons e es ih =>
      intro d hes
      obtain ⟨he, hes⟩ := List.forall_mem_cons.mp hes
      rw [List.foldl_cons, ih _ hes]
      split
      · rw [text_assign, if_neg he]
      · rfl
  refine hdefaults defaults d ?_
  simp [defaults]

/-- A record is imported under a name that is not empty. -/
theorem importedName_some {u : Upload} {cells : List String} {name : String}
    (h : importedName u cells = some name) : cells.length ≤ u.fieldnames.length ∧ name ≠ "" ∧
      name = text (normalize (rowDict u.fieldnames cells)) "name" := by
  obtain ⟨d, hd, rfl⟩ := Option.map_eq_some_iff.mp h
  cases hrecord : record u cells with
  | error m =>
    rw [hrecord] at hd
    cases hd
  | ok d' =>
    rw [hrecord] at hd
    obtain rfl : d' = d := Option.some.inj hd
    obtain ⟨hlength, hrecord⟩ := guard_eq_ok.mp hrecord
    obtain ⟨hname, hrecord⟩ := guard_eq_ok.mp hrecord
    rw [← Except.ok.inj hrecord, text_withDefaults_name]
    exact ⟨Nat.not_lt.mp hlength, hname, rfl⟩

/-- Without duplicates a name that is not empty is scanned once. -/
theorem eq_of_duplicates_nil {names : List String} (h : duplicates names = []) {i j : ℕ}
    {name : String} (hi : names[i]? = some name) (hj : names[j]? = some name) (hne : name ≠ "") :
    i = j := by
  have hfirst : ∀ k, names[k]? = some name → k = names.idxOf name := by
    intro k hk
    obtain ⟨hlt, hget⟩ := List.getElem?_eq_some_iff.mp hk
    have hle : names.idxOf name ≤ k := by
      by_contra hnot
      have hother : (names[k] == name) = false := List.not_of_lt_findIdx (Nat.not_le.mp hnot)
      simp [hget] at hother
    have hmem : (name, k + 2) ∈ names.zipIdx 2 := by
      rw [List.mem_zipIdx_iff_le_and_getElem?_sub]
      exact ⟨Nat.le_add_left 2 k, by simpa using hk⟩
    have hnone := List.filterMap_eq_nil_iff.mp h _ hmem
    by_contra hk'
    rw [if_pos ⟨hne, by dsimp only; omega⟩] at hnone
    cases hnone
  rw [hfirst i hi, hfirst j hj]

theorem scan_ok {u : Upload} {names : List String} (h : scan u = .ok names) :
    duplicates (u.records.map (scannedName u.fieldnames)) = [] ∧
      names = (u.records.map (scannedName u.fieldnames)).filter (· ≠ "") := by
  obtain ⟨-, h⟩ := guard_eq_ok.mp h
  obtain ⟨-, h⟩ := guard_eq_ok.mp h
  obtain ⟨-, h⟩ := guard_eq_ok.mp h
  obtain ⟨-, h⟩ := guard_eq_ok.mp h
  obtain ⟨-, h⟩ := guard_eq_ok.mp h
  obtain ⟨-, h⟩ := guard_eq_ok.mp h
  obtain ⟨hduplicates, h⟩ := guard_eq_ok.mp h
  cases h
  exact ⟨not_not.mp hduplicates, rfl⟩

/-! ## The new rows -/

/-- The names of the rows that an import adds. -/
theorem importedRows_names (now : Time) (u : Upload) (uuid : ℕ → ℕ) :
    (importedRows now u uuid).map (fun a => a.name) = u.records.filterMap (importedName u) := by
  have hrows : ∀ rows : List (List String × ℕ),
      ((rows.filterMap fun e => (record u e.1).toOption.map fun d => (uuid e.2, d)).map fun e =>
        text e.2 "name") = (rows.map Prod.fst).filterMap (importedName u) := by
    intro rows
    rw [List.map_filterMap, List.filterMap_map]
    refine List.filterMap_congr fun e _ => ?_
    rw [Function.comp_apply, importedName]
    cases record u e.1 <;> rfl
  rw [importedRows, List.map_map]
  refine (hrows (u.records.zipIdx 2)).trans ?_
  rw [List.zipIdx_map_fst]

theorem names_of_insertedAs {rows new : List Asset} (h : List.Forall₂ InsertedAs rows new) :
    new.map (fun a => a.name) = rows.map fun a => a.name := by
  induction h with
  | nil => rfl
  | cons hx _ ih =>
    obtain ⟨ip, mac, rfl⟩ := hx
    rw [List.map_cons, List.map_cons, ih]

/-- The names are unique if those that the records are imported under are. -/
theorem namesUnique_iff {A : Addressing} {now : Time} {uuid : ℕ → ℕ} {u : Upload}
    {db db' : Database} {results : ImportResults} {names : List String}
    (h : Imported A now uuid u db db' results names) : NamesUnique db db' ↔
      (u.records.filterMap (importedName u)).Nodup ∧
        ∀ name ∈ u.records.filterMap (importedName u), ∀ b ∈ db.assets.rows, b.name ≠ name := by
  obtain ⟨new, hrows, hnew⟩ := insertAssets_rows h.flushed
  have hnames : new.map (fun a => a.name) = u.records.filterMap (importedName u) :=
    (names_of_insertedAs hnew).trans (importedRows_names now u uuid)
  rw [← hnames]
  constructor
  · rintro ⟨new', hrows', hnodup, hfresh⟩
    obtain rfl : new' = new := List.append_cancel_left (hrows'.symm.trans hrows)
    refine ⟨hnodup, fun name hname b hb => ?_⟩
    obtain ⟨a, ha, rfl⟩ := List.mem_map.mp hname
    exact hfresh a ha b hb
  · rintro ⟨hnodup, hfresh⟩
    exact ⟨new, hrows, hnodup, fun a ha b hb => hfresh a.name (List.mem_map.mpr ⟨a, ha, rfl⟩) b hb⟩

/-- What a list is mapped to, where it is, has no repetition. -/
theorem nodup_filterMap_iff {α β : Type*} {f : α → Option β} {xs : List α} :
    (xs.filterMap f).Nodup ↔ ∀ (i j : ℕ) x y z, xs[i]? = some x → xs[j]? = some y →
      f x = some z → f y = some z → i = j := by
  rw [List.Nodup, List.pairwise_filterMap, List.pairwise_iff_getElem]
  constructor
  · intro h i j x y z hx hy hfx hfy
    obtain ⟨hi, rfl⟩ := List.getElem?_eq_some_iff.mp hx
    obtain ⟨hj, rfl⟩ := List.getElem?_eq_some_iff.mp hy
    rcases Nat.lt_trichotomy i j with hlt | heq | hlt
    · exact absurd rfl (h i j hi hj hlt z hfx z hfy)
    · exact heq
    · exact absurd rfl (h j i hj hi hlt z hfy z hfx)
  · rintro h i j hi hj hlt z hz z' hz' rfl
    have := h i j _ _ z (List.getElem?_eq_getElem hi) (List.getElem?_eq_getElem hj) hz hz'
    omega

/-- A record that both passes read alike shares its name with no other that they read alike, and
with no asset. -/
theorem settled_iff {u : Upload} {db : Database} {names : List String} (hscan : scan u = .ok names)
    (hfresh : ∀ b ∈ db.assets.rows, b.name ∉ names) : Settled u db ↔
      (u.records.filterMap (importedName u)).Nodup ∧
        ∀ name ∈ u.records.filterMap (importedName u), ∀ b ∈ db.assets.rows, b.name ≠ name := by
  obtain ⟨hduplicates, rfl⟩ := scan_ok hscan
  rw [nodup_filterMap_iff]
  have hread : ∀ cells name, importedName u cells = some name → ¬ Misread u cells →
      scannedName u.fieldnames cells = name ∧ name ≠ "" := by
    intro cells name hname halike
    refine ⟨?_, (importedName_some hname).2.1⟩
    by_contra hne
    exact halike ⟨name, hname, hne⟩
  constructor
  · intro hsettled
    refine ⟨fun i j x y z hx hy hfx hfy => ?_, fun name hname b hb heq => ?_⟩
    · by_cases hmx : Misread u x
      · exact hsettled.distinct i j x y hx hy hmx (hfx.trans hfy.symm)
      · by_cases hmy : Misread u y
        · exact (hsettled.distinct j i y x hy hx hmy (hfy.trans hfx.symm)).symm
        · obtain ⟨hsx, hne⟩ := hread x z hfx hmx
          obtain ⟨hsy, -⟩ := hread y z hfy hmy
          have hi : (u.records.map (scannedName u.fieldnames))[i]? = some z := by
            rw [List.getElem?_map, hx, Option.map_some, hsx]
          have hj : (u.records.map (scannedName u.fieldnames))[j]? = some z := by
            rw [List.getElem?_map, hy, Option.map_some, hsy]
          exact eq_of_duplicates_nil hduplicates hi hj hne
    · obtain ⟨cells, hcells, himported⟩ := List.mem_filterMap.mp hname
      by_cases hm : Misread u cells
      · exact hsettled.fresh cells hcells hm b hb (heq ▸ himported)
      · obtain ⟨hscanned, hne⟩ := hread cells name himported hm
        refine hfresh b hb (List.mem_filter.mpr ⟨List.mem_map.mpr ⟨cells, hcells, ?_⟩, ?_⟩)
        · rw [hscanned, heq]
        · rw [heq]
          exact decide_eq_true hne
  · rintro ⟨hdistinct, hnew⟩
    refine ⟨fun i j x y hx hy hm heq => ?_, fun cells hcells hm b hb heq => ?_⟩
    · obtain ⟨name, hname, -⟩ := hm
      exact hdistinct i j x y name hx hy hname (heq ▸ hname)
    · exact hnew b.name (List.mem_filterMap.mpr ⟨cells, hcells, heq⟩) b hb rfl

/-- After an import that goes through the names are unique exactly when every record that the two
passes read differently has a name of its own. -/
theorem import_namesUnique_iff {A : Addressing} {now : Time} {uuid : ℕ → ℕ} {file : CsvFile}
    {u : Upload} {db db' : Database} {results : ImportResults} (hread : readUpload file = .ok u)
    (h : importFile A now uuid false db file = .ok (db', results)) :
    NamesUnique db db' ↔ Settled u db := by
  simp only [importFile, hread, ok_bind] at h
  cases himport : importAssetsCsv A now uuid false db u with
  | error e =>
    rw [himport] at h
    cases h
  | ok out =>
    rw [himport] at h
    cases h
    obtain ⟨names, hdone⟩ := importAssetsCsv_false_ok himport
    rw [namesUnique_iff hdone, settled_iff hdone.scanned hdone.fresh]

/-! ## Headers -/

/-- The column that the second pass takes the name from: the last one that becomes `name`. -/
def nameColumn (fieldnames : List String) : Option String :=
  ((rowDict fieldnames []).map Prod.fst).reverse.find? fun h => lower (strip h) = "name"

/-- The header names that column as the first pass does. -/
def SoundHeader (fieldnames : List String) : Prop :=
  nameColumn fieldnames = some "name" ∨
    (nameColumn fieldnames = some "Name" ∧ "name" ∉ fieldnames)

/-- A key that is assigned stands where it stood, or at the end. -/
def addKey (keys : List String) (key : String) : List String :=
  if key ∈ keys then keys else keys ++ [key]

theorem keys_assign (d : Dict) (key value : String) :
    (assign d key value).map Prod.fst = addKey (d.map Prod.fst) key := by
  have hsome : (d.lookup key).isSome ↔ key ∈ d.map Prod.fst := by
    rw [List.lookup_isSome_iff, List.mem_map]
    simp only [beq_iff_eq]
    exact ⟨fun ⟨e, he, hk⟩ => ⟨e, he, hk.symm⟩, fun ⟨e, he, hk⟩ => ⟨e, he, hk.symm⟩⟩
  unfold assign addKey
  by_cases h : key ∈ d.map Prod.fst
  · rw [if_pos (hsome.mpr h), if_pos h, List.map_map]
    refine List.map_congr_left fun e _ => ?_
    rw [Function.comp_apply]
    split
    · rename_i hk
      exact hk.symm
    · rfl
  · rw [if_neg (hsome.not.mpr h), if_neg h, List.map_append]
    rfl

/-- The keys of a record are those of the header, whatever its cells. -/
theorem keys_rowDict (fieldnames cells : List String) :
    (rowDict fieldnames cells).map Prod.fst = fieldnames.foldl addKey [] := by
  have hfold : ∀ (es d : Dict), (es.foldl (fun d e => assign d e.1 e.2) d).map Prod.fst =
      (es.map Prod.fst).foldl addKey (d.map Prod.fst) := by
    intro es
    induction es with
    | nil => exact fun _ => rfl
    | cons e es ih =>
      intro d
      rw [List.foldl_cons, ih, keys_assign, List.map_cons, List.foldl_cons]
  rw [rowDict, hfold, List.map_fst_zip (by simp)]
  rfl

theorem mem_foldl_addKey {x : String} (hs keys : List String) :
    x ∈ hs.foldl addKey keys ↔ x ∈ keys ∨ x ∈ hs := by
  induction hs generalizing keys with
  | nil => simp
  | cons h hs ih =>
    rw [List.foldl_cons, ih, addKey, List.mem_cons]
    split
    · rename_i hmem
      constructor
      · rintro (hx | hx)
        · exact .inl hx
        · exact .inr (.inr hx)
      · rintro (hx | rfl | hx)
        · exact .inl hx
        · exact .inl hmem
        · exact .inr hx
    · rw [List.mem_append, List.mem_singleton, or_assoc]

theorem foldl_addKey_nodup (hs keys : List String) (h : keys.Nodup) :
    (hs.foldl addKey keys).Nodup := by
  refine List.foldlRecOn hs addKey h fun keys hkeys x _ => ?_
  unfold addKey
  split
  · exact hkeys
  · rename_i hnot
    refine List.nodup_append.mpr ⟨hkeys, List.nodup_singleton x, ?_⟩
    rintro a ha b hb rfl
    exact hnot (List.mem_singleton.mp hb ▸ ha)

/-- A name that is no column is read as empty. -/
theorem text_rowDict_of_notMem {fieldnames : List String} {x : String} (h : x ∉ fieldnames)
    (cells : List String) : text (rowDict fieldnames cells) x = "" := by
  have hnone : (rowDict fieldnames cells).lookup x = none := by
    rw [List.lookup_eq_none_iff]
    rintro e he
    have hmem : e.1 ∈ (rowDict fieldnames cells).map Prod.fst := List.mem_map_of_mem he
    rw [keys_rowDict, mem_foldl_addKey] at hmem
    rw [bne_iff_ne]
    rintro rfl
    exact h (hmem.resolve_left List.not_mem_nil)
  rw [text, hnone]
  rfl

/-- A dictionary with changed keys holds what the last key that becomes `x` had. -/
theorem lookup_foldl_assign (norm value : String → String) (x : String) (row d : Dict) :
    (row.foldl (fun d e => assign d (norm e.1) (value e.2)) d).lookup x =
      ((row.reverse.find? fun e => norm e.1 = x).map fun e => value e.2).or (d.lookup x) := by
  induction row generalizing d with
  | nil => rfl
  | cons e row ih =>
    rw [List.foldl_cons, ih, lookup_assign, List.reverse_cons, List.find?_append, Option.map_or,
      Option.or_assoc]
    refine congrArg (Option.or _) ?_
    by_cases hx : norm e.1 = x
    · simp [hx]
    · simp [hx]

theorem find_reverse_keys (norm : String → String) (x : String) (row : Dict) :
    (row.map Prod.fst).reverse.find? (fun k => norm k = x) =
      (row.reverse.find? fun e => norm e.1 = x).map Prod.fst := by
  rw [← List.map_reverse, List.find?_map]
  rfl

theorem lookup_of_mem {d : Dict} (hnodup : (d.map Prod.fst).Nodup) {e : String × String}
    (he : e ∈ d) : d.lookup e.1 = some e.2 := by
  induction d with
  | nil => cases he
  | cons e' d ih =>
    obtain ⟨hnot, hnodup⟩ := List.nodup_cons.mp hnodup
    rcases List.mem_cons.mp he with rfl | he
    · exact List.lookup_cons_self
    · have hne : (e.1 == e'.1) = false := by
        refine beq_false_of_ne fun heq => hnot ?_
        exact List.mem_map.mpr ⟨e, he, heq⟩
      rw [List.lookup_cons, hne]
      exact ih hnodup he

theorem text_foldl_assign (norm value : String → String) {row : Dict}
    (hnodup : (row.map Prod.fst).Nodup) {h x : String}
    (hcolumn : (row.map Prod.fst).reverse.find? (fun k => norm k = x) = some h) :
    text (row.foldl (fun d e => assign d (norm e.1) (value e.2)) []) x = value (text row h) := by
  rw [find_reverse_keys] at hcolumn
  obtain ⟨e, he, rfl⟩ := Option.map_eq_some_iff.mp hcolumn
  have hlookup := lookup_of_mem hnodup (List.mem_reverse.mp (List.mem_of_find?_eq_some he))
  rw [text, text, lookup_foldl_assign, he, hlookup, Option.map_some, Option.some_or,
    Option.getD_some, Option.getD_some]

/-- The second pass takes the name from that column. -/
theorem text_normalize {fieldnames : List String} {h : String}
    (hcolumn : nameColumn fieldnames = some h) (cells : List String) :
    text (normalize (rowDict fieldnames cells)) "name" =
      strip (text (rowDict fieldnames cells) h) := by
  rw [nameColumn, keys_rowDict] at hcolumn
  refine text_foldl_assign (fun k => lower (strip k)) strip ?_ ?_
  · rw [keys_rowDict]
    exact foldl_addKey_nodup _ _ List.nodup_nil
  · rw [keys_rowDict]
    exact hcolumn

/-- Under such a header the passes read every record alike. -/
theorem not_misread {u : Upload} (hheader : SoundHeader u.fieldnames) (cells : List String) :
    ¬ Misread u cells := by
  rintro ⟨name, himported, hne⟩
  obtain ⟨-, hname, hread⟩ := importedName_some himported
  refine hne ?_
  have hstrip : strip "" = "" := by decide
  rcases hheader with hcolumn | ⟨hcolumn, hnot⟩
  · rw [text_normalize hcolumn] at hread
    have htext : text (rowDict u.fieldnames cells) "name" ≠ "" := by
      intro hempty
      rw [hempty, hstrip] at hread
      exact hname hread
    rw [scannedName, if_pos htext, hread]
  · rw [text_normalize hcolumn] at hread
    rw [scannedName, if_neg (not_not.mpr (text_rowDict_of_notMem hnot cells)), hread]

/-- So whatever the records are, the names are unique. -/
theorem namesUnique_of_soundHeader {A : Addressing} {now : Time} {uuid : ℕ → ℕ} {u : Upload}
    {db db' : Database} {results : ImportResults} (hheader : SoundHeader u.fieldnames)
    (h : importAssetsCsv A now uuid false db u = .ok (db', results)) : NamesUnique db db' := by
  obtain ⟨names, hdone⟩ := importAssetsCsv_false_ok h
  rw [namesUnique_iff hdone, ← settled_iff hdone.scanned hdone.fresh]
  exact ⟨fun _ _ cells _ _ _ hm _ => absurd hm (not_misread hheader cells),
    fun cells _ hm => absurd hm (not_misread hheader cells)⟩

/-! ## A header in capitals -/

theorem decodeSig_toUTF8 {s : String} (h : s.toList.head? ≠ some (Char.ofNat 0xFEFF)) :
    decodeSig s.toUTF8 = some s.toList := by
  have hdecode : String.fromUTF8? s.toUTF8 = some s := by
    exact dif_pos s.isValidUTF8
  rw [decodeSig, hdecode, Option.map_some, if_neg h]

/-- Two records with one name, in a column whose name is in capitals. -/
def capitals : CsvFile where
  filename := some "assets.csv"
  content := "NAME,type\na,server\na,server\n".toUTF8

def capitalsUpload : Upload where
  filename := some "assets.csv"
  totalBytes := 28
  fieldnames := ["NAME", "type"]
  records := [["a", "server"], ["a", "server"]]

theorem readUpload_capitals : readUpload capitals = .ok capitalsUpload := by
  have hdecode : decodeSig capitals.content = some "NAME,type\na,server\na,server\n".toList :=
    decodeSig_toUTF8 (s := "NAME,type\na,server\na,server\n") (by decide +kernel)
  have hread : dictReader "NAME,type\na,server\na,server\n".toList =
      .ok (["NAME", "type"], [["a", "server"], ["a", "server"]]) := by decide +kernel
  have hname : (capitals.filename.any fun f => lower f |>.endsWith ".csv") = true := by
    decide +kernel
  have hsize : capitals.content.size = 28 := by decide +kernel
  simp only [readUpload, hname, not_true_eq_false, if_false, hsize, hdecode, hread]
  rfl

theorem splitOn_empty : "".splitOn ";" = [""] := by
  rw [String.splitOn, if_neg (by decide), String.splitOnAux, if_pos (by decide +kernel)]
  decide +kernel

theorem listField_empty {d : Dict} {key : String} (h : text d key = "") : listField d key = [] := by
  rw [listField, h, splitOn_empty]
  decide

/-- What both records are imported as. -/
def capitalsDict : Dict := [("name", "a"), ("type", "server"), ("control_coverage", "partial"),
  ("network_exposure", "internal"), ("auth_method", "password"), ("criticality", "medium"),
  ("data_classification", "Internal"), ("segment", "Internal"), ("edr_status", "None")]

theorem capitals_storable (n : ℕ) : Storable .canonical (storeRisk (importedAsset 0 n capitalsDict)
    (riskOf (importedAsset 0 n capitalsDict).toAssetColumns [])) := by
  have hempty : ∀ key, text capitalsDict key = "" → listField capitalsDict key = [] :=
    fun key => listField_empty
  have htexts : columnTexts (importedAsset 0 n capitalsDict).toAssetColumns =
      ["a", "server", "partial", "internal", "password", "medium", "Internal", "Internal",
        "None"] := by
    simp only [columnTexts, importedAsset]
    rw [hempty "dependencies" rfl, hempty "software_stack" rfl, hempty "cpe" rfl,
      hempty "tags" rfl]
    decide +kernel
  refine ⟨⟨?_, ?_⟩, fun _ _ => rfl, fun _ _ => rfl⟩
  · change ∀ t ∈ columnTexts (importedAsset 0 n capitalsDict).toAssetColumns, Plain t
    rw [htexts]
    decide +kernel
  · change Within 255 (some "a") ∧ Within 64 (some "server") ∧ Within 255 none ∧
      Within 64 (some "Internal") ∧ Within 128 (some "None") ∧ Within 16 (some "partial") ∧
      Within 32 (some "internal") ∧ Within 32 (some "password") ∧ Within 16 (some "medium") ∧
      Within 32 (some "Internal")
    decide

theorem capitals_ok : ∃ db' results,
    importAssetsCsv .canonical 0 id false .empty capitalsUpload = .ok (db', results) := by
  have hscan : scan capitalsUpload = .ok [] := by decide +kernel
  have himported : imported capitalsUpload id = [(2, capitalsDict), (3, capitalsDict)] := by
    decide +kernel
  have hpatches : ∀ e ∈ imported capitalsUpload id, LastPatchFits (importedLastPatch e.2) := by
    rw [himported]
    decide +kernel
  have hflush : ∃ db', (importedRows 0 capitalsUpload id).foldlM (insertAsset .canonical) .empty =
      .ok db' := by
    rw [importedRows, himported]
    refine (insertAssets_ok_iff (by decide +kernel) fun a _ => rfl).mpr fun a ha => ?_
    rcases List.mem_cons.mp ha with rfl | ha
    · exact capitals_storable 2
    · rw [List.mem_singleton.mp ha]
      exact capitals_storable 3
  exact (importAssetsCsv_false_ok_iff hscan).mpr ⟨List.forall_mem_nil _, hpatches, hflush⟩

theorem importFile_capitals {db' : Database} {results : ImportResults}
    (h : importAssetsCsv .canonical 0 id false .empty capitalsUpload = .ok (db', results)) :
    importFile .canonical 0 id false .empty capitals = .ok (db', results) := by
  rw [importFile, readUpload_capitals, ok_bind, h]
  rfl

/-- The import stores both, under one name. -/
theorem import_capitals : ∃ db' results,
    importFile .canonical 0 id false .empty capitals = .ok (db', results) ∧
      ¬ NamesUnique .empty db' := by
  obtain ⟨db', results, himport⟩ := capitals_ok
  obtain ⟨names, hdone⟩ := importAssetsCsv_false_ok himport
  refine ⟨db', results, importFile_capitals himport, fun hunique => ?_⟩
  have hnodup := ((namesUnique_iff hdone).mp hunique).1
  have htwice : capitalsUpload.records.filterMap (importedName capitalsUpload) = ["a", "a"] := by
    decide +kernel
  rw [htwice] at hnodup
  exact absurd hnodup (by decide)

theorem import_namesUnique_iff_capitals : ∃ db' results,
    importFile .canonical 0 id false .empty capitals = .ok (db', results) ∧
      (NamesUnique .empty db' ↔ Settled capitalsUpload .empty) := by
  obtain ⟨db', results, himport⟩ := capitals_ok
  have hfile := importFile_capitals himport
  exact ⟨db', results, hfile, import_namesUnique_iff readUpload_capitals hfile⟩

end Kepryx.ImportedNames
