import Kepryx.Reconciler
import Kepryx.Results

/-!
# What one report does to the stored rows

A handled report either leaves the database as it was, or replaces the row of the
asset it was matched to, or inserts one row. These are the only facts about the
session that the results on sequences of reports use.
-/
namespace Kepryx.ReportHandling
open Kepryx.Models Kepryx.Results Kepryx.Tables Kepryx.UnitOfWork Kepryx.Reconciler

/-! ## The list object behind `sources` -/

/-- A reference of an asset object denotes a list, unless it is null. -/
def Valid (h : Heap (List String)) (r : Option Ref) : Prop := r.isSome → (h.value r).isSome

/-- The value of the recorded sources, with the null read as empty. -/
def recorded (h : Heap (List String)) (r : Option Ref) : List String := (h.value r).getD []

theorem read_sourcesOrEmpty {h : Heap (List String)} {r : Option Ref} (hv : Valid h r) :
    (sourcesOrEmpty h r).1.read (sourcesOrEmpty h r).2 = some (recorded h r) := by
  cases r with
  | none => simp [sourcesOrEmpty, recorded]
  | some r =>
    obtain ⟨xs, hxs⟩ := Option.isSome_iff_exists.mp (hv rfl)
    simp only [Heap.value_some] at hxs
    by_cases he : xs = []
    · simp [sourcesOrEmpty, recorded, hxs, he]
    · simp [sourcesOrEmpty, recorded, hxs, he]

/-- A recorded list that is not empty is used as it is, not copied. -/
theorem sourcesOrEmpty_of_ne_nil {h : Heap (List String)} {r : Option Ref}
    (hne : recorded h r ≠ []) : ∃ r', r = some r' ∧ sourcesOrEmpty h r = (h, r') := by
  cases r with
  | none => simp [recorded] at hne
  | some r =>
    refine ⟨r, rfl, ?_⟩
    have : h.read r ≠ some [] := by
      intro he
      simp [recorded, he] at hne
    simp [sourcesOrEmpty, this]

/-- An empty or null list is replaced by a new object. -/
theorem sourcesOrEmpty_of_nil {h : Heap (List String)} {r : Option Ref} (hv : Valid h r)
    (he : recorded h r = []) : sourcesOrEmpty h r = (h.alloc [], h.next) := by
  cases r with
  | none => rfl
  | some r =>
    obtain ⟨xs, hxs⟩ := Option.isSome_iff_exists.mp (hv rfl)
    simp only [Heap.value_some] at hxs
    have : xs = [] := by simpa [recorded, hxs] using he
    simp [sourcesOrEmpty, hxs, this]

theorem read_appendSource {h : Heap (List String)} {r : Ref} {xs : List String}
    (hr : h.read r = some xs) (source : String) :
    (appendSource h r source).read r = some (withSource xs source) := by
  unfold appendSource withSource
  by_cases hm : source ∈ xs
  · simp [hr, hm]
  · simp only [hr, Option.getD_some, hm, if_false]
    exact Heap.read_modify_self hr _

theorem read_appendSource_of_ne {h : Heap (List String)} {r r' : Ref} (hne : r ≠ r')
    (source : String) : (appendSource h r source).read r' = h.read r' := by
  unfold appendSource
  split
  · rfl
  · exact Heap.read_modify_of_ne hne _

@[simp] theorem mem_withSource {xs : List String} {s t : String} :
    t ∈ withSource xs s ↔ t ∈ xs ∨ t = s := by
  unfold withSource
  by_cases h : s ∈ xs
  · simp only [h, if_true]
    exact ⟨.inl, fun ht => ht.elim id fun he => he ▸ h⟩
  · simp [h]

/-! ## The lookups -/

theorem bindText_ok {convert : String → Option String} {t v : Option String}
    (h : bindText convert t = .ok v) : v = t.bind convert := by
  cases t with
  | none => simpa [bindText, eq_comm] using h
  | some t =>
    cases hc : convert t with
    | none => simp [bindText, hc] at h
    | some w => simpa [bindText, hc, eq_comm] using h

theorem bindText_error {convert : String → Option String} {t : Option String} {e : DbError}
    (h : bindText convert t = .error e) : e = .dataError := by
  cases t with
  | none => simp [bindText] at h
  | some t =>
    cases hc : convert t with
    | none => simpa [bindText, hc, eq_comm] using h
    | some w => simp [bindText, hc] at h

theorem lookupBy_some {db : Database} {column : Asset → Option String} {value : Option String}
    {a : Asset} (h : lookupBy db column value = .ok (some a)) :
    a ∈ db.assets.rows ∧ column a = value ∧ value.isSome := by
  cases value with
  | none => simp [lookupBy] at h
  | some v =>
    have hrows := scalarOneOrNone_some h
    have ha : a ∈ db.assets.rows.filter fun a => column a = some v := by simp [hrows]
    simpa using ha

theorem lookupBy_none {db : Database} {column : Asset → Option String} {v : String}
    (h : lookupBy db column (some v) = .ok none) : ∀ a ∈ db.assets.rows, column a ≠ some v := by
  have hrows := scalarOneOrNone_none h
  simpa using hrows

/-- How a report reached the asset it was matched to. -/
inductive MatchedBy (A : Addressing) (db : Database) (data : HostData) (a : Asset) : Prop
  | mac (m : String) (hm : bindText A.macaddr data.mac.truthy = .ok (some m))
      (ha : a.mac = some m)
  | ip (m : Option String) (hm : bindText A.macaddr data.mac.truthy = .ok m)
      (hnone : lookupBy db (fun a => a.mac) m = .ok none)
      (v : String) (hv : data.ip.truthy.bind A.ipAddress = some v) (ha : a.ip = some v)
  | name (m : Option String) (hm : bindText A.macaddr data.mac.truthy = .ok m)
      (hnone : lookupBy db (fun a => a.mac) m = .ok none)
      (hnoip : lookupBy db (fun a => a.ip) (data.ip.truthy.bind A.ipAddress) = .ok none)
      (ha : some a.name = lookupName data)

theorem findExisting_some {A : Addressing} {db : Database} {data : HostData} {a : Asset}
    (h : findExisting A db data = .ok (some a)) :
    a ∈ db.assets.rows ∧ MatchedBy A db data a := by
  unfold findExisting at h
  obtain ⟨m, hm, h⟩ := bind_eq_ok.mp h
  obtain ⟨found, hmac, h⟩ := bind_eq_ok.mp h
  cases found with
  | some b =>
    cases h
    obtain ⟨hmem, hcol, hsome⟩ := lookupBy_some hmac
    obtain ⟨v, rfl⟩ := Option.isSome_iff_exists.mp hsome
    exact ⟨hmem, .mac v hm hcol⟩
  | none =>
    obtain ⟨found, hip, h⟩ := bind_eq_ok.mp h
    cases found with
    | some b =>
      cases h
      obtain ⟨hmem, hcol, hsome⟩ := lookupBy_some hip
      obtain ⟨v, hv⟩ := Option.isSome_iff_exists.mp hsome
      exact ⟨hmem, .ip m hm hmac v hv (hcol.trans hv)⟩
    | none =>
      obtain ⟨hmem, hcol, -⟩ := lookupBy_some h
      exact ⟨hmem, .name m hm hmac hip hcol⟩

theorem findExisting_mem {A : Addressing} {db : Database} {data : HostData} {a : Asset}
    (h : findExisting A db data = .ok (some a)) : a ∈ db.assets.rows := (findExisting_some h).1

/-- Without a match none of the three values is held by an asset. -/
theorem findExisting_none {A : Addressing} {db : Database} {data : HostData}
    (h : findExisting A db data = .ok none) :
    ∃ m, bindText A.macaddr data.mac.truthy = .ok m ∧
      lookupBy db (fun a => a.mac) m = .ok none ∧
      lookupBy db (fun a => a.ip) (data.ip.truthy.bind A.ipAddress) = .ok none ∧
      lookupBy db (fun a => some a.name) (lookupName data) = .ok none := by
  unfold findExisting at h
  obtain ⟨m, hm, h⟩ := bind_eq_ok.mp h
  obtain ⟨found, hmac, h⟩ := bind_eq_ok.mp h
  cases found with
  | some b => cases h
  | none =>
    obtain ⟨found, hip, h⟩ := bind_eq_ok.mp h
    cases found with
    | some b => cases h
    | none => exact ⟨m, hm, hmac, hip, h⟩

/-! ## The steps of the session -/

theorem mergeSource_ok {now : Time} {s s' : Session} {asset asset' : AssetObject}
    {source : String} {data : HostData} (hv : Valid s.heap asset.sources.current)
    (h : mergeSource now s asset source data = .ok (s', asset')) :
    ∃ alerts, s'.db = { s.db with alerts := alerts } ∧
      s'.heap = appendSource (sourcesOrEmpty s.heap asset.sources.current).1
        (sourcesOrEmpty s.heap asset.sources.current).2 source ∧
      asset'.toAssetColumns = mergeColumns now asset.toAssetColumns
        (recorded s.heap asset.sources.current) source data ∧
      asset'.loaded = asset.loaded ∧
      asset'.sources =
        ⟨asset.sources.loaded, some (sourcesOrEmpty s.heap asset.sources.current).2⟩ := by
  simp only [mergeSource, read_sourcesOrEmpty hv, Option.getD_some] at h
  obtain ⟨alerts, -, h⟩ := bind_eq_ok.mp h
  cases h
  exact ⟨alerts, rfl, rfl, rfl, rfl, rfl⟩

/-- After a merge the assigned list holds the reporting source as well. -/
theorem mergeSource_recorded {now : Time} {s s' : Session} {asset asset' : AssetObject}
    {source : String} {data : HostData} (hv : Valid s.heap asset.sources.current)
    (h : mergeSource now s asset source data = .ok (s', asset')) :
    s'.heap.value asset'.sources.current =
      some (withSource (recorded s.heap asset.sources.current) source) := by
  obtain ⟨_, _, hheap, _, _, hsrc⟩ := mergeSource_ok hv h
  rw [hsrc, hheap]
  exact read_appendSource (read_sourcesOrEmpty hv) source

theorem loadAsset_spec (h : Heap (List String)) (a : Asset) :
    (loadAsset h a).2.toAssetColumns = a.toAssetColumns ∧
    (loadAsset h a).2.loaded = a.toAssetColumns ∧
    (loadAsset h a).2.sources.loaded = (loadAsset h a).2.sources.current ∧
    (loadAsset h a).1.value (loadAsset h a).2.sources.current = a.sources ∧
    Valid (loadAsset h a).1 (loadAsset h a).2.sources.current := by
  unfold loadAsset
  cases hs : a.sources with
  | none => simp [Valid]
  | some xs => simp [Valid]

theorem recorded_loadAsset (h : Heap (List String)) (a : Asset) :
    recorded (loadAsset h a).1 (loadAsset h a).2.sources.current = a.sourceList := by
  obtain ⟨-, -, -, hvalue, -⟩ := loadAsset_spec h a
  rw [recorded, hvalue]
  rfl

/-- A merge of a loaded asset changes no row, and its columns are those of the row, merged. -/
theorem mergeSource_loaded {now : Time} {h : Heap (List String)} {a : Asset} {db : Database}
    {s' : Session} {asset' : AssetObject} {source : String} {data : HostData}
    (hm : mergeSource now ⟨db, (loadAsset h a).1⟩ (loadAsset h a).2 source data
      = .ok (s', asset')) :
    (∃ alerts, s'.db = { db with alerts := alerts }) ∧
      asset'.toAssetColumns = mergeColumns now a.toAssetColumns a.sourceList source data ∧
      asset'.loaded = a.toAssetColumns := by
  obtain ⟨hcols, hloaded, -, -, hvalid⟩ := loadAsset_spec h a
  obtain ⟨alerts, hdb, -, hmerged, hloaded', -⟩ := mergeSource_ok hvalid hm
  rw [hcols, recorded_loadAsset] at hmerged
  exact ⟨⟨alerts, hdb⟩, hmerged, hloaded'.trans hloaded⟩

/-! ## Replacing a row -/

/-- A source of sufficient priority overwrites. -/
def Overwrites (a : Asset) (source : String) : Prop :=
  existingPriority a.sourceList ≤ reportPriority source

instance (a : Asset) (source : String) : Decidable (Overwrites a source) :=
  inferInstanceAs (Decidable (_ ≤ _))

/-- The text that a report writes into a field of the asset, if it writes it. -/
def writtenText (a : Asset) (r : Report) (f : Field) : Option String :=
  if Overwrites a r.source then (r.data.field f).truthy else none

/-- What an address column holds after the flush of an attribute that may have been
assigned the text `written`. -/
def storedText (convert : String → Option String) (old written : Option String) : Option String :=
  match written with
  | none => old
  | some v => if old = some v then old else convert v

/-- The row `a'` that a report leaves in the place of the row `a`. -/
structure Merged (A : Addressing) (r : Report) (a a' : Asset) : Prop where
  id : a'.id = a.id
  name : some a'.name = (writtenText a r .name).or a.name
  ip : a'.ip = storedText A.inet a.ip (writtenText a r .ip)
  ip_isSome : (writtenText a r .ip).isSome → a'.ip.isSome
  mac : a'.mac = storedText A.macaddr a.mac (writtenText a r .mac)
  mac_isSome : (writtenText a r .mac).isSome → a'.mac.isSome
  sources : a'.sources = if a.sourceList = [] then some [r.source] else a.sources
  isShadow : a'.isShadow = isShadow (withSource a.sourceList r.source)

/-- The row that a report inserts. -/
structure Created (A : Addressing) (r : Report) (a : Asset) : Prop where
  id : a.id = r.uuid
  name : newName r.data = some a.name
  ip : bindText A.inet r.data.ip.get = .ok a.ip
  mac : bindText A.macaddr r.data.mac.get = .ok a.mac
  sources : a.sources = some [r.source]
  isShadow : a.isShadow = isShadow [r.source]

theorem field_mergeColumns (now : Time) (c : AssetColumns) (sources : List String)
    (source : String) (data : HostData) (f : Field) :
    field (mergeColumns now c sources source data) f =
      if existingPriority sources ≤ reportPriority source
      then (data.field f).truthy.or (field c f) else field c f := by
  have hrest : field (mergeColumns now c sources source data) f =
      field (if existingPriority sources ≤ reportPriority source
        then writeFields data c else c) f := by
    cases f <;> rfl
  rw [hrest]
  split
  · exact field_writeFields data c f
  · rfl

/-- A merge keeps the fields that the report does not write. -/
theorem field_merged (a : Asset) (r : Report) (f : Field) :
    field (mergeColumns r.now a.toAssetColumns a.sourceList r.source r.data) f =
      (writtenText a r f).or (field a.toAssetColumns f) := by
  rw [field_mergeColumns, writtenText]
  by_cases ho : existingPriority a.sourceList ≤ reportPriority r.source
  · simp [ho, Overwrites]
  · simp [ho, Overwrites]

@[simp] theorem mergeColumns_id (now : Time) (c : AssetColumns) (sources : List String)
    (source : String) (data : HostData) : (mergeColumns now c sources source data).id = c.id := by
  have hrest : (mergeColumns now c sources source data).id =
      (if existingPriority sources ≤ reportPriority source then writeFields data c else c).id := rfl
  rw [hrest]
  split <;> simp

theorem flushText_ok {convert : String → Option String} {old written v : Option String}
    (h : flushText convert old (written.or old) old = .ok v) :
    v = storedText convert old written ∧ (written.isSome → v.isSome) := by
  unfold flushText at h
  cases written with
  | none =>
    simp only [Option.none_or, if_true, Except.ok.injEq] at h
    simp [storedText, h]
  | some t =>
    by_cases ht : old = some t
    · subst ht
      simp only [Option.some_or, if_true, Except.ok.injEq] at h
      simp [storedText, ← h]
    · simp only [Option.some_or, Ne.symm ht, if_false, bindText] at h
      cases hc : convert t with
      | none => simp [hc] at h
      | some w =>
        simp only [hc, Except.ok.injEq] at h
        simp [storedText, ht, hc, ← h]

/-- The flush of `sources`: a loaded list that is not empty was changed in place and never
reaches the row, a null or empty one is replaced. -/
theorem flush_sources {now : Time} {h : Heap (List String)} {a : Asset} {db : Database}
    {s' : Session} {asset' : AssetObject} {source : String} {data : HostData}
    (hm : mergeSource now ⟨db, (loadAsset h a).1⟩ (loadAsset h a).2 source data
      = .ok (s', asset')) :
    asset'.sources.flush s'.heap a.sources =
      if a.sourceList = [] then some [source] else a.sources := by
  obtain ⟨-, -, hsame, hvalue, hvalid⟩ := loadAsset_spec h a
  have hrec := recorded_loadAsset h a
  obtain ⟨alerts, -, hheap, -, -, hsrc⟩ := mergeSource_ok hvalid hm
  have hcur := mergeSource_recorded hvalid hm
  split
  · rename_i hnil
    have hnew := sourcesOrEmpty_of_nil hvalid (hrec.trans hnil)
    have hintact : s'.heap.value asset'.sources.loaded = a.sources := by
      rw [hheap, hsrc, hnew, hsame]
      dsimp only
      cases hc : (loadAsset h a).2.sources.current with
      | none => rw [← hvalue, hc]; rfl
      | some r =>
        have hread : (loadAsset h a).1.read r = a.sources := by simpa [hc] using hvalue
        obtain ⟨xs, hxs⟩ := Option.isSome_iff_exists.mp (hvalid (by simp [hc]))
        rw [hc, Heap.value_some] at hxs
        have hne : (loadAsset h a).1.next ≠ r := by
          have hlt := (List.getElem?_eq_some_iff.mp hxs).1
          exact Nat.ne_of_gt hlt
        rw [Heap.value_some, read_appendSource_of_ne hne, ← hread, hxs]
        exact Heap.read_alloc_of_read hxs []
    rw [Attribute.flush_of_intact _ hintact, hcur, hrec, hnil]
    rfl
  · rename_i hne
    obtain ⟨r, hr, hsame'⟩ := sourcesOrEmpty_of_ne_nil (hrec ▸ hne)
    refine Attribute.flush_same_object _ ?_ _
    rw [hsrc, hsame', hsame, hr]

/-- The commit after a merge replaces the row of the matched asset. -/
theorem flush_merged {A : Addressing} {r : Report} {a : Asset} {db : Database}
    {s' s'' : Session} {asset' : AssetObject} {h : Heap (List String)} (ha : a ∈ db.assets.rows)
    (hm : mergeSource r.now ⟨db, (loadAsset h a).1⟩ (loadAsset h a).2 r.source r.data
      = .ok (s', asset'))
    (hf : flushAsset A r.now s' asset' = .ok s'') :
    asset'.id = a.id ∧ ∃ a' alerts, Merged A r a a' ∧ a'.lastSeen = r.now ∧
      s''.db = { db with assets := db.assets.put a', alerts := alerts } := by
  have hsources := flush_sources hm
  obtain ⟨⟨alerts, hdb⟩, hmerged, hloaded⟩ := mergeSource_loaded hm
  have hid : asset'.id = a.id := by rw [hmerged]; simp
  have hfield : ∀ f, field asset'.toAssetColumns f =
      (writtenText a r f).or (field a.toAssetColumns f) := by
    intro f
    rw [hmerged, field_merged]
  refine ⟨hid, ?_⟩
  have hfind : s'.db.assets.find asset'.id = some a := by
    rw [hdb, hid]
    exact Table.find_key ha
  have hip : asset'.ip = (writtenText a r .ip).or a.ip := hfield .ip
  have hmac : asset'.mac = (writtenText a r .mac).or a.mac := hfield .mac
  have hlip : asset'.loaded.ip = a.ip := by rw [hloaded]
  have hlmac : asset'.loaded.mac = a.mac := by rw [hloaded]
  simp only [flushAsset, hfind, hip, hmac, hlip, hlmac] at hf
  obtain ⟨ip, hbip, hf⟩ := bind_eq_ok.mp hf
  obtain ⟨mac, hbmac, hf⟩ := bind_eq_ok.mp hf
  cases hf
  obtain ⟨rfl, hipsome⟩ := flushText_ok hbip
  obtain ⟨rfl, hmacsome⟩ := flushText_ok hbmac
  refine ⟨_, alerts, ?_, ?_, by rw [hdb]⟩
  · rw [flushUpdate_eq]
    exact ⟨hid, by simpa [field] using hfield .name, rfl, hipsome, rfl, hmacsome, hsources,
      by simp [hmerged, mergeColumns]⟩
  · have hlast : asset'.lastSeen = r.now := by rw [hmerged]; rfl
    unfold flushUpdate
    split
    · rename_i he
      rw [← he]
      exact hlast
    · dsimp only
      split
      · rfl
      · exact hlast

/-! ## Inserting a row -/

theorem createFromSource_ok {A : Addressing} {now : Time} {uuid : ℕ} {s s' : Session}
    {source : String} {data : HostData} {asset : AssetObject}
    (h : createFromSource A now uuid s source data = .ok (s', asset)) :
    ∃ a alerts, Created A ⟨source, data, now, uuid⟩ a ∧ a.lastSeen = now ∧
      s.db.assets.insert? a = some s'.db.assets ∧
      s'.db = { s.db with assets := s'.db.assets, alerts := alerts } ∧
      s'.heap = s.heap.alloc [source] ∧
      asset = { a.toAssetColumns with
        ip := data.ip.get
        mac := data.mac.get
        loaded := { a.toAssetColumns with ip := data.ip.get, mac := data.mac.get }
        sources := ⟨some s.heap.next, some s.heap.next⟩ } := by
  unfold createFromSource at h
  split at h
  · rename_i name type hname htype
    dsimp only [newColumns] at h
    obtain ⟨ip, hip, h⟩ := bind_eq_ok.mp h
    obtain ⟨mac, hmac, h⟩ := bind_eq_ok.mp h
    split at h
    · cases h
    · rename_i assets hins
      obtain ⟨alerts, -, h⟩ := bind_eq_ok.mp h
      cases h
      exact ⟨_, alerts, ⟨rfl, hname, hip, hmac, rfl, rfl⟩, rfl, hins, rfl, rfl, rfl⟩
  · cases h

/-- The list of a created object holds the reporting source. -/
theorem createFromSource_sources {A : Addressing} {now : Time} {uuid : ℕ} {s s' : Session}
    {source : String} {data : HostData} {asset : AssetObject}
    (h : createFromSource A now uuid s source data = .ok (s', asset)) :
    s'.heap.value asset.sources.current = some [source] := by
  obtain ⟨a, alerts, -, -, -, -, hheap, rfl⟩ := createFromSource_ok h
  simp [hheap]

/-- The commit after a creation finds nothing more to write. -/
theorem flush_created {A : Addressing} {r : Report} {a : Asset} {s' s'' : Session}
    {asset : AssetObject} {ref : Option Ref} (ha : a ∈ s'.db.assets.rows)
    (hasset : asset = { a.toAssetColumns with
      ip := r.data.ip.get
      mac := r.data.mac.get
      loaded := { a.toAssetColumns with ip := r.data.ip.get, mac := r.data.mac.get }
      sources := ⟨ref, ref⟩ })
    (hf : flushAsset A r.now s' asset = .ok s'') : s''.db = s'.db := by
  subst hasset
  have hfind : s'.db.assets.find a.id = some a := Table.find_key ha
  simp only [flushAsset, hfind, flushText, if_true, ok_bind, pure_eq_ok,
    Attribute.flush_same_object, Except.ok.injEq] at hf
  have hself : (⟨a.toAssetColumns, a.sources⟩ : Asset) = a := rfl
  subst hf
  simp only [hself, flushUpdate_self, Table.put_self ha]

/-- What a committed report did: it replaced the row of the matched asset or inserted one. -/
theorem reconcileAndCommit_cases {A : Addressing} {db db' : Database} {r : Report} {i : ℕ}
    (h : reconcileAndCommit A db r = .ok (db', i)) :
    (∃ a a', findExisting A db r.data = .ok (some a) ∧ a ∈ db.assets.rows ∧ Merged A r a a' ∧
      a'.lastSeen = r.now ∧ db'.assets = db.assets.put a' ∧ i = a.id) ∨
    (∃ a, findExisting A db r.data = .ok none ∧ Created A r a ∧ a.lastSeen = r.now ∧
      db.assets.insert? a = some db'.assets ∧ i = a.id) := by
  unfold reconcileAndCommit reconcileHost at h
  obtain ⟨⟨s', asset'⟩, hhost, h⟩ := bind_eq_ok.mp h
  obtain ⟨s'', hf, h⟩ := bind_eq_ok.mp h
  cases h
  obtain ⟨found, hfind, hhost⟩ := bind_eq_ok.mp hhost
  cases found with
  | some a =>
    left
    have ha := findExisting_mem hfind
    obtain ⟨hid, a', alerts, hmerged, hlast, hdb⟩ := flush_merged ha hhost hf
    exact ⟨a, a', hfind, ha, hmerged, hlast, by rw [hdb], hid⟩
  | none =>
    right
    obtain ⟨a, alerts, hcreated, hlast, hins, -, -, hasset⟩ := createFromSource_ok hhost
    have ha : a ∈ s'.db.assets.rows := (Table.mem_insert? hins).mpr (.inr rfl)
    have hdb := flush_created ha hasset hf
    exact ⟨a, hfind, hcreated, hlast, by rw [hdb]; exact hins, by rw [hasset]⟩

/-- The row that a report leaves in its asset, the matched one or a new one. -/
def Outcome (A : Addressing) (r : Report) : Option Asset → Asset → Prop
  | some a, a' => Merged A r a a'
  | none, a' => Created A r a'

/-- A committed report leaves `a'` in its asset and every other row as it was. -/
structure Committed (A : Addressing) (db : Database) (r : Report) (db' : Database)
    (found : Option Asset) (a' : Asset) : Prop where
  found_eq : findExisting A db r.data = .ok found
  outcome : Outcome A r found a'
  mem_rows : ∀ x, x ∈ db'.assets.rows ↔ x = a' ∨ x ∈ db.assets.rows ∧ found ≠ some x
  other_id : ∀ x ∈ db.assets.rows, found ≠ some x → x.id ≠ a'.id

theorem reconcileAndCommit_ok {A : Addressing} {db db' : Database} {r : Report} {i : ℕ}
    (h : reconcileAndCommit A db r = .ok (db', i)) :
    ∃ found a', Committed A db r db' found a' ∧ i = a'.id := by
  rcases reconcileAndCommit_cases h with ⟨a, a', hfind, ha, hm, -, hdb, rfl⟩ |
    ⟨a, hfind, hcr, -, hins, rfl⟩
  · have hother : ∀ x ∈ db.assets.rows, some a ≠ some x → x.id ≠ a'.id := by
      intro x hx hne he
      exact hne (congrArg some (Table.eq_of_key ha hx (hm.id.symm.trans he.symm)))
    refine ⟨some a, a', ⟨hfind, hm, fun x => ?_, hother⟩, hm.id.symm⟩
    rw [hdb, Table.mem_put]
    constructor
    · rintro (⟨rfl, -⟩ | ⟨hx, hne⟩)
      · exact .inl rfl
      · refine .inr ⟨hx, fun he => hne ?_⟩
        cases he
        exact hm.id.symm
    · rintro (rfl | ⟨hx, hne⟩)
      · exact .inl ⟨rfl, a, ha, hm.id.symm⟩
      · exact .inr ⟨hx, hother x hx hne⟩
  · refine ⟨none, a, ⟨hfind, hcr, fun x => ?_, fun x hx _ => ?_⟩, rfl⟩
    · rw [Table.mem_insert? hins, or_comm]
      simp
    · exact Table.find_eq_none.mp (Table.insert?_eq_some hins).2 x hx

theorem handle_of_ok {A : Addressing} {db db' : Database} {r : Report} {i : ℕ}
    (h : reconcileAndCommit A db r = .ok (db', i)) : handle A db r = db' := by
  simp [handle, h]

theorem handle_of_error {A : Addressing} {db : Database} {r : Report} {e : DbError}
    (h : reconcileAndCommit A db r = .error e) : handle A db r = db := by
  simp [handle, h]

end Kepryx.ReportHandling
