import Mathlib.Data.Finset.Dedup
import Kepryx.ReportOrder
import Kepryx.ReportRows

/-!
# A report that arrives twice

The first time a report creates an asset or is merged into one, and it may change the very
identifiers by which it was matched. What it leaves is settled: the same report is matched to
the same asset again, finds every field as it would write it, and raises nothing.
-/
namespace Kepryx.RepeatedReports
open Kepryx.Models Kepryx.Results Kepryx.Tables Kepryx.Reconciler
open Kepryx.ReportHandling Kepryx.ReportRows

/-! ## What is compared -/

/-- An asset without `last_seen` and `attrs`, with its lists taken as sets. -/
def essence (a : Asset) : Asset × Finset String × Finset String × Finset String :=
  ({ a with
      lastSeen := 0
      attrs := none
      softwareStack := none
      cpe := none
      dependencies := none },
    (a.softwareStack.getD []).toFinset, (a.cpe.getD []).toFinset,
    (a.dependencies.getD []).toFinset)

/-- The report carries a MAC, an IP that is an address, or a name. -/
def Identified (A : Addressing) (data : HostData) : Prop :=
  data.mac.truthy.isSome ∨ (data.ip.truthy.bind A.ipAddress).isSome ∨ (lookupName data).isSome

/-- PostgreSQL stores what `ip_address` accepts, as the same address. -/
def InetAccepts (A : Addressing) : Prop := ∀ t v, A.ipAddress t = some v → A.inet t = some v

/-- A row that a report of this source with this data leaves as it is. -/
structure Settled (A : Addressing) (source : String) (data : HostData) (a : Asset) : Prop where
  drift : ∀ now alerts, driftAlert now alerts a.toAssetColumns data = .ok alerts
  ip : ∀ now uuid, boundText A.inet a ⟨source, data, now, uuid⟩ .ip a.ip = .ok a.ip
  mac : ∀ now uuid, boundText A.macaddr a ⟨source, data, now, uuid⟩ .mac a.mac = .ok a.mac
  row : ∀ now uuid, essence (mergedRow ⟨source, data, now, uuid⟩ a a.ip a.mac) = essence a

/-! ## The parts of a merge that a second one repeats -/

theorem flushText_again {convert : String → Option String} {old w v : Option String}
    (h : flushText convert old (w.or old) old = .ok v) :
    flushText convert v (w.or v) v = .ok v := by
  cases w with
  | none => simp [flushText]
  | some t =>
    have hv : v = some t ∨ bindText convert (some t) = .ok v := by
      unfold flushText at h
      split at h
      · rename_i he
        cases h
        exact .inl he.symm
      · exact .inr h
    unfold flushText
    split
    · rfl
    · rename_i hne
      rcases hv with rfl | hv
      · exact absurd rfl hne
      · exact hv

/-- An address column that was bound on creation is bound to the same value again. -/
theorem flushText_bound {convert : String → Option String} {e : Entry String} {v : Option String}
    (h : bindText convert e.get = .ok v) : flushText convert v (e.truthy.or v) v = .ok v := by
  cases ht : e.truthy with
  | none => simp [flushText]
  | some t =>
    obtain ⟨rfl, -⟩ := Entry.truthy_eq_some.mp ht
    unfold flushText
    split
    · rfl
    · exact h

theorem setField_self {c : AssetColumns} {f : Field} {v : String} (h : field c f = some v) :
    setField c f v = c := by
  cases f <;> simp only [field, Option.some.injEq] at h <;> simp only [setField, ← h]

theorem field_of_ne {c : AssetColumns} {f : Field} (ip mac : Option String) (hip : f ≠ .ip)
    (hmac : f ≠ .mac) : field { c with ip := ip, mac := mac } f = field c f := by
  cases f with
  | ip => exact absurd rfl hip
  | mac => exact absurd rfl hmac
  | _ => rfl

/-- The loop over the authoritative fields changes at most the addresses of columns that hold
every other reported text. -/
theorem writeFields_settled {d : HostData} {c : AssetColumns}
    (h : ∀ f, f ≠ .ip → f ≠ .mac → ∀ v, (d.field f).truthy = some v → field c f = some v) :
    ∃ ip mac, writeFields d c = { c with ip := ip, mac := mac } := by
  refine List.foldlRecOn authoritativeFields
    (motive := fun b : AssetColumns => ∃ ip mac, b = { c with ip := ip, mac := mac })
    _ ⟨c.ip, c.mac, rfl⟩ ?_
  rintro _ ⟨ip, mac, rfl⟩ f _
  unfold writeField
  cases hv : (d.field f).truthy with
  | none => exact ⟨ip, mac, rfl⟩
  | some v =>
    by_cases hip : f = .ip
    · subst hip
      exact ⟨some v, mac, rfl⟩
    · by_cases hmac : f = .mac
      · subst hmac
        exact ⟨ip, some v, rfl⟩
      · have hf := h f hip hmac v hv
        rw [← field_of_ne ip mac hip hmac] at hf
        exact ⟨ip, mac, setField_self hf⟩

/-- A reported list that is already contained changes nothing, as a set. -/
theorem toFinset_enrichList {old : Option (List String)} {new : Entry (List String)}
    (h : ∀ x ∈ new.get.getD [], x ∈ old.getD []) :
    ((enrichList old new).getD []).toFinset = (old.getD []).toFinset := by
  unfold enrichList
  split
  · rfl
  · rfl
  · rename_i x xs hnew
    rw [hnew, Option.getD_some] at h
    ext y
    simp only [Option.getD_some, List.mem_toFinset, List.mem_dedup, List.mem_append]
    exact ⟨fun hy => hy.elim id (h y), .inl⟩

theorem subset_enrichList {old : Option (List String)} {new : Entry (List String)} :
    ∀ x ∈ new.get.getD [], x ∈ (enrichList old new).getD [] := by
  intro x hx
  unfold enrichList
  split
  · rename_i hnew
    simp [hnew] at hx
  · rename_i hnew
    simp [hnew] at hx
  · rename_i y ys hnew
    rw [hnew, Option.getD_some] at hx
    simp only [Option.getD_some, List.mem_dedup, List.mem_append]
    exact .inr hx

/-- The rest of a settled row: every reported text is in its field if the source overwrites, the
reported lists are contained, and the flags are those of the recorded sources. -/
theorem essence_mergedRow {a : Asset} {r : Report}
    (hfields : Overwrites a r.source → ∀ f, f ≠ .ip → f ≠ .mac → ∀ v,
      (r.data.field f).truthy = some v → field a.toAssetColumns f = some v)
    (hstack : ∀ x ∈ r.data.softwareStack.get.getD [], x ∈ a.softwareStack.getD [])
    (hcpe : ∀ x ∈ r.data.cpe.get.getD [], x ∈ a.cpe.getD [])
    (hdeps : ∀ x ∈ r.data.dependencies.get.getD [], x ∈ a.dependencies.getD [])
    (hstale : a.isStale = false)
    (hshadow : isShadow (withSource a.sourceList r.source) = a.isShadow)
    (hsources : a.sourceList ≠ []) :
    essence (mergedRow r a a.ip a.mac) = essence a := by
  obtain ⟨ip, mac, hc⟩ : ∃ ip mac, (if existingPriority a.sourceList ≤ reportPriority r.source
      then writeFields r.data a.toAssetColumns else a.toAssetColumns) =
        { a.toAssetColumns with ip := ip, mac := mac } := by
    split
    · rename_i ho
      exact writeFields_settled (hfields ho)
    · exact ⟨a.ip, a.mac, rfl⟩
  simp only [essence, mergedRow, mergeColumns, hc, toFinset_enrichList hstack,
    toFinset_enrichList hcpe, toFinset_enrichList hdeps, hshadow, if_neg hsources, ← hstale]

theorem sameSet_self (xs : List (Option String)) : sameSet xs xs = true := by
  simp [sameSet]

/-! ## What either path leaves -/

theorem sourceList_mergedRow (r : Report) (a : Asset) (ip mac : Option String) :
    (mergedRow r a ip mac).sourceList =
      if a.sourceList = [] then [r.source] else a.sourceList := by
  unfold mergedRow Asset.sourceList
  split <;> rfl

/-- A source overwrites what it recorded itself. -/
theorem overwrites_own {a : Asset} {s : String} (h : a.sourceList = [s]) : Overwrites a s := by
  unfold Overwrites
  rw [h, SourcePriority.existingPriority_le]
  intro t ht
  rw [List.mem_singleton.mp ht]
  exact ReportOrder.recordedPriority_le s

/-- Recording a source does not change whether it overwrites. -/
theorem overwrites_mergedRow {r r' : Report} {a : Asset} (hsource : r'.source = r.source)
    (ip mac : Option String) :
    Overwrites (mergedRow r a ip mac) r'.source ↔ Overwrites a r.source := by
  rw [hsource]
  by_cases hnil : a.sourceList = []
  · have hown : (mergedRow r a ip mac).sourceList = [r.source] := by
      rw [sourceList_mergedRow, if_pos hnil]
    have hfirst : Overwrites a r.source := by
      unfold Overwrites
      rw [hnil]
      exact Nat.zero_le _
    simp only [overwrites_own hown, hfirst]
  · unfold Overwrites
    rw [sourceList_mergedRow, if_neg hnil]

theorem drift_settled {c : AssetColumns} {data : HostData}
    (h : serviceNames (c.attrs.getD {}).services = [] ∨
      serviceNames (c.attrs.getD {}).services = serviceNames data.services)
    (now : Time) (alerts : List Alert) : driftAlert now alerts c data = .ok alerts := by
  unfold driftAlert
  rw [if_neg]
  rintro ⟨hold, -, hne⟩
  rcases h with h | h
  · exact hold h
  · rw [h, sameSet_self] at hne
    cases hne

/-- What a merge leaves is settled. -/
theorem settled_merged {A : Addressing} {r : Report} {a : Asset} {ip mac : Option String}
    (hip : boundText A.inet a r .ip a.ip = .ok ip)
    (hmac : boundText A.macaddr a r .mac a.mac = .ok mac) :
    Settled A r.source r.data (mergedRow r a ip mac) := by
  have hwritten : ∀ now uuid f, writtenText (mergedRow r a ip mac)
      ⟨r.source, r.data, now, uuid⟩ f = writtenText a r f := by
    intro now uuid f
    have hsame : (⟨r.source, r.data, now, uuid⟩ : Report).source = r.source := rfl
    unfold writtenText
    rw [if_congr (overwrites_mergedRow hsame ip mac) rfl rfl]
  refine ⟨?_, ?_, ?_, ?_⟩
  · refine drift_settled (.inr ?_)
    simp only [mergedRow, mergeColumns, Option.getD_some]
    cases r.data.services <;> rfl
  · intro now uuid
    unfold boundText
    rw [hwritten]
    exact flushText_again hip
  · intro now uuid
    unfold boundText
    rw [hwritten]
    exact flushText_again hmac
  · intro now uuid
    refine essence_mergedRow ?_ subset_enrichList subset_enrichList subset_enrichList rfl ?_ ?_
    · intro ho f hnip hnmac v hv
      have hsame : (⟨r.source, r.data, now, uuid⟩ : Report).source = r.source := rfl
      have ho' : existingPriority a.sourceList ≤ reportPriority r.source :=
        (overwrites_mergedRow hsame ip mac).mp ho
      have hrow : field (mergedRow r a ip mac).toAssetColumns f =
          field (mergeColumns r.now a.toAssetColumns a.sourceList r.source r.data) f := by
        exact field_of_ne ip mac hnip hnmac
      rw [hrow, field_mergeColumns, if_pos ho', hv, Option.some_or]
    · rw [sourceList_mergedRow]
      have hflag : (mergedRow r a ip mac).isShadow =
          isShadow (withSource a.sourceList r.source) := rfl
      rw [hflag]
      split
      · rename_i hnil
        simp [hnil, withSource]
      · rfl
    · rw [sourceList_mergedRow]
      split
      · exact List.cons_ne_nil _ _
      · assumption

/-- What a creation leaves is settled. -/
theorem settled_created {A : Addressing} {r : Report} {name type : String}
    {ip mac : Option String} (hname : newName r.data = some name)
    (hip : bindText A.inet r.data.ip.get = .ok ip)
    (hmac : bindText A.macaddr r.data.mac.get = .ok mac) :
    Settled A r.source r.data (createdRow r name type ip mac) := by
  have hwritten : ∀ now uuid f, writtenText (createdRow r name type ip mac)
      ⟨r.source, r.data, now, uuid⟩ f = (r.data.field f).truthy := by
    intro now uuid f
    exact if_pos (overwrites_own rfl)
  have hlist : ∀ e : Entry (List String), ∀ x ∈ e.get.getD [], x ∈ (e.getD []).getD [] := by
    intro e
    cases e <;> simp [Entry.get, Entry.getD]
  refine ⟨drift_settled (.inl rfl), ?_, ?_, ?_⟩
  · intro now uuid
    unfold boundText
    rw [hwritten]
    exact flushText_bound hip
  · intro now uuid
    unfold boundText
    rw [hwritten]
    exact flushText_bound hmac
  · intro now uuid
    refine essence_mergedRow ?_ (hlist _) (hlist _) (hlist _) rfl ?_ (List.cons_ne_nil _ _)
    · intro _ f hnip hnmac v hv
      have hv' := (Entry.truthy_eq_some.mp hv).1
      cases f with
      | ip => exact absurd rfl hnip
      | mac => exact absurd rfl hnmac
      | name =>
        have hv'' : r.data.name.truthy = some v := hv
        unfold newName at hname
        rw [hv'', Option.some_or] at hname
        exact hname.symm
      | os =>
        have hv'' : r.data.os.truthy = some v := hv
        simp [createdRow, field, newColumns, hv'']
      | segment | edrStatus | controlCoverage | networkExposure | authMethod | criticality
        | dataClassification =>
        simp only [HostData.field] at hv'
        simp [createdRow, field, newColumns, hv', Entry.getD]
    · have hlist' : (createdRow r name type ip mac).sourceList = [r.source] := rfl
      simp only [hlist', withSource, List.mem_singleton, if_true]
      rfl

/-! ## The lookups of the second time -/

/-- The asset holds the value that a lookup compares. -/
def Held (column : Asset → Option String) (value : Option String) (a : Asset) : Prop :=
  value.isSome ∧ column a = value

/-- No other asset holds the value. -/
def OnlyHolder (db : Database) (column : Asset → Option String) (value : Option String)
    (a : Asset) : Prop := ∀ b ∈ db.assets.rows, Held column value b → b = a

theorem lookupBy_held {db : Database} {column : Asset → Option String} {value : Option String}
    {a : Asset} (ha : a ∈ db.assets.rows) (honly : OnlyHolder db column value a)
    (hheld : Held column value a) : lookupBy db column value = .ok (some a) := by
  obtain ⟨hsome, hcol⟩ := hheld
  obtain ⟨v, rfl⟩ := Option.isSome_iff_exists.mp hsome
  have hfilter : db.assets.rows.filter (fun b => column b = some v) = [a] := by
    refine Table.filter_eq_singleton ha (by simpa using hcol) fun b hb hbv => ?_
    exact honly b hb ⟨rfl, by simpa using hbv⟩
  simp [lookupBy, hfilter, scalarOneOrNone]

theorem lookupBy_not_held {db : Database} {column : Asset → Option String}
    {value : Option String} {a : Asset} (honly : OnlyHolder db column value a)
    (hheld : ¬ Held column value a) : lookupBy db column value = .ok none := by
  cases value with
  | none => rfl
  | some v =>
    have hfilter : db.assets.rows.filter (fun b => column b = some v) = [] := by
      rw [List.filter_eq_nil_iff]
      intro b hb hbv
      have hbheld : Held column (some v) b := ⟨rfl, by simpa using hbv⟩
      exact hheld (honly b hb hbheld ▸ hbheld)
    simp [lookupBy, hfilter, scalarOneOrNone]

/-- The lookups end at an asset if the first of its identifiers that they compare is its own
and no earlier one is held by another asset. -/
theorem findExisting_held {A : Addressing} {db : Database} {data : HostData} {a : Asset}
    {m : Option String} (hm : bindText A.macaddr data.mac.truthy = .ok m)
    (ha : a ∈ db.assets.rows) (hmac : OnlyHolder db (fun a => a.mac) m a)
    (hrest : Held (fun a => a.mac) m a ∨
      OnlyHolder db (fun a => a.ip) (data.ip.truthy.bind A.ipAddress) a ∧
        (Held (fun a => a.ip) (data.ip.truthy.bind A.ipAddress) a ∨
          OnlyHolder db (fun a => some a.name) (lookupName data) a ∧
            Held (fun a => some a.name) (lookupName data) a)) :
    findExisting A db data = .ok (some a) := by
  unfold findExisting
  rw [hm, ok_bind]
  by_cases hmheld : Held (fun a => a.mac) m a
  · rw [lookupBy_held ha hmac hmheld]
    rfl
  · rw [lookupBy_not_held hmac hmheld, ok_bind]
    dsimp only
    obtain ⟨hip, hrest⟩ := hrest.resolve_left hmheld
    by_cases hipheld : Held (fun a => a.ip) (data.ip.truthy.bind A.ipAddress) a
    · rw [lookupBy_held ha hip hipheld]
      rfl
    · rw [lookupBy_not_held hip hipheld, ok_bind]
      dsimp only
      obtain ⟨hname, hheld⟩ := hrest.resolve_left hipheld
      exact lookupBy_held ha hname hheld

/-- A value that no asset held before the report is held by its asset at most. -/
theorem onlyHolder_of_none {A : Addressing} {db db' : Database} {r : Report}
    {found : Option Asset} {a' : Asset} (hcom : Committed A db r db' found a')
    {column : Asset → Option String} {value : Option String}
    (h : lookupBy db column value = .ok none) : OnlyHolder db' column value a' := by
  rintro b hb ⟨hsome, hcol⟩
  obtain ⟨v, rfl⟩ := Option.isSome_iff_exists.mp hsome
  rcases (hcom.mem_rows b).mp hb with rfl | ⟨hb, -⟩
  · rfl
  · exact absurd hcol (lookupBy_none h b hb)

/-- So is a value that only the matched asset held. -/
theorem onlyHolder_of_some {A : Addressing} {db db' : Database} {r : Report} {a a' : Asset}
    (hcom : Committed A db r db' (some a) a') {column : Asset → Option String}
    {value : Option String} (h : lookupBy db column value = .ok (some a)) :
    OnlyHolder db' column value a' := by
  rintro b hb ⟨hsome, hcol⟩
  obtain ⟨v, rfl⟩ := Option.isSome_iff_exists.mp hsome
  rcases (hcom.mem_rows b).mp hb with rfl | ⟨hb, hne⟩
  · rfl
  · have hrows := scalarOneOrNone_some h
    have hmem : b ∈ db.assets.rows.filter (fun a => column a = some v) :=
      List.mem_filter.mpr ⟨hb, by simpa using hcol⟩
    rw [hrows, List.mem_singleton] at hmem
    exact absurd (congrArg some hmem.symm) hne

/-- An address column keeps the value that the report was matched by, whether the report
writes it or not. -/
theorem storedText_held {convert : String → Option String} {e : Entry String}
    {old w : Option String} {v : String} (hw : w = none ∨ w = e.truthy) (hold : old = some v)
    (hconvert : e.truthy.bind convert = some v) : storedText convert old w = some v := by
  unfold storedText
  cases ht : w with
  | none => exact hold
  | some t =>
    dsimp only
    split
    · exact hold
    · have htruthy : e.truthy = some t := by
        rcases hw with hw | hw
        · rw [hw] at ht
          cases ht
        · exact hw.symm.trans ht
      rwa [htruthy, Option.bind_some] at hconvert

theorem writtenText_cases (a : Asset) (r : Report) (f : Field) :
    writtenText a r f = none ∨ writtenText a r f = (r.data.field f).truthy := by
  unfold writtenText
  split
  · exact .inr rfl
  · exact .inl rfl

/-- What `inet` binds an address to. -/
theorem bind_inet {A : Addressing} (hA : InetAccepts A) {t : Option String} {v : String}
    (h : t.bind A.ipAddress = some v) : t.bind A.inet = some v := by
  obtain ⟨s, rfl, hs⟩ := Option.bind_eq_some_iff.mp h
  exact hA s v hs

/-- A report that created an asset is matched to it the next time. -/
theorem findExisting_created {A : Addressing} (hA : InetAccepts A) {db db' : Database} {r : Report}
    {a' : Asset} (hcom : Committed A db r db' none a') (hid : Identified A r.data) :
    findExisting A db' r.data = .ok (some a') := by
  have ha' : a' ∈ db'.assets.rows := (hcom.mem_rows a').mpr (.inl rfl)
  obtain ⟨m, hm, hmac, hip, hname⟩ := findExisting_none hcom.found_eq
  have hcr : Created A r a' := hcom.outcome
  have hmacs : a'.mac = r.data.mac.get.bind A.macaddr := bindText_ok hcr.mac
  have hips : a'.ip = r.data.ip.get.bind A.inet := bindText_ok hcr.ip
  have hmv : m = r.data.mac.truthy.bind A.macaddr := bindText_ok hm
  refine findExisting_held hm ha' (onlyHolder_of_none hcom hmac) ?_
  cases hmt : r.data.mac.truthy with
  | some t =>
    left
    obtain ⟨hget, -⟩ := Entry.truthy_eq_some.mp hmt
    rw [hget] at hmacs
    rw [hmt] at hmv hm
    have hsome : m.isSome := by
      cases hv : A.macaddr t with
      | none => simp [bindText, hv] at hm
      | some v => simp [hmv, hv]
    exact ⟨hsome, hmacs.trans hmv.symm⟩
  | none =>
    refine .inr ⟨onlyHolder_of_none hcom hip, ?_⟩
    cases hiv : r.data.ip.truthy.bind A.ipAddress with
    | some v =>
      left
      obtain ⟨t, ht, hv⟩ := Option.bind_eq_some_iff.mp hiv
      obtain ⟨hget, -⟩ := Entry.truthy_eq_some.mp ht
      rw [hget] at hips
      exact ⟨rfl, hips.trans (hA t v hv)⟩
    | none =>
      refine .inr ⟨onlyHolder_of_none hcom hname, ?_⟩
      have hsome : (lookupName r.data).isSome := by
        rcases hid with h | h | h
        · simp [hmt] at h
        · simp [hiv] at h
        · exact h
      obtain ⟨n, hn⟩ := Option.isSome_iff_exists.mp hsome
      refine ⟨hsome, ?_⟩
      have hnew := hcr.name
      unfold newName at hnew
      rw [← Option.or_assoc] at hnew
      unfold lookupName at hn ⊢
      rw [hn, Option.some_or] at hnew
      rw [hn]
      exact hnew.symm

/-- A report that was merged into an asset is matched to it the next time. -/
theorem findExisting_merged {A : Addressing} (hA : InetAccepts A) {db db' : Database} {r : Report}
    {a a' : Asset} (hcom : Committed A db r db' (some a) a') :
    findExisting A db' r.data = .ok (some a') := by
  have ha' : a' ∈ db'.assets.rows := (hcom.mem_rows a').mpr (.inl rfl)
  have hfound := hcom.found_eq
  have hmer : Merged A r a a' := hcom.outcome
  have hmacw := writtenText_cases a r .mac
  have hipw := writtenText_cases a r .ip
  unfold findExisting at hfound
  obtain ⟨m, hm, hfound⟩ := bind_eq_ok.mp hfound
  obtain ⟨bymac, hmac, hfound⟩ := bind_eq_ok.mp hfound
  have hmv : m = r.data.mac.truthy.bind A.macaddr := bindText_ok hm
  cases bymac with
  | some b =>
    cases hfound
    obtain ⟨-, hcol, hsome⟩ := lookupBy_some hmac
    obtain ⟨v, rfl⟩ := Option.isSome_iff_exists.mp hsome
    refine findExisting_held hm ha' (onlyHolder_of_some hcom hmac) (.inl ⟨rfl, ?_⟩)
    exact hmer.mac.trans (storedText_held hmacw hcol hmv.symm)
  | none =>
    refine findExisting_held hm ha' (onlyHolder_of_none hcom hmac) (.inr ?_)
    obtain ⟨byip, hip, hfound⟩ := bind_eq_ok.mp hfound
    cases byip with
    | some b =>
      cases hfound
      obtain ⟨-, hcol, hsome⟩ := lookupBy_some hip
      obtain ⟨v, hv⟩ := Option.isSome_iff_exists.mp hsome
      refine ⟨onlyHolder_of_some hcom hip, .inl ⟨hsome, ?_⟩⟩
      have hstored : a'.ip = some v :=
        hmer.ip.trans (storedText_held hipw (hcol.trans hv) (bind_inet hA hv))
      exact hstored.trans hv.symm
    | none =>
      obtain ⟨-, hcol, hsome⟩ := lookupBy_some hfound
      refine ⟨onlyHolder_of_none hcom hip, .inr ⟨onlyHolder_of_some hcom hfound, hsome, ?_⟩⟩
      show some a'.name = lookupName r.data
      rw [hmer.name]
      rcases writtenText_cases a r .name with hw | hw
      · rw [hw, Option.none_or, hcol]
      · cases hn : r.data.name.truthy with
        | none => rw [hw, show (r.data.field .name).truthy = none from hn, Option.none_or, hcol]
        | some n =>
          rw [hw, show (r.data.field .name).truthy = some n from hn]
          simp [lookupName, hn]

/-- The same report is matched to the asset that it left. -/
theorem findExisting_again {A : Addressing} (hA : InetAccepts A) {db db' : Database} {r : Report}
    {found : Option Asset} {a' : Asset} (hcom : Committed A db r db' found a')
    (hid : Identified A r.data) : findExisting A db' r.data = .ok (some a') := by
  cases found with
  | none => exact findExisting_created hA hcom hid
  | some a => exact findExisting_merged hA hcom

/-! ## The second time -/

/-- The row that a committed report leaves is settled. -/
theorem settled_of_committed {A : Addressing} {db db' : Database} {r : Report} {i : ℕ}
    (h : reconcileAndCommit A db r = .ok (db', i)) :
    ∃ found a', Committed A db r db' found a' ∧ i = a'.id ∧ Settled A r.source r.data a' := by
  obtain ⟨found, a', hcom, hi⟩ := reconcileAndCommit_ok h
  refine ⟨found, a', hcom, hi, ?_⟩
  have ha' : a' ∈ db'.assets.rows := (hcom.mem_rows a').mpr (.inl rfl)
  cases found with
  | some a =>
    have ha : a ∈ db.assets.rows := findExisting_mem hcom.found_eq
    rw [reconcileAndCommit_merge hcom.found_eq] at h
    obtain ⟨alerts, -, h⟩ := bind_eq_ok.mp h
    obtain ⟨ip, hip, h⟩ := bind_eq_ok.mp h
    obtain ⟨mac, hmac, h⟩ := bind_eq_ok.mp h
    cases h
    have hrow : a' = mergedRow r a ip mac := by
      have hput : mergedRow r a ip mac ∈ (db.assets.put (mergedRow r a ip mac)).rows :=
        Table.mem_put.mpr (.inl ⟨rfl, a, ha, (mergedRow_id r a ip mac).symm⟩)
      exact Table.eq_of_key ha' hput (hi.symm.trans (mergedRow_id r a ip mac).symm)
    rw [hrow]
    exact settled_merged hip hmac
  | none =>
    obtain ⟨name, type, ip, mac, hname, hip, hmac, hins, hid⟩ :=
      reconcileAndCommit_create hcom.found_eq h
    have hrow : a' = createdRow r name type ip mac :=
      Table.eq_of_key ha' ((Table.mem_insert? hins).mpr (.inr rfl)) (hi.symm.trans hid)
    rw [hrow]
    exact settled_created hname hip hmac

/-- A report that arrives again, at any time, is matched to the asset that it left, raises
nothing, inserts nothing, and leaves of every asset all but `last_seen` and `attrs` as it was. -/
theorem report_repeated {A : Addressing} (hA : InetAccepts A) {db db' : Database} {r : Report}
    {i : ℕ} (hid : Identified A r.data) (h : reconcileAndCommit A db r = .ok (db', i))
    (now : Time) (uuid : ℕ) :
    ∃ a db'', findExisting A db' r.data = .ok (some a) ∧ a.id = i ∧
      reconcileAndCommit A db' { r with now := now, uuid := uuid } = .ok (db'', i) ∧
      db''.alerts = db'.alerts ∧
      ∀ k, (db''.assets.find k).map essence = (db'.assets.find k).map essence := by
  obtain ⟨found, a', hcom, rfl, hset⟩ := settled_of_committed h
  have hfind := findExisting_again hA hcom hid
  have ha' : a' ∈ db'.assets.rows := (hcom.mem_rows a').mpr (.inl rfl)
  have hrow := hset.row now uuid
  have hmerge : reconcileAndCommit A db' { r with now := now, uuid := uuid } =
      .ok ({ db' with
        assets := db'.assets.put
          (mergedRow { r with now := now, uuid := uuid } a' a'.ip a'.mac) }, a'.id) := by
    rw [reconcileAndCommit_merge (r := { r with now := now, uuid := uuid }) hfind]
    simp only [hset.drift, hset.ip, hset.mac, ok_bind, pure_eq_ok]
  refine ⟨a', _, hfind, rfl, hmerge, rfl, fun k => ?_⟩
  by_cases hk : k = a'.id
  · subst hk
    have hput := Table.find_put_self (t := db'.assets)
      (r := mergedRow { r with now := now, uuid := uuid } a' a'.ip a'.mac)
      (by rw [mergedRow_id, Table.find_key ha']; rfl)
    rw [mergedRow_id] at hput
    dsimp only
    rw [hput, Table.find_key ha']
    exact congrArg some hrow
  · have hne : k ≠ (mergedRow { r with now := now, uuid := uuid } a' a'.ip a'.mac).id := by
      rwa [mergedRow_id]
    dsimp only
    rw [Table.find_put_of_ne (t := db'.assets) hne]

/-- A scan of a host that creates its asset, and the same scan an hour later. -/
def scannedHost : Report where
  source := "nmap_scan"
  data := { mac := .value "aa:bb:cc:dd:ee:01", ip := .value "10.0.0.1", name := .value "db" }
  uuid := 1

theorem scannedHost_created : reconcileAndCommit .canonical .empty scannedHost =
    .ok (handle .canonical .empty scannedHost, 1) := rfl

theorem report_repeated_scan :
    ∃ a db'', findExisting .canonical (handle .canonical .empty scannedHost) scannedHost.data =
        .ok (some a) ∧ a.id = 1 ∧
      reconcileAndCommit .canonical (handle .canonical .empty scannedHost)
        { scannedHost with now := 3600000000, uuid := 2 } = .ok (db'', 1) ∧
      db''.alerts = (handle .canonical .empty scannedHost).alerts ∧
      ∀ k, (db''.assets.find k).map essence =
        ((handle .canonical .empty scannedHost).assets.find k).map essence :=
  report_repeated (fun _ _ h => h) (.inl (by decide +kernel)) scannedHost_created 3600000000 2

end Kepryx.RepeatedReports
