import Mathlib.Data.Finset.Basic
import Mathlib.Data.Int.ConditionallyCompleteOrder
import Mathlib.Data.List.Induction
import Mathlib.Order.ConditionallyCompleteLattice.Basic
import Mathlib.Order.Monotone.Defs
import Kepryx.ReportHandling
import Kepryx.Results
import Kepryx.SourcePriority

/-!
# The order in which sources report

Several sources report one device, each in its turn, and every report carries the same MAC.
A session that keeps the asset object merges all of them into it. The object then does not
depend on the order of the reports, apart from its type: only the first report sets it. With a
session for each report the object is loaded anew, and the row lists the first source only.
-/
namespace Kepryx.ReportOrder
open Kepryx.Models Kepryx.Results Kepryx.Tables Kepryx.UnitOfWork Kepryx.Runs
open Kepryx.Reconciler Kepryx.ReportHandling Kepryx.SourcePriority

/-! ## A session that keeps its objects -/

/-- A session with the asset objects that it has loaded or added and that are still in use. -/
structure Held where
  session : Session
  objects : List AssetObject

/-- An object after a flush: what it holds is what the session knows to be stored. -/
def flushed (o : AssetObject) : AssetObject :=
  { o with
    loaded := o.toAssetColumns
    sources := ⟨o.sources.current, o.sources.current⟩ }

def flushObjects (A : Addressing) (now : Time) : Session → List AssetObject → Except DbError Session
  | s, [] => .ok s
  | s, o :: os => do
    let s ← flushAsset A now s o
    flushObjects A now s os

/-- The flush before a query, or of the commit. -/
def flushHeld (A : Addressing) (now : Time) (w : Held) : Except DbError Held := do
  let s ← flushObjects A now w.session w.objects
  return ⟨s, w.objects.map flushed⟩

/-- `reconcile_host` in a session that keeps its objects: the query flushes first, and a row
whose object is there is not loaded again. -/
def reconcileHeld (A : Addressing) (w : Held) (r : Report) : Except DbError Held := do
  let w ← flushHeld A r.now w
  match ← findExisting A w.session.db r.data with
  | some a =>
    let (heap, asset) := match w.objects.find? fun o => o.id = a.id with
      | some o => (w.session.heap, o)
      | none => loadAsset w.session.heap a
    let (s, asset) ← mergeSource r.now ⟨w.session.db, heap⟩ asset r.source r.data
    return ⟨s, w.objects.filter (fun o => o.id ≠ a.id) ++ [asset]⟩
  | none =>
    let (s, asset) ← createFromSource A r.now r.uuid w.session r.source r.data
    return ⟨s, w.objects ++ [asset]⟩

/-- A report as its source sends it. -/
structure Observation where
  source : String
  data : HostData

/-- Reports in their order, each at its instant and with the identifier that it would draw. -/
def deliver (clock : ℕ → Time) (uuid : ℕ → ℕ) (obs : List Observation) : List Report :=
  obs.mapIdx fun i o => ⟨o.source, o.data, clock i, uuid i⟩

/-- The reports in one session, from an empty inventory. -/
def reconcileAll (A : Addressing) (clock : ℕ → Time) (uuid : ℕ → ℕ) (obs : List Observation) :
    Except DbError Held :=
  (deliver clock uuid obs).foldlM (reconcileHeld A) ⟨⟨.empty, .empty⟩, []⟩

/-! ## What is compared -/

/-- An asset, with the lists taken as sets. -/
@[ext]
structure View where
  type : String
  fields : Field → Option String
  sources : Finset String
  softwareStack : Finset String
  cpe : Finset String
  dependencies : Finset String
  isShadow : Bool

def view (c : AssetColumns) (sources : Option (List String)) : View where
  type := c.type
  fields := field c
  sources := (sources.getD []).toFinset
  softwareStack := (c.softwareStack.getD []).toFinset
  cpe := (c.cpe.getD []).toFinset
  dependencies := (c.dependencies.getD []).toFinset
  isShadow := c.isShadow

/-- The only asset after the reports and the commit, when one session keeps its object. -/
def heldView (A : Addressing) (clock : ℕ → Time) (uuid : ℕ → ℕ) (obs : List Observation) :
    Option View :=
  match reconcileAll A clock uuid obs with
  | .error _ => none
  | .ok w =>
    match flushHeld A (clock obs.length) w with
    | .error _ => none
    | .ok w =>
      match w.session.db.assets.rows, w.objects with
      | [_], [o] => some (view o.toAssetColumns (w.session.heap.value o.sources.current))
      | _, _ => none

/-- The only row after the reports, when each has a session of its own. -/
def storedView (A : Addressing) (clock : ℕ → Time) (uuid : ℕ → ℕ) (obs : List Observation) :
    Option View :=
  match (run (handle A) .empty (deliver clock uuid obs)).assets.rows with
  | [a] => some (view a.toAssetColumns a.sources)
  | _ => none

/-- What a report gives for a field, as the object holds it. -/
def given (o : Observation) (f : Field) : Option String := (o.data.field f).truthy

/-- What a report gives for a field, as the columns store it. -/
def givenStored (A : Addressing) (o : Observation) (f : Field) : Option String :=
  match f with
  | .ip => (given o .ip).bind A.inet
  | .mac => (given o .mac).bind A.macaddr
  | f => given o f

/-- In every order the reports end in one asset with the same view, which has the type and the
fields of the source with the highest priority. -/
def OrderIndependent (outcome : List Observation → Option View)
    (given : Observation → Field → Option String) (obs : List Observation) : Prop :=
  ∃ v, (∀ obs' : List Observation, obs'.Perm obs → outcome obs' = some v) ∧
    ∃ top ∈ obs, (∀ o ∈ obs, reportPriority o.source ≤ reportPriority top.source) ∧
      top.data.type = .value v.type ∧ v.fields = given top

/-- A report with the MAC, a type, an address that can be stored, and every authoritative
field. -/
structure Complete (A : Addressing) (mac : String) (o : Observation) : Prop where
  mac : o.data.mac = .value mac
  type : o.data.type.truthy.isSome
  fields : ∀ f, (given o f).isSome
  address : ((given o .ip).bind A.inet).isSome

/-- Reports of one device, by sources with distinct priorities. -/
structure SameDevice (A : Addressing) (mac : String) (obs : List Observation) : Prop where
  complete : ∀ o ∈ obs, Complete A mac o
  known : (A.macaddr mac).isSome
  ranks : (obs.map fun o => reportPriority o.source).Nodup

/-! ## Alerts -/

/-- From an instant on, no two open alerts of a type for one asset are recent. -/
def Calm (now : Time) (alerts : List Alert) : Prop :=
  ∀ now', now ≤ now' → ∀ type id, (recentOpen now' alerts type id).length ≤ 1

theorem Calm.later {now now' : Time} {alerts : List Alert} (h : Calm now alerts)
    (hle : now ≤ now') : Calm now' alerts :=
  fun _ hnow => h _ (le_trans hle hnow)

theorem calm_nil (now : Time) : Calm now [] := fun _ _ _ _ => Nat.zero_le 1

/-- What is recent later was recent before. -/
theorem recentOpen_nil {now now' : Time} {alerts : List Alert} {type : AlertType}
    {id : Option ℕ} (h : recentOpen now alerts type id = []) (hle : now ≤ now') :
    recentOpen now' alerts type id = [] := by
  unfold recentOpen at h ⊢
  rw [List.filter_eq_nil_iff] at h ⊢
  intro x hx hrecent
  apply h x hx
  simp only [Bool.and_eq_true, decide_eq_true_eq] at hrecent ⊢
  obtain ⟨⟨hkey, hafter⟩, hopen⟩ := hrecent
  exact ⟨⟨hkey, lt_of_le_of_lt (Int.sub_le_sub_right hle _) hafter⟩, hopen⟩

/-- The de-duplication never meets two open alerts. -/
theorem raiseAlert_calm {now : Time} {alerts : List Alert} (h : Calm now alerts) (alert : Alert) :
    ∃ alerts', raiseAlert now alerts alert = .ok alerts' ∧ Calm now alerts' := by
  have hquery : scalarOneOrNone DbError.multipleResultsFound
      (recentOpen now alerts alert.alertType alert.assetId) =
        .ok (recentOpen now alerts alert.alertType alert.assetId).head? :=
    scalarOneOrNone_ok (h now le_rfl alert.alertType alert.assetId)
  cases hhead : (recentOpen now alerts alert.alertType alert.assetId).head? with
  | some found =>
    rw [hhead] at hquery
    exact ⟨alerts, by simp [raiseAlert, hquery], h⟩
  | none =>
    rw [hhead] at hquery
    refine ⟨alerts ++ [alert], by simp [raiseAlert, hquery], ?_⟩
    intro now' hnow type id
    have hsplit : recentOpen now' (alerts ++ [alert]) type id =
        recentOpen now' alerts type id ++ recentOpen now' [alert] type id := by
      simp [recentOpen]
    rw [hsplit, List.length_append]
    by_cases hkey : alert.alertType = type ∧ alert.assetId = id
    · obtain ⟨rfl, rfl⟩ := hkey
      have hnone := recentOpen_nil (List.head?_eq_none_iff.mp hhead) hnow
      rw [hnone]
      exact Nat.le_trans (Nat.zero_add _).le (List.length_filter_le _ _)
    · have hother : recentOpen now' [alert] type id = [] := by
        unfold recentOpen
        rw [List.filter_eq_nil_iff]
        intro x hx hmatch
        obtain rfl := List.mem_singleton.mp hx
        simp only [Bool.and_eq_true, decide_eq_true_eq] at hmatch
        exact hkey hmatch.1.1
      rw [hother]
      exact h now' hnow type id

/-- A merge never fails. -/
theorem mergeSource_calm {now : Time} {s : Session} (h : Calm now s.db.alerts)
    (asset : AssetObject) (source : String) (data : HostData) :
    ∃ s' asset', mergeSource now s asset source data = .ok (s', asset') ∧
      Calm now s'.db.alerts := by
  have hdrift : ∃ alerts, driftAlert now s.db.alerts asset.toAssetColumns data = .ok alerts ∧
      Calm now alerts := by
    unfold driftAlert
    dsimp only
    split
    · exact raiseAlert_calm h _
    · exact ⟨_, rfl, h⟩
  obtain ⟨alerts, hok, hcalm⟩ := hdrift
  unfold mergeSource
  rw [hok]
  exact ⟨_, _, rfl, hcalm⟩

/-! ## The first report -/

theorem given_eq {o : Observation} {f : Field} (h : (given o f).isSome) :
    ∃ v, o.data.field f = .value v ∧ v ≠ "" ∧ given o f = some v := by
  obtain ⟨v, hv⟩ := Option.isSome_iff_exists.mp h
  obtain ⟨hvalue, hne⟩ := Entry.truthy_eq_some.mp hv
  exact ⟨v, hvalue, hne, hv⟩

theorem Complete.given_mac {A : Addressing} {mac : String} {o : Observation}
    (h : Complete A mac o) : given o .mac = some mac := by
  obtain ⟨v, hv, -, hgiven⟩ := given_eq (h.fields .mac)
  have hvalue : Entry.value v = .value mac := hv.symm.trans h.mac
  rw [hgiven, Entry.value.inj hvalue]

theorem Complete.newName {A : Addressing} {mac : String} {o : Observation}
    (h : Complete A mac o) : Reconciler.newName o.data = given o .name := by
  obtain ⟨v, -, -, hv⟩ := given_eq (h.fields .name)
  have htruthy : o.data.name.truthy = some v := hv
  unfold Reconciler.newName
  rw [htruthy, hv]
  rfl

/-- A new object has the fields of its report. -/
theorem field_newColumns {A : Addressing} {mac : String} {o : Observation}
    (h : Complete A mac o) (now : Time) (uuid : ℕ) {name type : String}
    (hname : given o .name = some name) (f : Field) :
    field (newColumns now uuid o.source o.data name type) f = given o f := by
  obtain ⟨v, hv, -, hgiven⟩ := given_eq (h.fields f)
  rw [hgiven]
  cases f with
  | name => exact hname.symm.trans hgiven
  | os =>
    have htruthy : o.data.os.truthy = some v := hgiven
    simp [field, newColumns, htruthy]
  | ip | mac =>
    unfold HostData.field at hv
    simp [field, newColumns, hv, Entry.get]
  | segment | edrStatus | controlCoverage | networkExposure | authMethod | criticality
    | dataClassification =>
    unfold HostData.field at hv
    simp [field, newColumns, hv, Entry.getD]

/-- An object that holds the reports of `done`, in their order. -/
structure Described (done : List Observation) (heap : Heap (List String)) (asset : AssetObject) :
    Prop where
  type : ∃ first, done.head? = some first ∧ first.data.type = .value asset.type
  fields : ∃ top ∈ done, (∀ o ∈ done, reportPriority o.source ≤ reportPriority top.source) ∧
    field asset.toAssetColumns = given top
  sources : heap.value asset.sources.current = some (done.map Observation.source)
  softwareStack : ∀ x, x ∈ asset.softwareStack.getD [] ↔
    ∃ o ∈ done, x ∈ o.data.softwareStack.get.getD []
  cpe : ∀ x, x ∈ asset.cpe.getD [] ↔ ∃ o ∈ done, x ∈ o.data.cpe.get.getD []
  dependencies : ∀ x, x ∈ asset.dependencies.getD [] ↔
    ∃ o ∈ done, x ∈ o.data.dependencies.get.getD []
  isShadow : asset.isShadow = isShadow (done.map Observation.source)

theorem getD_nil (e : Entry (List String)) : (e.getD []).getD [] = e.get.getD [] := by
  cases e <;> rfl

/-- A first report inserts one row, with its own values, and its object holds the report. -/
theorem createFromSource_complete {A : Addressing} {mac m : String} {o : Observation}
    (h : Complete A mac o) (hm : A.macaddr mac = some m) (now : Time) (uuid : ℕ) {s : Session}
    (hempty : s.db.assets.rows = []) (hcalm : Calm now s.db.alerts) :
    ∃ s' asset row, createFromSource A now uuid s o.source o.data = .ok (s', asset) ∧
      Described [o] s'.heap asset ∧ Calm now s'.db.alerts ∧ s'.db.assets.rows = [row] ∧
      row.id = asset.id ∧ row.mac = some m ∧ row.sources = some [o.source] ∧
      row.type = asset.type ∧ field row.toAssetColumns = givenStored A o := by
  obtain ⟨name, -, -, hname⟩ := given_eq (h.fields .name)
  obtain ⟨ip, hip, -, hgivenIp⟩ := given_eq (h.fields .ip)
  obtain ⟨type, htype⟩ := Option.isSome_iff_exists.mp h.type
  obtain ⟨htype, -⟩ := Entry.truthy_eq_some.mp htype
  obtain ⟨address, haddress⟩ := Option.isSome_iff_exists.mp h.address
  rw [hgivenIp, Option.bind_some] at haddress
  let c := newColumns now uuid o.source o.data name type
  have hfields : field c = given o := funext (field_newColumns h now uuid hname)
  have hcip : c.ip = some ip := (congrFun hfields .ip).trans hgivenIp
  have hcmac : c.mac = some mac := (congrFun hfields .mac).trans h.given_mac
  have hbindIp : bindText A.inet c.ip = .ok (some address) := by
    rw [hcip]
    simp [bindText, haddress]
  have hbindMac : bindText A.macaddr c.mac = .ok (some m) := by
    rw [hcmac]
    simp [bindText, hm]
  let row : Asset := { c with ip := some address, mac := some m, sources := some [o.source] }
  obtain ⟨assets, hassets⟩ : ∃ assets, s.db.assets.insert? row = some assets := by
    cases hins : s.db.assets.insert? row with
    | some assets => exact ⟨assets, rfl⟩
    | none =>
      have hfound := Table.insert?_eq_none.mp hins
      rw [Table.find, hempty] at hfound
      cases hfound
  obtain ⟨alerts, halerts, hcalm'⟩ : ∃ alerts, shadowAlert now s.db.alerts c o.source = .ok alerts ∧
      Calm now alerts := by
    unfold shadowAlert
    split
    · exact raiseAlert_calm hcalm _
    · exact ⟨_, rfl, hcalm⟩
  have hrows : assets.rows = [row] := by
    rw [(Table.insert?_eq_some hassets).1, hempty]
    rfl
  refine ⟨⟨{ s.db with assets := assets, alerts := alerts }, s.heap.alloc [o.source]⟩,
    { c with loaded := c, sources := ⟨some s.heap.next, some s.heap.next⟩ }, row, ?_, ?_, hcalm',
    hrows, rfl, rfl, rfl, rfl, ?_⟩
  · have hnewName : Reconciler.newName o.data = some name := h.newName.trans hname
    have hgetType : o.data.type.getD "Unknown" = some type := by rw [htype]; rfl
    simp only [createFromSource, hnewName, hgetType]
    refine bind_eq_ok.mpr ⟨some address, hbindIp, bind_eq_ok.mpr ⟨some m, hbindMac, ?_⟩⟩
    have hinserted : s.db.assets.insert? { newColumns now uuid o.source o.data name type with
        ip := some address, mac := some m, sources := some [o.source] } = some assets := hassets
    rw [hinserted]
    exact bind_eq_ok.mpr ⟨alerts, halerts, rfl⟩
  · exact ⟨⟨o, rfl, htype⟩, ⟨o, by simp, by simp, hfields⟩, by simp,
      fun x => by simp [c, newColumns, getD_nil], fun x => by simp [c, newColumns, getD_nil],
      fun x => by simp [c, newColumns, getD_nil], rfl⟩
  · ext f : 1
    have hf := congrFun hfields f
    cases f with
    | ip => simp [field, row, givenStored, hgivenIp, haddress]
    | mac =>
      simp [field, row, givenStored, h.given_mac, hm]
    | _ => exact hf

/-! ## The next reports, with the object at hand -/

/-- The session holds the object of the only row, and the object holds the reports. -/
structure HoldsOne (m : String) (done : List Observation) (now : Time) (w : Held)
    (asset : AssetObject) (row : Asset) : Prop where
  objects : w.objects = [asset]
  rows : w.session.db.assets.rows = [row]
  id : row.id = asset.id
  mac : row.mac = some m
  described : Described done w.session.heap asset
  calm : Calm now w.session.db.alerts

theorem flushText_known {convert : String → Option String} {loaded current : Option String}
    {v : String} (h : current.bind convert = some v) :
    flushText convert loaded current (some v) = .ok (some v) := by
  unfold flushText
  split
  · rfl
  · obtain ⟨t, ht, hv⟩ := Option.bind_eq_some_iff.mp h
    simp [bindText, ht, hv]

theorem flushText_valid {convert : String → Option String} {loaded current stored : Option String}
    (h : (current.bind convert).isSome) : ∃ v, flushText convert loaded current stored = .ok v := by
  unfold flushText
  split
  · exact ⟨stored, rfl⟩
  · obtain ⟨v, hv⟩ := Option.isSome_iff_exists.mp h
    obtain ⟨t, ht, hv⟩ := Option.bind_eq_some_iff.mp hv
    exact ⟨some v, by simp [bindText, ht, hv]⟩

/-- The flush of the object succeeds and changes neither the row's MAC nor the object. -/
theorem flushHeld_holdsOne {A : Addressing} {mac m : String} {done : List Observation}
    {now : Time} {w : Held} {asset : AssetObject} {row : Asset}
    (h : HoldsOne m done now w asset row) (hcomplete : ∀ o ∈ done, Complete A mac o)
    (hm : A.macaddr mac = some m) :
    ∃ w' row', flushHeld A now w = .ok w' ∧ HoldsOne m done now w' (flushed asset) row' := by
  obtain ⟨top, htop, -, hfields⟩ := h.described.fields
  have hc := hcomplete top htop
  have hip : (asset.ip.bind A.inet).isSome := by
    have hasset : asset.ip = given top .ip := congrFun hfields .ip
    rw [hasset]
    exact hc.address
  have hmac : asset.mac.bind A.macaddr = some m := by
    have hasset : asset.mac = some mac := (congrFun hfields .mac).trans hc.given_mac
    rw [hasset]
    exact hm
  obtain ⟨ip, hflushIp⟩ : ∃ v, flushText A.inet asset.loaded.ip asset.ip row.ip = .ok v :=
    flushText_valid hip
  have hflushMac : flushText A.macaddr asset.loaded.mac asset.mac (some m) = .ok (some m) :=
    flushText_known hmac
  have hfind : w.session.db.assets.find asset.id = some row := by
    rw [Table.find, h.rows, ← h.id]
    simp
  let new : Asset := flushUpdate now row
    { asset.toAssetColumns with
      ip := ip
      mac := some m
      sources := asset.sources.flush w.session.heap row.sources }
  have hflush : flushAsset A now w.session asset =
      .ok { w.session with db := { w.session.db with assets := w.session.db.assets.put new } } := by
    simp only [flushAsset, hfind, hflushIp, h.mac, hflushMac]
    rfl
  have hnew : new.id = row.id ∧ new.mac = some m := by
    have heq := flushUpdate_eq now row
      { asset.toAssetColumns with
        ip := ip
        mac := some m
        sources := asset.sources.flush w.session.heap row.sources }
    constructor
    · exact (congrArg (fun a : Asset => a.id) heq).trans h.id.symm
    · exact congrArg (fun a : Asset => a.mac) heq
  refine ⟨⟨{ w.session with db := { w.session.db with assets := w.session.db.assets.put new } },
    [flushed asset]⟩, new, ?_, ?_⟩
  · simp only [flushHeld, h.objects, flushObjects, hflush, ok_bind, pure_eq_ok, List.map_cons,
      List.map_nil]
  · exact ⟨rfl, Table.rows_put_singleton h.rows hnew.1, hnew.1.trans h.id, hnew.2,
      ⟨h.described.type, h.described.fields, h.described.sources, h.described.softwareStack,
        h.described.cpe, h.described.dependencies, h.described.isShadow⟩, h.calm⟩

theorem recordedPriority_le (s : String) : recordedPriority s ≤ reportPriority s := by
  unfold recordedPriority reportPriority
  cases sourcePriority.lookup s <;> simp

/-- A source overwrites exactly when it ranks at least as high as every recorded one. -/
theorem existingPriority_le_iff {sources : List String} {s : String} :
    existingPriority sources ≤ reportPriority s ↔
      ∀ t ∈ sources, reportPriority t ≤ reportPriority s := by
  rw [existingPriority_le]
  constructor
  · intro h t ht
    by_contra hlt
    have hrecorded := lt_recordedPriority (Nat.not_le.mp hlt)
    exact absurd (h t ht) (Nat.not_le.mpr hrecorded)
  · exact fun h t ht => Nat.le_trans (recordedPriority_le t) (h t ht)

/-- Writing the authoritative fields leaves every other column. -/
theorem written_frame {α : Type*} (column : AssetColumns → α)
    (hframe : ∀ a f v, column (setField a f v) = column a) (data : HostData) (c : AssetColumns)
    (p : Prop) [Decidable p] : column (if p then writeFields data c else c) = column c := by
  split
  · refine List.foldlRecOn authoritativeFields
      (motive := fun b : AssetColumns => column b = column c) _ rfl ?_
    intro b hb f _
    unfold writeField
    cases (data.field f).truthy with
    | none => exact hb
    | some v => exact (hframe b f v).trans hb
  · rfl

theorem mem_enrichList {old : Option (List String)} {new : Entry (List String)} {x : String} :
    x ∈ (enrichList old new).getD [] ↔ x ∈ old.getD [] ∨ x ∈ new.get.getD [] := by
  unfold enrichList
  split
  · rename_i h
    simp [h]
  · rename_i h
    simp [h]
  · rename_i y ys h
    simp only [h, Option.getD_some, List.mem_dedup, List.mem_append]

theorem exists_mem_snoc {done : List Observation} {o : Observation} {P : Observation → Prop} :
    (∃ x ∈ done ++ [o], P x) ↔ (∃ x ∈ done, P x) ∨ P o := by
  simp only [List.mem_append, List.mem_singleton, or_and_right, exists_or, exists_eq_left]

/-- An enriched list has the entries of all reports. -/
theorem mem_mergedList {done : List Observation} {o : Observation}
    (entry : Observation → Entry (List String)) {old new : Option (List String)}
    (hold : ∀ x, x ∈ old.getD [] ↔ ∃ y ∈ done, x ∈ (entry y).get.getD [])
    (hnew : new = enrichList old (entry o)) (x : String) :
    x ∈ new.getD [] ↔ ∃ y ∈ done ++ [o], x ∈ (entry y).get.getD [] := by
  rw [hnew, mem_enrichList, exists_mem_snoc, hold]

/-- A merge adds its report to what the object holds. -/
theorem described_merge {A : Addressing} {mac : String} {done : List Observation}
    {o : Observation} {now : Time} {s s' : Session} {asset asset' : AssetObject}
    (h : Described done s.heap asset) (ho : Complete A mac o)
    (hnew : o.source ∉ done.map Observation.source)
    (hmerge : mergeSource now s asset o.source o.data = .ok (s', asset')) :
    Described (done ++ [o]) s'.heap asset' := by
  have hvalid : Valid s.heap asset.sources.current := fun _ => by simp [h.sources]
  have hrecorded : recorded s.heap asset.sources.current = done.map Observation.source := by
    simp [recorded, h.sources]
  obtain ⟨-, -, -, hcols, -, -⟩ := mergeSource_ok hvalid hmerge
  rw [hrecorded] at hcols
  have hsources : withSource (done.map Observation.source) o.source =
      (done ++ [o]).map Observation.source := by simp [withSource, hnew]
  constructor
  · obtain ⟨first, hfirst, htype⟩ := h.type
    refine ⟨first, by simp [List.head?_append, hfirst], ?_⟩
    have hsame : asset'.type = asset.type := by
      rw [hcols]
      exact written_frame AssetColumns.type (fun a f v => by cases f <;> rfl) ..
    rw [hsame, htype]
  · obtain ⟨top, htop, hmax, hfields⟩ := h.fields
    by_cases hover : existingPriority (done.map Observation.source) ≤ reportPriority o.source
    · refine ⟨o, by simp, ?_, ?_⟩
      · intro x hx
        rcases List.mem_append.mp hx with hx | hx
        · exact existingPriority_le_iff.mp hover _ (List.mem_map_of_mem hx)
        · rw [List.mem_singleton.mp hx]
      · ext f : 1
        obtain ⟨v, hv⟩ := Option.isSome_iff_exists.mp (ho.fields f)
        have htruthy : (o.data.field f).truthy = some v := hv
        rw [hcols, field_mergeColumns, if_pos hover, hv, htruthy]
        rfl
    · refine ⟨top, by simp [htop], ?_, ?_⟩
      · intro x hx
        rcases List.mem_append.mp hx with hx | hx
        · exact hmax x hx
        · rw [List.mem_singleton.mp hx]
          by_contra hlt
          refine hover (existingPriority_le_iff.mpr fun t ht => ?_)
          obtain ⟨y, hy, rfl⟩ := List.mem_map.mp ht
          have hy := hmax y hy
          omega
      · ext f : 1
        rw [hcols, field_mergeColumns, if_neg hover, hfields]
  · rw [mergeSource_recorded hvalid hmerge, hrecorded, hsources]
  · refine mem_mergedList (fun y => y.data.softwareStack) h.softwareStack ?_
    rw [hcols]
    exact congrArg (enrichList · o.data.softwareStack)
      (written_frame AssetColumns.softwareStack (fun a f v => by cases f <;> rfl) ..)
  · refine mem_mergedList (fun y => y.data.cpe) h.cpe ?_
    rw [hcols]
    exact congrArg (enrichList · o.data.cpe)
      (written_frame AssetColumns.cpe (fun a f v => by cases f <;> rfl) ..)
  · refine mem_mergedList (fun y => y.data.dependencies) h.dependencies ?_
    rw [hcols]
    exact congrArg (enrichList · o.data.dependencies)
      (written_frame AssetColumns.dependencies (fun a f v => by cases f <;> rfl) ..)
  · rw [hcols, ← hsources]
    rfl

/-- The lookup by MAC finds the only row. -/
theorem findExisting_only {A : Addressing} {mac m : String} {db : Database} {o : Observation}
    {row : Asset} (ho : Complete A mac o) (hm : A.macaddr mac = some m)
    (hrows : db.assets.rows = [row]) (hmac : row.mac = some m) :
    findExisting A db o.data = .ok (some row) := by
  have htruthy : o.data.mac.truthy = some mac := ho.given_mac
  have hlookup : lookupBy db (fun a => a.mac) (some m) = .ok (some row) := by
    simp [lookupBy, hrows, hmac, scalarOneOrNone]
  simp only [findExisting, htruthy, bindText, hm, hlookup, ok_bind, pure_eq_ok]

/-- The next report is merged into the object at hand. -/
theorem reconcileHeld_holdsOne {A : Addressing} {mac m : String} {done : List Observation}
    {o : Observation} {now now' : Time} {w : Held} {asset : AssetObject} {row : Asset}
    (h : HoldsOne m done now w asset row) (hcomplete : ∀ x ∈ done, Complete A mac x)
    (ho : Complete A mac o) (hm : A.macaddr mac = some m) (hle : now ≤ now')
    (hnew : o.source ∉ done.map Observation.source) (uuid : ℕ) :
    ∃ w' asset' row', reconcileHeld A w ⟨o.source, o.data, now', uuid⟩ = .ok w' ∧
      HoldsOne m (done ++ [o]) now' w' asset' row' := by
  have hlater : HoldsOne m done now' w asset row := { h with calm := h.calm.later hle }
  obtain ⟨w₁, row₁, hflush, h₁⟩ := flushHeld_holdsOne hlater hcomplete hm
  have hfind := findExisting_only ho hm h₁.rows h₁.mac
  have hheld : w₁.objects.find? (fun x => x.id = row₁.id) = some (flushed asset) := by
    simp [h₁.objects, h₁.id]
  obtain ⟨s, asset', hmerge, hcalm⟩ := mergeSource_calm h₁.calm (flushed asset) o.source o.data
  have hvalid : Valid w₁.session.heap (flushed asset).sources.current :=
    fun _ => by simp [h₁.described.sources]
  obtain ⟨alerts, hdb, -, hcols, -, -⟩ := mergeSource_ok hvalid hmerge
  have hid : asset'.id = (flushed asset).id := by rw [hcols]; simp
  refine ⟨⟨s, [asset']⟩, asset', row₁, ?_, rfl, ?_, ?_, h₁.mac,
    described_merge h₁.described ho hnew hmerge, hcalm⟩
  · have hothers : w₁.objects.filter (fun x => x.id ≠ row₁.id) = [] := by
      simp [h₁.objects, h₁.id]
    simp only [reconcileHeld, hflush, hfind, hheld, hmerge, hothers, ok_bind, pure_eq_ok,
      List.nil_append]
  · rw [hdb]
    exact h₁.rows
  · rw [hid]
    exact h₁.id

/-! ## All reports in one session -/

theorem findExisting_empty {A : Addressing} {mac m : String} {db : Database} {o : Observation}
    (ho : Complete A mac o) (hm : A.macaddr mac = some m) (hempty : db.assets.rows = []) :
    findExisting A db o.data = .ok none := by
  have hlookup : ∀ column value, lookupBy db column value = .ok none := by
    intro column value
    cases value with
    | none => rfl
    | some v => simp [lookupBy, hempty, scalarOneOrNone]
  have htruthy : o.data.mac.truthy = some mac := ho.given_mac
  simp only [findExisting, htruthy, bindText, hm, hlookup, ok_bind]

theorem deliver_snoc (clock : ℕ → Time) (uuid : ℕ → ℕ) (done : List Observation)
    (o : Observation) : deliver clock uuid (done ++ [o]) = deliver clock uuid done ++
      [⟨o.source, o.data, clock done.length, uuid done.length⟩] := by
  simp [deliver, List.mapIdx_append]

theorem reconcileAll_snoc (A : Addressing) (clock : ℕ → Time) (uuid : ℕ → ℕ)
    (done : List Observation) (o : Observation) :
    reconcileAll A clock uuid (done ++ [o]) = (reconcileAll A clock uuid done).bind fun w =>
      reconcileHeld A w ⟨o.source, o.data, clock done.length, uuid done.length⟩ := by
  unfold reconcileAll
  rw [deliver_snoc, List.foldlM_append]
  simp only [List.foldlM_cons, List.foldlM_nil, bind_pure]
  rfl

theorem SameDevice.of_perm {A : Addressing} {mac : String} {obs obs' : List Observation}
    (h : SameDevice A mac obs) (hp : obs'.Perm obs) : SameDevice A mac obs' :=
  ⟨fun o ho => h.complete o (hp.subset ho), h.known, (hp.map _).nodup_iff.mpr h.ranks⟩

theorem SameDevice.init {A : Addressing} {mac : String} {done : List Observation}
    {o : Observation} (h : SameDevice A mac (done ++ [o])) : SameDevice A mac done := by
  refine ⟨fun x hx => h.complete x (List.mem_append_left _ hx), h.known, ?_⟩
  have hranks := h.ranks
  rw [List.map_append] at hranks
  exact hranks.of_append_left

theorem SameDevice.fresh {A : Addressing} {mac : String} {done : List Observation}
    {o : Observation} (h : SameDevice A mac (done ++ [o])) :
    o.source ∉ done.map Observation.source := by
  intro hmem
  obtain ⟨x, hx, he⟩ := List.mem_map.mp hmem
  have hranks := h.ranks
  rw [List.map_append, List.nodup_append] at hranks
  exact hranks.2.2 _ (List.mem_map_of_mem hx) _ (List.mem_singleton_self _) (congrArg _ he)

/-- After any number of reports of one device, the session holds the object of the only row. -/
theorem reconcileAll_holdsOne {A : Addressing} {mac m : String} (hm : A.macaddr mac = some m)
    {clock : ℕ → Time} (hclock : Monotone clock) (uuid : ℕ → ℕ) {obs : List Observation}
    (h : SameDevice A mac obs) (hne : obs ≠ []) :
    ∃ w asset row, reconcileAll A clock uuid obs = .ok w ∧
      HoldsOne m obs (clock (obs.length - 1)) w asset row := by
  induction obs using List.reverseRecOn with
  | nil => exact absurd rfl hne
  | append_singleton done o ih =>
    have ho := h.complete o (List.mem_append_right _ (List.mem_singleton_self o))
    have hlast : (done ++ [o]).length - 1 = done.length := by simp
    rw [hlast]
    by_cases hnil : done = []
    · subst hnil
      obtain ⟨s, asset, row, hcreate, hdescribed, hcalm, hrows, hid, hmac, -⟩ :=
        createFromSource_complete ho hm (clock 0) (uuid 0) (s := ⟨.empty, .empty⟩) rfl (calm_nil _)
      refine ⟨⟨s, [asset]⟩, asset, row, ?_, rfl, hrows, hid, hmac, hdescribed, hcalm⟩
      have hfind : findExisting A Database.empty o.data = .ok none :=
        findExisting_empty ho hm rfl
      have hfirst : reconcileHeld A ⟨⟨.empty, .empty⟩, []⟩ ⟨o.source, o.data, clock 0, uuid 0⟩ =
          .ok ⟨s, [asset]⟩ := by
        simp only [reconcileHeld, flushHeld, flushObjects, hfind, hcreate, ok_bind, pure_eq_ok,
          List.map_nil, List.nil_append]
      rw [reconcileAll_snoc]
      exact hfirst
    · obtain ⟨w, asset, row, hdone, hholds⟩ := ih h.init hnil
      have hle : clock (done.length - 1) ≤ clock done.length := hclock (Nat.sub_le _ _)
      obtain ⟨w', asset', row', hstep, hholds'⟩ :=
        reconcileHeld_holdsOne hholds h.init.complete ho hm hle h.fresh (uuid done.length)
      refine ⟨w', asset', row', ?_, hholds'⟩
      rw [reconcileAll_snoc, hdone]
      exact hstep

/-- What the session shows in the end is an object that holds all reports. -/
theorem heldView_eq {A : Addressing} {mac : String} {clock : ℕ → Time} (hclock : Monotone clock)
    (uuid : ℕ → ℕ) {obs : List Observation} (h : SameDevice A mac obs) (hne : obs ≠ []) :
    ∃ asset heap, heldView A clock uuid obs =
        some (view asset.toAssetColumns (heap.value asset.sources.current)) ∧
      Described obs heap asset := by
  obtain ⟨m, hm⟩ := Option.isSome_iff_exists.mp h.known
  obtain ⟨w, asset, row, hall, hholds⟩ := reconcileAll_holdsOne hm hclock uuid h hne
  have hle : clock (obs.length - 1) ≤ clock obs.length := hclock (Nat.sub_le _ _)
  have hlater : HoldsOne m obs (clock obs.length) w asset row :=
    { hholds with calm := hholds.calm.later hle }
  obtain ⟨w', row', hflush, hholds'⟩ := flushHeld_holdsOne hlater h.complete hm
  refine ⟨flushed asset, w'.session.heap, ?_, hholds'.described⟩
  simp only [heldView, hall, hflush, hholds'.rows, hholds'.objects]

/-- Two objects that hold the same reports, in any order, show the same if their types are the
same. -/
theorem view_of_perm {A : Addressing} {mac : String} {obs obs' : List Observation}
    (h : SameDevice A mac obs) (hp : obs'.Perm obs)
    {heap heap' : Heap (List String)} {asset asset' : AssetObject}
    (hd : Described obs heap asset) (hd' : Described obs' heap' asset')
    (htype : asset'.type = asset.type) :
    view asset'.toAssetColumns (heap'.value asset'.sources.current) =
      view asset.toAssetColumns (heap.value asset.sources.current) := by
  have hsources := hp.map Observation.source
  apply View.ext
  · exact htype
  · obtain ⟨top, htop, hmax, hfields⟩ := hd.fields
    obtain ⟨top', htop', hmax', hfields'⟩ := hd'.fields
    have hrank : reportPriority top'.source = reportPriority top.source :=
      Nat.le_antisymm (hmax top' (hp.subset htop')) (hmax' top (hp.symm.subset htop))
    have hsame : top' = top :=
      List.inj_on_of_nodup_map h.ranks (hp.subset htop') htop hrank
    show field asset'.toAssetColumns = field asset.toAssetColumns
    rw [hfields, hfields', hsame]
  · simp only [view, hd.sources, hd'.sources, Option.getD_some]
    exact List.toFinset_eq_of_perm _ _ hsources
  · ext x
    simp only [view, List.mem_toFinset, hd.softwareStack, hd'.softwareStack, hp.mem_iff]
  · ext x
    simp only [view, List.mem_toFinset, hd.cpe, hd'.cpe, hp.mem_iff]
  · ext x
    simp only [view, List.mem_toFinset, hd.dependencies, hd'.dependencies, hp.mem_iff]
  · simp only [view, hd.isShadow, hd'.isShadow, isShadow, hsources.any_eq]

/-- Every report of the list comes first in some order. -/
theorem exists_perm_cons {obs : List Observation} {o : Observation} (ho : o ∈ obs) :
    ∃ rest, (o :: rest).Perm obs := by
  obtain ⟨before, after, rfl⟩ := List.append_of_mem ho
  exact ⟨before ++ after, List.perm_middle.symm⟩

/-- With the object at hand, only the type depends on the order. -/
theorem held_independent_iff {A : Addressing} {mac : String} {clock : ℕ → Time}
    (hclock : Monotone clock) (uuid : ℕ → ℕ) {obs : List Observation}
    (h : SameDevice A mac obs) : OrderIndependent (heldView A clock uuid) given obs ↔
      obs ≠ [] ∧ ∀ o ∈ obs, ∀ o' ∈ obs, o.data.type = o'.data.type := by
  constructor
  · rintro ⟨v, hall, top, htop, -, -, -⟩
    have htype : ∀ o ∈ obs, o.data.type = .value v.type := by
      intro o ho
      obtain ⟨rest, hperm⟩ := exists_perm_cons ho
      obtain ⟨asset, heap, hview, hd⟩ :=
        heldView_eq hclock uuid (h.of_perm hperm) (List.cons_ne_nil o rest)
      obtain ⟨first, hfirst, hasset⟩ := hd.type
      cases hfirst
      rw [hall _ hperm] at hview
      rw [hasset, Option.some.inj hview]
      rfl
    refine ⟨List.ne_nil_of_mem htop, fun o ho o' ho' => ?_⟩
    rw [htype o ho, htype o' ho']
  · rintro ⟨hne, htypes⟩
    obtain ⟨asset, heap, hview, hd⟩ := heldView_eq hclock uuid h hne
    obtain ⟨first, hfirst, hasset⟩ := hd.type
    have hfirst := List.mem_of_mem_head? hfirst
    refine ⟨view asset.toAssetColumns (heap.value asset.sources.current), fun obs' hp => ?_, ?_⟩
    · have hne' : obs' ≠ [] := fun hnil => hne (List.Perm.nil_eq (hnil ▸ hp)).symm
      obtain ⟨asset', heap', hview', hd'⟩ := heldView_eq hclock uuid (h.of_perm hp) hne'
      obtain ⟨first', hfirst', hasset'⟩ := hd'.type
      have hfirst' := hp.subset (List.mem_of_mem_head? hfirst')
      have htype : asset'.type = asset.type := by
        have hsame := htypes first' hfirst' first hfirst
        rw [hasset, hasset'] at hsame
        exact Entry.value.inj hsame
      rw [hview', view_of_perm h hp hd hd' htype]
    · obtain ⟨top, htop, hmax, hfields⟩ := hd.fields
      exact ⟨top, htop, hmax, (htypes top htop first hfirst).trans hasset, hfields⟩

/-! ## A session for each report -/

/-- The report of an observation that was delivered. -/
def Delivers (A : Addressing) (mac : String) (r : Report) : Prop :=
  ∃ o, Complete A mac o ∧ r.source = o.source ∧ r.data = o.data

/-- The sources of a stored row stay as the first report left them. -/
theorem handle_keeps_sources {A : Addressing} {mac m source : String}
    (hm : A.macaddr mac = some m) {db : Database} {r : Report} (hr : Delivers A mac r) {a : Asset}
    (hrows : db.assets.rows = [a]) (hmac : a.mac = some m) (hsources : a.sources = some [source]) :
    ∃ a', (handle A db r).assets.rows = [a'] ∧ a'.mac = some m ∧ a'.sources = some [source] := by
  obtain ⟨o, ho, hsource, hdata⟩ := hr
  have hfind : findExisting A db r.data = .ok (some a) := by
    rw [hdata]
    exact findExisting_only ho hm hrows hmac
  cases hcommit : reconcileAndCommit A db r with
  | error e =>
    rw [handle_of_error hcommit]
    exact ⟨a, hrows, hmac, hsources⟩
  | ok p =>
    rw [handle_of_ok hcommit]
    rcases reconcileAndCommit_cases hcommit with
      ⟨a₁, a', hfound, -, hmerged, -, hput, -⟩ | ⟨a', hfound, -⟩
    · have hsame := hfind.symm.trans hfound
      cases hsame
      refine ⟨a', by rw [hput]; exact Table.rows_put_singleton hrows hmerged.id, ?_, ?_⟩
      · rw [hmerged.mac, writtenText]
        split
        · have hwritten : (r.data.field .mac).truthy = some mac := by
            rw [hdata]
            exact ho.given_mac
          rw [hwritten]
          by_cases hold : a.mac = some mac
          · simp [storedText, hold, ← hmac]
          · simp [storedText, hold, hm]
        · exact hmac
      · rw [hmerged.sources, if_neg (by simp [Asset.sourceList, hsources]), hsources]
    · rw [hfind] at hfound
      cases hfound

theorem run_keeps_sources {A : Addressing} {mac m source : String} (hm : A.macaddr mac = some m)
    {reports : List Report} (hr : ∀ r ∈ reports, Delivers A mac r) {db : Database} {a : Asset}
    (hrows : db.assets.rows = [a]) (hmac : a.mac = some m) (hsources : a.sources = some [source]) :
    ∃ a', (run (handle A) db reports).assets.rows = [a'] ∧ a'.sources = some [source] := by
  induction reports generalizing db a with
  | nil => exact ⟨a, hrows, hsources⟩
  | cons r reports ih =>
    obtain ⟨a', hrows', hmac', hsources'⟩ :=
      handle_keeps_sources hm (hr r (List.mem_cons_self ..)) hrows hmac hsources
    exact ih (fun x hx => hr x (List.mem_cons_of_mem _ hx)) hrows' hmac' hsources'

/-- A first report in a session of its own leaves one row, with its own values. -/
theorem handle_first {A : Addressing} {mac m : String} {o : Observation}
    (ho : Complete A mac o) (hm : A.macaddr mac = some m) (now : Time) (uuid : ℕ) :
    ∃ row, (handle A .empty ⟨o.source, o.data, now, uuid⟩).assets.rows = [row] ∧
      row.mac = some m ∧ row.sources = some [o.source] ∧ o.data.type = .value row.type ∧
      field row.toAssetColumns = givenStored A o := by
  obtain ⟨s, asset, row, hcreate, hdescribed, -, hrows, -, hmac, hsources, htype, hfields⟩ :=
    createFromSource_complete ho hm now uuid (s := ⟨.empty, .empty⟩) rfl (calm_nil _)
  obtain ⟨first, hfirst, hvalue⟩ := hdescribed.type
  cases hfirst
  obtain ⟨a, alerts, -, -, hins, hdb, -, hasset⟩ := createFromSource_ok hcreate
  have ha : a ∈ s.db.assets.rows := (Table.mem_insert? hins).mpr (.inr rfl)
  obtain ⟨s', hflush⟩ : ∃ s', flushAsset A now s asset = .ok s' := by
    have hfind : s.db.assets.find asset.id = some a := by
      rw [hasset]
      exact Table.find_key ha
    rw [hasset] at hfind ⊢
    simp only [flushAsset, hfind, flushText, if_true, ok_bind, pure_eq_ok]
    exact ⟨_, rfl⟩
  have hsame : s'.db = s.db :=
    flush_created (r := ⟨o.source, o.data, now, uuid⟩) ha hasset hflush
  have hfind : findExisting A Database.empty o.data = .ok none := findExisting_empty ho hm rfl
  have hcommit : reconcileAndCommit A .empty ⟨o.source, o.data, now, uuid⟩ =
      .ok (s'.db, asset.id) := by
    simp only [reconcileAndCommit, reconcileHost, hfind, hcreate, hflush, ok_bind, pure_eq_ok]
  refine ⟨row, ?_, hmac, hsources, by rw [htype]; exact hvalue, hfields⟩
  rw [handle_of_ok hcommit, hsame]
  exact hrows

/-- What the only row shows in the end: the source that reported first. -/
theorem storedView_cons {A : Addressing} {mac : String} (clock : ℕ → Time) (uuid : ℕ → ℕ)
    {o : Observation} {rest : List Observation} (h : SameDevice A mac (o :: rest)) :
    ∃ v, storedView A clock uuid (o :: rest) = some v ∧ v.sources = {o.source} ∧
      (rest = [] → o.data.type = .value v.type ∧ v.fields = givenStored A o) := by
  obtain ⟨m, hm⟩ := Option.isSome_iff_exists.mp h.known
  obtain ⟨row, hrows, hmac, hsources, htype, hfields⟩ :=
    handle_first (h.complete o (List.mem_cons_self ..)) hm (clock 0) (uuid 0)
  have hdeliver : deliver clock uuid (o :: rest) = ⟨o.source, o.data, clock 0, uuid 0⟩ ::
      deliver (fun i => clock (i + 1)) (fun i => uuid (i + 1)) rest := by
    simp [deliver, List.mapIdx_cons]
  have hdelivers : ∀ r ∈ deliver (fun i => clock (i + 1)) (fun i => uuid (i + 1)) rest,
      Delivers A mac r := by
    intro r hr
    obtain ⟨i, hi, rfl⟩ := List.mem_mapIdx.mp hr
    exact ⟨rest[i], h.complete _ (List.mem_cons_of_mem _ (List.getElem_mem hi)), rfl, rfl⟩
  obtain ⟨a', hrows', hsources'⟩ := run_keeps_sources hm hdelivers hrows hmac hsources
  refine ⟨view a'.toAssetColumns a'.sources, ?_, ?_, ?_⟩
  · simp only [storedView, hdeliver, run_cons, hrows']
  · simp [view, hsources']
  · rintro rfl
    have hsame : a' = row := by
      have hone := hrows'.symm.trans hrows
      exact (List.cons.inj hone).1
    rw [hsame]
    exact ⟨htype, hfields⟩

/-- With a session for each report, the row shows which of two sources came first. -/
theorem stored_independent_iff {A : Addressing} {mac : String} (clock : ℕ → Time)
    (uuid : ℕ → ℕ) {obs : List Observation} (h : SameDevice A mac obs) :
    OrderIndependent (storedView A clock uuid) (givenStored A) obs ↔ obs.length = 1 := by
  constructor
  · rintro ⟨v, hall, top, htop, -, -, -⟩
    match obs, h with
    | [], _ => cases htop
    | [o], _ => rfl
    | o :: o' :: rest, h =>
      have hswap : (o' :: o :: rest).Perm (o :: o' :: rest) := .swap o o' rest
      obtain ⟨v₁, hv₁, hsources₁, -⟩ := storedView_cons clock uuid h
      obtain ⟨v₂, hv₂, hsources₂, -⟩ := storedView_cons clock uuid (h.of_perm hswap)
      rw [hall _ (List.Perm.refl _)] at hv₁
      rw [hall _ hswap] at hv₂
      cases hv₁
      cases hv₂
      have hsame : o.source = o'.source :=
        Finset.singleton_inj.mp (hsources₁.symm.trans hsources₂)
      have hranks := h.ranks
      simp [hsame] at hranks
  · intro hlength
    obtain ⟨o, rfl⟩ := List.length_eq_one_iff.mp hlength
    obtain ⟨v, hv, -, hrest⟩ := storedView_cons clock uuid h
    obtain ⟨htype, hfields⟩ := hrest rfl
    refine ⟨v, fun obs' hp => ?_, o, by simp, by simp, htype, hfields⟩
    rw [List.perm_singleton.mp hp, hv]

/-- For reports of one device by sources with distinct priorities. A session that keeps the
object: the result does not depend on the order exactly when all reports agree on the type. A
session for each report: only when there is just one report. -/
theorem order_independent_iff (A : Addressing) (clock : ℕ → Time) (hclock : Monotone clock)
    (uuid : ℕ → ℕ) (mac : String) (obs : List Observation) (h : SameDevice A mac obs) :
    (OrderIndependent (heldView A clock uuid) given obs ↔
      obs ≠ [] ∧ ∀ o ∈ obs, ∀ o' ∈ obs, o.data.type = o'.data.type) ∧
    (OrderIndependent (storedView A clock uuid) (givenStored A) obs ↔ obs.length = 1) :=
  ⟨held_independent_iff hclock uuid h, stored_independent_iff clock uuid h⟩

/-- A network scan with a guess for every field, which knows no type. -/
def scan : Observation where
  source := "nmap_scan"
  data :=
    { ip := .value "10.0.1.10"
      mac := .value "aa:bb:cc:dd:ee:01"
      name := .value "host-10"
      type := .value "Unknown"
      os := .value "Windows"
      segment := .value "servers"
      edrStatus := .value "None"
      controlCoverage := .value "none"
      networkExposure := .value "internal"
      authMethod := .value "password"
      criticality := .value "medium"
      dataClassification := .value "Internal" }

/-- The same device in the asset inventory. -/
def inventory : Observation :=
  { scan with
    source := "asset_api"
    data := { scan.data with name := .value "DC-PROD-01", type := .value "Server" } }

theorem sameDevice_scan_inventory :
    SameDevice .canonical "aa:bb:cc:dd:ee:01" [scan, inventory] := by
  refine ⟨?_, rfl, by decide⟩
  intro o ho
  rcases List.mem_cons.mp ho with rfl | ho
  · exact ⟨rfl, rfl, fun f => by cases f <;> rfl, rfl⟩
  · rw [List.mem_singleton.mp ho]
    exact ⟨rfl, rfl, fun f => by cases f <;> rfl, rfl⟩

/-- One second passes from report to report. -/
def seconds (i : ℕ) : Time := i

theorem order_independent_scan_inventory :
    (OrderIndependent (heldView .canonical seconds id) given [scan, inventory] ↔
      [scan, inventory] ≠ [] ∧
        ∀ o ∈ [scan, inventory], ∀ o' ∈ [scan, inventory], o.data.type = o'.data.type) ∧
    (OrderIndependent (storedView .canonical seconds id) (givenStored .canonical)
      [scan, inventory] ↔ [scan, inventory].length = 1) :=
  order_independent_iff .canonical seconds (fun _ _ h => Int.ofNat_le.mpr h) id
    "aa:bb:cc:dd:ee:01" [scan, inventory] sameDevice_scan_inventory

/-- When the scan comes first, the server keeps the type `Unknown`, and the check for missing
EDR coverage passes over it. -/
theorem order_matters :
    ¬ ∀ obs : List Observation, SameDevice .canonical "aa:bb:cc:dd:ee:01" obs →
      OrderIndependent (heldView .canonical seconds id) given obs := by
  intro h
  obtain ⟨v, hall, -⟩ := h _ sameDevice_scan_inventory
  have hscan : (heldView .canonical seconds id [scan, inventory]).map View.type =
      some "Unknown" := by decide +kernel
  have hinventory : (heldView .canonical seconds id [inventory, scan]).map View.type =
      some "Server" := by decide +kernel
  rw [hall _ (List.Perm.refl _)] at hscan
  rw [hall _ (.swap scan inventory [])] at hinventory
  rw [hscan] at hinventory
  exact absurd hinventory (by decide)

end Kepryx.ReportOrder
