import Kepryx.ReportHandling
import Kepryx.RiskWriters
import Kepryx.Runs
import Kepryx.SuppressionWindow

/-!
# Alerts that fire again

`_raise_alert` does not raise an alert while an open one of the same type and asset is younger
than 24 hours. A resolved alert does not count, so resolving one lets the next check fire it
again, however young it is.
-/
namespace Kepryx.AlertDeduplication
open Kepryx.Models Kepryx.Results Kepryx.Tables Kepryx.Runs Kepryx.SuppressionWindow
open Kepryx.Reconciler Kepryx.ReportHandling Kepryx.RiskWriters

/-! ## The query of `_raise_alert` -/

/-- What two alerts share when one is the other fired again. -/
def alertKey (x : Alert) : AlertType × Option ℕ := (x.alertType, x.assetId)

/-- Two alerts of one type and asset are at least 24 hours apart. -/
abbrev DayApart (alerts : List Alert) : Prop :=
  Spaced alertKey (fun x : Alert => x.createdAt) (hours 24) alerts

/-- The alert was created in the last 24 hours. -/
abbrev Young (now : Time) (x : Alert) : Prop :=
  Recent (fun x : Alert => x.createdAt) (hours 24) now x

def openAlerts (alerts : List Alert) : List Alert := alerts.filter fun x => x.status = .open

/-- At most one open alert of each type and asset was created in the last 24 hours. -/
def OneYoungOpen (now : Time) (alerts : List Alert) : Prop :=
  OneRecent alertKey (fun x : Alert => x.createdAt) (hours 24) now (openAlerts alerts)

instance (now : Time) (alerts : List Alert) : Decidable (OneYoungOpen now alerts) :=
  inferInstanceAs (Decidable ((openAlerts alerts).Pairwise _))

theorem OneYoungOpen.later {now now' : Time} {alerts : List Alert} (hle : now ≤ now')
    (h : OneYoungOpen now alerts) : OneYoungOpen now' alerts := OneRecent.later hle h

@[simp] theorem mem_openAlerts {alerts : List Alert} {x : Alert} :
    x ∈ openAlerts alerts ↔ x ∈ alerts ∧ x.status = .open := by
  simp [openAlerts]

@[simp] theorem openAlerts_append (xs ys : List Alert) :
    openAlerts (xs ++ ys) = openAlerts xs ++ openAlerts ys := List.filter_append ..

theorem mem_recentOpen {now : Time} {alerts : List Alert} {type : AlertType} {assetId : Option ℕ}
    {x : Alert} : x ∈ recentOpen now alerts type assetId ↔
      x ∈ openAlerts alerts ∧ alertKey x = (type, assetId) ∧ Young now x := by
  simp only [recentOpen, List.mem_filter, Bool.and_eq_true, decide_eq_true_eq, mem_openAlerts,
    alertKey, Prod.mk.injEq, Recent]
  tauto

theorem recentOpen_append (now : Time) (xs ys : List Alert) (type : AlertType)
    (assetId : Option ℕ) : recentOpen now (xs ++ ys) type assetId =
      recentOpen now xs type assetId ++ recentOpen now ys type assetId := List.filter_append ..

/-- An alert of another type or asset does not count. -/
theorem recentOpen_of_ne {now : Time} {x : Alert} {type : AlertType} {assetId : Option ℕ}
    (hne : alertKey x ≠ (type, assetId)) : recentOpen now [x] type assetId = [] := by
  rw [List.eq_nil_iff_forall_not_mem]
  intro y hy
  obtain ⟨hmem, hkey, -⟩ := mem_recentOpen.mp hy
  have hyx : y = x := by simpa using (mem_openAlerts.mp hmem).1
  exact hne (hyx ▸ hkey)

theorem recentOpen_length_le_one {now : Time} {alerts : List Alert}
    (hone : OneYoungOpen now alerts) (type : AlertType) (assetId : Option ℕ) :
    (recentOpen now alerts type assetId).length ≤ 1 := by
  have hfilter : recentOpen now alerts type assetId = (openAlerts alerts).filter fun x =>
      alertKey x = (type, assetId) && Young now x := by
    rw [recentOpen, openAlerts, List.filter_filter]
    apply List.filter_congr
    intro x _
    by_cases hstatus : x.status = .open
    · simp [hstatus, alertKey, Recent]
    · simp [hstatus]
  rw [hfilter]
  exact hone.filter_length_le_one (k := (type, assetId)) fun x _ hx => by simpa using hx

/-! ## A list of calls -/

/-- The calls that find no open alert. -/
def fired (now : Time) (alerts calls : List Alert) : List Alert :=
  calls.filter fun x => recentOpen now alerts x.alertType x.assetId = []

theorem mem_fired {now : Time} {alerts calls : List Alert} {x : Alert} :
    x ∈ fired now alerts calls ↔
      x ∈ calls ∧ recentOpen now alerts x.alertType x.assetId = [] := by
  simp [fired]

theorem raiseAlert_ok {now : Time} {alerts : List Alert} (hone : OneYoungOpen now alerts)
    (x : Alert) : raiseAlert now alerts x = .ok (alerts ++ fired now alerts [x]) := by
  have hquery : scalarOneOrNone DbError.multipleResultsFound
      (recentOpen now alerts x.alertType x.assetId) = .ok _ :=
    scalarOneOrNone_ok (recentOpen_length_le_one hone x.alertType x.assetId)
  unfold raiseAlert
  rw [hquery, ok_bind]
  cases hfound : recentOpen now alerts x.alertType x.assetId with
  | nil => simp [fired, hfound]
  | cons y rest => simp [fired, hfound]

/-- What is raised never meets an open alert of the last 24 hours. -/
theorem oneYoungOpen_fired {now : Time} {alerts calls : List Alert}
    (hone : OneYoungOpen now alerts) (hkeys : (calls.map alertKey).Nodup) :
    OneYoungOpen now (alerts ++ fired now alerts calls) := by
  unfold OneYoungOpen
  rw [openAlerts_append, oneRecent_append]
  have hsub : List.Sublist (openAlerts (fired now alerts calls)) calls :=
    List.filter_sublist.trans List.filter_sublist
  refine ⟨hone, ?_, ?_⟩
  · have hnodup := (hsub.map alertKey).nodup hkeys
    refine List.Pairwise.imp ?_ (List.pairwise_map.mp hnodup)
    intro a b hne hkey
    exact absurd hkey hne
  · intro x hx y hy hkey hyoung
    have hfree := (mem_fired.mp (mem_openAlerts.mp hy).1).2
    have hfound := mem_recentOpen.mpr ⟨hx, hkey, hyoung⟩
    rw [show recentOpen now alerts y.alertType y.assetId = [] from hfree] at hfound
    exact absurd hfound List.not_mem_nil

/-- Calls for pairwise distinct types and assets do not get in each other's way. -/
theorem raiseAll_ok {now : Time} {alerts calls : List Alert} (hone : OneYoungOpen now alerts)
    (hkeys : (calls.map alertKey).Nodup) :
    calls.foldlM (raiseAlert now) alerts = .ok (alerts ++ fired now alerts calls) := by
  induction calls generalizing alerts with
  | nil => simp [fired]
  | cons x calls ih =>
    obtain ⟨hx, hrest⟩ := List.nodup_cons.mp hkeys
    have hone' : OneYoungOpen now (alerts ++ fired now alerts [x]) :=
      oneYoungOpen_fired hone (List.nodup_singleton _)
    have hsame : fired now (alerts ++ fired now alerts [x]) calls = fired now alerts calls := by
      apply List.filter_congr
      intro y hy
      have hne : alertKey x ≠ (y.alertType, y.assetId) :=
        fun heq => hx (heq ▸ List.mem_map_of_mem hy)
      have hnone : recentOpen now (fired now alerts [x]) y.alertType y.assetId = [] := by
        have hcount : recentOpen now [x] y.alertType y.assetId = [] := recentOpen_of_ne hne
        rw [List.eq_nil_iff_forall_not_mem] at hcount ⊢
        intro z hz
        obtain ⟨hmem, hkey, hyoung⟩ := mem_recentOpen.mp hz
        have hzx := (mem_fired.mp (mem_openAlerts.mp hmem).1).1
        exact hcount z (mem_recentOpen.mpr
          ⟨mem_openAlerts.mpr ⟨hzx, (mem_openAlerts.mp hmem).2⟩, hkey, hyoung⟩)
      rw [recentOpen_append, hnone, List.append_nil]
    rw [List.foldlM_cons, raiseAlert_ok hone, ok_bind, ih hone' hrest, hsame, List.append_assoc]
    congr 2
    simp only [fired, List.filter_cons, List.filter_nil]
    split
    · rfl
    · rfl

/-! ## `detect_edr_gaps` and `resolve_alert` -/

/-- The assets that the gap check selects. -/
def selectGap (a : Asset) : Bool :=
  (a.edrStatus = some "None" || a.edrStatus = none) &&
    a.type ∈ ["Server", "Endpoint", "Workstation", "Database Server"]

/-- The alert for an asset without EDR. -/
def edrAlert (now : Time) (a : Asset) : Alert where
  alertType := .edrGap
  severity := .high
  title := "EDR coverage gap: " ++ a.name
  description := "No EDR agent detected on " ++ a.type ++ " asset"
  assetId := a.id
  createdAt := now

/-- `detect_edr_gaps`, up to the commit of its caller. -/
def detectEdrGaps (now : Time) (db : Database) : Except DbError Database := do
  let alerts ← (db.assets.rows.filter selectGap).foldlM
    (fun alerts a => raiseAlert now alerts (edrAlert now a)) db.alerts
  return { db with alerts := alerts }

/-- `resolve_alert`, for the alert that was created as the `n`-th. -/
def resolveAlert (n : ℕ) (alerts : List Alert) : List Alert :=
  alerts.modify n fun x => { x with status := .resolved }

/-! ## What an operation raises -/

/-- The new alerts are those of the calls for `keys` that the query let through. -/
def Raises (now : Time) (keys : List (AlertType × Option ℕ)) (alerts alerts' : List Alert) :
    Prop :=
  ∃ calls : List Alert, calls.map alertKey = keys ∧
    (∀ x ∈ calls, x.createdAt = now ∧ x.status = .open) ∧
    alerts' = alerts ++ fired now alerts calls

section Raises
variable {now : Time} {keys : List (AlertType × Option ℕ)} {alerts alerts' : List Alert}

theorem raises_nil (now : Time) (alerts : List Alert) : Raises now [] alerts alerts :=
  ⟨[], rfl, fun _ h => absurd h List.not_mem_nil, by simp [fired]⟩

/-- One call. -/
theorem raises_of_raiseAlert (hone : OneYoungOpen now alerts) {x : Alert}
    (hcreated : x.createdAt = now) (hopen : x.status = .open)
    (h : raiseAlert now alerts x = .ok alerts') : Raises now [alertKey x] alerts alerts' := by
  rw [raiseAlert_ok hone] at h
  refine ⟨[x], rfl, ?_, (Except.ok.inj h).symm⟩
  intro y hy
  rw [List.mem_singleton.mp hy]
  exact ⟨hcreated, hopen⟩

theorem Raises.oneYoungOpen (h : Raises now keys alerts alerts') (hkeys : keys.Nodup)
    (hone : OneYoungOpen now alerts) : OneYoungOpen now alerts' := by
  obtain ⟨calls, rfl, -, rfl⟩ := h
  exact oneYoungOpen_fired hone hkeys

theorem Raises.past (h : Raises now keys alerts alerts')
    (hpast : ∀ x ∈ alerts, x.createdAt ≤ now) : ∀ x ∈ alerts', x.createdAt ≤ now := by
  obtain ⟨calls, -, hcalls, rfl⟩ := h
  intro x hx
  rcases List.mem_append.mp hx with hx | hx
  · exact hpast x hx
  · exact (hcalls x (mem_fired.mp hx).1).1.le

/-- The alerts stay a day apart if and only if no call is for a type and asset of which a
resolved alert was created in the last 24 hours. -/
theorem Raises.dayApart_iff (h : Raises now keys alerts alerts') (hkeys : keys.Nodup)
    (hpast : ∀ x ∈ alerts, x.createdAt ≤ now) (hapart : DayApart alerts) :
    DayApart alerts' ↔
      ∀ k ∈ keys, ∀ x ∈ alerts, alertKey x = k → x.status = .resolved → ¬ Young now x := by
  obtain ⟨calls, rfl, hcalls, rfl⟩ := h
  have hnodup : ((fired now alerts calls).map alertKey).Nodup :=
    (List.filter_sublist.map alertKey).nodup hkeys
  have hone := hapart.oneRecent hpast
  have hiff : DayApart (alerts ++ fired now alerts calls) ↔
      ∀ x ∈ alerts, ∀ y ∈ fired now alerts calls, alertKey x = alertKey y → ¬ Young now x := by
    rw [DayApart, spaced_append]
    constructor
    · rintro ⟨-, -, hcross⟩ x hx y hy hkey
      have hgap := hcross x hx y hy hkey
      rw [(hcalls y (mem_fired.mp hy).1).1] at hgap
      exact not_recent_iff.mpr hgap
    · intro hcross
      refine ⟨hapart, spaced_of_nodup hnodup, fun x hx y hy hkey => ?_⟩
      rw [(hcalls y (mem_fired.mp hy).1).1]
      exact not_recent_iff.mp (hcross x hx y hy hkey)
  rw [hiff]
  constructor
  · intro hcross k hk x hx hkey hresolved hyoung
    obtain ⟨y, hy, rfl⟩ := List.mem_map.mp hk
    -- an open young alert of the key would be closer to `x` than a day
    have hfree : recentOpen now alerts y.alertType y.assetId = [] := by
      rw [List.eq_nil_iff_forall_not_mem]
      intro z hz
      obtain ⟨hopen, hzkey, hzyoung⟩ := mem_recentOpen.mp hz
      obtain ⟨hzmem, hzopen⟩ := mem_openAlerts.mp hopen
      have hxz : x = z := hone.eq_of_recent hx hzmem (hkey.trans hzkey.symm) hyoung hzyoung
      rw [← hxz, hresolved] at hzopen
      cases hzopen
    exact hcross x hx y (mem_fired.mpr ⟨hy, hfree⟩) hkey hyoung
  · intro hresolved x hx y hy hkey hyoung
    obtain ⟨hmem, hfree⟩ := mem_fired.mp hy
    have hstatus : x.status = .resolved := by
      cases hs : x.status with
      | resolved => rfl
      | «open» =>
        have hfound : x ∈ recentOpen now alerts y.alertType y.assetId :=
          mem_recentOpen.mpr ⟨mem_openAlerts.mpr ⟨hx, hs⟩, hkey, hyoung⟩
        rw [hfree] at hfound
        exact absurd hfound List.not_mem_nil
    exact hresolved (alertKey y) (List.mem_map_of_mem hmem) x hx hkey hstatus hyoung

end Raises

/-! ## The operations of the reconciler -/

/-- The operations; a report is handled at the time of the clock. -/
inductive Op where
  | reconcileHost (report : Report)
  | detectStaleAssets (thresholdDays : ℤ)
  | detectEdrGaps

/-- `_merge_source` sees a drift. -/
def Drifted (c : AssetColumns) (data : HostData) : Prop :=
  serviceNames (c.attrs.getD {}).services ≠ [] ∧ serviceNames data.services ≠ [] ∧
    sameSet (serviceNames (c.attrs.getD {}).services) (serviceNames data.services) = false

instance (c : AssetColumns) (data : HostData) : Decidable (Drifted c data) :=
  inferInstanceAs (Decidable (_ ∧ _))

/-- The type and the asset of the alert that a report calls for: a drift of the matched asset,
or a new shadow asset. -/
def reportCalls (A : Addressing) (db : Database) (r : Report) : List (AlertType × Option ℕ) :=
  match findExisting A db r.data with
  | .ok (some a) => if Drifted a.toAssetColumns r.data then [(.drift, some a.id)] else []
  | .ok none => if isShadow [r.source] then [(.shadowIt, some r.uuid)] else []
  | .error _ => []

/-- The types and assets for which an operation calls `_raise_alert`. -/
def calls (A : Addressing) (now : Time) (db : Database) : Op → List (AlertType × Option ℕ)
  | .reconcileHost r => reportCalls A db r
  | .detectStaleAssets n => (db.assets.rows.filter (selectStale now n)).map
      fun a => (.staleAsset, some a.id)
  | .detectEdrGaps => (db.assets.rows.filter selectGap).map fun a => (.edrGap, some a.id)

/-- What an operation commits, unless it raises. -/
def perform (A : Addressing) (isoformat : Time → String) (now : Time) (db : Database) :
    Op → Option Database
  | .reconcileHost r =>
    ((reconcileAndCommit A db { r with now := now }).map fun out => out.1).toOption
  | .detectStaleAssets n => (detectStaleAssets isoformat now n db).toOption
  | .detectEdrGaps => (detectEdrGaps now db).toOption

section Operations
variable {A : Addressing} {isoformat : Time → String} {now : Time} {db db' : Database}

theorem toOption_eq_some {ε α : Type*} {x : Except ε α} {a : α} :
    x.toOption = some a ↔ x = .ok a := by
  cases x <;> simp [Except.toOption]

theorem keys_nodup (db : Database) (p : Asset → Bool) (type : AlertType) :
    ((db.assets.rows.filter p).map fun a => (type, some a.id)).Nodup := by
  have hids : ((db.assets.rows.filter p).map fun a => a.id).Nodup :=
    (List.filter_sublist.map fun a : Asset => a.id).nodup db.assets.nodup
  have hmap : ((db.assets.rows.filter p).map fun a => (type, some a.id)) =
      ((db.assets.rows.filter p).map fun a => a.id).map fun i => (type, some i) := by simp
  rw [hmap]
  refine hids.map fun i j h => ?_
  simpa using h

/-- The alerts of a loop over selected assets. -/
theorem raises_of_loop (hone : OneYoungOpen now db.alerts) (p : Asset → Bool) (type : AlertType)
    (alert : Asset → Alert) (hkey : ∀ a, alertKey (alert a) = (type, some a.id))
    (hnew : ∀ a, (alert a).createdAt = now ∧ (alert a).status = .open) {alerts : List Alert}
    (h : (db.assets.rows.filter p).foldlM (fun alerts a => raiseAlert now alerts (alert a))
      db.alerts = .ok alerts) :
    Raises now ((db.assets.rows.filter p).map fun a => (type, some a.id)) db.alerts alerts := by
  have hkeys : ((db.assets.rows.filter p).map alert).map alertKey =
      (db.assets.rows.filter p).map fun a => (type, some a.id) := by
    rw [List.map_map]
    exact List.map_congr_left fun a _ => hkey a
  rw [← List.foldlM_map, raiseAll_ok hone (hkeys ▸ keys_nodup db p type)] at h
  refine ⟨(db.assets.rows.filter p).map alert, hkeys, fun x hx => ?_, (Except.ok.inj h).symm⟩
  obtain ⟨a, -, rfl⟩ := List.mem_map.mp hx
  exact hnew a

theorem staleAlerts_eq_foldlM (n : ℤ) (assets : List Asset) (alerts : List Alert) :
    staleAlerts isoformat now n alerts assets = assets.foldlM
      (fun alerts a => raiseAlert now alerts (staleAlert isoformat now n a)) alerts := by
  induction assets generalizing alerts with
  | nil => rfl
  | cons a assets ih =>
    rw [List.foldlM_cons, staleAlerts]
    cases raiseAlert now alerts (staleAlert isoformat now n a) with
    | error e => rfl
    | ok alerts => exact ih alerts

theorem driftAlert_raises (hone : OneYoungOpen now db.alerts) {c : AssetColumns} {data : HostData}
    {alerts : List Alert} (h : driftAlert now db.alerts c data = .ok alerts) :
    Raises now (if Drifted c data then [(.drift, some c.id)] else []) db.alerts alerts := by
  unfold driftAlert at h
  dsimp only at h
  split at h
  · rename_i hdrift
    rw [if_pos (show Drifted c data from hdrift)]
    exact raises_of_raiseAlert hone rfl rfl h
  · rename_i hsame
    rw [if_neg (show ¬ Drifted c data from hsame)]
    cases h
    exact raises_nil now db.alerts

theorem shadowAlert_raises (hone : OneYoungOpen now db.alerts) {c : AssetColumns} {source : String}
    {alerts : List Alert} (h : shadowAlert now db.alerts c source = .ok alerts) :
    Raises now (if c.isShadow then [(.shadowIt, some c.id)] else []) db.alerts alerts := by
  unfold shadowAlert at h
  by_cases hshadow : c.isShadow = true
  · rw [if_pos hshadow] at h ⊢
    exact raises_of_raiseAlert hone rfl rfl h
  · rw [if_neg hshadow] at h ⊢
    cases h
    exact raises_nil now db.alerts

theorem flushAsset_alerts {s s' : Session} {asset : AssetObject}
    (h : flushAsset A now s asset = .ok s') : s'.db.alerts = s.db.alerts := by
  unfold flushAsset at h
  split at h
  · cases h
    rfl
  · obtain ⟨ip, -, h⟩ := bind_eq_ok.mp h
    obtain ⟨mac, -, h⟩ := bind_eq_ok.mp h
    cases h
    rfl

theorem mergeSource_alerts {s s' : Session} {asset asset' : AssetObject} {source : String}
    {data : HostData} (h : mergeSource now s asset source data = .ok (s', asset')) :
    driftAlert now s.db.alerts asset.toAssetColumns data = .ok s'.db.alerts := by
  unfold mergeSource at h
  obtain ⟨alerts, hdrift, h⟩ := bind_eq_ok.mp h
  cases h
  exact hdrift

theorem createFromSource_alerts {uuid : ℕ} {s s' : Session} {asset : AssetObject}
    {source : String} {data : HostData}
    (h : createFromSource A now uuid s source data = .ok (s', asset)) :
    ∃ name type, newName data = some name ∧
      shadowAlert now s.db.alerts (newColumns now uuid source data name type) source =
        .ok s'.db.alerts := by
  unfold createFromSource at h
  split at h
  · rename_i name type hname htype
    obtain ⟨ip, -, h⟩ := bind_eq_ok.mp h
    obtain ⟨mac, -, h⟩ := bind_eq_ok.mp h
    split at h
    · cases h
    · obtain ⟨alerts, hshadow, h⟩ := bind_eq_ok.mp h
      cases h
      exact ⟨name, type, hname, hshadow⟩
  · cases h

/-- The alerts of a report are those of the drift of the matched asset, or of the created one. -/
theorem reconcile_alerts {r : Report} {i : ℕ} (h : reconcileAndCommit A db r = .ok (db', i)) :
    (∃ a ∈ db.assets.rows, findExisting A db r.data = .ok (some a) ∧
      driftAlert r.now db.alerts a.toAssetColumns r.data = .ok db'.alerts) ∨
    (findExisting A db r.data = .ok none ∧ ∃ name type, newName r.data = some name ∧
      shadowAlert r.now db.alerts (newColumns r.now r.uuid r.source r.data name type) r.source =
        .ok db'.alerts) := by
  unfold reconcileAndCommit reconcileHost at h
  obtain ⟨⟨s, asset⟩, hhost, h⟩ := bind_eq_ok.mp h
  obtain ⟨s', hflush, h⟩ := bind_eq_ok.mp h
  cases h
  obtain ⟨found, hfind, hhost⟩ := bind_eq_ok.mp hhost
  rw [flushAsset_alerts hflush]
  cases found with
  | some a =>
    have hdrift : driftAlert r.now db.alerts (loadAsset .empty a).2.toAssetColumns r.data =
        .ok s.db.alerts := mergeSource_alerts hhost
    rw [(loadAsset_spec _ a).1] at hdrift
    exact .inl ⟨a, findExisting_mem hfind, hfind, hdrift⟩
  | none => exact .inr ⟨hfind, createFromSource_alerts hhost⟩

theorem reconcile_raises {r : Report} (hone : OneYoungOpen r.now db.alerts) {i : ℕ}
    (h : reconcileAndCommit A db r = .ok (db', i)) :
    Raises r.now (reportCalls A db r) db.alerts db'.alerts := by
  rw [reportCalls]
  rcases reconcile_alerts h with ⟨a, -, hfind, hdrift⟩ | ⟨hfind, name, type, -, hshadow⟩
  · rw [hfind]
    exact driftAlert_raises hone hdrift
  · rw [hfind]
    exact shadowAlert_raises hone hshadow

theorem calls_nodup (A : Addressing) (now : Time) (db : Database) (op : Op) :
    (calls A now db op).Nodup := by
  cases op with
  | reconcileHost r =>
    show (reportCalls A db r).Nodup
    unfold reportCalls
    split
    · split <;> simp
    · split <;> simp
    · simp
  | detectStaleAssets n => exact keys_nodup db (selectStale now n) .staleAsset
  | detectEdrGaps => exact keys_nodup db selectGap .edrGap

/-- A report that gets through is committed. -/
theorem perform_reconcile {r : Report}
    (h : perform A isoformat now db (.reconcileHost r) = some db') :
    ∃ i, reconcileAndCommit A db { r with now := now } = .ok (db', i) := by
  simp only [perform] at h
  cases hrun : reconcileAndCommit A db { r with now := now } with
  | error e => simp [hrun, Except.map, Except.toOption] at h
  | ok out =>
    obtain rfl : out.1 = db' := by simpa [hrun, Except.map, Except.toOption] using h
    exact ⟨out.2, rfl⟩

/-- An operation that gets through raises what it calls for. -/
theorem perform_raises (hone : OneYoungOpen now db.alerts) {op : Op}
    (h : perform A isoformat now db op = some db') :
    Raises now (calls A now db op) db.alerts db'.alerts := by
  cases op with
  | reconcileHost r =>
    obtain ⟨i, hok⟩ := perform_reconcile h
    exact reconcile_raises (r := { r with now := now }) hone hok
  | detectStaleAssets n =>
    have hok := toOption_eq_some.mp h
    unfold detectStaleAssets at hok
    split at hok
    · cases hok
    · rename_i alerts hloop
      cases hok
      rw [staleAlerts_eq_foldlM] at hloop
      exact raises_of_loop hone (selectStale now n) .staleAsset _ (fun _ => rfl)
        (fun _ => ⟨rfl, rfl⟩) hloop
  | detectEdrGaps =>
    have hok := toOption_eq_some.mp h
    unfold detectEdrGaps at hok
    obtain ⟨alerts, hloop, hok⟩ := bind_eq_ok.mp hok
    cases hok
    exact raises_of_loop hone selectGap .edrGap _ (fun _ => rfl) (fun _ => ⟨rfl, rfl⟩) hloop

end Operations

/-! ## Histories -/

/-- What the distance of alerts depends on. -/
def stamps (alerts : List Alert) : List ((AlertType × Option ℕ) × Time) :=
  alerts.map fun x => (alertKey x, x.createdAt)

@[simp] theorem stamps_resolveAlert (n : ℕ) (alerts : List Alert) :
    stamps (resolveAlert n alerts) = stamps alerts := by
  induction alerts generalizing n with
  | nil => simp [resolveAlert]
  | cons x alerts ih =>
    cases n with
    | zero => rfl
    | succ n => exact congrArg (_ :: ·) (ih n)

theorem openAlerts_resolveAlert (n : ℕ) (alerts : List Alert) :
    List.Sublist (openAlerts (resolveAlert n alerts)) (openAlerts alerts) := by
  induction alerts generalizing n with
  | nil => simp [resolveAlert]
  | cons x alerts ih =>
    cases n with
    | zero =>
      show List.Sublist (openAlerts ([{ x with status := .resolved }] ++ alerts))
        (openAlerts ([x] ++ alerts))
      rw [openAlerts_append, openAlerts_append]
      exact List.sublist_append_right (openAlerts [x]) (openAlerts alerts)
    | succ n =>
      show List.Sublist (openAlerts ([x] ++ resolveAlert n alerts)) (openAlerts ([x] ++ alerts))
      rw [openAlerts_append, openAlerts_append]
      exact (ih n).append_left (openAlerts [x])

theorem past_of_stamps {alerts alerts' : List Alert} (h : stamps alerts' = stamps alerts)
    {now : Time} (hpast : ∀ x ∈ alerts, x.createdAt ≤ now) : ∀ x ∈ alerts', x.createdAt ≤ now := by
  intro x hx
  have hmem : (alertKey x, x.createdAt) ∈ stamps alerts := by
    rw [← h]
    exact List.mem_map_of_mem hx
  obtain ⟨y, hy, hxy⟩ := List.mem_map.mp hmem
  have htime : y.createdAt = x.createdAt := congrArg Prod.snd hxy
  exact htime ▸ hpast y hy

/-- The stored rows and the clock, which no alert is ahead of. -/
structure State where
  db : Database
  clock : Time
  past : ∀ x ∈ db.alerts, x.createdAt ≤ clock
  one : OneYoungOpen clock db.alerts

/-- Time passes, an operation runs, or an alert is resolved. -/
inductive Event where
  | wait (microseconds : ℕ)
  | perform (op : Op)
  | resolveAlert (n : ℕ)

section Histories
variable (A : Addressing) (isoformat : Time → String)

/-- One event; an operation that raises is rolled back. -/
def step (s : State) : Event → State
  | .wait microseconds =>
    { s with
      clock := s.clock + microseconds
      past := fun x hx => (s.past x hx).trans (Int.le_add_of_nonneg_right (Int.natCast_nonneg _))
      one := s.one.later (Int.le_add_of_nonneg_right (Int.natCast_nonneg _)) }
  | .perform op =>
    match h : perform A isoformat s.clock s.db op with
    | none => s
    | some db =>
      { s with
        db := db
        past := (perform_raises s.one h).past s.past
        one := (perform_raises s.one h).oneYoungOpen (calls_nodup A s.clock s.db op) s.one }
  | .resolveAlert n =>
    { s with
      db := { s.db with alerts := resolveAlert n s.db.alerts }
      past := past_of_stamps (stamps_resolveAlert n s.db.alerts) s.past
      one := OneRecent.sublist (openAlerts_resolveAlert n s.db.alerts) s.one }

/-- No operation that gets through calls for an alert of a type and asset of which a resolved
alert was created in the last 24 hours. -/
def Settled (s : State) : Event → Prop
  | .perform op => (perform A isoformat s.clock s.db op).isSome →
    ∀ k ∈ calls A s.clock s.db op, ∀ x ∈ s.db.alerts, alertKey x = k → x.status = .resolved →
      ¬ Young s.clock x
  | _ => True

variable {A isoformat}

theorem dayApart_iff_stamps {alerts : List Alert} :
    DayApart alerts ↔ Spaced Prod.fst Prod.snd (hours 24) (stamps alerts) := spaced_iff_stamps

theorem step_perform (s : State) (op : Op) :
    (step A isoformat s (.perform op)).db =
      (perform A isoformat s.clock s.db op).getD s.db := by
  simp only [step]
  split
  · rename_i h
    rw [h]
    rfl
  · rename_i db h
    exact (congrArg (fun found : Option Database => found.getD s.db) h).symm

/-- One event keeps the alerts a day apart if and only if it is settled. -/
theorem dayApart_step_iff {s : State} (hapart : DayApart s.db.alerts) (e : Event) :
    DayApart (step A isoformat s e).db.alerts ↔ Settled A isoformat s e := by
  cases e with
  | wait microseconds => exact iff_of_true hapart trivial
  | resolveAlert n =>
    refine iff_of_true ?_ trivial
    show DayApart (resolveAlert n s.db.alerts)
    rw [dayApart_iff_stamps, stamps_resolveAlert]
    exact dayApart_iff_stamps.mp hapart
  | perform op =>
    rw [step_perform]
    show _ ↔ ((perform A isoformat s.clock s.db op).isSome → _)
    cases h : perform A isoformat s.clock s.db op with
    | none => simpa using hapart
    | some db =>
      have hiff := (perform_raises s.one h).dayApart_iff (calls_nodup A s.clock s.db op) s.past
        hapart
      simpa using hiff

/-- No event takes an alert back or changes when it was created. -/
theorem stamps_step (s : State) (e : Event) :
    stamps s.db.alerts <+: stamps (step A isoformat s e).db.alerts := by
  cases e with
  | wait microseconds => exact List.prefix_rfl
  | resolveAlert n =>
    have hsame : stamps (resolveAlert n s.db.alerts) = stamps s.db.alerts :=
      stamps_resolveAlert n s.db.alerts
    exact ⟨[], (List.append_nil _).trans hsame.symm⟩
  | perform op =>
    rw [step_perform]
    cases h : perform A isoformat s.clock s.db op with
    | none => exact List.prefix_rfl
    | some db =>
      obtain ⟨raised, -, -, halerts⟩ := perform_raises s.one h
      show _ <+: stamps db.alerts
      rw [halerts]
      unfold stamps
      rw [List.map_append]
      exact List.prefix_append _ _

theorem stamps_run (s : State) (events : List Event) :
    stamps s.db.alerts <+: stamps (run (step A isoformat) s events).db.alerts := by
  induction events generalizing s with
  | nil => exact List.prefix_rfl
  | cons e events ih => exact (stamps_step s e).trans (ih (step A isoformat s e))

/-- After any history all alerts of one type and asset are at least 24 hours apart if and only if
every operation was settled. -/
theorem dayApart_run_iff (s : State) (hapart : DayApart s.db.alerts) (events : List Event) :
    DayApart (run (step A isoformat) s events).db.alerts ↔
      Along (step A isoformat) (Settled A isoformat) s events := by
  induction events generalizing s with
  | nil => exact iff_of_true hapart trivial
  | cons e events ih =>
    rw [run_cons]
    constructor
    · intro hend
      have hprefix : stamps (step A isoformat s e).db.alerts <+:
          stamps (run (step A isoformat) (step A isoformat s e) events).db.alerts :=
        stamps_run (step A isoformat s e) events
      have hnext : DayApart (step A isoformat s e).db.alerts :=
        dayApart_iff_stamps.mpr ((dayApart_iff_stamps.mp hend).sublist hprefix.sublist)
      exact ⟨(dayApart_step_iff hapart e).mp hnext, (ih _ hnext).mp hend⟩
    · rintro ⟨hsettled, hrest⟩
      exact (ih _ ((dayApart_step_iff hapart e).mpr hsettled)).mpr hrest

end Histories

/-- A server without EDR, before its first alert. -/
def State.uncovered : State where
  db := { Database.empty with
    assets := ⟨[
      { id := 0, name := "app-01", type := "Server", os := none, ip := some "10.0.0.9", mac := none,
        segment := none, edrStatus := some "None", controlCoverage := "none",
        networkExposure := "internal", authMethod := "password", criticality := "medium",
        dataClassification := "Internal", dependencies := none, softwareStack := none, cpe := none,
        eolStatus := false, riskScore := 0, riskTier := .informational, riskBreakdown := none,
        firstSeen := 0, lastSeen := 0, isShadow := false, isStale := false, tags := none,
        attrs := none, sources := some ["cmdb_servicenow"] }], by decide⟩ }
  clock := 0
  past := fun _ h => absurd h List.not_mem_nil
  one := List.Pairwise.nil

theorem dayApart_run_iff_uncovered :
    DayApart (run (step Addressing.canonical fun _ => "") State.uncovered
        [.perform .detectEdrGaps, .wait 1800, .perform .detectEdrGaps]).db.alerts ↔
      Along (step Addressing.canonical fun _ => "") (Settled Addressing.canonical fun _ => "")
        State.uncovered [.perform .detectEdrGaps, .wait 1800, .perform .detectEdrGaps] :=
  dayApart_run_iff State.uncovered List.Pairwise.nil _

/-- The alert about the gap is resolved, and half an hour later the check runs again. -/
def resolvedEarly : List Event :=
  [.perform .detectEdrGaps, .resolveAlert 0, .wait 1800, .perform .detectEdrGaps]

theorem resolved_gap_fires_again :
    ¬ DayApart (run (step Addressing.canonical fun _ => "") State.uncovered
      resolvedEarly).db.alerts := by
  decide +kernel

end Kepryx.AlertDeduplication
