import Kepryx.ReportRows
import Kepryx.Runs

/-!
# Service drift over a sequence of reports

The services of a report are compared with the one list that the last report about the asset
left in `attrs`, whatever source it came from. A creation leaves none there, and a report
without services leaves the empty list.
-/
namespace Kepryx.ServiceDrift
open Kepryx.Models Kepryx.Results Kepryx.Tables Kepryx.Runs Kepryx.Reconciler
open Kepryx.ReportHandling Kepryx.ReportRows

/-! ## Sequences of reports -/

/-- A committed report: the asset, the source, whether the asset was there before, and the
service names of the report. -/
structure Seen where
  asset : ℕ
  source : String
  merged : Bool
  names : List (Option String)
  deriving DecidableEq, Repr

/-- The database, and the committed reports, the latest first. -/
structure Ledger where
  db : Database
  seen : List Seen

def Ledger.start : Ledger := ⟨.empty, []⟩

/-- A report, or any change of the alerts by those who handle them. -/
inductive Event where
  | report (r : Report)
  | alerts (handled : List Alert)

/-- A committed report enters the ledger. -/
def record (A : Addressing) (l : Ledger) : Event → Ledger
  | .alerts handled => ⟨{ l.db with alerts := handled }, l.seen⟩
  | .report r =>
    match reconcileAndCommit A l.db r with
    | .ok (db', i) =>
      ⟨db', ⟨i, r.source, (l.db.assets.find i).isSome, serviceNames r.data.services⟩ :: l.seen⟩
    | .error _ => l

/-- The last report about an asset. -/
def lastReport (l : Ledger) (i : ℕ) : Option Seen := l.seen.find? fun e => e.asset = i

/-- The last set of service names, not empty, that a source reported for an asset. -/
def lastNames (l : Ledger) (source : String) (i : ℕ) : Option (List (Option String)) :=
  (l.seen.find? fun e => e.asset = i && e.source = source && e.names ≠ []).map (·.names)

/-- The report changes the set of service names that its source reported last for the asset. -/
def Changes (l : Ledger) (r : Report) (i : ℕ) : Prop :=
  ∃ old, lastNames l r.source i = some old ∧ serviceNames r.data.services ≠ [] ∧
    sameSet old (serviceNames r.data.services) = false

/-- A drift alert for the asset is open and younger than 24 hours. -/
def RecentlyAlerted (l : Ledger) (now : Time) (i : ℕ) : Prop :=
  recentOpen now l.db.alerts .drift (some i) ≠ []

/-- A report that changes the services of its source raises a drift alert for the asset, unless
there is a recent one. -/
def Detected (A : Addressing) (l : Ledger) : Event → Prop
  | .alerts _ => True
  | .report r => ∀ db' i, reconcileAndCommit A l.db r = .ok (db', i) → Changes l r i →
    RecentlyAlerted l r.now i ∨ ∃ alert, alert.alertType = .drift ∧ alert.assetId = some i ∧
      db'.alerts = l.db.alerts ++ [alert]

/-- The last report about the asset, of any source, did not create it and has service names that
differ from those of this report. -/
def Comparable (l : Ledger) (r : Report) (i : ℕ) : Prop :=
  ∃ e, lastReport l i = some e ∧ e.merged ∧ e.names ≠ [] ∧
    sameSet e.names (serviceNames r.data.services) = false

/-- A report that changes the services of its source comes right after one that it can be
compared with, unless there is a recent alert. -/
def FollowsComparable (A : Addressing) (l : Ledger) : Event → Prop
  | .alerts _ => True
  | .report r => ∀ db' i, reconcileAndCommit A l.db r = .ok (db', i) → Changes l r i →
    RecentlyAlerted l r.now i ∨ Comparable l r i

/-! ## What the rows hold -/

/-- The service names that the row of an asset is compared by. -/
def baseline (a : Asset) : List (Option String) := serviceNames (a.attrs.getD {}).services

/-- The names that the last report about an asset left to compare with. -/
def leftNames (e : Option Seen) : List (Option String) :=
  match e with
  | some e => if e.merged then e.names else []
  | none => []

/-- Every row holds what the last report about it left, and every reported asset has a row. -/
structure Kept (l : Ledger) : Prop where
  baseline : ∀ a ∈ l.db.assets.rows, ServiceDrift.baseline a = leftNames (lastReport l a.id)
  stored : ∀ e ∈ l.seen, (l.db.assets.find e.asset).isSome

theorem baseline_mergedRow (r : Report) (a : Asset) (ip mac : Option String) :
    baseline (mergedRow r a ip mac) = serviceNames r.data.services := by
  simp only [baseline, mergedRow, mergeColumns, Option.getD_some]
  cases r.data.services <;> rfl

/-- What a committed report did to the rows and to the alerts. -/
theorem reconcileAndCommit_effect {A : Addressing} {db db' : Database} {r : Report} {i : ℕ}
    (h : reconcileAndCommit A db r = .ok (db', i)) :
    (∃ a a', db.assets.find i = some a ∧ a'.id = i ∧ db'.assets = db.assets.put a' ∧
      baseline a' = serviceNames r.data.services ∧
      driftAlert r.now db.alerts a.toAssetColumns r.data = .ok db'.alerts) ∨
    (∃ a', db.assets.find i = none ∧ a'.id = i ∧ db.assets.insert? a' = some db'.assets ∧
      baseline a' = []) := by
  rcases reconcileAndCommit_cases h with ⟨a, -, hfind, ha, -⟩ | ⟨-, hfind, -⟩
  · left
    rw [reconcileAndCommit_merge hfind] at h
    obtain ⟨alerts, halerts, h⟩ := bind_eq_ok.mp h
    obtain ⟨ip, -, h⟩ := bind_eq_ok.mp h
    obtain ⟨mac, -, h⟩ := bind_eq_ok.mp h
    cases h
    exact ⟨a, mergedRow r a ip mac, Table.find_key ha, mergedRow_id r a ip mac, rfl,
      baseline_mergedRow r a ip mac, halerts⟩
  · right
    obtain ⟨name, type, ip, mac, -, -, -, hins, rfl⟩ := reconcileAndCommit_create hfind h
    exact ⟨createdRow r name type ip mac, (Table.insert?_eq_some hins).2, rfl, hins, rfl⟩

theorem lastReport_cons (db db' : Database) (e : Seen) (seen : List Seen) (i : ℕ) :
    lastReport ⟨db', e :: seen⟩ i =
      if e.asset = i then some e else lastReport ⟨db, seen⟩ i := by
  unfold lastReport
  rw [List.find?_cons]
  by_cases h : e.asset = i <;> simp [h]

theorem kept_record {A : Addressing} {l : Ledger} (hl : Kept l) (e : Event) :
    Kept (record A l e) := by
  cases e with
  | alerts handled => exact ⟨hl.baseline, hl.stored⟩
  | report r =>
    unfold record
    dsimp only
    split
    · rename_i db' i hc
      rcases reconcileAndCommit_effect hc with ⟨a, a', ha, hid, hput, hbase, -⟩ |
        ⟨a', hnone, hid, hins, hbase⟩
      · refine ⟨fun b hb => ?_, fun e he => ?_⟩
        · dsimp only at hb ⊢
          rw [lastReport_cons l.db]
          dsimp only
          rw [hput, Table.mem_put] at hb
          rcases hb with ⟨rfl, -⟩ | ⟨hb, hne⟩
          · rw [hbase, if_pos hid.symm]
            simp [leftNames, ha]
          · rw [if_neg fun he => hne (he.symm.trans hid.symm)]
            exact hl.baseline b hb
        · have hstored : (l.db.assets.find e.asset).isSome := by
            rcases List.mem_cons.mp he with rfl | he
            · simp [ha]
            · exact hl.stored e he
          dsimp only
          rw [hput]
          obtain ⟨b, hb⟩ := Option.isSome_iff_exists.mp hstored
          by_cases hk : e.asset = a'.id
          · rw [hk, Table.find_put_self (t := l.db.assets) (by rw [← hk, hb]; rfl)]
            rfl
          · rwa [Table.find_put_of_ne (t := l.db.assets) hk]
      · refine ⟨fun b hb => ?_, fun e he => ?_⟩
        · dsimp only at hb ⊢
          rw [lastReport_cons l.db]
          dsimp only
          rcases (Table.mem_insert? hins).mp hb with hb | rfl
          · have hbi : i ≠ b.id := by
              rintro rfl
              rw [show l.db.assets.find b.id = some b from Table.find_key hb] at hnone
              cases hnone
            rw [if_neg hbi]
            exact hl.baseline b hb
          · rw [hbase, if_pos hid.symm]
            simp [leftNames, hnone]
        · dsimp only
          rw [Table.find_insert? hins]
          rcases List.mem_cons.mp he with rfl | he
          · simp [hid]
          · have hstored := hl.stored e he
            split
            · rfl
            · exact hstored
    · exact hl

/-! ## When a change is detected -/

/-- A merge raises a drift alert, or finds a recent one, exactly when the names of the report
differ from those that the row is compared by. -/
theorem driftAlert_detects {now : Time} {alerts alerts' : List Alert} {a : Asset}
    {data : HostData} (hnew : serviceNames data.services ≠ [])
    (h : driftAlert now alerts a.toAssetColumns data = .ok alerts') :
    (recentOpen now alerts .drift (some a.id) ≠ [] ∨ ∃ alert : Alert,
      alert.alertType = .drift ∧ alert.assetId = some a.id ∧ alerts' = alerts ++ [alert]) ↔
    (recentOpen now alerts .drift (some a.id) ≠ [] ∨
      baseline a ≠ [] ∧ sameSet (baseline a) (serviceNames data.services) = false) := by
  unfold driftAlert at h
  dsimp only at h
  split at h
  · rename_i hdiff
    unfold raiseAlert at h
    obtain ⟨found, hquery, h⟩ := bind_eq_ok.mp h
    dsimp only at hquery
    have hbase : baseline a ≠ [] ∧ sameSet (baseline a) (serviceNames data.services) = false :=
      ⟨hdiff.1, hdiff.2.2⟩
    cases found with
    | some found =>
      have hrecent : recentOpen now alerts .drift (some a.id) ≠ [] := by
        rw [scalarOneOrNone_some hquery]
        exact List.cons_ne_nil _ _
      simp only [hrecent, ne_eq, not_false_eq_true, true_or]
    | none =>
      cases h
      exact iff_of_true (.inr ⟨_, rfl, rfl, rfl⟩) (.inr hbase)
  · rename_i hsame
    cases h
    refine or_congr_right ⟨?_, fun ⟨hbase, hdiff⟩ => absurd ⟨hbase, hnew, hdiff⟩ hsame⟩
    rintro ⟨alert, -, -, happ⟩
    exact absurd happ (by simp)

/-- A source that has reported about an asset has left a report about it. -/
theorem lastReport_of_names {l : Ledger} {source : String} {i : ℕ} {old : List (Option String)}
    (h : lastNames l source i = some old) : ∃ e, lastReport l i = some e ∧ e ∈ l.seen := by
  obtain ⟨e, he, -⟩ := Option.map_eq_some_iff.mp h
  have hmem := List.mem_of_find?_eq_some he
  have hasset : e.asset = i := by
    have := List.find?_some he
    simp only [Bool.and_eq_true, decide_eq_true_eq] at this
    exact this.1.1
  cases hlast : lastReport l i with
  | none =>
    have hnone := List.find?_eq_none.mp hlast e hmem
    simp [hasset] at hnone
  | some e' => exact ⟨e', rfl, List.mem_of_find?_eq_some hlast⟩

/-- As long as the rows hold what the last reports left, a change is detected exactly when the
last report about the asset can be compared with. -/
theorem detected_iff {A : Addressing} {l : Ledger} (hl : Kept l) (e : Event) :
    Detected A l e ↔ FollowsComparable A l e := by
  cases e with
  | alerts handled => exact Iff.rfl
  | report r =>
    refine forall₂_congr fun db' i => forall₂_congr fun hc hchange => ?_
    obtain ⟨old, hold, hnew, -⟩ := hchange
    obtain ⟨e, hlast, he⟩ := lastReport_of_names hold
    have hei : e.asset = i := by simpa using List.find?_some hlast
    rcases reconcileAndCommit_effect hc with ⟨a, a', ha, -, -, -, halerts⟩ | ⟨a', hnone, -⟩
    · obtain ⟨hmem, rfl⟩ := Table.find_eq_some.mp ha
      have hdetects := driftAlert_detects hnew halerts
      rw [hl.baseline a hmem, hlast] at hdetects
      unfold RecentlyAlerted Comparable
      rw [hdetects, hlast]
      refine or_congr_right ?_
      simp only [leftNames, Option.some.injEq, exists_eq_left']
      by_cases hm : e.merged <;> simp [hm]
    · have hstored := hl.stored e he
      rw [hei, hnone] at hstored
      cases hstored

theorem kept_start : Kept .start :=
  ⟨fun _ ha => absurd ha List.not_mem_nil, fun _ he => absurd he List.not_mem_nil⟩

/-- Over every sequence of reports, whatever happens to the alerts in between, every change of
the services that a source reports is detected exactly when each report with a change follows
one, about the same asset and of any source, that merged other service names, or a recent
alert. -/
theorem drift_detected_iff (A : Addressing) (events : List Event) :
    Along (record A) (Detected A) .start events ↔
      Along (record A) (FollowsComparable A) .start events :=
  along_iff_of_invariant Kept (fun _ e h => detected_iff h e) (fun _ e h _ => kept_record h e)
    kept_start events

/-- A scan of a host that finds some services. -/
def serviceScan (now : Time) (services : List String) : Event :=
  .report
    { source := "nmap_scan"
      data :=
        { mac := .value "aa:bb:cc:dd:ee:01"
          name := .value "db"
          services := .value (services.map fun s => [("service", s)]) }
      now := now
      uuid := 1 }

/-- The scan that creates an asset leaves nothing to compare the next scan with, so a service
that it finds open goes unnoticed. -/
theorem drift_missed :
    ¬ (∀ (A : Addressing) (events : List Event),
      Along (record A) (Detected A) .start events) := by
  intro h
  obtain ⟨-, hdetected, -⟩ := h .canonical
    [serviceScan 0 ["ssh"], serviceScan 3600000000 ["ssh", "telnet"]]
  have hchange : Changes (record .canonical .start (serviceScan 0 ["ssh"]))
      { source := "nmap_scan"
        data :=
          { mac := .value "aa:bb:cc:dd:ee:01"
            name := .value "db"
            services := .value [[("service", "ssh")], [("service", "telnet")]] }
        now := 3600000000
        uuid := 1 } 1 :=
    ⟨[some "ssh"], by decide +kernel, by decide +kernel, by decide +kernel⟩
  have hnone : ∀ alert ∈ (record .canonical (record .canonical .start (serviceScan 0 ["ssh"]))
      (serviceScan 3600000000 ["ssh", "telnet"])).db.alerts, alert.alertType ≠ .drift := by
    decide +kernel
  rcases hdetected _ _ rfl hchange with hrecent | ⟨alert, htype, -, happ⟩
  · exact hrecent (by decide +kernel)
  · refine hnone alert ?_ htype
    exact happ ▸ List.mem_append_right _ List.mem_cons_self

end Kepryx.ServiceDrift
