import Kepryx.Runs
import Kepryx.ReportHandling

/-!
# Assets and the MAC addresses of their reports

Every report of a sequence carries a MAC. A MAC that no asset has falls back to the
address and then to the name, so a report can reach the asset of another device. What
holds of every sequence is that no two assets share a MAC; that assets and MACs are in
bijection needs that no report is merged through the fallback.
-/
namespace Kepryx.DeviceIdentity
open Kepryx.Models Kepryx.Tables Kepryx.Runs Kepryx.Reconciler Kepryx.ReportHandling

/-- A report that carries a MAC. -/
abbrev MacReport := {r : Report // r.data.mac.truthy.isSome}

/-- The MAC of a report as the column type stores it. -/
def reportedMac (A : Addressing) (r : Report) : Option String :=
  r.data.mac.truthy.bind A.macaddr

/-- The database, and the MAC of every committed report beside the asset that it was merged
into or created. -/
structure Ledger where
  db : Database
  carried : List (ℕ × Option String)

def Ledger.start : Ledger := ⟨.empty, []⟩

/-- A committed report enters the ledger. -/
def record (A : Addressing) (l : Ledger) (r : MacReport) : Ledger :=
  match reconcileAndCommit A l.db r.1 with
  | .ok (db', i) => ⟨db', (i, reportedMac A r.1) :: l.carried⟩
  | .error _ => l

/-- No two assets share a MAC, and each has the MAC of a report. -/
structure AtMostOnePerMac (l : Ledger) : Prop where
  injective : ∀ a ∈ l.db.assets.rows, ∀ b ∈ l.db.assets.rows, a.mac = b.mac → a = b
  reported : ∀ a ∈ l.db.assets.rows, a.mac.isSome ∧ ∃ i, (i, a.mac) ∈ l.carried

/-- Every report merged into an asset carried that asset's MAC. -/
def CarriedItsMac (l : Ledger) : Prop :=
  ∀ i m, (i, m) ∈ l.carried → ∃ a ∈ l.db.assets.rows, a.id = i ∧ a.mac = m

/-- There is exactly one asset for each MAC reported so far, no other asset, and every
report merged into an asset carried that asset's MAC. -/
structure OnePerMac (l : Ledger) : Prop where
  exactly_one : ∀ i m, (i, m) ∈ l.carried → ∃! a, a ∈ l.db.assets.rows ∧ a.mac = m
  no_other : ∀ a ∈ l.db.assets.rows, ∃ i, (i, a.mac) ∈ l.carried
  carried : CarriedItsMac l

/-- A committed report that is merged into a stored asset found it by its MAC. -/
def FoundByMac (A : Addressing) (l : Ledger) (r : MacReport) : Prop :=
  ∀ p, reconcileAndCommit A l.db r.1 = .ok p →
    ∀ a, findExisting A l.db r.1.data = .ok (some a) → a.mac = reportedMac A r.1

/-- A report reaches an asset of another MAC only if no asset has the reported one, and the
asset has the reported address or, when no asset has that, the reported name. -/
def FallsBack (A : Addressing) (l : Ledger) (r : MacReport) : Prop :=
  ∀ a, findExisting A l.db r.1.data = .ok (some a) → a.mac ≠ reportedMac A r.1 →
    (∀ b ∈ l.db.assets.rows, b.mac ≠ reportedMac A r.1) ∧
    ((a.ip.isSome ∧ a.ip = r.1.data.ip.truthy.bind A.ipAddress) ∨
      ((∀ b ∈ l.db.assets.rows, b.ip.isSome → b.ip ≠ r.1.data.ip.truthy.bind A.ipAddress) ∧
        some a.name = lookupName r.1.data))

/-- The lookups of a report with a MAC bind that MAC. -/
theorem bindText_mac {A : Addressing} {r : MacReport} {m : Option String}
    (h : bindText A.macaddr r.1.data.mac.truthy = .ok m) :
    m = reportedMac A r.1 ∧ m.isSome := by
  refine ⟨bindText_ok h, ?_⟩
  obtain ⟨t, ht⟩ := Option.isSome_iff_exists.mp r.2
  rw [ht] at h
  cases hc : A.macaddr t with
  | none => simp [bindText, hc] at h
  | some w => simp only [bindText, hc, Except.ok.injEq] at h; simp [← h]

theorem falls_back (A : Addressing) (l : Ledger) (r : MacReport) : FallsBack A l r := by
  intro a hfind hne
  have hnomac : ∀ m, bindText A.macaddr r.1.data.mac.truthy = .ok m →
      lookupBy l.db (fun a => a.mac) m = .ok none →
      ∀ b ∈ l.db.assets.rows, b.mac ≠ reportedMac A r.1 := by
    intro m hm hnone
    obtain ⟨rfl, hsome⟩ := bindText_mac hm
    obtain ⟨v, hv⟩ := Option.isSome_iff_exists.mp hsome
    rw [hv] at hnone ⊢
    exact lookupBy_none hnone
  cases (findExisting_some hfind).2 with
  | mac m hm ha => exact absurd (ha.trans (bindText_mac hm).1) hne
  | ip m hm hnone v hv ha =>
    exact ⟨hnomac m hm hnone, .inl ⟨by simp [ha], ha.trans hv.symm⟩⟩
  | name m hm hnone hnoip ha =>
    refine ⟨hnomac m hm hnone, .inr ⟨fun b hb hsome he => ?_, ha⟩⟩
    obtain ⟨v, hv⟩ := Option.isSome_iff_exists.mp hsome
    rw [← he, hv] at hnoip
    exact lookupBy_none hnoip b hb hv

/-- The MAC that a report leaves in its asset: the reported one, or the one the asset had
when it keeps it. -/
theorem outcome_mac {A : Addressing} {r : MacReport} {found : Option Asset} {a' : Asset}
    (h : Outcome A r.1 found a') (hmac : ∀ a, found = some a → a.mac.isSome) :
    a'.mac.isSome ∧ (a'.mac = reportedMac A r.1 ∨ ∃ a, found = some a ∧ a'.mac = a.mac) := by
  obtain ⟨t, ht⟩ := Option.isSome_iff_exists.mp r.2
  cases found with
  | none =>
    have hget : r.1.data.mac.get = some t := by
      rw [(Entry.truthy_eq_some.mp ht).1]
      rfl
    have hbind : bindText A.macaddr r.1.data.mac.truthy = .ok a'.mac := by
      rw [ht, ← hget]
      exact h.mac
    obtain ⟨he, hsome⟩ := bindText_mac hbind
    exact ⟨hsome, .inl he⟩
  | some a =>
    have hstored := h.mac
    have hsome := h.mac_isSome
    have hwritten : writtenText a r.1 .mac = none ∨ writtenText a r.1 .mac = some t := by
      unfold writtenText
      split
      · exact .inr ht
      · exact .inl rfl
    rcases hwritten with hw | hw
    · simp only [hw, storedText] at hstored
      exact ⟨hstored ▸ hmac a rfl, .inr ⟨a, rfl, hstored⟩⟩
    · refine ⟨hsome (by simp [hw]), ?_⟩
      simp only [hw, storedText] at hstored
      split at hstored
      · exact .inr ⟨a, rfl, hstored⟩
      · refine .inl ?_
        rw [hstored, reportedMac, ht]
        rfl

/-- The reported MAC is held by no asset but the one that was found. -/
theorem reportedMac_fresh {A : Addressing} {l : Ledger} {r : MacReport} {found : Option Asset}
    (hl : AtMostOnePerMac l) (hfind : findExisting A l.db r.1.data = .ok found)
    {b : Asset} (hb : b ∈ l.db.assets.rows) (hne : found ≠ some b) :
    b.mac ≠ reportedMac A r.1 := by
  cases found with
  | none =>
    obtain ⟨m, hm, hnone, -⟩ := findExisting_none hfind
    obtain ⟨rfl, hsome⟩ := bindText_mac hm
    obtain ⟨v, hv⟩ := Option.isSome_iff_exists.mp hsome
    rw [hv] at hnone ⊢
    exact lookupBy_none hnone b hb
  | some a =>
    by_cases he : a.mac = reportedMac A r.1
    · intro hbm
      exact hne (congrArg some (hl.injective a (findExisting_mem hfind) b hb (he.trans hbm.symm)))
    · exact (falls_back A l r a hfind he).1 b hb

/-- Every report keeps the MACs of the assets apart. -/
theorem atMostOnePerMac_record {A : Addressing} {l : Ledger} (hl : AtMostOnePerMac l)
    (r : MacReport) : AtMostOnePerMac (record A l r) := by
  unfold record
  cases hc : reconcileAndCommit A l.db r.1 with
  | error e => exact hl
  | ok p =>
    obtain ⟨db', i⟩ := p
    obtain ⟨found, a', hcom, rfl⟩ := reconcileAndCommit_ok hc
    have hfound : ∀ a, found = some a → a ∈ l.db.assets.rows := by
      rintro a rfl
      exact findExisting_mem hcom.found_eq
    obtain ⟨hsome, hmac⟩ := outcome_mac hcom.outcome fun a ha => (hl.reported a (hfound a ha)).1
    have hother : ∀ b ∈ l.db.assets.rows, found ≠ some b → b.mac ≠ a'.mac := by
      intro b hb hne he
      rcases hmac with hr | ⟨a, ha, hold⟩
      · exact reportedMac_fresh hl hcom.found_eq hb hne (he.trans hr)
      · rw [hl.injective b hb a (hfound a ha) (he.trans hold)] at hne
        exact hne ha
    constructor
    · intro a ha b hb hab
      rcases (hcom.mem_rows a).mp ha with rfl | ⟨haOld, hna⟩ <;>
        rcases (hcom.mem_rows b).mp hb with rfl | ⟨hbOld, hnb⟩
      · rfl
      · exact absurd hab.symm (hother b hbOld hnb)
      · exact absurd hab (hother a haOld hna)
      · exact hl.injective a haOld b hbOld hab
    · intro b hb
      rcases (hcom.mem_rows b).mp hb with rfl | ⟨hb, -⟩
      · refine ⟨hsome, ?_⟩
        rcases hmac with hr | ⟨a, ha, hold⟩
        · exact ⟨b.id, by simp [hr]⟩
        · obtain ⟨i, hi⟩ := (hl.reported a (hfound a ha)).2
          exact ⟨i, by simp [hold, hi]⟩
      · obtain ⟨hs, i, hi⟩ := hl.reported b hb
        exact ⟨hs, i, List.mem_cons_of_mem _ hi⟩

/-- A report that does not fall back is recorded under the MAC of its asset. -/
theorem carriedItsMac_record {A : Addressing} {l : Ledger} (hl : AtMostOnePerMac l)
    (hcarried : CarriedItsMac l) {r : MacReport} (hr : FoundByMac A l r) :
    CarriedItsMac (record A l r) := by
  unfold record
  cases hc : reconcileAndCommit A l.db r.1 with
  | error e => exact hcarried
  | ok p =>
    obtain ⟨db', i⟩ := p
    obtain ⟨found, a', hcom, rfl⟩ := reconcileAndCommit_ok hc
    have hfound : ∀ a, found = some a → a ∈ l.db.assets.rows ∧ a.mac = reportedMac A r.1 := by
      rintro a rfl
      exact ⟨findExisting_mem hcom.found_eq, hr _ hc a hcom.found_eq⟩
    have hmac : a'.mac = reportedMac A r.1 := by
      obtain ⟨-, hmac | ⟨a, ha, hold⟩⟩ :=
        outcome_mac hcom.outcome fun a ha => (hl.reported a (hfound a ha).1).1
      · exact hmac
      · exact hold.trans (hfound a ha).2
    intro j m hjm
    rcases List.mem_cons.mp hjm with he | hold
    · cases he
      exact ⟨a', (hcom.mem_rows a').mpr (.inl rfl), rfl, hmac⟩
    · obtain ⟨b, hb, rfl, rfl⟩ := hcarried j m hold
      by_cases hfb : found = some b
      · have hid : a'.id = b.id := by
          have hout := hcom.outcome
          rw [hfb] at hout
          exact hout.id
        exact ⟨a', (hcom.mem_rows a').mpr (.inl rfl), hid,
          hmac.trans (hfound b hfb).2.symm⟩
      · exact ⟨b, (hcom.mem_rows b).mpr (.inr ⟨hb, hfb⟩), rfl, rfl⟩

theorem onePerMac_of_carried {l : Ledger} (hl : AtMostOnePerMac l) (hc : CarriedItsMac l) :
    OnePerMac l := by
  refine ⟨fun i m h => ?_, fun a ha => (hl.reported a ha).2, hc⟩
  obtain ⟨a, ha, -, hm⟩ := hc i m h
  exact ⟨a, ⟨ha, hm⟩, fun b hb => hl.injective b hb.1 a ha (hb.2.trans hm.symm)⟩

theorem atMostOnePerMac_start : AtMostOnePerMac .start :=
  ⟨fun _ ha => (List.not_mem_nil ha).elim, fun _ ha => (List.not_mem_nil ha).elim⟩

theorem carriedItsMac_start : CarriedItsMac .start := fun _ _ h => (List.not_mem_nil h).elim

/-- After every sequence of reports with a MAC no two assets share a MAC and each has a
reported one; a further report reaches an asset of another MAC only by falling back to the
address or the name. As long as none of the reports did, there is exactly one asset for
each MAC reported and every report merged into an asset carried that asset's MAC. -/
theorem at_most_one_asset_per_mac (A : Addressing) (reports : List MacReport) :
    AtMostOnePerMac (run (record A) .start reports) ∧
    (∀ r, FallsBack A (run (record A) .start reports) r) ∧
    (Along (record A) (FoundByMac A) .start reports →
      OnePerMac (run (record A) .start reports)) := by
  have hinv : AtMostOnePerMac (run (record A) .start reports) :=
    run_invariant AtMostOnePerMac (fun _ r hl => atMostOnePerMac_record hl r)
      atMostOnePerMac_start reports
  refine ⟨hinv, falls_back A _, fun halong => onePerMac_of_carried hinv ?_⟩
  have hboth : AtMostOnePerMac (run (record A) .start reports) ∧
      CarriedItsMac (run (record A) .start reports) :=
    run_invariant_along (fun l => AtMostOnePerMac l ∧ CarriedItsMac l)
      (fun _ r hl hr => ⟨atMostOnePerMac_record hl.1 r, carriedItsMac_record hl.1 hl.2 hr⟩)
      ⟨atMostOnePerMac_start, carriedItsMac_start⟩ halong
  exact hboth.2

/-- Two devices that report one address become one asset. -/
theorem two_macs_one_asset :
    ¬ ∀ (A : Addressing) (reports : List MacReport), OnePerMac (run (record A) .start reports) := by
  intro h
  let scan (mac : String) (hmac : (Entry.value mac).truthy.isSome) : MacReport :=
    ⟨{ source := "nmap_scan", data := { mac := .value mac, ip := .value "10.0.0.1" } }, hmac⟩
  let reports := [scan "aa:bb:cc:dd:ee:01" rfl, scan "aa:bb:cc:dd:ee:02" rfl]
  have hrun := h .canonical reports
  obtain ⟨a, ⟨ha, hmac⟩, -⟩ :=
    hrun.exactly_one 0 (some "aa:bb:cc:dd:ee:01") (List.mem_cons_of_mem _ List.mem_cons_self)
  have hmacs : ∀ b ∈ (run (record .canonical) .start reports).db.assets.rows,
      b.mac = some "aa:bb:cc:dd:ee:02" := by decide +kernel
  rw [hmacs a ha] at hmac
  exact absurd hmac (by decide +kernel)

end Kepryx.DeviceIdentity
