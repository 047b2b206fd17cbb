import Kepryx.RankedRegister
import Kepryx.ReportHandling

/-!
# Which source may change an authoritative field

The code keeps no provenance for a field: it compares the reporting source with the
maximum over all recorded sources. The provenance is a ghost here, and every field
of an asset object behaves as a register written by ranked sources.
-/
namespace Kepryx.SourcePriority
open Kepryx.Models Kepryx.Runs Kepryx.UnitOfWork Kepryx.RankedRegister
open Kepryx.Reconciler Kepryx.ReportHandling

theorem lookup_mem {s : String} {p : ℕ} (h : sourcePriority.lookup s = some p) :
    (s, p) ∈ sourcePriority := by
  obtain ⟨l, r, he, -⟩ := List.lookup_eq_some_iff.mp h
  simp [he]

/-- An unknown source has the least priority of all reporting sources. -/
theorem one_le_reportPriority (s : String) : 1 ≤ reportPriority s := by
  unfold reportPriority
  cases h : sourcePriority.lookup s with
  | none => simp
  | some p =>
    have hall : ∀ q ∈ sourcePriority, 1 ≤ q.2 := by decide
    exact hall _ (lookup_mem h)

/-- Unknown sources are recorded at 0 and report at 1, but nothing reports below 1. -/
theorem lt_recordedPriority {s t : String} (h : reportPriority s < reportPriority t) :
    reportPriority s < recordedPriority t := by
  unfold recordedPriority
  cases ht : sourcePriority.lookup t with
  | none =>
    have hone := one_le_reportPriority s
    have ht1 : reportPriority t = 1 := by simp [reportPriority, ht]
    omega
  | some p =>
    have htp : reportPriority t = p := by simp [reportPriority, ht]
    simpa [htp] using h

theorem existingPriority_le {sources : List String} {n : ℕ} :
    existingPriority sources ≤ n ↔ ∀ s ∈ sources, recordedPriority s ≤ n := by
  have hfold : ∀ (ps : List ℕ) (m : ℕ), ps.foldl max m ≤ n ↔ m ≤ n ∧ ∀ p ∈ ps, p ≤ n := by
    intro ps
    induction ps with
    | nil => simp
    | cons p ps ih => intro m; simp [ih, and_assoc]
  simp [existingPriority, hfold]

/-- An asset object with the source that last wrote each of its fields. -/
structure Tracked where
  session : Session
  asset : AssetObject
  writer : Field → String

/-- The recorded sources of the object. -/
def Tracked.sources (t : Tracked) : List String :=
  recorded t.session.heap t.asset.sources.current

/-- `_merge_source` executes `setattr` for the field. -/
def Writes (t : Tracked) (r : Report) (f : Field) : Prop :=
  existingPriority t.sources ≤ reportPriority r.source ∧ (r.data.field f).truthy.isSome

instance (t : Tracked) (r : Report) (f : Field) : Decidable (Writes t r f) :=
  inferInstanceAs (Decidable (_ ∧ _))

/-- Merge a report into the object. An exception is raised before any attribute is
assigned. -/
def mergeReport (t : Tracked) (r : Report) : Tracked :=
  match mergeSource r.now t.session t.asset r.source r.data with
  | .error _ => t
  | .ok (session, asset) =>
    ⟨session, asset, fun f => if Writes t r f then r.source else t.writer f⟩

/-- The register that a field of the object is. -/
def register (t : Tracked) (f : Field) : Register String (Option String) :=
  ⟨field t.asset.toAssetColumns f, t.writer f, t.sources⟩

/-- The object's list is readable, and the writer of each field is recorded in it. -/
structure Consistent (t : Tracked) : Prop where
  valid : Valid t.session.heap t.asset.sources.current
  writer_mem : ∀ f, t.writer f ∈ t.sources

theorem admits_iff (t : Tracked) (r : Report) (f : Field) :
    Admits reportPriority recordedPriority (register t f) r.source ↔
      existingPriority t.sources ≤ reportPriority r.source := existingPriority_le.symm

/-- A merge that does not raise is an offer to the register of each field. -/
theorem mergeReport_simulates {t : Tracked} (ht : Valid t.session.heap t.asset.sources.current)
    {r : Report} {session : Session} {asset : AssetObject}
    (h : mergeSource r.now t.session t.asset r.source r.data = .ok (session, asset)) (f : Field) :
    (register (mergeReport t r) f).value =
        (offer reportPriority recordedPriority (register t f)
          (r.source, (r.data.field f).truthy.map some)).value ∧
      (register (mergeReport t r) f).writer =
        (offer reportPriority recordedPriority (register t f)
          (r.source, (r.data.field f).truthy.map some)).writer := by
  obtain ⟨_, _, _, hcols, _, _⟩ := mergeSource_ok ht h
  have hmerge : mergeReport t r =
      ⟨session, asset, fun f => if Writes t r f then r.source else t.writer f⟩ := by
    simp [mergeReport, h]
  have hvalue : field asset.toAssetColumns f =
      if existingPriority t.sources ≤ reportPriority r.source
      then (r.data.field f).truthy.or (field t.asset.toAssetColumns f)
      else field t.asset.toAssetColumns f := by
    rw [hcols, field_mergeColumns]
    rfl
  rw [hmerge]
  cases hv : (r.data.field f).truthy with
  | none => simp [register, hvalue, offer, Writes, hv]
  | some v =>
    by_cases ha : existingPriority t.sources ≤ reportPriority r.source
    · rw [Option.map_some, offer_admitted ((admits_iff t r f).mpr ha)]
      simp [register, hvalue, Writes, hv, ha]
    · rw [Option.map_some, offer_rejected (fun h => ha ((admits_iff t r f).mp h))]
      simp [register, hvalue, Writes, ha]

theorem mergeReport_sources {t : Tracked} (ht : Valid t.session.heap t.asset.sources.current)
    {r : Report} {session : Session} {asset : AssetObject}
    (h : mergeSource r.now t.session t.asset r.source r.data = .ok (session, asset)) :
    session.heap.value asset.sources.current = some (withSource t.sources r.source) :=
  mergeSource_recorded ht h

theorem mergeReport_consistent {t : Tracked} (ht : Consistent t) (r : Report) :
    Consistent (mergeReport t r) := by
  cases h : mergeSource r.now t.session t.asset r.source r.data with
  | error e =>
    have hsame : mergeReport t r = t := by simp [mergeReport, h]
    rw [hsame]
    exact ht
  | ok p =>
    obtain ⟨session, asset⟩ := p
    have hsrc := mergeReport_sources ht.valid h
    have hvalue : (mergeReport t r).session.heap.value (mergeReport t r).asset.sources.current =
        some (withSource t.sources r.source) := by
      simp only [mergeReport, h]
      exact hsrc
    refine ⟨fun _ => by simp [hvalue], fun f => ?_⟩
    have hwriter := (mergeReport_simulates ht.valid h f).2
    have hmem : t.writer f ∈ t.sources := ht.writer_mem f
    have hseen : (register (mergeReport t r) f).writer ∈ t.sources ∨
        (register (mergeReport t r) f).writer = r.source := by
      rw [hwriter]
      exact mem_seen_offer.mp (writer_mem_offer hmem _)
    simpa [Tracked.sources, recorded, hvalue, register] using hseen

/-- What a report leaves in a field, when its source ranks below the last writer or it has
no value for the field. -/
theorem field_mergeReport {t : Tracked} (ht : Consistent t) {r : Report} {f : Field}
    (h : reportPriority r.source < reportPriority (t.writer f) ∨ (r.data.field f).truthy = none) :
    field (mergeReport t r).asset.toAssetColumns f = field t.asset.toAssetColumns f := by
  cases hm : mergeSource r.now t.session t.asset r.source r.data with
  | error e => simp [mergeReport, hm]
  | ok p =>
    obtain ⟨hvalue, -⟩ := mergeReport_simulates ht.valid hm f
    apply Eq.trans hvalue
    rcases h with hlt | hnone
    · exact offer_lower (ht.writer_mem f) (fun _ _ => lt_recordedPriority) hlt
    · rw [hnone]
      rfl

/-- The object that a first report creates, written by its source. -/
def create (A : Addressing) (s : Session) (r : Report) : Except DbError Tracked :=
  (createFromSource A r.now r.uuid s r.source r.data).map fun p =>
    ⟨p.1, p.2, fun _ => r.source⟩

theorem create_consistent {A : Addressing} {s : Session} {r : Report} {t : Tracked}
    (h : create A s r = .ok t) : Consistent t := by
  unfold create at h
  cases hc : createFromSource A r.now r.uuid s r.source r.data with
  | error e => simp [hc, Except.map] at h
  | ok p =>
    obtain ⟨s', asset⟩ := p
    simp only [hc, Except.map, Except.ok.injEq] at h
    subst h
    have hread := createFromSource_sources hc
    exact ⟨fun _ => by simp [hread], fun f => by simp [Tracked.sources, recorded, hread]⟩

/-- In every life of an asset object, a field last written by one source is not changed by
a report of a source with a lower priority, nor by a report without a value for it. -/
theorem higher_priority_kept (A : Addressing) (s : Session) (first : Report) (t : Tracked)
    (hcreate : create A s first = .ok t) (reports : List Report) (r : Report) (f : Field)
    (h : reportPriority r.source < reportPriority ((run mergeReport t reports).writer f) ∨
      (r.data.field f).truthy = none) :
    field (mergeReport (run mergeReport t reports) r).asset.toAssetColumns f =
      field (run mergeReport t reports).asset.toAssetColumns f := by
  have hconsistent : Consistent (run mergeReport t reports) :=
    run_invariant Consistent (fun _ r ht => mergeReport_consistent ht r)
      (create_consistent hcreate) reports
  exact field_mergeReport hconsistent h

/-- An EDR report creates the asset, the directory renames nothing and adds a segment, and a
network scan then leaves the name alone. -/
theorem higher_priority_kept_edr :
    let edr : Report :=
      { source := "edr_crowdstrike",
        data := { name := .value "srv-01", mac := .value "aa:bb:cc:dd:ee:01" } }
    let ad : Report := { source := "ad_ldap", data := { name := .value "SRV01.corp" } }
    let scan : Report := { source := "nmap_scan", data := { name := .value "10.0.0.7" } }
    ∃ t, create .canonical ⟨.empty, .empty⟩ edr = .ok t ∧
      field (mergeReport (run mergeReport t [ad]) scan).asset.toAssetColumns .name =
        field (run mergeReport t [ad]).asset.toAssetColumns .name := by
  intro edr ad scan
  exact ⟨_, rfl, higher_priority_kept .canonical ⟨.empty, .empty⟩ edr _ rfl [ad] scan .name
    (.inl (by decide))⟩

end Kepryx.SourcePriority
