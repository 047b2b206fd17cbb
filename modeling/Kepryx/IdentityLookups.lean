import Kepryx.Runs
import Kepryx.ReportHandling

/-!
# When the identity lookups are unambiguous

`reconcile_host` looks an asset up by MAC, IP and name and expects at most one row
each time. No constraint of the schema says so: it holds as long as no report leaves in
its asset an identifier that another stored asset holds.
-/
namespace Kepryx.IdentityLookups
open Kepryx.Models Kepryx.Results Kepryx.Tables Kepryx.Runs Kepryx.Reconciler
open Kepryx.ReportHandling

/-- The columns that the lookups compare. -/
def identifiers : List Field := [.mac, .ip, .name]

/-- At most one asset has a given value of an identifier. -/
def Unambiguous (db : Database) : Prop :=
  ∀ f ∈ identifiers, ∀ v, ∀ a ∈ db.assets.rows, ∀ b ∈ db.assets.rows,
    field a.toAssetColumns f = some v → field b.toAssetColumns f = some v → a = b

/-- No lookup of any report finds more than one asset. -/
def LookupsDefined (A : Addressing) (db : Database) : Prop :=
  ∀ data, findExisting A db data ≠ .error .multipleResultsFound

/-- What an asset holds under an identifier after a report, whether the report is merged
into the asset that was found or inserts a new one. -/
def heldAfter (A : Addressing) (r : Report) : Option Asset → Field → Option String
  | some a, .ip => storedText A.inet a.ip (writtenText a r .ip)
  | some a, .mac => storedText A.macaddr a.mac (writtenText a r .mac)
  | some a, f => (writtenText a r f).or (field a.toAssetColumns f)
  | none, .ip => r.data.ip.get.bind A.inet
  | none, .mac => r.data.mac.get.bind A.macaddr
  | none, _ => newName r.data

/-- No other stored asset holds an identifier that the committed report leaves in its
asset. -/
def NoClash (A : Addressing) (db : Database) (r : Report) : Prop :=
  ∀ p, reconcileAndCommit A db r = .ok p → ∀ found, findExisting A db r.data = .ok found →
    ∀ f ∈ identifiers, ∀ v, heldAfter A r found f = some v →
      ∀ b ∈ db.assets.rows, field b.toAssetColumns f = some v → found = some b

theorem lookupBy_defined {db : Database} {column : Asset → Option String}
    (h : ∀ v, ∀ a ∈ db.assets.rows, ∀ b ∈ db.assets.rows,
      column a = some v → column b = some v → a = b) (value : Option String) :
    ∃ found, lookupBy db column value = .ok found := by
  cases value with
  | none => exact ⟨none, rfl⟩
  | some v =>
    refine ⟨_, scalarOneOrNone_ok (Table.filter_length_le_one fun a ha b hb hav hbv => ?_)⟩
    exact h v a ha b hb (by simpa using hav) (by simpa using hbv)

/-- With unambiguous identifiers a lookup can only fail on a MAC that is no address. -/
theorem lookups_defined {db : Database} (h : Unambiguous db) (A : Addressing) :
    LookupsDefined A db := by
  intro data herr
  have hfield : ∀ f ∈ identifiers, ∀ value,
      ∃ found, lookupBy db (fun a => field a.toAssetColumns f) value = .ok found :=
    fun f hf value => lookupBy_defined (h f hf) value
  unfold findExisting at herr
  cases hb : bindText A.macaddr data.mac.truthy with
  | error e =>
    have : e = .dataError := bindText_error hb
    simp [hb, this] at herr
  | ok m =>
    obtain ⟨byMac, hmac⟩ := hfield .mac (by decide) m
    obtain ⟨byIp, hip⟩ := hfield .ip (by decide) (data.ip.truthy.bind A.ipAddress)
    obtain ⟨byName, hname⟩ := hfield .name (by decide) (lookupName data)
    simp only [field] at hmac hip hname
    cases byMac <;> cases byIp <;> simp [hb, hmac, hip, hname] at herr

/-- The row that a report leaves holds the identifiers computed from the report and the
row that was found. -/
theorem field_outcome {A : Addressing} {r : Report} {found : Option Asset} {a' : Asset}
    (h : Outcome A r found a') {f : Field} (hf : f ∈ identifiers) :
    field a'.toAssetColumns f = heldAfter A r found f := by
  cases found with
  | some a =>
    simp only [identifiers, List.mem_cons, List.not_mem_nil, or_false] at hf
    rcases hf with rfl | rfl | rfl
    · exact h.mac
    · exact h.ip
    · exact h.name
  | none =>
    simp only [identifiers, List.mem_cons, List.not_mem_nil, or_false] at hf
    rcases hf with rfl | rfl | rfl
    · exact bindText_ok h.mac
    · exact bindText_ok h.ip
    · exact h.name.symm

/-- A report keeps the identifiers unambiguous exactly when it clashes with no asset. -/
theorem unambiguous_handle_iff {A : Addressing} {db : Database} (h : Unambiguous db)
    (r : Report) : NoClash A db r ↔ Unambiguous (handle A db r) := by
  cases hc : reconcileAndCommit A db r with
  | error e => simp [NoClash, hc, handle_of_error hc, h]
  | ok p =>
    obtain ⟨db', i⟩ := p
    obtain ⟨found, a', hcom, -⟩ := reconcileAndCommit_ok hc
    rw [handle_of_ok hc]
    constructor
    · intro hno f hf v
      have hother : ∀ b ∈ db.assets.rows, field a'.toAssetColumns f = some v →
          field b.toAssetColumns f = some v → found = some b := fun b hb hv =>
        hno _ hc found hcom.found_eq f hf v (field_outcome hcom.outcome hf ▸ hv) b hb
      intro a ha b hb hav hbv
      rcases (hcom.mem_rows a).mp ha with rfl | ⟨ha, hna⟩ <;>
        rcases (hcom.mem_rows b).mp hb with rfl | ⟨hb, hnb⟩
      · rfl
      · exact absurd (hother b hb hav hbv) hnb
      · exact absurd (hother a ha hbv hav) hna
      · exact h f hf v a ha b hb hav hbv
    · intro hun p' hp' found' hfound' f hf v hv b hb hbv
      rw [hcom.found_eq] at hfound'
      cases hfound'
      rw [← field_outcome hcom.outcome hf] at hv
      by_contra hne
      have hab := hun f hf v a' ((hcom.mem_rows a').mpr (.inl rfl)) b
        ((hcom.mem_rows b).mpr (.inr ⟨hb, hne⟩)) hv hbv
      exact hcom.other_id b hb hne (congrArg (fun x : Asset => x.id) hab).symm

theorem unambiguous_empty : Unambiguous .empty := by
  intro f _ v a ha
  cases ha

/-- From an empty inventory, every report leaves at most one asset for a MAC, an IP or a
name, and every lookup of a later report defined, exactly when no report of the sequence
leaves in its asset an identifier that another asset holds. -/
theorem lookups_unambiguous_iff (A : Addressing) (reports : List Report) :
    Along (handle A) (fun db r => Unambiguous (handle A db r) ∧ LookupsDefined A (handle A db r))
        .empty reports ↔
      Along (handle A) (NoClash A) .empty reports := by
  refine (along_iff_of_invariant Unambiguous (fun db r h => ?_) (fun db r h hno => ?_)
    unambiguous_empty reports).symm
  · rw [unambiguous_handle_iff h r]
    exact ⟨fun hun => ⟨hun, lookups_defined hun A⟩, And.left⟩
  · exact (unambiguous_handle_iff h r).mp hno

/-- Two devices, and the first one again with the address of the second. -/
def addressTaken : List Report :=
  let scan (i : ℕ) (mac ip name : String) : Report :=
    { source := "nmap_scan", uuid := i,
      data := { mac := .value mac, ip := .value ip, name := .value name } }
  [scan 1 "aa:bb:cc:dd:ee:01" "10.0.0.1" "x", scan 2 "aa:bb:cc:dd:ee:02" "10.0.0.2" "y",
    scan 3 "aa:bb:cc:dd:ee:01" "10.0.0.2" "x"]

/-- Both assets then hold that address, and a report that has nothing else fails. -/
theorem lookups_ambiguous :
    ¬ ∀ (A : Addressing) (reports : List Report),
      Along (handle A)
        (fun db r => Unambiguous (handle A db r) ∧ LookupsDefined A (handle A db r))
        .empty reports := by
  intro h
  obtain ⟨-, -, ⟨-, hdefined⟩, -⟩ := h .canonical addressTaken
  have hmany : findExisting .canonical (run (handle .canonical) .empty addressTaken)
      { ip := .value "10.0.0.2" } = .error .multipleResultsFound := by decide +kernel
  exact hdefined _ hmany

end Kepryx.IdentityLookups
