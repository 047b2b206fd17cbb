import Kepryx.ComplianceAudit

/-!
# One turn of the audit

What a turn of the loop can do, the distinct keys and alert titles of the turns, and which rows
a turn leaves alone.
-/
namespace Kepryx.AuditLoop
open Kepryx.Models Kepryx.Tables Kepryx.Results Kepryx.CompliancePercentages
open Kepryx.ComplianceCatalog Kepryx.ComplianceAudit

variable {P : Primitives} {inputs : Inputs} {runId : ℕ}

/-- A turn whose control is missing changes nothing; any other leaves one record. -/
theorem assessControl_ok {st st' : Loop} {t : Turn}
    (h : assessControl P inputs runId st t = .ok st') :
    (inputs.catalog.lookup (t.framework, t.controlId) = none ∧ st' = st) ∨
    ∃ control catalog mappings index alerts,
      inputs.catalog.lookup (t.framework, t.controlId) = some (control, catalog) ∧
      writeMapping st.db.mappings st.mappingByKey ⟨runId, st.draws + 2⟩
        (newRecord P runId st.draws inputs.now t control catalog) = .ok (mappings, index) ∧
      writeAlert st.db.alerts ⟨runId, st.draws + 3⟩
        (newRecord P runId st.draws inputs.now t control catalog) = .ok alerts ∧
      st' = st.advance (newRecord P runId st.draws inputs.now t control catalog)
        mappings index alerts := by
  unfold assessControl at h
  split at h
  · rename_i hnone
    cases h
    exact .inl ⟨hnone, rfl⟩
  · rename_i control catalog hsome
    obtain ⟨-, -, h⟩ := bind_eq_ok.mp h
    obtain ⟨⟨mappings, index⟩, hmapping, h⟩ := bind_eq_ok.mp h
    obtain ⟨alerts, halert, h⟩ := bind_eq_ok.mp h
    cases h
    exact .inr ⟨control, catalog, mappings, index, alerts, hsome, hmapping, halert, rfl⟩

/-! ## The turns -/

/-- The frameworks and controls of the catalog. -/
def labels : List (String × String) := catalogControls.map fun c => (c.1, c.2.1)

theorem labels_nodup : labels.Nodup := by decide

theorem mem_turns {assets : List AssessedAsset} {t : Turn} :
    t ∈ turns assets ↔
      t.asset ∈ assets ∧ (t.framework, t.controlId, t.rule) ∈ catalogControls := by
  simp only [turns, List.mem_flatMap, List.mem_map]
  constructor
  · rintro ⟨a, ha, c, hc, rfl⟩
    exact ⟨ha, hc⟩
  · rintro ⟨ha, hc⟩
    exact ⟨t.asset, ha, _, hc, rfl⟩

theorem label_of_mem_turns {assets : List AssessedAsset} {t : Turn} (h : t ∈ turns assets) :
    (t.framework, t.controlId) ∈ labels :=
  List.mem_map_of_mem (f := fun c : String × String × ControlRule => (c.1, c.2.1))
    (mem_turns.mp h).2

/-- Two turns of one audit have different keys. -/
theorem turns_nodup (assets : Table fun a : AssessedAsset => a.id) :
    ((turns assets.rows).map Turn.key).Nodup := by
  have hkeys : (turns assets.rows).map Turn.key =
      (assets.rows.map fun a => a.id).flatMap fun id => labels.map fun l => (l.1, l.2, id) := by
    simp only [turns, labels, List.map_flatMap, List.map_map, List.flatMap_map]
    rfl
  rw [hkeys, List.nodup_flatMap]
  constructor
  · intro id _
    refine labels_nodup.map fun l l' h => ?_
    have h₁ := congrArg (fun k : Key => k.1) h
    have h₂ := congrArg (fun k : Key => k.2.1) h
    exact Prod.ext h₁ h₂
  · refine assets.nodup.imp fun {id id'} hne => ?_
    intro key hkey hkey'
    obtain ⟨l, -, rfl⟩ := List.mem_map.mp hkey
    obtain ⟨l', -, h⟩ := List.mem_map.mp hkey'
    exact hne (congrArg (fun k : Key => k.2.2) h).symm

/-- The title of an alert about a control of a framework. -/
def titleOf (label : String × String) (name : String) : String :=
  "Compliance gap: " ++ label.1 ++ " " ++ label.2 ++ " on " ++ name

/-- What a title has between its fixed start and the name. -/
def labelText (label : String × String) : List Char :=
  label.1.toList ++ " ".toList ++ label.2.toList ++ " on ".toList

/-- No text of a label continues another. -/
theorem eq_of_labelText :
    ∀ l ∈ labels, ∀ l' ∈ labels, labelText l <+: labelText l' → l = l' := by decide +kernel

theorem toList_append_parts (start framework sep control on name : String) :
    (start ++ framework ++ sep ++ control ++ on ++ name).toList = start.toList ++
      (framework.toList ++ sep.toList ++ control.toList ++ on.toList ++ name.toList) := by
  simp only [String.toList_append, List.append_assoc]

/-- A title determines the control and the name of the asset. -/
theorem titleOf_inj {l l' : String × String} {name name' : String} (hl : l ∈ labels)
    (hl' : l' ∈ labels) (h : titleOf l name = titleOf l' name') : l = l' ∧ name = name' := by
  have htexts : labelText l ++ name.toList = labelText l' ++ name'.toList := by
    have hlist := congrArg String.toList h
    unfold titleOf at hlist
    rw [toList_append_parts, toList_append_parts] at hlist
    exact List.append_cancel_left hlist
  have hlabel : l = l' := by
    have hleft : labelText l <+: labelText l' ++ name'.toList := ⟨name.toList, htexts⟩
    rcases List.prefix_or_prefix_of_prefix hleft (List.prefix_append ..) with hle | hle
    · exact eq_of_labelText l hl l' hl' hle
    · exact (eq_of_labelText l' hl' l hl hle).symm
  subst hlabel
  exact ⟨rfl, String.toList_inj.mp (List.append_cancel_left htexts)⟩

/-- Two turns with one alert slot have one key. -/
theorem key_eq_of_slot {assets : List AssessedAsset} {t t' : Turn} (ht : t ∈ turns assets)
    (ht' : t' ∈ turns assets) (h : t.slot = t'.slot) : t.key = t'.key := by
  have hasset : t.asset.id = t'.asset.id := by simpa [Turn.slot] using congrArg Prod.fst h
  have htitle : t.gapTitle = t'.gapTitle := congrArg Prod.snd h
  obtain ⟨hlabel, -⟩ := titleOf_inj (label_of_mem_turns ht) (label_of_mem_turns ht') htitle
  obtain ⟨hframework, hcontrol⟩ := Prod.ext_iff.mp hlabel
  simp only [Turn.key]
  rw [hasset, show t.framework = t'.framework from hframework,
    show t.controlId = t'.controlId from hcontrol]

/-! ## The mapping of a record -/

theorem insertRow_ok {ρ κ : Type*} [DecidableEq κ] {key : ρ → κ} {t t' : Table key} {r : ρ}
    (h : insertRow t r = .ok t') : t'.rows = t.rows ++ [r] := by
  unfold insertRow at h
  split at h
  · cases h
  · rename_i hinsert
    cases h
    exact (Table.insert?_eq_some hinsert).1

theorem insertRow_total {ρ κ : Type*} [DecidableEq κ] {key : ρ → κ} {t : Table key} {r : ρ}
    (h : ∀ x ∈ t.rows, key x ≠ key r) : ∃ t', insertRow t r = .ok t' := by
  unfold insertRow
  cases hinsert : t.insert? r with
  | none =>
    have htaken := Table.insert?_eq_none.mp hinsert
    rw [Table.find_eq_none.mpr h] at htaken
    cases htaken
  | some t' => exact ⟨t', rfl⟩

abbrev Mappings := Table fun m : ComplianceMapping => m.id

/-- At most one mapping for each framework, control and asset. -/
def OnePerKey (mappings : Mappings) : Prop :=
  ∀ m ∈ mappings.rows, ∀ m' ∈ mappings.rows, m.key = m'.key → m = m'

/-- The index knows the mapping of every key. -/
def Indexes (index : Key → Option Id) (mappings : Mappings) : Prop :=
  ∀ key id, index key = some id ↔ ∃ m ∈ mappings.rows, m.id = id ∧ m.key = key

theorem mappingIndex_indexes {mappings : Mappings} (h : OnePerKey mappings) :
    Indexes (mappingIndex mappings) mappings := by
  intro key id
  simp only [mappingIndex, Option.map_eq_some_iff]
  constructor
  · rintro ⟨m, hm, hid⟩
    have hmem := List.mem_reverse.mp (List.mem_of_find?_eq_some hm)
    exact ⟨m, hmem, hid, by simpa using List.find?_some hm⟩
  · rintro ⟨m, hm, hid, hkey⟩
    have hsome : (mappings.rows.reverse.find? fun m => m.key = key).isSome :=
      List.find?_isSome.mpr ⟨m, List.mem_reverse.mpr hm, by simpa using hkey⟩
    obtain ⟨m', hm'⟩ := Option.isSome_iff_exists.mp hsome
    have hmem' := List.mem_reverse.mp (List.mem_of_find?_eq_some hm')
    have hkey' : m'.key = key := by simpa using List.find?_some hm'
    have hsame : m' = m := h m' hmem' m hm (hkey'.trans hkey.symm)
    exact ⟨m', hm', hsame ▸ hid⟩

variable {mappings mappings' : Mappings} {index index' : Key → Option Id} {id : Id} {r : Record}

/-- The mapping of the key is assigned to, or there is none and it is added. -/
theorem writeMapping_cases (h : writeMapping mappings index id r = .ok (mappings', index')) :
    (∃ known, index r.turn.key = some known ∧ index' = index ∧
      mappings'.rows = mappings.rows.map fun m => if m.id = known then r.assign m else m) ∨
    (index r.turn.key = none ∧ index' = Function.update index r.turn.key (some id) ∧
      mappings'.rows = mappings.rows ++ [r.newMapping id]) := by
  unfold writeMapping at h
  split at h
  · rename_i known hknown
    cases h
    exact .inl ⟨known, hknown, rfl, rfl⟩
  · rename_i hnone
    obtain ⟨t, ht, h⟩ := bind_eq_ok.mp h
    cases h
    exact .inr ⟨hnone, rfl, insertRow_ok ht⟩

/-- Every mapping afterwards was there under its identifier and key, or is the new one, whose key
the index did not know. -/
theorem writeMapping_origin (h : writeMapping mappings index id r = .ok (mappings', index'))
    {m : ComplianceMapping} (hm : m ∈ mappings'.rows) :
    (∃ m₀ ∈ mappings.rows, m₀.id = m.id ∧ m₀.key = m.key) ∨
      (m.id = id ∧ m.key = r.turn.key ∧ index r.turn.key = none) := by
  rcases writeMapping_cases h with ⟨known, -, -, hrows⟩ | ⟨hnone, -, hrows⟩
  · rw [hrows] at hm
    obtain ⟨m₀, hm₀, rfl⟩ := List.mem_map.mp hm
    refine .inl ⟨m₀, hm₀, ?_⟩
    split
    · exact ⟨rfl, rfl⟩
    · exact ⟨rfl, rfl⟩
  · rw [hrows] at hm
    rcases List.mem_append.mp hm with hm | hm
    · exact .inl ⟨m, hm, rfl, rfl⟩
    · rw [List.mem_singleton.mp hm]
      exact .inr ⟨rfl, rfl, hnone⟩

/-- A mapping stays under its identifier and key. -/
theorem writeMapping_persist (h : writeMapping mappings index id r = .ok (mappings', index'))
    {m : ComplianceMapping} (hm : m ∈ mappings.rows) :
    ∃ m' ∈ mappings'.rows, m'.id = m.id ∧ m'.key = m.key := by
  rcases writeMapping_cases h with ⟨known, -, -, hrows⟩ | ⟨-, -, hrows⟩
  · refine ⟨_, hrows ▸ List.mem_map_of_mem hm, ?_⟩
    split
    · exact ⟨rfl, rfl⟩
    · exact ⟨rfl, rfl⟩
  · exact ⟨m, by simp [hrows, hm], rfl, rfl⟩

/-- The other keys keep their mappings. -/
theorem writeMapping_frame (h : writeMapping mappings index id r = .ok (mappings', index'))
    (hindex : Indexes index mappings) {m : ComplianceMapping} (hne : m.key ≠ r.turn.key) :
    m ∈ mappings'.rows ↔ m ∈ mappings.rows := by
  rcases writeMapping_cases h with ⟨known, hknown, -, hrows⟩ | ⟨-, -, hrows⟩
  · obtain ⟨w, hw, hwid, hwkey⟩ := (hindex _ _).mp hknown
    rw [hrows, List.mem_map]
    constructor
    · rintro ⟨m₀, hm₀, rfl⟩
      by_cases hid : m₀.id = known
      · rw [if_pos hid] at hne
        have hsame : m₀ = w := Table.eq_of_key hm₀ hw (hid.trans hwid.symm)
        exact absurd (hsame ▸ hwkey) hne
      · rwa [if_neg hid]
    · intro hm
      refine ⟨m, hm, if_neg fun hid => hne ?_⟩
      have hsame : m = w := Table.eq_of_key hm hw (hid.trans hwid.symm)
      exact hsame ▸ hwkey
  · rw [hrows, List.mem_append, List.mem_singleton]
    constructor
    · rintro (hm | rfl)
      · exact hm
      · exact absurd rfl hne
    · exact Or.inl

/-- The key of the record has a mapping with the record's status and lineage. -/
theorem writeMapping_written (h : writeMapping mappings index id r = .ok (mappings', index'))
    (hindex : Indexes index mappings) : ∃ m ∈ mappings'.rows,
      m.key = r.turn.key ∧ m.status = r.result.status ∧ m.evidence = some r.mappingEvidence := by
  rcases writeMapping_cases h with ⟨known, hknown, -, hrows⟩ | ⟨-, -, hrows⟩
  · obtain ⟨w, hw, hwid, hwkey⟩ := (hindex _ _).mp hknown
    refine ⟨r.assign w, ?_, hwkey, rfl, rfl⟩
    rw [hrows]
    exact List.mem_map.mpr ⟨w, hw, if_pos hwid⟩
  · exact ⟨r.newMapping id, by simp [hrows], rfl, rfl, rfl⟩

theorem writeMapping_onePerKey (h : writeMapping mappings index id r = .ok (mappings', index'))
    (hindex : Indexes index mappings) (hone : OnePerKey mappings) : OnePerKey mappings' := by
  rcases writeMapping_cases h with ⟨known, -, -, hrows⟩ | ⟨hnone, -, hrows⟩
  · have hkeep : ∀ m : ComplianceMapping, (if m.id = known then r.assign m else m).key = m.key := by
      intro m
      split
      · rfl
      · rfl
    intro m hm m' hm' hkey
    rw [hrows] at hm hm'
    obtain ⟨m₀, hm₀, rfl⟩ := List.mem_map.mp hm
    obtain ⟨m₁, hm₁, rfl⟩ := List.mem_map.mp hm'
    rw [hkeep, hkeep] at hkey
    rw [hone m₀ hm₀ m₁ hm₁ hkey]
  · have hnew : ∀ m ∈ mappings.rows, m.key ≠ r.turn.key := by
      intro m hm hkey
      have hsome := (hindex r.turn.key m.id).mpr ⟨m, hm, rfl, hkey⟩
      rw [hnone] at hsome
      cases hsome
    intro m hm m' hm' hkey
    simp only [hrows, List.mem_append, List.mem_singleton] at hm hm'
    rcases hm with hm | rfl
    · rcases hm' with hm' | rfl
      · exact hone m hm m' hm' hkey
      · exact absurd hkey (hnew m hm)
    · rcases hm' with hm' | rfl
      · exact absurd hkey.symm (hnew m' hm')
      · rfl

theorem writeMapping_indexes (h : writeMapping mappings index id r = .ok (mappings', index'))
    (hindex : Indexes index mappings) : Indexes index' mappings' := by
  intro key k
  rcases writeMapping_cases h with ⟨known, -, rfl, hrows⟩ | ⟨hnone, rfl, hrows⟩
  · rw [hindex, hrows]
    simp only [List.mem_map]
    constructor
    · rintro ⟨m, hm, hid, hkey⟩
      refine ⟨_, ⟨m, hm, rfl⟩, ?_⟩
      split
      · exact ⟨hid, hkey⟩
      · exact ⟨hid, hkey⟩
    · rintro ⟨_, ⟨m, hm, rfl⟩, hid, hkey⟩
      refine ⟨m, hm, ?_⟩
      split at hid
      · rw [if_pos ‹_›] at hkey
        exact ⟨hid, hkey⟩
      · rw [if_neg ‹_›] at hkey
        exact ⟨hid, hkey⟩
  · simp only [hrows, List.mem_append, List.mem_singleton]
    by_cases hkey : key = r.turn.key
    · subst hkey
      rw [Function.update_self]
      constructor
      · intro hk
        cases hk
        exact ⟨_, .inr rfl, rfl, rfl⟩
      · rintro ⟨m, hm | rfl, rfl, hmkey⟩
        · have hsome := (hindex r.turn.key m.id).mpr ⟨m, hm, rfl, hmkey⟩
          rw [hnone] at hsome
          cases hsome
        · rfl
    · rw [Function.update_of_ne hkey, hindex]
      constructor
      · rintro ⟨m, hm, hrest⟩
        exact ⟨m, .inl hm, hrest⟩
      · rintro ⟨m, hm | rfl, hid, hmkey⟩
        · exact ⟨m, hm, hid, hmkey⟩
        · exact absurd hmkey.symm hkey

theorem writeMapping_total (hfresh : ∀ m ∈ mappings.rows, m.id ≠ id) :
    ∃ mappings' index', writeMapping mappings index id r = .ok (mappings', index') := by
  unfold writeMapping
  split
  · exact ⟨_, _, rfl⟩
  · obtain ⟨t, ht⟩ := insertRow_total (t := mappings) (r := r.newMapping id) hfresh
    rw [ht]
    exact ⟨_, _, rfl⟩

/-! ## The alert of a record -/

abbrev Alerts := Table fun x : GapAlert => x.id

theorem mem_openAt {alerts : Alerts} {slot : Option ℕ × String} {x : GapAlert} :
    x ∈ openAt alerts slot ↔ x ∈ alerts.rows ∧ x.slot = slot ∧ x.status = .open := by
  obtain ⟨assetId, title⟩ := slot
  simp [openAt, GapAlert.slot, and_assoc]

variable {alerts alerts' : Alerts}

/-- What a record does to the alerts. -/
theorem writeAlert_cases (h : writeAlert alerts id r = .ok alerts') :
    (r.result.status = .compliant ∧ alerts'.rows =
      alerts.rows.map fun x => if x ∈ openAt alerts r.turn.slot then r.close x else x) ∨
    (r.result.status ≠ .compliant ∧ r.turn.highCriticality = true ∧
      ∃ alert rest, openAt alerts r.turn.slot = alert :: rest ∧
        alerts'.rows = alerts.rows.map fun x => if x.id = alert.id then r.refresh x else x) ∨
    (r.result.status ≠ .compliant ∧ r.turn.highCriticality = true ∧
      openAt alerts r.turn.slot = [] ∧ alerts'.rows = alerts.rows ++ [r.newAlert id]) ∨
    (r.result.status ≠ .compliant ∧ r.turn.highCriticality = false ∧ alerts' = alerts) := by
  simp only [writeAlert] at h
  split at h
  · rename_i hcompliant
    cases h
    exact .inl ⟨hcompliant, rfl⟩
  · rename_i hcompliant
    split at h
    · rename_i hhigh
      split at h
      · rename_i alert rest hfound
        cases h
        exact .inr (.inl ⟨hcompliant, hhigh, alert, rest, hfound, rfl⟩)
      · rename_i hfound
        obtain ⟨-, -, h⟩ := bind_eq_ok.mp h
        exact .inr (.inr (.inl ⟨hcompliant, hhigh, hfound, insertRow_ok h⟩))
    · rename_i hhigh
      cases h
      exact .inr (.inr (.inr ⟨hcompliant, by simpa using hhigh, rfl⟩))

theorem writeAlert_total (hfresh : ∀ x ∈ alerts.rows, x.id ≠ id)
    (hfits : r.turn.gapTitle.length ≤ 255) : ∃ alerts', writeAlert alerts id r = .ok alerts' := by
  simp only [writeAlert]
  split
  · exact ⟨_, rfl⟩
  · split
    · split
      · exact ⟨_, rfl⟩
      · rw [bindTitle, if_neg (Nat.not_lt.mpr hfits)]
        exact insertRow_total (r := r.newAlert id) hfresh
    · exact ⟨_, rfl⟩

/-- Every alert afterwards was there under its identifier and slot, and open if it is open, or is
the new one about a gap of high criticality, whose slot had no open alert. -/
theorem writeAlert_origin (h : writeAlert alerts id r = .ok alerts') {x : GapAlert}
    (hx : x ∈ alerts'.rows) :
    (∃ x₀ ∈ alerts.rows, x₀.id = x.id ∧ x₀.slot = x.slot ∧ (x.status = .open → x₀.status = .open)) ∨
      (x.id = id ∧ x.slot = r.turn.slot ∧ r.result.status ≠ .compliant ∧
        r.turn.highCriticality = true ∧ openAt alerts r.turn.slot = []) := by
  rcases writeAlert_cases h with ⟨-, hrows⟩ | ⟨-, -, alert, rest, -, hrows⟩ |
      ⟨hgap, hhigh, hnone, hrows⟩ | ⟨-, -, rfl⟩
  · rw [hrows] at hx
    obtain ⟨x₀, hx₀, rfl⟩ := List.mem_map.mp hx
    refine .inl ⟨x₀, hx₀, ?_⟩
    split
    · exact ⟨rfl, rfl, nofun⟩
    · exact ⟨rfl, rfl, fun h => h⟩
  · rw [hrows] at hx
    obtain ⟨x₀, hx₀, rfl⟩ := List.mem_map.mp hx
    refine .inl ⟨x₀, hx₀, ?_⟩
    split
    · exact ⟨rfl, rfl, fun h => h⟩
    · exact ⟨rfl, rfl, fun h => h⟩
  · rw [hrows] at hx
    rcases List.mem_append.mp hx with hx | hx
    · exact .inl ⟨x, hx, rfl, rfl, fun h => h⟩
    · rw [List.mem_singleton.mp hx]
      exact .inr ⟨rfl, rfl, hgap, hhigh, hnone⟩
  · exact .inl ⟨x, hx, rfl, rfl, fun h => h⟩

/-- A record leaves the alerts alone that lie in other slots. -/
theorem writeAlert_filter (h : writeAlert alerts id r = .ok alerts') {p : GapAlert → Bool}
    (hp : ∀ x, x.slot = r.turn.slot → p x = false) :
    alerts'.rows.filter p = alerts.rows.filter p := by
  have hmap : ∀ (change : GapAlert → GapAlert) (c : GapAlert → Prop) [DecidablePred c],
      (∀ x, (change x).slot = x.slot) → (∀ x ∈ alerts.rows, c x → x.slot = r.turn.slot) →
      (alerts.rows.map fun x => if c x then change x else x).filter p = alerts.rows.filter p := by
    intro change c _ hslot hc
    have hrows : ∀ rows : List GapAlert, (∀ x ∈ rows, c x → x.slot = r.turn.slot) →
        (rows.map fun x => if c x then change x else x).filter p = rows.filter p := by
      intro rows
      induction rows with
      | nil => simp
      | cons x rows ih =>
        intro hc
        have hrest := ih fun y hy => hc y (List.mem_cons_of_mem _ hy)
        by_cases hcx : c x
        · have hx := hc x List.mem_cons_self hcx
          simp [hcx, hp x hx, hp (change x) ((hslot x).trans hx), hrest]
        · simp [hcx, List.filter_cons, hrest]
    exact hrows alerts.rows hc
  rcases writeAlert_cases h with ⟨-, hrows⟩ | ⟨-, -, alert, rest, hfound, hrows⟩ |
      ⟨-, -, -, hrows⟩ | ⟨-, -, rfl⟩
  · rw [hrows]
    exact hmap r.close _ (fun _ => rfl) fun x _ hx => (mem_openAt.mp hx).2.1
  · rw [hrows]
    have halert : alert ∈ openAt alerts r.turn.slot := by simp [hfound]
    obtain ⟨hmem, hslot, -⟩ := mem_openAt.mp halert
    exact hmap r.refresh _ (fun _ => rfl) fun x hx hid =>
      Table.eq_of_key hx hmem hid ▸ hslot
  · rw [hrows, List.filter_append]
    simp [hp (r.newAlert id) rfl]
  · rfl

end Kepryx.AuditLoop
