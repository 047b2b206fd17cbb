import Kepryx.ReportHandling
import Kepryx.ReportOrder

/-!
# Reports whose address is none

The lookup parses the address of a report and drops one that is none. The merge assigns the text
of the report all the same, and a new asset is inserted with it.
-/
namespace Kepryx.InvalidAddresses
open Kepryx.Models Kepryx.Results Kepryx.Tables Kepryx.Reconciler Kepryx.ReportHandling

/-! ## The reports -/

/-- PostgreSQL stores what `ip_address` accepts, as the same address, and the stored spelling of
an address is accepted again. -/
structure Lawful (A : Addressing) : Prop where
  inet : ∀ t v, A.ipAddress t = some v → A.inet t = some v
  canonical : ∀ t v, A.ipAddress t = some v → A.ipAddress v = some v

/-- Null or an IP address. -/
def ValidIp (A : Addressing) (ip : Option String) : Prop :=
  ∀ t, ip = some t → (A.ipAddress t).isSome

def AllValid (A : Addressing) (db : Database) : Prop := ∀ a ∈ db.assets.rows, ValidIp A a.ip

/-- The report has the text `t` under `ip`, which is no address. -/
def Unparsable (A : Addressing) (data : HostData) (t : String) : Prop :=
  data.ip = .value t ∧ A.ipAddress t = none

/-- The report has no MAC and no name. -/
def NoOtherIdentifier (data : HostData) : Prop :=
  data.mac.truthy = none ∧ lookupName data = none

/-- The report without its address. -/
def withoutIp (r : Report) : Report := { r with data := { r.data with ip := .missing } }

/-- `reconcile_host` returns for the report. -/
def Returns (A : Addressing) (s : Session) (r : Report) : Prop :=
  ∃ s' o, reconcileHost A s r = .ok (s', o)

/-- After the report, every stored address and that of the returned object is valid. -/
def KeepsValid (A : Addressing) (s : Session) (r : Report) : Prop :=
  ∀ s' o, reconcileHost A s r = .ok (s', o) → AllValid A s'.db ∧ ValidIp A o.ip

/-- A report with an unparsable address and no other identifier does not end the batch, unless
it does so without the address as well, and changes no row. -/
def Tolerated (A : Addressing) (s : Session) (r : Report) : Prop :=
  ∀ t, Unparsable A r.data t → NoOtherIdentifier r.data → Returns A s (withoutIp r) →
    ∃ s' o, reconcileHost A s r = .ok (s', o) ∧
      ∀ a ∈ s.db.assets.rows, a ∈ s'.db.assets.rows

/-- An invalid address is ignored. -/
def Ignored (A : Addressing) (s : Session) (r : Report) : Prop :=
  KeepsValid A s r ∧ Tolerated A s r

/-- Where the text of an unparsable address does no harm: the report is matched and its text is
empty or its source does not overwrite, or it is not matched, has another identifier, and the
column refuses the text. -/
def Harmless (A : Addressing) (db : Database) (r : Report) (t : String) : Prop :=
  (∀ a, findExisting A db r.data = .ok (some a) → t = "" ∨ ¬ Overwrites a r.source) ∧
    (findExisting A db r.data = .ok none → A.inet t = none ∧ ¬ NoOtherIdentifier r.data)

/-! ## The address of a merge -/

theorem reconcileHost_merge {A : Addressing} {s s' : Session} {r : Report} {a : Asset}
    {o : AssetObject} (hfind : findExisting A s.db r.data = .ok (some a))
    (h : reconcileHost A s r = .ok (s', o)) :
    s'.db.assets = s.db.assets ∧ o.ip = (writtenText a r .ip).or a.ip := by
  rw [reconcileHost, hfind] at h
  have hmerge : mergeSource r.now ⟨s.db, (loadAsset s.heap a).1⟩ (loadAsset s.heap a).2 r.source
      r.data = .ok (s', o) := h
  obtain ⟨⟨alerts, hdb⟩, hmerged, -⟩ := mergeSource_loaded hmerge
  refine ⟨by rw [hdb], ?_⟩
  have hip : o.ip = field o.toAssetColumns .ip := rfl
  rw [hip, hmerged, field_merged]
  rfl

/-- A merge raises only what its drift alert raises. -/
theorem returns_merge_iff {A : Addressing} {s : Session} {r : Report} {a : Asset}
    (hfind : findExisting A s.db r.data = .ok (some a)) :
    Returns A s r ↔
      ∃ alerts, driftAlert r.now s.db.alerts a.toAssetColumns r.data = .ok alerts := by
  obtain ⟨hcols, -⟩ := loadAsset_spec s.heap a
  unfold Returns
  rw [reconcileHost, hfind]
  simp only [ok_bind, mergeSource, hcols]
  cases driftAlert r.now s.db.alerts a.toAssetColumns r.data with
  | error e => simp
  | ok alerts =>
    simp only [ok_bind, pure_eq_ok]
    exact iff_of_true ⟨_, _, rfl⟩ ⟨alerts, rfl⟩

/-! ## The address of a creation -/

/-- What a creation needs besides a name and an address. -/
def Insertable (A : Addressing) (s : Session) (r : Report) : Prop :=
  (r.data.type.getD "Unknown").isSome ∧ (∃ mac, bindText A.macaddr r.data.mac.get = .ok mac) ∧
    s.db.assets.find r.uuid = none ∧
    (isShadow [r.source] → ∃ found, scalarOneOrNone DbError.multipleResultsFound
      (recentOpen r.now s.db.alerts .shadowIt (some r.uuid)) = .ok found)

theorem raiseAlert_ok_iff {now : Time} {alerts : List Alert} {alert : Alert} :
    (∃ alerts', raiseAlert now alerts alert = .ok alerts') ↔
      ∃ found, scalarOneOrNone DbError.multipleResultsFound
        (recentOpen now alerts alert.alertType alert.assetId) = .ok found := by
  unfold raiseAlert
  cases scalarOneOrNone DbError.multipleResultsFound
      (recentOpen now alerts alert.alertType alert.assetId) with
  | error e => simp
  | ok found => cases found <;> simp

theorem shadowAlert_ok_iff (now : Time) (alerts : List Alert) (c : AssetColumns)
    (source : String) :
    (∃ alerts', shadowAlert now alerts c source = .ok alerts') ↔
      (c.isShadow → ∃ found, scalarOneOrNone DbError.multipleResultsFound
        (recentOpen now alerts .shadowIt (some c.id)) = .ok found) := by
  unfold shadowAlert
  split
  · rename_i hshadow
    rw [raiseAlert_ok_iff]
    simp only [hshadow, forall_const]
  · rename_i hshadow
    simp [hshadow]

theorem returns_create_iff {A : Addressing} {s : Session} {r : Report}
    (hfind : findExisting A s.db r.data = .ok none) :
    Returns A s r ↔ (newName r.data).isSome ∧
      (∃ ip, bindText A.inet r.data.ip.get = .ok ip) ∧ Insertable A s r := by
  unfold Returns Insertable
  rw [reconcileHost, hfind]
  simp only [ok_bind, createFromSource]
  cases hname : newName r.data with
  | none => simp
  | some name =>
    cases htype : r.data.type.getD "Unknown" with
    | none => simp
    | some type =>
      have hshadow := shadowAlert_ok_iff r.now s.db.alerts
        (newColumns r.now r.uuid r.source r.data name type) r.source
      have hip : (newColumns r.now r.uuid r.source r.data name type).ip = r.data.ip.get := rfl
      have hmac : (newColumns r.now r.uuid r.source r.data name type).mac = r.data.mac.get := rfl
      simp only [hip, hmac]
      cases hbip : bindText A.inet r.data.ip.get with
      | error e => simp
      | ok ip =>
        cases hbmac : bindText A.macaddr r.data.mac.get with
        | error e => simp
        | ok mac =>
          simp only [ok_bind, Option.isSome_some, true_and]
          split
          · rename_i hins
            have hsome := Table.insert?_eq_none.mp hins
            have hne : s.db.assets.find r.uuid ≠ none := Option.isSome_iff_ne_none.mp hsome
            simp [hne]
          · rename_i assets hins
            have hnone : s.db.assets.find r.uuid = none := (Table.insert?_eq_some hins).2
            cases hal : shadowAlert r.now s.db.alerts
                (newColumns r.now r.uuid r.source r.data name type) r.source with
            | error e =>
              rw [hal] at hshadow
              simp only [reduceCtorEq, exists_false, false_iff] at hshadow
              refine iff_of_false (by simp) fun h => hshadow fun hs => ?_
              exact h.2.2.2 hs
            | ok alerts =>
              rw [hal] at hshadow
              refine iff_of_true ⟨_, _, rfl⟩ ⟨⟨ip, rfl⟩, ⟨mac, rfl⟩, hnone, fun hs => ?_⟩
              exact hshadow.mp ⟨alerts, rfl⟩ hs

theorem reconcileHost_create {A : Addressing} {s s' : Session} {r : Report} {o : AssetObject}
    (hfind : findExisting A s.db r.data = .ok none)
    (h : reconcileHost A s r = .ok (s', o)) :
    o.ip = r.data.ip.get ∧ ∃ a, bindText A.inet r.data.ip.get = .ok a.ip ∧
      s.db.assets.insert? a = some s'.db.assets := by
  rw [reconcileHost, hfind] at h
  obtain ⟨a, alerts, hcr, -, hins, -, -, rfl⟩ := createFromSource_ok h
  exact ⟨rfl, a, hcr.ip, hins⟩

/-! ## The report without its address -/

/-- The lookups do not see an unparsable address. -/
theorem findExisting_withoutIp {A : Addressing} {r : Report} {t : String}
    (ht : Unparsable A r.data t) (db : Database) :
    findExisting A db (withoutIp r).data = findExisting A db r.data := by
  have hnone : r.data.ip.truthy.bind A.ipAddress = none := by
    cases h : r.data.ip.truthy with
    | none => rfl
    | some v =>
      have hv := (Entry.truthy_eq_some.mp h).1
      rw [ht.1] at hv
      cases hv
      exact ht.2
  have hnone' : (withoutIp r).data.ip.truthy.bind A.ipAddress = none := rfl
  unfold findExisting
  rw [hnone, hnone']
  rfl

theorem newName_isSome {data : HostData} {t : String} (h : data.ip = .value t) :
    (newName data).isSome := by
  unfold newName
  rw [h, ← Option.or_assoc]
  cases data.name.truthy.or data.hostname.truthy <;> rfl

theorem newName_withoutIp (r : Report) : (newName (withoutIp r).data).isSome := by
  have h : newName (withoutIp r).data =
      (r.data.name.truthy.or r.data.hostname.truthy).or (some "unknown") := by
    rw [Option.or_assoc]
    rfl
  rw [h]
  cases r.data.name.truthy.or r.data.hostname.truthy <;> rfl

/-- Without its address a report that is matched returns if and only if it does with it. -/
theorem returns_merge_withoutIp {A : Addressing} {s : Session} {r : Report} {a : Asset}
    {t : String} (ht : Unparsable A r.data t) (hfind : findExisting A s.db r.data = .ok (some a)) :
    Returns A s (withoutIp r) ↔ Returns A s r := by
  rw [returns_merge_iff hfind, returns_merge_iff ((findExisting_withoutIp ht s.db).trans hfind)]
  rfl

/-- Without its address a report that is not matched returns if it does with it, and with it if
the column takes the address. -/
theorem returns_create_withoutIp {A : Addressing} {s : Session} {r : Report} {t : String}
    (ht : Unparsable A r.data t) (hfind : findExisting A s.db r.data = .ok none) :
    Returns A s r ↔ Returns A s (withoutIp r) ∧ (A.inet t).isSome := by
  have hbind : (∃ ip, bindText A.inet r.data.ip.get = .ok ip) ↔ (A.inet t).isSome := by
    rw [ht.1]
    cases h : A.inet t <;> simp [bindText, Entry.get, h]
  have hbind' : ∃ ip, bindText A.inet (withoutIp r).data.ip.get = .ok ip := ⟨none, rfl⟩
  have hins : Insertable A s (withoutIp r) ↔ Insertable A s r := Iff.rfl
  rw [returns_create_iff hfind, returns_create_iff ((findExisting_withoutIp ht s.db).trans hfind),
    hbind, hins]
  simp only [newName_isSome ht.1, newName_withoutIp, hbind', true_and]
  exact and_comm

/-- Nothing but its address can make the report raise: no lookup finds two assets, a matched
asset has at most one recent drift alert, and a new one can be inserted. -/
def Acceptable (A : Addressing) (s : Session) (r : Report) : Prop :=
  (∃ a, findExisting A s.db r.data = .ok (some a) ∧
    ∃ alerts, driftAlert r.now s.db.alerts a.toAssetColumns r.data = .ok alerts) ∨
  (findExisting A s.db r.data = .ok none ∧ Insertable A s r)

theorem returns_withoutIp_iff {A : Addressing} {s : Session} {r : Report} {t : String}
    (ht : Unparsable A r.data t) : Returns A s (withoutIp r) ↔ Acceptable A s r := by
  unfold Acceptable
  cases hfind : findExisting A s.db r.data with
  | error e =>
    have hfind' := (findExisting_withoutIp ht s.db).trans hfind
    simp [Returns, reconcileHost, hfind']
  | ok found =>
    have hfind' := (findExisting_withoutIp ht s.db).trans hfind
    cases found with
    | some a =>
      have hdrift : driftAlert (withoutIp r).now s.db.alerts a.toAssetColumns (withoutIp r).data =
          driftAlert r.now s.db.alerts a.toAssetColumns r.data := rfl
      rw [returns_merge_iff hfind', hdrift]
      simp only [Except.ok.injEq, Option.some.injEq, exists_eq_left', reduceCtorEq, false_and,
        or_false]
    | none =>
      have hbind : ∃ ip, bindText A.inet (withoutIp r).data.ip.get = .ok ip := ⟨none, rfl⟩
      have hins : Insertable A s (withoutIp r) ↔ Insertable A s r := Iff.rfl
      rw [returns_create_iff hfind', hins]
      simp [newName_withoutIp, hbind]

/-! ## When an invalid address is ignored -/

/-- A merge keeps the addresses valid if no unparsable text overwrites. -/
theorem valid_of_merge {A : Addressing} {s s' : Session} (hs : AllValid A s.db) {r : Report}
    {a : Asset} {o : AssetObject} (hfind : findExisting A s.db r.data = .ok (some a))
    (hok : reconcileHost A s r = .ok (s', o))
    (h : ∀ t, Unparsable A r.data t → Returns A s (withoutIp r) →
      t = "" ∨ ¬ Overwrites a r.source) :
    AllValid A s'.db ∧ ValidIp A o.ip := by
  obtain ⟨hrows, hip⟩ := reconcileHost_merge hfind hok
  refine ⟨fun b hb => hs b (hrows ▸ hb), fun t ht => ?_⟩
  rw [hip] at ht
  cases hw : writtenText a r .ip with
  | none =>
    rw [hw, Option.none_or] at ht
    exact hs a (findExisting_mem hfind) t ht
  | some v =>
    rw [hw, Option.some_or] at ht
    cases ht
    by_contra hbad
    have ho : Overwrites a r.source := by
      by_contra ho
      simp [writtenText, ho] at hw
    have htruthy : r.data.ip.truthy = some t := by
      rw [writtenText, if_pos ho] at hw
      exact hw
    obtain ⟨hvalue, hne⟩ := Entry.truthy_eq_some.mp htruthy
    have hunp : Unparsable A r.data t := ⟨hvalue, by simpa using hbad⟩
    rcases h t hunp ((returns_merge_withoutIp hunp hfind).mpr ⟨s', o, hok⟩) with he | hno
    · exact hne he
    · exact hno ho

/-- A creation keeps the addresses valid if the column refuses every unparsable text. -/
theorem valid_of_create {A : Addressing} (hA : Lawful A) {s s' : Session} (hs : AllValid A s.db)
    {r : Report} {o : AssetObject} (hfind : findExisting A s.db r.data = .ok none)
    (hok : reconcileHost A s r = .ok (s', o))
    (h : ∀ t, Unparsable A r.data t → Returns A s (withoutIp r) → A.inet t = none) :
    AllValid A s'.db ∧ ValidIp A o.ip := by
  obtain ⟨hip, a, hbind, hins⟩ := reconcileHost_create hfind hok
  have hvalid : ∀ t, r.data.ip.get = some t → ∃ v, A.ipAddress t = some v := by
    intro t ht
    by_contra hbad
    have hvalue : r.data.ip = .value t := by
      cases hentry : r.data.ip with
      | missing | null => simp [hentry, Entry.get] at ht
      | value v => rw [hentry] at ht; cases ht; rfl
    have hunp : Unparsable A r.data t :=
      ⟨hvalue, Option.eq_none_iff_forall_ne_some.mpr fun v hv => hbad ⟨v, hv⟩⟩
    have hret := (returns_create_withoutIp hunp hfind).mp ⟨s', o, hok⟩
    simp [h t hunp hret.1] at hret
  refine ⟨fun b hb t ht => ?_, fun t ht => ?_⟩
  · rcases (Table.mem_insert? hins).mp hb with hb | rfl
    · exact hs b hb t ht
    · rw [bindText_ok hbind] at ht
      obtain ⟨u, hu, hut⟩ := Option.bind_eq_some_iff.mp ht
      obtain ⟨v, hv⟩ := hvalid u hu
      rw [hA.inet u v hv] at hut
      cases hut
      rw [hA.canonical u t hv]
      rfl
  · rw [hip] at ht
    obtain ⟨v, hv⟩ := hvalid t ht
    rw [hv]
    rfl

theorem keepsValid_of_harmless {A : Addressing} (hA : Lawful A) {s : Session}
    (hs : AllValid A s.db) {r : Report}
    (h : ∀ t, Unparsable A r.data t → Returns A s (withoutIp r) → Harmless A s.db r t) :
    KeepsValid A s r := by
  intro s' o hok
  cases hfind : findExisting A s.db r.data with
  | error e =>
    rw [reconcileHost, hfind] at hok
    cases hok
  | ok found =>
    cases found with
    | some a =>
      exact valid_of_merge hs hfind hok fun t hunp hret => (h t hunp hret).1 a hfind
    | none =>
      exact valid_of_create hA hs hfind hok fun t hunp hret => ((h t hunp hret).2 hfind).1

/-- In an inventory with valid addresses, an invalid address is ignored exactly when every
unparsable text that a report brings does no harm. -/
theorem ignored_iff {A : Addressing} (hA : Lawful A) {s : Session} (hs : AllValid A s.db)
    (r : Report) :
    Ignored A s r ↔ ∀ t, Unparsable A r.data t → Acceptable A s r → Harmless A s.db r t := by
  rw [← forall₂_congr fun t ht => imp_congr_left (returns_withoutIp_iff ht)]
  constructor
  · rintro ⟨hkeeps, htol⟩ t ht hret
    have hreject : ∀ {s' : Session} {o : AssetObject}, reconcileHost A s r = .ok (s', o) →
        o.ip ≠ some t := by
      intro s' o hok hip
      have hsome := (hkeeps s' o hok).2 t hip
      simp [ht.2] at hsome
    refine ⟨fun a hfind => ?_, fun hfind => ?_⟩
    · by_contra hharm
      push Not at hharm
      obtain ⟨hne, ho⟩ := hharm
      obtain ⟨s', o, hok⟩ := (returns_merge_withoutIp ht hfind).mp hret
      refine hreject hok ?_
      have htruthy : r.data.ip.truthy = some t := Entry.truthy_eq_some.mpr ⟨ht.1, hne⟩
      rw [(reconcileHost_merge hfind hok).2, writtenText, if_pos ho]
      exact congrArg (fun x => Option.or x a.ip) htruthy
    · have hget : r.data.ip.get = some t := by rw [ht.1]; rfl
      constructor
      · by_contra hinet
        obtain ⟨s', o, hok⟩ := (returns_create_withoutIp ht hfind).mpr
          ⟨hret, Option.isSome_iff_ne_none.mpr hinet⟩
        exact hreject hok ((reconcileHost_create hfind hok).1.trans hget)
      · intro hno
        obtain ⟨s', o, hok, -⟩ := htol t ht hno hret
        exact hreject hok ((reconcileHost_create hfind hok).1.trans hget)
  · intro h
    refine ⟨keepsValid_of_harmless hA hs h, fun t ht hno hret => ?_⟩
    have hfind : findExisting A s.db r.data = .ok none := by
      rw [← findExisting_withoutIp ht]
      have hmac : (withoutIp r).data.mac.truthy = none := hno.1
      have hname : lookupName (withoutIp r).data = none := hno.2
      unfold findExisting
      rw [hmac, hname]
      rfl
    exact absurd hno ((h t ht hret).2 hfind).2

/-- Conversions that know one text which is no address. -/
def knowing : Addressing where
  ipAddress t := if t = "unknown" then none else some t
  inet t := if t = "unknown" then none else some t
  macaddr := some

theorem lawful_knowing : Lawful knowing := by
  refine ⟨fun t v h => h, fun t v h => ?_⟩
  simp only [knowing, Option.ite_none_left_eq_some, Option.some.injEq] at h
  obtain ⟨hne, rfl⟩ := h
  simp [knowing, hne]

/-- A report that has nothing but an unparsable address. -/
def onlyUnknown : Report := { source := "dhcp_dns", data := { ip := .value "unknown" }, uuid := 1 }

theorem ignored_iff_onlyUnknown :
    Ignored knowing ⟨.empty, .empty⟩ onlyUnknown ↔
      ∀ t, Unparsable knowing onlyUnknown.data t →
        Acceptable knowing ⟨.empty, .empty⟩ onlyUnknown →
        Harmless knowing .empty onlyUnknown t :=
  ignored_iff lawful_knowing (fun _ ha => absurd ha List.not_mem_nil) onlyUnknown

/-- The report of a lease without an address raises, and the whole batch with it. -/
theorem invalid_address_not_ignored :
    ¬ Ignored knowing ⟨.empty, .empty⟩ onlyUnknown ∧
      ([⟨"dhcp_dns", { name := .value "printer", ip := .value "10.0.0.9" }, 0, 2⟩,
          onlyUnknown].foldlM (ReportOrder.reconcileHeld knowing)
        ⟨⟨.empty, .empty⟩, []⟩).toOption.isNone := by
  refine ⟨fun h => ?_, by decide +kernel⟩
  obtain ⟨s', o, hok, -⟩ := h.2 "unknown" ⟨rfl, by decide⟩ ⟨rfl, rfl⟩ ⟨_, _, rfl⟩
  have herr : reconcileHost knowing ⟨.empty, .empty⟩ onlyUnknown = .error .dataError := rfl
  rw [herr] at hok
  cases hok

end Kepryx.InvalidAddresses
