import Kepryx.CsvExports
import Kepryx.Paging

/-!
# The pages of the alerts

`GET /alerts` answers one page of the alerts that meet its filters, the newest first. Each page is
a request of its own, between which alerts are raised, resolved and deleted, and the total is
counted by a statement of its own.
-/
namespace Kepryx.AlertPages
open Kepryx.AlertLifecycle Kepryx.Models Kepryx.Paging Kepryx.Runs Kepryx.Tables
open Kepryx.CsvExports (NewestFirst statusText)

/-- The filters of the request; an empty text asks for nothing. -/
structure Filters where
  status : Option String := none
  severity : Option String := none
  alertType : Option String := none

/-- The parameters that pick a page, within their bounds. -/
structure PageQuery where
  page : ℕ := 1
  pageSize : ℕ := 50
  page_pos : 1 ≤ page := by decide
  pageSize_bounds : 1 ≤ pageSize ∧ pageSize ≤ 200 := by decide

/-- The `where` clauses. -/
def Filters.admits (f : Filters) (a : StoredAlert) : Bool :=
  (f.status.filter (· ≠ "")).all (· = statusText a.status) &&
  (f.severity.filter (· ≠ "")).all (· = a.severity) &&
  (f.alertType.filter (· ≠ "")).all (· = a.alertType)

structure Listing where
  items : List StoredAlert
  total : ℕ
  page : ℕ
  pageSize : ℕ

abbrev Alerts := Table StoredAlert.id

/-- The rows that meet the filters, in the order of the answer. -/
def matching (order : NewestFirst) (f : Filters) (alerts : Alerts) : List StoredAlert :=
  order.arrange (alerts.rows.filter f.admits)

/-- `list_alerts`: the rows are counted in one state of the table and read in a later one. -/
def listAlerts (order : NewestFirst) (f : Filters) (q : PageQuery) (counted listed : Alerts) :
    Listing where
  items := ((matching order f listed).drop ((q.page - 1) * q.pageSize)).take q.pageSize
  total := (counted.rows.filter f.admits).length
  page := q.page
  pageSize := q.pageSize

variable {order : NewestFirst} {f : Filters}

theorem mem_matching {alerts : Alerts} {a : StoredAlert} :
    a ∈ matching order f alerts ↔ a ∈ alerts.rows ∧ f.admits a := by
  rw [matching, (order.perm _).mem_iff, List.mem_filter]

/-! ## A client that reads page after page -/

/-- The alerts in a run, at the requests for the pages. -/
def tables (now : Time) (es : ℕ → List Event) (k : ℕ) : Alerts :=
  (run step (start now) (es k)).alerts

/-- The alert is there and meets the filters. -/
def Listed (f : Filters) (alerts : Alerts) (id : ℕ) : Prop :=
  ∃ a ∈ alerts.rows, a.id = id ∧ f.admits a = true

/-- Another alert that meets the filters was created at the same instant. -/
def Tied (f : Filters) (alerts : Alerts) (id : ℕ) : Prop :=
  ∃ a ∈ alerts.rows, a.id = id ∧
    ∃ b ∈ alerts.rows, b.id ≠ id ∧ f.admits b = true ∧ b.createdAt = a.createdAt

/-- The alert was deleted, or it was resolved and the filters do not ask for resolved alerts. -/
def Gone (f : Filters) (b : StoredAlert) (alerts : Alerts) : Prop :=
  (∀ c ∈ alerts.rows, c.id ≠ b.id) ∨
    b.status = .open ∧ ∃ c ∈ alerts.rows, c.id = b.id ∧ c.status = .resolved ∧ f.admits c = false

theorem alone_matching {alerts : Alerts} {a : StoredAlert} (ha : a ∈ alerts.rows)
    (hadmits : f.admits a = true) (htied : ¬ Tied f alerts a.id) :
    Alone (fun b : StoredAlert => b.createdAt) StoredAlert.id a (matching order f alerts) where
  sorted := order.sorted _
  nodup := ((order.perm _).map StoredAlert.id).nodup_iff.mpr
    ((List.filter_sublist.map StoredAlert.id).nodup alerts.nodup)
  mem := mem_matching.mpr ⟨ha, hadmits⟩
  unique b hb htime := by
    obtain ⟨hb, hbf⟩ := mem_matching.mp hb
    by_contra hid
    exact htied ⟨a, ha, rfl, b, hb, hid, hbf, htime⟩

section Run
variable {now : Time} {es : ℕ → List Event}

theorem prefix_of_le (hes : ∀ k, es k <+: es (k + 1)) {k l : ℕ} (h : k ≤ l) : es k <+: es l := by
  induction l, h using Nat.le_induction with
  | base => exact List.prefix_refl _
  | succ l _ ih => exact ih.trans (hes l)

/-- An alert at a request is what it has become at a later one. -/
theorem later_tables (hes : ∀ k, es k <+: es (k + 1)) {k l : ℕ} (h : k ≤ l) {a b : StoredAlert}
    (ha : a ∈ (tables now es k).rows) (hb : b ∈ (tables now es l).rows) (hid : b.id = a.id) :
    Later a b := by
  obtain ⟨rest, hrest⟩ := prefix_of_le hes h
  have hrun : run step (start now) (es l) = run step (run step (start now) (es k)) rest := by
    rw [← hrest]
    exact List.foldl_append
  rw [tables, hrun] at hb
  exact later_run (consistent_run now (es k)) ha hb hid

/-- Nothing but its resolution takes a stored alert out of the list. -/
theorem gone_of_lost (hes : ∀ k, es k <+: es (k + 1)) {k : ℕ} {b : StoredAlert}
    (hb : b ∈ (tables now es k).rows) (hbf : f.admits b = true)
    (hlost : ¬ Listed f (tables now es (k + 1)) b.id) : Gone f b (tables now es (k + 1)) := by
  by_cases hthere : ∃ c ∈ (tables now es (k + 1)).rows, c.id = b.id
  · obtain ⟨c, hc, hid⟩ := hthere
    have hlater : Later b c := later_tables hes (Nat.le_succ k) hb hc hid
    have hcf : f.admits c = false := by
      by_contra hcf
      exact hlost ⟨c, hc, hid, Bool.not_eq_false _ ▸ hcf⟩
    -- of what the filters ask for, only the status can have changed
    have hstatus : b.status ≠ c.status := by
      intro hsame
      have hadmits : f.admits c = f.admits b := by
        rw [Filters.admits, Filters.admits, hlater.severity, hlater.alertType, hsame]
      rw [hadmits, hbf] at hcf
      cases hcf
    refine .inr ⟨?_, c, hc, hid, ?_, hcf⟩
    · cases hb' : b.status with
      | «open» => rfl
      | resolved => exact absurd (hb'.trans (hlater.resolved hb').symm) hstatus
    · cases hc' : c.status with
      | resolved => rfl
      | «open» =>
        cases hb' : b.status with
        | «open» => exact absurd (hb'.trans hc'.symm) hstatus
        | resolved => exact absurd (hb'.trans (hlater.resolved hb').symm) hstatus
  · exact .inl fun c hc hid => hthere ⟨c, hc, hid⟩

/-- A client reads one page after the other, each from the table as it then is, up to one that is
not full. An alert that meets the filters all the time is on none of the pages only if another one
was created at the same instant, or if between two of the pages a newer one was resolved or
deleted. -/
theorem missed_alert (f : Filters) (now : Time) (es : ℕ → List Event)
    (hes : ∀ k, es k <+: es (k + 1)) (order : ℕ → NewestFirst) (counted : ℕ → Alerts)
    (pages : ℕ → PageQuery) (id : ℕ) {size last : ℕ} (hlast : 1 ≤ last)
    (hpages : ∀ k, 1 ≤ k → k ≤ last → (pages k).page = k ∧ (pages k).pageSize = size)
    (ha : ∀ k, 1 ≤ k → k ≤ last → Listed f (tables now es k) id)
    (hshort : (listAlerts (order last) f (pages last) (counted last)
      (tables now es last)).items.length < size)
    (hmissed : ∀ k, 1 ≤ k → k ≤ last → id ∉
      (listAlerts (order k) f (pages k) (counted k) (tables now es k)).items.map StoredAlert.id) :
    (∃ k, 1 ≤ k ∧ k ≤ last ∧ Tied f (tables now es k) id) ∨
      ∃ k, 1 ≤ k ∧ k < last ∧ ∃ a ∈ (tables now es k).rows, a.id = id ∧
        ∃ b ∈ (tables now es k).rows, f.admits b = true ∧ a.createdAt < b.createdAt ∧
          Gone f b (tables now es (k + 1)) := by
  refine or_iff_not_imp_left.mpr fun htied => ?_
  have hitems : ∀ k, 1 ≤ k → k ≤ last →
      (listAlerts (order k) f (pages k) (counted k) (tables now es k)).items =
        page size k (matching (order k) f (tables now es k)) := by
    intro k hk hkl
    obtain ⟨hpage, hsize⟩ := hpages k hk hkl
    rw [listAlerts, hpage, hsize]
    rfl
  -- the row of the alert at each request
  obtain ⟨a₁, -⟩ := ha 1 (Nat.le_refl 1) hlast
  have hrows : ∀ k, ∃ a : StoredAlert, 1 ≤ k → k ≤ last →
      a ∈ (tables now es k).rows ∧ a.id = id ∧ f.admits a = true := by
    intro k
    by_cases hk : 1 ≤ k ∧ k ≤ last
    · obtain ⟨a, hmem, hrow⟩ := ha k hk.1 hk.2
      exact ⟨a, fun _ _ => ⟨hmem, hrow⟩⟩
    · exact ⟨a₁, fun h h' => absurd ⟨h, h'⟩ hk⟩
  choose r hr using hrows
  have hsame : ∀ k, 1 ≤ k → k ≤ last → (r k).createdAt = (r 1).createdAt := by
    intro k hk hkl
    obtain ⟨hrow, hid, -⟩ := hr k hk hkl
    obtain ⟨hrow₁, hid₁, -⟩ := hr 1 (Nat.le_refl 1) hlast
    exact (later_tables hes hk hrow₁ hrow (hid.trans hid₁.symm)).createdAt
  have halone : ∀ k, 1 ≤ k → k ≤ last → Alone (fun b : StoredAlert => b.createdAt) StoredAlert.id
      (r k) (matching (order k) f (tables now es k)) := by
    intro k hk hkl
    obtain ⟨hrow, hid, hadmits⟩ := hr k hk hkl
    exact alone_matching hrow hadmits fun h => htied ⟨k, hk, hkl, hid ▸ h⟩
  rw [hitems last hlast (Nat.le_refl _)] at hshort
  obtain ⟨k, hk, hkl, b, hb, hlt, hlost⟩ := lost_of_missed hlast halone hsame hshort
    fun k hk hkl hmem => hmissed k hk hkl (by
      rw [hitems k hk hkl]
      exact List.mem_map.mpr ⟨r k, hmem, (hr k hk hkl).2.1⟩)
  obtain ⟨hb, hbf⟩ := mem_matching.mp hb
  obtain ⟨hrow, hid, -⟩ := hr k hk hkl.le
  refine ⟨k, hk, hkl, r k, hrow, hid, b, hb, hbf, (hsame k hk hkl.le).trans_lt hlt,
    gone_of_lost hes hb hbf ?_⟩
  rintro ⟨c, hc, hidc, hcf⟩
  have htime : c.createdAt = b.createdAt := (later_tables hes (Nat.le_succ k) hb hc hidc).createdAt
  exact hlost c (mem_matching.mpr ⟨hc, hcf⟩) (htime.symm ▸ hlt) hidc

end Run

/-! ## An alert on no page -/

/-- The second of two alerts is resolved after the first page. -/
def resolvedMeanwhile (k : ℕ) : List Event :=
  [.raise inactiveUser 0, .tick 60000000, .raise inactiveUser 0] ++
    if k ≤ 1 then [] else [.load (.resolveAlert 1 "root") 0, .finish 0 true]

def onePerPage (k : ℕ) : PageQuery where
  page := max k 1
  pageSize := 1
  page_pos := Nat.le_max_right k 1

def openAlerts : Filters := ⟨some "open", none, none⟩

/-- The second page is empty, and the older of the two open alerts is on none. -/
theorem older_alert_missed : ∃ k, 1 ≤ k ∧ k < 2 ∧
    ∃ a ∈ (tables 0 resolvedMeanwhile k).rows, a.id = 0 ∧
      ∃ b ∈ (tables 0 resolvedMeanwhile k).rows, openAlerts.admits b = true ∧
        a.createdAt < b.createdAt ∧ Gone openAlerts b (tables 0 resolvedMeanwhile (k + 1)) := by
  have hcases : ∀ k, 1 ≤ k → k ≤ 2 → k = 1 ∨ k = 2 := fun k hk hk2 => by omega
  refine (missed_alert openAlerts 0 resolvedMeanwhile (fun k => ?_)
    (fun _ => GraphEvidence.inTableOrder _) (tables 0 resolvedMeanwhile) onePerPage 0
    (by decide) (fun k hk _ => ⟨Nat.max_eq_left hk, rfl⟩) ?_ (by decide +kernel) ?_).resolve_left ?_
  · refine (List.prefix_append_right_inj _).mpr ?_
    by_cases hk : k ≤ 0
    · rw [if_pos (by omega), if_pos (by omega)]
    · rw [if_neg (by omega : ¬ k + 1 ≤ 1)]
      split
      · exact List.nil_prefix
      · exact List.prefix_refl _
  · intro k hk hk2
    rcases hcases k hk hk2 with rfl | rfl <;> unfold Listed <;> decide +kernel
  · intro k hk hk2
    rcases hcases k hk hk2 with rfl | rfl <;> decide +kernel
  · rintro ⟨k, hk, hk2, htied⟩
    revert htied
    rcases hcases k hk hk2 with rfl | rfl <;> unfold Tied <;> decide +kernel

end Kepryx.AlertPages
