import Mathlib.Data.Rat.Defs
import Kepryx.Tables
import Kepryx.UnitOfWork

/-!
# Stored rows

The tables that inventory, enrichment and scoring share, with the columns that
those paths read or write. Timestamps are microseconds. A JSON column that can
hold a null is an `Option`. A database is a value: a committed transaction is
the step from one to the next, and a rolled back one leaves it as it was.
-/
namespace Kepryx.Models
open Kepryx.Tables

/-- Microseconds since the epoch, as a `timestamptz` column keeps them. -/
abbrev Time := ℤ

def hours (n : ℤ) : Time := n * 3600000000
def days (n : ℤ) : Time := n * 86400000000

/-- What a dictionary holds under one key: nothing, a null, or a value. -/
inductive Entry (α : Type*) where
  | missing
  | null
  | value (a : α)
  deriving DecidableEq, Repr

namespace Entry
variable {α : Type*}

/-- `d.get(key)` -/
def get : Entry α → Option α
  | missing => none
  | null => none
  | value a => some a

/-- `d.get(key, default)` -/
def getD (e : Entry α) (default : α) : Option α :=
  match e with
  | missing => some default
  | null => none
  | value a => some a

/-- `d.get(key)` in a boolean position: a missing key, a null and an empty text are false. -/
def truthy (e : Entry String) : Option String := e.get.filter (· ≠ "")

theorem truthy_eq_some {e : Entry String} {s : String} :
    e.truthy = some s ↔ e = .value s ∧ s ≠ "" := by
  cases e <;> simp [truthy, get, Option.filter_eq_some_iff]

end Entry

/-- The exceptions that a statement or a flush can raise. -/
inductive DbError where
  | multipleResultsFound
  | notNullViolation
  | dataError
  | uniqueViolation
  deriving DecidableEq, Repr

inductive Tier where
  | critical | high | medium | low | informational
  deriving DecidableEq, Repr

/-- The factor scores of one asset. -/
structure Breakdown where
  cve : ℤ
  kev : ℤ
  controls : ℤ
  exposure : ℤ
  access : ℤ
  criticality : ℤ
  dataClassification : ℤ
  deriving DecidableEq, Repr

/-- A scanned service: the entries of its dictionary. -/
abbrev Service := List (String × String)

/-- The free-form `attrs` document: its `services` entry and the other entries. -/
structure Attrs where
  services : Entry (List Service) := .missing
  other : List (String × String) := []
  deriving DecidableEq, Repr

/-- Every column of an asset but `sources`. -/
structure AssetColumns where
  id : ℕ
  name : String
  type : String
  os : Option String
  ip : Option String
  mac : Option String
  segment : Option String
  edrStatus : Option String
  controlCoverage : String
  networkExposure : String
  authMethod : String
  criticality : String
  dataClassification : String
  dependencies : Option (List String)
  softwareStack : Option (List String)
  cpe : Option (List String)
  eolStatus : Bool
  riskScore : ℤ
  riskTier : Tier
  riskBreakdown : Option Breakdown
  firstSeen : Time
  lastSeen : Time
  isShadow : Bool
  isStale : Bool
  tags : Option (List String)
  attrs : Option Attrs
  deriving DecidableEq, Repr

/-- A row of `assets`. -/
structure Asset extends AssetColumns where
  sources : Option (List String)
  deriving DecidableEq, Repr

/-- `asset.sources or []` -/
def Asset.sourceList (a : Asset) : List String := a.sources.getD []

/-- A row of `cves`. -/
structure CVE where
  id : String
  cvssV3 : Option ℚ
  cvssVector : Option String
  epssScore : Option ℚ
  epssPercentile : Option ℚ
  kev : Bool
  description : Option String
  affectedCpes : List String
  lastSynced : Time
  kevDateAdded : Option Time := none
  published : Option Time := none
  modified : Option Time := none
  deriving DecidableEq, Repr

/-- A row of `asset_cves`. -/
structure AssetCVE where
  assetId : ℕ
  cveId : String
  matchedCpe : Option String
  suppressed : Bool := false
  remediated : Bool := false
  deriving DecidableEq, Repr

/-- The primary key of `asset_cves`. -/
def AssetCVE.key (l : AssetCVE) : ℕ × String := (l.assetId, l.cveId)

inductive AlertType where
  | drift | shadowIt | staleAsset | edrGap
  deriving DecidableEq, Repr

inductive Severity where
  | low | medium | high | critical
  deriving DecidableEq, Repr

inductive AlertStatus where
  | open | resolved
  deriving DecidableEq, Repr

/-- A row of `alerts`. -/
structure Alert where
  alertType : AlertType
  severity : Severity
  title : String
  description : String
  assetId : Option ℕ
  details : List (String × Option String) := []
  status : AlertStatus := .open
  createdAt : Time
  deriving DecidableEq, Repr

structure Database where
  assets : Table (fun a : Asset => a.id)
  cves : Table CVE.id
  assetCves : Table AssetCVE.key
  alerts : List Alert

def Database.empty : Database := ⟨.empty, .empty, .empty, []⟩

/-- The flush of a loaded asset. Nothing changed: no statement. Otherwise an UPDATE, which
carries the `onupdate=func.now()` of `last_seen` unless `last_seen` itself was changed. -/
def flushUpdate (now : Time) (loaded current : Asset) : Asset :=
  if current = loaded then loaded
  else
    { current with
      lastSeen := if current.lastSeen = loaded.lastSeen then now else current.lastSeen }

@[simp] theorem flushUpdate_self (now : Time) (a : Asset) : flushUpdate now a a = a := by
  simp [flushUpdate]

/-- Apart from `last_seen` a flush stores the current values. -/
theorem flushUpdate_eq (now : Time) (loaded current : Asset) :
    flushUpdate now loaded current =
      { current with lastSeen := (flushUpdate now loaded current).lastSeen } := by
  unfold flushUpdate
  split
  · rename_i h
    rw [h]
  · rfl

theorem flushUpdate_lastSeen_of_changed {now : Time} {loaded current : Asset}
    (hne : current ≠ loaded) (hl : current.lastSeen = loaded.lastSeen) :
    (flushUpdate now loaded current).lastSeen = now := by
  simp [flushUpdate, hne, hl]

end Kepryx.Models
