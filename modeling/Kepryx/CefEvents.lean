import Kepryx.AiValidation
import Kepryx.Cef

/-!
# Alerts as CEF events

`_syslog_cef` puts the fields of an alert into a CEF line as they are; only the pipes of the
description are replaced. The line reads as an event of that alert exactly if the fields hold
nothing that the format would have had to escape.
-/
namespace Kepryx.CefEvents

open Kepryx.AiValidation Kepryx.Cef

/-- The payload that `_dispatch_pending` hands over, as far as the event shows it. -/
structure Alert where
  alertType : String
  severity : String
  title : String
  description : String
  assetName : Option String
  details : Dict

/-- `sev_map.get(severity, 1)` -/
def severityNumber (severity : String) : ℕ :=
  match severity with
  | "critical" => 10
  | "high" => 8
  | "medium" => 5
  | "low" => 3
  | "info" => 1
  | _ => 1

/-- `description.replace("|", "_")` -/
def replacePipes (text : List Char) : List Char := text.map fun c => if c = '|' then '_' else c

/-- The text of `details.get("ip", "unknown")`. -/
def addressText (str : Json → String) (alert : Alert) : String :=
  match alert.details.lookup "ip" with
  | none => "unknown"
  | some ip => str ip

/-- `f"{text}"` where there may be no text. -/
def orNone (text : Option String) : String := text.getD "None"

/-- The text of `alert.get("asset_name", "")`, a key that is always there. -/
def assetText (alert : Alert) : String := orNone alert.assetName

/-- The datagram of `_syslog_cef`. -/
def syslogCef (str : Json → String) (alert : Alert) : List Char :=
  "CEF:0|Anthropic|KEPRYX|1.0|".toList ++
    (alert.alertType.toList ++ '|' :: (alert.title.toList ++ '|' ::
      ((toString (severityNumber alert.severity)).toList ++ '|' ::
        ("src=".toList ++ (addressText str alert).toList ++
          " msg=".toList ++ replacePipes alert.description.toList ++
          " cs1=".toList ++ (assetText alert).toList ++ " cs1Label=AssetName".toList))))

/-- The alert of `_create_from_source` about an asset that only a scan has seen. -/
def shadowAlert (source name : String) (ip mac : Option String) : Alert where
  alertType := "shadow_it"
  severity := "high"
  title := "Shadow IT detected: " ++ name
  description := "Asset discovered by " ++ source ++
    " only, not present in AD/CMDB/EDR. IP=" ++ orNone ip ++ ", MAC=" ++ orNone mac
  assetName := some name
  details := [("source", .str source), ("ip", ip.elim .null .str)]

/-! ## What the event must carry -/

/-- The event is the one of the alert. -/
structure Carries (alert : Alert) (e : Event) : Prop where
  signatureId : e.signatureId = alert.alertType.toList
  name : e.name = alert.title.toList
  severity : e.severity = (toString (severityNumber alert.severity)).toList
  keys : (e.extension.map Prod.fst).Perm
    ["src".toList, "msg".toList, "cs1".toList, "cs1Label".toList]
  msg : e.extension.lookup "msg".toList = some (replacePipes alert.description.toList)
  cs1 : e.extension.lookup "cs1".toList = some (alert.assetName.getD "").toList

/-- The datagram reads as exactly one event, and that is the one of the alert. -/
def Decodes (str : Json → String) (alert : Alert) : Prop :=
  ∃ e, parse (syslogCef str alert) = [some e] ∧ Carries alert e

/-- A text that can stand in the header as it is. -/
def HeaderSafe (text : String) : Prop := OneLine text.toList ∧ PlainField text.toList

/-- A text that can stand in the extension as it is. -/
def ValueSafe (text : String) : Prop := OneLine text.toList ∧ PlainValue text.toList

/-- Nothing in the fields would have to be escaped, and there is an asset. The address only has
to be readable as some value. -/
structure Clean (str : Json → String) (alert : Alert) : Prop where
  alertType : HeaderSafe alert.alertType
  title : HeaderSafe alert.title
  description : ValueSafe alert.description
  assetName : ∃ name, alert.assetName = some name ∧ ValueSafe name
  address : OneLine (addressText str alert).toList ∧ ∃ w, Reads (addressText str alert).toList w

/-! ## Reading the datagram -/

variable {str : Json → String} {alert : Alert}

/-- The extension of the datagram, pair by pair. -/
def extensionText (str : Json → String) (alert : Alert) : List Char :=
  "src".toList ++ '=' :: written (addressText str alert).toList
    [("msg".toList, replacePipes alert.description.toList),
      ("cs1".toList, (assetText alert).toList), ("cs1Label".toList, "AssetName".toList)]

theorem syslogCef_eq (str : Json → String) (alert : Alert) :
    syslogCef str alert = "CEF:0|Anthropic|KEPRYX|1.0|".toList ++
      (alert.alertType.toList ++ '|' :: (alert.title.toList ++ '|' ::
        ((toString (severityNumber alert.severity)).toList ++ '|' ::
          extensionText str alert))) := by
  have hsrc : "src=".toList = "src".toList ++ ['='] := by decide
  have hmsg : " msg=".toList = ' ' :: ("msg".toList ++ ['=']) := by decide
  have hcs1 : " cs1=".toList = ' ' :: ("cs1".toList ++ ['=']) := by decide
  have hlabel : " cs1Label=AssetName".toList =
      ' ' :: ("cs1Label".toList ++ '=' :: "AssetName".toList) := by decide
  unfold syslogCef extensionText
  rw [hsrc, hmsg, hcs1, hlabel]
  simp only [written, List.append_assoc, List.cons_append, List.nil_append]

theorem event_eq (rest : List Char) :
    event ("CEF:0|Anthropic|KEPRYX|1.0|".toList ++ rest) = (do
      let (signatureId, rest) ← field rest
      let (name, rest) ← field rest
      let (severity, rest) ← field rest
      let extension ← extension rest
      some ⟨"0".toList, "Anthropic".toList, "KEPRYX".toList, "1.0".toList, signatureId, name,
        severity, extension⟩) := by
  have hhead : "CEF:0|Anthropic|KEPRYX|1.0|".toList = 'C' :: 'E' :: 'F' :: ':' ::
      ("0".toList ++ '|' :: ("Anthropic".toList ++ '|' :: ("KEPRYX".toList ++ '|' ::
        ("1.0".toList ++ ['|'])))) := by decide
  have hplain : ∀ text ∈ ["0", "Anthropic", "KEPRYX", "1.0"], PlainField text.toList := by decide
  rw [hhead]
  simp only [List.cons_append, List.append_assoc, List.nil_append, event]
  simp only [Option.bind_eq_bind]
  rw [field_plain (hplain _ (by simp)), Option.bind_some, field_plain (hplain _ (by simp)),
    Option.bind_some, field_plain (hplain _ (by simp)), Option.bind_some,
    field_plain (hplain _ (by simp)), Option.bind_some]

/-- An event in place of the alert is read field by field. -/
theorem event_eq_some {rest : List Char} {e : Event}
    (h : event ("CEF:0|Anthropic|KEPRYX|1.0|".toList ++ rest) = some e) :
    ∃ r₁ r₂ r₃, field rest = some (e.signatureId, r₁) ∧ field r₁ = some (e.name, r₂) ∧
      field r₂ = some (e.severity, r₃) ∧ extension r₃ = some e.extension := by
  rw [event_eq] at h
  simp only [Option.bind_eq_bind, Option.bind_eq_some_iff, Prod.exists] at h
  obtain ⟨signatureId, r₁, h₁, name, r₂, h₂, severity, r₃, h₃, ext, h₄, he⟩ := h
  cases he
  exact ⟨r₁, r₂, r₃, h₁, h₂, h₃, h₄⟩

/-! ## Fields of the alert -/

theorem severityNumber_mem (severity : String) : severityNumber severity ∈ [10, 8, 5, 3, 1] := by
  unfold severityNumber
  split <;> decide

theorem plainField_severityNumber (severity : String) :
    PlainField (toString (severityNumber severity)).toList := by
  have hplain : ∀ n ∈ [10, 8, 5, 3, 1], PlainField (toString n).toList := by
    decide
  exact hplain _ (severityNumber_mem severity)

theorem plainValue_replacePipes {text : List Char} :
    PlainValue (replacePipes text) ↔ PlainValue text := by
  unfold PlainValue replacePipes
  rw [List.forall_mem_map]
  refine forall₂_congr fun c _ => ?_
  by_cases hc : c = '|'
  · subst hc
    decide
  · rw [if_neg hc]

theorem oneLine_replacePipes {text : List Char} : OneLine (replacePipes text) ↔ OneLine text := by
  unfold OneLine replacePipes
  rw [List.forall_mem_map]
  refine forall₂_congr fun c _ => ?_
  by_cases hc : c = '|'
  · subst hc
    decide
  · rw [if_neg hc]

theorem oneLine_append {s t : List Char} : OneLine (s ++ t) ↔ OneLine s ∧ OneLine t :=
  List.forall_mem_append

theorem oneLine_cons {c : Char} {t : List Char} :
    OneLine (c :: t) ↔ isBreak c = false ∧ OneLine t := List.forall_mem_cons

/-- The datagram is one line exactly if every text in it is. -/
theorem oneLine_syslogCef : OneLine (syslogCef str alert) ↔
    OneLine alert.alertType.toList ∧ OneLine alert.title.toList ∧
      OneLine (addressText str alert).toList ∧ OneLine alert.description.toList ∧
      OneLine (assetText alert).toList := by
  have hfixed : ∀ text ∈ ["CEF:0|Anthropic|KEPRYX|1.0|", "src=", " msg=", " cs1=",
      " cs1Label=AssetName"], OneLine text.toList := by
    decide
  have hseverity : OneLine (toString (severityNumber alert.severity)).toList := by
    have hline : ∀ n ∈ [10, 8, 5, 3, 1], OneLine (toString n).toList := by
      decide
    exact hline _ (severityNumber_mem alert.severity)
  have hpipe : isBreak '|' = false := by decide
  unfold syslogCef
  simp only [oneLine_append, oneLine_cons, oneLine_replacePipes, hpipe, hseverity,
    hfixed _ List.mem_cons_self, hfixed "src=" (by simp), hfixed " msg=" (by simp),
    hfixed " cs1=" (by simp), hfixed " cs1Label=AssetName" (by simp), true_and, and_true, and_assoc]

theorem plainValue_label : PlainValue "AssetName".toList := by
  decide

theorem plainValue_none : PlainValue "None".toList := by
  decide

/-! ## Which alerts are carried -/

/-- The pairs after the address. -/
def pairsAfter (alert : Alert) : List (List Char × List Char) :=
  [("msg".toList, replacePipes alert.description.toList),
    ("cs1".toList, (assetText alert).toList), ("cs1Label".toList, "AssetName".toList)]

theorem isKey_pairsAfter : ∀ p ∈ pairsAfter alert, isKey p.1 = true := by
  have hkeys : ∀ key ∈ (pairsAfter alert).map Prod.fst, isKey key = true := by
    change ∀ key ∈ ["msg".toList, "cs1".toList, "cs1Label".toList], isKey key = true
    decide
  exact fun p hp => hkeys p.1 (List.mem_map_of_mem hp)

theorem isKey_src : isKey "src".toList = true := by decide

/-- The four pairs of the extension. -/
def eventPairs (address msg name label : List Char) : List (List Char × List Char) :=
  [("src".toList, address), ("msg".toList, msg), ("cs1".toList, name), ("cs1Label".toList, label)]

theorem keys_eventPairs (address msg name label : List Char) :
    (eventPairs address msg name label).map Prod.fst =
      ["src".toList, "msg".toList, "cs1".toList, "cs1Label".toList] := rfl

theorem lookup_msg (address msg name label : List Char) :
    (eventPairs address msg name label).lookup "msg".toList = some msg := rfl

theorem lookup_cs1 (address msg name label : List Char) :
    (eventPairs address msg name label).lookup "cs1".toList = some name := rfl

/-- The extension has the four pairs exactly if every value in it is read. -/
theorem extensionText_eq {qs : List (List Char × List Char)} :
    extension (extensionText str alert) = some qs ∧ qs.length ≤ 4 ↔
      ∃ address msg name label, Reads (addressText str alert).toList address ∧
        Reads (replacePipes alert.description.toList) msg ∧
        Reads (assetText alert).toList name ∧ Reads "AssetName".toList label ∧
        qs = eventPairs address msg name label := by
  have hwritten : extension (extensionText str alert) = some qs ∧ qs.length ≤ 4 ↔
      ∃ w ws, Reads (addressText str alert).toList w ∧
        List.Forall₂ ReadsPair (pairsAfter alert) ws ∧ qs = ("src".toList, w) :: ws :=
    extension_written isKey_src isKey_pairsAfter
  rw [hwritten]
  constructor
  · rintro ⟨address, ws, haddress, hws, rfl⟩
    simp only [pairsAfter, List.forall₂_cons_left_iff, List.forall₂_nil_left_iff] at hws
    obtain ⟨⟨k₁, msg⟩, _, ⟨hk₁, hmsg⟩, ⟨⟨k₂, name⟩, _, ⟨hk₂, hname⟩,
      ⟨⟨k₃, label⟩, _, ⟨hk₃, hlabel⟩, rfl, rfl⟩, rfl⟩, rfl⟩ := hws
    obtain rfl : k₁ = "msg".toList := hk₁
    obtain rfl : k₂ = "cs1".toList := hk₂
    obtain rfl : k₃ = "cs1Label".toList := hk₃
    exact ⟨address, msg, name, label, haddress, hmsg, hname, hlabel, rfl⟩
  · rintro ⟨address, msg, name, label, haddress, hmsg, hname, hlabel, rfl⟩
    refine ⟨address, [("msg".toList, msg), ("cs1".toList, name), ("cs1Label".toList, label)],
      haddress, ?_, rfl⟩
    exact .cons ⟨rfl, hmsg⟩ (.cons ⟨rfl, hname⟩ (.cons ⟨rfl, hlabel⟩ .nil))

theorem length_of_keys {e : Event} (h : Carries alert e) : e.extension.length ≤ 4 := by
  have hlength := h.keys.length_eq
  rw [List.length_map] at hlength
  exact Nat.le_of_eq hlength

/-- The event of a clean alert is read as it was meant. -/
theorem decodes_of_clean (h : Clean str alert) : Decodes str alert := by
  obtain ⟨name, hname, hnameLine, hnamePlain⟩ := h.assetName
  have hasset : assetText alert = name := by rw [assetText, orNone, hname, Option.getD_some]
  obtain ⟨haddressLine, address, haddress⟩ := h.address
  have hline : OneLine (syslogCef str alert) :=
    oneLine_syslogCef.mpr ⟨h.alertType.1, h.title.1, haddressLine, h.description.1,
      hasset.symm ▸ hnameLine⟩
  have hextension : extension (extensionText str alert) = some (eventPairs address
      (replacePipes alert.description.toList) (assetText alert).toList "AssetName".toList) ∧ _ :=
    extensionText_eq.mpr ⟨address, _, _, _, haddress,
      reads_self (plainValue_replacePipes.mpr h.description.2),
      reads_self (hasset.symm ▸ hnamePlain), reads_self plainValue_label, rfl⟩
  refine ⟨⟨"0".toList, "Anthropic".toList, "KEPRYX".toList, "1.0".toList, alert.alertType.toList,
    alert.title.toList, (toString (severityNumber alert.severity)).toList,
    eventPairs address (replacePipes alert.description.toList) (assetText alert).toList
      "AssetName".toList⟩, ?_, ?_⟩
  · rw [parse, lines_of_oneLine hline, List.map_singleton, syslogCef_eq, event_eq]
    simp only [Option.bind_eq_bind]
    rw [field_plain h.alertType.2, Option.bind_some, field_plain h.title.2, Option.bind_some,
      field_plain (plainField_severityNumber _), Option.bind_some, hextension.1, Option.bind_some]
  · refine ⟨rfl, rfl, rfl, .of_eq (keys_eventPairs _ _ _ _), lookup_msg _ _ _ _, ?_⟩
    rw [hname, Option.getD_some, ← hasset]
    exact lookup_cs1 _ _ _ _

/-- What an event of the alert needed to be read as such. -/
theorem clean_of_decodes (h : Decodes str alert) : Clean str alert := by
  obtain ⟨e, hparse, hcarries⟩ := h
  obtain ⟨line, hlines, hevent⟩ := List.map_eq_singleton_iff.mp hparse
  have hline := oneLine_of_lines hlines
  obtain rfl : syslogCef str alert = line := by
    rw [lines_of_oneLine hline] at hlines
    exact List.singleton_inj.mp hlines
  obtain ⟨htypeLine, htitleLine, haddressLine, hmsgLine, hassetLine⟩ := oneLine_syslogCef.mp hline
  rw [syslogCef_eq] at hevent
  obtain ⟨r₁, r₂, r₃, hid, hname, hseverity, hextension⟩ := event_eq_some hevent
  rw [hcarries.signatureId] at hid
  obtain ⟨htype, rfl⟩ := field_self hid
  rw [hcarries.name] at hname
  obtain ⟨htitle, rfl⟩ := field_self hname
  rw [hcarries.severity] at hseverity
  obtain ⟨-, rfl⟩ := field_self hseverity
  obtain ⟨address, msg, cs1, label, haddress, hmsg, hcs1, -, hpairs⟩ :=
    extensionText_eq.mp ⟨hextension, length_of_keys hcarries⟩
  have hmsgValue : some msg = some (replacePipes alert.description.toList) := by
    rw [← hcarries.msg, hpairs, lookup_msg]
  have hcs1Value : some cs1 = some (alert.assetName.getD "").toList := by
    rw [← hcarries.cs1, hpairs, lookup_cs1]
  obtain rfl := Option.some.inj hmsgValue
  obtain rfl := Option.some.inj hcs1Value
  refine ⟨⟨htypeLine, htype⟩, ⟨htitleLine, htitle⟩,
    ⟨hmsgLine, plainValue_replacePipes.mp (reads_self_iff.mp hmsg)⟩, ?_,
    ⟨haddressLine, address, haddress⟩⟩
  cases hasset : alert.assetName with
  | none =>
    -- the asset that is missing was written as a word
    rw [assetText, orNone, hasset] at hcs1
    exact absurd (hcs1.unique (reads_self plainValue_none)) (by decide)
  | some name =>
    rw [assetText, orNone, hasset] at hcs1 hassetLine
    exact ⟨name, rfl, hassetLine, reads_self_iff.mp hcs1⟩

/-- An alert is read as exactly the event that was meant if and only if its texts are free of what
the format escapes, and there is an asset. -/
theorem syslogCef_decodes_iff (str : Json → String) (alert : Alert) :
    Decodes str alert ↔ Clean str alert := ⟨clean_of_decodes, decodes_of_clean⟩

example : parse (syslogCef (fun _ => "10.0.0.5")
    ⟨"edr_gap", "high", "No EDR", "web-1 has|no agent", some "web-1", []⟩) =
    [some ⟨"0".toList, "Anthropic".toList, "KEPRYX".toList, "1.0".toList, "edr_gap".toList,
      "No EDR".toList, "8".toList, eventPairs "unknown".toList "web-1 has_no agent".toList
        "web-1".toList "AssetName".toList⟩] := by decide +kernel

/-- The description of a shadow asset has equals signs of its own: no such alert is read. -/
theorem shadowAlert_not_decodes (str : Json → String) (source name : String)
    (ip mac : Option String) : ¬ Decodes str (shadowAlert source name ip mac) := by
  intro h
  have hplain := (clean_of_decodes h).description.2
  have hmem : '=' ∈ (shadowAlert source name ip mac).description.toList := by
    simp only [shadowAlert, String.toList_append, List.mem_append]
    exact .inl (.inl (.inl (.inr (by decide))))
  exact (hplain _ hmem).1 rfl

/-- A host that only the scan of its network has found. -/
theorem scanned_host_not_decodes : ∃ alert, ∀ str, ¬ Decodes str alert :=
  ⟨shadowAlert "network_scan" "host-7" (some "10.0.0.5") none,
    fun str => shadowAlert_not_decodes str _ _ _ _⟩

end Kepryx.CefEvents
