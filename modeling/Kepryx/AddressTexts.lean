import Kepryx.IpLiterals

/-!
# A text for every address

Four decimal octets, or eight hextets of four digits with the scope after them. The strict reader
reads the text of every address that it returns as the same address.
-/
namespace Kepryx.IpLiterals

open Kepryx.IpNetworks (Version Address)

/-! ## Octets -/

/-- The octets of a number in decimal, with dots between them. -/
def dottedText (n : ℕ) : List Char :=
  ['.'].intercalate ([n / 16777216, n / 65536 % 256, n / 256 % 256, n % 256].map (Nat.toDigits 10))

theorem octet_facts : ∀ n < 256,
    parseOctet (Nat.toDigits 10 n) = some n ∧ '.' ∉ Nat.toDigits 10 n := by
  decide +kernel

theorem ipv4Int_dottedText {n : ℕ} (h : n < 2 ^ 32) : ipv4Int (dottedText n) = some n := by
  have ha := octet_facts (n / 16777216) (by omega)
  have hb := octet_facts (n / 65536 % 256) (Nat.mod_lt _ (by decide))
  have hc := octet_facts (n / 256 % 256) (Nat.mod_lt _ (by decide))
  have hd := octet_facts (n % 256) (Nat.mod_lt _ (by decide))
  have hsplit : (dottedText n).splitOn '.' = _ :=
    List.splitOn_intercalate '.' (by simpa using ⟨ha.2, hb.2, hc.2, hd.2⟩) (by simp)
  refine ipv4Int_eq_some.mpr ⟨_, _, _, _, _, _, _, _, hsplit, ha.1, hb.1, hc.1, hd.1, ?_⟩
  unfold octets
  omega

/-! ## Hextets -/

/-- Four hexadecimal digits. -/
def hextetText (n : ℕ) : List Char :=
  [n / 4096 % 16, n / 256 % 16, n / 16 % 16, n % 16].map Nat.digitChar

theorem digitValue_digitChar : ∀ d < 16, digitValue (Nat.digitChar d) = some d := by decide

theorem pushDigit_digitChar (n m : ℕ) :
    pushDigit 16 n (Nat.digitChar (m % 16)) = some (16 * n + m % 16) := by
  have hlt : m % 16 < 16 := Nat.mod_lt _ (by decide)
  rw [pushDigit, digitValue_digitChar _ hlt, Option.filter_some, if_pos (decide_eq_true hlt)]
  rfl

theorem parseHextet_hextetText {n : ℕ} (h : n < 65536) : parseHextet (hextetText n) = some n := by
  have hread : readNat 16 (hextetText n) = some (16 * (16 * (16 * (16 * 0 + n / 4096 % 16) +
      n / 256 % 16) + n / 16 % 16) + n % 16) := by
    simp only [hextetText, List.map_cons, List.map_nil, readNat, List.foldlM_cons,
      List.foldlM_nil, pushDigit_digitChar, Option.bind_eq_bind, Option.bind_some, Option.pure_def]
  have hlength : ¬ 4 < (hextetText n).length := by simp [hextetText]
  rw [parseHextet, if_neg hlength, hread, Option.some.injEq]
  omega

theorem mem_hextetText {n : ℕ} {c : Char} (h : c ∈ hextetText n) :
    c ∉ ['.', ':', '%', '/'] := by
  have hall : ∀ d < 16, Nat.digitChar d ∉ ['.', ':', '%', '/'] := by decide
  obtain ⟨d, hd, rfl⟩ := List.mem_map.mp h
  refine hall d ?_
  simp only [List.mem_cons, List.not_mem_nil, or_false] at hd
  omega

/-- The last hextets of a number. -/
def hextetTexts : ℕ → ℕ → List (List Char)
  | 0, _ => []
  | k + 1, n => hextetTexts k (n / 65536) ++ [hextetText (n % 65536)]

theorem length_hextetTexts (k n : ℕ) : (hextetTexts k n).length = k := by
  induction k generalizing n with
  | zero => rfl
  | succ k ih => rw [hextetTexts, List.length_append, ih, List.length_singleton]

theorem exists_of_mem_hextetTexts {k n : ℕ} {part : List Char} (h : part ∈ hextetTexts k n) :
    ∃ m, part = hextetText m := by
  induction k generalizing n with
  | zero => cases h
  | succ k ih =>
    rcases List.mem_append.mp h with h | h
    · exact ih h
    · exact ⟨_, List.mem_singleton.mp h⟩

theorem hextets_hextetTexts (k : ℕ) {n : ℕ} (h : n < 65536 ^ k) :
    hextets 0 (hextetTexts k n) = some n := by
  induction k generalizing n with
  | zero =>
    obtain rfl : n = 0 := Nat.lt_one_iff.mp h
    rfl
  | succ k ih =>
    rw [Nat.pow_succ'] at h
    have hhigh := ih (Nat.div_lt_of_lt_mul h)
    rw [hextets] at hhigh
    rw [hextets, hextetTexts, List.foldlM_append, hhigh]
    simp only [Option.bind_eq_bind, Option.bind_some, List.foldlM_cons, List.foldlM_nil,
      parseHextet_hextetText (Nat.mod_lt n (by decide : 0 < 65536)), Option.map_some,
      Option.pure_def, Option.some.injEq]
    exact Nat.div_add_mod n 65536

def colonText (n : ℕ) : List Char := [':'].intercalate (hextetTexts 8 n)

theorem skips_eq_nil {parts : List (List Char)} (h : [] ∉ parts) : skips parts = [] := by
  refine List.filter_eq_nil_iff.mpr fun i _ hi => h ?_
  rw [decide_eq_true_eq] at hi
  exact List.mem_of_getElem? hi.2.2

theorem ipv6Int_colonText {n : ℕ} (h : n < 2 ^ 128) : ipv6Int (colonText n) = some n := by
  have hpart : ∀ part ∈ hextetTexts 8 n, part ≠ [] ∧ '.' ∉ part ∧ ':' ∉ part := by
    intro part hmem
    obtain ⟨m, rfl⟩ := exists_of_mem_hextetTexts hmem
    exact ⟨by simp [hextetText], fun hdot => mem_hextetText hdot (by decide),
      fun hcolon => mem_hextetText hcolon (by decide)⟩
  have hlength := length_hextetTexts 8 n
  have hne : hextetTexts 8 n ≠ [] := by
    rw [← List.length_pos_iff, hlength]
    decide
  have hsplit : (colonText n).splitOn ':' = hextetTexts 8 n :=
    List.splitOn_intercalate ':' (fun part hmem => (hpart part hmem).2.2) hne
  have hlast : '.' ∉ (hextetTexts 8 n).getLast?.getD [] := by
    rw [List.getLast?_eq_some_getLast hne]
    exact (hpart _ (List.getLast_mem hne)).2.1
  have hparts : ipv6Parts (colonText n) = some (hextetTexts 8 n) := by
    simp only [ipv6Parts, hsplit, hlength]
    rw [if_neg (by decide), if_neg hlast]
  have hskips : skips (hextetTexts 8 n) = [] :=
    skips_eq_nil fun hnil => (hpart [] hnil).1 rfl
  rw [ipv6Int, hparts, Option.bind_some, if_neg (by rw [hlength]; decide), hskips]
  dsimp only
  rw [if_neg (not_not.mpr hlength)]
  exact hextets_hextetTexts 8 (h.trans_le (by norm_num))

/-! ## Scopes -/

def scopeText : Option String → List Char
  | none => []
  | some scope => '%' :: scope.toList

/-- What is read as a scope. -/
theorem scope_facts {text addr : List Char} {scope : Option String}
    (h : splitScope text = some (addr, scope)) (hslash : '/' ∉ text) :
    '/' ∉ scopeText scope ∧ ∀ s, scope = some s → s.toList ≠ [] ∧ '%' ∉ s.toList := by
  unfold splitScope at h
  split at h
  · obtain ⟨-, rfl⟩ := Prod.mk.inj (Option.some.inj h)
    exact ⟨List.not_mem_nil, fun s hs => by cases hs⟩
  · rename_i c rest hdrop
    split_ifs at h with hbad
    obtain ⟨-, rfl⟩ := Prod.mk.inj (Option.some.inj h)
    rw [not_or] at hbad
    constructor
    · rw [scopeText, String.toList_ofList, List.mem_cons, not_or]
      refine ⟨by decide, fun hmem => hslash ?_⟩
      exact (List.dropWhile_subset _) (hdrop ▸ List.mem_cons_of_mem c hmem)
    · rintro s hs
      obtain rfl := Option.some.inj hs
      rw [String.toList_ofList]
      exact hbad

theorem splitScope_append {addr : List Char} {scope : Option String} (haddr : '%' ∉ addr)
    (hscope : ∀ s, scope = some s → s.toList ≠ [] ∧ '%' ∉ s.toList) :
    splitScope (addr ++ scopeText scope) = some (addr, scope) := by
  have hall : ∀ c ∈ addr, decide (c ≠ '%') = true := fun c hc =>
    decide_eq_true fun hpercent => haddr (hpercent ▸ hc)
  cases scope with
  | none =>
    rw [scopeText, List.append_nil, splitScope, List.dropWhile_eq_nil_iff.mpr hall]
  | some s =>
    obtain ⟨hne, hpercent⟩ := hscope s rfl
    have hdrop : (addr ++ '%' :: s.toList).dropWhile (· ≠ '%') = '%' :: s.toList := by
      rw [List.dropWhile_append_of_pos hall, List.dropWhile_cons_of_neg (by decide)]
    have htake : (addr ++ '%' :: s.toList).takeWhile (· ≠ '%') = addr := by
      rw [List.takeWhile_append_of_pos hall, List.takeWhile_cons_of_neg (by decide),
        List.append_nil]
    rw [scopeText, splitScope, hdrop, htake]
    dsimp only
    rw [if_neg (not_or.mpr ⟨hne, hpercent⟩), String.ofList_toList]

/-! ## Addresses -/

/-- The text of an address in full. -/
def fullText (a : Address) : List Char :=
  match a.version with
  | .v4 => dottedText a.value
  | .v6 => colonText a.value ++ scopeText a.scope

theorem not_mem_colonText (n : ℕ) : '%' ∉ colonText n ∧ '/' ∉ colonText n := by
  have hall : ∀ c ∈ ['%', '/'], c ∉ colonText n := by
    intro c hc hmem
    rcases mem_of_mem_intercalate hmem with rfl | ⟨part, hpart, hmem⟩
    · exact absurd hc (by decide)
    · obtain ⟨m, rfl⟩ := exists_of_mem_hextetTexts hpart
      exact mem_hextetText hmem (List.mem_cons_of_mem _ (List.mem_cons_of_mem _ hc))
  exact ⟨hall '%' (by decide), hall '/' (by decide)⟩

theorem address_of_lt {v : Version} {n : ℕ} (scope : Option String) (h : n < 2 ^ v.bits) :
    address v scope n = some ⟨v, n, scope, h⟩ := dif_pos h

/-- The strict reader takes the full text of an address that it has read for the same address. -/
theorem ipAddress_fullText {text : List Char} {a : Address} (h : ipAddress text = some a) :
    ipAddress (fullText a) = some a := by
  rcases Option.or_eq_some_iff.mp h with h | ⟨-, h⟩
  · obtain ⟨n, -, h⟩ := Option.bind_eq_some_iff.mp h
    unfold address at h
    split_ifs at h with hlt
    obtain rfl := Option.some.inj h
    change ((ipv4Int (dottedText n)).bind (address .v4 none)).or _ = _
    rw [ipv4Int_dottedText hlt, Option.bind_some, address_of_lt none hlt, Option.some_or]
  · unfold ipv6Address at h
    split_ifs at h with hslash
    obtain ⟨⟨addr, scope⟩, hsplit, h⟩ := Option.bind_eq_some_iff.mp h
    obtain ⟨n, -, h⟩ := Option.bind_eq_some_iff.mp h
    unfold address at h
    split_ifs at h with hlt
    obtain rfl := Option.some.inj h
    obtain ⟨hslash', hscope⟩ := scope_facts hsplit hslash
    have hread : ipv6Int (colonText n) = some n := ipv6Int_colonText hlt
    have hcolon : ':' ∈ colonText n ++ scopeText scope :=
      List.mem_append_left _ (ipv6Int_mem_colon hread)
    have hnone : '/' ∉ colonText n ++ scopeText scope := by
      rw [List.mem_append, not_or]
      exact ⟨(not_mem_colonText n).2, hslash'⟩
    change ((ipv4Int (colonText n ++ scopeText scope)).bind _).or
      (ipv6Address (colonText n ++ scopeText scope)) = _
    rw [ipv4Int_colon hcolon, Option.bind_none, Option.none_or, ipv6Address, if_neg hnone,
      splitScope_append (not_mem_colonText n).1 hscope, Option.bind_some]
    dsimp only
    rw [hread, Option.bind_some, address_of_lt scope hlt]

end Kepryx.IpLiterals
