import Conductor.Control.WifiScan

/-! A row of the scan is split at its last line, so an access point is heard under what follows the last line
boundary of its SSID. What is heard is listed as it should be: one entry for each SSID and security class,
the strongest one, in the order of the sort key. -/

namespace Conductor.WifiScan

open PyText

variable {upper : Char → List Char}

/-! ### Rows -/

section Rows

theorem escape_cons (c : Char) (value : List Char) :
    escape (c :: value) = (if c = ':' ∨ c = '\\' then ['\\', c] else [c]) ++ escape value := rfl

theorem escape_append (a b : List Char) : escape (a ++ b) = escape a ++ escape b := List.flatMap_append

variable {value : List Char}

theorem escape_eq_self (h : ∀ c ∈ value, c ≠ ':' ∧ c ≠ '\\') : escape value = value := by
  induction value with
  | nil => rfl
  | cons c value ih =>
    obtain ⟨hcolon, hslash⟩ := h c List.mem_cons_self
    rw [escape_cons, if_neg (by simp [hcolon, hslash]), ih fun d hd => h d (List.mem_cons_of_mem c hd)]
    rfl

theorem splitFrom_escape (value current rest : List Char) :
    splitFrom current false (escape value ++ rest) = splitFrom (current ++ value) false rest := by
  induction value generalizing current with
  | nil => simp [escape]
  | cons c value ih =>
    rw [escape_cons]
    split_ifs with hc
    · simp [splitFrom, ih]
    · have hcolon : c ≠ ':' := fun h => hc (Or.inl h)
      have hslash : c ≠ '\\' := fun h => hc (Or.inr h)
      simp [splitFrom, hcolon, hslash, ih]

/-- One field. -/
theorem split_escape (value : List Char) : splitNmcliTerse (escape value) = some [value] := by
  have h := splitFrom_escape value [] []
  rw [List.append_nil] at h
  rw [splitNmcliTerse, h]
  simp [splitFrom]

/-- A field and the fields behind its colon. -/
theorem split_escape_colon (value rest : List Char) :
    splitNmcliTerse (escape value ++ ':' :: rest) = (splitNmcliTerse rest).map (value :: ·) := by
  rw [splitNmcliTerse, splitFrom_escape]
  simp [splitFrom, splitNmcliTerse]

theorem readRow_one (value : List Char) : readRow upper (escape value) = none := by
  rw [readRow, split_escape]

theorem readRow_two (a b : List Char) : readRow upper (escape a ++ ':' :: escape b) = none := by
  rw [readRow, split_escape_colon, split_escape]
  rfl

theorem readRow_nil : readRow upper [] = none := readRow_one []

theorem escape_decimal (n : ℤ) : escape (decimal n) = decimal n := by
  apply escape_eq_self
  intro c hc
  rcases mem_decimal hc with hdigit | rfl
  · constructor <;> rintro rfl <;> cases hdigit
  · decide

/-! ### Lines -/

/-- What follows the last line boundary of a value, a part of whose last line was read. -/
def lastLine (line : List Char) : List Char → List Char
  | [] => line
  | c :: rest => if isLineBreak c then lastLine [] rest else lastLine (line ++ [c]) rest

theorem lastLine_eq (h : ∀ c ∈ value, isLineBreak c = false) (line : List Char) :
    lastLine line value = line ++ value := by
  induction value generalizing line with
  | nil => simp [lastLine]
  | cons c value ih =>
    rw [lastLine, if_neg (by simp [h c List.mem_cons_self]), ih fun d hd => h d (List.mem_cons_of_mem c hd)]
    simp

theorem lastLine_of_break (h : ∃ c ∈ value, isLineBreak c = true) (line : List Char) :
    lastLine line value = lastLine [] value := by
  induction value generalizing line with
  | nil => simp at h
  | cons c value ih =>
    by_cases hc : isLineBreak c = true
    · rw [lastLine, lastLine, if_pos hc, if_pos hc]
    · have hvalue : ∃ d ∈ value, isLineBreak d = true := by
        obtain ⟨d, hd, hbreak⟩ := h
        rcases List.mem_cons.1 hd with rfl | hd
        · exact absurd hbreak hc
        · exact ⟨d, hd, hbreak⟩
      rw [lastLine, lastLine, if_neg hc, if_neg hc, ih hvalue (line ++ [c]), ih hvalue ([] ++ [c])]

theorem escape_of_break {c : Char} (h : isLineBreak c = true) (value : List Char) : escape (c :: value) = c :: escape value := by
  rw [escape_cons, if_neg]
  · rfl
  · rintro (rfl | rfl) <;> cases h

/-- A value without a line boundary is read into the line. -/
theorem keep_escape {α : Type} {f : List Char → Option α} (line : List Char)
    (h : ∀ c ∈ value, isLineBreak c = false) (rest : List Char) :
    keep f line (escape value ++ rest) = keep f (line ++ escape value) rest := by
  apply keep_text
  intro c hc
  obtain ⟨d, hd, hcd⟩ := List.mem_flatMap.1 hc
  split_ifs at hcd with hspecial
  · rcases List.mem_cons.1 hcd with rfl | hcd
    · rfl
    · rw [List.mem_singleton.1 hcd]
      exact h d hd
  · rw [List.mem_singleton.1 hcd]
    exact h d hd

/-- A value behind a prefix that is no row: only its last line is left of it. -/
theorem keep_broken {α : Type} {f : List Char → Option α} (hone : ∀ value, f (escape value) = none)
    (pre : List Char) (hpre : ∀ value, f (pre ++ escape value) = none) (begun : List Char)
    (h : ∃ c ∈ value, isLineBreak c = true) (rest : List Char) :
    keep f (pre ++ escape begun) (escape value ++ rest) = keep f (escape (lastLine [] value)) rest := by
  induction value generalizing pre begun with
  | nil => simp at h
  | cons c value ih =>
    have hnil : f [] = none := hone []
    by_cases hc : isLineBreak c = true
    · rw [escape_of_break hc, List.cons_append, keep_break hnil _ hc, hpre, lastLine, if_pos hc]
      by_cases hvalue : ∃ d ∈ value, isLineBreak d = true
      · exact ih [] hone [] hvalue
      · simp only [not_exists, not_and, Bool.not_eq_true] at hvalue
        rw [lastLine_eq hvalue]
        exact keep_escape [] hvalue rest
    · have hc' : isLineBreak c = false := by simpa using hc
      have hvalue : ∃ d ∈ value, isLineBreak d = true := by
        obtain ⟨d, hd, hbreak⟩ := h
        rcases List.mem_cons.1 hd with rfl | hd
        · exact absurd hbreak hc
        · exact ⟨d, hd, hbreak⟩
      have hhead : keep f (pre ++ escape begun) (escape (c :: value) ++ rest) =
          keep f (pre ++ escape (begun ++ [c])) (escape value ++ rest) := by
        rw [show escape (c :: value) = escape [c] ++ escape value from escape_append [c] value, List.append_assoc,
          keep_escape _ (by simp [hc']), escape_append, List.append_assoc]
      rw [hhead, ih pre hpre (begun ++ [c]) hvalue, lastLine, if_neg hc, lastLine_of_break hvalue ([] ++ [c])]

/-- The access point that is heard of one that is printed. -/
def AccessPoint.heard (ap : AccessPoint) : Option AccessPoint :=
  if ap.security.any isLineBreak then none else some { ap with ssid := lastLine [] ap.ssid }

theorem keep_ssid (ssid rest : List Char) :
    keep (readRow upper) [] (escape ssid ++ rest) = keep (readRow upper) (escape (lastLine [] ssid)) rest := by
  by_cases h : ∃ c ∈ ssid, isLineBreak c = true
  · exact keep_broken readRow_one [] readRow_one [] h rest
  · simp only [not_exists, not_and, Bool.not_eq_true] at h
    rw [lastLine_eq h]
    exact keep_escape [] h rest

theorem keep_signal (line : List Char) (signal : ℤ) (rest : List Char) :
    keep (readRow upper) line (':' :: decimal signal ++ '\n' :: rest) =
      (readRow upper (line ++ ':' :: decimal signal)).toList ++ keep (readRow upper) [] rest := by
  rw [keep_text]
  · exact keep_break readRow_nil _ isLineBreak_lf rest
  · intro c hc
    rcases List.mem_cons.1 hc with rfl | hc
    · rfl
    · exact isLineBreak_of_mem_decimal hc

theorem keep_row (ap : AccessPoint) (rest : List Char) :
    keep (readRow upper) [] (ap.row ++ '\n' :: rest) =
      (ap.heard.bind fun h => readRow upper h.row).toList ++ keep (readRow upper) [] rest := by
  have hrow : ap.row ++ '\n' :: rest =
      escape ap.ssid ++ ':' :: (escape ap.security ++ (':' :: decimal ap.signal ++ '\n' :: rest)) := by
    simp [AccessPoint.row]
  rw [hrow, keep_ssid, keep_char _ rfl]
  unfold AccessPoint.heard
  by_cases h : ∃ c ∈ ap.security, isLineBreak c = true
  · have hpre : ∀ value, readRow upper ((escape (lastLine [] ap.ssid) ++ [':']) ++ escape value) = none := by
      intro value
      rw [List.append_assoc]
      exact readRow_two _ _
    have hbroken := keep_broken readRow_one _ hpre [] h (':' :: decimal ap.signal ++ '\n' :: rest)
    rw [show escape [] = [] from rfl, List.append_nil] at hbroken
    rw [hbroken, keep_signal, if_pos (List.any_eq_true.2 h), ← escape_decimal, readRow_two]
    rfl
  · have hunbroken : ap.security.any isLineBreak = false := by simpa using h
    simp only [not_exists, not_and, Bool.not_eq_true] at h
    rw [keep_escape _ h, keep_signal, hunbroken]
    simp [AccessPoint.row]

theorem keep_printed (aps : List AccessPoint) :
    keep (readRow upper) [] (printed aps) = (aps.filterMap AccessPoint.heard).filterMap fun h => readRow upper h.row := by
  induction aps with
  | nil => rfl
  | cons ap aps ih =>
    have hcons : printed (ap :: aps) = ap.row ++ '\n' :: printed aps := by simp [printed]
    rw [hcons, keep_row, ih]
    cases hheard : ap.heard with
    | none => simp [hheard]
    | some h => cases hread : readRow upper h.row <;> simp [hheard, hread]

end Rows

/-! ### Networks -/

section Networks

/-- The entry for an SSID and a security class with a signal. -/
def network (key : Key) (percent : ℤ) : Network where
  ssid := key.ssid
  hidden := key.ssid.isNone
  security := key.security
  signalDbm := signalDbm percent
  credentialRequired := key.security ≠ .unsecured

/-- An access point with an SSID, or hidden, and a supported security class, a signal in range and an SSID of
at most 32 bytes without control characters. -/
structure Offers (upper : Char → List Char) (ap : AccessPoint) (key : Key) (percent : ℤ) : Prop where
  ssid : key.ssid = if ap.ssid = [] then none else some ap.ssid
  security : scanSecurity upper ap.security = some key.security
  signal : ap.signal = percent
  range : 0 ≤ percent ∧ percent ≤ 100
  short : (Utf8.bytes ap.ssid).length ≤ 32
  printable : ∀ c ∈ ap.ssid, 32 ≤ c.toNat

theorem split_row (ap : AccessPoint) : splitNmcliTerse ap.row = some [ap.ssid, ap.security, decimal ap.signal] := by
  rw [AccessPoint.row, split_escape_colon, split_escape_colon, ← escape_decimal, split_escape, escape_decimal]
  rfl

theorem length_bytes_pos {ssid : List Char} (h : ssid ≠ []) : 1 ≤ (Utf8.bytes ssid).length := by
  obtain ⟨c, rest, rfl⟩ := List.exists_cons_of_ne_nil h
  have hc := List.length_pos_iff.2 (Utf8.encode_ne_nil c)
  rw [Utf8.bytes_cons, List.length_append]
  omega

/-- The SSID of a network may be missing. -/
theorem all_validSsid (ssid : List Char) :
    (if ssid = [] then none else some ssid).all validSsid = true ↔
      (Utf8.bytes ssid).length ≤ 32 ∧ ∀ c ∈ ssid, 32 ≤ c.toNat := by
  split_ifs with h
  · simp [h]
  · have hpos := length_bytes_pos h
    simp [validSsid, hpos]

theorem readRow_eq_some {line : List Char} {n : Network} :
    readRow upper line = some n ↔ ∃ ssid security signal percent key,
      splitNmcliTerse line = some [ssid, security, signal] ∧ int signal = some percent ∧
      Offers upper ⟨ssid, security, percent⟩ key percent ∧ n = network key percent := by
  have hhidden : ∀ ssid : List Char, ssid.isEmpty = (if ssid = [] then none else some ssid).isNone := by
    intro ssid
    cases ssid <;> rfl
  have hssid : ∀ ssid : List Char,
      (if ssid.isEmpty = true then none else some ssid) = if ssid = [] then none else some ssid := by
    intro ssid
    cases ssid <;> rfl
  constructor
  · intro h
    unfold readRow at h
    split at h
    · rename_i ssid security signal hsplit
      simp only [Option.bind_eq_bind, Option.bind_eq_some_iff, Option.pure_def, Option.some.injEq,
        Option.guard_eq_some', exists_const, hssid] at h
      obtain ⟨percent, hint, level, hsecurity, ⟨h0, h100, hvalid⟩, rfl⟩ := h
      obtain ⟨hshort, hprintable⟩ := (all_validSsid ssid).1 hvalid
      refine ⟨ssid, security, signal, percent, ⟨if ssid = [] then none else some ssid, level⟩, hsplit, hint,
        ⟨rfl, hsecurity, rfl, ⟨h0, h100⟩, hshort, hprintable⟩, ?_⟩
      rw [hhidden]
      rfl
    · cases h
  · rintro ⟨ssid, security, signal, percent, ⟨name, level⟩, hsplit, hint,
      ⟨hkey, hsecurity, -, ⟨h0, h100⟩, hshort, hprintable⟩, rfl⟩
    simp only [readRow, hsplit, Option.bind_eq_bind, Option.bind_eq_some_iff, Option.pure_def, Option.some.injEq,
      Option.guard_eq_some', exists_const, hssid]
    refine ⟨percent, hint, level, hsecurity, ⟨h0, h100, (all_validSsid ssid).2 ⟨hshort, hprintable⟩⟩, ?_⟩
    rw [hhidden, ← hkey]
    rfl

theorem readRow_row (ap : AccessPoint) (n : Network) :
    readRow upper ap.row = some n ↔ ∃ key percent, Offers upper ap key percent ∧ n = network key percent := by
  rw [readRow_eq_some, split_row]
  constructor
  · rintro ⟨ssid, security, signal, percent, key, hsplit, hint, hoffers, rfl⟩
    obtain ⟨rfl, rfl, rfl⟩ : ap.ssid = ssid ∧ ap.security = security ∧ decimal ap.signal = signal := by
      simpa using hsplit
    have hpercent : ap.signal = percent := by
      rcases int_decimal ap.signal with h | ⟨h, -⟩
      · rw [h] at hint
        exact Option.some.inj hint
      · rw [h] at hint
        cases hint
    rw [← hpercent] at hoffers ⊢
    exact ⟨key, ap.signal, hoffers, rfl⟩
  · rintro ⟨key, percent, hoffers, rfl⟩
    obtain rfl := hoffers.signal
    have hint : int (decimal ap.signal) = some ap.signal := by
      rcases int_decimal ap.signal with h | ⟨-, h⟩
      · exact h
      · have := hoffers.range
        omega
    exact ⟨ap.ssid, ap.security, decimal ap.signal, ap.signal, key, rfl, hint, hoffers, rfl⟩

end Networks

/-! ### The strongest of each key -/

section Strongest

open KeyTable

/-- The dictionary has one of the strongest entries for each key. -/
structure Best (entries : List Network) (strongest : List (Key × Network)) : Prop where
  unique : UniqueKeys strongest
  rows : ∀ row ∈ strongest, row.2.key = row.1 ∧ row.2 ∈ entries
  covers : ∀ n ∈ entries, ∃ m, (n.key, m) ∈ strongest ∧ n.signalDbm ≤ m.signalDbm

theorem Best.nil : Best [] [] where
  unique := List.nodup_nil
  rows _ h := by cases h
  covers _ h := by cases h

theorem replaceEntry_keys (strongest : List (Key × Network)) (entry : Network) :
    (replaceEntry strongest entry).map (·.1) = strongest.map (·.1) := by
  unfold replaceEntry
  rw [List.map_map]
  apply List.map_congr_left
  intro row _
  simp only [Function.comp]
  split_ifs <;> rfl

variable {entries : List Network} {strongest : List (Key × Network)}

theorem Best.step (h : Best entries strongest)
    (entry : Network) : Best (entries ++ [entry]) (keepStrongest strongest entry) := by
  have hold : ∀ {n : Network}, n ∈ entries → n ∈ entries ++ [entry] := fun hn => List.mem_append_left _ hn
  unfold keepStrongest
  cases hlook : strongest.lookup entry.key with
  | none =>
    constructor
    · exact h.unique.append hlook
    · intro row hrow
      rcases mem_concat.1 hrow with hrow | rfl
      · exact ⟨(h.rows row hrow).1, hold (h.rows row hrow).2⟩
      · exact ⟨rfl, by simp⟩
    · intro n hn
      rcases mem_concat.1 hn with hn | hn
      · obtain ⟨m, hm, hle⟩ := h.covers n hn
        exact ⟨m, List.mem_append_left _ hm, hle⟩
      · rw [hn]
        exact ⟨entry, by simp, le_refl _⟩
  | some previous =>
    have hprevious := h.unique.lookup_iff.1 hlook
    dsimp only
    split_ifs with hlt
    · constructor
      · unfold UniqueKeys
        rw [replaceEntry_keys]
        exact h.unique
      · intro row hrow
        obtain ⟨row', hrow', rfl⟩ := List.mem_map.1 hrow
        split_ifs with hkey
        · exact ⟨hkey.symm, by simp⟩
        · exact ⟨(h.rows row' hrow').1, hold (h.rows row' hrow').2⟩
      · have hentry : (entry.key, entry) ∈ replaceEntry strongest entry :=
          List.mem_map.2 ⟨_, hprevious, if_pos rfl⟩
        intro n hn
        rcases mem_concat.1 hn with hn | hn
        · obtain ⟨m, hm, hle⟩ := h.covers n hn
          by_cases hkey : n.key = entry.key
          · -- the entry is stronger than the one that it replaces
            rw [hkey, ← h.unique.lookup_iff, hlook] at hm
            rw [hkey, ← Option.some.inj hm] at *
            exact ⟨entry, hentry, hle.trans hlt.le⟩
          · exact ⟨m, List.mem_map.2 ⟨_, hm, if_neg hkey⟩, hle⟩
        · rw [hn]
          exact ⟨entry, hentry, le_refl _⟩
    · constructor
      · exact h.unique
      · exact fun row hrow => ⟨(h.rows row hrow).1, hold (h.rows row hrow).2⟩
      · exact forall_mem_concat h.covers ⟨previous, hprevious, not_lt.1 hlt⟩

theorem Best.foldl (h : Best entries strongest)
    (more : List Network) : Best (entries ++ more) (more.foldl keepStrongest strongest) := by
  induction more generalizing entries strongest with
  | nil => simpa using h
  | cons entry more ih =>
    rw [List.foldl_cons, List.append_cons]
    exact ih (h.step entry)

/-- The values of the dictionary are the strongest entries, when equal keys and signals are equal entries. -/
theorem Best.mem_iff (h : Best entries strongest)
    (hdetermined : ∀ m ∈ entries, ∀ n ∈ entries, m.key = n.key → m.signalDbm = n.signalDbm → m = n) (n : Network) :
    n ∈ strongest.map (·.2) ↔ n ∈ entries ∧ ∀ m ∈ entries, m.key = n.key → m.signalDbm ≤ n.signalDbm := by
  constructor
  · intro hn
    obtain ⟨row, hrow, rfl⟩ := List.mem_map.1 hn
    obtain ⟨hkey, hmem⟩ := h.rows row hrow
    refine ⟨hmem, fun m hm hmkey => ?_⟩
    obtain ⟨m', hm', hle⟩ := h.covers m hm
    have hrow' : (m.key, row.2) ∈ strongest := by
      rw [hmkey, hkey]
      exact hrow
    rw [← h.unique.lookup_iff] at hm' hrow'
    rw [hrow'] at hm'
    rwa [Option.some.inj hm']
  · rintro ⟨hn, hmax⟩
    obtain ⟨m, hm, hle⟩ := h.covers n hn
    obtain ⟨hkey, hmem⟩ := h.rows _ hm
    have heq := hdetermined m hmem n hn hkey (le_antisymm (hmax m hmem hkey) hle)
    rw [← heq]
    exact List.mem_map.2 ⟨_, hm, rfl⟩

theorem Best.nodup (h : Best entries strongest) : (strongest.map (·.2)).Nodup := by
  have hkeys : (strongest.map (·.2)).map Network.key = strongest.map (·.1) := by
    rw [List.map_map]
    apply List.map_congr_left
    exact fun row hrow => (h.rows row hrow).1
  apply List.Nodup.of_map Network.key
  rw [hkeys]
  exact h.unique

end Strongest

/-! ### The list -/

section Listing

theorem signalDbm_mono {a b : ℤ} (h : a ≤ b) : signalDbm a ≤ signalDbm b := by
  have hcast : (a : ℚ) ≤ b := by exact_mod_cast h
  exact Double.roundHalfEven_mono (by linarith)

theorem Security.name_injective : Function.Injective Security.name := by
  intro a b h
  cases a <;> cases b <;> first | rfl | (revert h; decide)

theorem key_of_order {m n : Network} (h : m.order = n.order) : m.key = n.key ∧ m.signalDbm = n.signalDbm := by
  simp only [Network.order, EmbeddingLike.apply_eq_iff_eq, Prod.mk.injEq, neg_inj] at h
  obtain ⟨hsignal, hnone, htext, hname⟩ := h
  have htext' := String.ofList_injective htext
  have hssid : m.ssid = n.ssid := by
    cases hm : m.ssid <;> cases hn : n.ssid <;> simp_all
  exact ⟨by rw [Network.key, Network.key, hssid, Security.name_injective hname], hsignal⟩

/-- A network that is offered, with its strongest signal. -/
def Strongest (upper : Char → List Char) (aps : List AccessPoint) (n : Network) : Prop :=
  ∃ percent, (∃ ap ∈ aps, Offers upper ap n.key percent) ∧
    (∀ ap ∈ aps, ∀ other, Offers upper ap n.key other → other ≤ percent) ∧ n = network n.key percent

/-- The first 256 of the strongest networks, in the order of the sort key. -/
def Listing (upper : Char → List Char) (aps : List AccessPoint) (networks : List Network) : Prop :=
  ∃ all : List Network, all.Pairwise (fun a b => a.order < b.order) ∧ (∀ n, n ∈ all ↔ Strongest upper aps n) ∧
    networks = all.take 256

variable {aps : List AccessPoint}

theorem Listing.unique {networks networks' : List Network}
    (h : Listing upper aps networks) (h' : Listing upper aps networks') : networks = networks' := by
  obtain ⟨all, hsorted, hmem, rfl⟩ := h
  obtain ⟨all', hsorted', hmem', rfl⟩ := h'
  have hirrefl : Std.Irrefl fun a b : Network => a.order < b.order := ⟨fun _ => lt_irrefl _⟩
  have hantisymm : Std.Antisymm fun a b : Network => a.order < b.order := ⟨fun _ _ hab hba => absurd hab hba.asymm⟩
  rw [hsorted.eq_of_mem_iff hsorted' fun n => (hmem n).trans (hmem' n).symm]

@[simp] theorem network_key (key : Key) (percent : ℤ) : (network key percent).key = key := rfl

theorem network_eq {key : Key} {a b : ℤ} (h : signalDbm a = signalDbm b) : network key a = network key b := by
  rw [network, network, h]

/-- The entries that are read of the rows. -/
def entries (upper : Char → List Char) (aps : List AccessPoint) : List Network := aps.filterMap fun ap => readRow upper ap.row

theorem mem_entries {n : Network} :
    n ∈ entries upper aps ↔ ∃ ap ∈ aps, ∃ percent, Offers upper ap n.key percent ∧ n = network n.key percent := by
  simp only [entries, List.mem_filterMap, readRow_row]
  constructor
  · rintro ⟨ap, hap, key, percent, hoffers, rfl⟩
    exact ⟨ap, hap, percent, hoffers, rfl⟩
  · rintro ⟨ap, hap, percent, hoffers, heq⟩
    exact ⟨ap, hap, n.key, percent, hoffers, heq⟩

/-- The signals of a key have a greatest one. -/
theorem exists_strongest {key : Key} (h : ∃ ap ∈ aps, ∃ percent, Offers upper ap key percent) :
    ∃ percent, (∃ ap ∈ aps, Offers upper ap key percent) ∧ ∀ ap ∈ aps, ∀ other, Offers upper ap key other → other ≤ percent := by
  induction aps with
  | nil => simp at h
  | cons ap aps ih =>
    by_cases hrest : ∃ ap ∈ aps, ∃ percent, Offers upper ap key percent
    · obtain ⟨percent, ⟨ap', hap', hoffers⟩, hmax⟩ := ih hrest
      by_cases hhead : Offers upper ap key ap.signal ∧ percent < ap.signal
      · refine ⟨ap.signal, ⟨ap, List.mem_cons_self, hhead.1⟩, fun x hx other hother => ?_⟩
        rcases List.mem_cons.1 hx with rfl | hx
        · exact hother.signal.ge
        · exact (hmax x hx other hother).trans hhead.2.le
      · refine ⟨percent, ⟨ap', List.mem_cons_of_mem _ hap', hoffers⟩, fun x hx other hother => ?_⟩
        rcases List.mem_cons.1 hx with rfl | hx
        · have hsignal := hother.signal
          exact not_lt.1 fun hlt => hhead ⟨by rw [hsignal]; exact hother, by rw [hsignal]; exact hlt⟩
        · exact hmax x hx other hother
    · obtain ⟨x, hx, percent, hoffers⟩ := h
      rcases List.mem_cons.1 hx with rfl | hx
      · refine ⟨percent, ⟨x, List.mem_cons_self, hoffers⟩, fun y hy other hother => ?_⟩
        rcases List.mem_cons.1 hy with rfl | hy
        · rw [← hother.signal, ← hoffers.signal]
        · exact absurd ⟨y, hy, other, hother⟩ hrest
      · exact absurd ⟨x, hx, percent, hoffers⟩ hrest

theorem strongest_iff {n : Network} : Strongest upper aps n ↔
      n ∈ entries upper aps ∧ ∀ m ∈ entries upper aps, m.key = n.key → m.signalDbm ≤ n.signalDbm := by
  constructor
  · rintro ⟨percent, ⟨ap, hap, hoffers⟩, hmax, heq⟩
    refine ⟨mem_entries.2 ⟨ap, hap, percent, hoffers, heq⟩, fun m hm hkey => ?_⟩
    obtain ⟨ap', hap', other, hother, hm'⟩ := mem_entries.1 hm
    rw [hkey] at hother
    rw [hm', heq]
    exact signalDbm_mono (hmax ap' hap' other hother)
  · rintro ⟨hn, hmax⟩
    obtain ⟨ap, hap, percent, hoffers, heq⟩ := mem_entries.1 hn
    obtain ⟨top, ⟨ap', hap', htop⟩, hgreatest⟩ := exists_strongest ⟨ap, hap, percent, hoffers⟩
    refine ⟨top, ⟨ap', hap', htop⟩, hgreatest, ?_⟩
    -- the entry of the greatest signal is not above this one
    have hle := hmax (network n.key top) (mem_entries.2 ⟨ap', hap', top, htop, rfl⟩) rfl
    rw [heq] at hle ⊢
    exact network_eq (le_antisymm (signalDbm_mono (hgreatest ap hap percent hoffers)) hle)

theorem entries_determined : ∀ m ∈ entries upper aps, ∀ n ∈ entries upper aps,
    m.key = n.key → m.signalDbm = n.signalDbm → m = n := by
  intro m hm n hn hkey hsignal
  obtain ⟨-, -, a, -, hm'⟩ := mem_entries.1 hm
  obtain ⟨-, -, b, -, hn'⟩ := mem_entries.1 hn
  rw [hm', hn'] at hsignal ⊢
  rw [hkey]
  exact network_eq hsignal

/-- What the scan makes of entries. -/
def list (es : List Network) : List Network :=
  (((es.foldl keepStrongest []).map (·.2)).insertionSort fun a b => a.order ≤ b.order).take 256

theorem listing_list (aps : List AccessPoint) : Listing upper aps (list (entries upper aps)) := by
  have hbest := Best.nil.foldl (entries upper aps)
  rw [List.nil_append] at hbest
  have hperm := List.perm_insertionSort (fun a b : Network => a.order ≤ b.order)
    (((entries upper aps).foldl keepStrongest []).map (·.2))
  have hmem := fun n => (hperm.mem_iff (a := n)).trans (hbest.mem_iff entries_determined n)
  refine ⟨_, ?_, fun n => (hmem n).trans strongest_iff.symm, rfl⟩
  have hsorted := List.pairwise_insertionSort (fun a b : Network => a.order ≤ b.order)
    (((entries upper aps).foldl keepStrongest []).map (·.2))
  have hne : List.Pairwise (· ≠ ·) _ := hperm.nodup_iff.2 hbest.nodup
  refine (hsorted.and hne).imp_of_mem fun {a b} ha hb hab => lt_of_le_of_ne hab.1 fun heq => hab.2 ?_
  obtain ⟨hkey, hsignal⟩ := key_of_order heq
  exact entries_determined a ((hmem a).1 ha).1 b ((hmem b).1 hb).1 hkey hsignal

end Listing

/-! ### The body -/

section Body

theorem signalDbm_range {percent : ℤ} (h : 0 ≤ percent ∧ percent ≤ 100) :
    -127 ≤ signalDbm percent ∧ signalDbm percent ≤ 0 := by
  have h0 : (0 : ℚ) ≤ percent := by exact_mod_cast h.1
  have h100 : (percent : ℚ) ≤ 100 := by exact_mod_cast h.2
  have hlow : -100 ≤ ⌊(percent / 2 - 100 : ℚ)⌋ := Int.le_floor.2 (by push_cast; linarith)
  have hhigh : ⌊(percent / 2 - 100 : ℚ)⌋ < 0 := Int.floor_lt.2 (by push_cast; linarith)
  have hfloor := Double.floor_le_roundHalfEven (percent / 2 - 100)
  have hceil := Double.roundHalfEven_le_floor (percent / 2 - 100)
  unfold signalDbm
  omega

theorem validNetwork_toValue {ap : AccessPoint} {key : Key} {percent : ℤ} (h : Offers upper ap key percent) :
    validNetwork (network key percent).toValue = .ok true := by
  obtain ⟨hlow, hhigh⟩ := signalDbm_range h.range
  have hsecurity : key.security.name ∈ wifiSecurity := by cases key.security <;> decide
  have hrequired : key.security = .unsecured ↔ key.security.name = "open" := by
    cases key.security <;> decide
  cases hssid : key.ssid with
  | none =>
    simp [validNetwork, Network.toValue, network, Control.ClockSync.keysAre, PyValue.lookup, hssid, hlow, hhigh,
      hsecurity, hrequired]
  | some ssid =>
    have hap : ap.ssid ≠ [] ∧ ssid = ap.ssid := by
      have hkey := h.ssid
      rw [hssid] at hkey
      split_ifs at hkey with hnil
      exact ⟨hnil, Option.some.inj hkey⟩
    have hpos : 1 ≤ (Utf8.bytes ssid).length := hap.2 ▸ length_bytes_pos hap.1
    have hshort : (Utf8.bytes ssid).length ≤ 32 := hap.2 ▸ h.short
    simp [validNetwork, Network.toValue, network, Control.ClockSync.keysAre, PyValue.lookup, hssid, hlow, hhigh,
      hsecurity, hrequired, hpos, hshort]

theorem validNetworks_of_forall {entries : List PyValue} (h : ∀ entry ∈ entries, validNetwork entry = .ok true) :
    validNetworks entries = .ok true := by
  induction entries with
  | nil => rfl
  | cons entry entries ih =>
    rw [validNetworks, h entry List.mem_cons_self, ih fun e he => h e (List.mem_cons_of_mem entry he)]
    rfl

/-- A list of at most 256 networks that are offered is never what a body is refused for. -/
theorem validScanBody_networks {networks : List Network} (hlength : networks.length ≤ 256)
    (hoffered : ∀ n ∈ networks, ∃ ap key percent, Offers upper ap key percent ∧ n = network key percent)
    (isUuid : PyValue → Bool) (epoch : String) (revision : ℤ) (scannedAt : String) :
    validScanBody isUuid (scanBody epoch revision scannedAt networks) =
      .ok (isUuid (.str (.text epoch)) && (Api.uuidV4 epoch && 0 ≤ revision && scannedAt ≠ "")) := by
  have hvalid : validNetworks (networks.map Network.toValue) = .ok true := by
    apply validNetworks_of_forall
    intro entry hentry
    obtain ⟨n, hn, rfl⟩ := List.mem_map.1 hentry
    obtain ⟨ap, key, percent, hoffers, rfl⟩ := hoffered n hn
    exact validNetwork_toValue hoffers
  cases huuid : isUuid (.str (.text epoch)) <;>
    simp [validScanBody, scanBody, Control.ClockSync.keysAre, PyValue.lookup, PyValue.eqStr, PyValue.asInt,
      Nat.not_lt.2 hlength, hvalid, huuid]
  rfl

end Body

/-! ### The scan -/

section Scan

/-- What the scan of a text gives. -/
theorem scan_completed (output : List Char) :
    scanWifiNetworks upper (.completed 0 output) = .ok (list (keep (readRow upper) [] output)) := by
  rw [← keep_universalNewlines readRow_nil]
  rfl

theorem scan_ok {ran : Ran} {networks : List Network} (h : scanWifiNetworks upper ran = .ok networks) :
    ∃ output, networks = list (keep (readRow upper) [] output) := by
  cases ran with
  | timeoutExpired => cases h
  | osError => cases h
  | completed returncode output =>
    by_cases hcode : returncode = 0
    · rw [hcode, scan_completed] at h
      exact ⟨output, (Except.ok.inj h).symm⟩
    · simp [scanWifiNetworks, runNmcli, hcode, bind, Except.bind, throw, throwThe, MonadExceptOf.throw] at h

theorem mem_of_mem_list {es : List Network} {n : Network} (h : n ∈ list es) : n ∈ es := by
  have hbest := Best.nil.foldl es
  have hn := (List.perm_insertionSort _ _).mem_iff.1 (List.mem_of_mem_take h)
  obtain ⟨row, hrow, rfl⟩ := List.mem_map.1 hn
  exact (hbest.rows row hrow).2

/-- The scan returns the networks of a list of access points, whatever the body around them. -/
def Exact (upper : Char → List Char) (aps : List AccessPoint) : Prop :=
  ∃ networks, scanWifiNetworks upper (.completed 0 (printed aps)) = .ok networks ∧ Listing upper aps networks

/-- A list is read exactly when it has the networks of the list that is heard; so it is when no value has a line
boundary in it. Whatever a scan returns passes the check of the body. -/
theorem scan_exact_iff (upper : Char → List Char) :
    (∀ aps, Exact upper aps ↔
      ∀ networks, Listing upper aps networks ↔ Listing upper (aps.filterMap AccessPoint.heard) networks) ∧
    (∀ aps : List AccessPoint, (∀ ap ∈ aps, ∀ c ∈ ap.ssid ++ ap.security, isLineBreak c = false) →
      aps.filterMap AccessPoint.heard = aps) ∧
    ∀ ran networks, scanWifiNetworks upper ran = .ok networks → ∀ isUuid epoch revision scannedAt,
      validScanBody isUuid (scanBody epoch revision scannedAt networks) =
        .ok (isUuid (.str (.text epoch)) && (Api.uuidV4 epoch && 0 ≤ revision && scannedAt ≠ "")) := by
  refine ⟨fun aps => ?_, fun aps h => ?_, fun ran networks h isUuid epoch revision scannedAt => ?_⟩
  · have hheard := @listing_list upper (aps.filterMap AccessPoint.heard)
    have hscan := @scan_completed upper (printed aps)
    rw [keep_printed] at hscan
    constructor
    · rintro ⟨networks, hnetworks, hlisting⟩ other
      obtain rfl := Except.ok.inj (hscan.symm.trans hnetworks)
      constructor
      · intro hother
        rw [hother.unique hlisting]
        exact hheard
      · intro hother
        rw [hother.unique hheard]
        exact hlisting
    · exact fun hsame => ⟨_, hscan, (hsame _).2 hheard⟩
  · refine (List.filterMap_congr fun ap hap => ?_).trans List.filterMap_some
    have hssid : ∀ c ∈ ap.ssid, isLineBreak c = false := fun c hc => h ap hap c (List.mem_append_left _ hc)
    have hsecurity : ap.security.any isLineBreak = false := by
      rw [List.any_eq_false]
      intro c hc
      rw [h ap hap c (List.mem_append_right _ hc)]
      decide
    rw [AccessPoint.heard, hsecurity, lastLine_eq hssid]
    rfl
  · obtain ⟨output, rfl⟩ := scan_ok h
    apply validScanBody_networks
    · exact List.length_take_le 256 _
    · intro n hn
      obtain ⟨line, -, hline⟩ := List.mem_filterMap.1 (mem_of_mem_list hn)
      obtain ⟨ssid, security, -, percent, key, -, -, hoffers, rfl⟩ := readRow_eq_some.1 hline
      exact ⟨_, key, percent, hoffers, rfl⟩

/-- An SSID with a line separator in it, which is no control character. -/
def separated : AccessPoint := ⟨['x', Char.ofNat 0x2028, 'H', 'o', 'm', 'e'], "WPA2".toList, 80⟩

def forged : Network := ⟨some "Home".toList, false, .wpa2Personal, -60, true⟩

/-- Its row is read as the row of another network. -/
theorem scan_separated : ¬ Exact (fun c => [c.toUpper]) [separated] ∧
    scanWifiNetworks (fun c => [c.toUpper]) (.completed 0 (printed [separated])) = .ok [forged] := by
  have hscan : scanWifiNetworks (fun c => [c.toUpper]) (.completed 0 (printed [separated])) = .ok [forged] := by
    decide +kernel
  refine ⟨?_, hscan⟩
  rintro ⟨networks, hnetworks, all, -, hmem, hall⟩
  obtain rfl := Except.ok.inj (hscan.symm.trans hnetworks)
  have hforged : forged ∈ all := List.mem_of_mem_take (hall ▸ List.mem_singleton_self forged)
  obtain ⟨percent, ⟨ap, hap, hoffers⟩, -, -⟩ := (hmem forged).1 hforged
  obtain rfl := List.mem_singleton.1 hap
  exact absurd hoffers.ssid (by decide)

end Scan

end Conductor.WifiScan
