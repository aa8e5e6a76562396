import Conductor.Api.SessionCursor
import Conductor.Api.SessionListLaw
import Conductor.Lib.PrefixFree

/-! A cursor that the provider issued is read back as it was, and the pages from the first one on give
the filtered catalog once. A cursor says which catalog and which filter it belongs to. -/

namespace Conductor.Api

open FlatJson (Value writeObject readObject readObject_writeObject escape)

/-! ### The cursor -/

section Cursor

variable {sha : Sha256}

theorem loads_utf8 {entries : List (List Char × Value)} (h : (entries.map (·.1)).Nodup) :
    loads (utf8 (writeObject entries)) = some entries := by
  have hdecode : (utf8 (writeObject entries)).toByteArray.utf8Decode? =
      some (writeObject entries).toArray := List.utf8Decode?_utf8Encode
  unfold loads
  rw [hdecode]
  show readObject (writeObject entries).toArray.toList = _
  rw [List.toList_toArray, readObject_writeObject h]

theorem cursorValue_keys (c : Cursor) : (cursorValue c).map (·.1) = cursorKeys.map String.toList := rfl

/-- The keys come in their order. -/
theorem canonical_cursorValue (c : Cursor) :
    canonicalJsonBytes (cursorValue c) = utf8 (writeObject (cursorValue c)) := rfl

theorem cursorFields_cursorValue {c : Cursor} (h : 0 < c.offset) : cursorFields (cursorValue c) = some c := by
  obtain ⟨revision, takeId, offset⟩ := c
  obtain ⟨n, rfl⟩ : ∃ n, offset = n + 1 := ⟨offset - 1, by change 0 < offset at h; omega⟩
  cases takeId with
  | none =>
    show some (⟨String.ofList revision.toList, none, n + 1⟩ : Cursor) = _
    rw [String.ofList_toList]
  | some takeId =>
    show some (⟨String.ofList revision.toList, some (String.ofList takeId.toList), n + 1⟩ : Cursor) = _
    rw [String.ofList_toList, String.ofList_toList]

/-- A cursor that is not too long is read back. -/
theorem decode_encode {c : Cursor} (hoffset : 0 < c.offset) (hlength : (encodeSessionCursor sha c).length ≤ 2048) :
    decodeSessionCursor sha (encodeSessionCursor sha c) = some c := by
  set payload := canonicalJsonBytes (cursorValue c) with hpayload
  have hsignature := sha.length_digest (sessionCursorDomain ++ payload)
  have hdecoded : Base64.decode (encodeSessionCursor sha c).toList =
      some (payload ++ sha.digest (sessionCursorDomain ++ payload)) := by
    unfold encodeSessionCursor
    rw [String.toList_ofList, Base64.decode_encode]
  have hbytes : (payload ++ sha.digest (sessionCursorDomain ++ payload)).length - 32 = payload.length := by
    rw [List.length_append, hsignature, Nat.add_sub_cancel]
  have hpos : 32 < (payload ++ sha.digest (sessionCursorDomain ++ payload)).length := by
    rw [List.length_append, hsignature]
    exact Nat.lt_add_of_pos_left (Nat.succ_pos _)
  have hloads : loads payload = some (cursorValue c) := by
    rw [hpayload, canonical_cursorValue]
    exact loads_utf8 (by rw [cursorValue_keys]; decide)
  unfold decodeSessionCursor
  rw [hdecoded]
  simp only [guard, hlength, hpos, hbytes, List.take_left, List.drop_left, hloads, ← hpayload, if_true,
    Option.pure_def, Option.bind_eq_bind, Option.bind_some]
  exact cursorFields_cursorValue hoffset

/-! ### Its length -/

theorem escape_plain {ch : Char} (hlow : 32 ≤ ch.toNat) (hquote : ch.toNat ≠ 34) (hslash : ch.toNat ≠ 92) :
    escape ch = [ch] := by
  have hne (d : Char) (h : ch.toNat ≠ d.toNat) : ch ≠ d := fun heq => h (by rw [heq])
  have hcontrol (d : Char) (h : d.toNat < 32) : ch ≠ d := hne d (by omega)
  unfold escape
  rw [if_neg (hne '"' hquote), if_neg (hne '\\' hslash), if_neg (hcontrol '\n' (by decide)),
    if_neg (hcontrol '\r' (by decide)), if_neg (hcontrol '\t' (by decide)),
    if_neg (hcontrol '\x08' (by decide)), if_neg (hcontrol '\x0c' (by decide)), if_neg (by omega)]

theorem escape_hex {ch : Char} (h : isHex ch = true) : escape ch = [ch] := by
  simp only [isHex, isDigit, Bool.or_eq_true, Bool.and_eq_true, decide_eq_true_eq] at h
  change (48 ≤ ch.toNat ∧ ch.toNat ≤ 57) ∨ 97 ≤ ch.toNat ∧ ch.toNat ≤ 102 at h
  exact escape_plain (by omega) (by omega) (by omega)

theorem length_writeText {s : List Char} (h : ∀ ch ∈ s, escape ch = [ch]) :
    (FlatJson.writeText s).length = s.length + 2 := by
  have hflat : s.flatMap escape = s := by
    rw [List.flatMap_congr h]
    exact List.flatMap_singleton' s
  rw [FlatJson.writeText, hflat]
  simp

theorem mem_of_fullmatch {pattern : List (Char → Bool)} {text : List Char} (h : fullmatch pattern text = true)
    {P : Char → Prop} (hP : ∀ q ∈ pattern, ∀ ch, q ch = true → P ch) : ∀ ch ∈ text, P ch := by
  induction pattern generalizing text with
  | nil =>
    cases text with
    | nil => simp
    | cons ch text => simp [fullmatch] at h
  | cons q pattern ih =>
    cases text with
    | nil => simp
    | cons ch text =>
      simp only [fullmatch, List.length_cons, Nat.succ_inj, List.zip_cons_cons, List.all_cons, Bool.and_eq_true,
        decide_eq_true_eq] at h
      obtain ⟨hlength, hch, hall⟩ := h
      obtain ⟨hq, hpattern⟩ := List.forall_mem_cons.1 hP
      refine List.forall_mem_cons.2 ⟨hq ch hch, ih ?_ hpattern⟩
      simp only [fullmatch, Bool.and_eq_true, decide_eq_true_eq]
      exact ⟨hlength, hall⟩

theorem escape_uuidV7 {text : String} (h : uuidV7 text = true) : ∀ ch ∈ text.toList, escape ch = [ch] := by
  refine mem_of_fullmatch h fun q hq ch hch => ?_
  have hclass : q = isHex ∨ q = isChar '-' ∨ q = isChar '7' ∨ q = isOneOf ['8', '9', 'a', 'b'] := by
    simp only [uuidPattern, List.mem_append, List.mem_replicate, List.mem_cons, List.not_mem_nil, or_false] at hq
    tauto
  rcases hclass with rfl | rfl | rfl | rfl
  · exact escape_hex hch
  · obtain rfl : '-' = ch := of_decide_eq_true hch
    rfl
  · obtain rfl : '7' = ch := of_decide_eq_true hch
    rfl
  · have hmem : ch ∈ ['8', '9', 'a', 'b'] := of_decide_eq_true hch
    simp only [List.mem_cons, List.not_mem_nil, or_false] at hmem
    rcases hmem with rfl | rfl | rfl | rfl <;> rfl

theorem length_uuidV7 {text : String} (h : uuidV7 text = true) : text.toList.length = 36 := by
  simp only [uuidV7, fullmatch, Bool.and_eq_true, decide_eq_true_eq] at h
  rw [← h.1]
  rfl

theorem hexText_plain (bytes : List UInt8) : ∀ ch ∈ hexText bytes, isHex ch = true := by
  intro ch hch
  obtain ⟨b, -, hch⟩ := List.mem_flatMap.1 hch
  have hb := b.toNat_lt
  have hdigit : ∀ n < 16, isHex (FlatJson.hexDigit n) = true := by decide
  simp only [List.mem_cons, List.not_mem_nil, or_false] at hch
  rcases hch with rfl | rfl
  · exact hdigit _ (by omega)
  · exact hdigit _ (Nat.mod_lt _ (by decide))

theorem length_hexText (bytes : List UInt8) : (hexText bytes).length = 2 * bytes.length := by
  rw [hexText, List.length_flatMap]
  simp [Nat.mul_comm]

theorem revision_valid (json : EntryJson) (items : List Summary) (diagnostics : List Diagnostic) :
    validRevision (sessionCatalogRevision sha json items diagnostics) = true := by
  show fullmatch ("sha256:".toList.map isChar ++ List.replicate 64 isHex) (String.ofList _).toList = true
  rw [String.toList_ofList (l := "sha256:".toList ++ hexText _)]
  have hhead : fullmatch ("sha256:".toList.map isChar) "sha256:".toList = true := by decide
  refine fullmatch_append hhead ?_
  rw [fullmatch_replicate, length_hexText, sha.length_digest]
  simpa using hexText_plain _

theorem revision_plain (json : EntryJson) (items : List Summary) (diagnostics : List Diagnostic) :
    (sessionCatalogRevision sha json items diagnostics).toList.length = 71 ∧
      ∀ ch ∈ (sessionCatalogRevision sha json items diagnostics).toList, escape ch = [ch] := by
  unfold sessionCatalogRevision
  rw [String.toList_ofList, List.length_append, length_hexText, sha.length_digest]
  have hhead : "sha256:".toList.all (fun ch => escape ch = [ch]) = true := by decide
  refine ⟨rfl, fun ch hch => ?_⟩
  rcases List.mem_append.1 hch with hch | hch
  · exact of_decide_eq_true (List.all_eq_true.1 hhead ch hch)
  · exact escape_hex (hexText_plain _ ch hch)

theorem length_utf8_le (text : List Char) : (utf8 text).length ≤ 4 * text.length := by
  induction text with
  | nil => exact le_refl _
  | cons ch text ih =>
    have hch : (String.utf8EncodeChar ch).length ≤ 4 := by
      rw [String.length_utf8EncodeChar]
      exact ch.utf8Size_le_four
    change (String.utf8EncodeChar ch ++ utf8 text).length ≤ _
    rw [List.length_append, List.length_cons]
    omega

/-- A cursor of the provider is short enough to be read. -/
theorem length_encode_le (json : EntryJson) (items : List Summary) (diagnostics : List Diagnostic)
    {takeId : Option String} (htake : takeId.all uuidV7 = true) {offset : ℕ} (hoffset : offset < 2 ^ 63) :
    (encodeSessionCursor sha ⟨sessionCatalogRevision sha json items diagnostics, takeId, offset⟩).length ≤
      2048 := by
  set c : Cursor := ⟨sessionCatalogRevision sha json items diagnostics, takeId, offset⟩ with hc
  obtain ⟨hrevisionLength, hrevision⟩ := @revision_plain sha json items diagnostics
  have htext : (writeObject (cursorValue c)).length ≤ 300 := by
    have hdigits : (FlatJson.writeNat offset).length ≤ 19 := by
      rw [FlatJson.writeNat, Nat.length_toDigits_le_iff (by decide) (by decide)]
      omega
    have hoffsetValue : (FlatJson.writeValue (.int (c.offset : ℤ))).length ≤ 19 := hdigits
    have htakeValue :
        (FlatJson.writeValue ((c.takeId.map fun takeId => Value.text takeId.toList).getD .null)).length ≤ 38 := by
      show (FlatJson.writeValue ((takeId.map fun takeId => Value.text takeId.toList).getD .null)).length ≤ 38
      cases takeId with
      | none => decide
      | some takeId =>
        have huuid : uuidV7 takeId = true := htake
        show (FlatJson.writeText takeId.toList).length ≤ 38
        rw [length_writeText (escape_uuidV7 huuid), length_uuidV7 huuid]
    have hrevisionValue : (FlatJson.writeText (sessionCatalogRevision sha json items diagnostics).toList).length = 73 := by
      rw [length_writeText hrevision, hrevisionLength]
    have hkeys : (FlatJson.writeText "catalog_revision".toList).length = 18 ∧
        (FlatJson.writeText "offset".toList).length = 8 ∧ (FlatJson.writeText "schema".toList).length = 8 ∧
        (FlatJson.writeText "take_id".toList).length = 9 ∧
        (FlatJson.writeText sessionCursorSchema.toList).length = 28 := by decide
    obtain ⟨hrevisionKey, hoffsetKey, hschemaKey, htakeKey, hschema⟩ := hkeys
    have hschemaValue : (FlatJson.writeValue (.text sessionCursorSchema.toList)).length = 28 := hschema
    have hrevisionValue : (FlatJson.writeValue (.text c.catalogRevision.toList)).length = 73 := hrevisionValue
    unfold cursorValue writeObject
    simp only [FlatJson.writeEntries, FlatJson.writeEntry, List.length_append, List.length_cons, List.length_nil,
      hrevisionKey, hoffsetKey, hschemaKey, htakeKey, hschemaValue, hrevisionValue]
    omega
  have hpayload := (length_utf8_le (writeObject (cursorValue c))).trans (Nat.mul_le_mul_left 4 htext)
  unfold encodeSessionCursor
  simp only
  rw [String.length_ofList, Base64.length_encode, List.length_append, sha.length_digest, canonical_cursorValue]
  omega

end Cursor

/-! ### The revision -/

section Revision

theorem hexDigit_injective {m n : ℕ} (hm : m < 16) (hn : n < 16) (h : FlatJson.hexDigit m = FlatJson.hexDigit n) : m = n := by
  have hvalue := congrArg FlatJson.hexValue h
  rw [FlatJson.hexValue_hexDigit hm, FlatJson.hexValue_hexDigit hn] at hvalue
  exact Option.some.inj hvalue

theorem hexText_injective : ∀ {a b : List UInt8}, hexText a = hexText b → a = b := by
  intro a
  induction a with
  | nil =>
    intro b h
    cases b with
    | nil => rfl
    | cons y b => cases h
  | cons x a ih =>
    intro b h
    cases b with
    | nil => cases h
    | cons y b =>
      obtain ⟨hhigh, h⟩ := List.cons.inj h
      obtain ⟨hlow, h⟩ := List.cons.inj h
      have hx := x.toNat_lt
      have hy := y.toNat_lt
      have hhigh := hexDigit_injective (by omega) (by omega) hhigh
      have hlow := hexDigit_injective (Nat.mod_lt _ (by decide)) (Nat.mod_lt _ (by decide)) hlow
      rw [ih h, UInt8.toNat_inj.1 (show x.toNat = y.toNat by omega)]

variable {items items' : List Summary} {diagnostics diagnostics' : List Diagnostic} {start : List UInt8}
  {s : RevisionState}

theorem digest_of_revision {sha : Sha256} {json : EntryJson}
    (h : sessionCatalogRevision sha json items diagnostics = sessionCatalogRevision sha json items' diagnostics') :
    sha.digest (revisionInput json items diagnostics) = sha.digest (revisionInput json items' diagnostics') :=
  hexText_injective (List.append_cancel_left (String.ofList_injective h))

/-- The canonical JSON of an entry says which one it is and where it ends: it is not the beginning of another's. -/
structure EntryJson.Delimited (json : EntryJson) (summaries : List Summary) (diagnostics : List Diagnostic) : Prop where
  summary : ∀ a ∈ summaries, ∀ b ∈ summaries, json.summary a <+: json.summary b → a = b
  diagnostic : ∀ a ∈ diagnostics, ∀ b ∈ diagnostics, json.diagnostic a <+: json.diagnostic b → a = b

variable {json : EntryJson}

theorem listJson_cons (json : EntryJson) (e : Summary ⊕ Diagnostic) (es : List (Summary ⊕ Diagnostic)) :
    listJson json (e :: es) = kindJson json e ++ es.flatMap fun e => 44 :: kindJson json e := by
  induction es generalizing e with
  | nil => rfl
  | cons f es ih =>
    have hstep : listJson json (e :: f :: es) = kindJson json e ++ (comma ++ listJson json (f :: es)) := rfl
    rw [hstep, ih f]
    rfl

theorem listJson_append (json : EntryJson) (as : List (Summary ⊕ Diagnostic)) (b : Summary ⊕ Diagnostic)
    (bs : List (Summary ⊕ Diagnostic)) :
    listJson json (as ++ b :: bs) = listJson json as ++ (if as = [] then [] else comma) ++ listJson json (b :: bs) := by
  cases as with
  | nil => rfl
  | cons a as =>
    rw [List.cons_append, listJson_cons, listJson_cons, listJson_cons, List.flatMap_append, if_neg (List.cons_ne_nil a as),
      List.append_assoc, List.append_assoc]
    rfl

/-- What the digest was fed is the list of the entries before the batch. -/
structure Feeding (json : EntryJson) (start : List UInt8) (entries : List (Summary ⊕ Diagnostic)) (s : RevisionState) : Prop where
  fed : ∃ done, entries = done ++ s.batch ∧ s.fed = start ++ listJson json done ∧ s.separator = if done = [] then [] else comma

variable {entries : List (Summary ⊕ Diagnostic)}

theorem Feeding.consume
    (h : Feeding json start entries s) (hne : s.batch ≠ []) : Feeding json start entries (s.consumeBatch json) := by
  obtain ⟨done, rfl, hfed, hseparator⟩ := h.fed
  obtain ⟨b, bs, hbatch⟩ := List.exists_cons_of_ne_nil hne
  refine ⟨done ++ s.batch, (List.append_nil _).symm, ?_, ?_⟩
  · show s.fed ++ s.separator ++ listJson json s.batch = _
    rw [hfed, hseparator, hbatch, listJson_append, List.append_assoc, List.append_assoc, List.append_assoc]
  · rw [if_neg fun hnil => hne (List.append_eq_nil_iff.1 hnil).2]
    rfl

theorem Feeding.add
    (h : Feeding json start entries s) (entry : Summary ⊕ Diagnostic) : Feeding json start (entries ++ [entry]) (s.add json entry) := by
  obtain ⟨done, rfl, hfed, hseparator⟩ := h.fed
  have hbatch : Feeding json start (done ++ s.batch ++ [entry]) { s with batch := s.batch ++ [entry] } :=
    ⟨done, List.append_assoc _ _ _, hfed, hseparator⟩
  unfold RevisionState.add
  dsimp only
  split
  · exact hbatch.consume (List.append_ne_nil_of_right_ne_nil _ (List.cons_ne_nil _ _))
  · exact hbatch

/-- The batches do not show: the digest is fed the list of all entries. -/
theorem revisionInput_eq (json : EntryJson) (items : List Summary) (diagnostics : List Diagnostic) :
    revisionInput json items diagnostics =
      sessionCatalogRevisionDomain ++ ascii "\x7b\"entries\":[" ++ listJson json (items.map .inl ++ diagnostics.map .inr) ++
        ascii "],\"schema\":\"ylx.session-catalog-revision-input.v1\"\x7d" := by
  have hfold : ∀ (es before : List (Summary ⊕ Diagnostic)) (s : RevisionState) (start : List UInt8), Feeding json start before s →
      Feeding json start (before ++ es) (es.foldl (RevisionState.add json) s) := by
    intro es
    induction es with
    | nil =>
      intro before s start h
      rwa [List.append_nil]
    | cons e es ih =>
      intro before s start h
      have hrest := ih _ _ _ (h.add e)
      rwa [List.append_assoc] at hrest
  have hall := hfold (items.map .inl ++ diagnostics.map .inr) [] ⟨sessionCatalogRevisionDomain ++ ascii "\x7b\"entries\":[", [], []⟩ _
    ⟨[], rfl, (List.append_nil _).symm, rfl⟩
  rw [List.nil_append] at hall
  unfold revisionInput
  dsimp only
  generalize List.foldl (RevisionState.add json) _ _ = s at hall ⊢
  have hend : Feeding json (sessionCatalogRevisionDomain ++ ascii "\x7b\"entries\":[") (items.map .inl ++ diagnostics.map .inr)
      (if s.batch = [] then s else s.consumeBatch json) ∧ (if s.batch = [] then s else s.consumeBatch json).batch = [] := by
    split
    · exact ⟨hall, ‹_›⟩
    · exact ⟨hall.consume ‹_›, rfl⟩
  obtain ⟨done, hdone, hfed, -⟩ := hend.1.fed
  rw [hend.2, List.append_nil] at hdone
  rw [hfed, hdone]

theorem EntryJson.Delimited.kind {summaries : List Summary}
    (h : json.Delimited summaries diagnostics) {a b : Summary ⊕ Diagnostic} (ha : ∀ s, a = .inl s → s ∈ summaries)
    (ha' : ∀ d, a = .inr d → d ∈ diagnostics) (hb : ∀ s, b = .inl s → s ∈ summaries) (hb' : ∀ d, b = .inr d → d ∈ diagnostics)
    (heq : kindJson json a <+: kindJson json b) : a = b := by
  obtain ⟨r, hr⟩ := heq
  cases a with
  | inl s =>
    cases b with
    | inl s' =>
      simp only [kindJson, List.append_assoc, List.append_cancel_left_eq] at hr
      have hs := ha s rfl
      have hs' := hb s' rfl
      rw [(Words.eq_of_append (h.summary s hs s' hs') (h.summary s' hs' s hs) hr).1]
    | inr d => cases congrArg (fun l => (l.drop 9).head?) hr
  | inr d =>
    cases b with
    | inl s => cases congrArg (fun l => (l.drop 9).head?) hr
    | inr d' =>
      simp only [kindJson, List.append_assoc, List.append_cancel_left_eq] at hr
      have hd := ha' d rfl
      have hd' := hb' d' rfl
      rw [(Words.eq_of_append (h.diagnostic d hd d' hd') (h.diagnostic d' hd' d hd) hr).1]

/-- Two catalogs with the same input of the digest have the same entries in the same order. -/
theorem revisionInput_injective (hjson : json.Delimited (items ++ items') (diagnostics ++ diagnostics'))
    (h : revisionInput json items diagnostics = revisionInput json items' diagnostics') :
    items = items' ∧ diagnostics = diagnostics' := by
  have hkind : ∀ a ∈ (items.map .inl ++ diagnostics.map .inr : List (Summary ⊕ Diagnostic)),
      ∀ b ∈ (items'.map .inl ++ diagnostics'.map .inr : List (Summary ⊕ Diagnostic)),
        (kindJson json a <+: kindJson json b → a = b) ∧ (kindJson json b <+: kindJson json a → b = a) := by
    intro a ha b hb
    have hsummary : (∀ s, a = .inl s → s ∈ items ++ items') ∧ ∀ s, b = .inl s → s ∈ items ++ items' :=
      ⟨by rintro s rfl; exact List.mem_append_left _ (by simpa using ha), by rintro s rfl; exact List.mem_append_right _ (by simpa using hb)⟩
    have hdiagnostic : (∀ d, a = .inr d → d ∈ diagnostics ++ diagnostics') ∧ ∀ d, b = .inr d → d ∈ diagnostics ++ diagnostics' :=
      ⟨by rintro d rfl; exact List.mem_append_left _ (by simpa using ha), by rintro d rfl; exact List.mem_append_right _ (by simpa using hb)⟩
    exact ⟨hjson.kind hsummary.1 hdiagnostic.1 hsummary.2 hdiagnostic.2, hjson.kind hsummary.2 hdiagnostic.2 hsummary.1 hdiagnostic.1⟩
  have hlists : (items.map .inl ++ diagnostics.map .inr : List (Summary ⊕ Diagnostic)) = items'.map .inl ++ diagnostics'.map .inr := by
    rw [revisionInput_eq, revisionInput_eq, List.append_assoc _ (listJson json _), List.append_assoc _ (listJson json _)] at h
    have h := List.append_cancel_left h
    generalize (items.map .inl ++ diagnostics.map .inr : List (Summary ⊕ Diagnostic)) = as at h hkind ⊢
    generalize (items'.map .inl ++ diagnostics'.map .inr : List (Summary ⊕ Diagnostic)) = bs at h hkind ⊢
    -- a list that is not empty starts with a brace, and the end with a bracket
    have hstart : ∀ e es r, (listJson json (e :: es) ++ r).head? = some 123 := by
      intro e es r
      rw [listJson_cons]
      cases e <;> rfl
    cases as with
    | nil =>
      cases bs with
      | nil => rfl
      | cons b bs => cases (congrArg List.head? h).trans (hstart b bs _)
    | cons a as =>
      cases bs with
      | nil => cases (congrArg List.head? h).symm.trans (hstart a as _)
      | cons b bs =>
        refine Words.separated_injective (x := 44) (r := ascii "],\"schema\":\"ylx.session-catalog-revision-input.v1\"\x7d")
          (by decide) hkind ?_
        rw [listJson_cons, listJson_cons] at h
        exact congrArg (44 :: ·) h
  have hitems := congrArg (List.filterMap Sum.getLeft?) hlists
  have hdiagnostics := congrArg (List.filterMap Sum.getRight?) hlists
  simp only [List.filterMap_append, List.filterMap_map, Function.comp_def, Sum.getLeft?_inl, Sum.getLeft?_inr, Sum.getRight?_inl,
    Sum.getRight?_inr, List.filterMap_some, List.filterMap_none, List.append_nil, List.nil_append] at hitems hdiagnostics
  exact ⟨hitems, hdiagnostics⟩

end Revision

/-! ### The pages -/

/-- A catalog that a listing finds: two lists of the interpreter, which are shorter than `2 ^ 63` together. -/
structure Catalog where
  summaries : List Summary
  diagnostics : List Diagnostic
  length_lt : summaries.length + diagnostics.length < 2 ^ 63

namespace Catalog

def allItems (c : Catalog) : List Summary := sortReverse Summary.textKey c.summaries

def items (c : Catalog) (takeId : Option String) : List Summary :=
  c.allItems.filter fun item => takeId.all (· = item.takeId)

def ordered (c : Catalog) : List Diagnostic := c.diagnostics.insertionSort fun a b => a.quarantineId ≤ b.quarantineId

/-- Everything that is listed under a filter. -/
def entries (c : Catalog) (takeId : Option String) : List (Summary ⊕ Diagnostic) :=
  (c.items takeId).map .inl ++ c.ordered.map .inr

end Catalog

/-- The codec that the provider has. -/
def sessionCodec (sha : Sha256) (json : EntryJson) : CursorCodec where
  revision := sessionCatalogRevision sha json
  revision_valid := revision_valid json
  encode := encodeSessionCursor sha
  encode_ne c h := by
    have hlength := congrArg String.length h
    unfold encodeSessionCursor at hlength
    simp only at hlength
    rw [String.length_ofList, Base64.length_encode, List.length_append, sha.length_digest] at hlength
    change _ = 0 at hlength
    omega
  decode := decodeSessionCursor sha

/-- `list_sessions` of `v4`. -/
def listCatalog (sha : Sha256) (json : EntryJson) (c : Catalog) (cursor : Option String) (limit : ℕ)
    (takeId : Option String) : Except ListError SessionPage :=
  codedPage (sessionCodec sha json) c.allItems (c.items takeId) c.ordered cursor limit takeId

section Pages

variable {sha : Sha256} {json : EntryJson} {c : Catalog} {takeId : Option String}

/-- The entries of a page, the items first. -/
def SessionPage.entries (page : SessionPage) : List (Summary ⊕ Diagnostic) :=
  page.items.map .inl ++ page.diagnostics.map .inr

/-- The page from a position on. -/
def pageAt (sha : Sha256) (json : EntryJson) (c : Catalog) (limit : ℕ) (takeId : Option String) (start : ℕ) :
    SessionPage :=
  let selected := ((c.entries takeId).drop start).take limit
  let revision := sessionCatalogRevision sha json c.allItems c.ordered
  { schema := "ylx.session-list.v3"
    catalogRevision := some revision
    items := selected.filterMap Sum.getLeft?
    diagnostics := selected.filterMap Sum.getRight?
    nextCursor :=
      if start + selected.length < (c.entries takeId).length then
        some (encodeSessionCursor sha ⟨revision, takeId, start + selected.length⟩)
      else none }

theorem filterMap_sides (a : List Summary) (b : List Diagnostic) :
    ((a.map .inl ++ b.map .inr : List (Summary ⊕ Diagnostic)).filterMap Sum.getLeft?).map .inl ++
      ((a.map .inl ++ b.map .inr : List (Summary ⊕ Diagnostic)).filterMap Sum.getRight?).map .inr =
    (a.map .inl ++ b.map .inr : List (Summary ⊕ Diagnostic)) := by
  simp [List.filterMap_append, List.filterMap_map, Function.comp_def]

/-- A page has the entries of its slice, in their order. -/
theorem entries_pageAt (limit start : ℕ) :
    (pageAt sha json c limit takeId start).entries = ((c.entries takeId).drop start).take limit := by
  have hslice : ((c.entries takeId).drop start).take limit =
      (((c.items takeId).drop start).take limit).map .inl ++
        ((c.ordered.drop (start - (c.items takeId).length)).take
          (limit - ((c.items takeId).drop start).length)).map .inr := by
    unfold Catalog.entries
    simp [List.drop_append, List.take_append, List.map_drop, List.map_take]
  show ((((c.entries takeId).drop start).take limit).filterMap Sum.getLeft?).map Sum.inl ++
    ((((c.entries takeId).drop start).take limit).filterMap Sum.getRight?).map Sum.inr = _
  rw [hslice]
  exact filterMap_sides _ _

theorem list_first (limit : ℕ) :
    listCatalog sha json c none limit takeId = .ok (pageAt sha json c limit takeId 0) := rfl

theorem length_entries_lt : (c.entries takeId).length < 2 ^ 63 := by
  have hitems : (c.items takeId).length ≤ c.summaries.length := by
    refine (List.length_filter_le _ _).trans ?_
    exact (sortReverse_perm _ _).length_eq.le
  have hordered : c.ordered.length = c.diagnostics.length := (List.perm_insertionSort _ _).length_eq
  have := c.length_lt
  unfold Catalog.entries
  rw [List.length_append, List.length_map, List.length_map]
  omega

theorem decode_issued (htake : takeId.all uuidV7 = true) {offset : ℕ} (hpos : 0 < offset)
    (hlt : offset < (c.entries takeId).length) :
    decodeSessionCursor sha (encodeSessionCursor sha
      ⟨sessionCatalogRevision sha json c.allItems c.ordered, takeId, offset⟩) =
        some ⟨sessionCatalogRevision sha json c.allItems c.ordered, takeId, offset⟩ :=
  decode_encode hpos (length_encode_le json _ _ htake (hlt.trans length_entries_lt))

/-- How a readable cursor is answered: with the page from its offset on, or with an error that says what
does not fit. -/
theorem list_decoded {cursor : String} {d : Cursor} (h : decodeSessionCursor sha cursor = some d) (limit : ℕ) :
    listCatalog sha json c (some cursor) limit takeId =
      if d.takeId ≠ takeId then .error .invalidCursor
      else if d.catalogRevision ≠ sessionCatalogRevision sha json c.allItems c.ordered then
        .error (.catalogChanged (sessionCatalogRevision sha json c.allItems c.ordered))
      else if (c.entries takeId).length ≤ d.offset then .error .invalidCursor
      else .ok (pageAt sha json c limit takeId d.offset) := by
  have hdecode : (sessionCodec sha json).decode cursor = some d := h
  have hrevision : (sessionCodec sha json).revision c.allItems c.ordered =
      sessionCatalogRevision sha json c.allItems c.ordered := rfl
  have hentries : (c.items takeId).map Sum.inl ++ c.ordered.map Sum.inr = c.entries takeId := rfl
  unfold listCatalog codedPage
  simp only [hdecode, hrevision, hentries]
  split_ifs <;> rfl

/-- The cursors and the pages that follow one another. -/
inductive Follows (sha : Sha256) (json : EntryJson) (c : Catalog) (limit : ℕ) (takeId : Option String) :
    Option String → List SessionPage → Prop
  | last {cursor page} (hpage : listCatalog sha json c cursor limit takeId = .ok page)
    (hlast : page.nextCursor = none) : Follows sha json c limit takeId cursor [page]
  | next {cursor page next pages} (hpage : listCatalog sha json c cursor limit takeId = .ok page)
    (hnext : page.nextCursor = some next) (hpages : Follows sha json c limit takeId (some next) pages) :
    Follows sha json c limit takeId cursor (page :: pages)

variable {limit : ℕ}

theorem follows_from (htake : takeId.all uuidV7 = true) (hlimit : 1 ≤ limit) (left : ℕ) :
    ∀ {start : ℕ} {cursor : Option String}, (c.entries takeId).length - start ≤ left →
      listCatalog sha json c cursor limit takeId = .ok (pageAt sha json c limit takeId start) →
      ∃ pages, Follows sha json c limit takeId cursor pages ∧
        pages.flatMap SessionPage.entries = (c.entries takeId).drop start := by
  induction left with
  | zero =>
    intro start cursor hleft hpage
    have hnil : (c.entries takeId).drop start = [] := List.drop_eq_nil_of_le (by omega)
    refine ⟨[_], .last hpage ?_, ?_⟩
    · unfold pageAt
      simp only [hnil, List.take_nil, List.length_nil]
      exact if_neg (by omega)
    · rw [List.flatMap_singleton, entries_pageAt, hnil, List.take_nil]
  | succ left ih =>
    intro start cursor hleft hpage
    have hselected : (((c.entries takeId).drop start).take limit).length =
        min limit ((c.entries takeId).length - start) := by
      rw [List.length_take, List.length_drop]
    by_cases hmore : start + (((c.entries takeId).drop start).take limit).length < (c.entries takeId).length
    · have hoffset : start + (((c.entries takeId).drop start).take limit).length = start + limit := by omega
      rw [hoffset] at hmore
      have hdecode := @decode_issued sha json c takeId htake (start + limit) (by omega) hmore
      have hnext := @list_decoded sha json c takeId _ _ hdecode limit
      rw [if_neg (not_not.2 rfl), if_neg (not_not.2 rfl), if_neg (by simpa using hmore)] at hnext
      obtain ⟨pages, hfollows, hentries⟩ := ih (by simp only; omega) hnext
      refine ⟨_, .next hpage ?_ hfollows, ?_⟩
      · unfold pageAt
        simp only [hoffset]
        exact if_pos hmore
      · rw [List.flatMap_cons, entries_pageAt, hentries, ← List.drop_drop, List.take_append_drop]
    · refine ⟨[_], .last hpage (if_neg hmore), ?_⟩
      rw [List.flatMap_singleton, entries_pageAt]
      apply List.take_of_length_le
      rw [List.length_drop]
      omega

variable {cursor : Option String} {page : SessionPage}

/-- Every page is the slice from some position on. -/
theorem page_of_list (h : listCatalog sha json c cursor limit takeId = .ok page) :
    ∃ start, page = pageAt sha json c limit takeId start := by
  cases cursor with
  | none => exact ⟨0, (Except.ok.inj h).symm⟩
  | some cursor =>
    cases hdecode : decodeSessionCursor sha cursor with
    | none =>
      have hrefused : listCatalog sha json c (some cursor) limit takeId = .error .invalidCursor := by
        have hcodec : (sessionCodec sha json).decode cursor = none := hdecode
        unfold listCatalog codedPage
        simp only [hcodec]
      rw [hrefused] at h
      cases h
    | some d =>
      rw [list_decoded hdecode] at h
      split_ifs at h
      exact ⟨d.offset, (Except.ok.inj h).symm⟩

/-- A cursor that a page names is one of its catalog and its filter, and of a position between the
first and the last entry. -/
theorem next_of_list (htake : takeId.all uuidV7 = true) (hlimit : 1 ≤ limit)
    {next : String} (hpage : listCatalog sha json c cursor limit takeId = .ok page)
    (hnext : page.nextCursor = some next) : ∃ offset, 0 < offset ∧ offset < (c.entries takeId).length ∧
      next = encodeSessionCursor sha ⟨sessionCatalogRevision sha json c.allItems c.ordered, takeId, offset⟩ ∧
      decodeSessionCursor sha next =
        some ⟨sessionCatalogRevision sha json c.allItems c.ordered, takeId, offset⟩ := by
  obtain ⟨start, rfl⟩ := page_of_list hpage
  have hselected : (((c.entries takeId).drop start).take limit).length =
      min limit ((c.entries takeId).length - start) := by
    rw [List.length_take, List.length_drop]
  unfold pageAt at hnext
  simp only at hnext
  split_ifs at hnext with hmore
  obtain rfl := Option.some.inj hnext
  have hpos : 0 < start + (((c.entries takeId).drop start).take limit).length := by omega
  exact ⟨_, hpos, hmore, rfl, decode_issued htake hpos hmore⟩

/-- The same entries in the same order. -/
def Catalog.Same (c' c : Catalog) : Prop := c'.allItems = c.allItems ∧ c'.ordered = c.ordered

/-- The two inputs of the digest are a collision of the hash. -/
def Collides (sha : Sha256) (json : EntryJson) (c' c : Catalog) : Prop :=
  revisionInput json c'.allItems c'.ordered ≠ revisionInput json c.allItems c.ordered ∧
    sha.digest (revisionInput json c'.allItems c'.ordered) = sha.digest (revisionInput json c.allItems c.ordered)

theorem same_or_collides {c' : Catalog} (hjson : json.Delimited (c'.allItems ++ c.allItems) (c'.ordered ++ c.ordered))
    (h : sessionCatalogRevision sha json c'.allItems c'.ordered = sessionCatalogRevision sha json c.allItems c.ordered) :
    c'.Same c ∨ Collides sha json c' c := by
  by_cases hinput : revisionInput json c'.allItems c'.ordered = revisionInput json c.allItems c.ordered
  · exact .inl (revisionInput_injective hjson hinput)
  · exact .inr ⟨hinput, digest_of_revision h⟩

/-- The listing of a catalog: its pages give the filtered summaries, the latest first, and then the
diagnostics, each once; and a cursor reads as what it was issued for, fits no other filter, no other
revision and no other catalog (but for a collision of the hash), and is answered from its position on. -/
theorem cursor_pages (sha : Sha256) (json : EntryJson) (c : Catalog) {limit : ℕ} (hlimit : 1 ≤ limit)
    {takeId : Option String} (htake : takeId.all uuidV7 = true) :
    ((c.items takeId).Perm (c.summaries.filter fun item => takeId.all (· = item.takeId)) ∧
      (c.items takeId).Pairwise (fun a b => b.textKey ≤ a.textKey) ∧
      c.ordered.Perm c.diagnostics ∧ c.ordered.Pairwise fun a b => a.quarantineId ≤ b.quarantineId) ∧
    (∃ pages, Follows sha json c limit takeId none pages ∧
      pages.flatMap SessionPage.entries = (c.items takeId).map .inl ++ c.ordered.map .inr) ∧
    ∀ cursor page next, listCatalog sha json c cursor limit takeId = .ok page → page.nextCursor = some next →
      ∃ offset, 0 < offset ∧ offset < (c.entries takeId).length ∧
        next = encodeSessionCursor sha ⟨sessionCatalogRevision sha json c.allItems c.ordered, takeId, offset⟩ ∧
        decodeSessionCursor sha next =
          some ⟨sessionCatalogRevision sha json c.allItems c.ordered, takeId, offset⟩ ∧
        ∀ (c' : Catalog) (limit' : ℕ) (takeId' : Option String),
          (takeId' ≠ takeId → listCatalog sha json c' (some next) limit' takeId' = .error .invalidCursor) ∧
          (takeId' = takeId → sessionCatalogRevision sha json c'.allItems c'.ordered ≠
              sessionCatalogRevision sha json c.allItems c.ordered →
            listCatalog sha json c' (some next) limit' takeId' =
              .error (.catalogChanged (sessionCatalogRevision sha json c'.allItems c'.ordered))) ∧
          (takeId' = takeId → json.Delimited (c'.allItems ++ c.allItems) (c'.ordered ++ c.ordered) → ¬c'.Same c →
            ¬Collides sha json c' c → listCatalog sha json c' (some next) limit' takeId' =
              .error (.catalogChanged (sessionCatalogRevision sha json c'.allItems c'.ordered))) ∧
          ∀ page', listCatalog sha json c' (some next) limit' takeId' = .ok page' →
            takeId' = takeId ∧
            sessionCatalogRevision sha json c'.allItems c'.ordered =
              sessionCatalogRevision sha json c.allItems c.ordered ∧
            page'.entries = ((c'.entries takeId).drop offset).take limit' ∧
            (json.Delimited (c'.allItems ++ c.allItems) (c'.ordered ++ c.ordered) →
              c'.Same c ∧ page'.entries = ((c.entries takeId).drop offset).take limit' ∨ Collides sha json c' c) := by
  have htextKey := (sortReverse_pairwise Summary.textKey c.summaries).filter
    fun item => takeId.all (· = item.takeId)
  have hordered : c.ordered.Pairwise fun a b => a.quarantineId ≤ b.quarantineId := by
    have : Std.Total (fun a b : Diagnostic => a.quarantineId ≤ b.quarantineId) := ⟨fun a b => le_total _ _⟩
    have : IsTrans Diagnostic fun a b => a.quarantineId ≤ b.quarantineId := ⟨fun a b c hab hbc => hab.trans hbc⟩
    exact List.pairwise_insertionSort _ _
  refine ⟨⟨(sortReverse_perm _ _).filter _, htextKey, List.perm_insertionSort _ _, hordered⟩, ?_, ?_⟩
  · exact follows_from htake hlimit _ (le_refl _) (list_first limit)
  · intro cursor page next hpage hnext
    obtain ⟨offset, hpos, hlt, hencode, hdecode⟩ := next_of_list htake hlimit hpage hnext
    refine ⟨offset, hpos, hlt, hencode, hdecode, fun c' limit' takeId' => ?_⟩
    have hchanged : takeId' = takeId → sessionCatalogRevision sha json c'.allItems c'.ordered ≠
        sessionCatalogRevision sha json c.allItems c.ordered → listCatalog sha json c' (some next) limit' takeId' =
          .error (.catalogChanged (sessionCatalogRevision sha json c'.allItems c'.ordered)) := by
      intro htake' hrevision
      rw [list_decoded hdecode, if_neg (not_not.2 htake'.symm), if_pos hrevision.symm]
    refine ⟨fun htake' => ?_, hchanged, fun htake' hjson hother hcollides => hchanged htake' fun hrevision => ?_, ?_⟩
    · rw [list_decoded hdecode, if_pos (Ne.symm htake')]
    · exact (same_or_collides hjson hrevision).elim hother hcollides
    · intro page' hpage'
      rw [list_decoded hdecode] at hpage'
      split_ifs at hpage' with htake' hrevision hoffset
      obtain rfl := not_not.1 htake'
      obtain rfl := Except.ok.inj hpage'
      have hrevision := (not_not.1 hrevision).symm
      refine ⟨rfl, hrevision, entries_pageAt _ _, fun hjson => ?_⟩
      refine (same_or_collides hjson hrevision).imp_left fun hsame => ⟨hsame, ?_⟩
      have hentries : c'.entries takeId = c.entries takeId := by
        unfold Catalog.entries Catalog.items
        rw [hsame.1, hsame.2]
      rw [entries_pageAt, hentries]

end Pages

/-- A take with one session, and a session that cannot be read. -/
def catalogSample : Catalog where
  summaries := [summarySample "0a1b2c3d-0000-7000-8000-000000000001" "2026-03-29T01:30:00.000000Z"]
  diagnostics :=
    [⟨"0a1b2c3d-0000-4000-8000-000000000002", "manifest_unreadable", "2026-03-29T02:00:00.000000Z", "unreadable"⟩]
  length_lt := by decide

/-- The texts of the sample's summary, and those of any diagnostic. -/
def jsonSample : EntryJson where
  summary _ := ascii
    ("\x7b\"continuation_of\":null,\"device\":\x7b\"device_id\":\"0a1b2c3d-0000-4000-8000-00000000000f\"," ++
      "\"device_label\":\"YLX-0A1B2C3D\"\x7d,\"display_name\":\"take\",\"duration_seconds\":1," ++
      "\"ended_at\":\"2026-03-29T01:30:00.000000Z\",\"producer_outcome\":\"sealed\"," ++
      "\"session_id\":\"0a1b2c3d-0000-7000-8000-000000000001\"," ++
      "\"started_at\":\"2026-03-29T01:30:00.000000Z\",\"take_id\":\"0a1b2c3d-0000-7000-8000-00000000000f\"," ++
      "\"take_sequence\":1,\"total_bytes\":1,\"verification\":null\x7d")
  diagnostic d := canonicalJsonBytes
    [("quarantine_id".toList, .text d.quarantineId.toList), ("code".toList, .text d.code.toList),
      ("observed_at".toList, .text d.observedAt.toList), ("message".toList, .text d.message.toList)]

/-- The sample with one more diagnostic. -/
def changedSample : Catalog where
  summaries := catalogSample.summaries
  diagnostics :=
    ⟨"0a1b2c3d-0000-4000-8000-000000000003", "manifest_unreadable", "2026-03-29T02:00:00.000000Z", "unreadable"⟩ ::
      catalogSample.diagnostics
  length_lt := by decide

/-- SHA-256 on the entries of both catalogs and on the cursor of the first. -/
def shaSample : Sha256 where
  digest bytes :=
    if bytes = revisionInput jsonSample catalogSample.allItems catalogSample.ordered then
      [28, 119, 178, 150, 232, 240, 97, 245, 6, 71, 198, 135, 62, 201, 190, 168, 126, 168, 103, 40, 194, 141, 192,
        255, 56, 238, 121, 33, 38, 102, 96, 7]
    else if bytes = revisionInput jsonSample changedSample.allItems changedSample.ordered then
      [125, 167, 14, 248, 191, 95, 20, 235, 214, 208, 252, 102, 5, 91, 122, 36, 88, 196, 202, 13, 132, 174, 19, 244,
        220, 8, 77, 177, 42, 110, 208, 168]
    else if bytes = sessionCursorDomain ++ canonicalJsonBytes (cursorValue
        ⟨"sha256:1c77b296e8f061f50647c6873ec9bea87ea86728c28dc0ff38ee792126666007",
          some "0a1b2c3d-0000-7000-8000-00000000000f", 1⟩) then
      [41, 251, 158, 203, 186, 4, 235, 232, 160, 86, 153, 115, 9, 96, 48, 239, 253, 227, 212, 226, 138, 79, 58, 253,
        134, 38, 13, 19, 123, 235, 32, 213]
    else List.replicate 32 0
  length_digest bytes := by
    split_ifs <;> rfl

def takeSample : Option String := some "0a1b2c3d-0000-7000-8000-00000000000f"

theorem cursor_pages_sample :
    (∃ pages, Follows shaSample jsonSample catalogSample 1 takeSample none pages ∧
      pages.flatMap SessionPage.entries = catalogSample.summaries.map .inl ++ catalogSample.diagnostics.map .inr) ∧
    ∃ page next, listCatalog shaSample jsonSample catalogSample none 1 takeSample = .ok page ∧ page.nextCursor = some next ∧
      listCatalog shaSample jsonSample catalogSample (some next) 1 none = .error .invalidCursor ∧
      listCatalog shaSample jsonSample changedSample (some next) 1 takeSample =
        .error (.catalogChanged (sessionCatalogRevision shaSample jsonSample changedSample.allItems changedSample.ordered)) := by
  have htake : takeSample.all uuidV7 = true := by decide
  obtain ⟨-, hpages, hcursors⟩ := cursor_pages shaSample jsonSample catalogSample (le_refl 1) htake
  obtain ⟨next, hnext⟩ : ∃ next, (pageAt shaSample jsonSample catalogSample 1 takeSample 0).nextCursor = some next :=
    Option.isSome_iff_exists.1 (by decide +kernel)
  obtain ⟨offset, -, -, -, -, hcursor⟩ := hcursors none _ next rfl hnext
  have hdelimited : jsonSample.Delimited (changedSample.allItems ++ catalogSample.allItems)
      (changedSample.ordered ++ catalogSample.ordered) := by
    have hsummaries : ∀ a ∈ changedSample.allItems ++ catalogSample.allItems, a = catalogSample.summaries.head (by decide) := by decide
    exact ⟨fun a ha b hb _ => (hsummaries a ha).trans (hsummaries b hb).symm, by decide +kernel⟩
  have hother : ¬changedSample.Same catalogSample := fun hsame => by
    have hlength := congrArg List.length hsame.2
    revert hlength
    decide
  have hchanged : (shaSample.digest (revisionInput jsonSample changedSample.allItems changedSample.ordered)).head? = some 125 := by
    unfold shaSample
    dsimp only
    rw [if_neg fun hinput => hother (revisionInput_injective hdelimited hinput), if_pos rfl]
    rfl
  have hfirst : (shaSample.digest (revisionInput jsonSample catalogSample.allItems catalogSample.ordered)).head? = some 28 := by
    unfold shaSample
    dsimp only
    rw [if_pos rfl]
    rfl
  refine ⟨hpages, _, next, rfl, hnext, (hcursor catalogSample 1 none).1 (by decide), ?_⟩
  refine (hcursor changedSample 1 takeSample).2.2.1 rfl hdelimited hother fun hcollides => ?_
  have hhead := hchanged.symm.trans ((congrArg List.head? hcollides.2).trans hfirst)
  revert hhead
  decide

end Conductor.Api
