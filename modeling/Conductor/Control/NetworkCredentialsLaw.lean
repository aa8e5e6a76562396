import Conductor.Control.NetworkCredentials
import Mathlib.Algebra.Order.Ring.Nat

/-! Entries are numbered as they are created and a reservation carries the number of its entry, but commit
and close find the entry by its name. When the entry was discarded and a new one got the name, they act on
the new one. As long as no commit or close meets such an entry, a reference is good for one use. -/

namespace Conductor.NetworkCredentials

open KeyTable Runs

variable {τ : Type}

/-- Open and uncommitted. -/
def Reservation.Active (r : Reservation τ) : Prop := r.closed = false ∧ r.committed = false

/-- Open or committed. -/
def Reservation.Claims (r : Reservation τ) : Prop := r.closed = false ∨ r.committed = true

theorem Reservation.Active.claims {r : Reservation τ} (h : r.Active) : r.Claims := Or.inl h.1

/-! ### Names and numbers of the entries -/

section Entries

theorem setReserved_fst (credentialRef : String) (b : Bool) (row : String × Credential τ) :
    (setReserved credentialRef b row).1 = row.1 := by
  unfold setReserved
  split_ifs <;> rfl

theorem setReserved_id (credentialRef : String) (b : Bool) (row : String × Credential τ) :
    (setReserved credentialRef b row).2.id = row.2.id := by
  unfold setReserved
  split_ifs <;> rfl

theorem setReserved_value (credentialRef : String) (b : Bool) (row : String × Credential τ) :
    (setReserved credentialRef b row).2.value = row.2.value := by
  unfold setReserved
  split_ifs <;> rfl

theorem setReserved_expiresAt (credentialRef : String) (b : Bool) (row : String × Credential τ) :
    (setReserved credentialRef b row).2.expiresAt = row.2.expiresAt := by
  unfold setReserved
  split_ifs <;> rfl

variable {credentialRef : String} {row : String × Credential τ} {s : Store τ}

theorem setReserved_of_ne (b : Bool) (h : row.1 ≠ credentialRef) : setReserved credentialRef b row = row := if_neg h

theorem setReserved_reserved (b : Bool) (h : row.1 = credentialRef) :
    (setReserved credentialRef b row).2.reserved = b := by
  unfold setReserved
  rw [if_pos h]

/-- Names and numbers are unique, and each entry has the text and the expiry it was created with. -/
structure Rows (s : Store τ) : Prop where
  unique : UniqueKeys s.entries
  ids : (s.entries.map (·.2.id)).Nodup
  values : ∀ row ∈ s.entries, ∃ text, s.created[row.2.id]? = some (text, row.2.expiresAt) ∧ row.2.value = utf8 text

theorem Rows.mem (h : Rows s) {c : Credential τ}
    (hlook : s.entries.lookup credentialRef = some c) : (credentialRef, c) ∈ s.entries :=
  h.unique.lookup_iff.1 hlook

theorem Rows.eq_of_ref (h : Rows s) {c : Credential τ}
    (hlook : s.entries.lookup credentialRef = some c) (hrow : row ∈ s.entries)
    (href : row.1 = credentialRef) : row.2 = c := by
  have hrow' : (credentialRef, row.2) ∈ s.entries := by rw [← href]; exact hrow
  have hlook' := h.unique.lookup_iff.2 hrow'
  rw [hlook] at hlook'
  exact (Option.some.inj hlook').symm

theorem Rows.eq_of_id (h : Rows s) {row' : String × Credential τ} (hrow : row ∈ s.entries)
    (hrow' : row' ∈ s.entries) (hid : row.2.id = row'.2.id) : row = row' :=
  List.inj_on_of_nodup_map h.ids hrow hrow' hid

theorem Rows.id_lt (h : Rows s) (hrow : row ∈ s.entries) : row.2.id < s.created.length := by
  obtain ⟨text, htext, -⟩ := h.values row hrow
  exact (List.getElem?_eq_some_iff.1 htext).1

theorem Rows.shrink {t : Store τ} (h : Rows s) (hsub : t.entries.Sublist s.entries) (hc : t.created = s.created) :
    Rows t where
  unique := List.Nodup.sublist (hsub.map _) h.unique
  ids := List.Nodup.sublist (hsub.map _) h.ids
  values row hrow := by
    rw [hc]
    exact h.values row (hsub.subset hrow)

theorem Rows.mark (h : Rows s) (credentialRef : String) (b : Bool) : Rows (s.mark credentialRef b) where
  unique := by
    have hkeys : (s.mark credentialRef b).entries.map (·.1) = s.entries.map (·.1) := by
      simp only [Store.mark, List.map_map, Function.comp_def, setReserved_fst]
    unfold UniqueKeys
    rw [hkeys]
    exact h.unique
  ids := by
    simp only [Store.mark, List.map_map, Function.comp_def, setReserved_id]
    exact h.ids
  values row hrow := by
    obtain ⟨row', hrow', rfl⟩ := List.mem_map.1 hrow
    simp only [setReserved_id, setReserved_expiresAt, setReserved_value]
    exact h.values row' hrow'

theorem Rows.add (h : Rows s) {config : Config τ} {now : τ} {credential : List Char}
    (hnone : s.entries.lookup credentialRef = none) : Rows (s.add config now credential credentialRef) where
  unique := h.unique.append hnone
  ids := by
    simp only [Store.add, List.map_append, List.map_cons, List.map_nil]
    refine List.nodup_append.2 ⟨h.ids, List.nodup_singleton _, ?_⟩
    intro i hi j hj
    obtain ⟨row, hrow, rfl⟩ := List.mem_map.1 hi
    rw [List.mem_singleton.1 hj]
    exact (h.id_lt hrow).ne
  values row hrow := by
    rcases mem_concat.1 hrow with hold | rfl
    · obtain ⟨text, htext, hvalue⟩ := h.values row hold
      have hlt := h.id_lt hold
      refine ⟨text, ?_, hvalue⟩
      simp only [Store.add]
      rw [List.getElem?_append_left hlt, htext]
    · exact ⟨credential, by simp [Store.add], rfl⟩

end Entries

/-! ### Which reservation has which entry -/

section Holding

/-- An entry is reserved while a reservation has it, no two have it at once or one after it was committed,
and what was committed is out of the store. -/
structure Holders (s : Store τ) : Prop where
  held : ∀ r ∈ s.reservations, r.Active → ∀ row ∈ s.entries, row.2.id = r.entry →
    row.1 = r.credentialRef ∧ row.2.reserved = true
  claims : ∀ {i j : ℕ} {r r' : Reservation τ}, s.reservations[i]? = some r → s.reservations[j]? = some r' →
    r.Claims → r'.Claims → r.entry = r'.entry → i = j
  used : ∀ r ∈ s.reservations, r.committed = true → ∀ row ∈ s.entries, row.2.id ≠ r.entry

variable [LinearOrder τ]

/-- A reservation was opened before its entry expired, and gives the text of that entry while it is open. -/
def Delivers (s : Store τ) (r : Reservation τ) : Prop :=
  ∃ text expiresAt, s.created[r.entry]? = some (text, expiresAt) ∧ r.openedAt < expiresAt ∧
    (r.closed = false → r.credential = text)

/-- What holds of the entries and the reservations together. -/
structure Sound (s : Store τ) : Prop where
  rows : Rows s
  holders : Holders s
  delivers : ∀ r ∈ s.reservations, Delivers s r

variable {s : Store τ} {credentialRef : String} {r : Reservation τ}

theorem Sound.entry_lt (h : Sound s) (hr : r ∈ s.reservations) : r.entry < s.created.length := by
  obtain ⟨text, expiresAt, htext, -⟩ := h.delivers r hr
  exact (List.getElem?_eq_some_iff.1 htext).1

/-- Entries may leave. -/
theorem Sound.shrink {t : Store τ} (h : Sound s) (hsub : t.entries.Sublist s.entries)
    (hr : t.reservations = s.reservations) (hc : t.created = s.created) : Sound t where
  rows := h.rows.shrink hsub hc
  holders := by
    constructor
    · intro r hmem hactive row hrow
      rw [hr] at hmem
      exact h.holders.held r hmem hactive row (hsub.subset hrow)
    · rw [hr]
      exact h.holders.claims
    · intro r hmem hcommitted row hrow
      rw [hr] at hmem
      exact h.holders.used r hmem hcommitted row (hsub.subset hrow)
  delivers r hmem := by
    rw [hr] at hmem
    unfold Delivers
    rw [hc]
    exact h.delivers r hmem

theorem Sound.remove (h : Sound s) (credentialRef : String) (c : Credential τ) : Sound (s.remove credentialRef c) :=
  h.shrink List.filter_sublist rfl rfl

/-- A new entry has a number that no reservation has. -/
theorem Sound.add (h : Sound s) {config : Config τ} {now : τ} {credential : List Char}
    (hnone : s.entries.lookup credentialRef = none) : Sound (s.add config now credential credentialRef) where
  rows := h.rows.add hnone
  holders := by
    constructor
    · intro r hr hactive row hrow hid
      rcases mem_concat.1 hrow with hold | rfl
      · exact h.holders.held r hr hactive row hold hid
      · exact absurd hid.symm (h.entry_lt hr).ne
    · exact h.holders.claims
    · intro r hr hcommitted row hrow hid
      rcases mem_concat.1 hrow with hold | rfl
      · exact h.holders.used r hr hcommitted row hold hid
      · exact absurd hid.symm (h.entry_lt hr).ne
  delivers r hr := by
    obtain ⟨text, expiresAt, htext, hrest⟩ := h.delivers r hr
    refine ⟨text, expiresAt, ?_, hrest⟩
    simp only [Store.add]
    rw [List.getElem?_append_left (h.entry_lt hr), htext]

/-- An entry is unlocked when no reservation has it. -/
theorem Sound.unreserve (h : Sound s)
    (hfree : ∀ r ∈ s.reservations, r.Active → ∀ row ∈ s.entries, row.1 = credentialRef → row.2.id ≠ r.entry) :
    Sound (s.mark credentialRef false) where
  rows := h.rows.mark credentialRef false
  holders := by
    constructor
    · intro r hr hactive row hrow hid
      obtain ⟨row', hrow', rfl⟩ := List.mem_map.1 hrow
      rw [setReserved_id] at hid
      have hne : row'.1 ≠ credentialRef := fun href => hfree r hr hactive row' hrow' href hid
      rw [setReserved_of_ne false hne]
      exact h.holders.held r hr hactive row' hrow' hid
    · exact h.holders.claims
    · intro r hr hcommitted row hrow
      obtain ⟨row', hrow', rfl⟩ := List.mem_map.1 hrow
      rw [setReserved_id]
      exact h.holders.used r hr hcommitted row' hrow'
  delivers := h.delivers

/-- A reservation may be closed, and committed once its entry is out of the store. -/
theorem Sound.replace (h : Sound s) {i : ℕ} {r' : Reservation τ} (hi : s.reservations[i]? = some r)
    (hentry : r'.entry = r.entry) (hopened : r'.openedAt = r.openedAt)
    (hactive : ¬ r'.Active) (hclaims : r'.Claims → r.Claims)
    (hused : r'.committed = true → r.committed = true ∨ ∀ row ∈ s.entries, row.2.id ≠ r.entry)
    (htext : r'.closed = false → r.closed = false ∧ r'.credential = r.credential) : Sound (s.setReservation i r') where
  rows := ⟨h.rows.unique, h.rows.ids, h.rows.values⟩
  holders := by
    have hr := List.mem_of_getElem? hi
    have hback : ∀ {j : ℕ} {x : Reservation τ}, (s.reservations.set i r')[j]? = some x →
        ∃ y, s.reservations[j]? = some y ∧ x.entry = y.entry ∧ (x.Claims → y.Claims) := by
      intro j x hx
      rw [List.getElem?_set] at hx
      split_ifs at hx with hj hlt
      · cases hx
        exact ⟨r, by rw [← hj]; exact hi, hentry, hclaims⟩
      · exact ⟨x, hx, rfl, id⟩
    constructor
    · intro x hx hx'
      rcases List.mem_or_eq_of_mem_set hx with hold | hnew
      · exact h.holders.held x hold hx'
      · rw [hnew] at hx'
        exact absurd hx' hactive
    · intro j k x y hx hy hcx hcy heq
      obtain ⟨x', hx', hex, hcx'⟩ := hback hx
      obtain ⟨y', hy', hey, hcy'⟩ := hback hy
      exact h.holders.claims hx' hy' (hcx' hcx) (hcy' hcy) (by rw [← hex, ← hey, heq])
    · intro x hx hcommitted row hrow
      rcases List.mem_or_eq_of_mem_set hx with hold | hnew
      · exact h.holders.used x hold hcommitted row hrow
      · rw [hnew] at hcommitted ⊢
        rw [hentry]
        rcases hused hcommitted with hbefore | hout
        · exact h.holders.used r hr hbefore row hrow
        · exact hout row hrow
  delivers x hx := by
    rcases List.mem_or_eq_of_mem_set hx with hold | hnew
    · exact h.delivers x hold
    · obtain ⟨text, expiresAt, hcreated, hlt, hgives⟩ := h.delivers r (List.mem_of_getElem? hi)
      rw [hnew]
      refine ⟨text, expiresAt, by rw [hentry]; exact hcreated, by rw [hopened]; exact hlt, ?_⟩
      intro hclosed
      obtain ⟨hclosed', hsame⟩ := htext hclosed
      rw [hsame]
      exact hgives hclosed'

theorem decode_utf8 (text : List Char) : decode (utf8 text) = text := by
  have hbytes : (utf8 text).toByteArray = text.utf8Encode := rfl
  unfold decode
  rw [hbytes, List.utf8Decode?_utf8Encode]
  rfl

/-- A free entry that has not expired is reserved. -/
theorem Sound.reserve (h : Sound s) {now : τ} {c : Credential τ}
    (hlook : s.entries.lookup credentialRef = some c) (hfree : c.reserved = false) (hlt : now < c.expiresAt) :
    Sound { s.mark credentialRef true with reservations := s.reservations ++
        [{ credentialRef, credential := decode c.value, entry := c.id, openedAt := now : Reservation τ }] } where
  rows := ⟨(h.rows.mark credentialRef true).unique, (h.rows.mark credentialRef true).ids,
    (h.rows.mark credentialRef true).values⟩
  holders := by
    have hmem := h.rows.mem hlook
    -- no reservation claims the entry yet
    have hnew : ∀ r ∈ s.reservations, r.Claims → r.entry ≠ c.id := by
      intro r hr hclaims heq
      rcases hclaims with hopen | hcommitted
      · by_cases hcommitted : r.committed = true
        · exact h.holders.used r hr hcommitted _ hmem heq.symm
        · have hres := (h.holders.held r hr ⟨hopen, by simpa using hcommitted⟩ _ hmem heq.symm).2
          rw [hfree] at hres
          cases hres
      · exact h.holders.used r hr hcommitted _ hmem heq.symm
    constructor
    · intro r hr hactive row hrow hid
      obtain ⟨row', hrow', rfl⟩ := List.mem_map.1 hrow
      rw [setReserved_id] at hid
      rcases mem_concat.1 hr with hold | rfl
      · obtain ⟨hname, hres⟩ := h.holders.held r hold hactive row' hrow' hid
        refine ⟨by rw [setReserved_fst, hname], ?_⟩
        by_cases href : row'.1 = credentialRef
        · exact setReserved_reserved true href
        · rw [setReserved_of_ne true href, hres]
      · obtain rfl := h.rows.eq_of_id hrow' hmem hid
        exact ⟨setReserved_fst _ _ _, setReserved_reserved true rfl⟩
    · intro i j r r' hi hj hr hr' heq
      rw [List.getElem?_append] at hi hj
      split_ifs at hi hj with hli hlj hlj
      · exact h.holders.claims hi hj hr hr' heq
      · obtain rfl := List.mem_singleton.1 (List.mem_of_getElem? hj)
        exact absurd heq (hnew r (List.mem_of_getElem? hi) hr)
      · obtain rfl := List.mem_singleton.1 (List.mem_of_getElem? hi)
        exact absurd heq.symm (hnew r' (List.mem_of_getElem? hj) hr')
      · have hi' := (List.getElem?_eq_some_iff.1 hi).1
        have hj' := (List.getElem?_eq_some_iff.1 hj).1
        simp only [List.length_singleton] at hi' hj'
        omega
    · intro r hr hcommitted row hrow
      obtain ⟨row', hrow', rfl⟩ := List.mem_map.1 hrow
      rw [setReserved_id]
      rcases mem_concat.1 hr with hold | rfl
      · exact h.holders.used r hold hcommitted row' hrow'
      · cases hcommitted
  delivers r hr := by
    rcases mem_concat.1 hr with hold | hlast
    · exact h.delivers r hold
    · obtain ⟨text, htext, hvalue⟩ := h.rows.values _ (h.rows.mem hlook)
      rw [hlast]
      refine ⟨text, c.expiresAt, htext, hlt, fun _ => ?_⟩
      have htext' : c.value = utf8 text := hvalue
      show decode c.value = text
      rw [htext', decode_utf8]

end Holding

/-! ### Where the entries are -/

section Ledger

/-- An entry is in the store, taken out to be wiped, or gone and wiped. -/
structure Ledger (s : Store τ) : Prop where
  accounted : ∀ id < s.created.length, id ∈ s.entries.map (·.2.id) ∨ id ∈ s.popped.map (·.id) ∨ id ∈ s.gone.map (·.id)
  wiped : ∀ c ∈ s.gone, ∀ b ∈ c.value, b = 0

theorem wiped_zero (c : Credential τ) : ∀ b ∈ c.wiped.value, b = 0 := by
  intro b hb
  obtain ⟨_, -, rfl⟩ := List.mem_map.1 hb
  rfl

variable {s : Store τ}

/-- Entries move out of the store, and those taken out are wiped. -/
theorem Ledger.move {t : Store τ} (h : Ledger s) (hc : t.created = s.created)
    (hentries : ∀ id ∈ s.entries.map (·.2.id), id ∈ t.entries.map (·.2.id) ∨ id ∈ t.popped.map (·.id) ∨ id ∈ t.gone.map (·.id))
    (hpopped : ∀ id ∈ s.popped.map (·.id), id ∈ t.popped.map (·.id) ∨ id ∈ t.gone.map (·.id))
    (hgone : ∃ more : List (Credential τ), t.gone = s.gone ++ more.map Credential.wiped) : Ledger t where
  accounted id hid := by
    rw [hc] at hid
    obtain ⟨more, hmore⟩ := hgone
    rcases h.accounted id hid with hin | hin | hin
    · exact hentries id hin
    · exact Or.inr (hpopped id hin)
    · exact Or.inr (Or.inr (by rw [hmore, List.map_append]; exact List.mem_append_left _ hin))
  wiped c hmem := by
    obtain ⟨more, hmore⟩ := hgone
    rw [hmore] at hmem
    rcases List.mem_append.1 hmem with hold | hnew
    · exact h.wiped c hold
    · obtain ⟨c', -, rfl⟩ := List.mem_map.1 hnew
      exact wiped_zero c'

theorem Ledger.mark (h : Ledger s) (credentialRef : String) (b : Bool) : Ledger (s.mark credentialRef b) where
  accounted id hid := by
    simp only [Store.mark, List.map_map, Function.comp_def, setReserved_id]
    exact h.accounted id hid
  wiped := h.wiped

theorem Ledger.add (h : Ledger s) (config : Config τ) (now : τ) (credential : List Char) (credentialRef : String) :
    Ledger (s.add config now credential credentialRef) where
  accounted id hid := by
    simp only [Store.add, List.length_append, List.length_singleton] at hid
    simp only [Store.add, List.map_append, List.map_cons, List.map_nil, List.mem_append, List.mem_singleton]
    rcases Nat.lt_succ_iff_lt_or_eq.1 hid with hold | hnew
    · rcases h.accounted id hold with hin | hin
      · exact Or.inl (Or.inl hin)
      · exact Or.inr hin
    · exact Or.inl (Or.inr hnew)
  wiped := h.wiped

theorem Ledger.purge [LinearOrder τ] (h : Ledger s) (now : τ) : Ledger (s.purge now) := by
  apply h.move
  · rfl
  · intro id hid
    obtain ⟨row, hrow, rfl⟩ := List.mem_map.1 hid
    by_cases hexp : expired now row = true
    · refine Or.inr (Or.inr ?_)
      simp only [Store.purge, List.map_append, List.map_map, List.mem_append]
      exact Or.inr (List.mem_map.2 ⟨row, List.mem_filter.2 ⟨hrow, hexp⟩, rfl⟩)
    · exact Or.inl (List.mem_map.2 ⟨row, List.mem_filter.2 ⟨hrow, by simpa using hexp⟩, rfl⟩)
  · exact fun id hid => Or.inl hid
  · exact ⟨(s.entries.filter (expired now)).map (·.2), by simp only [Store.purge, List.map_map]; rfl⟩

theorem Ledger.remove (h : Ledger s) (hrows : Rows s) {credentialRef : String} {c : Credential τ}
    (hlook : s.entries.lookup credentialRef = some c) : Ledger (s.remove credentialRef c) := by
  apply h.move
  · rfl
  · intro id hid
    obtain ⟨row, hrow, rfl⟩ := List.mem_map.1 hid
    by_cases href : row.1 = credentialRef
    · refine Or.inr (Or.inr ?_)
      simp [Store.remove, hrows.eq_of_ref hlook hrow href, Credential.wiped]
    · exact Or.inl (List.mem_map.2 ⟨row, List.mem_filter.2 ⟨hrow, by simpa using href⟩, rfl⟩)
  · exact fun id hid => Or.inl hid
  · exact ⟨[c], rfl⟩

theorem Ledger.discard (h : Ledger s) (hrows : Rows s) (credentialRef : String) :
    Ledger (s.discard credentialRef) := by
  apply h.move
  · rfl
  · intro id hid
    obtain ⟨row, hrow, rfl⟩ := List.mem_map.1 hid
    by_cases href : row.1 = credentialRef
    · refine Or.inr (Or.inl ?_)
      have hlook : s.entries.lookup credentialRef = some row.2 :=
        hrows.unique.lookup_iff.2 (by rw [← href]; exact hrow)
      simp [Store.discard, hlook]
    · exact Or.inl (List.mem_map.2 ⟨row, List.mem_filter.2 ⟨hrow, by simpa using href⟩, rfl⟩)
  · intro id hid
    simp only [Store.discard, List.map_append, List.mem_append]
    exact Or.inl (Or.inl hid)
  · exact ⟨[], by simp [Store.discard]⟩

theorem Ledger.clear (h : Ledger s) : Ledger s.clear := by
  apply h.move
  · rfl
  · intro id hid
    refine Or.inr (Or.inl ?_)
    simp only [Store.clear, List.map_append, List.map_map, List.mem_append]
    exact Or.inr hid
  · intro id hid
    simp only [Store.clear, List.map_append, List.mem_append]
    exact Or.inl (Or.inl hid)
  · exact ⟨[], by simp [Store.clear]⟩

theorem Ledger.wipePopped {t : Store τ} (h : Ledger s) {k : ℕ} (hk : s.wipePopped k = some t) : Ledger t := by
  obtain ⟨c, hc, rfl⟩ := Option.map_eq_some_iff.1 hk
  apply h.move
  · rfl
  · exact fun id hid => Or.inl hid
  · intro id hid
    obtain ⟨c', hc', rfl⟩ := List.mem_map.1 hid
    obtain ⟨j, hj⟩ := List.mem_iff_getElem?.1 hc'
    by_cases heq : j = k
    · rw [heq, hc] at hj
      refine Or.inr ?_
      simp [← Option.some.inj hj, Credential.wiped]
    · exact Or.inl (List.mem_map.2 ⟨c', List.mem_eraseIdx_iff_getElem?.2 ⟨j, heq, hj⟩, rfl⟩)
  · exact ⟨[c], rfl⟩

end Ledger

/-! ### Steps -/

section Steps

variable [LinearOrder τ] {config : Config τ}

structure Inv (config : Config τ) (s : Store τ) : Prop where
  sound : Sound s
  ledger : Ledger s
  bounded : s.entries.length ≤ config.maxEntries

/-- A commit or a close of an active reservation finds no reserved entry under its name but its own. -/
def Owns (s : Store τ) : Call τ → Store τ → Prop
  | .commit i, _ | .close _ i, _ => ∀ r, s.reservations[i]? = some r → r.Active →
      ∀ c, s.entries.lookup r.credentialRef = some c → c.reserved = true → c.id = r.entry
  | _, _ => True

theorem Inv.empty : Inv config {} where
  sound :=
    { rows := ⟨List.nodup_nil, List.nodup_nil, fun _ h => by cases h⟩
      holders :=
        { held := fun _ h => by cases h
          claims := fun h => by simp at h
          used := fun _ h => by cases h }
      delivers := fun _ h => by cases h }
  ledger := ⟨fun _ h => absurd h (Nat.not_lt_zero _), fun _ h => by cases h⟩
  bounded := Nat.zero_le _

variable {s : Store τ} {i : ℕ} {r : Reservation τ}

theorem Inv.purge (h : Inv config s) (now : τ) : Inv config (s.purge now) where
  sound := h.sound.shrink List.filter_sublist rfl rfl
  ledger := h.ledger.purge now
  bounded := (List.filter_sublist.length_le).trans h.bounded

variable {credentialRef : String}

theorem Inv.remove (h : Inv config s) {c : Credential τ}
    (hlook : s.entries.lookup credentialRef = some c) : Inv config (s.remove credentialRef c) where
  sound := h.sound.remove credentialRef c
  ledger := h.ledger.remove h.sound.rows hlook
  bounded := (List.filter_sublist.length_le).trans h.bounded

omit [LinearOrder τ] in
theorem chooseRef_lookup {token : ℕ → String}
    (h : s.chooseRef token = some credentialRef) : s.entries.lookup credentialRef = none := by
  have hfound := List.find?_some h
  simp only [Bool.and_eq_true, Option.isNone_iff_eq_none] at hfound
  exact hfound.2

theorem Inv.create (h : Inv config s) (now : τ) (credential : List Char) (token : ℕ → String) :
    Inv config (s.create config now credential token).2 := by
  have hp := h.purge now
  unfold Store.create
  split_ifs
  · dsimp only
    split_ifs with hfull
    · exact hp
    · cases hchoose : (s.purge now).chooseRef token with
      | none => exact hp
      | some credentialRef =>
        refine ⟨hp.sound.add (chooseRef_lookup hchoose), hp.ledger.add _ _ _ _, ?_⟩
        simp only [Store.add, List.length_append, List.length_singleton]
        omega
  · exact h

theorem Inv.reserve (h : Inv config s) (now : τ) (credentialRef : String) :
    Inv config (s.reserve now credentialRef).2 := by
  unfold Store.reserve
  split_ifs
  · cases hlook : s.entries.lookup credentialRef with
    | none => exact h
    | some c =>
      dsimp only
      split_ifs with hres hexp
      · exact h
      · exact h.remove hlook
      · refine ⟨h.sound.reserve hlook (by simpa using hres) (not_le.1 hexp), ?_, ?_⟩
        · have hmark := h.ledger.mark credentialRef true
          exact ⟨hmark.accounted, hmark.wiped⟩
        · simp only [Store.mark, List.length_map]
          exact h.bounded
  · exact h

/-- The reservation of a call is closed, or committed with its entry gone. -/
theorem Inv.replace (h : Inv config s) {r' : Reservation τ}
    (hsound : Sound (s.setReservation i r')) : Inv config (s.setReservation i r') :=
  ⟨hsound, ⟨h.ledger.accounted, h.ledger.wiped⟩, h.bounded⟩

theorem Inv.commit (h : Inv config s) (hi : s.reservations[i]? = some r)
    (howns : r.Active → ∀ c, s.entries.lookup r.credentialRef = some c → c.reserved = true → c.id = r.entry) :
    Inv config (s.commit i r).2 := by
  unfold Store.commit Store.commitReservation
  split_ifs with hclosed hcommitted
  · exact h
  · exact h
  · have hactive : r.Active := ⟨by simpa using hclosed, by simpa using hcommitted⟩
    cases hlook : s.entries.lookup r.credentialRef with
    | none => exact h
    | some c =>
      dsimp only
      split_ifs with hres
      · have hid := howns hactive c hlook hres
        have hremoved := h.remove hlook
        refine hremoved.replace (hremoved.sound.replace hi rfl rfl (fun ha => ?_) (fun _ => hactive.claims) ?_ ?_)
        · cases ha.2
        · refine fun _ => Or.inr fun row hrow heq => ?_
          obtain ⟨hrow', hne⟩ := List.mem_filter.1 hrow
          have hsame := h.sound.rows.eq_of_id hrow' (h.sound.rows.mem hlook) (heq.trans hid.symm)
          rw [hsame] at hne
          simp at hne
        · exact fun _ => ⟨hactive.1, rfl⟩
      · exact h

/-- A reservation is closed. -/
theorem Inv.retire (h : Inv config s) (hi : s.reservations[i]? = some r) :
    Inv config (s.setReservation i { r with credential := [], closed := true }) := by
  refine h.replace (h.sound.replace hi rfl rfl (fun ha => ?_) ?_ Or.inl (fun hc => ?_))
  · cases ha.1
  · rintro (hc | hc)
    · cases hc
    · exact Or.inr hc
  · cases hc

theorem Inv.close (h : Inv config s) (now : τ) (hi : s.reservations[i]? = some r)
    (howns : r.Active → ∀ c, s.entries.lookup r.credentialRef = some c → c.reserved = true → c.id = r.entry) :
    Inv config (s.close now i r) := by
  have hretired := h.retire hi
  unfold Store.close Store.releaseReservation
  split_ifs with hclosed hcommitted
  · exact h
  · exact hretired
  · have hactive : r.Active := ⟨by simpa using hclosed, by simpa using hcommitted⟩
    cases hlook : s.entries.lookup r.credentialRef with
    | none => exact hretired
    | some c =>
      dsimp only
      split_ifs with hres hexp
      · exact (h.remove hlook).retire hi
      · have hid := howns hactive c hlook hres
        refine ⟨hretired.sound.unreserve ?_, hretired.ledger.mark r.credentialRef false, ?_⟩
        · -- another active reservation of this entry would be this one
          intro x hx hax row hrow href heq
          obtain ⟨j, hj⟩ := List.mem_iff_getElem?.1 hx
          have hrow' := h.sound.rows.eq_of_ref hlook hrow href
          simp only [Store.setReservation] at hj
          rw [List.getElem?_set] at hj
          split_ifs at hj with hij hlt
          · rw [← Option.some.inj hj] at hax
            cases hax.1
          · exact hij (h.sound.holders.claims hi hj hactive.claims hax.claims (by rw [← hid, ← heq, hrow']))
        · simp only [Store.mark, Store.setReservation, List.length_map]
          exact h.bounded
      · exact hretired

theorem Inv.step {t : Store τ} {call : Call τ} (h : Inv config s) (hstep : s.step config call = some t)
    (howns : Owns s call t) : Inv config t := by
  cases call with
  | create now credential token =>
    rw [← Option.some.inj hstep]
    exact h.create now credential token
  | reserve now credentialRef =>
    rw [← Option.some.inj hstep]
    exact h.reserve now credentialRef
  | commit i =>
    obtain ⟨r, hi, rfl⟩ := Option.map_eq_some_iff.1 hstep
    exact h.commit hi (howns r hi)
  | close now i =>
    obtain ⟨r, hi, rfl⟩ := Option.map_eq_some_iff.1 hstep
    exact h.close now hi (howns r hi)
  | discard credentialRef =>
    rw [← Option.some.inj hstep]
    exact ⟨h.sound.shrink List.filter_sublist rfl rfl, h.ledger.discard h.sound.rows credentialRef,
      (List.filter_sublist.length_le).trans h.bounded⟩
  | clear =>
    rw [← Option.some.inj hstep]
    exact ⟨h.sound.shrink (List.nil_sublist _) rfl rfl, h.ledger.clear, Nat.zero_le _⟩
  | wipe k =>
    have hledger := h.ledger.wipePopped hstep
    obtain ⟨c, -, rfl⟩ := Option.map_eq_some_iff.1 hstep
    exact ⟨h.sound.shrink (List.Sublist.refl _) rfl rfl, hledger, h.bounded⟩

end Steps

/-! ### A reference is good for one use -/

section Law

variable [LinearOrder τ] {config : Config τ}

/-- One active reservation for an entry, one committed reservation for a credential, opened before it
expired; no more entries than the store may have; and an entry that left is wiped. -/
structure Lawful (config : Config τ) (s : Store τ) : Prop where
  oneHolder : ∀ {i j : ℕ} {r r' : Reservation τ}, s.reservations[i]? = some r → s.reservations[j]? = some r' →
    r.Active → r'.Active → r.entry = r'.entry → i = j
  oneDelivery : ∀ {i j : ℕ} {r r' : Reservation τ}, s.reservations[i]? = some r → s.reservations[j]? = some r' →
    r.committed = true → r'.committed = true → r.entry = r'.entry → i = j
  delivers : ∀ r ∈ s.reservations, Delivers s r
  bounded : s.entries.length ≤ config.maxEntries
  ledger : Ledger s

variable {s : Store τ} {row : String × Credential τ} {r : Reservation τ}

theorem Inv.lawful (h : Inv config s) : Lawful config s where
  oneHolder hi hj hr hr' := h.sound.holders.claims hi hj hr.claims hr'.claims
  oneDelivery hi hj hr hr' := h.sound.holders.claims hi hj (Or.inr hr) (Or.inr hr')
  delivers := h.sound.delivers
  bounded := h.bounded
  ledger := h.ledger

/-- A commit or a close leaves the other entries as they are. -/
def Spares (s : Store τ) (call : Call τ) (t : Store τ) : Prop :=
  match call with
  | .commit i | .close _ i => ∀ r, s.reservations[i]? = some r →
      ∀ row ∈ s.entries, row.2.id ≠ r.entry → row ∈ t.entries
  | _ => True

variable {credentialRef : String}

omit [LinearOrder τ] in
theorem mem_remove (h : Rows s) {c : Credential τ}
    (hlook : s.entries.lookup credentialRef = some c) (hrow : row ∈ s.entries) :
    row ∈ (s.remove credentialRef c).entries ↔ row.2.id ≠ c.id := by
  constructor
  · intro hmem heq
    have hsame := h.eq_of_id hrow (h.mem hlook) heq
    simp [Store.remove, delete, hsame] at hmem
  · intro hne
    refine List.mem_filter.2 ⟨hrow, decide_eq_true fun href => hne ?_⟩
    rw [h.eq_of_ref hlook hrow href]

omit [LinearOrder τ] in
theorem mem_unreserve (h : Rows s) {c : Credential τ}
    (hlook : s.entries.lookup credentialRef = some c) (hres : c.reserved = true)
    (hrow : row ∈ s.entries) : row ∈ (s.mark credentialRef false).entries ↔ row.2.id ≠ c.id := by
  constructor
  · intro hmem heq
    have hsame := h.eq_of_id hrow (h.mem hlook) heq
    obtain ⟨row', hrow', heq'⟩ := List.mem_map.1 hmem
    have href : row'.1 = credentialRef := by rw [← setReserved_fst credentialRef false row', heq', hsame]
    have hfree := @setReserved_reserved _ _ row' false href
    rw [heq', hsame, hres] at hfree
    cases hfree
  · intro hne
    refine List.mem_map.2 ⟨row, hrow, setReserved_of_ne false fun href => hne ?_⟩
    rw [h.eq_of_ref hlook hrow href]

/-- The row is not the one that an active reservation takes: the entry with its name, when that is reserved. -/
def Missed (s : Store τ) (r : Reservation τ) (row : String × Credential τ) : Prop :=
  r.Active → ∀ c, s.entries.lookup r.credentialRef = some c → c.reserved = true → row.2.id ≠ c.id

omit [LinearOrder τ] in
theorem mem_commit (h : Rows s) {i : ℕ} (hrow : row ∈ s.entries) : row ∈ (s.commit i r).2.entries ↔ Missed s r row := by
  unfold Missed Store.commit Store.commitReservation
  split_ifs with hclosed hcommitted
  · exact ⟨fun _ ha => (by rw [ha.1] at hclosed; cases hclosed), fun _ => hrow⟩
  · exact ⟨fun _ ha => (by rw [ha.2] at hcommitted; cases hcommitted), fun _ => hrow⟩
  · have hactive : r.Active := ⟨by simpa using hclosed, by simpa using hcommitted⟩
    cases hlook : s.entries.lookup r.credentialRef with
    | none => simp [hrow]
    | some c =>
      dsimp only
      split_ifs with hres
      · have hmem := mem_remove h hlook hrow
        simpa [Store.setReservation, hactive, hres] using hmem
      · simp [hrow, hres]

theorem mem_close (h : Rows s) {now : τ} {i : ℕ} (hrow : row ∈ s.entries) : row ∈ (s.close now i r).entries ↔ Missed s r row := by
  unfold Missed Store.close Store.releaseReservation
  split_ifs with hclosed hcommitted
  · exact ⟨fun _ ha => (by rw [ha.1] at hclosed; cases hclosed), fun _ => hrow⟩
  · exact ⟨fun _ ha => (by rw [ha.2] at hcommitted; cases hcommitted), fun _ => hrow⟩
  · have hactive : r.Active := ⟨by simpa using hclosed, by simpa using hcommitted⟩
    cases hlook : s.entries.lookup r.credentialRef with
    | none => simpa [Store.setReservation] using hrow
    | some c =>
      dsimp only
      split_ifs with hres hexp
      · have hmem := mem_remove h hlook hrow
        simpa [Store.setReservation, hactive, hres] using hmem
      · have hmem := mem_unreserve h hlook hres hrow
        simpa [Store.setReservation, hactive, hres] using hmem
      · simp [Store.setReservation, hrow, hres]

variable {t : Store τ}

/-- What an active reservation takes is its own exactly when the others are left. -/
theorem spares_iff_owns (h : Rows s) {call : Call τ} (hstep : s.step config call = some t) :
    Spares s call t ↔ Owns s call t := by
  have hall : ∀ {r : Reservation τ} {t : Store τ},
      (∀ row ∈ s.entries, row ∈ t.entries ↔ Missed s r row) →
      ((∀ row ∈ s.entries, row.2.id ≠ r.entry → row ∈ t.entries) ↔
        (r.Active → ∀ c, s.entries.lookup r.credentialRef = some c → c.reserved = true → c.id = r.entry)) := by
    intro r t hmem
    constructor
    · intro hspares hactive c hlook hres
      by_contra hne
      have hrow := h.mem hlook
      exact (hmem _ hrow).1 (hspares _ hrow hne) hactive c hlook hres rfl
    · intro howns row hrow hne
      refine (hmem row hrow).2 fun hactive c hlook hres heq => hne ?_
      rw [heq, howns hactive c hlook hres]
  cases call with
  | commit i =>
    obtain ⟨r, hi, rfl⟩ := Option.map_eq_some_iff.1 hstep
    simp only [Spares, Owns, hi, Option.some.injEq, forall_eq']
    exact hall fun row hrow => mem_commit h hrow
  | close now i =>
    obtain ⟨r, hi, rfl⟩ := Option.map_eq_some_iff.1 hstep
    simp only [Spares, Owns, hi, Option.some.injEq, forall_eq']
    exact hall fun row hrow => mem_close h hrow
  | create | reserve | discard | clear | wipe => exact Iff.rfl

/-- No create is given the name of an active reservation. -/
def Fresh (s : Store τ) : Call τ → Store τ → Prop
  | .create now _ token, _ => ∀ credentialRef, (s.purge now).chooseRef token = some credentialRef →
      ∀ r ∈ s.reservations, r.Active → r.credentialRef ≠ credentialRef
  | _, _ => True

/-- What has the name of an active reservation is its entry. -/
def Named (s : Store τ) : Prop :=
  ∀ r ∈ s.reservations, r.Active → ∀ row ∈ s.entries, row.1 = r.credentialRef → row.2.id = r.entry

omit [LinearOrder τ] in
theorem Named.mono (h : Named s) (hrows : ∀ row ∈ t.entries, ∃ row' ∈ s.entries, row'.1 = row.1 ∧ row'.2.id = row.2.id)
    (hreservations : ∀ r ∈ t.reservations, r.Active → r ∈ s.reservations) : Named t := by
  intro r hr hactive row hrow hname
  obtain ⟨row', hrow', hname', hid⟩ := hrows row hrow
  rw [← hid]
  exact h r (hreservations r hr hactive) hactive row' hrow' (hname'.trans hname)

omit [LinearOrder τ] in
theorem Named.shrink (h : Named s) (hsub : t.entries.Sublist s.entries)
    (hr : t.reservations = s.reservations) : Named t :=
  h.mono (fun row hrow => ⟨row, hsub.subset hrow, rfl, rfl⟩) (fun _ hmem _ => hr ▸ hmem)

omit [LinearOrder τ] in
theorem Named.mark (h : Named s) (credentialRef : String) (b : Bool) : Named (s.mark credentialRef b) := by
  apply h.mono
  · intro row hrow
    obtain ⟨row', hrow', rfl⟩ := List.mem_map.1 hrow
    exact ⟨row', hrow', (setReserved_fst _ _ _).symm, (setReserved_id _ _ _).symm⟩
  · exact fun r hr _ => hr

omit [LinearOrder τ] in
theorem Named.replace (h : Named s) (i : ℕ) (hr : ¬ r.Active) : Named (s.setReservation i r) := by
  apply h.mono
  · exact fun row hrow => ⟨row, hrow, rfl, rfl⟩
  · intro x hx hactive
    rcases List.mem_or_eq_of_mem_set hx with hold | hnew
    · exact hold
    · rw [hnew] at hactive
      exact absurd hactive hr

theorem Named.create (h : Named s) {now : τ} {credential : List Char} {token : ℕ → String}
    (hfresh : Fresh s (.create now credential token) (s.create config now credential token).2) :
    Named (s.create config now credential token).2 := by
  have hp : Named (s.purge now) := h.shrink List.filter_sublist rfl
  unfold Store.create
  split_ifs
  · dsimp only
    split_ifs with hfull
    · exact hp
    · cases hchoose : (s.purge now).chooseRef token with
      | none => exact hp
      | some credentialRef =>
        intro r hr hactive row hrow hname
        rcases mem_concat.1 hrow with hold | rfl
        · exact hp r hr hactive row hold hname
        · exact absurd hname.symm (hfresh credentialRef hchoose r hr hactive)
  · exact h

theorem Named.reserve (h : Named s) (hrows : Rows s) (now : τ) (credentialRef : String) :
    Named (s.reserve now credentialRef).2 := by
  unfold Store.reserve
  split_ifs
  · cases hlook : s.entries.lookup credentialRef with
    | none => exact h
    | some c =>
      dsimp only
      split_ifs with hres hexp
      · exact h
      · exact h.shrink List.filter_sublist rfl
      · intro r hr hactive row hrow hname
        rcases mem_concat.1 hr with hold | rfl
        · exact h.mark credentialRef true r hold hactive row hrow hname
        · obtain ⟨row', hrow', rfl⟩ := List.mem_map.1 hrow
          rw [setReserved_fst] at hname
          rw [setReserved_id, hrows.eq_of_ref hlook hrow' hname]
  · exact h

omit [LinearOrder τ] in
theorem Named.commit (h : Named s) (i : ℕ) (r : Reservation τ) : Named (s.commit i r).2 := by
  unfold Store.commit Store.commitReservation
  split_ifs
  · exact h
  · exact h
  · cases s.entries.lookup r.credentialRef with
    | none => exact h
    | some c =>
      dsimp only
      split_ifs
      · exact (h.shrink (t := s.remove r.credentialRef c) List.filter_sublist rfl).replace i fun ha => by cases ha.2
      · exact h

theorem Named.close (h : Named s) (now : τ) (i : ℕ) (r : Reservation τ) : Named (s.close now i r) := by
  unfold Store.close Store.releaseReservation
  split_ifs
  · exact h
  · exact h.replace i fun ha => by cases ha.1
  · apply Named.replace
    · cases s.entries.lookup r.credentialRef with
      | none => exact h
      | some c =>
        dsimp only
        split_ifs
        · exact h.shrink List.filter_sublist rfl
        · exact h.mark r.credentialRef false
        · exact h
    · exact fun ha => by cases ha.1

theorem Named.step {call : Call τ} (h : Named s) (hrows : Rows s)
    (hstep : s.step config call = some t) (hfresh : Fresh s call t) : Named t := by
  cases call with
  | create now credential token =>
    cases hstep
    exact h.create hfresh
  | reserve now credentialRef =>
    rw [← Option.some.inj hstep]
    exact h.reserve hrows now credentialRef
  | commit i =>
    obtain ⟨r, -, rfl⟩ := Option.map_eq_some_iff.1 hstep
    exact h.commit i r
  | close now i =>
    obtain ⟨r, -, rfl⟩ := Option.map_eq_some_iff.1 hstep
    exact h.close now i r
  | discard credentialRef =>
    rw [← Option.some.inj hstep]
    exact h.shrink List.filter_sublist rfl
  | clear =>
    rw [← Option.some.inj hstep]
    exact h.shrink (List.nil_sublist _) rfl
  | wipe k =>
    obtain ⟨c, -, rfl⟩ := Option.map_eq_some_iff.1 hstep
    exact h.shrink (List.Sublist.refl _) rfl

omit [LinearOrder τ] in
theorem Named.owns (h : Named s) (hrows : Rows s) (call : Call τ) (t : Store τ) : Owns s call t := by
  cases call with
  | commit i | close _ i =>
    intro r hi hactive c hlook hres
    exact h r (List.mem_of_getElem? hi) hactive _ (hrows.mem hlook) rfl
  | create | reserve | discard | clear | wipe => trivial

theorem owns_of_fresh (calls : List (Call τ)) (h : Along (Store.step config) Fresh {} calls) :
    Along (Store.step config) Owns {} calls := by
  have hinv : Inv config ({} : Store τ) ∧ Named ({} : Store τ) := ⟨Inv.empty, fun _ hr => by cases hr⟩
  refine along_of_guard (I := fun s => Inv config s ∧ Named s) ?_ hinv h
  rintro s call t ⟨hi, hn⟩ hstep hfresh
  have howns := hn.owns hi.sound.rows call t
  exact ⟨⟨hi.step hstep howns, hn.step hi.sound.rows hstep hfresh⟩, howns⟩

/-- In every run, up to the first commit or close that finds the entry of another under its name, each
reference is good for one use; and there is no such call when no create gets the name of an active
reservation. -/
theorem single_use (config : Config τ) (calls : List (Call τ)) :
    (Along (Store.step config) (fun s call t => Spares s call t ∧ Lawful config t) {} calls ↔
      Along (Store.step config) Owns {} calls) ∧
    (Along (Store.step config) Fresh {} calls → Along (Store.step config) Owns {} calls) := by
  refine ⟨(along_iff_of_invariant (I := Inv config) ?_ Inv.empty).symm, owns_of_fresh calls⟩
  intro s call t hs hstep
  have hiff := spares_iff_owns hs.sound.rows hstep
  constructor
  · intro howns
    have ht := hs.step hstep howns
    exact ⟨ht, hiff.2 howns, ht.lawful⟩
  · exact fun hlaw => hiff.1 hlaw.1

end Law

/-! ### A name that comes back -/

/-- The factory gives one token again after its entry was discarded. -/
def sameToken : ℕ → String := fun _ => "a"

/-- The first reservation is still open when its entry is discarded, its name comes back and is reserved.
Its close frees the new entry, which is then reserved a second time. -/
def nameReturns : List (Call ℕ) :=
  [.create 0 "password".toList sameToken, .reserve 1 "cred-a", .discard "cred-a", .wipe 0,
    .create 2 "password".toList sameToken, .reserve 3 "cred-a", .close 4 0, .reserve 5 "cred-a"]

theorem two_reservations_of_one_entry :
    ∃ s, run (Store.step ⟨128, (· + 60)⟩) {} nameReturns = some s ∧ ¬ Lawful ⟨128, (· + 60)⟩ s := by
  refine ⟨_, rfl, fun h => ?_⟩
  have hsame := h.oneHolder (i := 1) (j := 2) rfl rfl ⟨rfl, rfl⟩ ⟨rfl, rfl⟩ rfl
  exact absurd hsame (by decide)

end Conductor.NetworkCredentials
