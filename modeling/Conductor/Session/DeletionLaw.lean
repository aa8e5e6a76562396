import Conductor.Api.SessionListLaw
import Conductor.Session.Deletion

/-! A deletion keeps the chains of continuations closed. The requested recordings are closed under
continuation when the removal begins; since it goes by the sequence of the takes, the greatest first,
what a failure leaves untouched continues nothing that is gone or damaged. -/

namespace Conductor.Deletion

open Api Checked KeyTable
open Artifact (Json Fields)

/-! ### The volume -/

theorem lookup_leave (r : Root) (name other : String) (rest : Option Entry) :
    (r.leave name rest).1.lookup other = if other = name then rest else r.1.lookup other := by
  cases rest with
  | none => exact lookup_delete r.1 other name
  | some entry => exact lookup_insertOrReplace r.1 (name, entry) other

theorem find_modify (v : Volume) (root other : ℕ) (f : Root → Root) (name : String) :
    Volume.find (v.modify root f) other name =
      if other = root then (v[root]?).bind fun r => (f r).1.lookup name else v.find other name := by
  simp only [Volume.find, List.getElem?_modify]
  by_cases h : root = other
  · subst h
    cases v[root]? with
    | none => simp
    | some r => simp
  · rw [if_neg (Ne.symm h)]
    cases v[other]? with
    | none => rfl
    | some r => simp [h]

theorem find_leave (v : Volume) (root other : ℕ) (name : String) (rest : Option Entry) (n : String) :
    Volume.find (v.modify root (·.leave name rest)) other n =
      if other = root ∧ n = name then (v[root]?).bind fun _ => rest else v.find other n := by
  rw [find_modify]
  by_cases hroot : other = root
  · subst hroot
    cases hv : v[other]? with
    | none => simp [Volume.find, hv]
    | some r =>
      simp only [Option.bind_some, lookup_leave, Volume.find, hv]
      by_cases hn : n = name
      · simp [hn]
      · simp [hn]
  · simp [hroot]

/-! ### The scan -/

/-- A sealed session of the volume. -/
structure Sealed (v : Volume) (root : ℕ) (name : String) (manifest : Manifest) : Prop where
  id : uuidV7 name = true
  entry : ∃ e payload, v.find root name = some e ∧ e.inspected = some (manifest, payload)

/-- What the scan has found of the entries seen so far. -/
structure Found (seen : ℕ → String → Option Entry) (found : List Candidate) : Prop where
  names : (found.map (·.name)).Nodup
  sound : ∀ c ∈ found, ∃ e, seen c.root c.name = some e ∧ e.inspected = some (c.manifest, c.payload) ∧
    uuidV7 c.name = true
  complete : ∀ root name e, seen root name = some e → uuidV7 name = true →
    ∃ c ∈ found, c.root = root ∧ c.name = name

variable {faults : Faults} {root : ℕ} {seen : ℕ → String → Option Entry} {digest : List UInt8 → String}

theorem candidate_eq_ok {found found' : List Candidate} {row : String × Entry}
    (h : candidate faults root found row = .ok found') : (uuidV7 row.1 = false ∧ found' = found) ∨
      (uuidV7 row.1 = true ∧ row.1 ∉ found.map (·.name) ∧ ∃ manifest payload,
        row.2.inspected = some (manifest, payload) ∧
          found' = found ++ [⟨row.1, root, row.2.stat, manifest, payload⟩]) := by
  unfold candidate at h
  split at h
  · rename_i hid
    exact .inl ⟨by simpa using hid, (Except.ok.inj h).symm⟩
  · rename_i hid
    split at h
    · cases h
    · split at h
      · cases h
      · rename_i manifest payload hinspected
        split at h
        · cases h
        · rename_i hnew
          refine .inr ⟨by simpa using hid, ?_, manifest, payload, hinspected, (Except.ok.inj h).symm⟩
          simp only [Bool.or_eq_true, decide_eq_true_eq, List.any_eq_true, not_or, not_exists, not_and] at hnew
          intro hmem
          obtain ⟨c, hc, hname⟩ := List.mem_map.1 hmem
          exact hnew.2 c hc hname

/-- The entries of a root, one after another. -/
theorem Found.entries {rows : List (String × Entry)} (hrows : UniqueKeys rows)
    (hseen : ∀ name, name ∈ rows.map (·.1) → seen root name = none)
    {found found' : List Candidate} (hf : Found seen found) (h : rows.foldlM (candidate faults root) found = .ok found') :
    Found (fun r n => if r = root then (rows.lookup n).or (seen r n) else seen r n) found' := by
  induction rows generalizing seen found with
  | nil =>
    obtain rfl : found = found' := Except.ok.inj h
    simpa using hf
  | cons row rows ih =>
    obtain ⟨found₁, h₁, h⟩ := bind_eq_ok.1 h
    have hkeys : row.1 ∉ rows.map (·.1) ∧ UniqueKeys rows := by
      have := hrows
      unfold UniqueKeys at this
      rw [List.map_cons, List.nodup_cons] at this
      exact this
    -- the entry just seen
    let seen₁ : ℕ → String → Option Entry := fun r n => if r = root ∧ n = row.1 then some row.2 else seen r n
    have hnone : seen root row.1 = none := hseen row.1 (by simp)
    have hf₁ : Found seen₁ found₁ := by
      rcases candidate_eq_ok h₁ with ⟨hid, rfl⟩ | ⟨hid, hnew, manifest, payload, hinspected, rfl⟩
      · refine ⟨hf.names, fun c hc => ?_, fun r n e he hn => ?_⟩
        · obtain ⟨e, he, hm, hc⟩ := hf.sound c hc
          refine ⟨e, ?_, hm, hc⟩
          have hne : ¬(c.root = root ∧ c.name = row.1) := by
            rintro ⟨-, hname⟩
            rw [hname, hid] at hc
            cases hc
          simpa [seen₁, hne] using he
        · have hne : ¬(r = root ∧ n = row.1) := by
            rintro ⟨-, rfl⟩
            rw [hid] at hn
            cases hn
          exact hf.complete r n e (by simpa [seen₁, hne] using he) hn
      · refine ⟨?_, fun c hc => ?_, fun r n e he hn => ?_⟩
        · rw [List.map_append, List.map_singleton, List.nodup_append]
          refine ⟨hf.names, by simp, fun a ha b hb => ?_⟩
          rw [List.mem_singleton.1 hb]
          exact fun heq => hnew ((show a = row.1 from heq) ▸ ha)
        · rcases mem_concat.1 hc with hc | rfl
          · obtain ⟨e, he, hm, hc'⟩ := hf.sound c hc
            refine ⟨e, ?_, hm, hc'⟩
            have hne : ¬(c.root = root ∧ c.name = row.1) := by
              rintro ⟨-, hname⟩
              exact hnew (hname ▸ List.mem_map_of_mem hc)
            simpa [seen₁, hne] using he
          · exact ⟨row.2, by simp [seen₁], hinspected, hid⟩
        · by_cases hrow : r = root ∧ n = row.1
          · exact ⟨_, List.mem_append_right _ (List.mem_singleton_self _), hrow.1.symm, hrow.2.symm⟩
          · obtain ⟨c, hc, hc'⟩ := hf.complete r n e (by simpa [seen₁, hrow] using he) hn
            exact ⟨c, List.mem_append_left _ hc, hc'⟩
    have hseen₁ : ∀ name, name ∈ rows.map (·.1) → seen₁ root name = none := by
      intro name hname
      have hne : name ≠ row.1 := fun heq => hkeys.1 (heq ▸ hname)
      simpa [seen₁, hne] using hseen name (by simp [hname])
    have hrest := ih hkeys.2 hseen₁ hf₁ h
    have heq : (fun r n => if r = root then (rows.lookup n).or (seen₁ r n) else seen₁ r n) =
        fun r n => if r = root then ((row :: rows).lookup n).or (seen r n) else seen r n := by
      funext r n
      by_cases hr : r = root
      · subst hr
        rw [if_pos rfl, if_pos rfl, lookup_cons]
        by_cases hn : n = row.1
        · subst hn
          have hrows : rows.lookup row.1 = none := by
            rw [List.lookup_eq_none_iff]
            intro p hp
            rw [bne_iff_ne]
            exact fun heq => hkeys.1 (heq ▸ List.mem_map_of_mem hp)
          simp [seen₁, hrows]
        · simp [seen₁, hn]
      · simp [seen₁, hr]
    rw [heq] at hrest
    exact hrest

theorem Found.roots {roots : List Root} {k : ℕ}
    (hseen : ∀ root name, k ≤ root → seen root name = none) {found found' : List Candidate} (hf : Found seen found)
    (h : (roots.zipIdx k).foldlM (scanRoot faults) found = .ok found') :
    Found (fun r n => if k ≤ r then Volume.find roots (r - k) n else seen r n) found' := by
  induction roots generalizing k seen found with
  | nil =>
    obtain rfl : found = found' := Except.ok.inj h
    have heq : (fun r n => if k ≤ r then Volume.find [] (r - k) n else seen r n) = seen := by
      funext r n
      split
      · rename_i hr
        rw [hseen r n hr]
        rfl
      · rfl
    rwa [heq]
  | cons root roots ih =>
    rw [List.zipIdx_cons] at h
    obtain ⟨found₁, h₁, h⟩ := bind_eq_ok.1 h
    unfold scanRoot at h₁
    split at h₁
    · cases h₁
    · have hf₁ := hf.entries root.2 (fun name _ => hseen k name le_rfl) h₁
      have hlater := ih (fun r n hr => by rw [if_neg (by omega), hseen r n (by omega)]) hf₁ h
      have heq : (fun r n => if k ≤ r then Volume.find (root :: roots) (r - k) n else seen r n) = fun r n =>
          if k + 1 ≤ r then Volume.find roots (r - (k + 1)) n
          else if r = k then (root.1.lookup n).or (seen r n) else seen r n := by
        funext r n
        by_cases hr : k + 1 ≤ r
        · rw [if_pos hr, if_pos (by omega), show r - k = r - (k + 1) + 1 by omega]
          rfl
        · rw [if_neg hr]
          by_cases hk : r = k
          · subst hk
            rw [if_pos rfl, if_pos le_rfl, Nat.sub_self, hseen r n le_rfl, Option.or_none]
            rfl
          · rw [if_neg hk, if_neg (by omega)]
      rwa [heq]

theorem candidates_found {v : Volume} {found : List Candidate} (h : candidates faults v = .ok found) :
    Found v.find found := by
  have hempty : Found (fun _ _ => none) [] :=
    ⟨List.nodup_nil, fun _ hc => by simp at hc, fun _ _ _ he => by simp at he⟩
  have := hempty.roots (k := 0) (fun _ _ _ => rfl) h
  simpa using this

/-! ### The removal -/

/-- What the removal of `l` leaves: those that are gone, and the rest, of which only the first may have
been touched. -/
structure Removed (l : List Candidate) (v v' : Volume) (gone rest : List Candidate) : Prop where
  split : l = gone ++ rest
  absent : ∀ c ∈ gone, v'.find c.root c.name = none
  frame : ∀ root name, (∀ c ∈ gone ++ rest.head?.toList, ¬(root = c.root ∧ name = c.name)) →
    v'.find root name = v.find root name

theorem removeOne_spec (faults : Faults) (index : ℕ) (c : Candidate) (v : Volume) :
    (∀ root name, ¬(root = c.root ∧ name = c.name) →
      (removeOne faults index c v).2.2.find root name = v.find root name) ∧
    ((removeOne faults index c v).1 = true → (removeOne faults index c v).2.2.find c.root c.name = none) ∧
    ((removeOne faults index c v).1 = false → (removeOne faults index c v).2.1 = true) := by
  unfold removeOne
  split
  · exact ⟨fun _ _ _ => rfl, by simp, fun _ => rfl⟩
  · split
    · rename_i rest _
      refine ⟨fun root name hne => ?_, by simp, fun _ => rfl⟩
      exact (find_leave v c.root root c.name rest name).trans (if_neg hne)
    · refine ⟨fun root name hne => ?_, fun _ => ?_, by simp⟩
      · exact (find_leave v c.root root c.name none name).trans (if_neg hne)
      · refine (find_leave v c.root c.root c.name none c.name).trans ?_
        rw [if_pos ⟨rfl, rfl⟩]
        cases v[c.root]? <;> rfl

theorem remove_spec (faults : Faults) (index : ℕ) {deleted : List String} {l : List Candidate} {v : Volume}
    (hnames : (deleted ++ l.map (·.name)).Nodup) :
    ∃ gone rest, Removed l v (remove faults index deleted l v).2 gone rest ∧
      (remove faults index deleted l v).1 =
        ⟨deleted ++ gone.map (·.name), rest.map fun c => (c.name, interrupted)⟩ := by
  induction l generalizing index deleted v with
  | nil => exact ⟨[], [], ⟨rfl, by simp, fun _ _ _ => rfl⟩, by simp [remove]⟩
  | cons c l ih =>
    obtain ⟨hframe, hgone, hkept⟩ := removeOne_spec faults index c v
    rw [List.map_cons] at hnames
    have hnames' : (deleted ++ [c.name] ++ l.map (·.name)).Nodup := by simpa using hnames
    rcases h : removeOne faults index c v with ⟨gone, raised, v'⟩
    rw [h] at hframe hgone hkept
    cases raised with
    | false =>
      have hg : gone = true := by
        cases gone with
        | true => rfl
        | false => exact absurd (hkept rfl) (by simp)
      subst hg
      obtain ⟨done, rest, hr, hresult⟩ := ih (index + 1) (v := v') hnames'
      refine ⟨c :: done, rest, ⟨by rw [hr.split, List.cons_append], ?_, ?_⟩, ?_⟩
      · intro d hd
        simp only [remove, h, if_true, Bool.false_eq_true, if_false]
        rcases List.mem_cons.1 hd with rfl | hd
        · have hout : ∀ e ∈ done ++ rest.head?.toList, ¬(d.root = e.root ∧ d.name = e.name) := by
            rintro e he ⟨-, hname⟩
            have hmem : e ∈ l := by
              rw [hr.split]
              rcases List.mem_append.1 he with he | he
              · exact List.mem_append_left _ he
              · exact List.mem_append_right _ (List.mem_of_mem_head? (Option.mem_toList.1 he))
            have hdup := (List.nodup_cons.1 (List.nodup_append.1 hnames).2.1).1
            exact hdup (hname ▸ List.mem_map_of_mem hmem)
          rw [hr.frame d.root d.name hout]
          exact hgone rfl
        · exact hr.absent d hd
      · intro root name hne
        simp only [remove, h, if_true, Bool.false_eq_true, if_false]
        have hne' := List.forall_mem_cons.1 (show ∀ e ∈ c :: (done ++ rest.head?.toList), _ from hne)
        rw [hr.frame root name hne'.2]
        exact hframe root name hne'.1
      · simp only [remove, h, if_true, Bool.false_eq_true, if_false]
        rw [hresult]
        simp
    | true =>
      cases gone with
      | true =>
        have hfilter : ((c :: l).map (·.name)).filter (· ∉ deleted ++ [c.name]) = l.map (·.name) := by
          rw [List.map_cons, List.filter_cons_of_neg (by simp)]
          refine List.filter_eq_self.2 fun name hname => ?_
          simp only [decide_eq_true_eq]
          exact fun hmem => (List.nodup_append.1 hnames').2.2 name hmem name hname rfl
        refine ⟨[c], l, ⟨rfl, ?_, fun root name hne => ?_⟩, ?_⟩
        · intro d hd
          rw [List.mem_singleton.1 hd]
          simp only [remove, h, if_true]
          exact hgone rfl
        · simp only [remove, h, if_true]
          exact hframe root name (hne c (by simp))
        · simp only [remove, h, if_true, hfilter]
          simp
      | false =>
        have hfilter : ((c :: l).map (·.name)).filter (· ∉ deleted) = (c :: l).map (·.name) := by
          refine List.filter_eq_self.2 fun name hname => ?_
          simp only [decide_eq_true_eq]
          exact fun hmem => (List.nodup_append.1 hnames).2.2 name hmem name hname rfl
        refine ⟨[], c :: l, ⟨rfl, by simp, fun root name hne => ?_⟩, ?_⟩
        · simp only [remove, h, if_true, Bool.false_eq_true, if_false]
          exact hframe root name (hne c (by simp))
        · simp only [remove, h, if_true, Bool.false_eq_true, if_false, hfilter]
          simp

/-! ### The request and the receipt -/

theorem requestItems_fresh {seen : List String} {items : List Json} {expected : Expected}
    (h : requestItems seen items = some expected) :
    (expected.map (·.1)).Nodup ∧ ∀ id ∈ expected.map (·.1), id ∉ seen := by
  induction items generalizing seen expected with
  | nil =>
    obtain rfl : [] = expected := Option.some.inj h
    exact ⟨List.nodup_nil, fun _ hid => by simp at hid⟩
  | cons item items ih =>
    unfold requestItems at h
    split at h
    · cases h
    · rename_i entry hentry
      obtain ⟨rest, hrest, rfl⟩ := Option.map_eq_some_iff.1 h
      have hnew : entry.1 ∉ seen := by
        unfold requestItem at hentry
        split at hentry
        · split at hentry
          · cases hentry
          · split at hentry
            · split at hentry
              · rename_i hvalid
                cases hentry
                simp only [Bool.and_eq_true, decide_eq_true_eq] at hvalid
                exact hvalid.2
              · cases hentry
            · cases hentry
        · cases hentry
      obtain ⟨hnodup, hfresh⟩ := ih hrest
      refine ⟨?_, fun id hid => ?_⟩
      · rw [List.map_cons, List.nodup_cons]
        exact ⟨fun hmem => hfresh entry.1 hmem (by simp), hnodup⟩
      · rcases List.mem_cons.1 hid with rfl | hid
        · exact hnew
        · exact fun hmem => hfresh id hid (List.mem_cons_of_mem _ hmem)

theorem deleteRequest_nodup {request : Json} {expected : Expected} (h : deleteRequest request = some expected) :
    (expected.map (·.1)).Nodup := by
  unfold deleteRequest at h
  split at h
  · split at h
    · cases h
    · split at h
      · cases h
      · split at h
        · split at h
          · exact (requestItems_fresh h).1
          · cases h
        · cases h
  · cases h

theorem mapM_some {α β : Type} {f : α → Option β} {g : α → β} {l : List α} (h : ∀ a ∈ l, f a = some (g a)) :
    l.mapM f = some (l.map g) := by
  induction l with
  | nil => rfl
  | cons a l ih =>
    obtain ⟨ha, hl⟩ := List.forall_mem_cons.1 h
    rw [List.mapM_cons, ha, ih hl]
    rfl

/-- The receipt names the sessions of the result. -/
theorem receiptSessions_body {r : DeleteResult} (h : ∀ failure ∈ r.failedSessions, failure.2 ≠ "") :
    receiptSessions r.body = some (r.deletedSessionIds ++ r.failedSessions.map (·.1)) := by
  have hdeleted : (r.deletedSessionIds.map Json.string).mapM (fun id => asString (some id)) = some r.deletedSessionIds := by
    rw [List.mapM_map]
    exact (mapM_some (f := fun id => some id) (g := id) fun _ _ => rfl).trans (by rw [List.map_id])
  have hfailed : (r.failedSessions.map fun failure =>
      Json.object [("session_id", .string failure.1), ("error", .string failure.2)]).mapM failedSession =
        some (r.failedSessions.map (·.1)) := by
    rw [List.mapM_map]
    refine mapM_some fun failure hmem => ?_
    simp [failedSession, Fields.keys, Fields.get, asString, h failure hmem]
  generalize hd : r.deletedSessionIds.map Json.string = deleted at hdeleted
  generalize hf : (r.failedSessions.map fun failure =>
    Json.object [("session_id", .string failure.1), ("error", .string failure.2)]) = failures at hfailed
  have hkeys : Fields.keys [("schema", .string "ylx.session-delete-result.v1"), ("deleted_session_ids", .array deleted),
      ("failed_sessions", .array failures)] = {"schema", "deleted_session_ids", "failed_sessions"} := rfl
  simp only [receiptSessions, DeleteResult.body, hd, hf]
  rw [if_neg (not_not.2 hkeys)]
  refine (if_neg (not_not.2 rfl)).trans ?_
  have hids : Fields.get [("schema", .string "ylx.session-delete-result.v1"), ("deleted_session_ids", .array deleted),
      ("failed_sessions", .array failures)] "deleted_session_ids" = some (.array deleted) := rfl
  have herrors : Fields.get [("schema", .string "ylx.session-delete-result.v1"), ("deleted_session_ids", .array deleted),
      ("failed_sessions", .array failures)] "failed_sessions" = some (.array failures) := rfl
  rw [hids, herrors]
  simp only [hdeleted, hfailed]

theorem validatedDeletion_of {request : Json} {expected : Expected} (hrequest : deleteRequest request = some expected)
    {r : DeleteResult} (herror : ∀ failure ∈ r.failedSessions, failure.2 ≠ "")
    (hnodup : (r.deletedSessionIds ++ r.failedSessions.map (·.1)).Nodup)
    (hmem : ∀ id, id ∈ r.deletedSessionIds ++ r.failedSessions.map (·.1) ↔ id ∈ expected.map (·.1)) :
    validatedDeletion request r.body = true := by
  rw [validatedDeletion, hrequest, receiptSessions_body herror]
  simp only [Bool.and_eq_true, decide_eq_true_eq]
  refine ⟨hnodup, Finset.ext fun id => ?_⟩
  rw [List.mem_toFinset, List.mem_toFinset]
  exact hmem id

/-! ### The chains -/

/-- The take of a continuation comes behind the one that it continues. -/
def TakesAscend (v : Volume) : Prop :=
  ∀ root name manifest root' name' manifest', Sealed v root name manifest → Sealed v root' name' manifest' →
    manifest.continuationOf = some name' → manifest'.sequence < manifest.sequence

theorem choose_eq_ok {found : List Candidate} {item : String × String} {c : Candidate}
    (h : choose digest found item = .ok c) : c ∈ found ∧ c.name = item.1 := by
  unfold choose at h
  split at h
  · cases h
  · rename_i d hd
    split at h
    · cases h
    · obtain rfl := Except.ok.inj h
      exact ⟨List.mem_of_find?_eq_some hd, by simpa using List.find?_some hd⟩

theorem chosen_spec {found chosen : List Candidate} {expected : Expected}
    (h : expected.mapM (choose digest found) = .ok chosen) :
    chosen.map (·.name) = expected.map (·.1) ∧ ∀ c ∈ chosen, c ∈ found := by
  induction expected generalizing chosen with
  | nil =>
    obtain rfl : [] = chosen := Except.ok.inj h
    exact ⟨rfl, fun _ hc => by simp at hc⟩
  | cons item expected ih =>
    rw [List.mapM_cons] at h
    obtain ⟨c, hc, h⟩ := bind_eq_ok.1 h
    obtain ⟨rest, hrest, h⟩ := bind_eq_ok.1 h
    obtain rfl := pure_eq_ok.1 h
    obtain ⟨hmem, hname⟩ := choose_eq_ok hc
    obtain ⟨hnames, hfound⟩ := ih hrest
    exact ⟨by rw [List.map_cons, List.map_cons, hname, hnames], List.forall_mem_cons.2 ⟨hmem, hfound⟩⟩

theorem continues_eq_ok {expected : Expected} {c : Candidate} (h : continues expected c = .ok ()) {id : String}
    (hid : c.manifest.continuationOf = some id) (hmem : id ∈ expected.map (·.1)) : c.name ∈ expected.map (·.1) := by
  by_contra hname
  have hany : (some id : Option String).any (fun id => decide (id ∈ expected.map (·.1))) = true := by simpa using hmem
  unfold continues at h
  rw [hid, hany, if_pos (by simpa using hname)] at h
  cases h

/-- Two recordings of the scan with one name are one recording. -/
theorem Found.name_inj {found : List Candidate} (hf : Found seen found)
    {c d : Candidate} (hc : c ∈ found) (hd : d ∈ found) (h : c.name = d.name) : c = d :=
  List.inj_on_of_nodup_map hf.names hc hd h

/-- What `delete_recordings` goes through: the requested recordings of the scan, closed under continuation. -/
structure Plan (v : Volume) (found ordered : List Candidate) (expected : Expected) : Prop where
  scanned : Found v.find found
  sound : ∀ c ∈ ordered, c ∈ found
  names : (ordered.map (·.name)).Nodup
  listed : ∀ id, id ∈ ordered.map (·.name) ↔ id ∈ expected.map (·.1)
  closed : ∀ c ∈ found, continues expected c = .ok ()
  sorted : ordered.Pairwise fun a b => b.manifest.sequence ≤ a.manifest.sequence

theorem preflight_plan {expected : Expected} {v : Volume}
    {ordered : List Candidate} (hexpected : (expected.map (·.1)).Nodup)
    (h : preflight digest faults expected v = .ok ordered) : ∃ found, Plan v found ordered expected := by
  obtain ⟨found, hfound, h⟩ := bind_eq_ok.1 h
  obtain ⟨chosen, hchosen, h⟩ := bind_eq_ok.1 h
  obtain ⟨_, hclosed, h⟩ := bind_eq_ok.1 h
  obtain rfl := pure_eq_ok.1 h
  obtain ⟨hnames, hmem⟩ := chosen_spec hchosen
  have hperm : (sortReverse (fun c : Candidate => c.manifest.sequence) chosen).Perm chosen := sortReverse_perm _ _
  refine ⟨found, candidates_found hfound, fun c hc => hmem c (hperm.mem_iff.1 hc), ?_, fun id => ?_,
    forM_eq_ok_iff.1 hclosed, sortReverse_pairwise _ _⟩
  · rw [(hperm.map _).nodup_iff, hnames]
    exact hexpected
  · rw [(hperm.map _).mem_iff, hnames]

section Outcome

variable {v v' : Volume} {found ordered gone rest : List Candidate} {expected : Expected}

/-- No root has a directory of the name of a recording that is gone. -/
theorem Plan.gone_absent (hp : Plan v found ordered expected) (hr : Removed ordered v v' gone rest) {c : Candidate}
    (hc : c ∈ gone) (root : ℕ) : v'.find root c.name = none := by
  have hfound : ∀ d ∈ gone ++ rest.head?.toList, d ∈ found := by
    intro d hd
    refine hp.sound d ?_
    rw [hr.split]
    rcases List.mem_append.1 hd with hd | hd
    · exact List.mem_append_left _ hd
    · exact List.mem_append_right _ (List.mem_of_mem_head? (Option.mem_toList.1 hd))
  have hcf : c ∈ found := hfound c (List.mem_append_left _ hc)
  by_cases hroot : root = c.root
  · rw [hroot]
    exact hr.absent c hc
  · have hout : ∀ d ∈ gone ++ rest.head?.toList, ¬(root = d.root ∧ c.name = d.name) := by
      rintro d hd ⟨hdr, hname⟩
      rw [← hp.scanned.name_inj hcf (hfound d hd) hname] at hdr
      exact hroot hdr
    rw [hr.frame root c.name hout]
    cases he : v.find root c.name with
    | none => rfl
    | some e =>
      obtain ⟨_, _, -, hid⟩ := hp.scanned.sound c hcf
      obtain ⟨d, hd, hdr, hdn⟩ := hp.scanned.complete root c.name e he hid
      rw [hp.scanned.name_inj hd hcf hdn] at hdr
      exact absurd hdr.symm hroot

theorem Plan.sequence_le (hp : Plan v found ordered expected) (hr : Removed ordered v v' gone rest) {c d : Candidate}
    (hc : c ∈ gone ++ rest.head?.toList) (hd : d ∈ rest) : d.manifest.sequence ≤ c.manifest.sequence := by
  have hsorted := hp.sorted
  rw [hr.split, List.pairwise_append] at hsorted
  rcases List.mem_append.1 hc with hc | hc
  · exact hsorted.2.2 c hc d hd
  · cases rest with
    | nil => simp at hd
    | cons e rest =>
      obtain rfl : c = e := by simpa using hc
      rcases List.mem_cons.1 hd with rfl | hd
      · exact le_rfl
      · exact (List.pairwise_cons.1 hsorted.2.1).1 d hd

/-- What is untouched continues nothing that is touched. -/
theorem Plan.chains (hp : Plan v found ordered expected) (hr : Removed ordered v v' gone rest) (hv : TakesAscend v)
    {root root' : ℕ} {name name' : String} {manifest : Manifest} (hsealed : Sealed v root name manifest)
    (hsame : v'.find root name = v.find root name) (hcontinues : manifest.continuationOf = some name') :
    v'.find root' name' = v.find root' name' := by
  by_contra hchanged
  obtain ⟨c, hc, -, rfl⟩ : ∃ c ∈ gone ++ rest.head?.toList, root' = c.root ∧ name' = c.name := by
    by_contra hnone
    exact hchanged (hr.frame root' name' fun c hc heq => hnone ⟨c, hc, heq⟩)
  have hco : c ∈ ordered := by
    rw [hr.split]
    rcases List.mem_append.1 hc with hc | hc
    · exact List.mem_append_left _ hc
    · exact List.mem_append_right _ (List.mem_of_mem_head? (Option.mem_toList.1 hc))
  -- the untouched session was scanned
  obtain ⟨e, payload, he, hinspected⟩ := hsealed.entry
  obtain ⟨s, hs, rfl, rfl⟩ := hp.scanned.complete root name e he hsealed.id
  obtain ⟨e', he', hinspected', -⟩ := hp.scanned.sound s hs
  obtain rfl : e = e' := Option.some.inj (he.symm.trans he')
  obtain rfl : manifest = s.manifest := (Prod.mk.inj (Option.some.inj (hinspected.symm.trans hinspected'))).1
  -- it is requested, since what it continues is
  have hrequested := continues_eq_ok (hp.closed s hs) hcontinues
    ((hp.listed c.name).1 (List.mem_map_of_mem hco))
  obtain ⟨d, hd, hname⟩ := List.mem_map.1 ((hp.listed s.name).2 hrequested)
  obtain rfl := hp.scanned.name_inj (hp.sound d hd) hs hname
  rw [hr.split] at hd
  rcases List.mem_append.1 hd with hd | hd
  · rw [hr.absent d hd, he] at hsame
    cases hsame
  · obtain ⟨f, hf, hfi, hfid⟩ := hp.scanned.sound c (hp.sound c hco)
    have hlt := hv d.root d.name d.manifest c.root c.name c.manifest hsealed ⟨hfid, f, _, hf, hfi⟩ hcontinues
    exact absurd (hp.sequence_le hr hc hd) (not_le.2 hlt)

end Outcome

theorem deletion_closes_chains (digest : List UInt8 → String) (faults : Faults) (v : Volume) (hv : TakesAscend v)
    (request : Json) (expected : Expected) (hrequest : deleteRequest request = some expected) :
    match deleteRecordings digest faults expected v with
    | (.error _, v') => v' = v
    | (.ok r, v') =>
      (r.deletedSessionIds ++ r.failedSessions.map (·.1)).Nodup ∧
      (∀ id, id ∈ r.deletedSessionIds ++ r.failedSessions.map (·.1) ↔ id ∈ expected.map (·.1)) ∧
      validatedDeletion request r.body = true ∧
      (∀ id ∈ r.deletedSessionIds, ∀ root, v'.find root id = none) ∧
      ∀ root name manifest root' name', Sealed v root name manifest → v'.find root name = v.find root name →
        manifest.continuationOf = some name' → v'.find root' name' = v.find root' name' := by
  rw [deleteRecordings]
  cases hplan : preflight digest faults expected v with
  | error e => rfl
  | ok ordered =>
    obtain ⟨found, hp⟩ := preflight_plan (deleteRequest_nodup hrequest) hplan
    obtain ⟨gone, rest, hr, hresult⟩ :=
      remove_spec faults 0 (v := v) (show ([] ++ ordered.map fun c : Candidate => c.name).Nodup from hp.names)
    have hsessions : (remove faults 0 [] ordered v).1.deletedSessionIds ++
        (remove faults 0 [] ordered v).1.failedSessions.map (·.1) = ordered.map (·.name) := by
      rw [hresult, hr.split]
      simp
    dsimp only
    rw [hsessions]
    refine ⟨hp.names, hp.listed, ?_, fun id hid root => ?_, ?_⟩
    · refine validatedDeletion_of hrequest ?_ (by rw [hsessions]; exact hp.names) (by rw [hsessions]; exact hp.listed)
      intro failure hfailure
      rw [hresult] at hfailure
      obtain ⟨c, -, rfl⟩ := List.mem_map.1 hfailure
      exact (by decide : interrupted ≠ "")
    · rw [hresult] at hid
      obtain ⟨c, hc, rfl⟩ := List.mem_map.1 (show id ∈ gone.map (·.name) by simpa using hid)
      exact hp.gone_absent hr hc root
    · exact fun root name manifest root' name' hsealed hsame hcontinues => hp.chains hr hv hsealed hsame hcontinues

/-! ### A branching chain -/

def sampleFirst : String := "00000000-0000-7000-8000-000000000001"

def sampleSecond : String := "00000000-0000-7000-8000-000000000002"

def sampleThird : String := "00000000-0000-7000-8000-000000000003"

def sampleEntry (inode : ℕ) (name : String) (sequence : ℤ) (continuationOf : Option String) : Entry :=
  ⟨false, ⟨1, inode, 16877⟩, ["manifest.json"], some (⟨name, sequence, continuationOf⟩, [])⟩

/-- Two takes continue the first one. -/
def sampleVolume : Volume :=
  [⟨[(sampleFirst, sampleEntry 1 sampleFirst 1 none), (sampleSecond, sampleEntry 2 sampleSecond 2 (some sampleFirst)),
    (sampleThird, sampleEntry 3 sampleThird 2 (some sampleFirst))], by unfold UniqueKeys; decide⟩]

def sampleDigest : String := "0000000000000000000000000000000000000000000000000000000000000000"

def sampleRequest : Json :=
  .object [("schema", .string "ylx.session-delete-request.v1"), ("sessions", .array
    ([sampleFirst, sampleSecond, sampleThird].map fun name =>
      .object [("session_id", .string name), ("manifest_sha256", .string sampleDigest)]))]

def sampleExpected : Expected :=
  [(sampleFirst, sampleDigest), (sampleSecond, sampleDigest), (sampleThird, sampleDigest)]

/-- The removal of the second recording fails, and leaves a directory without its files. -/
def sampleFaults : Faults where
  listRoot _ := false
  scanStat _ _ := false
  stat _ := false
  rmtree index := if index = 1 then some (some ⟨false, ⟨1, 3, 16877⟩, [], none⟩) else none
  fsync _ := false

theorem sampleVolume_sealed {name : String} {manifest : Manifest} (h : Sealed sampleVolume root name manifest) :
    (name = sampleFirst ∧ manifest = ⟨sampleFirst, 1, none⟩) ∨
      (name = sampleSecond ∧ manifest = ⟨sampleSecond, 2, some sampleFirst⟩) ∨
      (name = sampleThird ∧ manifest = ⟨sampleThird, 2, some sampleFirst⟩) := by
  obtain ⟨e, payload, he, hinspected⟩ := h.entry
  cases root with
  | succ root => simp [Volume.find, sampleVolume] at he
  | zero =>
    simp only [Volume.find, sampleVolume, List.getElem?_cons_zero, Option.bind_some, lookup_cons, List.lookup_nil] at he
    split at he
    · rename_i hname
      cases he
      exact .inl ⟨hname, (Prod.mk.inj (Option.some.inj hinspected)).1.symm⟩
    · split at he
      · rename_i hname
        cases he
        exact .inr (.inl ⟨hname, (Prod.mk.inj (Option.some.inj hinspected)).1.symm⟩)
      · split at he
        · rename_i hname
          cases he
          exact .inr (.inr ⟨hname, (Prod.mk.inj (Option.some.inj hinspected)).1.symm⟩)
        · cases he

theorem sampleVolume_ascends : TakesAscend sampleVolume := by
  intro root name manifest root' name' manifest' h h' hcontinues
  have hfirst : name' = sampleFirst := by
    rcases sampleVolume_sealed h with ⟨-, rfl⟩ | ⟨-, rfl⟩ | ⟨-, rfl⟩
    · cases hcontinues
    · exact (Option.some.inj hcontinues).symm
    · exact (Option.some.inj hcontinues).symm
  have hone : manifest' = ⟨sampleFirst, 1, none⟩ := by
    rcases sampleVolume_sealed h' with ⟨-, hm⟩ | ⟨hname, -⟩ | ⟨hname, -⟩
    · exact hm
    · exact absurd (hfirst.symm.trans hname) (by decide)
    · exact absurd (hfirst.symm.trans hname) (by decide)
  rcases sampleVolume_sealed h with ⟨-, rfl⟩ | ⟨-, rfl⟩ | ⟨-, rfl⟩
  · cases hcontinues
  · rw [hone]
    decide
  · rw [hone]
    decide

theorem deletion_closes_chains_sample :
    (deleteRecordings (fun _ => sampleDigest) sampleFaults sampleExpected sampleVolume).1 =
      .ok ⟨[sampleSecond], [(sampleThird, interrupted), (sampleFirst, interrupted)]⟩ ∧
    validatedDeletion sampleRequest
      (DeleteResult.mk [sampleSecond] [(sampleThird, interrupted), (sampleFirst, interrupted)]).body = true := by
  have hrun : (deleteRecordings (fun _ => sampleDigest) sampleFaults sampleExpected sampleVolume).1 =
      .ok ⟨[sampleSecond], [(sampleThird, interrupted), (sampleFirst, interrupted)]⟩ := by decide +kernel
  have hlaw := deletion_closes_chains (fun _ => sampleDigest) sampleFaults sampleVolume sampleVolume_ascends
    sampleRequest sampleExpected (by decide +kernel)
  refine ⟨hrun, ?_⟩
  rcases h : deleteRecordings (fun _ => sampleDigest) sampleFaults sampleExpected sampleVolume with ⟨r, v'⟩
  rw [h] at hlaw hrun
  subst hrun
  exact hlaw.2.2.1

end Conductor.Deletion
