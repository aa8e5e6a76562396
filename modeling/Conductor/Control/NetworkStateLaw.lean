import Conductor.Control.NetworkState
import Conductor.Lib.Checked

/-! What the calls of a `NetworkStateStore` keep, over every run and whatever the writes do. A call
writes one change or none; each property is read off the kinds of change. -/

namespace Conductor.NetworkState

open Api KeyTable Checked

/-! ### JSON values -/

namespace Value

mutual
theorem stored_of_isJson : ∀ value : Value, value.isJson = true → value.stored = value
  | .none, _ => rfl
  | .bool _, _ => rfl
  | .int _, _ => rfl
  | .float _, _ => rfl
  | .str _, _ => rfl
  | .list items, h => congrArg Value.list (storedItems_of_isJson items h)
  | .dict fields, h => congrArg Value.dict (storedFields_of_isJson fields h)

theorem storedItems_of_isJson : ∀ items : List Value, itemsAreJson items = true → storedItems items = items
  | [], _ => rfl
  | value :: items, h => by
    obtain ⟨hv, hi⟩ := Bool.and_eq_true_iff.1 h
    exact congrArg₂ List.cons (stored_of_isJson value hv) (storedItems_of_isJson items hi)

theorem storedFields_of_isJson : ∀ fields : Fields, fieldsAreJson fields = true → storedFields fields = fields
  | [], _ => rfl
  | (key, value) :: fields, h => by
    obtain ⟨hv, hf⟩ := Bool.and_eq_true_iff.1 h
    exact congrArg₂ List.cons (congrArg (Prod.mk key) (stored_of_isJson value hv)) (storedFields_of_isJson fields hf)
end

theorem storedFields_delete (fields : Fields) (key : String) :
    storedFields (delete fields key) = delete (storedFields fields) key := by
  induction fields with
  | nil => rfl
  | cons field fields ih =>
    obtain ⟨k, v⟩ := field
    unfold delete at ih ⊢
    by_cases hk : k = key
    · rw [List.filter_cons_of_neg (by simpa using hk), ih, storedFields, List.filter_cons_of_neg (by simpa using hk)]
    · rw [List.filter_cons_of_pos (by simpa using hk), storedFields, ih, storedFields,
        List.filter_cons_of_pos (by simpa using hk)]

theorem storedFields_append (fields more : Fields) :
    storedFields (fields ++ more) = storedFields fields ++ storedFields more := by
  induction fields with
  | nil => rfl
  | cons field fields ih =>
    obtain ⟨k, v⟩ := field
    exact congrArg (List.cons (k, v.stored)) ih

end Value

/-- The mappings of the arguments are JSON documents. -/
def Act.isJson : Act → Bool
  | .acceptTransaction arguments _ => Value.fieldsAreJson arguments.desired && Value.fieldsAreJson arguments.work
  | .transition _ arguments _ =>
    arguments.desired.all Value.fieldsAreJson && arguments.deadline.all Value.fieldsAreJson &&
      arguments.error.all Value.fieldsAreJson
  | _ => true

theorem storedFields_delete_loaded {fields : Fields} (h : Value.storedFields fields = fields) (key : String) :
    Value.storedFields (delete fields key) = delete fields key := by
  rw [Value.storedFields_delete, h]

theorem Transition.workAfter_loaded (m : Transition) {work : Fields} (h : Value.storedFields work = work) (id : String)
    (terminal : Bool) : Value.storedFields (m.workAfter work id terminal) = m.workAfter work id terminal := by
  have hfold : ∀ (keys : List String) (fields : Fields), Value.storedFields fields = fields →
      Value.storedFields (keys.foldl delete fields) = keys.foldl delete fields := by
    intro keys
    induction keys with
    | nil => exact fun _ hf => hf
    | cons key keys ih => exact fun fields hf => ih _ (storedFields_delete_loaded hf key)
  unfold workAfter
  split_ifs
  · rfl
  · exact hfold _ _ (storedFields_delete_loaded h id)
  · exact hfold _ _ h

theorem stored_elim {o : Option Fields} (h : o.all Value.fieldsAreJson = true) (d : Value) (hd : d.stored = d) :
    (o.elim d .dict).stored = o.elim d .dict := by
  cases o with
  | none => exact hd
  | some fields => exact Value.stored_of_isJson _ h

/-! ### Changes -/

section Store

variable {sha256Hex : ByteArray → String}

/-- The calls whose changes are counted. -/
def Act.counts : Act → Bool
  | .acceptTransaction _ _ => true
  | .transition _ _ _ => true
  | .scanStamp _ => true
  | _ => false

/-- The answers of a counted change. -/
def Answer.counts : Answer → Bool
  | .receipt _ replayed => !replayed
  | .transaction _ => true
  | .stamp _ _ => true
  | _ => false

/-- What the state that a call writes has changed. -/
inductive Change (sha256Hex : ByteArray → String) (s s' : State) : Act → Prop
  | accepted (arguments : Acceptance) (write : Write) (t : Transaction) (hfree : s.current = none)
      (hfresh : s.receipts.lookup (scope sha256Hex arguments.principalId arguments.idempotencyKey) = none)
      (hid : t.transactionId = arguments.transactionId) (hstatus : t.status = .accepted)
      (hrevision : s'.sourceRevision = s.sourceRevision + 1) (hown : t.sourceRevision = s'.sourceRevision)
      (hcurrent : s'.current = some t) (hlatest : s'.latest = s.latest)
      (hreceipts : s'.receipts =
        s.receipts ++ [(scope sha256Hex arguments.principalId arguments.idempotencyKey, arguments.entry t)]) :
      Change sha256Hex s s' (.acceptTransaction arguments write)
  | moved (id : String) (arguments : Transition) (write : Write) (t t' : Transaction) (hcurrent : s.current = some t)
      (hid : t'.transactionId = t.transactionId) (hrevision : s'.sourceRevision = s.sourceRevision + 1)
      (hown : t'.sourceRevision = s'.sourceRevision) (hreceipts : s'.receipts = s.receipts)
      (hends : t'.status.terminal = true → s'.current = none ∧ s'.latest = some t')
      (hstays : t'.status.terminal = false → s'.current = some t' ∧ s'.latest = s.latest) :
      Change sha256Hex s s' (.transition id arguments write)
  | stamped (write : Write) (hrevision : s'.sourceRevision = s.sourceRevision + 1) (hcurrent : s'.current = s.current)
      (hlatest : s'.latest = s.latest) (hreceipts : s'.receipts = s.receipts) : Change sha256Hex s s' (.scanStamp write)
  | flagged (a : Act) (hcounts : a.counts = false) (hrevision : s'.sourceRevision = s.sourceRevision)
      (hcurrent : s'.current = s.current) (hlatest : s'.latest = s.latest) (hreceipts : s'.receipts = s.receipts) :
      Change sha256Hex s s' a

variable {o : Option State} {s : State} {a : Act} {write : Write} {id : String} {e : Entry}

theorem validated_eq_ok {answer answer' : Answer}
    (h : validated answer s = .ok (answer', o)) : s.valid = true ∧ answer' = answer ∧ o = some s := by
  unfold validated at h
  split at h
  · rename_i hvalid
    injection h with h
    injection h with h1 h2
    exact ⟨hvalid, h1.symm, h2.symm⟩
  · cases h

theorem load_bind_eq_ok {f : State → Call} {r : Answer × Option State} :
    s.load >>= f = .ok r ↔ s.valid = true ∧ f s = .ok r := by
  unfold State.load
  split
  · rename_i hvalid
    exact ⟨fun h => ⟨hvalid, h⟩, fun h => h.2⟩
  · rename_i hvalid
    exact ⟨fun h => (nomatch h), fun h => absurd h.1 hvalid⟩

/-- What a call that answers has done. -/
structure Spec (sha256Hex : ByteArray → String) (s : State) (a : Act) (answer : Answer) (o : Option State) : Prop where
  records : ∀ r, answer = .receipt r false → ∀ arguments write, a = .acceptTransaction arguments write → ∃ s', o = some s' ∧
    s.receipts.lookup (scope sha256Hex arguments.principalId arguments.idempotencyKey) = none ∧
    s'.receipts = s.receipts ++
      [(scope sha256Hex arguments.principalId arguments.idempotencyKey, ⟨arguments.requestFingerprint, r⟩)]
  changed : ∀ s' ∈ o, s'.valid = true ∧ Change sha256Hex s s' a ∧ (a.isJson = true → s.stored = s → s'.stored = s')
  kept : o = none → answer.counts = false
  counts : answer.counts = true → a.counts = true

theorem Spec.unchanged {answer : Answer} (h : answer.counts = false) : Spec sha256Hex s a answer none := by
  refine ⟨?_, ?_, fun _ => h, fun hc => ?_⟩
  · rintro r rfl
    cases h
  · rintro s' ⟨⟩
  · rw [h] at hc
    cases hc

variable {p k : String} {arguments : Acceptance}

theorem replayReceipt_spec {f : String} {answer : Answer}
    (h : s.replayReceipt sha256Hex p k f = .ok (answer, o)) : Spec sha256Hex s (.replayReceipt p k f) answer o := by
  obtain ⟨-, h⟩ := load_bind_eq_ok.1 h
  cases hlookup : s.receipts.lookup (scope sha256Hex p k) with
  | none =>
    rw [hlookup] at h
    cases h
    exact .unchanged rfl
  | some existing =>
    rw [hlookup] at h
    obtain ⟨-, h⟩ := ite_error_eq_ok.1 h
    cases h
    exact .unchanged rfl

theorem accept_loaded {a : Acceptance} (hjson : Act.isJson (.acceptTransaction a .committed) = true)
    (hs : s.stored = s) (operation : Operation) (epoch : String) (n : ℕ) :
    (s.accept sha256Hex a (a.transaction operation epoch n)).stored = s.accept sha256Hex a (a.transaction operation epoch n) := by
  obtain ⟨hdesired, hwork⟩ := Bool.and_eq_true_iff.1 hjson
  have hd : (Value.dict a.desired).stored = .dict a.desired := Value.stored_of_isJson _ hdesired
  have hw : (Value.dict a.work).stored = .dict a.work := Value.stored_of_isJson _ hwork
  have ht : (a.transaction operation epoch n).stored = a.transaction operation epoch n := by
    unfold Transaction.stored Acceptance.transaction
    dsimp only
    rw [hd]
    rfl
  have hold := congrArg State.desired hs
  have holdWork := congrArg State.work hs
  have holdReceipts := congrArg State.receipts hs
  have holdLatest := congrArg State.latest hs
  unfold State.stored at hold holdWork holdReceipts holdLatest
  dsimp only at hold holdWork holdReceipts holdLatest
  unfold State.stored State.accept
  dsimp only
  congr 1
  · split_ifs
    · exact hd
    · exact hold
  · rw [Option.map_some, ht]
  · rw [List.map_append, holdReceipts, List.map_singleton]
    have hentry : (a.entry (a.transaction operation epoch n)).stored = a.entry (a.transaction operation epoch n) :=
      congrArg a.entry ht
    dsimp only
    rw [hentry]
  · unfold insertOrReplace
    rw [Value.storedFields_append, Value.storedFields_delete, holdWork]
    simp only [Value.storedFields, hw]

theorem acceptTransaction_spec {a : Acceptance} {answer : Answer}
    (h : s.acceptTransaction sha256Hex a = .ok (answer, o)) :
    Spec sha256Hex s (.acceptTransaction a write) answer o := by
  unfold State.acceptTransaction at h
  cases hoperation : Operation.ofName a.operation with
  | none =>
    rw [hoperation] at h
    cases h
  | some operation =>
    rw [hoperation] at h
    obtain ⟨-, h⟩ := ite_error_eq_ok.1 h
    obtain ⟨-, h⟩ := load_bind_eq_ok.1 h
    cases hlookup : s.receipts.lookup (scope sha256Hex a.principalId a.idempotencyKey) with
    | some existing =>
      rw [hlookup] at h
      obtain ⟨-, h⟩ := ite_error_eq_ok.1 h
      cases h
      exact .unchanged rfl
    | none =>
      rw [hlookup] at h
      obtain ⟨hbusy, h⟩ := ite_error_eq_ok.1 h
      obtain ⟨hvalid, rfl, rfl⟩ := validated_eq_ok h
      refine ⟨?_, ?_, fun hnone => (nomatch hnone), fun _ => rfl⟩
      · rintro r hr _ _ ⟨⟩
        obtain rfl := (Answer.receipt.inj hr).1
        exact ⟨_, rfl, hlookup, rfl⟩
      rintro s'' ⟨⟩
      refine ⟨hvalid, ?_, fun hjson hs => accept_loaded hjson hs _ _ _⟩
      exact .accepted a write (a.transaction operation s.authorityEpoch (s.sourceRevision + 1))
        (Option.not_isSome_iff_eq_none.1 hbusy) hlookup rfl rfl rfl rfl rfl rfl rfl

theorem markBootReconciled_spec {bootId : String} {answer : Answer}
    (h : s.markBootReconciled bootId = .ok (answer, o)) : Spec sha256Hex s (.markBootReconciled bootId write) answer o := by
  obtain ⟨-, h⟩ := ite_error_eq_ok.1 h
  obtain ⟨-, h⟩ := load_bind_eq_ok.1 h
  split at h
  · cases h
    exact .unchanged rfl
  · obtain ⟨hvalid, rfl, rfl⟩ := validated_eq_ok h
    refine ⟨fun r hr => (nomatch hr), ?_, fun hnone => (nomatch hnone), fun hc => (nomatch hc)⟩
    rintro s'' ⟨⟩
    exact ⟨hvalid, .flagged _ rfl rfl rfl rfl rfl, fun _ hs => congrArg (fun s : State => { s with rescueBootId := some bootId }) hs⟩

theorem releaseExecution_spec {answer : Answer}
    (h : s.releaseExecution id = .ok (answer, o)) : Spec sha256Hex s (.releaseExecution id write) answer o := by
  obtain ⟨-, h⟩ := load_bind_eq_ok.1 h
  split at h
  · split at h
    · cases h
      exact .unchanged rfl
    · obtain ⟨hvalid, rfl, rfl⟩ := validated_eq_ok h
      refine ⟨fun r hr => (nomatch hr), ?_, fun hnone => (nomatch hnone), fun hc => (nomatch hc)⟩
      rintro s'' ⟨⟩
      refine ⟨hvalid, .flagged _ rfl rfl rfl rfl rfl, fun _ hs => ?_⟩
      exact congrArg (fun s : State => { s with executionRelease := insertOrReplace s.executionRelease (id, true) }) hs
  · cases h
    exact .unchanged rfl

theorem move_loaded {m : Transition} {t : Transaction}
    (hjson : Act.isJson (.transition id m .committed) = true) (hs : s.stored = s) (ht : t.stored = t) (status : Status)
    (stage : Stage) (action : RecoveryAction) (n : ℕ) :
    (s.move m (m.move t status stage action n)).stored = s.move m (m.move t status stage action n) := by
  simp only [Act.isJson, Bool.and_eq_true] at hjson
  obtain ⟨⟨hdesired, hdeadline⟩, herror⟩ := hjson
  have hmove : (m.move t status stage action n).stored = m.move t status stage action n := by
    have hold : t.desired.stored = t.desired := congrArg Transaction.desired ht
    unfold Transaction.stored Transition.move
    dsimp only
    rw [stored_elim hdesired _ hold, stored_elim hdeadline _ rfl, stored_elim herror _ rfl]
  generalize m.move t status stage action n = t' at hmove
  have hold : s.desired.stored = s.desired := congrArg State.desired hs
  have holdWork : Value.storedFields s.work = s.work := congrArg State.work hs
  have holdLatest : s.latest.map (·.stored) = s.latest := congrArg State.latest hs
  have holdReceipts : (s.receipts.map fun r => (r.1, r.2.stored)) = s.receipts := congrArg State.receipts hs
  unfold State.stored State.move
  dsimp only
  congr 1
  · split_ifs
    · exact stored_elim hdesired _ hold
    · exact hold
  · split_ifs
    · rfl
    · rw [Option.map_some, hmove]
  · split_ifs
    · rw [Option.map_some, hmove]
    · exact holdLatest
  · exact m.workAfter_loaded holdWork _ _

theorem transition_spec {m : Transition} {answer : Answer}
    (h : s.transition id m = .ok (answer, o)) : Spec sha256Hex s (.transition id m write) answer o := by
  unfold State.transition at h
  split at h
  · rename_i status stage action _ _ _
    obtain ⟨-, h⟩ := ite_error_eq_ok.1 h
    obtain ⟨-, h⟩ := load_bind_eq_ok.1 h
    cases hfilter : s.current.filter (·.transactionId = id) with
    | none =>
      rw [hfilter] at h
      cases h
    | some t =>
      rw [hfilter] at h
      obtain ⟨hvalid, rfl, rfl⟩ := validated_eq_ok h
      have hcurrent : s.current = some t := (Option.filter_eq_some_iff.1 hfilter).1
      refine ⟨fun r hr => (nomatch hr), ?_, fun hnone => (nomatch hnone), fun _ => rfl⟩
      rintro s'' ⟨⟩
      refine ⟨hvalid, ?_, fun hjson hs => ?_⟩
      · refine .moved id m write t (m.move t status stage action (s.sourceRevision + 1)) hcurrent rfl rfl rfl rfl
          (fun hterminal => ?_) (fun hterminal => ?_)
        · exact ⟨if_pos hterminal, if_pos hterminal⟩
        · exact ⟨if_neg (Bool.eq_false_iff.1 hterminal), if_neg (Bool.eq_false_iff.1 hterminal)⟩
      · have ht : t.stored = t := by
          have hmap : s.current.map (·.stored) = s.current := congrArg State.current hs
          rw [hcurrent, Option.map_some] at hmap
          exact Option.some.inj hmap
        exact @move_loaded s id m t hjson hs ht status stage action _
  · cases h

theorem scanStamp_spec {answer : Answer}
    (h : s.scanStamp = .ok (answer, o)) : Spec sha256Hex s (.scanStamp write) answer o := by
  obtain ⟨-, h⟩ := load_bind_eq_ok.1 h
  obtain ⟨hvalid, rfl, rfl⟩ := validated_eq_ok h
  refine ⟨fun r hr => (nomatch hr), ?_, fun hnone => (nomatch hnone), fun _ => rfl⟩
  rintro s'' ⟨⟩
  exact ⟨hvalid, .stamped write rfl rfl rfl rfl,
    fun _ hs => congrArg (fun s : State => { s with sourceRevision := s.sourceRevision + 1 }) hs⟩

theorem call_spec {answer : Answer} (h : a.call sha256Hex s = .ok (answer, o)) : Spec sha256Hex s a answer o := by
  cases a with
  | replayReceipt p k f => exact replayReceipt_spec h
  | acceptTransaction arguments write => exact acceptTransaction_spec h
  | markBootReconciled bootId write => exact markBootReconciled_spec h
  | releaseExecution id write => exact releaseExecution_spec h
  | transition id arguments write => exact transition_spec h
  | scanStamp write => exact scanStamp_spec h

/-- A change stays one in what is stored of it. -/
theorem Change.stored {s' : State} (h : Change sha256Hex s s' a) (hs : s.stored = s) :
    Change sha256Hex s s'.stored a := by
  have hcurrent : s.current.map (·.stored) = s.current := congrArg State.current hs
  have hlatest : s.latest.map (·.stored) = s.latest := congrArg State.latest hs
  have hreceipts : (s.receipts.map fun r => (r.1, r.2.stored)) = s.receipts := congrArg State.receipts hs
  -- what is as before is stored as before
  have keepCurrent : s'.current = s.current → s'.stored.current = s.current := fun h => by
    rw [State.stored, h]
    exact hcurrent
  have keepLatest : s'.latest = s.latest → s'.stored.latest = s.latest := fun h => by
    rw [State.stored, h]
    exact hlatest
  have keepReceipts : s'.receipts = s.receipts → s'.stored.receipts = s.receipts := fun h => by
    rw [State.stored, h]
    exact hreceipts
  cases h with
  | accepted arguments write t hfree hfresh hid hstatus hrevision hown hc hl hr =>
    refine .accepted arguments write t.stored hfree hfresh hid hstatus hrevision hown ?_ (keepLatest hl) ?_
    · rw [State.stored, hc]
      rfl
    · unfold State.stored
      dsimp only
      rw [hr, List.map_append, hreceipts]
      rfl
  | moved id arguments write t t' hc hid hrevision hown hr hends hstays =>
    refine .moved id arguments write t t'.stored hc hid hrevision hown (keepReceipts hr) (fun hterminal => ?_)
      (fun hterminal => ?_)
    · obtain ⟨h1, h2⟩ := hends hterminal
      exact ⟨by rw [State.stored, h1]; rfl, by rw [State.stored, h2]; rfl⟩
    · obtain ⟨h1, h2⟩ := hstays hterminal
      exact ⟨by rw [State.stored, h1]; rfl, keepLatest h2⟩
  | stamped write hrevision hc hl hr => exact .stamped write hrevision (keepCurrent hc) (keepLatest hl) (keepReceipts hr)
  | flagged a hcounts hrevision hc hl hr =>
    exact .flagged a hcounts hrevision (keepCurrent hc) (keepLatest hl) (keepReceipts hr)

/-- What a call does to the database. -/
inductive Stepped (sha256Hex : ByteArray → String) (db : Database) (a : Act) : Answer × Database → Prop
  | kept (answer : Answer) (hanswer : answer.counts = false) : Stepped sha256Hex db a (answer, db)
  | changed (answer : Answer) (db' : Database) (hchange : Change sha256Hex db.state db'.state a)
      (hvalid : a.isJson = true → db'.state.valid = true) (hanswer : answer.counts = true → a.counts = true) :
      Stepped sha256Hex db a (answer, db')

theorem step_stepped (db : Database) (a : Act) : Stepped sha256Hex db a (db.step sha256Hex a) := by
  unfold Database.step
  cases hcall : a.call sha256Hex db.state with
  | error error => exact .kept _ rfl
  | ok r =>
    obtain ⟨answer, o⟩ := r
    have hspec := call_spec hcall
    cases o with
    | none => exact .kept answer (hspec.kept rfl)
    | some s =>
      obtain ⟨hvalid, hchange, hloaded⟩ := hspec.changed s rfl
      -- the state is stored, whatever is answered
      have hstored : ∀ returned : Bool, Stepped sha256Hex db a
          (if returned then answer else .writeRaised, ⟨s.stored, s.stored_stored⟩) := by
        intro returned
        refine .changed _ _ (hchange.stored db.loaded) (fun hjson => ?_) fun hcounts => ?_
        · change s.stored.valid = true
          rw [hloaded hjson db.loaded]
          exact hvalid
        · split_ifs at hcounts
          · exact hspec.counts hcounts
          · cases hcounts
      dsimp only
      cases a.write with
      | committed => exact hstored true
      | raised => exact .kept _ rfl
      | raisedCommitted readable => exact hstored _

/-! ### One call -/

/-- A transaction of the document. -/
def Stored (s : State) (t : Transaction) : Prop :=
  s.current = some t ∨ s.latest = some t ∨ ∃ r ∈ s.receipts, r.2.receipt.transaction = t

/-- What a call does to the revision and to the transactions. -/
structure Advances (s : State) (a : Act) (answer : Answer) (s' : State) : Prop where
  revision : s.sourceRevision ≤ s'.sourceRevision
  counted : a.counts = true → s' = s ∨ s'.sourceRevision = s.sourceRevision + 1
  uncounted : a.counts = false → s'.sourceRevision = s.sourceRevision
  answered : answer.counts = true → s'.sourceRevision = s.sourceRevision + 1
  written : ∀ t, Stored s' t → Stored s t ∨ t.sourceRevision = s'.sourceRevision ∧ s.sourceRevision < s'.sourceRevision

/-- The current transaction stays, or it becomes the latest one with a terminal status; nothing else changes the
latest one. -/
structure Ends (s s' : State) : Prop where
  stays : ∀ t t', s.current = some t → s'.current = some t' → t'.transactionId = t.transactionId
  ends : ∀ t, s.current = some t → s'.current = none →
    ∃ t', s'.latest = some t' ∧ t'.transactionId = t.transactionId ∧ t'.status.terminal = true ∧
      t'.sourceRevision = s'.sourceRevision
  latest : s'.latest = s.latest ∨ s.current.isSome = true ∧ s'.current = none

theorem step_advances (db : Database) (a : Act) :
    Advances db.state a (db.step sha256Hex a).1 (db.step sha256Hex a).2.state := by
  have hstepped := @step_stepped sha256Hex db a
  generalize db.step sha256Hex a = r at hstepped
  cases hstepped with
  | kept answer hanswer =>
    refine ⟨le_rfl, fun _ => .inl rfl, fun _ => rfl, fun hc => ?_, fun t ht => .inl ht⟩
    rw [hanswer] at hc
    cases hc
  | changed answer db' hchange hvalid hanswer =>
    -- a change that counts
    have counted : a.counts = true → db'.state.sourceRevision = db.state.sourceRevision + 1 →
        (∀ t, Stored db'.state t → Stored db.state t ∨ t.sourceRevision = db'.state.sourceRevision) →
        Advances db.state a answer db'.state := by
      intro ha hrevision hwritten
      have hlt : db.state.sourceRevision < db'.state.sourceRevision := hrevision ▸ Nat.lt_succ_self _
      refine ⟨hlt.le, fun _ => .inr hrevision, fun hc => ?_, fun _ => hrevision, fun t ht => ?_⟩
      · rw [ha] at hc
        cases hc
      · exact (hwritten t ht).imp_right fun h => ⟨h, hlt⟩
    cases hchange with
    | accepted arguments write t hfree hfresh hid hstatus hrevision hown hc hl hr =>
      refine counted rfl hrevision fun t' ht' => ?_
      rcases ht' with ht' | ht' | ⟨r, hmem, ht'⟩
      · obtain rfl : t = t' := Option.some.inj (hc.symm.trans ht')
        exact .inr hown
      · exact .inl (.inr (.inl (hl ▸ ht')))
      · rw [hr] at hmem
        rcases mem_concat.1 hmem with hmem | rfl
        · exact .inl (.inr (.inr ⟨r, hmem, ht'⟩))
        · obtain rfl : t = t' := ht'
          exact .inr hown
    | moved id arguments write t t' hc hid hrevision hown hr hends hstays =>
      refine counted rfl hrevision fun x hx => ?_
      cases hterminal : t'.status.terminal with
      | true =>
        obtain ⟨h1, h2⟩ := hends hterminal
        rcases hx with hx | hx | ⟨r, hmem, hx⟩
        · rw [h1] at hx
          cases hx
        · obtain rfl : t' = x := Option.some.inj (h2.symm.trans hx)
          exact .inr hown
        · exact .inl (.inr (.inr ⟨r, hr ▸ hmem, hx⟩))
      | false =>
        obtain ⟨h1, h2⟩ := hstays hterminal
        rcases hx with hx | hx | ⟨r, hmem, hx⟩
        · obtain rfl : t' = x := Option.some.inj (h1.symm.trans hx)
          exact .inr hown
        · exact .inl (.inr (.inl (h2 ▸ hx)))
        · exact .inl (.inr (.inr ⟨r, hr ▸ hmem, hx⟩))
    | stamped write hrevision hc hl hr =>
      refine counted rfl hrevision fun t ht => .inl ?_
      unfold Stored at ht ⊢
      rwa [hc, hl, hr] at ht
    | flagged _ hcounts hrevision hc hl hr =>
      refine ⟨hrevision.ge, fun ha => ?_, fun _ => hrevision, fun ha => ?_, fun t ht => .inl ?_⟩
      · rw [hcounts] at ha
        cases ha
      · rw [hanswer ha] at hcounts
        cases hcounts
      · unfold Stored at ht ⊢
        rwa [hc, hl, hr] at ht

theorem step_ends (db : Database) (a : Act) : Ends db.state (db.step sha256Hex a).2.state := by
  have hstepped := @step_stepped sha256Hex db a
  generalize db.step sha256Hex a = r at hstepped
  -- a call that leaves both
  have same : ∀ s' : State, s'.current = db.state.current → s'.latest = db.state.latest → Ends db.state s' := by
    intro s' hc hl
    refine ⟨fun t t' ht ht' => ?_, fun t ht ht' => ?_, .inl hl⟩
    · rw [hc, ht] at ht'
      rw [Option.some.inj ht']
    · rw [hc, ht] at ht'
      cases ht'
  cases hstepped with
  | kept answer hanswer => exact same _ rfl rfl
  | changed answer db' hchange hvalid hanswer =>
    cases hchange with
    | accepted arguments write t hfree hfresh hid hstatus hrevision hown hc hl hr =>
      refine ⟨fun x x' hx => ?_, fun x hx => ?_, .inl hl⟩
      · rw [hfree] at hx
        cases hx
      · rw [hfree] at hx
        cases hx
    | moved id arguments write t t' hc hid hrevision hown hr hends hstays =>
      refine ⟨fun x x' hx hx' => ?_, fun x hx hx' => ?_, ?_⟩
      · obtain rfl : t = x := Option.some.inj (hc.symm.trans hx)
        cases hterminal : t'.status.terminal with
        | true =>
          rw [(hends hterminal).1] at hx'
          cases hx'
        | false =>
          obtain rfl : t' = x' := Option.some.inj ((hstays hterminal).1.symm.trans hx')
          exact hid
      · obtain rfl : t = x := Option.some.inj (hc.symm.trans hx)
        cases hterminal : t'.status.terminal with
        | true => exact ⟨t', (hends hterminal).2, hid, hterminal, hown⟩
        | false =>
          rw [(hstays hterminal).1] at hx'
          cases hx'
      · cases hterminal : t'.status.terminal with
        | true => exact .inr ⟨by rw [hc]; rfl, (hends hterminal).1⟩
        | false => exact .inl (hstays hterminal).2
    | stamped write hrevision hc hl hr => exact same _ hc hl
    | flagged _ hcounts hrevision hc hl hr => exact same _ hc hl

/-- A call that accepts a transaction with an id. -/
def Act.accepts (id : String) : Act → Prop
  | .acceptTransaction arguments _ => arguments.transactionId = id
  | _ => False

theorem step_not_current (db : Database) (ha : ¬a.accepts id) (h : ∀ t ∈ db.state.current, t.transactionId ≠ id) :
    ∀ t ∈ (db.step sha256Hex a).2.state.current, t.transactionId ≠ id := by
  have hstepped := @step_stepped sha256Hex db a
  generalize db.step sha256Hex a = r at hstepped
  cases hstepped with
  | kept answer hanswer => exact h
  | changed answer db' hchange hvalid hanswer =>
    intro x hx
    rw [Option.mem_def] at hx
    cases hchange with
    | accepted arguments write t hfree hfresh hid hstatus hrevision hown hc hl hr =>
      obtain rfl : t = x := Option.some.inj (hc.symm.trans hx)
      rw [hid]
      exact ha
    | moved id' arguments write t t' hc hid hrevision hown hr hends hstays =>
      cases hterminal : t'.status.terminal with
      | true =>
        rw [(hends hterminal).1] at hx
        cases hx
      | false =>
        obtain rfl : t' = x := Option.some.inj ((hstays hterminal).1.symm.trans hx)
        rw [hid]
        exact h t hc
    | stamped write hrevision hc hl hr => exact h x (hc ▸ hx)
    | flagged _ hcounts hrevision hc hl hr => exact h x (hc ▸ hx)

theorem step_receipts (db : Database) (a : Act) {scope : String} (h : db.state.receipts.lookup scope = some e) :
    (db.step sha256Hex a).2.state.receipts.lookup scope = some e := by
  have hstepped := @step_stepped sha256Hex db a
  generalize db.step sha256Hex a = r at hstepped
  cases hstepped with
  | kept answer hanswer => exact h
  | changed answer db' hchange hvalid hanswer =>
    cases hchange with
    | accepted arguments write t hfree hfresh hid hstatus hrevision hown hc hl hr =>
      rw [hr, List.lookup_append, h]
      rfl
    | moved id' arguments write t t' hc hid hrevision hown hr hends hstays => rw [hr, h]
    | stamped write hrevision hc hl hr => rw [hr, h]
    | flagged _ hcounts hrevision hc hl hr => rw [hr, h]

theorem step_valid (db : Database) (ha : a.isJson = true) (h : db.state.valid = true) :
    (db.step sha256Hex a).2.state.valid = true := by
  have hstepped := @step_stepped sha256Hex db a
  generalize db.step sha256Hex a = r at hstepped
  cases hstepped with
  | kept answer hanswer => exact h
  | changed answer db' hchange hvalid hanswer => exact hvalid ha

/-! ### Receipts -/

/-- The scope of an accepted transaction has its receipt. -/
theorem step_records (db : Database) {r : Receipt}
    (h : (db.step sha256Hex (.acceptTransaction arguments write)).1 = .receipt r false) :
    (db.step sha256Hex (.acceptTransaction arguments write)).2.state.receipts.lookup
      (scope sha256Hex arguments.principalId arguments.idempotencyKey) =
        some (Entry.stored ⟨arguments.requestFingerprint, r⟩) := by
  unfold Database.step at h ⊢
  cases hcall : (Act.acceptTransaction arguments write).call sha256Hex db.state with
  | error error =>
    rw [hcall] at h
    cases h
  | ok result =>
    obtain ⟨answer, o⟩ := result
    rw [hcall] at h
    have hspec := call_spec hcall
    cases o with
    | none =>
      obtain rfl : answer = .receipt r false := h
      obtain ⟨s', hnone, -⟩ := hspec.records r rfl arguments write rfl
      cases hnone
    | some s =>
      -- the receipt is returned, so that the state is stored
      have hreturned : ((db.put s write).1 = true) ∧ answer = .receipt r false := by
        dsimp only [Act.write] at h
        cases hput : (db.put s write).1 with
        | true =>
          rw [hput] at h
          exact ⟨rfl, h⟩
        | false =>
          rw [hput] at h
          cases h
      obtain ⟨hput, rfl⟩ := hreturned
      obtain ⟨s', hs', hfresh, hreceipts⟩ := hspec.records r rfl arguments write rfl
      obtain rfl : s = s' := Option.some.inj hs'
      have hold : (db.state.receipts.map fun r => (r.1, r.2.stored)) = db.state.receipts :=
        congrArg State.receipts db.loaded
      have hstored : s.stored.receipts.lookup (scope sha256Hex arguments.principalId arguments.idempotencyKey) =
          some (Entry.stored ⟨arguments.requestFingerprint, r⟩) := by
        unfold State.stored
        dsimp only
        rw [hreceipts, List.map_append, hold, List.lookup_append, hfresh, Option.none_or, List.map_singleton, lookup_singleton,
          if_pos rfl]
      cases write with
      | committed => exact hstored
      | raised => cases hput
      | raisedCommitted readable => exact hstored

/-- The answer of a call with a scope that has a receipt. -/
def Entry.answer (e : Entry) (requestFingerprint : String) : Answer :=
  if e.requestFingerprint ≠ requestFingerprint then .raised idempotencyConflict else .receipt e.receipt true

theorem step_replay (db : Database) (hvalid : db.state.valid = true) {f : String}
    (h : db.state.receipts.lookup (scope sha256Hex p k) = some e) :
    db.step sha256Hex (.replayReceipt p k f) = (e.answer f, db) := by
  unfold Database.step Act.call State.replayReceipt State.load Entry.answer
  simp only [hvalid, if_true, h, bind, Except.bind]
  split_ifs <;> rfl

theorem step_accept_replay (db : Database) (hvalid : db.state.valid = true)
    (ha : arguments.valid = true) (hoperation : (Operation.ofName arguments.operation).isSome = true)
    (h : db.state.receipts.lookup (scope sha256Hex arguments.principalId arguments.idempotencyKey) = some e) :
    db.step sha256Hex (.acceptTransaction arguments write) = (e.answer arguments.requestFingerprint, db) := by
  obtain ⟨operation, hoperation⟩ := Option.isSome_iff_exists.1 hoperation
  unfold Database.step Act.call State.acceptTransaction State.load Entry.answer
  simp only [hoperation, ha, hvalid, if_true, h, bind, Except.bind, Bool.not_true, Bool.false_eq_true, if_false]
  split_ifs <;> rfl

theorem not_mem_of_printable {text : String} (h : (text.toList.all fun c => 0x21 ≤ c.toNat && c.toNat ≤ 0x7e) = true) :
    '\x00' ∉ text.toList := by
  intro hmem
  have := List.all_eq_true.1 h _ hmem
  revert this
  decide

def Collides (sha256Hex : ByteArray → String) (x y : ByteArray) : Prop := x ≠ y ∧ sha256Hex x = sha256Hex y

/-- An admitted pair shares its scope with no other pair, or the two show a collision of SHA-256. -/
theorem scope_injective {p' k' : String} (hp : validPrincipalId p = true) (hk : validIdempotencyKey k = true)
    (h : scope sha256Hex p k = scope sha256Hex p' k') :
    p = p' ∧ k = k' ∨ Collides sha256Hex (p ++ "\x00" ++ k).toByteArray (p' ++ "\x00" ++ k').toByteArray := by
  have principal : ∀ {text : String}, validPrincipalId text = true → '\x00' ∉ text.toList := fun h =>
    not_mem_of_printable (Bool.and_eq_true_iff.1 h).2
  have key : ∀ {text : String}, validIdempotencyKey text = true → '\x00' ∉ text.toList := by
    intro text h
    refine not_mem_of_printable (List.all_eq_true.2 fun c hc => ?_)
    have := List.all_eq_true.1 (Bool.and_eq_true_iff.1 h).2 c hc
    simp only [Bool.and_eq_true] at this ⊢
    exact ⟨this.1.2, this.2⟩
  by_cases hbytes : (p ++ "\x00" ++ k).toByteArray = (p' ++ "\x00" ++ k').toByteArray
  · left
    have hlist := congrArg String.toList (String.toByteArray_inj.1 hbytes)
    simp only [String.toList_append] at hlist
    have hzero : "\x00".toList = ['\x00'] := by decide
    rw [hzero, List.append_assoc, List.append_assoc, List.singleton_append, List.singleton_append,
      List.append_cons_inj_of_notMem (principal hp) (key hk)] at hlist
    exact ⟨String.toList_inj.1 hlist.1, String.toList_inj.1 hlist.2.2⟩
  · exact .inr ⟨hbytes, h⟩

/-! ### Runs -/

variable {acts : List Act} {db : Database}

/-- What every call of a run keeps. -/
theorem after_invariant {I : Database → Prop} {P : Act → Prop}
    (hstep : ∀ db a, P a → I db → I (db.step sha256Hex a).2) (hP : ∀ a ∈ acts, P a)
    (h : I db) : I (db.after sha256Hex acts) := by
  induction acts generalizing db with
  | nil => exact h
  | cons a acts ih =>
    obtain ⟨ha, hacts⟩ := List.forall_mem_cons.1 hP
    exact ih hacts (hstep db a ha h)

theorem after_valid (hjson : ∀ a ∈ acts, a.isJson = true) (h : db.state.valid = true) :
    (db.after sha256Hex acts).state.valid = true :=
  after_invariant (I := fun db => db.state.valid = true) (fun db _ ha hdb => step_valid db ha hdb) hjson h

theorem after_receipts {scope : String}
    (h : db.state.receipts.lookup scope = some e) : (db.after sha256Hex acts).state.receipts.lookup scope = some e :=
  after_invariant (I := fun db => db.state.receipts.lookup scope = some e) (P := fun _ => True)
    (fun db a _ hdb => step_receipts db a hdb) (fun _ _ => trivial) h

theorem after_not_current (hacts : ∀ a ∈ acts, ¬a.accepts id) (h : ∀ t ∈ db.state.current, t.transactionId ≠ id) :
    ∀ t ∈ (db.after sha256Hex acts).state.current, t.transactionId ≠ id :=
  after_invariant (I := fun db => ∀ t ∈ db.state.current, t.transactionId ≠ id)
    (fun db _ ha hdb => step_not_current db ha hdb) hacts h

/-- A transaction of the document was there at first, or a call of the run wrote it with its own revision. -/
theorem after_written {t : Transaction} (h : Stored (db.after sha256Hex acts).state t) :
    Stored db.state t ∨ ∃ before a rest, acts = before ++ a :: rest ∧
      t.sourceRevision = (db.after sha256Hex (before ++ [a])).state.sourceRevision ∧
      (db.after sha256Hex before).state.sourceRevision < t.sourceRevision := by
  induction acts generalizing db with
  | nil => exact .inl h
  | cons a acts ih =>
    rcases ih h with hfirst | ⟨before, b, rest, rfl, hrevision, hlt⟩
    · rcases (step_advances db a).written t hfirst with hold | ⟨hown, hlt⟩
      · exact .inl hold
      · exact .inr ⟨[], a, acts, rfl, hown, hown ▸ hlt⟩
    · exact .inr ⟨a :: before, b, rest, rfl, hrevision, hlt⟩

/-- The transactions that end in a run, in their order. -/
def Database.ended (sha256Hex : ByteArray → String) (db : Database) : List Act → List Transaction
  | [] => []
  | a :: acts =>
    let next := (db.step sha256Hex a).2
    (if db.state.current.isSome && next.state.current.isNone then next.state.latest.toList else []) ++
      next.ended sha256Hex acts

theorem after_latest (db : Database) (acts : List Act) :
    (db.after sha256Hex acts).state.latest = (db.ended sha256Hex acts).getLast?.or db.state.latest := by
  induction acts generalizing db with
  | nil => rfl
  | cons a acts ih =>
    have hrest : (db.after sha256Hex (a :: acts)).state.latest =
      ((db.step sha256Hex a).2.ended sha256Hex acts).getLast?.or (db.step sha256Hex a).2.state.latest := ih _
    rw [hrest, Database.ended, List.getLast?_append]
    have hends : Ends db.state (db.step sha256Hex a).2.state := step_ends db a
    generalize (db.step sha256Hex a).2 = next at hends
    cases (next.ended sha256Hex acts).getLast? with
    | some t => rfl
    | none =>
      rw [Option.none_or, Option.none_or]
      split_ifs with hended
      · obtain ⟨hsome, hnone⟩ := Bool.and_eq_true_iff.1 hended
        obtain ⟨t, ht⟩ := Option.isSome_iff_exists.1 hsome
        obtain ⟨t', ht', -⟩ := hends.ends t ht (Option.isNone_iff_eq_none.1 hnone)
        rw [ht']
        rfl
      · rcases hends.latest with hsame | ⟨hsome, hnone⟩
        · exact hsame
        · rw [hsome, hnone] at hended
          exact absurd rfl hended

/-- What holds of a call, and of the calls after it. -/
structure Durable (sha256Hex : ByteArray → String) (db : Database) (a : Act) (later : List Act) : Prop where
  advances : Advances db.state a (db.step sha256Hex a).1 (db.step sha256Hex a).2.state
  ends : Ends db.state (db.step sha256Hex a).2.state
  past : ∀ t, db.state.current = some t → (db.step sha256Hex a).2.state.current = none →
    (∀ b ∈ later, ¬b.accepts t.transactionId) →
      ∀ t' ∈ ((db.step sha256Hex a).2.after sha256Hex later).state.current, t'.transactionId ≠ t.transactionId
  recorded : ∀ arguments write r, a = .acceptTransaction arguments write → (db.step sha256Hex a).1 = .receipt r false →
    (db.step sha256Hex a).2.state.receipts.lookup (scope sha256Hex arguments.principalId arguments.idempotencyKey) =
      some (Entry.stored ⟨arguments.requestFingerprint, r⟩)
  retained : ∀ scope e, db.state.receipts.lookup scope = some e →
    (db.after sha256Hex later).state.receipts.lookup scope = some e
  replayed : db.state.valid = true → ∀ p k e, db.state.receipts.lookup (scope sha256Hex p k) = some e →
    (∀ f, db.step sha256Hex (.replayReceipt p k f) = (e.answer f, db)) ∧
    ∀ arguments write, arguments.principalId = p → arguments.idempotencyKey = k → arguments.valid = true →
      (Operation.ofName arguments.operation).isSome = true →
        db.step sha256Hex (.acceptTransaction arguments write) = (e.answer arguments.requestFingerprint, db)

/-- The authority of a `NetworkStateStore`, over every run from a valid state. -/
theorem network_authority (sha256Hex : ByteArray → String) (init : Database) (hinit : init.state.valid = true)
    (acts : List Act) (a : Act) (later : List Act) :
    ((∀ b ∈ acts, b.isJson = true) → (init.after sha256Hex acts).state.valid = true) ∧
      Durable sha256Hex (init.after sha256Hex acts) a later ∧
      (∀ t, Stored (init.after sha256Hex acts).state t → Stored init.state t ∨ ∃ before b rest, acts = before ++ b :: rest ∧
        t.sourceRevision = (init.after sha256Hex (before ++ [b])).state.sourceRevision ∧
        (init.after sha256Hex before).state.sourceRevision < t.sourceRevision) ∧
      (init.after sha256Hex acts).state.latest = (init.ended sha256Hex acts).getLast?.or init.state.latest ∧
      ∀ p k p' k', validPrincipalId p = true → validIdempotencyKey k = true → validPrincipalId p' = true →
        validIdempotencyKey k' = true → scope sha256Hex p k = scope sha256Hex p' k' →
          p = p' ∧ k = k' ∨ Collides sha256Hex (p ++ "\x00" ++ k).toByteArray (p' ++ "\x00" ++ k').toByteArray := by
  refine ⟨fun hjson => after_valid hjson hinit, ?_, fun t ht => after_written ht, after_latest init acts,
    fun p k p' k' hp hk _ _ h => scope_injective hp hk h⟩
  constructor
  · exact step_advances _ a
  · exact step_ends _ a
  · intro t ht hnone hlater
    refine after_not_current hlater fun t' ht' => ?_
    rw [hnone] at ht'
    cases ht'
  · rintro arguments write r rfl hanswer
    exact step_records _ hanswer
  · exact fun scope e he => after_receipts he
  · rintro hvalid p k e he
    refine ⟨fun f => step_replay _ hvalid he, ?_⟩
    rintro arguments write rfl rfl ha hoperation
    exact step_accept_replay _ hvalid ha hoperation he

end Store

/-! ### Samples -/

def sampleId : String := "0198d2a0-41a0-7b7a-a751-0e86a39d4db1"

def sampleDesired : Fields := [("mode", .str "hotspot"), ("wifi_client", .none), ("ethernet", .none)]

/-- A new state. -/
def sampleInit : Database where
  state := ⟨"6f1c1f0e-8f5e-4d0a-9a55-0d5f2c6b7a10", 0, false, false, .dict sampleDesired, none, none, [], [], [], none⟩
  loaded := rfl

/-- The SHA-256 of the scopes of `customer` with the keys `idem-1` and `idem-10`. -/
def sampleDigest (bytes : ByteArray) : String :=
  if bytes.size = 15 then "adb5a867c12f7880f4e7788977420b230923ff07459e0564b4961d446e1d8860"
  else "1afae3fb00cafbea3cc3d4ab5b505f9f3a5e9f4dd6a6fb0bd19602a94f256ee9"

def sampleAccept (key : String) (work : Fields) : Act :=
  .acceptTransaction ⟨"apply", sampleDesired, "customer", key,
    "aaaaaaaaaaaaaaaaaaaaaaaaaaaaaaaaaaaaaaaaaaaaaaaaaaaaaaaaaaaaaaaa", sampleId, "2026-08-23T15:00:00+08:00", work, true,
    true, none, none⟩ .committed

def sampleCommit : Act :=
  .transition sampleId ⟨"committed", "committed", "2026-08-23T15:00:01+08:00", some true, none, none, false, none,
    "reconnect_rescue_ap", none, none, false, false, []⟩ (.raisedCommitted true)

/-- An accepted transaction, and its end with a write that raises behind its commit. -/
theorem network_authority_sample :
    (sampleInit.after sampleDigest [sampleAccept "idem-1" []]).state.valid = true ∧
      Durable sampleDigest (sampleInit.after sampleDigest [sampleAccept "idem-1" []]) sampleCommit [sampleAccept "idem-10" []] ∧
      (sampleInit.after sampleDigest [sampleAccept "idem-1" [], sampleCommit]).state.latest.map (·.status) =
        some .committed := by
  have h := network_authority sampleDigest sampleInit (by decide +kernel) [sampleAccept "idem-1" []] sampleCommit
    [sampleAccept "idem-10" []]
  exact ⟨h.1 (by decide +kernel), h.2.1, by decide +kernel⟩

/-- An id that is accepted again makes a committed transaction current; a forbidden key inside a tuple is found
only in the stored list. -/
theorem network_authority_fails :
    ((sampleInit.after sampleDigest [sampleAccept "idem-1" [], sampleCommit]).state.latest.map
        fun t => (t.transactionId, t.status)) = some (sampleId, .committed) ∧
      (sampleInit.after sampleDigest [sampleAccept "idem-1" [], sampleCommit, sampleAccept "idem-10" []]).state.current.map
        (·.transactionId) = some sampleId ∧
      (sampleInit.after sampleDigest [sampleAccept "idem-1" [("kind", .tuple [.dict [("psk", .none)]])]]).state.valid =
        false := by
  decide +kernel

end Conductor.NetworkState
