import Conductor.Control.NetworkApply
import Conductor.Control.NetworkStateLaw
import Conductor.Control.NetworkCredentialsLaw

/-! Whether an apply request is all or nothing. Each call has one lemma that says what it may have
done; what is not done at the end is undone, unless the failing step raises what no handler takes,
or leaves a profile that the handler does not know of. -/

namespace Conductor.NetworkApply

open NetworkState (Value Fields Acceptance Receipt Database Write NetworkStateError)
open NetworkCredentials (Store Credential Reservation CredentialError setReserved)
open KeyTable

variable {τ : Type} [LinearOrder τ]

/-! ### Credentials -/

section Credentials

omit [LinearOrder τ] in
theorem lookup_setReserved (entries : List (String × Credential τ)) (credentialRef : String) (b : Bool) :
    (entries.map (setReserved credentialRef b)).lookup credentialRef =
      (entries.lookup credentialRef).map fun entry => { entry with reserved := b } := by
  induction entries with
  | nil => rfl
  | cons row entries ih =>
    rw [List.map_cons, lookup_cons, lookup_cons, NetworkCredentials.setReserved_fst, ih]
    by_cases h : credentialRef = row.1
    · rw [if_pos h, if_pos h, Option.map_some, setReserved, if_pos h.symm]
    · rw [if_neg h, if_neg h]

/-- An open reservation of an entry. -/
structure Held (s : Store τ) (i : ℕ) (held : Reservation τ) (entry : Credential τ) : Prop where
  reservation : s.reservations[i]? = some held
  active : held.Active
  reserved : s.entries.lookup held.credentialRef = some { entry with reserved := true }

variable {credentialRef : String} {now : τ} {entry : Credential τ} {held : Reservation τ}

/-- Without a reservation the reference is as good as before. -/
theorem reserve_error {s s' : Store τ} {error : CredentialError}
    (h : s.reserve now credentialRef = (.error error, s')) : (∃ code, error = .credential code) ∧
      ∀ entry, s.entries.lookup credentialRef = some entry → now < entry.expiresAt →
        s'.entries.lookup credentialRef = some entry := by
  unfold Store.reserve at h
  split_ifs at h with href
  · split at h
    · cases h
      exact ⟨⟨_, rfl⟩, fun _ hlookup _ => hlookup⟩
    · rename_i entry hlookup
      split_ifs at h with hreserved hexpired
      · cases h
        exact ⟨⟨_, rfl⟩, fun _ hlookup _ => hlookup⟩
      · cases h
        refine ⟨⟨_, rfl⟩, fun entry' hlookup' hlt => ?_⟩
        cases hlookup.symm.trans hlookup'
        exact absurd hlt hexpired.not_gt
      · cases congrArg Prod.fst h
  · cases h
    exact ⟨⟨_, rfl⟩, fun _ hlookup _ => hlookup⟩

theorem reserve_ok {s s' : Store τ} {i : ℕ} (h : s.reserve now credentialRef = (.ok i, s')) :
    ∃ held entry, s.entries.lookup credentialRef = some entry ∧ entry.reserved = false ∧ held.credentialRef = credentialRef ∧
      held.credential = NetworkCredentials.decode entry.value ∧ Held s' i held entry := by
  unfold Store.reserve at h
  split_ifs at h with href
  · split at h
    · cases h
    · rename_i entry hlookup
      split_ifs at h with hreserved hexpired
      · cases h
      · cases h
      obtain ⟨hi, rfl⟩ := Prod.mk.inj h
      obtain rfl := Except.ok.inj hi
      refine ⟨⟨credentialRef, NetworkCredentials.decode entry.value, false, false, entry.id, now⟩, entry, hlookup,
        by simpa using hreserved, rfl, rfl, ?_, ⟨rfl, rfl⟩, ?_⟩
      · exact List.getElem?_concat_length
      · exact (lookup_setReserved _ _ _).trans (by rw [hlookup]; rfl)
  · cases h

omit [LinearOrder τ] in
/-- A commit of an open reservation takes its entry out. -/
theorem Held.commit {s : Store τ} {i : ℕ} (h : Held s i held entry) :
    ∃ s', s.commit i held = (.ok (), s') ∧ s'.entries.lookup held.credentialRef = none ∧
      s'.reservations[i]? = some { held with committed := true } := by
  have hlength : i < s.reservations.length := (List.getElem?_eq_some_iff.1 h.reservation).1
  unfold Store.commit Store.commitReservation
  rw [if_neg (by simp [h.active.1]), if_neg (by simp [h.active.2]), h.reserved]
  refine ⟨_, rfl, ?_, ?_⟩
  · change (delete s.entries held.credentialRef).lookup held.credentialRef = none
    rw [lookup_delete, if_pos rfl]
  · exact List.getElem?_set_self hlength

/-- The close of a committed reservation leaves the entries, and that of an open one gives its entry back. -/
theorem close_committed (s : Store τ) (now : τ) (i : ℕ) (h : held.committed = true) :
    (s.close now i held).entries = s.entries := by
  unfold Store.close
  simp only [h, if_true]
  split_ifs <;> rfl

theorem Held.close {s : Store τ} {i : ℕ} (h : Held s i held entry)
    (hfree : entry.reserved = false) (hlt : now < entry.expiresAt) :
    (s.close now i held).entries.lookup held.credentialRef = some entry := by
  unfold Store.close Store.releaseReservation
  rw [if_neg (by simp [h.active.1]), h.active.2, h.reserved]
  dsimp only
  rw [if_neg (by simp), if_neg (by simp), if_neg hlt.not_ge]
  refine (lookup_setReserved _ _ _).trans ?_
  rw [h.reserved, Option.map_some, ← hfree]

end Credentials

/-! ### The acceptance -/

/-- The state that `accept_transaction` writes, unless it refuses. -/
def written (c : Controller) (db : Database) (r : Apply τ) (n : Normalized) (config : Option Config) :
    Option NetworkState.State :=
  match db.state.acceptTransaction c.sha256Hex (c.acceptance r n config) with
  | .ok (_, o) => o
  | .error _ => none

/-- The request has no receipt yet. -/
def unanswered (c : Controller) (db : Database) (r : Apply τ) : Bool :=
  match db.state.replayReceipt c.sha256Hex r.principalId r.idempotencyKey (c.requestFingerprint r.desired) with
  | .ok (.noReceipt, _) => true
  | _ => false

variable {answer : NetworkState.Answer} {o : Option NetworkState.State} {sha256Hex : ByteArray → String}
  {reservation : Option ℕ} {s : State τ} {c : Controller} {config : Option Config} {db : Database}
  {n : Normalized} {r : Apply τ} {profile : String} {credential : Option (List Char)}
  {s' : NetworkState.State} {fault : Option Fault} {result : Except Raised (Receipt × Bool) × State τ}
  {error : Raised}

/-- What `replay_receipt` answers. -/
theorem replayReceipt_ok {s : NetworkState.State} {p k f : String}
    (h : s.replayReceipt sha256Hex p k f = .ok (answer, o)) :
    (answer = .noReceipt ∧ s.receipts.lookup (NetworkState.scope sha256Hex p k) = none) ∨
      ∃ existing, s.receipts.lookup (NetworkState.scope sha256Hex p k) = some existing ∧ existing.requestFingerprint = f ∧
        answer = .receipt existing.receipt true := by
  obtain ⟨-, h⟩ := NetworkState.load_bind_eq_ok.1 h
  cases hlookup : s.receipts.lookup (NetworkState.scope sha256Hex p k) with
  | none =>
    rw [hlookup] at h
    cases h
    exact .inl ⟨rfl, rfl⟩
  | some existing =>
    rw [hlookup] at h
    obtain ⟨hsame, h⟩ := Checked.ite_error_eq_ok.1 h
    cases h
    exact .inr ⟨existing, rfl, not_not.1 hsame, rfl⟩

/-- What `accept_transaction` does for a request without a receipt. -/
theorem acceptTransaction_ok {s : NetworkState.State} {a : Acceptance}
    (h : s.acceptTransaction sha256Hex a = .ok (answer, o))
    (hnone : s.receipts.lookup (NetworkState.scope sha256Hex a.principalId a.idempotencyKey) = none) :
    ∃ operation s', o = some s' ∧ s'.valid = true ∧ s.current = none ∧
      answer = .receipt (a.entry (a.transaction operation s.authorityEpoch (s.sourceRevision + 1))).receipt false ∧
      s' = s.accept sha256Hex a (a.transaction operation s.authorityEpoch (s.sourceRevision + 1)) := by
  unfold NetworkState.State.acceptTransaction at h
  cases hoperation : NetworkState.Operation.ofName a.operation with
  | none =>
    rw [hoperation] at h
    cases h
  | some operation =>
    rw [hoperation] at h
    obtain ⟨-, h⟩ := Checked.ite_error_eq_ok.1 h
    obtain ⟨-, h⟩ := NetworkState.load_bind_eq_ok.1 h
    rw [hnone] at h
    obtain ⟨hbusy, h⟩ := Checked.ite_error_eq_ok.1 h
    obtain ⟨hvalid, rfl, rfl⟩ := NetworkState.validated_eq_ok h
    exact ⟨operation, _, rfl, hvalid, Option.not_isSome_iff_eq_none.1 hbusy, rfl, rfl⟩

/-- The reservation that the body was given is open. -/
def Open (s : Store τ) (reservation : Option ℕ) : Prop := ∀ i, reservation = some i → ∃ held entry, Held s i held entry

/-- What the body leaves of the credentials when it returns. -/
def Consumed (s t : Store τ) (reservation : Option ℕ) : Prop :=
  (reservation = none → t = s) ∧
    ∀ i held entry, reservation = some i → Held s i held entry → t.entries.lookup held.credentialRef = none ∧
      t.reservations[i]? = some { held with committed := true }

/-- What an acceptance does. -/
inductive Accepts (c : Controller) (s : State τ) (r : Apply τ) (n : Normalized) (config : Option Config)
    (reservation : Option ℕ) (fault : Option Fault) : Except Raised (Receipt × Bool) × State τ → Prop
  | read (error : StoreError) (hfault : fault = some (.acceptRead error)) : Accepts c s r n config reservation fault (.error error.raised, s)
  | refused (error : NetworkStateError) (hfault : ∀ e, fault ≠ some (.acceptRead e)) (hwritten : written c s.db r n config = none) :
      Accepts c s r n config reservation fault (.error (.networkState error), s)
  | raised (s' : NetworkState.State) (sqlite : Bool) (hfault : fault = some (.acceptWrite sqlite false))
      (hwritten : written c s.db r n config = some s') :
      Accepts c s r n config reservation fault (.error (if sqlite then .sqlite else .os), s)
  /-- The write is committed, and it raises. -/
  | lost (s' : NetworkState.State) (sqlite : Bool) (db : Database) (hfault : fault = some (.acceptWrite sqlite true))
      (hwritten : written c s.db r n config = some s') (hback : s'.comesBack = false) (hdb : db.state = s'.stored)
      (hfree : s.db.state.current = none) (hcurrent : s'.current.isSome = true) :
      Accepts c s r n config reservation fault (.error (if sqlite then .sqlite else .os), { s with db := db })
  | stored (s' : NetworkState.State) (db : Database) (credentials : Store τ) (operation : NetworkState.Operation) (receipt : Receipt)
      (hfault : ∀ e, fault ≠ some (.acceptRead e))
      (hwritten : written c s.db r n config = some s')
      (hback : ∀ sqlite committed, fault = some (.acceptWrite sqlite committed) → committed = true ∧ s'.comesBack = true)
      (hdb : db.state = s'.stored) (hvalid : s'.valid = true)
      (hs' : s' = s.db.state.accept c.sha256Hex (c.acceptance r n config) receipt.transaction)
      (hreceipt : receipt = ((c.acceptance r n config).entry
        ((c.acceptance r n config).transaction operation s.db.state.authorityEpoch (s.db.state.sourceRevision + 1))).receipt)
      (hcredentials : Consumed s.credentials credentials reservation) :
      Accepts c s r n config reservation fault (.ok (receipt, false), { s with db := db, credentials := credentials })

omit [LinearOrder τ] in
theorem commitReservation_ok (hopen : Open s.credentials reservation) :
    ∃ credentials, s.commitReservation reservation = (.ok (), { s with credentials := credentials }) ∧
      Consumed s.credentials credentials reservation := by
  cases reservation with
  | none => exact ⟨s.credentials, rfl, fun _ => rfl, fun i held entry hi => nomatch hi⟩
  | some i =>
    obtain ⟨held, entry, hheld⟩ := hopen i rfl
    obtain ⟨credentials, hcommit, hlookup, hreservation⟩ := hheld.commit
    refine ⟨credentials, ?_, fun hi => (nomatch hi), fun j held' entry' hj hheld' => ?_⟩
    · unfold State.commitReservation
      rw [Option.bind_some, hheld.reservation, Option.map_some]
      dsimp only
      rw [hcommit]
    · cases hj
      cases hheld.reservation.symm.trans hheld'.reservation
      exact ⟨hlookup, hreservation⟩

theorem write_cases (fault : Option Fault) :
    (write fault = .committed ∧ ∀ sqlite committed, fault ≠ some (.acceptWrite sqlite committed)) ∨
      ∃ sqlite committed, fault = some (.acceptWrite sqlite committed) := by
  rcases fault with _ | fault
  · exact .inl ⟨rfl, fun _ _ h => nomatch h⟩
  · cases fault with
    | acceptWrite sqlite committed => exact .inr ⟨sqlite, committed, rfl⟩
    | _ => exact .inl ⟨rfl, fun _ _ h => nomatch h⟩

theorem accept_accepts
    (hnone : s.db.state.receipts.lookup (NetworkState.scope c.sha256Hex r.principalId r.idempotencyKey) = none)
    (hopen : Open s.credentials reservation) :
    Accepts c s r n config reservation fault (accept c s r n config reservation fault) := by
  unfold accept
  split
  · exact .read _ rfl
  · rename_i hfault
    have hfault : ∀ e, fault ≠ some (.acceptRead e) := fun e he => hfault e he
    unfold Database.step
    cases hcall : s.db.state.acceptTransaction c.sha256Hex (c.acceptance r n config) with
    | error error =>
      simp only [NetworkState.Act.call, hcall]
      exact .refused error hfault (by unfold written; rw [hcall])
    | ok result =>
      obtain ⟨answer, o⟩ := result
      obtain ⟨operation, s', rfl, hvalid, hfree, hanswer, hs'⟩ := acceptTransaction_ok hcall hnone
      have hwritten : written c s.db r n config = some s' := by
        unfold written
        rw [hcall]
      -- the answer is returned, with the state stored
      have returned : ∀ db : Database, db.state = s'.stored →
          (∀ sqlite committed, fault = some (.acceptWrite sqlite committed) → committed = true ∧ s'.comesBack = true) →
          ∀ receipt, answer = .receipt receipt false → ∃ credentials,
            ({ s with db := db } : State τ).commitReservation reservation =
              (.ok (), { s with db := db, credentials := credentials }) ∧
            Accepts c s r n config reservation fault (.ok (receipt, false), { s with db := db, credentials := credentials }) := by
        intro db hdb hback receipt hreceipt
        obtain ⟨credentials, hcommit, hconsumed⟩ := commitReservation_ok (s := { s with db := db }) hopen
        have hreceipt := (NetworkState.Answer.receipt.inj (hanswer.symm.trans hreceipt)).1
        refine ⟨credentials, hcommit, .stored s' db credentials operation receipt hfault hwritten hback hdb hvalid ?_
          hreceipt.symm hconsumed⟩
        rw [← hreceipt]
        exact hs'
      simp only [NetworkState.Act.call, hcall, NetworkState.Act.write]
      rcases write_cases fault with ⟨hwrite, hother⟩ | ⟨sqlite, committed, rfl⟩
      · rw [hwrite]
        obtain ⟨credentials, hcommit, haccepts⟩ := returned ⟨s'.stored, s'.stored_stored⟩ rfl
          (fun sqlite committed h => absurd h (hother _ _)) _ hanswer
        simp only [Database.put, hanswer, if_true, hcommit]
        exact haccepts
      · cases committed with
        | false => 
          simp only [write, Database.put, Bool.false_eq_true, if_false]
          cases sqlite with
          | false => exact .raised s' false rfl hwritten
          | true => exact .raised s' true rfl hwritten
        | true => 
          cases hback : s'.comesBack with
          | true =>
            obtain ⟨credentials, hcommit, haccepts⟩ := returned ⟨s'.stored, s'.stored_stored⟩ rfl
              (fun sqlite committed h => by cases h; exact ⟨rfl, hback⟩) _ hanswer
            simp only [write, Database.put, hback, hanswer, Bool.and_self, if_true, hcommit]
            exact haccepts
          | false =>
            simp only [write, Database.put, hback, Bool.and_false, Bool.false_eq_true, if_false]
            have hcurrent : s'.current.isSome = true := by rw [hs']; rfl
            cases sqlite with
            | false => exact .lost s' false _ rfl hwritten hback rfl hfree hcurrent
            | true => exact .lost s' true _ rfl hwritten hback rfl hfree hcurrent

/-! ### What is recorded -/

/-- The transaction of the request is current, and its receipt is the one that is returned. -/
structure Recorded (c : Controller) (r : Apply τ) (db : Database) (receipt : Receipt) : Prop where
  current : ∃ t, db.state.current = some t ∧ t.transactionId = r.transactionId
  receipts : db.state.receipts.lookup (NetworkState.scope c.sha256Hex r.principalId r.idempotencyKey) =
    some ⟨c.requestFingerprint r.desired, receipt⟩
  transaction : receipt.transaction.transactionId = r.transactionId
  sealed : sealResponse (.accepted receipt false) = .accepted receipt false

theorem items_str_json (texts : List String) : Value.itemsAreJson (texts.map .str) = true := by
  induction texts with
  | nil => rfl
  | cons text texts ih => exact ih

theorem items_str_secret (texts : List String) : itemsContainSecretField (texts.map .str) = false := by
  induction texts with
  | nil => rfl
  | cons text texts ih => exact ih

theorem StaticIpv4.document_json (s : StaticIpv4) : s.document.isJson = true := by
  cases hgateway : s.gateway <;>
    simp [StaticIpv4.document, optional, hgateway, Value.isJson, Value.fieldsAreJson, items_str_json]

theorem Normalized.fields_json (n : Normalized) (credentialState : String) :
    Value.fieldsAreJson (n.fields credentialState) = true := by
  have hethernet : (n.ethernet.elim Value.none (·.document)).isJson = true := by
    rcases n.ethernet with _ | ethernet
    · rfl
    · cases ethernet with
      | dhcp => rfl
      | static ipv4 => simp [Ethernet.document, Value.isJson, Value.fieldsAreJson, ipv4.document_json]
  simp only [Normalized.fields, Value.fieldsAreJson, hethernet, Value.isJson, Bool.true_and, Bool.and_true]
  cases n.wifi <;> rfl

theorem acceptance_json (c : Controller) (r : Apply τ) (n : Normalized) (config : Option Config) :
    NetworkState.Act.isJson (.acceptTransaction (c.acceptance r n config) .committed) = true := by
  have hsafe : ∀ config : Config, Value.fieldsAreJson config.safe = true := by
    intro config
    cases config with
    | wifi ssid security psk => rfl
    | ethernetDhcp => rfl
    | ethernetStatic s =>
      cases hgateway : s.gateway <;>
        simp [Config.safe, hgateway, Value.isJson, Value.fieldsAreJson, items_str_json]
  unfold NetworkState.Act.isJson Controller.acceptance
  dsimp only
  rw [n.fields_json, Bool.true_and]
  cases config with
  | none => simp [Value.fieldsAreJson, Value.isJson, n.fields_json]
  | some config => simp [Value.fieldsAreJson, Value.isJson, n.fields_json, Controller.candidate, hsafe]

theorem secretField_plain : ∀ key ∈ ["mode", "wifi_client", "ethernet", "ssid", "security", "credential_state", "addressing",
    "static_ipv4", "address", "prefix_length", "gateway", "dns", "schema", "authority_epoch", "source_revision",
    "transaction_id", "operation", "status", "stage", "desired", "accepted_at", "updated_at", "deadline", "recovery_action",
    "rescue", "ap_validated", "fallback_mode", "failure_trigger_seconds", "error"], secretField key = false := by
  decide

theorem Normalized.fields_secret (n : Normalized) (credentialState : String) :
    fieldsContainSecretField (n.fields credentialState) = false := by
  have hethernet : containsSecretField (n.ethernet.elim Value.none (·.document)) = false := by
    rcases n.ethernet with _ | ethernet
    · rfl
    · cases ethernet with
      | dhcp => simp [Ethernet.document, containsSecretField, fieldsContainSecretField, secretField_plain]
      | static ipv4 =>
        cases hgateway : ipv4.gateway <;>
          simp [Ethernet.document, StaticIpv4.document, optional, hgateway, containsSecretField, fieldsContainSecretField,
            items_str_secret, secretField_plain]
  simp only [Normalized.fields, fieldsContainSecretField, hethernet]
  cases n.wifi <;> simp [containsSecretField, fieldsContainSecretField, secretField_plain]

/-- What an accepted transaction shows has no secret field. -/
theorem transaction_secret (c : Controller) (r : Apply τ) (n : Normalized) (config : Option Config)
    (operation : NetworkState.Operation) (epoch : String) (revision : ℕ) :
    containsSecretField ((c.acceptance r n config).transaction operation epoch revision).document = false := by
  simp only [NetworkState.Transaction.document, Acceptance.transaction, containsSecretField, fieldsContainSecretField,
    Controller.acceptance, n.fields_secret]
  simp [secretField_plain]

theorem recorded_of_stored {old : Database} {operation : NetworkState.Operation} {receipt : Receipt}
    (hnone : old.state.receipts.lookup (NetworkState.scope c.sha256Hex r.principalId r.idempotencyKey) = none)
    (hdb : db.state = (old.state.accept c.sha256Hex (c.acceptance r n config) receipt.transaction).stored)
    (hvalid : (old.state.accept c.sha256Hex (c.acceptance r n config) receipt.transaction).valid = true)
    (hreceipt : receipt = ((c.acceptance r n config).entry
      ((c.acceptance r n config).transaction operation old.state.authorityEpoch (old.state.sourceRevision + 1))).receipt) :
    Recorded c r db receipt := by
  have htransaction : receipt.transaction =
      (c.acceptance r n config).transaction operation old.state.authorityEpoch (old.state.sourceRevision + 1) := by
    rw [hreceipt]
    rfl
  rw [htransaction] at hdb hvalid
  rw [NetworkState.accept_loaded (acceptance_json c r n config) old.loaded] at hdb
  refine ⟨⟨_, by rw [hdb]; rfl, rfl⟩, ?_, by rw [htransaction]; rfl, ?_⟩
  · rw [hdb, hreceipt]
    change (old.state.receipts ++ [(NetworkState.scope c.sha256Hex r.principalId r.idempotencyKey, _)]).lookup _ = _
    rw [List.lookup_append, hnone, Option.none_or, lookup_singleton, if_pos rfl]
    rfl
  · -- the current transaction of a valid state is valid
    have hcurrent : receipt.transaction.valid = true := by
      unfold NetworkState.State.valid at hvalid
      simp only [Bool.and_eq_true] at hvalid
      rw [htransaction]
      exact hvalid.1.1.1.1.1.1.1.1.1.1.2
    have htime : receipt.acceptedAt = receipt.transaction.acceptedAt := by
      rw [hreceipt]
      rfl
    have hsecret : containsSecretField receipt.transaction.document = false := by
      rw [htransaction]
      exact transaction_secret _ _ _ _ _ _ _
    unfold sealResponse
    simp only [hcurrent, htime, hsecret]
    rfl

/-! ### The body of the reservation -/

/-- `prepare_network_candidate` takes the request. -/
def prepared (r : Apply τ) (config : Config) : Bool := validRequestId r.transactionId && config.valid

/-- The acceptance raises what no handler takes, raises behind a commit, or cannot discard what was refused. -/
def escapesAccept (c : Controller) (db : Database) (r : Apply τ) (n : Normalized) (config : Option Config)
    (fault : Option Fault) : Bool :=
  match fault with
  | some (.acceptRead error) => error = .sqlite
  | some (.acceptWrite sqlite committed) =>
    (written c db r n config).any fun s' => if committed then !s'.comesBack else sqlite
  | some (.discard removed) => config.isSome && !removed && (written c db r n config).isNone
  | _ => false

/-- The body does so, or the `stat` of its candidate fails, or it stops at an assertion. -/
def escapesBody (c : Controller) (db : Database) (r : Apply τ) (credential : Option (List Char)) (fault : Option Fault) : Bool :=
  match desiredAndConfig r.desired credential with
  | .error error => error.response.isNone
  | .ok (n, none) => escapesAccept c db r n none fault
  | .ok (n, some config) => prepared r config && (fault = some .statProfile || escapesAccept c db r n (some config) fault)

/-- What a body that raised must not do. -/
def Leaves (s : State τ) (error : Raised) (t : State τ) : Prop :=
  error.response = none ∨ t.db ≠ s.db ∨ t.profiles ≠ s.profiles

/-- What the body does; what it touches are the document, the profiles and, when it returns, the credentials. -/
inductive Body (c : Controller) (s : State τ) (r : Apply τ) (reservation : Option ℕ) (escapes : Bool) :
    Except Raised (Receipt × Bool) × State τ → Prop
  | clean (error : Raised) (hresponse : error.response ≠ none) (hescapes : escapes = false) :
      Body c s r reservation escapes (.error error, s)
  | leaves (error : Raised) (db : Database) (profiles : List String) (hescapes : escapes = true)
      (hleaves : Leaves s error { s with db := db, profiles := profiles }) :
      Body c s r reservation escapes (.error error, { s with db := db, profiles := profiles })
  | accepted (receipt : Receipt) (db : Database) (profiles : List String) (credentials : Store τ) (hescapes : escapes = false)
      (hrecorded : Recorded c r db receipt) (hcredentials : Consumed s.credentials credentials reservation)
      (hprofile : r.desired.mode ≠ "hotspot" → c.profileName r.transactionId r.desired.mode ∈ profiles) :
      Body c s r reservation escapes
        (.ok (receipt, false), { s with db := db, profiles := profiles, credentials := credentials })

omit [LinearOrder τ] in
theorem removeProfile_addProfile (h : profile ∉ s.profiles) : (s.addProfile profile).removeProfile profile = s := by
  have hfilter : s.profiles.filter (· ≠ profile) = s.profiles :=
    List.filter_eq_self.2 fun p hp => by simpa using ne_of_mem_of_not_mem hp h
  unfold State.removeProfile State.addProfile
  simp only [List.filter_append, hfilter]
  simp

omit [LinearOrder τ] in
theorem removeProfile_of_not_mem (h : profile ∉ s.profiles) : s.removeProfile profile = s := by
  have hfilter : s.profiles.filter (· ≠ profile) = s.profiles :=
    List.filter_eq_self.2 fun p hp => by simpa using ne_of_mem_of_not_mem hp h
  unfold State.removeProfile
  rw [hfilter]

omit [LinearOrder τ] in
theorem addProfile_ne (h : profile ∉ s.profiles) : (s.addProfile profile).profiles ≠ s.profiles := by
  intro heq
  rw [← heq] at h
  simp [State.addProfile] at h

/-- Only the hotspot has no configuration. -/
theorem mode_of_none {d : Desired} (h : desiredAndConfig d credential = .ok (n, none)) : d.mode = "hotspot" := by
  unfold desiredAndConfig at h
  split_ifs at h with hwifi hhotspot hdhcp
  · split at h
    · cases h
    · split_ifs at h
      cases h
  · exact hhotspot
  · cases h
  · split at h <;> cases h

/-- The mode of a configuration is that of the request. -/
theorem mode_of_config {d : Desired} {config : Config} (h : desiredAndConfig d credential = .ok (n, some config))
    (hmode : d.mode ∈ ["hotspot", "wifi-client", "ethernet-dhcp", "ethernet-static"]) : config.mode = d.mode := by
  unfold desiredAndConfig at h
  split_ifs at h with hwifi hhotspot hdhcp
  · split at h
    · cases h
    · split_ifs at h
      cases h
      exact hwifi.symm
  · cases h
  · cases h
    exact hdhcp.symm
  · split at h
    · cases h
      simp only [List.mem_cons, List.not_mem_nil, or_false] at hmode
      exact (((hmode.resolve_left hhotspot).resolve_left hwifi).resolve_left hdhcp).symm
    · cases h

theorem StoreError.response_eq_none {error : StoreError} : error.raised.response = none ↔ error = .sqlite := by
  cases error <;> simp [StoreError.raised, Raised.response]

/-- A stored state is another one, since its transaction is current. -/
theorem ne_of_stored {old : Database} (hdb : db.state = s'.stored) (hfree : old.state.current = none)
    (hcurrent : s'.current.isSome = true) : db ≠ old := by
  rintro rfl
  rw [hdb] at hfree
  obtain ⟨t, ht⟩ := Option.isSome_iff_exists.1 hcurrent
  simp [NetworkState.State.stored, ht] at hfree

theorem escapesAccept_refused
    (hfault : ∀ e, fault ≠ some (.acceptRead e)) (hwritten : written c db r n config = none) :
    escapesAccept c db r n config fault = (config.isSome && decide (fault = some (.discard false))) := by
  unfold escapesAccept
  split
  · exact absurd rfl (hfault _)
  · rw [hwritten]
    simp
  · rename_i removed
    cases removed <;> simp [hwritten]
  · rename_i hother
    have hne : fault ≠ some (.discard false) := fun h => hother _ h
    simp [hne]

theorem escapesAccept_stored (hfault : ∀ e, fault ≠ some (.acceptRead e))
    (hwritten : written c db r n config = some s')
    (hback : ∀ sqlite committed, fault = some (.acceptWrite sqlite committed) → committed = true ∧ s'.comesBack = true) :
    escapesAccept c db r n config fault = false := by
  unfold escapesAccept
  split
  · exact absurd rfl (hfault _)
  · obtain ⟨rfl, hcomes⟩ := hback _ _ rfl
    simp [hwritten, hcomes]
  · simp [hwritten]
  · rfl

/-- An acceptance without a candidate. -/
theorem Accepts.body (hmode : r.desired.mode = "hotspot")
    (hnone : s.db.state.receipts.lookup (NetworkState.scope c.sha256Hex r.principalId r.idempotencyKey) = none)
    (h : Accepts c s r n none reservation fault result) :
    Body c s r reservation (escapesAccept c s.db r n none fault) result := by
  cases h with
  | read error hfault =>
    subst hfault
    by_cases hsqlite : error = .sqlite
    · subst hsqlite
      exact .leaves _ s.db s.profiles rfl (.inl rfl)
    · exact .clean _ (fun h => hsqlite (StoreError.response_eq_none.1 h)) (by simpa [escapesAccept] using hsqlite)
  | refused error hfault hwritten => exact .clean _ (fun h => nomatch h) (by rw [escapesAccept_refused hfault hwritten]; rfl)
  | raised s' sqlite hfault hwritten =>
    subst hfault
    cases sqlite with
    | true => exact .leaves _ s.db s.profiles (by simp [escapesAccept, hwritten]) (.inl rfl)
    | false => exact .clean _ (fun h => nomatch h) (by simp [escapesAccept, hwritten])
  | lost s' sqlite db hfault hwritten hback hdb hfree hcurrent =>
    subst hfault
    exact .leaves _ db s.profiles (by simp [escapesAccept, hwritten, hback]) (.inr (.inl (ne_of_stored hdb hfree hcurrent)))
  | stored s' db credentials operation receipt hfault hwritten hback hdb hvalid hs' hreceipt hcredentials =>
    have hescapes := escapesAccept_stored hfault hwritten hback
    subst hs'
    exact .accepted receipt db s.profiles credentials hescapes (recorded_of_stored hnone hdb hvalid hreceipt) hcredentials
      fun h => absurd hmode h

/-- An acceptance with a candidate, and the handler behind it. -/
theorem Accepts.candidateBody {config : Config}
    (hmode : config.mode = r.desired.mode) (hprofile : c.profileName r.transactionId config.mode ∉ s.profiles)
    (hnone : s.db.state.receipts.lookup (NetworkState.scope c.sha256Hex r.principalId r.idempotencyKey) = none)
    (h : Accepts c (s.addProfile (c.profileName r.transactionId config.mode)) r n (some config) reservation fault result) :
    Body c s r reservation (escapesAccept c s.db r n (some config) fault) (unwind c r config fault result) := by
  -- what is not discarded stays
  have kept : ∀ error : Raised, escapesAccept c s.db r n (some config) fault = true →
      Body c s r reservation (escapesAccept c s.db r n (some config) fault)
        (.error error, s.addProfile (c.profileName r.transactionId config.mode)) := fun error hescapes =>
    .leaves error s.db _ hescapes (.inr (.inr (addProfile_ne hprofile)))
  have gone : ∀ error : Raised, error.response ≠ none → escapesAccept c s.db r n (some config) fault = false →
      Body c s r reservation (escapesAccept c s.db r n (some config) fault)
        (.error error, (s.addProfile (c.profileName r.transactionId config.mode)).removeProfile
          (c.profileName r.transactionId config.mode)) := by
    intro error hresponse hescapes
    rw [removeProfile_addProfile hprofile]
    exact .clean error hresponse hescapes
  cases h with
  | read error hfault =>
    subst hfault
    cases error with
    | network => exact gone _ (fun h => nomatch h) rfl
    | os => exact gone _ (fun h => nomatch h) rfl
    | sqlite => exact kept _ rfl
  | refused error hfault hwritten =>
    have hescapes : escapesAccept c s.db r n (some config) fault = decide (fault = some (.discard false)) :=
      escapesAccept_refused hfault hwritten
    by_cases hdiscard : fault = some (.discard false)
    · subst hdiscard
      exact kept _ (by rw [hescapes]; rfl)
    · have hgone := gone (.networkState error) (fun h => nomatch h) (by rw [hescapes]; simpa using hdiscard)
      rcases fault with _ | fault
      · exact hgone
      · cases fault with
        | discard removed =>
          cases removed with
          | true => exact hgone
          | false => exact absurd rfl hdiscard
        | _ => exact hgone
  | raised s' sqlite hfault hwritten =>
    subst hfault
    have hwritten : written c s.db r n (some config) = some s' := hwritten
    cases sqlite with
    | true => exact kept _ (by simp [escapesAccept, hwritten])
    | false => exact gone _ (fun h => nomatch h) (by simp [escapesAccept, hwritten])
  | lost s' sqlite db hfault hwritten hback hdb hfree hcurrent =>
    subst hfault
    have hwritten : written c s.db r n (some config) = some s' := hwritten
    have hescapes : escapesAccept c s.db r n (some config) (some (.acceptWrite sqlite true)) = true := by
      simp [escapesAccept, hwritten, hback]
    have hne : db ≠ s.db := ne_of_stored hdb hfree hcurrent
    cases sqlite with
    | true => exact .leaves _ db _ hescapes (.inr (.inl hne))
    | false => exact .leaves _ db _ hescapes (.inr (.inl hne))
  | stored s' db credentials operation receipt hfault hwritten hback hdb hvalid hs' hreceipt hcredentials =>
    have hescapes := escapesAccept_stored hfault hwritten hback
    subst hs'
    refine .accepted receipt db _ credentials hescapes (recorded_of_stored hnone hdb hvalid hreceipt) hcredentials fun _ => ?_
    rw [hmode]
    exact List.mem_append_right _ (List.mem_singleton_self _)

/-- The id of the transaction is new. -/
structure Fresh (c : Controller) (s : State τ) (r : Apply τ) : Prop where
  queue : r.transactionId ∉ s.queue
  queued : r.transactionId ∉ s.queued
  deferred : r.transactionId ∉ s.deferred
  profiles : ∀ mode, c.profileName r.transactionId mode ∉ s.profiles

theorem Apply.mode_mem (h : r.valid = true) :
    r.desired.mode ∈ ["hotspot", "wifi-client", "ethernet-dhcp", "ethernet-static"] := by
  unfold Apply.valid Desired.valid at h
  simp only [Bool.and_eq_true, decide_eq_true_eq] at h
  exact h.2.1.1.1

/-- What the preparation of a candidate does. -/
inductive Prepares (c : Controller) (s : State τ) (r : Apply τ) (n : Normalized) (config : Config) (fault : Option Fault) :
    Except Raised Unit × State τ → Prop
  | refused (error : Raised) (hresponse : error.response ≠ none)
      (hescapes : (prepared r config && (fault = some .statProfile || escapesAccept c s.db r n (some config) fault)) = false) :
      Prepares c s r n config fault (.error error, s)
  | left (hprepared : prepared r config = true) (hfault : fault = some .statProfile) :
      Prepares c s r n config fault (.error (.network "profile_missing"), s.addProfile (c.profileName r.transactionId config.mode))
  | ready (hprepared : prepared r config = true) (hfault : fault ≠ some .statProfile) :
      Prepares c s r n config fault (.ok (), s.addProfile (c.profileName r.transactionId config.mode))

theorem prepare_prepares (n : Normalized) {config : Config} (fault : Option Fault)
    (hprofile : c.profileName r.transactionId config.mode ∉ s.profiles) :
    Prepares c s r n config fault (prepareNetworkCandidate c s r.transactionId config fault) := by
  unfold prepareNetworkCandidate
  dsimp only
  split_ifs with hid hconfig
  · refine .refused _ (fun h => nomatch h) ?_
    rw [Bool.not_eq_true'] at hid
    simp [prepared, hid]
  · refine .refused _ (fun h => nomatch h) ?_
    rw [Bool.not_eq_true'] at hconfig
    simp [prepared, hconfig]
  · have hprepared : prepared r config = true := by
      simp only [Bool.not_eq_true, Bool.not_eq_false'] at hid hconfig
      simp [prepared, hid, hconfig]
    rcases fault with _ | fault
    · exact .ready hprepared fun h => nomatch h
    · cases fault with
      | prepare code => exact .refused _ (fun h => nomatch h) (by simp [escapesAccept])
      | writeProfile written =>
        cases written with
        | true =>
          simp only [if_true]
          rw [removeProfile_addProfile hprofile]
          exact .refused _ (fun h => nomatch h) (by simp [escapesAccept])
        | false =>
          simp only [Bool.false_eq_true, if_false]
          rw [removeProfile_of_not_mem hprofile]
          exact .refused _ (fun h => nomatch h) (by simp [escapesAccept])
      | writeService error =>
        dsimp only
        rw [removeProfile_addProfile hprofile]
        exact .refused _ (by cases error <;> exact fun h => nomatch h) (by simp [escapesAccept])
      | reload code =>
        dsimp only
        rw [removeProfile_addProfile hprofile]
        exact .refused _ (fun h => nomatch h) (by simp [escapesAccept])
      | statProfile => exact .left hprepared rfl
      | _ => exact .ready hprepared fun h => nomatch h

theorem reserved_body (fault : Option Fault)
    (hvalid : r.valid = true) (hprofiles : ∀ mode, c.profileName r.transactionId mode ∉ s.profiles)
    (hnone : s.db.state.receipts.lookup (NetworkState.scope c.sha256Hex r.principalId r.idempotencyKey) = none)
    (hopen : Open s.credentials reservation) :
    Body c s r reservation (escapesBody c s.db r (seen s.credentials reservation) fault)
      (reserved c s r reservation fault) := by
  unfold reserved escapesBody
  cases hdesired : desiredAndConfig r.desired (seen s.credentials reservation) with
  | error error =>
    dsimp only
    cases hresponse : error.response with
    | none => exact .leaves error s.db s.profiles rfl (.inl hresponse)
    | some response => exact .clean error (by simp [hresponse]) rfl
  | ok result =>
    obtain ⟨n, _ | config⟩ := result
    · exact (accept_accepts hnone hopen).body (mode_of_none hdesired) hnone
    dsimp only
    have hprofile := hprofiles config.mode
    have hprepares := prepare_prepares n fault hprofile
    generalize prepareNetworkCandidate c s r.transactionId config fault = result at hprepares
    cases hprepares with
    | refused error hresponse hescapes =>
      rw [hescapes]
      exact .clean error hresponse rfl
    | left hprepared hfault =>
      refine .leaves _ s.db _ ?_ (.inr (.inr (addProfile_ne hprofile)))
      simp [hprepared, hfault]
    | ready hprepared hfault =>
      have haccepts : Accepts c (s.addProfile (c.profileName r.transactionId config.mode)) r n (some config) reservation
        fault _ := accept_accepts hnone hopen
      have hbody := haccepts.candidateBody (mode_of_config hdesired (Apply.mode_mem hvalid)) hprofile hnone
      simpa [hprepared, hfault] using hbody

/-! ### The reservation -/

/-- The credential that the request gets, or none for a network without one, unless its reservation is refused. -/
def offered (s : Store τ) (r : Apply τ) : Option (Option (List Char)) :=
  match r.desired.protectedRef with
  | none => some none
  | some credentialRef =>
    match s.reserve r.reservedAt credentialRef with
    | (.ok i, s) => some (seen s (some i))
    | (.error _, _) => none

def escapesReservation (c : Controller) (s : State τ) (r : Apply τ) (fault : Option Fault) : Bool :=
  (offered s.credentials r).any fun credential => escapesBody c s.db r credential fault

/-- The reference of the request is as good as before, until it expires. -/
def Usable (r : Apply τ) (s t : Store τ) : Prop :=
  ∀ credentialRef entry, r.desired.protectedRef = some credentialRef → s.entries.lookup credentialRef = some entry →
    entry.reserved = false → r.closedAt < entry.expiresAt → t.entries.lookup credentialRef = some entry

/-- What the `with` block does. -/
inductive Done (c : Controller) (s : State τ) (r : Apply τ) (escapes : Bool) :
    Except Raised (Receipt × Bool) × State τ → Prop
  | failed (error : Raised) (db : Database) (profiles : List String) (credentials : Store τ)
      (husable : Usable r s.credentials credentials)
      (hescapes : escapes = true ↔ Leaves s error { s with db := db, profiles := profiles, credentials := credentials }) :
      Done c s r escapes (.error error, { s with db := db, profiles := profiles, credentials := credentials })
  | accepted (receipt : Receipt) (db : Database) (profiles : List String) (credentials : Store τ) (hescapes : escapes = false)
      (hrecorded : Recorded c r db receipt)
      (hprofile : r.desired.mode ≠ "hotspot" → c.profileName r.transactionId r.desired.mode ∈ profiles)
      (hconsumed : ∀ credentialRef, r.desired.protectedRef = some credentialRef →
        credentials.entries.lookup credentialRef = none) :
      Done c s r escapes (.ok (receipt, false), { s with db := db, profiles := profiles, credentials := credentials })

omit [LinearOrder τ] in
theorem not_leaves (credentials : Store τ) (h : error.response ≠ none) :
    ¬Leaves s error { s with credentials := credentials } := by
  rintro (hresponse | hdb | hprofiles)
  · exact h hresponse
  · exact hdb rfl
  · exact hprofiles rfl

theorem withReservation_done (hvalid : r.valid = true)
    (hprofiles : ∀ mode, c.profileName r.transactionId mode ∉ s.profiles)
    (hnone : s.db.state.receipts.lookup (NetworkState.scope c.sha256Hex r.principalId r.idempotencyKey) = none) :
    Done c s r (escapesReservation c s r fault) (withReservation c s r fault) := by
  unfold withReservation escapesReservation offered
  cases hprotected : r.desired.protectedRef with
  | none =>
    have hbody : Body c s r none _ _ := reserved_body fault hvalid hprofiles hnone fun i hi => (nomatch hi)
    have husable : Usable r s.credentials s.credentials := fun _ _ href => by rw [hprotected] at href; cases href
    dsimp only
    rw [Option.any_some]
    change Body c s r none (escapesBody c s.db r none fault) _ at hbody
    generalize reserved c s r none fault = result at hbody
    cases hbody with
    | clean error hresponse hescapes =>
      rw [hescapes]
      exact .failed error s.db s.profiles s.credentials husable
        ⟨fun h => (nomatch h), fun h => absurd h (not_leaves s.credentials hresponse)⟩
    | leaves error db profiles hescapes hleaves =>
      rw [hescapes]
      exact .failed error db profiles s.credentials husable ⟨fun _ => hleaves, fun _ => rfl⟩
    | accepted receipt db profiles credentials hescapes hrecorded hcredentials hprofile =>
      refine .accepted receipt db profiles credentials hescapes hrecorded hprofile fun credentialRef href => ?_
      rw [hprotected] at href
      cases href
  | some credentialRef =>
    dsimp only
    cases hreserve : s.credentials.reserve r.reservedAt credentialRef with
    | mk outcome reserving =>
    cases outcome with
    | error error =>
      obtain ⟨⟨code, rfl⟩, hkept⟩ := reserve_error hreserve
      refine .failed _ s.db s.profiles reserving ?_
        ⟨fun h => (nomatch h), fun h => absurd h (not_leaves reserving fun h => nomatch h)⟩
      intro credentialRef' entry href hlookup _ hlt
      cases hprotected.symm.trans href
      exact hkept entry hlookup (r.ordered.trans_lt hlt)
    | ok i =>
      obtain ⟨held, entry, hlookup, hfree, rfl, -, hheld⟩ := reserve_ok hreserve
      have hopen : Open reserving (some i) := fun j hj => by
        cases hj
        exact ⟨held, entry, hheld⟩
      have hbody := reserved_body (s := { s with credentials := reserving }) fault hvalid hprofiles hnone hopen
      dsimp only at hbody ⊢
      rw [Option.any_some]
      -- the close of a reservation that was not committed
      have hclose : ∀ (db : Database) (profiles : List String),
          ({ s with db := db, profiles := profiles, credentials := reserving } : State τ).closeReservation r.closedAt i =
            { s with db := db, profiles := profiles, credentials := reserving.close r.closedAt i held } := by
        intro db profiles
        unfold State.closeReservation
        dsimp only
        rw [hheld.reservation]
      have husable : Usable r s.credentials (reserving.close r.closedAt i held) := by
        intro credentialRef' entry' href hlookup' _ hlt
        cases hprotected.symm.trans href
        cases hlookup.symm.trans hlookup'
        exact hheld.close hfree hlt
      generalize reserved c { s with credentials := reserving } r (some i) fault = result at hbody
      cases hbody with
      | clean error hresponse hescapes =>
        rw [hescapes]
        dsimp only
        rw [hclose s.db s.profiles]
        exact .failed error s.db s.profiles _ husable
          ⟨fun h => (nomatch h), fun h => absurd h (not_leaves (reserving.close r.closedAt i held) hresponse)⟩
      | leaves error db profiles hescapes hleaves =>
        rw [hescapes]
        dsimp only
        rw [hclose db profiles]
        exact .failed error db profiles _ husable ⟨fun _ => hleaves, fun _ => rfl⟩
      | accepted receipt db profiles credentials hescapes hrecorded hcredentials hprofile =>
        obtain ⟨hgone, hcommitted⟩ := hcredentials.2 i held entry rfl hheld
        dsimp only
        unfold State.closeReservation
        dsimp only
        rw [hcommitted]
        refine .accepted receipt db profiles _ hescapes hrecorded hprofile fun credentialRef' href => ?_
        cases hprotected.symm.trans href
        rw [close_committed _ _ _ rfl]
        exact hgone

/-! ### One request -/

/-- The transaction of the request is accepted, scheduled once, and has all it needs. -/
structure Accepted (c : Controller) (r : Apply τ) (receipt : Receipt) (t : State τ) : Prop where
  recorded : Recorded c r t.db receipt
  scheduled : (t.queue ++ t.deferred).count r.transactionId = 1
  profile : r.desired.mode ≠ "hotspot" → c.profileName r.transactionId r.desired.mode ∈ t.profiles
  consumed : ∀ credentialRef, r.desired.protectedRef = some credentialRef →
    t.credentials.entries.lookup credentialRef = none

/-- No stored transaction has the id. -/
def Unstored (db : Database) (id : String) : Prop := ∀ x, NetworkState.Stored db.state x → x.transactionId ≠ id

/-- Nothing of the request is left. -/
structure Refused (s : State τ) (r : Apply τ) (t : State τ) : Prop where
  db : t.db = s.db
  unstored : Unstored s.db r.transactionId → Unstored t.db r.transactionId
  profiles : t.profiles = s.profiles
  queue : t.queue = s.queue
  queued : t.queued = s.queued
  pending : t.pending = s.pending
  deferred : t.deferred = s.deferred
  usable : Usable r s.credentials t.credentials

/-- The response and what was done: an acceptance, the receipt of an earlier one, or a refusal. -/
def Atomic (c : Controller) (s : State τ) (r : Apply τ) (result : Option Response × State τ) : Prop :=
  (∃ receipt, result.1 = some (.accepted receipt false) ∧ Accepted c r receipt result.2) ∨
    (∃ receipt, result.1 = some (.accepted receipt true) ∧ result.2 = s ∧
      s.db.state.receipts.lookup (NetworkState.scope c.sha256Hex r.principalId r.idempotencyKey) =
        some ⟨c.requestFingerprint r.desired, receipt⟩) ∨
    ∃ code message retryable, result.1 = some (.error code message retryable) ∧ Refused s r result.2

/-- The failing steps, where they are reached, that are not undone: a `sqlite3.Error`, the `stat` of a candidate, the
discard of a refused one, and a write behind its commit that is not recognised; and a static address without one. -/
def escapes (c : Controller) (s : State τ) (r : Apply τ) (fault : Option Fault) : Bool :=
  match fault with
  | some (.replayReceipt error) => error = .sqlite
  | some (.operationLock _) => false
  | some (.snapshot error) => unanswered c s.db r && error = .sqlite
  | fault => unanswered c s.db r && s.db.state.current.isNone && escapesReservation c s r fault

theorem response_cases (error : Raised) :
    error.response = none ∨ ∃ code message retryable, error.response = some (.error code message retryable) := by
  cases error with
  | sqlite => exact .inl rfl
  | assertion => exact .inl rfl
  | _ => exact .inr ⟨_, _, _, rfl⟩

/-- A request that raised is refused, unless it leaves something. -/
theorem atomic_failed_iff (db : Database)
    (profiles : List String) {credentials : Store τ} (husable : Usable r s.credentials credentials) :
    Atomic c s r (error.response.map sealResponse, { s with db := db, profiles := profiles, credentials := credentials }) ↔
      ¬Leaves s error { s with db := db, profiles := profiles, credentials := credentials } := by
  rcases response_cases error with hresponse | ⟨code, message, retryable, hresponse⟩
  · rw [hresponse]
    refine ⟨fun h => ?_, fun h => absurd (.inl hresponse) h⟩
    rcases h with ⟨_, h, _⟩ | ⟨_, h, _⟩ | ⟨_, _, _, h, _⟩ <;> cases h
  · rw [hresponse]
    constructor
    · rintro (⟨_, h, _⟩ | ⟨_, h, _⟩ | ⟨_, _, _, _, hrefused⟩)
      · cases h
      · cases h
      · rintro (hnone | hdb | hprofiles)
        · rw [hresponse] at hnone
          cases hnone
        · exact hdb hrefused.db
        · exact hprofiles hrefused.profiles
    · intro h
      refine .inr (.inr ⟨code, message, retryable, rfl, ?_⟩)
      unfold Leaves at h
      push Not at h
      exact ⟨h.2.1, fun hnew => (show db = s.db from h.2.1) ▸ hnew, h.2.2, rfl, rfl, rfl, rfl, husable⟩

theorem Usable.refl (r : Apply τ) (s : Store τ) : Usable r s s := fun _ _ _ hlookup _ _ => hlookup

/-- A request that raised in front of everything. -/
theorem atomic_unchanged_iff : Atomic c s r (error.response.map sealResponse, s) ↔ error.response ≠ none := by
  refine (atomic_failed_iff s.db s.profiles (Usable.refl r s.credentials)).trans ?_
  exact ⟨fun h hnone => h (.inl hnone), not_leaves s.credentials⟩

/-- The receipt of an earlier acceptance is answered, or its seal refuses it. -/
theorem atomic_replayed {receipt : Receipt}
    (hlookup : s.db.state.receipts.lookup (NetworkState.scope c.sha256Hex r.principalId r.idempotencyKey) =
      some ⟨c.requestFingerprint r.desired, receipt⟩) :
    Atomic c s r (some (sealResponse (.accepted receipt true)), s) := by
  unfold sealResponse
  dsimp only
  split_ifs with hseal
  · exact .inr (.inl ⟨receipt, rfl, rfl, hlookup⟩)
  · exact .inr (.inr ⟨_, _, _, rfl, rfl, id, rfl, rfl, rfl, rfl, rfl, .refl r s.credentials⟩)

theorem schedule_count (hopen : s.closed = false) (hqueue : r.transactionId ∉ s.queue)
    (hqueued : r.transactionId ∉ s.queued) (hdeferred : r.transactionId ∉ s.deferred) :
    ((schedule c s r.transactionId).queue ++ (schedule c s r.transactionId).deferred).count r.transactionId = 1 := by
  unfold schedule
  rw [hopen, if_neg hdeferred, if_neg hqueued]
  split_ifs with hdefer hfalse
  · simp [List.count_eq_zero.2 hqueue, List.count_eq_zero.2 hdeferred]
  · cases hfalse
  · simp [List.count_eq_zero.2 hqueue, List.count_eq_zero.2 hdeferred]

/-- Behind the locks and the check for another transaction. -/
theorem done_atomic_iff {escapes : Bool} (hopen : s.closed = false) (hfresh : Fresh c s r)
    (h : Done c s r escapes result) : Atomic c s r (respond (scheduled c r result)) ↔ escapes = false := by
  cases h with
  | failed error db profiles credentials husable hescapes =>
    refine (atomic_failed_iff _ _ husable).trans ?_
    rw [← hescapes, Bool.not_eq_true]
  | accepted receipt db profiles credentials hescapes hrecorded hprofile hconsumed =>
    refine ⟨fun _ => hescapes, fun _ => .inl ⟨receipt, ?_, ?_⟩⟩
    · exact congrArg some hrecorded.sealed
    · have hcount := schedule_count (c := c) (s := { s with db := db, profiles := profiles, credentials := credentials })
        (r := r) hopen hfresh.queue hfresh.queued hfresh.deferred
      obtain ⟨queue, queued, pending, deferred, hschedule⟩ : ∃ queue queued pending deferred,
          schedule c { s with db := db, profiles := profiles, credentials := credentials } r.transactionId =
            { s with
              db := db, profiles := profiles, credentials := credentials, queue := queue, queued := queued
              pending := pending, deferred := deferred } := by
        unfold schedule
        split_ifs <;> exact ⟨_, _, _, _, rfl⟩
      change Accepted c r receipt (schedule c _ r.transactionId)
      rw [hschedule] at hcount ⊢
      exact ⟨hrecorded, hcount, hprofile, hconsumed⟩

theorem escapes_of_answered
    (hfault : ∀ error, fault ≠ some (.replayReceipt error)) (h : unanswered c s.db r = false) : escapes c s r fault = false := by
  unfold escapes
  split
  · exact absurd rfl (hfault _)
  · rfl
  · simp [h]
  · simp [h]

/-- A store that raises is refused, unless no handler takes what it raises. -/
theorem atomic_store_iff (error : StoreError) :
    Atomic c s r (respond (.error error.raised, s)) ↔ decide (error = .sqlite) = false := by
  refine atomic_unchanged_iff.trans ?_
  rw [ne_eq, StoreError.response_eq_none, decide_eq_false_iff_not]

/-- An accepted request is all or nothing, unless a failing step escapes. -/
theorem apply_atomic_iff (c : Controller) (s : State τ) (r : Apply τ) (fault : Option Fault) (hvalid : r.valid = true)
    (hopen : s.closed = false) (hfresh : Fresh c s r) :
    Atomic c s r (handle c s r fault) ↔ escapes c s r fault = false := by
  unfold handle acceptApply
  rw [hopen, if_neg (by simp)]
  split
  · exact atomic_store_iff _
  rename_i hread
  have hread : ∀ error, fault ≠ some (.replayReceipt error) := fun error h => hread error h
  split
  · -- the replay is refused
    rename_i error hreplay
    refine iff_of_true (atomic_unchanged_iff.2 fun h => nomatch h) (escapes_of_answered hread ?_)
    unfold unanswered
    rw [hreplay]
  · -- the request has a receipt
    rename_i receipt replayed o hreplay
    rcases replayReceipt_ok hreplay with ⟨hanswer, -⟩ | ⟨existing, hlookup, hsame, hanswer⟩
    · cases hanswer
    obtain ⟨rfl, rfl⟩ := NetworkState.Answer.receipt.inj hanswer
    refine iff_of_true (atomic_replayed ?_) (escapes_of_answered hread ?_)
    · rw [hlookup, ← hsame]
    · unfold unanswered
      rw [hreplay]
  · rename_i result hother hreplay
    obtain ⟨answer, o⟩ := result
    rcases replayReceipt_ok hreplay with ⟨rfl, hnone⟩ | ⟨existing, -, -, rfl⟩
    · have hunanswered : unanswered c s.db r = true := by
        unfold unanswered
        rw [hreplay]
      split
      · exact iff_of_true (atomic_unchanged_iff.2 fun h => nomatch h) rfl
      · refine (atomic_store_iff _).trans ?_
        unfold escapes
        dsimp only
        rw [hunanswered, Bool.true_and]
      · rename_i hlock hsnapshot
        have hescapes : escapes c s r fault = (s.db.state.current.isNone && escapesReservation c s r fault) := by
          unfold escapes
          split
          · exact absurd rfl (hread _)
          · exact absurd rfl (hlock _)
          · exact absurd rfl (hsnapshot _)
          · rw [hunanswered, Bool.true_and]
        rw [hescapes]
        split_ifs with hcurrent
        · refine iff_of_true (atomic_unchanged_iff.2 fun h => nomatch h) ?_
          rw [← Option.not_isSome, hcurrent]
          rfl
        · rw [Bool.not_eq_true] at hcurrent
          rw [← Option.not_isSome, hcurrent, Bool.not_false, Bool.true_and]
          exact done_atomic_iff hopen hfresh (withReservation_done hvalid hfresh.profiles hnone)
    · exact absurd rfl (hother _ _ _)

def sampleController : Controller where
  sha256Hex := NetworkState.sampleDigest
  requestFingerprint _ := "bbbbbbbbbbbbbbbbbbbbbbbbbbbbbbbbbbbbbbbbbbbbbbbbbbbbbbbbbbbbbbbb"
  deferExecutionUntilResponse := false

def sampleState : State ℕ where
  db := NetworkState.sampleInit
  credentials := {}
  profiles := []
  closed := false
  queue := []
  queued := []
  pending := 0
  deferred := []

/-- An open Wi-Fi network. -/
def sampleApply : Apply ℕ where
  principalId := "customer"
  idempotencyKey := "idem-1"
  desired := ⟨"wifi-client", some ⟨"Field LAN", "open", none⟩, none⟩
  transactionId := NetworkState.sampleId
  acceptedAt := "2026-08-23T15:00:00+08:00"
  reservedAt := 0
  closedAt := 1
  ordered := Nat.zero_le 1

/-- A static address with the wire of a dynamic one. -/
def sampleStatic : Apply ℕ := { sampleApply with desired := ⟨"ethernet-static", none, some .dhcp⟩ }

theorem apply_atomic_iff_sample :
    Atomic sampleController sampleState sampleApply
      (handle sampleController sampleState sampleApply (some (.acceptWrite true true))) :=
  (apply_atomic_iff sampleController sampleState sampleApply _ (by decide +kernel) rfl
    ⟨by simp [sampleState], by simp [sampleState], by simp [sampleState], by simp [sampleState]⟩).2 (by decide +kernel)

/-- A `sqlite3.Error` of the write leaves the handler without a response and with the profile of the candidate; and a
valid request for a static address stops at an assertion, with no step that fails. -/
theorem apply_escapes :
    sampleApply.valid = true ∧ sampleStatic.valid = true ∧
      (handle sampleController sampleState sampleApply (some (.acceptWrite true false))).2.profiles.length = 1 ∧
      ¬Atomic sampleController sampleState sampleApply
        (handle sampleController sampleState sampleApply (some (.acceptWrite true false))) ∧
      ¬Atomic sampleController sampleState sampleStatic (handle sampleController sampleState sampleStatic none) := by
  -- without a response nothing was answered
  have silent : ∀ (r : Apply ℕ) (result : Option Response × State ℕ), result.1.isNone = true →
      ¬Atomic sampleController sampleState r result := by
    rintro r ⟨response, t⟩ hnone (⟨_, h, _⟩ | ⟨_, h, _⟩ | ⟨_, _, _, h, _⟩) <;> rw [h] at hnone <;> cases hnone
  exact ⟨by decide +kernel, by decide +kernel, by decide +kernel, silent _ _ (by decide +kernel),
    silent _ _ (by decide +kernel)⟩

end Conductor.NetworkApply
