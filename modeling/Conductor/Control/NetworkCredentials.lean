import Conductor.Lib.KeyTable
import Conductor.Lib.Runs
import Mathlib.Algebra.Order.Ring.Int

/-! The store of short-lived Wi-Fi credentials and the reservations that refer to its entries by name. What
runs under the lock is one step; `discard` and `clear` take entries out under the lock and wipe them after
it. The calls on one reservation come one after the other, as its `with` block makes them. -/

namespace Conductor.NetworkCredentials

open KeyTable

inductive CredentialError where
  /-- `NetworkCredentialError` with its code -/
  | credential (code : String)
  /-- `RuntimeError` -/
  | runtime (message : String)

/-- `_Credential`. The number tells one entry from another; it is not in the source. -/
structure Credential (τ : Type) where
  id : ℕ
  value : List UInt8
  expiresAt : τ
  reserved : Bool := false

/-- `NetworkCredentialReservation`. The number of its entry and the time of its opening are not in the
source. -/
structure Reservation (τ : Type) where
  credentialRef : String
  credential : List Char
  committed : Bool := false
  closed : Bool := false
  entry : ℕ
  openedAt : τ

/-- The limits of a store: `max_entries`, and when what is created at a time expires. -/
structure Config (τ : Type) where
  maxEntries : ℕ
  expiry : τ → τ

/-- The entries; the reservations in the order of their opening; the entries that `discard` and `clear`
have taken out and not wiped yet; those that left, as they are now; and what was created, a text with its
expiry each. -/
structure Store (τ : Type) where
  entries : List (String × Credential τ) := []
  reservations : List (Reservation τ) := []
  popped : List (Credential τ) := []
  gone : List (Credential τ) := []
  created : List (List Char × τ) := []

def utf8 (text : List Char) : List UInt8 := text.flatMap String.utf8EncodeChar

/-- `_wipe`. -/
def wipe (value : List UInt8) : List UInt8 := value.map fun _ => 0

def Credential.wiped {τ : Type} (c : Credential τ) : Credential τ := { c with value := wipe c.value }

def isRefChar (c : Char) : Bool := c.isAlphanum || c ∈ ['_', '.', ':', '-']

/-- `CREDENTIAL_REF_PATTERN`. -/
def validRef (credentialRef : String) : Bool :=
  "cred-".toList.isPrefixOf credentialRef.toList && credentialRef.toList.drop 5 ≠ [] &&
    (credentialRef.toList.drop 5).all isRefChar

section Operations

variable {τ : Type} [LinearOrder τ]

/-- An entry is taken out and wiped. -/
def Store.remove (s : Store τ) (credentialRef : String) (entry : Credential τ) : Store τ :=
  { s with entries := delete s.entries credentialRef, gone := s.gone ++ [entry.wiped] }

def expired (now : τ) (row : String × Credential τ) : Bool := row.2.expiresAt ≤ now && !row.2.reserved

/-- `_purge_expired_locked`. -/
def Store.purge (s : Store τ) (now : τ) : Store τ :=
  { s with
    entries := s.entries.filter fun row => !expired now row
    gone := s.gone ++ (s.entries.filter (expired now)).map fun row => row.2.wiped }

/-- The first acceptable one of eight references of the token factory. -/
def Store.chooseRef (s : Store τ) (token : ℕ → String) : Option String :=
  ((List.range 8).map fun i => "cred-" ++ token i).find? fun credentialRef =>
    credentialRef.length ≤ 128 && validRef credentialRef && (s.entries.lookup credentialRef).isNone

def validCredential (credential : List Char) : Bool :=
  8 ≤ (utf8 credential).length && (utf8 credential).length ≤ 63 && credential.all fun c => 32 ≤ c.toNat

/-- The new entry of a credential. -/
def Store.add (config : Config τ) (s : Store τ) (now : τ) (credential : List Char) (credentialRef : String) : Store τ :=
  { s with
    entries := s.entries ++ [(credentialRef, ⟨s.created.length, utf8 credential, config.expiry now, false⟩)]
    created := s.created ++ [(credential, config.expiry now)] }

/-- `create`. -/
def Store.create (config : Config τ) (s : Store τ) (now : τ) (credential : List Char) (token : ℕ → String) :
    Except CredentialError String × Store τ :=
  if ¬ validCredential credential then (.error (.credential "credential_invalid"), s)
  else
    let s := s.purge now
    if config.maxEntries ≤ s.entries.length then (.error (.credential "credential_store_full"), s)
    else
      match s.chooseRef token with
      | none => (.error (.credential "credential_reference_failed"), s)
      | some credentialRef =>
        (.ok credentialRef, s.add config now credential credentialRef)

def setReserved (credentialRef : String) (reserved : Bool) (row : String × Credential τ) : String × Credential τ :=
  if row.1 = credentialRef then (row.1, { row.2 with reserved }) else row

/-- `entry.reserved = …`. -/
def Store.mark (s : Store τ) (credentialRef : String) (reserved : Bool) : Store τ :=
  { s with entries := s.entries.map (setReserved credentialRef reserved) }

/-- `entry.value.decode("utf-8")`. -/
def decode (value : List UInt8) : List Char :=
  ((value.toByteArray.utf8Decode?).map Array.toList).getD []

/-- `reserve` up to its `yield`; the answer is the number of the reservation. -/
def Store.reserve (s : Store τ) (now : τ) (credentialRef : String) : Except CredentialError ℕ × Store τ :=
  if ¬ validRef credentialRef then (.error (.credential "credential_ref_invalid"), s)
  else
    match s.entries.lookup credentialRef with
    | none => (.error (.credential "credential_ref_invalid"), s)
    | some entry =>
      if entry.reserved then (.error (.credential "credential_ref_invalid"), s)
      else if entry.expiresAt ≤ now then
        (.error (.credential "credential_ref_expired"), s.remove credentialRef entry)
      else
        let reservation : Reservation τ :=
          { credentialRef, credential := decode entry.value, entry := entry.id, openedAt := now }
        let s := s.mark credentialRef true
        (.ok s.reservations.length, { s with reservations := s.reservations ++ [reservation] })

/-- `_commit_reservation`. -/
def Store.commitReservation (s : Store τ) (credentialRef : String) : Except CredentialError Unit × Store τ :=
  match s.entries.lookup credentialRef with
  | none => (.error (.runtime "credential reservation is not active"), s)
  | some entry =>
    if entry.reserved then (.ok (), s.remove credentialRef entry)
    else (.error (.runtime "credential reservation is not active"), s)

/-- `_release_reservation`. -/
def Store.releaseReservation (s : Store τ) (now : τ) (credentialRef : String) : Store τ :=
  match s.entries.lookup credentialRef with
  | none => s
  | some entry =>
    if ¬ entry.reserved then s
    else if entry.expiresAt ≤ now then s.remove credentialRef entry
    else s.mark credentialRef false

def Store.setReservation (s : Store τ) (i : ℕ) (r : Reservation τ) : Store τ :=
  { s with reservations := s.reservations.set i r }

/-- `commit` of a reservation. -/
def Store.commit (s : Store τ) (i : ℕ) (r : Reservation τ) : Except CredentialError Unit × Store τ :=
  if r.closed then (.error (.runtime "credential reservation is closed"), s)
  else if r.committed then (.ok (), s)
  else
    match s.commitReservation r.credentialRef with
    | (.error e, s) => (.error e, s)
    | (.ok (), s) => (.ok (), s.setReservation i { r with committed := true })

/-- `close` of a reservation. -/
def Store.close (s : Store τ) (now : τ) (i : ℕ) (r : Reservation τ) : Store τ :=
  if r.closed then s
  else
    let s := if r.committed then s else s.releaseReservation now r.credentialRef
    s.setReservation i { r with credential := [], closed := true }

/-- The locked part of `discard`. -/
def Store.discard (s : Store τ) (credentialRef : String) : Store τ :=
  { s with
    entries := delete s.entries credentialRef
    popped := s.popped ++ (s.entries.lookup credentialRef).toList }

/-- The locked part of `clear`. -/
def Store.clear (s : Store τ) : Store τ :=
  { s with entries := [], popped := s.popped ++ s.entries.map (·.2) }

/-- One of the entries that were taken out is wiped. -/
def Store.wipePopped (s : Store τ) (k : ℕ) : Option (Store τ) :=
  (s.popped[k]?).map fun entry => { s with popped := s.popped.eraseIdx k, gone := s.gone ++ [entry.wiped] }

inductive Call (τ : Type) where
  | create (now : τ) (credential : List Char) (token : ℕ → String)
  | reserve (now : τ) (credentialRef : String)
  | commit (i : ℕ)
  | close (now : τ) (i : ℕ)
  | discard (credentialRef : String)
  | clear
  | wipe (k : ℕ)

/-- A call, or the wiping that belongs to an earlier one. -/
def Store.step (config : Config τ) (s : Store τ) : Call τ → Option (Store τ)
  | .create now credential token => some (s.create config now credential token).2
  | .reserve now credentialRef => some (s.reserve now credentialRef).2
  | .commit i => (s.reservations[i]?).map fun r => (s.commit i r).2
  | .close now i => (s.reservations[i]?).map fun r => s.close now i r
  | .discard credentialRef => some (s.discard credentialRef)
  | .clear => some s.clear
  | .wipe k => s.wipePopped k

end Operations

end Conductor.NetworkCredentials
