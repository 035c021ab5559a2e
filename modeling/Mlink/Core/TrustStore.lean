/-
# Trusted peers in memory and on disk

A store keeps its list of trusted peers in memory and writes the whole list to its file
after every change. The change comes first: when a step of the write fails, the call
returns an error and the change stays. JSON is the work of a library, and what the file
system answers is a parameter of each call.
-/

import Mlink.Protocol.Types

namespace Mlink.Core

open Mlink.Protocol

structure TrustedPeer where
  appUuid : String
  publicKey : Bytes
  name : String
  trustedAt : String
  deriving DecidableEq, Repr

/-- The library: nothing is parsed from an empty text, and what it has printed it parses
to what it was. -/
structure TrustJson where
  toVecPretty : List TrustedPeer → Except String Bytes
  fromSlice : Bytes → Except String (List TrustedPeer)
  fromSlice_nil : ∀ peers, fromSlice [] ≠ .ok peers
  fromSlice_of_toVecPretty : ∀ peers bytes, toVecPretty peers = .ok bytes →
    fromSlice bytes = .ok peers

/-- The path of a store, with the directory that it is in. -/
structure TrustPath where
  path : String
  parent : Option String
  deriving DecidableEq, Repr

/-- What the file system answers while a store is written. A write that fails leaves
something of the file, or nothing. -/
structure PersistIo where
  createDirAll : Except String Unit
  write : Except (String × Option Bytes) Unit
  deriving DecidableEq

structure TrustStore where
  path : TrustPath
  peers : List TrustedPeer
  deriving DecidableEq, Repr

namespace TrustStore

/-- Load a store from its file, if there is one. -/
def new (json : TrustJson) (path : TrustPath) (file : Option (Except String Bytes)) :
    Result TrustStore :=
  match file with
  | none => .ok ⟨path, []⟩
  | some (.error e) => .error (.io e)
  | some (.ok bytes) =>
      if bytes = [] then .ok ⟨path, []⟩
      else
        match json.fromSlice bytes with
        | .error e => .error (.codecError s!"trust store parse: {e}")
        | .ok peers => .ok ⟨path, peers⟩

variable (json : TrustJson) (store : TrustStore)

def isTrusted (appUuid : String) : Bool := store.peers.any fun peer => peer.appUuid = appUuid

def get (appUuid : String) : Option TrustedPeer :=
  store.peers.find? fun peer => peer.appUuid = appUuid

/-- Write the whole list. What the file holds then is the second half. -/
def persist (io : PersistIo) (file : Option Bytes) : Result Unit × Option Bytes :=
  match (if store.path.parent.isSome then io.createDirAll else .ok ()) with
  | .error e => (.error (.io e), file)
  | .ok () =>
      match json.toVecPretty store.peers with
      | .error e => (.error (.codecError s!"trust store serialize: {e}"), file)
      | .ok bytes =>
          match io.write with
          | .error (e, left) => (.error (.io e), left)
          | .ok () => (.ok (), some bytes)

end TrustStore

inductive TrustCall
  | add (peer : TrustedPeer)
  | remove (appUuid : String)
  deriving DecidableEq, Repr

namespace TrustCall

/-- The first peer with that uuid is replaced; a new one comes last. -/
def replaceOrPush (peer : TrustedPeer) : List TrustedPeer → List TrustedPeer
  | [] => [peer]
  | first :: rest =>
      if first.appUuid = peer.appUuid then peer :: rest else first :: replaceOrPush peer rest

/-- What a call makes of the list in memory. -/
def edit : TrustCall → List TrustedPeer → List TrustedPeer
  | add peer, peers => replaceOrPush peer peers
  | remove appUuid, peers => peers.filter fun peer => peer.appUuid ≠ appUuid

end TrustCall

/-- A store with its file. -/
structure Trust where
  store : TrustStore
  file : Option Bytes

namespace Trust

variable (json : TrustJson) (trust : Trust) (step : TrustCall × PersistIo)

/-- The store as a call has changed it. -/
def edited : TrustStore := { trust.store with peers := step.1.edit trust.store.peers }

/-- `add` and `remove`: change the list, and write it. -/
def call : Result Unit × Trust :=
  let written := (trust.edited step).persist json step.2 trust.file
  (written.1, ⟨trust.edited step, written.2⟩)

def after : Trust := (trust.call json step).2

/-- After a call that succeeds the file loads to what is in memory, and a call that fails
leaves what is in memory as it was. -/
def Faithful : Prop :=
  match (trust.call json step).1 with
  | .ok () =>
      TrustStore.new json trust.store.path ((trust.after json step).file.map .ok) =
        .ok (trust.after json step).store
  | .error _ => (trust.after json step).store = trust.store

end Trust

/-- Nothing fails while a store is written. -/
structure TrustStore.Persists (json : TrustJson) (store : TrustStore) (io : PersistIo) :
    Prop where
  directory : store.path.parent.isSome = true → io.createDirAll = .ok ()
  serialized : ∃ bytes, json.toVecPretty store.peers = .ok bytes
  written : io.write = .ok ()

/-- The call asks for what is there already: a peer that is stored as it is given, or that
a peer not be trusted which is not. -/
def TrustStore.Idle (store : TrustStore) : TrustCall → Prop
  | .add peer => store.get peer.appUuid = some peer
  | .remove appUuid => store.isTrusted appUuid = false

instance (store : TrustStore) (call : TrustCall) : Decidable (store.Idle call) :=
  match call with
  | .add _ => inferInstanceAs (Decidable (_ = _))
  | .remove _ => inferInstanceAs (Decidable (_ = _))

/-! ## What a call leaves -/

section Calls

variable {json : TrustJson} {store : TrustStore} {io : PersistIo} {file : Option Bytes}

/-- A write that nothing hinders puts the list into the file. -/
theorem TrustStore.Persists.persist_eq (persists : store.Persists json io)
    (file : Option Bytes) :
    ∃ bytes, json.toVecPretty store.peers = .ok bytes ∧
      store.persist json io file = (.ok (), some bytes) := by
  obtain ⟨bytes, hbytes⟩ := persists.serialized
  refine ⟨bytes, hbytes, ?_⟩
  have hdirectory : (if store.path.parent.isSome then io.createDirAll else .ok ()) = .ok () := by
    split_ifs with hparent
    · exact persists.directory hparent
    · rfl
  rw [TrustStore.persist, hdirectory]
  dsimp only
  rw [hbytes, persists.written]

/-- A write that succeeds was not hindered. -/
theorem TrustStore.persists_of_persist (hok : (store.persist json io file).1 = .ok ()) :
    store.Persists json io := by
  rw [persist] at hok
  cases hdirectory : (if store.path.parent.isSome then io.createDirAll else .ok ()) with
  | error e =>
      rw [hdirectory] at hok
      cases hok
  | ok _ =>
      rw [hdirectory] at hok
      dsimp only at hok
      cases hbytes : json.toVecPretty store.peers with
      | error e =>
          rw [hbytes] at hok
          cases hok
      | ok bytes =>
          rw [hbytes] at hok
          dsimp only at hok
          cases hwrite : io.write with
          | error failure =>
              rw [hwrite] at hok
              cases hok
          | ok _ =>
              refine ⟨?_, ⟨bytes, hbytes⟩, hwrite⟩
              intro hparent
              rwa [if_pos hparent] at hdirectory

/-- What was printed is loaded. -/
theorem TrustStore.new_of_toVecPretty {path : TrustPath} {peers : List TrustedPeer}
    {bytes : Bytes} (printed : json.toVecPretty peers = .ok bytes) :
    TrustStore.new json path (some (.ok bytes)) = .ok ⟨path, peers⟩ := by
  have hparsed := json.fromSlice_of_toVecPretty peers bytes printed
  have hsome : bytes ≠ [] := by
    intro hnil
    rw [hnil] at hparsed
    exact json.fromSlice_nil peers hparsed
  simp only [TrustStore.new, if_neg hsome, hparsed]

theorem replaceOrPush_eq_self_iff (peer : TrustedPeer) (peers : List TrustedPeer) :
    TrustCall.replaceOrPush peer peers = peers ↔
      (peers.find? fun other => other.appUuid = peer.appUuid) = some peer := by
  induction peers with
  | nil => simp [TrustCall.replaceOrPush]
  | cons first rest ih =>
      rw [TrustCall.replaceOrPush]
      by_cases hfirst : first.appUuid = peer.appUuid
      · simp [hfirst, eq_comm]
      · simp [hfirst, ih]

/-- An idle call is one that changes nothing in memory. -/
theorem edit_eq_self_iff (store : TrustStore) (call : TrustCall) :
    call.edit store.peers = store.peers ↔ store.Idle call := by
  cases call with
  | add peer => exact replaceOrPush_eq_self_iff peer store.peers
  | remove appUuid =>
      simp [TrustCall.edit, TrustStore.Idle, TrustStore.isTrusted, List.filter_eq_self]

/-- A call is faithful exactly when nothing fails while the changed list is written, or
when there is nothing to change. -/
theorem Trust.faithful_iff (trust : Trust) (step : TrustCall × PersistIo) :
    trust.Faithful json step ↔
      (trust.edited step).Persists json step.2 ∨ trust.store.Idle step.1 := by
  have hedited : trust.edited step = trust.store ↔ trust.store.Idle step.1 := by
    rw [← edit_eq_self_iff]
    constructor
    · exact fun hsame => congrArg TrustStore.peers hsame
    · intro hsame
      rw [edited, hsame]
  rw [Faithful]
  cases hresult : (trust.call json step).1 with
  | ok _ =>
      have hpersists : (trust.edited step).Persists json step.2 :=
        TrustStore.persists_of_persist hresult
      obtain ⟨bytes, hprinted, hwritten⟩ := hpersists.persist_eq trust.file
      refine iff_of_true ?_ (.inl hpersists)
      simp only [after, call, hwritten, Option.map_some]
      exact TrustStore.new_of_toVecPretty hprinted
  | error e =>
      have hfails : ¬ (trust.edited step).Persists json step.2 := by
        intro hpersists
        obtain ⟨bytes, _, hwritten⟩ := hpersists.persist_eq trust.file
        rw [call, hwritten] at hresult
        cases hresult
      rw [or_iff_right hfails, ← hedited]
      rfl

variable (json) in
/-- In a run of any length, memory and file stay together exactly as long as every call is
written without a failure, or has nothing to change. -/
theorem Trust.faithful_iff_persists (start : Trust) (steps : List (TrustCall × PersistIo)) :
    (∀ earlier step later, steps = earlier ++ step :: later →
        (earlier.foldl (after json) start).Faithful json step) ↔
      ∀ earlier step later, steps = earlier ++ step :: later →
        ((earlier.foldl (after json) start).edited step).Persists json step.2 ∨
          (earlier.foldl (after json) start).store.Idle step.1 := by
  simp only [Trust.faithful_iff]

end Calls

/-! ## A full disk -/

def alice : TrustedPeer := ⟨"uuid-a", [7], "alice", "2026-04-19T00:00:00Z"⟩

/-- The file with one trusted peer. -/
def aliceText : String :=
  "[\n  \x7b\n    \"app_uuid\": \"uuid-a\",\n    \"public_key\": [\n      7\n    ],\n" ++
    "    \"name\": \"alice\",\n    \"trusted_at\": \"2026-04-19T00:00:00Z\"\n  \x7d\n]"

def textBytes (text : String) : Bytes := text.toUTF8.toList

theorem aliceText_ne : textBytes aliceText ≠ [] ∧ textBytes "[]" ≠ [] ∧
    textBytes aliceText ≠ textBytes "[]" := by decide +kernel

/-- The library, as far as this peer and the empty list go. -/
def aliceJson : TrustJson where
  toVecPretty peers :=
    if peers = [] then .ok (textBytes "[]")
    else if peers = [alice] then .ok (textBytes aliceText)
    else .error "not printed here"
  fromSlice bytes :=
    if bytes = textBytes "[]" then .ok []
    else if bytes = textBytes aliceText then .ok [alice]
    else .error "expected value at line 1 column 1"
  fromSlice_nil peers := by
    obtain ⟨halice, hempty, _⟩ := aliceText_ne
    rw [if_neg hempty.symm, if_neg halice.symm]
    exact fun heq => nomatch heq
  fromSlice_of_toVecPretty peers bytes hprinted := by
    obtain ⟨_, _, hdistinct⟩ := aliceText_ne
    by_cases hnone : peers = []
    · rw [if_pos hnone] at hprinted
      rw [← Except.ok.inj hprinted, if_pos rfl, hnone]
    · rw [if_neg hnone] at hprinted
      by_cases halice : peers = [alice]
      · rw [if_pos halice] at hprinted
        rw [← Except.ok.inj hprinted, if_neg hdistinct, if_pos rfl, halice]
      · rw [if_neg halice] at hprinted
        cases hprinted

def emptyTrust : Trust := ⟨⟨⟨"/home/me/.mlink/trusted_peers.json", some "/home/me/.mlink"⟩, []⟩, none⟩

def fullDisk : PersistIo :=
  ⟨.ok (), .error ("No space left on device (os error 28)", some [])⟩

/-- The call fails, and the peer is trusted from then on, until the store is loaded again. -/
theorem not_faithful_fullDisk :
    (emptyTrust.call aliceJson (.add alice, fullDisk)).1 =
        .error (.io "No space left on device (os error 28)") ∧
      (emptyTrust.after aliceJson (.add alice, fullDisk)).store.isTrusted "uuid-a" = true ∧
      ¬ emptyTrust.Faithful aliceJson (.add alice, fullDisk) := by
  have hfails : (emptyTrust.call aliceJson (.add alice, fullDisk)).1 =
      .error (.io "No space left on device (os error 28)") := rfl
  refine ⟨hfails, by decide, ?_⟩
  rw [Trust.Faithful, hfails]
  decide

end Mlink.Core
