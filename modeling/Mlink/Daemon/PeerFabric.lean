/-
# Connected peers and the rooms they came through

The node asks for a common room once, when a handshake is over. The peer is entered
into its tables later, and stays there until it disconnects; meanwhile clients join
and leave rooms. A leave that is the last one takes the room's hash out and looks at
no peer. So every connected peer has come through a room that the node is still in
exactly as long as no hash is taken out that a connected peer depends on, and no peer
is entered whose room has gone since it was checked.
-/

import Mlink.Core.Node.Connect
import Mlink.Daemon.RoomLifecycle

namespace Mlink.Daemon

open Mlink.Core (Node RoomHash)
open Transition

/-- A handshake that the node has taken: the room that the peer named, and whether the
node was in no room at all. -/
structure Admission where
  peerId : String
  roomHash : Option RoomHash
  unrestricted : Bool
  deriving DecidableEq, Repr

/-- The admission still stands: it needed no room, or named one of these. -/
def Admission.Stands (roomHashes : Finset RoomHash) (admission : Admission) : Prop :=
  admission.unrestricted = true ∨ ∃ hash ∈ admission.roomHash, hash ∈ roomHashes

instance (roomHashes : Finset RoomHash) (admission : Admission) :
    Decidable (admission.Stands roomHashes) :=
  inferInstanceAs (Decidable (_ ∨ _))

theorem Admission.Stands.mono {roomHashes more : Finset RoomHash} {admission : Admission}
    (stands : admission.Stands roomHashes) (hmore : roomHashes ⊆ more) :
    admission.Stands more :=
  stands.imp_right fun ⟨hash, hnamed, hmem⟩ => ⟨hash, hnamed, hmore hmem⟩

/-- One of the peer's admissions stands. -/
def Vouched (roomHashes : Finset RoomHash) (admissions : List Admission) (peerId : String) :
    Prop :=
  ∃ admission ∈ admissions, admission.peerId = peerId ∧ admission.Stands roomHashes

instance (roomHashes : Finset RoomHash) (admissions : List Admission) (peerId : String) :
    Decidable (Vouched roomHashes admissions peerId) :=
  inferInstanceAs (Decidable (∃ admission ∈ admissions, _))

/-- Every peer of these has an admission that stands. -/
def AllVouched (roomHashes : Finset RoomHash) (admissions : List Admission) : Prop :=
  ∀ admission ∈ admissions, Vouched roomHashes admissions admission.peerId

instance (roomHashes : Finset RoomHash) (admissions : List Admission) :
    Decidable (AllVouched roomHashes admissions) :=
  inferInstanceAs (Decidable (∀ admission ∈ admissions, _))

/-- The rooms of a daemon, the handshakes that were taken and whose peers are still to
be entered, and the admissions of the connected peers. -/
structure PeerFabric (Value : Type) where
  daemon : DaemonRooms Value
  checked : List Admission
  entered : List Admission

/-- One step of a run. A dial and an accept end alike: with a check, and later with the
peer entered or its connection closed. -/
inductive FabricStep (Value : Type)
  | room (op : RoomOp Value)
  | check (peerId : String) (claimed : Option RoomHash)
  | enter (index : Nat)
  | close (index : Nat)
  | disconnect (peerId : String)

variable {Value : Type}

/-- `check_room`: a daemon in no room takes every peer, and one in rooms those that name
one of them. -/
def DaemonRooms.admits (daemon : DaemonRooms Value) (claimed : Option RoomHash) : Bool :=
  daemon.roomHashes = ∅ || claimed.any fun hash => hash ∈ daemon.roomHashes

/-- The node's own check, over the same hashes. -/
theorem DaemonRooms.admits_eq (daemon : DaemonRooms Value) {node : Node}
    (same : node.roomHashes.toFinset = daemon.roomHashes) (claimed : Option RoomHash) :
    daemon.admits claimed = node.admits claimed := by
  have hempty : decide (daemon.roomHashes = ∅) = node.roomHashes.isEmpty := by
    rw [← same, Bool.eq_iff_iff, decide_eq_true_iff, List.toFinset_eq_empty_iff,
      List.isEmpty_iff]
  rw [admits, Node.admits, hempty, ← same]
  simp only [List.mem_toFinset]

namespace PeerFabric

variable (roomHash : String → RoomHash)

/-- A daemon that has restored the given rooms, with no peer. -/
def start (rooms : Finset String) : PeerFabric Value := ⟨.new roomHash rooms, [], []⟩

/-- The state after a step; one that cannot be taken changes nothing. -/
def after (fabric : PeerFabric Value) : FabricStep Value → PeerFabric Value
  | .room op => { fabric with daemon := (fabric.daemon.step roomHash op).getD fabric.daemon }
  | .check peerId claimed =>
      if fabric.daemon.admits claimed then
        { fabric with
          checked := fabric.checked ++ [⟨peerId, claimed, fabric.daemon.roomHashes = ∅⟩] }
      else fabric
  | .enter index =>
      match fabric.checked[index]? with
      | some admission =>
          { fabric with
            checked := fabric.checked.eraseIdx index
            entered := fabric.entered ++ [admission] }
      | none => fabric
  | .close index => { fabric with checked := fabric.checked.eraseIdx index }
  | .disconnect peerId =>
      { fabric with entered := fabric.entered.filter fun admission => admission.peerId ≠ peerId }

/-- Every connected peer was admitted without a room, or through one that the node is
still in. -/
def SharesRoom (fabric : PeerFabric Value) : Prop :=
  AllVouched fabric.daemon.roomHashes fabric.entered

instance (fabric : PeerFabric Value) : Decidable fabric.SharesRoom :=
  inferInstanceAs (Decidable (AllVouched _ _))

/-- A hash is taken out only while every connected peer stands without it, and a peer is
entered only while its room is there. -/
def LeavesNoPeer (fabric : PeerFabric Value) : FabricStep Value → Prop
  | .room (.proceed index) =>
      ∀ session ∈ fabric.daemon.sessions[index]?, ∀ room, session.task = .unhashing room →
        AllVouched (fabric.daemon.roomHashes.erase (roomHash room)) fabric.entered
  | .enter index =>
      ∀ admission ∈ fabric.checked[index]?,
        Vouched fabric.daemon.roomHashes (fabric.entered ++ [admission]) admission.peerId
  | _ => True

variable {roomHash} {fabric : PeerFabric Value}

theorem sharesRoom_start (rooms : Finset String) :
    (start roomHash rooms : PeerFabric Value).SharesRoom := by
  intro admission hmem
  cases hmem

/-! ## What becomes of the hashes -/

/-- The handler that takes a hash out. -/
theorem roomHashes_proceed_unhashing {daemon next : DaemonRooms Value} {index : Nat}
    {session : RoomSession} {room : String} (htask : session.task = .unhashing room)
    (taken : daemon.proceed roomHash index session = some next) :
    next.roomHashes = daemon.roomHashes.erase (roomHash room) := by
  rw [DaemonRooms.proceed, htask] at taken
  cases taken
  rfl

/-- At any other task the handler keeps them. -/
theorem roomHashes_proceed_of_ne {daemon next : DaemonRooms Value} {index : Nat}
    {session : RoomSession} (hother : ∀ room, session.task ≠ .unhashing room)
    (taken : daemon.proceed roomHash index session = some next) :
    next.roomHashes = daemon.roomHashes := by
  obtain ⟨subs, task⟩ := session
  cases task with
  | idle => cases taken
  | storing room | unstoring room =>
      cases taken
      rfl
  | subscribing room | leaving room | freeing room =>
      simp only [DaemonRooms.proceed] at taken
      split_ifs at taken
      cases taken
      rfl
  | scanning room rest =>
      cases rest with
      | nil =>
          cases taken
          rfl
      | cons other rest =>
          simp only [DaemonRooms.proceed] at taken
          split_ifs at taken
          · cases taken
            rfl
          · cases taken
            rfl
  | unhashing room => exact absurd rfl (hother room)

/-- Every other step keeps the hashes. -/
theorem roomHashes_step {daemon next : DaemonRooms Value} {op : RoomOp Value}
    (hother : ∀ index, op ≠ .proceed index) (taken : daemon.step roomHash op = some next) :
    daemon.roomHashes ⊆ next.roomHashes := by
  cases op with
  | connect =>
      simp only [DaemonRooms.step] at taken
      split_ifs at taken
      cases taken
      exact subset_rfl
  | join index room =>
      obtain ⟨session, _, _, rfl⟩ := DaemonRooms.idle_of_ifIdle taken
      rw [DaemonRooms.join]
      split_ifs
      · exact Finset.subset_insert _ _
      · exact subset_rfl
  | leave index room =>
      obtain ⟨session, _, _, rfl⟩ := DaemonRooms.idle_of_ifIdle taken
      rw [DaemonRooms.leave]
      split_ifs
      · exact subset_rfl
      · exact subset_rfl
  | proceed index => exact absurd rfl (hother index)
  | disconnect index =>
      simp only [DaemonRooms.step] at taken
      split_ifs at taken
      obtain ⟨session, _, _, rfl⟩ := DaemonRooms.idle_of_ifIdle taken
      exact subset_rfl
  | receive message order =>
      simp only [DaemonRooms.step, DaemonRooms.receive] at taken
      split at taken
      · split_ifs at taken
        · cases taken
          exact subset_rfl
        · cases taken
          exact subset_rfl
      · cases taken
      · cases taken
  | fan =>
      simp only [DaemonRooms.step, DaemonRooms.fan] at taken
      split at taken
      · cases taken
      · split_ifs at taken
        cases taken
        exact subset_rfl
      · cases taken
        exact subset_rfl
      · cases taken
        exact subset_rfl

/-! ## What becomes of the peers -/

theorem AllVouched.mono {roomHashes more : Finset RoomHash} {admissions : List Admission}
    (vouched : AllVouched roomHashes admissions) (hmore : roomHashes ⊆ more) :
    AllVouched more admissions := by
  intro admission hmem
  obtain ⟨other, hother, hpeer, stands⟩ := vouched admission hmem
  exact ⟨other, hother, hpeer, stands.mono hmore⟩

/-- One more admission is vouched for with the others exactly when its peer is. -/
theorem allVouched_concat_iff {roomHashes : Finset RoomHash} {admissions : List Admission}
    {admission : Admission} (vouched : AllVouched roomHashes admissions) :
    AllVouched roomHashes (admissions ++ [admission]) ↔
      Vouched roomHashes (admissions ++ [admission]) admission.peerId := by
  constructor
  · intro hall
    exact hall admission (by simp)
  · intro hnew other hother
    rcases List.mem_append.mp hother with hold | hlast
    · obtain ⟨held, hheld, hpeer, stands⟩ := vouched other hold
      exact ⟨held, List.mem_append_left _ hheld, hpeer, stands⟩
    · rw [List.mem_singleton.mp hlast]
      exact hnew

/-- A peer that has gone takes its own admissions with it. -/
theorem allVouched_filter {roomHashes : Finset RoomHash} {admissions : List Admission}
    (vouched : AllVouched roomHashes admissions) (peerId : String) :
    AllVouched roomHashes (admissions.filter fun admission => admission.peerId ≠ peerId) := by
  intro admission hmem
  obtain ⟨hold, hkept⟩ := List.mem_filter.mp hmem
  obtain ⟨other, hother, hpeer, stands⟩ := vouched admission hold
  refine ⟨other, List.mem_filter.mpr ⟨hother, ?_⟩, hpeer, stands⟩
  rw [hpeer]
  exact hkept

/-- One step: the connected peers share a room with the node exactly when the step
leaves none of them behind. -/
theorem sharesRoom_after_iff (shares : fabric.SharesRoom) (step : FabricStep Value) :
    (fabric.after roomHash step).SharesRoom ↔ fabric.LeavesNoPeer roomHash step := by
  cases step with
  | room op =>
      cases htaken : fabric.daemon.step roomHash op with
      | none =>
          have hsame : fabric.after roomHash (.room op) = fabric := by
            rw [after, htaken]
            rfl
          rw [hsame]
          apply iff_of_true shares
          cases op with
          | proceed index =>
              intro session hsession room htask
              simp [DaemonRooms.step, Option.mem_def.mp hsession, DaemonRooms.proceed, htask]
                at htaken
          | connect | join _ _ | leave _ _ | disconnect _ | receive _ _ | fan => trivial
      | some next =>
          have hnext : (fabric.after roomHash (.room op)).SharesRoom ↔
              AllVouched next.roomHashes fabric.entered := by
            rw [after, htaken]
            rfl
          rw [hnext]
          cases op with
          | proceed index =>
              obtain ⟨session, hsession, hproceed⟩ := Option.bind_eq_some_iff.mp htaken
              by_cases hunhashing : ∃ room, session.task = .unhashing room
              · obtain ⟨room, htask⟩ := hunhashing
                rw [roomHashes_proceed_unhashing htask hproceed]
                simp [LeavesNoPeer, hsession, htask]
              · have hother : ∀ room, session.task ≠ .unhashing room :=
                  fun room htask => hunhashing ⟨room, htask⟩
                rw [roomHashes_proceed_of_ne hother hproceed]
                apply iff_of_true shares
                intro found hfound room htask
                rw [hsession] at hfound
                cases hfound
                exact absurd htask (hother room)
          | connect | join _ _ | leave _ _ | disconnect _ | receive _ _ | fan =>
              apply iff_of_true _ trivial
              exact AllVouched.mono shares (roomHashes_step (by simp) htaken)
  | check peerId claimed =>
      apply iff_of_true _ trivial
      rw [after]
      split_ifs
      · exact shares
      · exact shares
  | enter index =>
      cases hchecked : fabric.checked[index]? with
      | none =>
          have hsame : fabric.after roomHash (.enter index) = fabric := by rw [after, hchecked]
          rw [hsame]
          exact iff_of_true shares (by simp [LeavesNoPeer, hchecked])
      | some admission =>
          have hnext : (fabric.after roomHash (.enter index)).SharesRoom ↔
              AllVouched fabric.daemon.roomHashes (fabric.entered ++ [admission]) := by
            rw [after, hchecked]
            rfl
          rw [hnext, allVouched_concat_iff shares]
          simp [LeavesNoPeer, hchecked]
  | close index => exact iff_of_true shares trivial
  | disconnect peerId => exact iff_of_true (allVouched_filter shares peerId) trivial

/-- In a run of joins, leaves, connects, accepts and disconnects every connected peer
shares a room with the node throughout exactly when no step leaves one behind. -/
theorem sharesRoom_iff_leavesNoPeer (roomHash : String → RoomHash) (rooms : Finset String)
    (steps : List (FabricStep Value)) :
    (∀ earlier later, steps = earlier ++ later →
        (earlier.foldl (after roomHash) (start roomHash rooms)).SharesRoom) ↔
      ∀ earlier step later, steps = earlier ++ step :: later →
        (earlier.foldl (after roomHash) (start roomHash rooms)).LeavesNoPeer roomHash step := by
  have hstep : ∀ (fabric : PeerFabric Value) (step : FabricStep Value), fabric.SharesRoom →
      ((fabric.after roomHash step).SharesRoom ↔ fabric.LeavesNoPeer roomHash step) :=
    fun _ step shares => sharesRoom_after_iff shares step
  exact forall_foldl_iff_guarded hstep (sharesRoom_start rooms) steps

/-- A client is in a room, a peer is admitted through it, and the client leaves. -/
def peerLeftBehind : List (FabricStep Unit) :=
  [.room .connect, .room (.join 0 "123456"), .room (.proceed 0), .room (.proceed 0),
    .check "peer" (some (DaemonRooms.sampleHash "123456")), .enter 0,
    .room (.leave 0 "123456")] ++ List.replicate 6 (.room (.proceed 0))

/-- The node is in no room any more, and the peer is still connected. -/
theorem not_sharesRoom_peerLeftBehind :
    let fabric := peerLeftBehind.foldl (after DaemonRooms.sampleHash)
      (start DaemonRooms.sampleHash ∅)
    fabric.daemon.Quiet ∧ fabric.daemon.roomHashes = ∅ ∧
      fabric.entered.map Admission.peerId = ["peer"] ∧ ¬fabric.SharesRoom := by
  have hquiet : (peerLeftBehind.foldl (after DaemonRooms.sampleHash)
      (start DaemonRooms.sampleHash ∅)).daemon.Quiet := by decide +kernel
  have hhashes : (peerLeftBehind.foldl (after DaemonRooms.sampleHash)
      (start DaemonRooms.sampleHash ∅)).daemon.roomHashes = ∅ := by decide +kernel
  have hentered : (peerLeftBehind.foldl (after DaemonRooms.sampleHash)
      (start DaemonRooms.sampleHash ∅)).entered =
        [⟨"peer", some (DaemonRooms.sampleHash "123456"), false⟩] := by decide +kernel
  refine ⟨hquiet, hhashes, by rw [hentered]; rfl, ?_⟩
  rw [SharesRoom, hhashes, hentered]
  simp [AllVouched, Vouched, Admission.Stands]

end PeerFabric

end Mlink.Daemon
