/-
# What a call leaves in the table of waiters

When a call returns, no waiter is to be left under its id, and whatever the call did
on the way is to leave the waiters of other calls alone. The table is entered before
the request is sent, and a request that cannot be sent ends the call without a word to
the table; the other ways out rely on the id being the call's own.
-/

import Mlink.Api.RpcCorrelation

namespace Mlink.Api.RpcWorld

open Mlink.Core Mlink.Protocol

variable {primitives : Primitives} {encode : RpcRequest → Except String Bytes}
  {world next : RpcWorld} {number : Nat} {call : Call}

/-- A step leaves nothing behind: a call that returns in it leaves no waiter under its
id, and the call that takes it leaves the waiters of the others as they are. -/
structure Tidy (world : RpcWorld) (caller : Option Nat) (next : RpcWorld) : Prop where
  returns : ∀ (number : Nat) (call after : Call), world.calls[number]? = some call →
    next.calls[number]? = some after → call.stage ≠ .returned → after.stage = .returned →
    next.pending.waiters.lookup call.id = none
  others : ∀ number, caller = some number → ∀ id other, other ≠ number →
    (next.pending.waiters.lookup id = some other ↔ world.pending.waiters.lookup id = some other)

/-- The waiter under the call's id is its own, if there is one. -/
def Unshared (world : RpcWorld) (number : Nat) (call : Call) : Prop :=
  ∀ other, world.pending.waiters.lookup call.id = some other → other = number

variable (primitives encode) in
/-- What has to hold before a step for it to leave nothing behind: a call that enters the
table, returns from its channel or times out shares its id with no waiter, and a
request is sent, unless the waiter has gone already. -/
def Undisturbed (world : RpcWorld) : RpcEvent → Prop
  | .register number => ∀ call, world.calls[number]? = some call → call.stage = .named →
      world.Unshared number call
  | .send number io => ∀ call, world.calls[number]? = some call → call.stage = .registered →
      (sendRequest primitives encode world.node call io).result = .ok () ∨
        world.pending.waiters.lookup call.id = none
  | .wake number => ∀ call, world.calls[number]? = some call → call.stage = .waiting →
      call.mail.isSome = true ∨ world.senderAlive number call = false →
      world.Unshared number call
  | .cancel number => ∀ call, world.calls[number]? = some call → call.stage = .expired →
      world.Unshared number call
  | _ => True

/-! ## Where the ends of a channel are -/

/-- A waiter belongs to a call that has entered the table and has nothing in its channel,
and a response in hand has taken the waiter of its call. -/
structure Traced (world : RpcWorld) : Prop where
  waiter : ∀ id (number : Nat), world.pending.waiters.lookup id = some number →
    ∃ call, world.calls[number]? = some call ∧ call.id = id ∧ call.stage ≠ .named ∧
      call.mail = none
  inHand : ∀ pair ∈ world.inHand,
    (∃ call, world.calls[pair.1]? = some call ∧ call.stage ≠ .named) ∧
      ∀ id, world.pending.waiters.lookup id ≠ some pair.1
  named : ∀ (number : Nat) (call : Call), world.calls[number]? = some call →
    call.stage = .named → call.mail = none

theorem traced_new (node : Node) : (new node).Traced where
  waiter := fun _ _ hwaiter => by cases hwaiter
  inHand := fun _ hmem => by cases hmem
  named := fun _ _ hcall => by cases hcall

/-- A call whose waiter is in the table has nothing in its channel. -/
theorem Traced.mail_of_waiter (traced : world.Traced) (hcall : world.calls[number]? = some call)
    {id : UInt16} (howner : world.pending.waiters.lookup id = some number) : call.mail = none := by
  obtain ⟨found, hfound, _, _, hempty⟩ := traced.waiter id number howner
  rwa [Option.some.inj (hcall.symm.trans hfound)]

/-- A call past its first step moves on, and no waiter is added; if its own is in the
table then its channel stays empty. -/
theorem Traced.moveOn (traced : world.Traced) (node : Node) (after : Call)
    (hcall : world.calls[number]? = some call) (hid : after.id = call.id)
    (hmail : ∀ id, world.pending.waiters.lookup id = some number → after.mail = none)
    (hstage : after.stage ≠ .named)
    {waiters : AList fun _ : UInt16 => Nat} (withdrawn : List (Nat × Nat))
    (fewer : ∀ id other, waiters.lookup id = some other →
      world.pending.waiters.lookup id = some other) :
    Traced { world with
      node := node, pending := { world.pending with waiters := waiters },
      calls := world.calls.set number after, withdrawn := withdrawn } where
  waiter := by
    intro id owner howner
    have hold := fewer _ _ howner
    obtain ⟨found, hfound, hfoundId, hfoundStage, hempty⟩ := traced.waiter id owner hold
    by_cases hown : owner = number
    · subst hown
      obtain rfl := Option.some.inj (hcall.symm.trans hfound)
      exact ⟨after, List.getElem?_set_self (List.getElem?_eq_some_iff.mp hcall).1,
        hid.trans hfoundId, hstage, hmail id hold⟩
    · exact ⟨found, (List.getElem?_set_ne (Ne.symm hown)).trans hfound, hfoundId, hfoundStage,
        hempty⟩
  inHand := by
    intro pair hpair
    obtain ⟨⟨found, hfound, hfoundStage⟩, hgone⟩ := traced.inHand pair hpair
    refine ⟨?_, fun id howner => hgone id (fewer _ _ howner)⟩
    by_cases hown : pair.1 = number
    · rw [hown]
      exact ⟨after, List.getElem?_set_self (List.getElem?_eq_some_iff.mp hcall).1, hstage⟩
    · exact ⟨found, (List.getElem?_set_ne (Ne.symm hown)).trans hfound, hfoundStage⟩
  named := by
    intro place found hfound hnamed
    rcases Entries.getElem?_set_cases hfound with ⟨rfl, rfl⟩ | ⟨_, hold⟩
    · exact absurd hnamed hstage
    · exact traced.named _ _ hold hnamed

theorem Traced.begin (traced : world.Traced) (peerId method : String) (data : Bytes) :
    (world.begin peerId method data).Traced where
  waiter := by
    intro id owner howner
    obtain ⟨found, hfound, hrest⟩ := traced.waiter id owner howner
    exact ⟨found, Entries.getElem?_concat_of_some hfound _, hrest⟩
  inHand := by
    intro pair hpair
    obtain ⟨⟨found, hfound, hstage⟩, hgone⟩ := traced.inHand pair hpair
    exact ⟨⟨found, Entries.getElem?_concat_of_some hfound _, hstage⟩, hgone⟩
  named := by
    intro place found hfound hnamed
    rcases Entries.getElem?_concat_cases hfound with hold | ⟨_, rfl⟩
    · exact traced.named _ _ hold hnamed
    · rfl

/-- A call that enters the table has nothing in its channel and no waiter yet. -/
theorem Traced.register (traced : world.Traced) (number : Nat) :
    (world.register number).Traced := by
  apply inStage_induct traced
  intro call hcall hstage
  have hbound := (List.getElem?_eq_some_iff.mp hcall).1
  have hempty := traced.named _ _ hcall hstage
  have hfresh : ∀ found, world.calls[number]? = some found → found.stage = .named := by
    intro found hfound
    rwa [← Option.some.inj (hcall.symm.trans hfound)]
  refine ⟨?_, ?_, ?_⟩
  · intro id owner howner
    by_cases hid : id = call.id
    · subst hid
      rw [PendingRequests.register, AList.lookup_insert] at howner
      cases howner
      exact ⟨_, List.getElem?_set_self hbound, rfl, CallStage.noConfusion, hempty⟩
    · rw [PendingRequests.register, AList.lookup_insert_ne hid] at howner
      obtain ⟨found, hfound, hfoundId, hfoundStage, hrest⟩ := traced.waiter id owner howner
      have hne : number ≠ owner := fun heq => hfoundStage (hfresh found (heq ▸ hfound))
      exact ⟨found, (List.getElem?_set_ne hne).trans hfound, hfoundId, hfoundStage, hrest⟩
  · intro pair hpair
    obtain ⟨⟨found, hfound, hfoundStage⟩, hgone⟩ := traced.inHand pair hpair
    have hne : number ≠ pair.1 := fun heq => hfoundStage (hfresh found (heq ▸ hfound))
    refine ⟨⟨found, (List.getElem?_set_ne hne).trans hfound, hfoundStage⟩, ?_⟩
    intro id howner
    by_cases hid : id = call.id
    · subst hid
      rw [PendingRequests.register, AList.lookup_insert] at howner
      exact hne (Option.some.inj howner)
    · rw [PendingRequests.register, AList.lookup_insert_ne hid] at howner
      exact hgone id howner
  · intro place found hfound hnamed
    rcases Entries.getElem?_set_cases hfound with ⟨rfl, rfl⟩ | ⟨_, hold⟩
    · cases hnamed
    · exact traced.named _ _ hold hnamed

/-- A call that has left its first stage keeps its id and its channel when it moves on. -/
theorem Traced.set (traced : world.Traced) (node : Node) (after : Call)
    (hcall : world.calls[number]? = some call) (hid : after.id = call.id)
    (hmail : after.mail = call.mail) (hstage : after.stage ≠ .named) :
    Traced { world with node := node, calls := world.calls.set number after } :=
  traced.moveOn node after hcall hid
    (fun _ howner => hmail.trans (traced.mail_of_waiter hcall howner)) hstage world.withdrawn
    fun _ _ howner => howner

theorem lookup_of_lookup_erase {waiters : AList fun _ : UInt16 => Nat} {id erased : UInt16}
    {owner : Nat} (howner : (waiters.erase erased).lookup id = some owner) :
    id ≠ erased ∧ waiters.lookup id = some owner := by
  by_cases hid : id = erased
  · rw [hid, AList.lookup_erase] at howner
    cases howner
  · rw [AList.lookup_erase_ne hid] at howner
    exact ⟨hid, howner⟩

theorem Traced.send (traced : world.Traced) (number : Nat) (io : NodeIo) :
    (world.send primitives encode number io).Traced := by
  apply inStage_induct traced
  intro call hcall hstage
  apply traced.set _ _ hcall (call.id_sent _) (call.mail_sent _)
  exact call.stage_sent _

theorem Traced.wake (traced : world.Traced) (number : Nat) : (world.wake number).Traced := by
  apply wake_induct traced
  exact fun call result hcall _ =>
    traced.set world.node (call.return result) hcall rfl rfl CallStage.noConfusion

theorem Traced.expire (traced : world.Traced) (number : Nat) : (world.expire number).Traced := by
  apply expire_induct traced
  exact fun call hcall _ =>
    traced.set world.node { call with stage := .expired } hcall rfl rfl CallStage.noConfusion

theorem Traced.cancel (traced : world.Traced) (number : Nat) : (world.cancel number).Traced := by
  apply inStage_induct traced
  intro call hcall _
  have hempty : ∀ id, world.pending.waiters.lookup id = some number → call.mail = none :=
    fun _ howner => traced.mail_of_waiter hcall howner
  exact traced.moveOn world.node (call.return _) hcall rfl hempty CallStage.noConfusion _
    fun _ _ howner => (lookup_of_lookup_erase howner).2

/-- A response takes the one waiter of a call out of the table. -/
theorem Traced.arrive (traced : world.Traced) (answer : Answer) :
    (world.arrive answer).Traced := by
  apply arrive_induct traced
  intro waiter hwaiter
  obtain ⟨call, hcall, hid, hstage, _⟩ := traced.waiter _ _ hwaiter
  refine ⟨?_, ?_, traced.named⟩
  · intro id owner howner
    exact traced.waiter id owner (lookup_of_lookup_erase howner).2
  · intro pair hpair
    rcases List.mem_append.mp hpair with hold | hnew
    · obtain ⟨hentered, hgone⟩ := traced.inHand pair hold
      exact ⟨hentered, fun id howner => hgone id (lookup_of_lookup_erase howner).2⟩
    · cases List.mem_singleton.mp hnew
      refine ⟨⟨call, hcall, hstage⟩, ?_⟩
      intro id howner
      obtain ⟨hne, hold⟩ := lookup_of_lookup_erase howner
      obtain ⟨found, hfound, hfoundId, _⟩ := traced.waiter id waiter hold
      obtain rfl := Option.some.inj (hcall.symm.trans hfound)
      exact hne (hfoundId.symm.trans hid)

/-- A response is put into a channel that no waiter is left for. -/
theorem Traced.hand (traced : world.Traced) (index : Nat) : (world.hand index).Traced := by
  have hrest : Traced { world with inHand := world.inHand.eraseIdx index } :=
    ⟨traced.waiter, fun pair hmem => traced.inHand pair (List.mem_of_mem_eraseIdx hmem),
      traced.named⟩
  apply hand_induct traced (fun _ _ => hrest)
  intro number answer call hpair hcall hlistens
  have hgone := (traced.inHand _ (List.mem_of_getElem? hpair)).2
  have hnamed : call.stage ≠ .named := by
    rcases hlistens with hstage | hstage <;> simp [hstage]
  exact hrest.moveOn world.node { call with mail := some answer } hcall rfl
    (fun id howner => absurd howner (hgone id)) hnamed world.withdrawn fun _ _ howner => howner

variable (primitives encode) in
theorem Traced.step (traced : world.Traced) (event : RpcEvent) :
    (world.step primitives encode event).Traced := by
  cases event with
  | begin peerId method data => exact traced.begin peerId method data
  | register number => exact traced.register number
  | send number io => exact traced.send number io
  | wake number => exact traced.wake number
  | expire number => exact traced.expire number
  | cancel number => exact traced.cancel number
  | arrive answer => exact traced.arrive answer
  | hand index => exact traced.hand index
  | elsewhere node => exact ⟨traced.waiter, traced.inHand, traced.named⟩

variable (primitives encode) in
theorem traced_of_run (node : Node) (events : List RpcEvent) :
    (events.foldl (step primitives encode) (new node)).Traced :=
  List.foldlRecOn events _ (traced_new node) fun _ traced event _ =>
    traced.step primitives encode event

/-! ## One step -/

theorem Tidy.refl (world : RpcWorld) (caller : Option Nat) : Tidy world caller world where
  returns := by
    intro number call after hcall hafter hlive hreturned
    rw [Option.some.inj (hcall.symm.trans hafter)] at hlive
    exact absurd hreturned hlive
  others := fun _ _ _ _ _ => Iff.rfl

/-- A step of a call is tidy when the call leaves no waiter if it returns, and the
waiters of the others are as they were. -/
theorem tidy_iff_of_set (hcall : world.calls[number]? = some call) (hlive : call.stage ≠ .returned)
    (after : Call) (hnext : next.calls = world.calls.set number after) :
    Tidy world (some number) next ↔
      (after.stage = .returned → next.pending.waiters.lookup call.id = none) ∧
        ∀ id other, other ≠ number → (next.pending.waiters.lookup id = some other ↔
          world.pending.waiters.lookup id = some other) := by
  constructor
  · intro tidy
    refine ⟨fun hreturned => ?_, tidy.others number rfl⟩
    apply tidy.returns number call after hcall _ hlive hreturned
    rw [hnext, List.getElem?_set_self (List.getElem?_eq_some_iff.mp hcall).1]
  · rintro ⟨hreturns, hothers⟩
    refine ⟨?_, ?_⟩
    · intro place found moved hfound hmoved hfoundLive hreturned
      rw [hnext] at hmoved
      rcases Entries.getElem?_set_cases hmoved with ⟨rfl, rfl⟩ | ⟨_, hold⟩
      · obtain rfl := Option.some.inj (hcall.symm.trans hfound)
        exact hreturns hreturned
      · rw [Option.some.inj (hfound.symm.trans hold)] at hfoundLive
        exact absurd hreturned hfoundLive
    · rintro place ⟨⟩
      exact hothers

/-- A step of no call in particular is tidy when no call moves on. -/
theorem tidy_of_stages (hstages : ∀ (number : Nat) (call : Call),
      world.calls[number]? = some call →
        next.calls[number]?.map Call.stage = some call.stage) : Tidy world none next where
  returns := by
    intro number call after hcall hafter hlive hreturned
    have hstage := hstages number call hcall
    rw [hafter] at hstage
    exact absurd ((Option.some.inj hstage).symm.trans hreturned) hlive
  others := fun _ hcaller => by cases hcaller

/-- A call that leaves the table as it is returns tidily when its waiter has gone. -/
theorem tidy_setCall_iff (node : Node) (hcall : world.calls[number]? = some call)
    (hlive : call.stage ≠ .returned) (after : Call) :
    Tidy world (some number)
        { world with node := node, calls := world.calls.set number after } ↔
      (after.stage = .returned → world.pending.waiters.lookup call.id = none) := by
  rw [tidy_iff_of_set hcall hlive after rfl]
  exact ⟨fun tidy => tidy.1, fun hreturns => ⟨hreturns, fun _ _ _ => Iff.rfl⟩⟩

theorem tidy_register_iff (number : Nat) :
    Tidy world (some number) (world.register number) ↔
      ∀ call, world.calls[number]? = some call → call.stage = .named →
        world.Unshared number call := by
  apply inStage_iff (Tidy.refl world _)
  intro call hcall hstage
  rw [tidy_iff_of_set hcall (by simp [hstage]) { call with stage := .registered } rfl]
  constructor
  · rintro ⟨_, hothers⟩ other hother
    by_contra hne
    have hlost := (hothers call.id other hne).mpr hother
    rw [PendingRequests.register, AList.lookup_insert] at hlost
    exact hne (Option.some.inj hlost).symm
  · intro hunshared
    refine ⟨CallStage.noConfusion, ?_⟩
    intro id other hne
    by_cases hid : id = call.id
    · subst hid
      rw [PendingRequests.register, AList.lookup_insert]
      exact iff_of_false (fun heq => hne (Option.some.inj heq).symm)
        fun hother => hne (hunshared other hother)
    · rw [PendingRequests.register, AList.lookup_insert_ne hid]

theorem tidy_send_iff (number : Nat) (io : NodeIo) :
    Tidy world (some number) (world.send primitives encode number io) ↔
      ∀ call, world.calls[number]? = some call → call.stage = .registered →
        (sendRequest primitives encode world.node call io).result = .ok () ∨
          world.pending.waiters.lookup call.id = none := by
  apply inStage_iff (Tidy.refl world _)
  intro call hcall hstage
  dsimp only
  rw [tidy_setCall_iff _ hcall (by simp [hstage])]
  cases (sendRequest primitives encode world.node call io).result with
  | ok value => exact iff_of_true CallStage.noConfusion (.inl rfl)
  | error e => simp [Call.sent, Call.return]

/-- A call that returns from its channel has no waiter of its own any more. -/
theorem Traced.lookup_eq_none_iff (traced : world.Traced)
    (hcall : world.calls[number]? = some call)
    (hends : call.mail.isSome = true ∨ world.senderAlive number call = false) :
    world.pending.waiters.lookup call.id = none ↔ world.Unshared number call := by
  constructor
  · intro hnone other hother
    rw [hnone] at hother
    cases hother
  · intro hunshared
    cases hwaiter : world.pending.waiters.lookup call.id with
    | none => rfl
    | some other =>
        obtain rfl := hunshared other hwaiter
        rcases hends with hmail | hsender
        · rw [traced.mail_of_waiter hcall hwaiter] at hmail
          cases hmail
        · simp [senderAlive, hwaiter] at hsender

theorem Traced.tidy_wake_iff (traced : world.Traced) (number : Nat) :
    Tidy world (some number) (world.wake number) ↔
      ∀ call, world.calls[number]? = some call → call.stage = .waiting →
        call.mail.isSome = true ∨ world.senderAlive number call = false →
        world.Unshared number call := by
  apply inStage_iff (Tidy.refl world _)
  intro call hcall hstage
  have hreturns : ∀ result, (call.mail.isSome = true ∨ world.senderAlive number call = false) →
      (Tidy world (some number) (world.setCall number (call.return result)) ↔
        world.Unshared number call) := by
    intro result hends
    rw [← traced.lookup_eq_none_iff hcall hends]
    have hset := tidy_setCall_iff world.node hcall (by simp [hstage]) (call.return result)
    exact hset.trans ⟨fun hnone => hnone rfl, fun hnone _ => hnone⟩
  cases hmail : call.mail with
  | some answer =>
      have hends : call.mail.isSome = true ∨ world.senderAlive number call = false :=
        .inl (hmail ▸ rfl)
      simp [hreturns _ hends]
  | none =>
      dsimp only
      cases hsender : world.senderAlive number call with
      | true => simp [Tidy.refl]
      | false => simp [hreturns _ (.inr hsender)]

theorem tidy_expire (number : Nat) : Tidy world (some number) (world.expire number) := by
  apply expire_induct (Tidy.refl world _)
  intro call hcall hstage
  exact (tidy_setCall_iff world.node hcall (by simp [hstage])
    { call with stage := .expired }).mpr CallStage.noConfusion

theorem tidy_cancel_iff (number : Nat) :
    Tidy world (some number) (world.cancel number) ↔
      ∀ call, world.calls[number]? = some call → call.stage = .expired →
        world.Unshared number call := by
  apply inStage_iff (Tidy.refl world _)
  intro call hcall hstage
  rw [tidy_iff_of_set hcall (by simp [hstage]) (call.return (.error .timeout)) rfl]
  constructor
  · rintro ⟨_, hothers⟩ other hother
    by_contra hne
    have hkept := (hothers call.id other hne).mpr hother
    exact (lookup_of_lookup_erase hkept).1 rfl
  · intro hunshared
    refine ⟨fun _ => AList.lookup_erase .., ?_⟩
    intro id other hne
    by_cases hid : id = call.id
    · subst hid
      exact iff_of_false (fun hkept => (lookup_of_lookup_erase hkept).1 rfl)
        fun hother => hne (hunshared other hother)
    · rw [PendingRequests.remove, AList.lookup_erase_ne hid]

variable (primitives encode) in
/-- A step is tidy exactly when nothing disturbs the call that takes it. -/
theorem Traced.tidy_iff (traced : world.Traced) (event : RpcEvent) :
    Tidy world event.caller (world.step primitives encode event) ↔
      world.Undisturbed primitives encode event := by
  cases event with
  | begin peerId method data =>
      apply iff_of_true _ trivial
      apply tidy_of_stages
      intro number call hcall
      exact congrArg _ (Entries.getElem?_concat_of_some hcall _)
  | register number => exact tidy_register_iff number
  | send number io => exact tidy_send_iff number io
  | wake number => exact traced.tidy_wake_iff number
  | expire number => exact iff_of_true (tidy_expire number) trivial
  | cancel number => exact tidy_cancel_iff number
  | arrive answer =>
      apply iff_of_true (tidy_of_stages _) trivial
      intro number call hcall
      rw [RpcWorld.step, (continues_arrive answer).stages number (by simp), hcall]
      rfl
  | hand index =>
      apply iff_of_true (tidy_of_stages _) trivial
      intro number call hcall
      rw [RpcWorld.step, (continues_hand index).stages number (by simp), hcall]
      rfl
  | elsewhere node =>
      apply iff_of_true (tidy_of_stages _) trivial
      intro number call hcall
      exact congrArg (Option.map Call.stage) hcall

/-! ## Whole runs -/

variable (primitives encode) in
/-- In a run of any length, calls leave nothing behind exactly as long as nothing
disturbs them. -/
theorem tidy_iff_undisturbed (node : Node) (events : List RpcEvent) :
    (∀ earlier event later, events = earlier ++ event :: later →
        Tidy (earlier.foldl (step primitives encode) (new node)) event.caller
          ((earlier ++ [event]).foldl (step primitives encode) (new node))) ↔
      ∀ earlier event later, events = earlier ++ event :: later →
        (earlier.foldl (step primitives encode) (new node)).Undisturbed primitives encode
          event := by
  have hstep : ∀ (earlier : List RpcEvent) event,
      Tidy (earlier.foldl (step primitives encode) (new node)) event.caller
          ((earlier ++ [event]).foldl (step primitives encode) (new node)) ↔
        (earlier.foldl (step primitives encode) (new node)).Undisturbed primitives encode
          event := by
    intro earlier event
    rw [List.foldl_append]
    exact (traced_of_run primitives encode node earlier).tidy_iff primitives encode event
  simp only [hstep]

/-! ## Runs without ambiguous steps -/

/-- No call that has returned is in the table. -/
def Live (world : RpcWorld) : Prop :=
  ∀ id (number : Nat) (call : Call), world.pending.waiters.lookup id = some number →
    world.calls[number]? = some call → call.stage ≠ .returned

variable (primitives encode) in
/-- A request goes out. -/
def Sends (world : RpcWorld) : RpcEvent → Prop
  | .send number io => ∀ call, world.calls[number]? = some call → call.stage = .registered →
      (sendRequest primitives encode world.node call io).result = .ok ()
  | _ => True

/-- Every waiter of the next state was there before. -/
def Fewer (world next : RpcWorld) : Prop :=
  ∀ id owner, next.pending.waiters.lookup id = some owner →
    world.pending.waiters.lookup id = some owner

theorem Fewer.refl (world : RpcWorld) : world.Fewer world := fun _ _ howner => howner

variable (primitives encode) in
/-- Only a call that enters the table adds a waiter. -/
theorem fewer_step (event : RpcEvent) (hregister : ∀ number, event ≠ .register number) :
    world.Fewer (world.step primitives encode event) := by
  have herase : ∀ id other owner, (world.pending.waiters.erase other).lookup id = some owner →
      world.pending.waiters.lookup id = some owner :=
    fun _ _ _ howner => (lookup_of_lookup_erase howner).2
  cases event with
  | begin peerId method data => exact Fewer.refl world
  | register number => exact absurd rfl (hregister number)
  | send number io =>
      apply inStage_induct (Fewer.refl world)
      exact fun _ _ _ => Fewer.refl world
  | wake number => exact wake_induct (Fewer.refl world) fun _ _ _ _ => Fewer.refl world
  | expire number => exact expire_induct (Fewer.refl world) fun _ _ _ => Fewer.refl world
  | cancel number =>
      apply inStage_induct (Fewer.refl world)
      exact fun call _ _ id owner => herase id call.id owner
  | arrive answer =>
      apply arrive_induct (Fewer.refl world)
      exact fun _ _ id owner => herase id answer.response.requestId owner
  | hand index =>
      apply hand_induct (Fewer.refl world)
      · exact fun _ _ => Fewer.refl world
      · exact fun _ _ _ _ _ _ => Fewer.refl world
  | elsewhere node => exact Fewer.refl world

/-- A call that enters the table has not returned. -/
theorem Live.register (live : world.Live) (number : Nat) : (world.register number).Live := by
  apply inStage_induct live
  intro call hcall _ id owner found howner hfound
  rcases Entries.getElem?_set_cases hfound with ⟨rfl, rfl⟩ | ⟨hne, hold⟩
  · exact CallStage.noConfusion
  · by_cases hid : id = call.id
    · rw [PendingRequests.register, hid, AList.lookup_insert] at howner
      exact absurd (Option.some.inj howner).symm hne
    · rw [PendingRequests.register, AList.lookup_insert_ne hid] at howner
      exact live id owner found howner hold

variable (primitives encode) in
/-- A tidy step leaves no waiter to a call that has returned. -/
theorem Live.step (live : world.Live) (traced : world.Traced) (event : RpcEvent)
    (tidy : Tidy world event.caller (world.step primitives encode event)) :
    (world.step primitives encode event).Live := by
  by_cases hregister : ∃ number, event = .register number
  · obtain ⟨number, rfl⟩ := hregister
    exact live.register number
  · intro id number after howner hafter hreturned
    have hold := fewer_step primitives encode event (fun number heq => hregister ⟨number, heq⟩)
      id number howner
    obtain ⟨call, hcall, hid, _⟩ := traced.waiter id number hold
    have hgone := tidy.returns number call after hcall hafter (live id number call hold hcall)
      hreturned
    rw [hid, howner] at hgone
    cases hgone

/-- Where ids are not shared, a call is disturbed only if its request does not go out. -/
theorem Orderly.undisturbed (orderly : world.Orderly) (traced : world.Traced) (live : world.Live)
    (event : RpcEvent) (sends : world.Sends primitives encode event) :
    world.Undisturbed primitives encode event := by
  have hunshared : ∀ (number : Nat) (call : Call), world.calls[number]? = some call →
      call.stage ≠ .returned → world.Unshared number call := by
    intro number call hcall hstage other hother
    obtain ⟨found, hfound, hid, _⟩ := traced.waiter _ other hother
    exact orderly.correlates.distinct _ _ _ _ hfound hcall (live _ _ _ hother hfound) hstage hid
  cases event with
  | register number => exact fun call hcall hstage => hunshared number call hcall (by simp [hstage])
  | send number io => exact fun call hcall hstage => .inl (sends call hcall hstage)
  | wake number => exact fun call hcall hstage _ => hunshared number call hcall (by simp [hstage])
  | cancel number => exact fun call hcall hstage => hunshared number call hcall (by simp [hstage])
  | _ => trivial

variable (primitives encode) in
/-- In a run in which no step is ambiguous and every request goes out, calls leave nothing
behind. -/
theorem tidy_of_unambiguous (node : Node) (events : List RpcEvent)
    (guarded : ∀ earlier event later, events = earlier ++ event :: later →
      (earlier.foldl (step primitives encode) (new node)).Unambiguous event ∧
        (earlier.foldl (step primitives encode) (new node)).Sends primitives encode event)
    {earlier later : List RpcEvent} {event : RpcEvent}
    (hsplit : events = earlier ++ event :: later) :
    Tidy (earlier.foldl (step primitives encode) (new node)) event.caller
      ((earlier ++ [event]).foldl (step primitives encode) (new node)) := by
  have keeps : ∀ (world : RpcWorld) event, (world.Orderly ∧ world.Live) ∧ world.Traced →
      world.Unambiguous event ∧ world.Sends primitives encode event →
      ((world.step primitives encode event).Orderly ∧ (world.step primitives encode event).Live) ∧
        (world.step primitives encode event).Traced := by
    rintro world event ⟨⟨orderly, live⟩, traced⟩ ⟨unambiguous, sends⟩
    have htidy := (traced.tidy_iff primitives encode event).mpr
      (orderly.undisturbed traced live event sends)
    exact ⟨⟨orderly.step primitives encode event unambiguous,
      live.step primitives encode traced event htidy⟩, traced.step primitives encode event⟩
  have hbefore : ∀ before other after, earlier = before ++ other :: after →
      (before.foldl (step primitives encode) (new node)).Unambiguous other ∧
        (before.foldl (step primitives encode) (new node)).Sends primitives encode other := by
    intro before other after heq
    apply guarded before other (after ++ event :: later)
    rw [hsplit, heq]
    simp
  have live_new : (new node).Live := fun _ _ _ howner => by cases howner
  obtain ⟨⟨orderly, live⟩, traced⟩ := Transition.foldl_of_guarded keeps
    ⟨⟨orderly_new node, live_new⟩, traced_new node⟩ hbefore
  rw [List.foldl_append]
  exact (traced.tidy_iff primitives encode event).mpr
    (orderly.undisturbed traced live event (guarded earlier event later hsplit).2)

/-! ## A call that cannot be sent -/

/-- A call to a peer that the node does not know. -/
def unknownPeer : List RpcEvent :=
  [.begin "b" "ping" [], .register 0, .send 0 healthyIo]

/-- The call returns, and its waiter is still in the table. -/
theorem not_tidy_unknownPeer :
    ¬ ∀ earlier event later, unknownPeer = earlier ++ event :: later →
      Tidy (earlier.foldl (step .transparent fun request => .ok request.data)
          (new (.new "a" false []))) event.caller
        ((earlier ++ [event]).foldl (step .transparent fun request => .ok request.data)
          (new (.new "a" false []))) := by
  intro tidy
  have hlast := tidy [.begin "b" "ping" [], .register 0] (.send 0 healthyIo) [] rfl
  have hgone := hlast.returns 0 ⟨"b", "ping", [], 0, .registered, none, none⟩
    ⟨"b", "ping", [], 0, .returned, none, some (.error (.peerGone "b"))⟩ rfl rfl
    CallStage.noConfusion rfl
  cases hgone

end Mlink.Api.RpcWorld
