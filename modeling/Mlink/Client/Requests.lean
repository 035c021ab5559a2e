/-
# The requests of a client

A client registers each request under an id, in a map, with a timer. Four things take it
out again: the frame that answers it, its timer, and the clean-up after a close or a
`disconnect()`, which takes all of them. A request is written only after it was
registered, and when the write throws, the promise is rejected while the entry and the
timer stay.
-/

import Mlink.Client.Connection
import Mlink.Client.Rooms
import Mlink.Lib.Entries

namespace Mlink.Client

open Transition

/-- A request that was registered: whether it is still being written, whether its promise
is settled, and whether its timer is running. -/
structure Request where
  id : String
  writing : Bool
  settled : Bool
  timed : Bool
  deriving DecidableEq, Repr

/-- Settle the promise and clear the timer. -/
def Request.finish (request : Request) : Request :=
  { request with settled := true, timed := false }

/-- What stands in an id field of a frame: nothing, a text, or another value. -/
inductive FrameId
  | nullish
  | text (id : String)
  | other
  deriving DecidableEq, Repr

namespace FrameId

/-- The operator `??`. -/
def orElse : FrameId → FrameId → FrameId
  | nullish, second => second
  | first, _ => first

/-- The key that is looked up; an empty text counts as no id. -/
def key? : FrameId → Option String
  | text id => if id = "" then none else some id
  | nullish | other => none

end FrameId

/-- A frame, with the id at its top level and, if there is a payload, the one in it. -/
inductive InFrame
  | ack (id : FrameId) (payload : Option FrameId)
  | error (id : FrameId) (payload : Option FrameId)
  | other
  deriving DecidableEq, Repr

/-- The id under which a frame looks for its request. A handler that reads a missing
payload throws and comes to nothing. -/
def InFrame.key? : InFrame → Option String
  | ack .nullish none => none
  | ack id payload => (id.orElse (payload.getD .nullish)).key?
  | error _ none => none
  | error id (some payload) => (id.orElse payload).key?
  | other => none

/-- One more, as far as the numbers of the language go. -/
def nextNumber (number : Nat) : Nat := if number < 2 ^ 53 then number + 1 else number

/-- A client with every request it has registered, and the map of the pending ones. -/
structure ClientRequests where
  client : MlinkClient
  requests : List Request
  pending : AList fun _ : String => Nat
  nextId : Nat

inductive RequestStep
  | client (step : ClientStep)
  | request
  | written (index : Nat) (thrown : Bool)
  | frame (socket : Nat) (frame : InFrame)
  | timeout (index : Nat)
  deriving DecidableEq, Repr

namespace MlinkClient

def isConnected (client : MlinkClient) : Bool :=
  client.ws.any fun index =>
    client.sockets[index]?.any fun socket => socket.readyState = .opened

/-- The step runs `cleanupSocket`. -/
def cleansUp (client : MlinkClient) : ClientStep → Bool
  | .disconnect => true
  | .event (.onclose index) => client.closing = .none && client.liveAt index
  | .connect | .proceed | .event _ => false

end MlinkClient

namespace ClientRequests

def new (autoReconnect portKnown : Bool) : ClientRequests :=
  ⟨.new autoReconnect portKnown, [], ∅, 1⟩

variable (state : ClientRequests)

/-- `request`: without a connection it is rejected at once. -/
def request : ClientRequests :=
  if state.client.isConnected then
    { state with
      requests := state.requests ++ [⟨requestId state.nextId, true, false, true⟩]
      pending := state.pending.insert (requestId state.nextId) state.requests.length
      nextId := nextNumber state.nextId }
  else state

/-- The write of a request returns, or throws and thereby rejects its promise. -/
def written (index : Nat) (thrown : Bool) : ClientRequests :=
  { state with
    requests := state.requests.modify index fun request =>
      if request.writing then
        { request with writing := false, settled := request.settled || thrown }
      else request }

/-- The part of `handleFrame` that concerns requests. -/
def handleFrame (frame : InFrame) : ClientRequests :=
  match frame.key? with
  | none => state
  | some id =>
      match state.pending.lookup id with
      | none => state
      | some index =>
          { state with
            pending := state.pending.erase id
            requests := state.requests.modify index Request.finish }

/-- The timer of a request. -/
def timeout (index : Nat) : ClientRequests :=
  match state.requests[index]? with
  | none => state
  | some request =>
      if request.timed then
        { state with
          pending := state.pending.erase request.id
          requests := state.requests.modify index Request.finish }
      else state

/-- What `cleanupSocket` does to the requests in the map. -/
def rejectPending : ClientRequests :=
  { state with
    pending := ∅
    requests := state.pending.entries.foldl
      (fun requests entry => requests.modify entry.2 Request.finish) state.requests }

def perform : RequestStep → ClientRequests
  | .client step =>
      { (if state.client.cleansUp step then state.rejectPending else state) with
        client := state.client.after step }
  | .request => state.request
  | .written index thrown => state.written index thrown
  | .frame socket frame =>
      if state.client.closing = .none && state.client.sockets[socket]?.any Socket.heard then
        state.handleFrame frame
      else state
  | .timeout index => state.timeout index

def unsettledAt (index : Nat) : Bool := state.requests[index]?.any fun request => !request.settled

/-- The map holds exactly the requests that are not settled, and without a socket there is
none. -/
structure Exact : Prop where
  pending : ∀ index, (∃ id, state.pending.lookup id = some index) ↔ state.unsettledAt index = true
  closed : state.client.ws = none → ∀ index, state.unsettledAt index = false

/-- The step, if a frame, settles no request but the one whose id the frame carries. -/
def SettlesOwn (step : RequestStep) : Prop :=
  match step with
  | .frame _ frame =>
      ∀ (index : Nat) (request : Request), state.requests[index]? = some request →
        request.settled = false → (state.perform step).unsettledAt index = false →
          frame.key? = some request.id
  | .client _ | .request | .written _ _ | .timeout _ => True

/-- No write throws while its request is not settled, and no id is given to a request
while another one is pending under it. -/
def Careful : RequestStep → Prop
  | .written index true =>
      ∀ request ∈ state.requests[index]?, request.writing = true → request.settled = true
  | .request => state.client.isConnected = true → requestId state.nextId ∉ state.pending
  | .client _ | .written _ false | .frame _ _ | .timeout _ => True

/-! ## What a careful run keeps -/

/-- An entry of the map leads to a request of that id. -/
def Named : Prop :=
  ∀ id index, state.pending.lookup id = some index →
    ∃ request, state.requests[index]? = some request ∧ request.id = id

/-- The map holds the unsettled requests under their ids, and only they have timers. -/
structure Kept : Prop where
  held : ∀ id index, state.pending.lookup id = some index ↔
    ∃ request, state.requests[index]? = some request ∧ request.id = id ∧ request.settled = false
  timed : ∀ (index : Nat) (request : Request), state.requests[index]? = some request →
    request.timed = true → request.settled = false
  closed : state.client.ws = none → ∀ (index : Nat) (request : Request),
    state.requests[index]? = some request → request.settled = true

section Steps

variable {state}

theorem unsettledAt_iff {index : Nat} : state.unsettledAt index = true ↔
    ∃ request, state.requests[index]? = some request ∧ request.settled = false := by
  rw [unsettledAt, Option.any_eq_true]
  simp

theorem Kept.named (kept : state.Kept) : state.Named := by
  intro id index hlookup
  obtain ⟨request, hrequest, hid, _⟩ := (kept.held id index).mp hlookup
  exact ⟨request, hrequest, hid⟩

theorem Kept.exact (kept : state.Kept) : state.Exact where
  pending index := by
    rw [unsettledAt_iff]
    constructor
    · rintro ⟨id, hlookup⟩
      obtain ⟨request, hrequest, _, hsettled⟩ := (kept.held id index).mp hlookup
      exact ⟨request, hrequest, hsettled⟩
    · rintro ⟨request, hrequest, hsettled⟩
      exact ⟨request.id, (kept.held _ index).mpr ⟨request, hrequest, rfl, hsettled⟩⟩
  closed hws index := by
    rw [← Bool.not_eq_true, unsettledAt_iff]
    rintro ⟨request, hrequest, hsettled⟩
    rw [kept.closed hws index request hrequest] at hsettled
    cases hsettled

theorem kept_new (autoReconnect portKnown : Bool) : (new autoReconnect portKnown).Kept where
  held id index := by simp [new]
  timed index request hrequest := by simp [new] at hrequest
  closed _ index request hrequest := by simp [new] at hrequest

/-- Taking a request out of the map and settling it. -/
theorem Kept.finish (kept : state.Kept) {id : String} {index : Nat}
    (hlookup : state.pending.lookup id = some index) :
    Kept { state with
      pending := state.pending.erase id
      requests := state.requests.modify index Request.finish } := by
  obtain ⟨taken, htaken, htakenId, _⟩ := (kept.held id index).mp hlookup
  refine ⟨?_, ?_, ?_⟩
  · intro other place
    dsimp only
    constructor
    · intro hother
      have hne : other ≠ id := by
        rintro rfl
        rw [AList.lookup_erase] at hother
        cases hother
      rw [AList.lookup_erase_ne hne] at hother
      obtain ⟨request, hrequest, hid, hsettled⟩ := (kept.held other place).mp hother
      have hplace : index ≠ place := by
        rintro rfl
        rw [htaken] at hrequest
        cases hrequest
        exact hne (hid.symm.trans htakenId)
      refine ⟨request, ?_, hid, hsettled⟩
      rw [Entries.getElem?_modify_of_some hrequest, if_neg hplace]
    · rintro ⟨request, hrequest, hid, hsettled⟩
      obtain ⟨before, hbefore, hchange⟩ := Entries.getElem?_modify_eq_some hrequest
      by_cases hplace : index = place
      · rw [if_pos hplace] at hchange
        rw [hchange] at hsettled
        cases hsettled
      · rw [if_neg hplace] at hchange
        subst hchange
        have hother := (kept.held other place).mpr ⟨request, hbefore, hid, hsettled⟩
        have hne : other ≠ id := by
          rintro rfl
          exact hplace (Option.some.inj (hlookup.symm.trans hother))
        rw [AList.lookup_erase_ne hne, hother]
  · intro place request hrequest htimed
    obtain ⟨before, hbefore, hchange⟩ := Entries.getElem?_modify_eq_some hrequest
    split_ifs at hchange with hplace
    · rw [hchange] at htimed
      cases htimed
    · subst hchange
      exact kept.timed place request hbefore htimed
  · intro hws place request hrequest
    obtain ⟨before, hbefore, hchange⟩ := Entries.getElem?_modify_eq_some hrequest
    split_ifs at hchange with hplace
    · rw [hchange]
      rfl
    · subst hchange
      exact kept.closed hws place request hbefore

theorem Kept.handleFrame (kept : state.Kept) (frame : InFrame) :
    (state.handleFrame frame).Kept := by
  rw [ClientRequests.handleFrame]
  cases frame.key? with
  | none => exact kept
  | some id =>
      dsimp only
      cases hlookup : state.pending.lookup id with
      | none => exact kept
      | some index => exact kept.finish hlookup

theorem Kept.timeout (kept : state.Kept) (index : Nat) : (state.timeout index).Kept := by
  rw [ClientRequests.timeout]
  cases hrequest : state.requests[index]? with
  | none => exact kept
  | some request =>
      dsimp only
      split_ifs with htimed
      · have hsettled := kept.timed index request hrequest htimed
        exact kept.finish ((kept.held _ index).mpr ⟨request, hrequest, rfl, hsettled⟩)
      · exact kept

/-- A request under a new id. -/
theorem Kept.request (kept : state.Kept)
    (fresh : state.client.isConnected = true → requestId state.nextId ∉ state.pending) :
    state.request.Kept := by
  rw [ClientRequests.request]
  split_ifs with hconnected
  · have hnew := fresh hconnected
    have hnone : state.pending.lookup (requestId state.nextId) = none :=
      AList.lookup_eq_none.mpr hnew
    refine ⟨?_, ?_, ?_⟩
    · intro id index
      dsimp only
      by_cases hid : id = requestId state.nextId
      · subst hid
        rw [AList.lookup_insert]
        constructor
        · intro hindex
          cases hindex
          exact ⟨_, List.getElem?_concat_length, rfl, rfl⟩
        · rintro ⟨request, hrequest, hid, hsettled⟩
          rcases Entries.getElem?_concat_cases hrequest with hold | ⟨hindex, _⟩
          · rw [(kept.held _ index).mpr ⟨request, hold, hid, hsettled⟩] at hnone
            cases hnone
          · rw [hindex]
      · rw [AList.lookup_insert_ne hid, kept.held id index]
        constructor
        · rintro ⟨request, hrequest, hrest⟩
          exact ⟨request, Entries.getElem?_concat_of_some hrequest _, hrest⟩
        · rintro ⟨request, hrequest, hname, hsettled⟩
          rcases Entries.getElem?_concat_cases hrequest with hold | ⟨_, hlast⟩
          · exact ⟨request, hold, hname, hsettled⟩
          · rw [hlast] at hname
            exact absurd hname.symm hid
    · intro index request hrequest htimed
      rcases Entries.getElem?_concat_cases hrequest with hold | ⟨_, hlast⟩
      · exact kept.timed index request hold htimed
      · rw [hlast]
    · intro hws
      have hsocket : state.client.ws = none := hws
      rw [MlinkClient.isConnected, hsocket] at hconnected
      cases hconnected
  · exact kept

/-- A write that does not throw at an unsettled request. -/
theorem Kept.written (kept : state.Kept) (index : Nat) (thrown : Bool)
    (harmless : thrown = true → ∀ request ∈ state.requests[index]?, request.writing = true →
      request.settled = true) : (state.written index thrown).Kept := by
  -- the request keeps its id, its promise and its timer
  have hsame : ∀ (place : Nat) (request : Request),
      (state.written index thrown).requests[place]? = some request →
        ∃ before : Request, state.requests[place]? = some before ∧ request.id = before.id ∧
          request.settled = before.settled ∧ request.timed = before.timed := by
    intro place request hrequest
    obtain ⟨before, hbefore, hchange⟩ := Entries.getElem?_modify_eq_some hrequest
    refine ⟨before, hbefore, ?_⟩
    split_ifs at hchange with hplace hwriting
    · subst hplace
      rw [hchange]
      refine ⟨rfl, ?_, rfl⟩
      cases thrown with
      | false => exact Bool.or_false _
      | true =>
          have hsettled := harmless rfl before hbefore hwriting
          rw [hsettled]
          rfl
    · rw [hchange]
      exact ⟨rfl, rfl, rfl⟩
    · rw [hchange]
      exact ⟨rfl, rfl, rfl⟩
  have hback : ∀ (place : Nat) (before : Request), state.requests[place]? = some before →
      ∃ request, (state.written index thrown).requests[place]? = some request :=
    fun place before hbefore => ⟨_, Entries.getElem?_modify_of_some hbefore⟩
  refine ⟨?_, ?_, ?_⟩
  · intro id place
    change state.pending.lookup id = some place ↔ _
    rw [kept.held id place]
    constructor
    · rintro ⟨before, hbefore, hid, hsettled⟩
      obtain ⟨request, hrequest⟩ := hback place before hbefore
      obtain ⟨other, hother, hids, hsettleds, _⟩ := hsame place request hrequest
      cases Option.some.inj (hbefore.symm.trans hother)
      exact ⟨request, hrequest, hids.trans hid, hsettleds.trans hsettled⟩
    · rintro ⟨request, hrequest, hid, hsettled⟩
      obtain ⟨before, hbefore, hids, hsettleds, _⟩ := hsame place request hrequest
      exact ⟨before, hbefore, hids.symm.trans hid, hsettleds.symm.trans hsettled⟩
  · intro place request hrequest htimed
    obtain ⟨before, hbefore, _, hsettleds, htimeds⟩ := hsame place request hrequest
    rw [hsettleds]
    exact kept.timed place before hbefore (htimeds.symm.trans htimed)
  · intro hws place request hrequest
    obtain ⟨before, hbefore, _, hsettleds, _⟩ := hsame place request hrequest
    rw [hsettleds]
    exact kept.closed hws place before hbefore

/-- Clearing the map settles what it holds, and leaves the rest. -/
theorem getElem?_foldl_finish (entries : List (Sigma fun _ : String => Nat))
    (requests : List Request) (index : Nat) :
    (entries.foldl (fun requests entry => requests.modify entry.2 Request.finish) requests)[index]? =
      requests[index]?.map fun request =>
        if index ∈ entries.map Sigma.snd then request.finish else request := by
  induction entries generalizing requests with
  | nil => simp
  | cons entry rest ih =>
      rw [List.foldl_cons, ih, List.getElem?_modify]
      cases requests[index]? with
      | none => rfl
      | some request =>
          by_cases hhere : entry.2 = index <;> by_cases hlater : index ∈ rest.map Sigma.snd <;>
            simp_all [Request.finish, eq_comm]

/-- After the clean-up no request is left unsettled, and no timer runs. -/
theorem Kept.finished_rejectPending (kept : state.Kept) {index : Nat} {request : Request}
    (hrequest : state.rejectPending.requests[index]? = some request) :
    request.settled = true ∧ request.timed = false := by
  rw [rejectPending] at hrequest
  dsimp only at hrequest
  rw [getElem?_foldl_finish, Option.map_eq_some_iff] at hrequest
  obtain ⟨before, hbefore, hchange⟩ := hrequest
  split_ifs at hchange with hmem
  · rw [← hchange]
    exact ⟨rfl, rfl⟩
  · subst hchange
    have hsettled : before.settled = true := by
      by_contra hopen
      have hlookup := (kept.held before.id index).mpr
        ⟨before, hbefore, rfl, Bool.not_eq_true _ ▸ hopen⟩
      exact hmem (List.mem_map.mpr ⟨⟨_, index⟩, AList.mem_lookup_iff.mp hlookup, rfl⟩)
    refine ⟨hsettled, ?_⟩
    by_contra htimed
    have hopen := kept.timed index before hbefore (Bool.not_eq_false _ ▸ htimed)
    rw [hsettled] at hopen
    cases hopen

/-- A socket is only let go of in the clean-up. -/
theorem ws_after {client : MlinkClient} {step : ClientStep} (hstep : client.cleansUp step = false)
    (hws : (client.after step).ws = none) : client.ws = none := by
  cases step with
  | disconnect => cases hstep
  | connect =>
      rw [MlinkClient.after, MlinkClient.connect] at hws
      split_ifs at hws <;> exact hws
  | proceed =>
      rw [MlinkClient.after, MlinkClient.proceed] at hws
      split at hws <;> exact hws
  | event event =>
      rw [MlinkClient.after] at hws
      split_ifs at hws with hclosing
      · cases event with
        | resolvePort opening =>
            rw [MlinkClient.handle] at hws
            split_ifs at hws
            · cases opening with
              | noPort =>
                  rw [MlinkClient.resolvePort] at hws
                  split_ifs at hws <;> exact hws
              | thrown => exact hws
              | opened => cases hws
            · exact hws
        | clear =>
            rw [MlinkClient.handle] at hws
            split_ifs at hws <;> exact hws
        | onopen socket =>
            rw [MlinkClient.handle] at hws
            split_ifs at hws <;> exact hws
        | onmessage socket ready =>
            rw [MlinkClient.handle] at hws
            split_ifs at hws <;> exact hws
        | onerror socket =>
            rw [MlinkClient.handle] at hws
            split_ifs at hws <;> exact hws
        | onclose socket =>
            have hdead : client.liveAt socket = false := by
              simpa [MlinkClient.cleansUp, hclosing] using hstep
            rw [MlinkClient.handle, MlinkClient.onclose, hdead] at hws
            exact hws
        | timer opening =>
            rw [MlinkClient.handle] at hws
            split_ifs at hws
            · rw [MlinkClient.timer] at hws
              split_ifs at hws
              · cases hws
              · exact hws
            · exact hws
      · exact hws

theorem Kept.client (kept : state.Kept) (step : ClientStep) :
    (state.perform (.client step)).Kept := by
  rw [perform]
  cases hcleans : state.client.cleansUp step with
  | true =>
      refine ⟨?_, ?_, ?_⟩
      · intro id index
        refine iff_of_false (fun hnone => nomatch hnone) ?_
        rintro ⟨request, hrequest, _, hsettled⟩
        rw [(kept.finished_rejectPending hrequest).1] at hsettled
        cases hsettled
      · intro index request hrequest htimed
        rw [(kept.finished_rejectPending hrequest).2] at htimed
        cases htimed
      · exact fun _ index request hrequest => (kept.finished_rejectPending hrequest).1
  | false => exact ⟨kept.held, kept.timed, fun hws => kept.closed (ws_after hcleans hws)⟩

/-- A careful step keeps the table. -/
theorem Kept.perform (kept : state.Kept) {step : RequestStep} (careful : state.Careful step) :
    (state.perform step).Kept := by
  cases step with
  | client step => exact kept.client step
  | request => exact kept.request careful
  | written index thrown =>
      apply kept.written index thrown
      rintro rfl
      exact careful
  | frame socket frame =>
      rw [ClientRequests.perform]
      split_ifs
      · exact kept.handleFrame frame
      · exact kept
  | timeout index => exact kept.timeout index

/-- And a step after which the table is exact was careful. -/
theorem Kept.careful (kept : state.Kept) {step : RequestStep} (exact : (state.perform step).Exact) :
    state.Careful step := by
  cases step with
  | client step => trivial
  | frame socket frame => trivial
  | timeout index => trivial
  | request =>
      intro hconnected hpending
      obtain ⟨index, hlookup⟩ := Option.isSome_iff_exists.mp (AList.lookup_isSome.mpr hpending)
      obtain ⟨request, hrequest, hid, hsettled⟩ := (kept.held _ index).mp hlookup
      have hnext : state.perform .request =
          { state with
            requests := state.requests ++ [⟨requestId state.nextId, true, false, true⟩]
            pending := state.pending.insert (requestId state.nextId) state.requests.length
            nextId := nextNumber state.nextId } := if_pos hconnected
      -- the older request has lost its entry and is not settled
      rw [hnext] at exact
      obtain ⟨other, hother⟩ := (exact.pending index).mpr
        (unsettledAt_iff.mpr ⟨request, Entries.getElem?_concat_of_some hrequest _, hsettled⟩)
      dsimp only at hother
      by_cases hsame : other = requestId state.nextId
      · rw [hsame, AList.lookup_insert] at hother
        obtain ⟨hbound, _⟩ := List.getElem?_eq_some_iff.mp hrequest
        exact absurd (Option.some.inj hother) hbound.ne'
      · rw [AList.lookup_insert_ne hsame] at hother
        obtain ⟨again, hagain, hname, _⟩ := (kept.held other index).mp hother
        cases Option.some.inj (hrequest.symm.trans hagain)
        exact hsame (hname.symm.trans hid)
  | written index thrown =>
      cases thrown with
      | false => trivial
      | true =>
          intro request hrequest hwriting
          by_contra hopen
          have hsettled : request.settled = false := Bool.not_eq_true _ ▸ hopen
          have hlookup := (kept.held _ index).mpr ⟨request, hrequest, rfl, hsettled⟩
          obtain ⟨after, hafter, hunsettled⟩ :=
            unsettledAt_iff.mp ((exact.pending index).mp ⟨request.id, hlookup⟩)
          obtain ⟨before, hbefore, hchange⟩ := Entries.getElem?_modify_eq_some hafter
          cases Option.some.inj (hbefore.symm.trans hrequest)
          rw [if_pos rfl, if_pos hwriting] at hchange
          rw [hchange] at hunsettled
          simp at hunsettled

/-! ## What a frame settles -/

/-- A frame leaves every request alone whose id it does not carry. -/
theorem Named.getElem?_handleFrame (named : state.Named) {frame : InFrame} {index : Nat}
    {request : Request} (hrequest : state.requests[index]? = some request)
    (foreign : frame.key? ≠ some request.id) :
    (state.handleFrame frame).requests[index]? = some request := by
  rw [ClientRequests.handleFrame]
  cases hkey : frame.key? with
  | none => exact hrequest
  | some id =>
      dsimp only
      cases hlookup : state.pending.lookup id with
      | none => exact hrequest
      | some found =>
          have hne : found ≠ index := by
            rintro rfl
            obtain ⟨owner, howner, hid⟩ := named id found hlookup
            cases Option.some.inj (howner.symm.trans hrequest)
            exact foreign (hkey.trans (congrArg some hid.symm))
          dsimp only
          rw [Entries.getElem?_modify_of_some hrequest, if_neg hne]

theorem Named.settlesOwn (named : state.Named) (step : RequestStep) : state.SettlesOwn step := by
  cases step with
  | client step => trivial
  | request => trivial
  | written index thrown => trivial
  | timeout index => trivial
  | frame socket frame =>
      intro index request hrequest hopen hsettled
      by_contra hforeign
      have hstill : (state.perform (.frame socket frame)).unsettledAt index = true := by
        rw [perform, unsettledAt_iff]
        split_ifs
        · exact ⟨request, named.getElem?_handleFrame hrequest hforeign, hopen⟩
        · exact ⟨request, hrequest, hopen⟩
      rw [hsettled] at hstill
      cases hstill

/-- A request keeps its id. -/
theorem Named.modify (named : state.Named) {pending : AList fun _ : String => Nat}
    (fewer : ∀ id index, pending.lookup id = some index → state.pending.lookup id = some index)
    (place : Nat) {change : Request → Request} (same : ∀ request, (change request).id = request.id) :
    Named { state with pending := pending, requests := state.requests.modify place change } := by
  intro id index hlookup
  obtain ⟨request, hrequest, hid⟩ := named id index (fewer id index hlookup)
  refine ⟨_, Entries.getElem?_modify_of_some hrequest, ?_⟩
  split_ifs
  · rw [same, hid]
  · exact hid

theorem Named.finish (named : state.Named) (id : String) (index : Nat) :
    Named { state with
      pending := state.pending.erase id
      requests := state.requests.modify index Request.finish } := by
  refine named.modify ?_ index fun request => rfl
  intro other place hlookup
  have hne : other ≠ id := by
    rintro rfl
    rw [AList.lookup_erase] at hlookup
    cases hlookup
  rwa [AList.lookup_erase_ne hne] at hlookup

/-- Every step keeps the entries of the map named, careful or not. -/
theorem Named.perform (named : state.Named) (step : RequestStep) : (state.perform step).Named := by
  cases step with
  | client step =>
      rw [ClientRequests.perform]
      split_ifs
      · exact fun id index hlookup => nomatch hlookup
      · exact named
  | request =>
      rw [ClientRequests.perform, ClientRequests.request]
      split_ifs
      · intro id index hlookup
        dsimp only at hlookup
        by_cases hid : id = requestId state.nextId
        · rw [hid, AList.lookup_insert] at hlookup
          cases hlookup
          exact ⟨_, List.getElem?_concat_length, hid.symm⟩
        · rw [AList.lookup_insert_ne hid] at hlookup
          obtain ⟨request, hrequest, hname⟩ := named id index hlookup
          exact ⟨request, Entries.getElem?_concat_of_some hrequest _, hname⟩
      · exact named
  | written index thrown =>
      apply named.modify (fun _ _ => id) index
      intro request
      split_ifs <;> rfl
  | frame socket frame =>
      rw [ClientRequests.perform]
      split_ifs
      · rw [handleFrame]
        cases frame.key? with
        | none => exact named
        | some id =>
            dsimp only
            cases state.pending.lookup id with
            | none => exact named
            | some index => exact named.finish id index
      · exact named
  | timeout index =>
      rw [ClientRequests.perform, timeout]
      cases state.requests[index]? with
      | none => exact named
      | some request =>
          dsimp only
          split_ifs
          · exact named.finish request.id index
          · exact named

end Steps

/-- In every run the table is exact throughout, and every frame settles its own request
alone, exactly when no write throws at an unsettled request and no id is given out that is
still pending. -/
theorem exact_iff_careful (autoReconnect portKnown : Bool) (steps : List RequestStep) :
    ((∀ earlier later, steps = earlier ++ later →
        (earlier.foldl perform (new autoReconnect portKnown)).Exact) ∧
      ∀ earlier step later, steps = earlier ++ step :: later →
        (earlier.foldl perform (new autoReconnect portKnown)).SettlesOwn step) ↔
      ∀ earlier step later, steps = earlier ++ step :: later →
        (earlier.foldl perform (new autoReconnect portKnown)).Careful step := by
  have hkeeps : ∀ state step, Kept state → Careful state step → Kept (perform state step) :=
    fun _ _ kept careful => kept.perform careful
  have hneeded : ∀ state step, Kept state → Exact (perform state step) → Careful state step :=
    fun _ _ kept exact => kept.careful exact
  have hexact := forall_foldl_iff_of_invariant (fun _ => Kept.exact) hkeeps hneeded
    (kept_new autoReconnect portKnown) steps
  have hnamed : ∀ earlier : List RequestStep,
      (earlier.foldl perform (new autoReconnect portKnown)).Named := by
    intro earlier
    induction earlier using List.reverseRecOn with
    | nil => exact (kept_new autoReconnect portKnown).named
    | append_singleton earlier step ih =>
        rw [List.foldl_concat]
        exact ih.perform step
  rw [hexact]
  exact and_iff_left fun earlier step _ _ => (hnamed earlier).settlesOwn step

/-! ## A payload that JSON cannot express -/

/-- A client connects, and sends a message whose payload cannot be written. -/
def unwritable : List RequestStep :=
  [.client .connect, .client (.event (.resolvePort .opened)), .client (.event (.onopen 0)),
    .client (.event (.onmessage 0 true)), .request, .written 0 true]

/-- The promise of the request is rejected, and the request still pending. -/
theorem not_exact_unwritable :
    (unwritable.foldl perform (new true true)).requests =
        [⟨"req-1", false, true, true⟩] ∧
      (unwritable.foldl perform (new true true)).pending.lookup "req-1" = some 0 ∧
      ¬ (unwritable.foldl perform (new true true)).Exact := by
  have hsettled : (unwritable.foldl perform (new true true)).unsettledAt 0 = false := by decide
  have hpending : (unwritable.foldl perform (new true true)).pending.lookup "req-1" = some 0 := by
    decide
  refine ⟨by decide, hpending, ?_⟩
  intro exact
  have hunsettled := (exact.pending 0).mp ⟨"req-1", hpending⟩
  rw [hsettled] at hunsettled
  cases hunsettled

end ClientRequests

end Mlink.Client
