import MartCommon.Netlib.Datagram

namespace MartCommon.Netlib.Datagram

open Library PortLayer
open RaiiSocket (Safe Entry owned owned_eq_some)

variable {Object Endpoint Address : Type*} [DecidableEq Object]

/-- A member tells an address of the operating system, or it is empty where there is none. -/
def Shows (T : EndpointType Endpoint Address) : Option Address → Endpoint → Prop
  | none, ep => ep = T.empty
  | some address, ep => T.toSockAddr ep = address

/-- The members of a socket tell the addresses of its handle. Where `tracks` fails, the remote one may
be set to something else. -/
structure Agrees (T : EndpointType Endpoint Address) (tracks : Prop)
    (state : State Object Endpoint Address) (object : Object) (handle : Handle) : Prop where
  local_ : ∃ socket, state.base.os handle = some socket ∧ Shows T socket.address (state.epLocal object)
  remote : tracks → Shows T (state.peers handle) (state.epRemote object)

/-- The sockets own their handles and tell their addresses. -/
structure Sound (T : EndpointType Endpoint Address) (tracks : Prop)
    (events : List (Ownership.Event Handle)) (state : State Object Endpoint Address) : Prop where
  safe : Safe events state.base
  unreleased : ∀ handle, .released handle ∉ events
  agrees : ∀ object handle, state.base.holds object = some handle → Agrees T tracks state object handle

variable {T : EndpointType Endpoint Address} {tracks : Prop} {events : List (Ownership.Event Handle)}
  {state after : State Object Endpoint Address} {object other self : Object}

theorem perform_eq_some {action : RaiiSocket.Action Object} {entries : List (Entry Address)} :
    state.perform action = some (entries, after) ↔
      RaiiSocket.step state.base action = some (entries, after.base) ∧
        after = { state with base := after.base } := by
  rw [State.perform, Option.map_eq_some_iff]
  constructor
  · rintro ⟨⟨found, base⟩, stepped, same⟩
    obtain ⟨rfl, rfl⟩ := Prod.mk.inj same
    exact ⟨stepped, rfl⟩
  · rintro ⟨stepped, same⟩
    exact ⟨_, stepped, congrArg (Prod.mk entries) same.symm⟩

omit [DecidableEq Object] in
theorem sound_initial : Sound T tracks [] (initial Object T) where
  safe := RaiiSocket.safe_initial
  unreleased := by simp
  agrees := by
    intro object handle held
    contradiction

/-- The calls of the port layer give no handle to the rest of the program. -/
theorem unreleased_calls (calls : List (Call Address)) (handle : Handle) :
    .released handle ∉ (calls.map Entry.call).filterMap Entry.ownership := by
  intro member
  obtain ⟨entry, inside, released⟩ := List.mem_filterMap.mp member
  obtain ⟨call, -, rfl⟩ := List.mem_map.mp inside
  rcases call with (_ | _) | _ | ⟨_, _ | _⟩ | _ | _ | _ | _ | _ <;>
    simp [Entry.ownership] at released

/-- Only `release` gives a handle to the rest of the program. -/
theorem unreleased_step {before after : RaiiSocket.State Object Address}
    {action : RaiiSocket.Action Object} {entries : List (Entry Address)}
    (stepped : RaiiSocket.step before action = some (entries, after))
    (keeps : ∀ object, action ≠ .release object) (handle : Handle) :
    .released handle ∉ entries.filterMap Entry.ownership := by
  cases action with
  | release object => exact absurd rfl (keeps object)
  | default object | openSocket object answer blocking =>
      obtain ⟨_, rfl, _⟩ := RaiiSocket.construct_eq_some stepped
      exact unreleased_calls _ handle
  | accept object listener answer blocking | moveConstruct object other =>
      simp only [RaiiSocket.step, Option.ite_none_right_eq_some] at stepped
      obtain ⟨_, rfl, _⟩ := RaiiSocket.construct_eq_some stepped.2
      exact unreleased_calls _ handle
  | moveAssign self other answer | close object answer | destroy object answer =>
      simp only [RaiiSocket.step, Option.ite_none_right_eq_some] at stepped
      obtain ⟨rfl, _⟩ := RaiiSocket.perform_eq_some stepped.2
      exact unreleased_calls _ handle
  | adopt object adopted blocking =>
      simp only [RaiiSocket.step, Option.ite_none_right_eq_some] at stepped
      obtain ⟨_, constructed⟩ := stepped
      split at constructed
      · contradiction
      rename_i rest final built
      cases constructed
      obtain ⟨_, rfl, _⟩ := RaiiSocket.construct_eq_some built
      by_cases invalid : adopted = .invalid
      · simpa [Entry.ownership, invalid] using unreleased_calls _ handle
      · simpa [Entry.ownership, invalid] using unreleased_calls _ handle
  | opensElsewhere opened =>
      simp only [RaiiSocket.step] at stepped
      split at stepped <;> cases stepped
      exact List.not_mem_nil
  | closesElsewhere closed =>
      simp only [RaiiSocket.step, Option.ite_none_right_eq_some] at stepped
      cases stepped.2
      exact List.not_mem_nil

omit [DecidableEq Object] in
/-- What is known of an object and its handle did not change. -/
theorem Agrees.congr {handle : Handle} (agrees : Agrees T tracks state object handle)
    (os : after.base.os handle = state.base.os handle) (peers : after.peers handle = state.peers handle)
    (epLocal : after.epLocal object = state.epLocal object)
    (epRemote : after.epRemote object = state.epRemote object) : Agrees T tracks after object handle where
  local_ := by
    rw [os, epLocal]
    exact agrees.local_
  remote := by
    rw [peers, epRemote]
    exact agrees.remote

/-- An operation on socket objects keeps the sockets sound, if it leaves those that it touches in
agreement. -/
theorem Sound.member {action : RaiiSocket.Action Object} {entries : List (Entry Address)}
    (sound : Sound T tracks events state)
    (stepped : RaiiSocket.step state.base action = some (entries, after.base))
    (keeps : ∀ object, action ≠ .release object)
    (same : ∀ object, object ∉ action.touches →
      after.epLocal object = state.epLocal object ∧ after.epRemote object = state.epRemote object)
    (peers : ∀ object handle, object ∉ action.touches → state.base.holds object = some handle →
      after.peers handle = state.peers handle)
    (touched : ∀ object handle, object ∈ action.touches → after.base.holds object = some handle →
      Agrees T tracks after object handle) :
    Sound T tracks (events ++ entries.filterMap Entry.ownership) after := by
  refine ⟨sound.safe.step stepped, ?_, ?_⟩
  · intro handle member
    rcases List.mem_append.mp member with earlier | now
    · exact sound.unreleased handle earlier
    · exact unreleased_step stepped keeps handle now
  intro object handle held
  by_cases touches : object ∈ action.touches
  · exact touched object handle touches held
  · obtain ⟨sameSocket, _, sameOs⟩ := sound.safe.step_frame stepped touches
    obtain ⟨sameLocal, sameRemote⟩ := same object touches
    have before : state.base.holds object = some handle := by
      rw [← held]
      simp only [RaiiSocket.State.holds, Function.comp_apply, sameSocket]
    exact (sound.agrees object handle before).congr (sameOs handle before)
      (peers object handle touches before) sameLocal sameRemote

/-- An operation that leaves what it touches without a handle keeps the sockets sound. -/
theorem Sound.vacate {action : RaiiSocket.Action Object} {entries : List (Entry Address)}
    (sound : Sound T tracks events state) (performed : state.perform action = some (entries, after))
    (keeps : ∀ object, action ≠ .release object)
    (emptied : ∀ object ∈ action.touches, after.base.holds object = none) :
    Sound T tracks (events ++ entries.filterMap Entry.ownership) after := by
  obtain ⟨stepped, same⟩ := perform_eq_some.mp performed
  apply sound.member stepped keeps
  · intro object _
    rw [same]
    exact ⟨rfl, rfl⟩
  · intro object handle _ _
    rw [same]
  · intro object handle touches held
    rw [emptied object touches] at held
    contradiction

/-- A closed socket owns nothing. -/
theorem close_holds {before after : RaiiSocket.State Object Address} {answer : CloseAnswer}
    {entries : List (Entry Address)}
    (stepped : RaiiSocket.step before (.close object answer) = some (entries, after)) :
    after.holds object = none := by
  simp only [RaiiSocket.step, Option.ite_none_right_eq_some] at stepped
  obtain ⟨_, os, _, rfl⟩ := RaiiSocket.perform_eq_some stepped.2
  simp [RaiiSocket.State.holds, RaiiSocket.close]

theorem Sound.destroy {answer : CloseAnswer} {entries : List (Entry Address)}
    (sound : Sound T tracks events state)
    (performed : state.perform (.destroy object answer) = some (entries, after)) :
    Sound T tracks (events ++ entries.filterMap Entry.ownership) after := by
  apply sound.vacate performed nofun
  intro target member
  rw [List.mem_singleton.mp member]
  exact RaiiSocket.destroy_holds (perform_eq_some.mp performed).1

theorem Sound.tryClose {answer : CloseAnswer} {entries : List (Entry Address)}
    (sound : Sound T tracks events state)
    (performed : state.perform (.close object answer) = some (entries, after)) :
    Sound T tracks (events ++ entries.filterMap Entry.ownership) after := by
  apply sound.vacate performed nofun
  intro target member
  rw [List.mem_singleton.mp member]
  exact close_holds (perform_eq_some.mp performed).1

omit [DecidableEq Object] in
theorem ownership_append (first second : List (Entry Address)) :
    events ++ (first ++ second).filterMap Entry.ownership =
      events ++ first.filterMap Entry.ownership ++ second.filterMap Entry.ownership := by
  rw [List.filterMap_append, List.append_assoc]

/-- A new socket has a handle without addresses, or none where the constructor throws. -/
theorem Sound.construct {strerror : Int → Text} {answers : Tcp.OpenAnswers} {event : Event Address}
    (sound : Sound T tracks events state)
    (stepped : construct strerror T state object answers = some (event, after)) :
    Sound T tracks (events ++ event.1.filterMap Entry.ownership) after := by
  simp only [Datagram.construct, Option.bind_eq_bind, Option.bind_eq_some_iff] at stepped
  obtain ⟨⟨entries, opened⟩, performed, continued⟩ := stepped
  obtain ⟨openStep, same⟩ := perform_eq_some.mp performed
  split at continued
  · cases continued
    have held : ∀ handle, opened.base.holds object = some handle →
        (opened.socket object).handle = handle := fun handle held => (owned_eq_some.mp held).1
    have stepFresh : RaiiSocket.step state.base (.openSocket object answers.socket answers.blocking) =
        some (entries, (((opened.forget (opened.socket object).handle).setEpLocal object
          T.empty).setEpRemote object T.empty).base) := openStep
    apply sound.member stepFresh nofun
    · intro target away
      have different : target ≠ object := by simpa [RaiiSocket.Action.touches] using away
      rw [same]
      exact ⟨Function.update_of_ne different _ _, Function.update_of_ne different _ _⟩
    · intro target handle away holds
      have different : target ≠ object := by simpa [RaiiSocket.Action.touches] using away
      rename_i valid
      have elsewhere : handle ≠ (opened.socket object).handle := by
        intro shared
        have mine : opened.base.holds object = some handle := by
          refine owned_eq_some.mpr ⟨shared.symm, fun invalid => ?_⟩
          rw [RaiiSocket.isValid_eq, ← shared, invalid] at valid
          contradiction
        have theirs : opened.base.holds target = some handle := by
          obtain ⟨sameSocket, -⟩ := sound.safe.step_frame openStep away
          rw [← holds]
          simp only [RaiiSocket.State.holds, Function.comp_apply, sameSocket]
        exact different ((sound.safe.step openStep).owned.unique target object handle theirs mine)
      rw [same]
      exact Function.update_of_ne elsewhere _ _
    · intro target handle touches holds
      rw [List.mem_singleton.mp touches] at holds ⊢
      have noPeer : (opened.forget (opened.socket object).handle).peers handle = none := by
        rw [held handle holds]
        exact Function.update_self _ _ _
      refine ⟨⟨{}, RaiiSocket.opened_os openStep holds, Function.update_self _ _ _⟩, fun _ => ?_⟩
      change Shows T ((opened.forget (opened.socket object).handle).peers handle) _
      rw [noPeer]
      exact Function.update_self _ _ _
  · rename_i invalid
    simp only [Option.bind_eq_some_iff] at continued
    obtain ⟨⟨closing, destroyed⟩, closed, finished⟩ := continued
    cases finished
    have kept : Sound T tracks (events ++ entries.filterMap Entry.ownership) opened := by
      apply sound.vacate performed nofun
      intro target member
      rw [List.mem_singleton.mp member]
      rw [RaiiSocket.isValid_eq, Bool.not_eq_true, Option.isSome_eq_false_iff,
        Option.isNone_iff_eq_none] at invalid
      exact invalid
    rw [ownership_append]
    exact kept.destroy closed

omit [DecidableEq Object] in
/-- A successful change at the handle of one socket keeps the others as they are. -/
theorem Sound.others {handle : Handle} (sound : Sound T tracks events state)
    (holder : state.base.holds object = some handle) {target : Object} {held : Handle}
    (different : target ≠ object) (holds : state.base.holds target = some held) : held ≠ handle := by
  rintro rfl
  exact different (sound.safe.owned.unique target object held holds holder)

omit [DecidableEq Object] in
/-- A socket that the operating system knows is held by the object with its handle. -/
theorem Sound.holder (sound : Sound T tracks events state)
    (opened : (state.base.os (state.socket object).handle).isSome = true) :
    state.base.holds object = some (state.socket object).handle := by
  refine owned_eq_some.mpr ⟨rfl, fun invalid => ?_⟩
  rw [invalid, sound.safe.reserved] at opened
  contradiction

/-- A successful `bind` sets the address of the handle and the local endpoint. -/
theorem Sound.bindWith {finish : ErrorCode → Outcome} {ep : Endpoint} {answer : ErrorCode}
    {event : Event Address} (sound : Sound T tracks events state)
    (stepped : bindWith T state finish object ep answer = some (event, after)) :
    Sound T tracks (events ++ event.1.filterMap Entry.ownership) after := by
  obtain ⟨os, applied, same⟩ := Option.map_eq_some_iff.mp stepped
  obtain ⟨rfl, rfl⟩ := Prod.mk.inj same
  change Sound T tracks (events ++ []) _
  rw [List.append_nil]
  cases success : answer.success with
  | false =>
      rw [Os.apply, success] at applied
      cases applied
      exact sound
  | true =>
      simp only [Os.apply, success, ↓reduceIte] at applied ⊢
      split at applied
      · rename_i address found
        obtain rfl := Option.some.inj applied
        have holder := sound.holder (by rw [found]; rfl)
        refine ⟨sound.safe.os_congr ?_, sound.unreleased, ?_⟩
        · intro handle
          by_cases bound : handle = (state.socket object).handle
          · rw [bound, Function.update_self, found]
            rfl
          · rw [Function.update_of_ne bound]
        · intro target handle holds
          by_cases here : target = object
          · subst here
            have bound : handle = (state.socket target).handle := (owned_eq_some.mp holds).1.symm
            subst bound
            obtain ⟨_, remote⟩ := sound.agrees target _ holder
            refine ⟨⟨_, Function.update_self _ _ _, ?_⟩, remote⟩
            change T.toSockAddr (Function.update state.epLocal target ep target) = _
            rw [Function.update_self]
          · have elsewhere := sound.others holder here holds
            exact (sound.agrees target handle holds).congr (Function.update_of_ne elsewhere _ _) rfl
              (Function.update_of_ne here _ _) rfl
      · contradiction

/-- A successful `connect` sets the peer of the handle and the remote endpoint. -/
theorem Sound.connectWith {finish : ErrorCode → Outcome} {ep : Endpoint} {answer : ErrorCode}
    {event : Event Address} (sound : Sound T tracks events state)
    (stepped : connectWith T state finish object ep answer = some (event, after)) :
    Sound T tracks (events ++ event.1.filterMap Entry.ownership) after := by
  simp only [Datagram.connectWith, Option.bind_eq_bind, Option.bind_eq_some_iff] at stepped
  obtain ⟨called, applied, finished⟩ := stepped
  cases finished
  rw [List.filterMap_nil, List.append_nil]
  cases success : answer.success with
  | false =>
      rw [State.connected, success] at applied
      cases applied
      exact sound
  | true =>
      simp only [State.connected, success, ↓reduceIte, Option.ite_none_right_eq_some] at applied ⊢
      obtain ⟨opened, same⟩ := applied
      obtain rfl := Option.some.inj same
      have holder := sound.holder opened
      refine ⟨sound.safe, sound.unreleased, ?_⟩
      intro target handle holds
      by_cases here : target = object
      · subst here
        have bound : handle = (state.socket target).handle := (owned_eq_some.mp holds).1.symm
        subst bound
        refine ⟨(sound.agrees target _ holder).local_, fun _ => ?_⟩
        simp only [State.setEpRemote, Function.update_self]
        rfl
      · have elsewhere := sound.others holder here holds
        exact (sound.agrees target handle holds).congr rfl (Function.update_of_ne elsewhere _ _) rfl
          (Function.update_of_ne here _ _)

/-- A move of endpoints takes the value of the other member to the first one. -/
theorem moveEndpoint_self (endpoints : Object → Endpoint) (self other : Object) :
    moveEndpoint T endpoints self other self = endpoints other :=
  Function.update_self _ _ _

theorem moveEndpoint_away (endpoints : Object → Endpoint) {target : Object} (notSelf : target ≠ self)
    (notOther : target ≠ other) : moveEndpoint T endpoints self other target = endpoints target := by
  rw [moveEndpoint, Function.update_of_ne notSelf, Function.update_of_ne notOther]

/-- A socket that is moved takes its addresses with it. -/
theorem Sound.moved {action : RaiiSocket.Action Object} {entries : List (Entry Address)}
    {moved : State Object Endpoint Address} (sound : Sound T tracks events state)
    (performed : state.perform action = some (entries, moved)) (keeps : ∀ object, action ≠ .release object)
    (touches : action.touches = [self, other])
    (emptied : moved.base.holds other = none)
    (target : other ≠ self → moved.base.holds self = state.base.holds other ∧
      ∀ handle, state.base.holds other = some handle → moved.base.os handle = state.base.os handle) :
    Sound T tracks (events ++ entries.filterMap Entry.ownership) { moved with
      epLocal := moveEndpoint T moved.epLocal self other
      epRemote := moveEndpoint T moved.epRemote self other } := by
  obtain ⟨stepped, same⟩ := perform_eq_some.mp performed
  have stepMoved : RaiiSocket.step state.base action = some (entries, ({ moved with
      epLocal := moveEndpoint T moved.epLocal self other
      epRemote := moveEndpoint T moved.epRemote self other } : State Object Endpoint Address).base) :=
    stepped
  have sameLocal : moved.epLocal = state.epLocal := by rw [same]
  have sameRemote : moved.epRemote = state.epRemote := by rw [same]
  have samePeers : moved.peers = state.peers := by rw [same]
  apply sound.member stepMoved keeps
  · intro present away
    rw [touches, List.mem_pair, not_or] at away
    exact ⟨(moveEndpoint_away _ away.1 away.2).trans (congrFun sameLocal present),
      (moveEndpoint_away _ away.1 away.2).trans (congrFun sameRemote present)⟩
  · intro present handle _ _
    exact congrFun samePeers handle
  · intro present handle member held
    have notOther : present ≠ other := by
      rintro rfl
      rw [emptied] at held
      contradiction
    rw [touches, List.mem_pair, or_iff_left notOther] at member
    subst member
    obtain ⟨sameHolds, sameOs⟩ := target (Ne.symm notOther)
    have before : state.base.holds other = some handle := sameHolds.symm.trans held
    obtain ⟨⟨socket, found, shows⟩, remote⟩ := sound.agrees other handle before
    constructor
    · refine ⟨socket, (sameOs handle before).trans found, ?_⟩
      change Shows T socket.address (moveEndpoint T moved.epLocal present other present)
      rw [moveEndpoint_self, sameLocal]
      exact shows
    · intro tracked
      change Shows T (moved.peers handle) (moveEndpoint T moved.epRemote present other present)
      rw [moveEndpoint_self, sameRemote, samePeers]
      exact remote tracked

theorem Sound.moveConstruct {event : Event Address} (sound : Sound T tracks events state)
    (stepped : moveConstruct T state object other = some (event, after)) :
    Sound T tracks (events ++ event.1.filterMap Entry.ownership) after := by
  simp only [Datagram.moveConstruct, Option.bind_eq_bind, Option.bind_eq_some_iff] at stepped
  obtain ⟨⟨entries, moved⟩, performed, finished⟩ := stepped
  cases finished
  obtain ⟨_, newHolds, otherHolds, sameOs⟩ :=
    RaiiSocket.moveConstruct_holds (perform_eq_some.mp performed).1
  exact sound.moved performed nofun rfl otherHolds fun _ => ⟨newHolds, fun handle _ => congrFun sameOs handle⟩

theorem Sound.moveAssign {answer : CloseAnswer} {event : Event Address}
    (sound : Sound T tracks events state)
    (stepped : moveAssign T state self other answer = some (event, after)) :
    Sound T tracks (events ++ event.1.filterMap Entry.ownership) after := by
  simp only [Datagram.moveAssign, Option.bind_eq_bind, Option.bind_eq_some_iff] at stepped
  obtain ⟨⟨entries, moved⟩, performed, finished⟩ := stepped
  cases finished
  obtain ⟨emptied, target⟩ := sound.safe.moveAssign_holds (perform_eq_some.mp performed).1
  exact sound.moved performed nofun rfl emptied target

/-- The blocking mode does not matter for handles and addresses. -/
theorem Sound.setBlocking {shouldBlock : Bool} {answer : ErrorCode} (sound : Sound T tracks events state) :
    Sound T tracks
      (events ++ (state.setBlocking object shouldBlock answer).1.filterMap Entry.ownership)
      (state.setBlocking object shouldBlock answer).2 := by
  have none : (state.setBlocking object shouldBlock answer).1.filterMap Entry.ownership = [] := by
    simp only [State.setBlocking, RaiiSocket.setBlocking]
    split <;> rfl
  have same : RaiiSocket.handle ∘ (state.setBlocking object shouldBlock answer).2.base.sockets =
      RaiiSocket.handle ∘ state.base.sockets := by
    simp only [State.setBlocking]
    rw [Function.comp_update, RaiiSocket.setBlocking_handle]
    exact Function.update_eq_self object (RaiiSocket.handle ∘ state.base.sockets)
  rw [none, List.append_nil]
  refine ⟨sound.safe.sockets_congr same, sound.unreleased, ?_⟩
  intro target handle held
  have before : state.base.holds target = some handle := by
    rw [← held]
    simp only [RaiiSocket.State.holds, same]
  exact (sound.agrees target handle before).congr rfl rfl rfl rfl

/-- An operation that changes only the remote endpoint of a socket keeps the sockets sound, where the
remote endpoints are not told. -/
theorem Sound.setEpRemote {ep : Endpoint} (sound : Sound T tracks events state) (untracked : ¬ tracks) :
    Sound T tracks events (state.setEpRemote object ep) where
  safe := sound.safe
  unreleased := sound.unreleased
  agrees target handle held :=
    ⟨(sound.agrees target handle held).local_, fun tracked => absurd tracked untracked⟩

/-- `close` resets the endpoints of a socket that it leaves without a handle. -/
theorem Sound.close {strerror : Int → Text} {answer : CloseAnswer} {event : Event Address}
    (sound : Sound T tracks events state)
    (stepped : close strerror T state object answer = some (event, after)) :
    Sound T tracks (events ++ event.1.filterMap Entry.ownership) after := by
  simp only [Datagram.close, Option.bind_eq_bind, Option.bind_eq_some_iff] at stepped
  obtain ⟨⟨entries, closed⟩, performed, finished⟩ := stepped
  cases finished
  obtain ⟨closeStep, same⟩ := perform_eq_some.mp performed
  apply sound.member closeStep nofun
  · intro target away
    have different : target ≠ object := by simpa [RaiiSocket.Action.touches] using away
    rw [same]
    exact ⟨Function.update_of_ne different _ _, Function.update_of_ne different _ _⟩
  · intro target handle _ _
    rw [same]
    rfl
  · intro target handle touches held
    rw [List.mem_singleton.mp touches, close_holds closeStep] at held
    contradiction

/-- Unwinding destroys the socket after an exception. -/
theorem Sound.unwind {answer : CloseAnswer} {result : Event Address × State Object Endpoint Address}
    {event : Event Address} (sound : Sound T tracks (events ++ result.1.1.filterMap Entry.ownership) result.2)
    (stepped : unwind object answer result = some (event, after)) :
    Sound T tracks (events ++ event.1.filterMap Entry.ownership) after := by
  unfold Datagram.unwind at stepped
  split at stepped
  · simp only [Option.bind_eq_bind, Option.bind_eq_some_iff] at stepped
    obtain ⟨⟨closing, destroyed⟩, closed, finished⟩ := stepped
    cases finished
    rw [ownership_append]
    exact sound.destroy closed
  · cases stepped
    exact sound

omit [DecidableEq Object] in
/-- What follows a part that returned starts where the part ended. -/
theorem Sound.andThen {first : Event Address × State Object Endpoint Address}
    {rest : State Object Endpoint Address → Option (Event Address × State Object Endpoint Address)}
    {event : Event Address}
    (sound : Sound T tracks (events ++ first.1.1.filterMap Entry.ownership) first.2)
    (keeps : ∀ {events middle event after}, Sound T tracks events middle →
      rest middle = some (event, after) →
        Sound T tracks (events ++ event.1.filterMap Entry.ownership) after)
    (stepped : andThen first rest = some (event, after)) :
    Sound T tracks (events ++ event.1.filterMap Entry.ownership) after := by
  unfold Datagram.andThen at stepped
  split at stepped
  · obtain ⟨next, continued, finished⟩ := Option.map_eq_some_iff.mp stepped
    cases finished
    rw [ownership_append]
    exact keeps sound continued
  · cases stepped
    exact sound

/-- The constructor with endpoints destroys the socket again where it throws. -/
theorem Sound.constructEndpoints {strerror : Int → Text} {ep remote : Endpoint}
    {answers : Tcp.OpenAnswers} {bindAnswer connectAnswer : ErrorCode} {event : Event Address}
    (sound : Sound T tracks events state)
    (stepped : constructEndpoints strerror T state object ep remote answers bindAnswer connectAnswer =
      some (event, after)) :
    Sound T tracks (events ++ event.1.filterMap Entry.ownership) after := by
  simp only [Datagram.constructEndpoints, Option.bind_eq_bind, Option.bind_eq_some_iff] at stepped
  obtain ⟨opened, constructed, continued⟩ := stepped
  refine (sound.construct constructed).andThen ?_ continued
  intro events middle event after sound continued
  simp only [Option.bind_eq_some_iff] at continued
  obtain ⟨bound, binds, body, connects, unwound⟩ := continued
  refine Sound.unwind ((sound.bindWith binds).andThen ?_ connects) unwound
  intro events middle event after sound continued
  exact sound.connectWith continued

/-- Each operation keeps the sockets sound. The remote endpoints are told where none is overridden. -/
theorem Sound.step {strerror : Int → Text} {action : Action Object Endpoint} {event : Event Address}
    (sound : Sound T tracks events state) (allowed : tracks → action.overrides = false)
    (stepped : step strerror T state action = some (event, after)) :
    Sound T tracks (events ++ event.1.filterMap Entry.ownership) after := by
  rw [Datagram.step, Option.ite_none_right_eq_some] at stepped
  obtain ⟨-, stepped⟩ := stepped
  cases action with
  | construct object answers => exact sound.construct stepped
  | constructEndpoints object ep remote answers bindAnswer connectAnswer =>
      exact sound.constructEndpoints stepped
  | bind object ep answer =>
      change bind strerror T state object ep answer = _ at stepped
      exact sound.bindWith stepped
  | tryBind object ep answer => exact sound.bindWith stepped
  | connect object ep answer =>
      change connect strerror T state object ep answer = _ at stepped
      exact sound.connectWith stepped
  | tryConnect object ep answer => exact sound.connectWith stepped
  | setDefaultRemoteEndpoint object ep =>
      cases stepped
      rw [List.filterMap_nil, List.append_nil]
      exact sound.setEpRemote fun tracked => Bool.noConfusion (allowed tracked)
  | setBlocking object shouldBlock answer =>
      cases stepped
      exact sound.setBlocking
  | trySetBlocking object shouldBlock answer =>
      cases stepped
      exact sound.setBlocking
  | close object answer => exact sound.close stepped
  | tryClose object answer =>
      change Datagram.tryClose state object answer = _ at stepped
      simp only [Datagram.tryClose, Option.bind_eq_bind, Option.bind_eq_some_iff] at stepped
      obtain ⟨⟨entries, closed⟩, performed, finished⟩ := stepped
      obtain ⟨rfl, rfl⟩ := Prod.mk.inj (Option.some.inj finished)
      exact sound.tryClose performed
  | moveConstruct object other => exact sound.moveConstruct stepped
  | moveAssign self other answer => exact sound.moveAssign stepped
  | destroy object answer =>
      obtain ⟨result, performed, finished⟩ := Option.map_eq_some_iff.mp stepped
      cases finished
      exact sound.destroy performed
  | opensElsewhere handle =>
      obtain ⟨result, performed, finished⟩ := Option.map_eq_some_iff.mp stepped
      cases finished
      exact sound.vacate performed (by simp) (by simp [RaiiSocket.Action.touches])
  | closesElsewhere handle =>
      obtain ⟨result, performed, finished⟩ := Option.map_eq_some_iff.mp stepped
      cases finished
      exact sound.vacate performed (by simp) (by simp [RaiiSocket.Action.touches])

/-- The ownership events of a history, oldest first. -/
def ledger (history : List (Event Address)) : List (Ownership.Event Handle) :=
  history.flatMap fun event => event.1.filterMap Entry.ownership

/-- Every list of operations keeps the sockets sound. -/
theorem execute_sound {strerror : Int → Text} {actions : List (Action Object Endpoint)}
    {history : List (Event Address)} (allowed : ∀ action ∈ actions, tracks → action.overrides = false)
    (executed : (system Object strerror T).execute (initial Object T) actions = some (history, state)) :
    Sound T tracks (ledger history) state := by
  have kept : Sound T tracks (ledger ([] ++ history)) state := by
    refine StepSystem.execute_invariant (fun history state => Sound T tracks (ledger history) state) ?_
      allowed sound_initial executed
    intro history before action event after permitted sound stepped
    rw [ledger, List.flatMap_append, List.flatMap_singleton]
    exact sound.step permitted stepped
  rwa [List.nil_append] at kept

/-- The local endpoint of a socket with a handle is the one whose address the last successful `bind` of that
handle was given, also after moves and failed calls, and an empty one if there was none. The remote endpoint
is likewise that of the last successful `connect`, as long as no default remote endpoint is set. -/
theorem datagram_endpoints {strerror : Int → Text} {actions : List (Action Object Endpoint)}
    {history : List (Event Address)}
    (executed : (system Object strerror T).execute (initial Object T) actions = some (history, state)) :
    (∀ object handle, state.base.holds object = some handle →
      ∃ socket, state.base.os handle = some socket ∧ Shows T socket.address (state.epLocal object)) ∧
    ((∀ action ∈ actions, action.overrides = false) →
      ∀ object handle, state.base.holds object = some handle →
        Shows T (state.peers handle) (state.epRemote object)) := by
  constructor
  · intro object handle held
    have sound : Sound T False (ledger history) state := execute_sound nofun executed
    exact (sound.agrees object handle held).local_
  · intro tracked object handle held
    have sound : Sound T True (ledger history) state :=
      execute_sound (fun action member _ => tracked action member) executed
    exact (sound.agrees object handle held).remote trivial

/-- The operations of plain `udp::Socket` objects. -/
def plainSystem : StepSystem (State Bool (Ip.BasicEndpointV4 .udp) Tcp.SockaddrIn)
    (Action Bool (Ip.BasicEndpointV4 .udp)) (Event Tcp.SockaddrIn) :=
  system Bool (fun _ => []) (udpEndpoint (fun _ buffer => buffer) .littleEndian)

/-- A bound and connected socket moves, and an attempt to bind it again fails. -/
def movedActions : List (Action Bool (Ip.BasicEndpointV4 .udp)) :=
  [.construct false ⟨.ok ⟨3⟩, ⟨0⟩, ⟨⟨0⟩, false⟩⟩, .bind false ⟨.ofHost .littleEndian 1 80⟩ ⟨0⟩,
    .connect false ⟨.ofHost .littleEndian 2 90⟩ ⟨0⟩, .moveConstruct true false,
    .tryBind true ⟨.ofHost .littleEndian 1 81⟩ ⟨22⟩]

theorem datagram_endpoints_moved : ∃ history state,
    plainSystem.execute (initial Bool (udpEndpoint (fun _ buffer => buffer) .littleEndian)) movedActions =
      some (history, state) ∧
      (∀ action ∈ movedActions, action.overrides = false) ∧
      ∀ object handle, state.base.holds object = some handle →
        Shows (udpEndpoint (fun _ buffer => buffer) .littleEndian) (state.peers handle) (state.epRemote object) := by
  obtain ⟨⟨history, state⟩, executed⟩ : ∃ result,
      plainSystem.execute (initial Bool (udpEndpoint (fun _ buffer => buffer) .littleEndian)) movedActions =
        some result := ⟨_, rfl⟩
  have tracked : ∀ action ∈ movedActions, action.overrides = false := by decide
  exact ⟨history, state, executed, tracked, (datagram_endpoints executed).2 tracked⟩

omit [DecidableEq Object] in
/-- A handle is closed as often as it is acquired, but for the time that a socket still holds it. -/
theorem Sound.counts (sound : Sound T tracks events state) (handle : Handle) :
    ∃ held : Bool, (held = true ↔ ∃ object, state.base.holds object = some handle) ∧
      events.count (.acquired handle) = events.count (.closed handle) + held.toNat := by
  obtain ⟨held, tracked, holder⟩ := sound.safe.owned.tracked handle
  have counts := Ownership.track_counts tracked
  rw [List.count_eq_zero.mpr (sound.unreleased handle)] at counts
  exact ⟨held, holder, by simpa using counts⟩

omit [DecidableEq Object] in
/-- A handle is closed only while an acquisition holds it. -/
theorem Sound.closed {handle : Handle} {earlier later : List (Ownership.Event Handle)}
    (sound : Sound T tracks (earlier ++ .closed handle :: later) state) :
    earlier.count (.acquired handle) = earlier.count (.closed handle) + 1 := by
  obtain ⟨held, tracked, _⟩ := sound.safe.owned.tracked handle
  have none : earlier.count (.released handle) = 0 :=
    List.count_eq_zero.mpr fun member => sound.unreleased handle (List.mem_append_left _ member)
  have counts := Ownership.track_closed tracked
  rwa [none] at counts

/-- Each handle belongs to one living socket at most. It is closed exactly once, and only while a socket
holds it, unless a socket still holds it: also where a constructor throws, and where closing fails. -/
theorem datagram_ownership {strerror : Int → Text} {actions : List (Action Object Endpoint)}
    {history : List (Event Address)}
    (executed : (system Object strerror T).execute (initial Object T) actions = some (history, state)) :
    (∀ first second handle, state.base.holds first = some handle →
      state.base.holds second = some handle → first = second) ∧
    (∀ object, state.base.alive object = false → state.base.holds object = none) ∧
    (∀ handle, ∃ held : Bool, (held = true ↔ ∃ object, state.base.holds object = some handle) ∧
      (ledger history).count (.acquired handle) = (ledger history).count (.closed handle) + held.toNat) ∧
    ∀ handle earlier later, ledger history = earlier ++ .closed handle :: later →
      earlier.count (.acquired handle) = earlier.count (.closed handle) + 1 := by
  have sound : Sound T False (ledger history) state := execute_sound nofun executed
  refine ⟨sound.safe.owned.unique, sound.safe.dead, sound.counts, ?_⟩
  intro handle earlier later parts
  rw [parts] at sound
  exact sound.closed

/-- A constructor throws where it cannot connect, and another socket moves to itself. -/
def unwoundActions : List (Action Bool (Ip.BasicEndpointV4 .udp)) :=
  [.constructEndpoints false {} {} ⟨.ok ⟨3⟩, ⟨0⟩, ⟨⟨0⟩, false⟩⟩ ⟨0⟩ ⟨111⟩,
    .construct true ⟨.ok ⟨4⟩, ⟨0⟩, ⟨⟨0⟩, false⟩⟩, .moveAssign true true ⟨⟨5⟩, false⟩]

theorem datagram_ownership_unwound : ∃ history state,
    plainSystem.execute (initial Bool (udpEndpoint (fun _ buffer => buffer) .littleEndian)) unwoundActions =
      some (history, state) ∧
      ledger history = [.acquired ⟨3⟩, .closed ⟨3⟩, .acquired ⟨4⟩, .closed ⟨4⟩] ∧
      ∀ object, state.base.alive object = false → state.base.holds object = none :=
  have owned (history : List (Event Tcp.SockaddrIn)) (state : State Bool _ Tcp.SockaddrIn)
      (executed : plainSystem.execute _ unwoundActions = some (history, state)) :=
    (datagram_ownership executed).2.1
  ⟨_, _, rfl, rfl, owned _ _ rfl⟩

end MartCommon.Netlib.Datagram
