import IotAgent.Lib.Interleaving
import IotAgent.Rest.Response

/-!
Agents at work side by side.

Several agents share one store, and in each of them several activities run at a time. An
activity is a task: the rest of a function of `CommandHandle` with its local variables. Its
actions are the steps of that function, each atomic: an operation of the cache under its
lock, an operation of the store, an update that is sent. The callback of a timer holds the
lock of its cache from the first step to the last.

* `World`: the caches of the agents, the store and what has been sent;
* `Task`: the activities, step by step, and `act`: their actions;
* `act_poll`, `act_response`, `act_callback`, `act_timer`: where an action has a choice, what
  it leads to;
* `run_saveCommand`, `run_getAllCommand`, `run_respond`, `run_processCommandResponse`,
  `run_itemTimeout`: a task that runs alone computes the function that it stands for.

A timer that is cancelled in time is a task that never takes its first step.
-/

namespace IotAgent

open HashIndex Mongo Interleaving

/-- A number of agents over one store. -/
structure World (h : Hashing) (n : ℕ) extends CommandStorage where
  cache : Fin n → CommandCache h
  locked : Fin n → Bool
  table : CommandTable
  sent : List UpdateContext

namespace World

variable {h : Hashing} {n : ℕ} (w : World h n) (i j : Fin n)

/-- The world as agent `i` sees it. -/
def agent : CommandHandle h where
  toCommandStorage := w.toCommandStorage
  asyncCommands := w.cache i
  table := w.table
  sent := w.sent

/-- The world after a step of agent `i`. -/
def update (s : CommandHandle h) : World h n :=
  { w with cache := Function.update w.cache i s.asyncCommands, table := s.table, sent := s.sent }

/-- The world with the lock of agent `i` taken or released. -/
def setLock (b : Bool) : World h n :=
  { w with locked := Function.update w.locked i b }

/-- The command behind a pointer of agent `i`. -/
def cmd (p : Ptr) : Command :=
  (w.cache i).cmd p

variable {w i j} {s : CommandHandle h}

@[simp] lemma agent_toCommandStorage : (w.agent i).toCommandStorage = w.toCommandStorage := rfl

@[simp] lemma agent_sent : (w.agent i).sent = w.sent := rfl

@[simp] lemma update_toCommandStorage : (w.update i s).toCommandStorage = w.toCommandStorage := rfl

lemma update_storageType : (w.update i s).storageType = w.storageType := rfl

@[simp] lemma update_locked : (w.update i s).locked = w.locked := rfl

@[simp] lemma update_table : (w.update i s).table = s.table := rfl

@[simp] lemma update_sent : (w.update i s).sent = s.sent := rfl

@[simp] lemma update_cache_self : (w.update i s).cache i = s.asyncCommands := by
  simp [update]

lemma update_cache_of_ne (hj : j ≠ i) : (w.update i s).cache j = w.cache j := by
  simp [update, hj]

/-- What agent `i` has done is what it sees. -/
lemma agent_update (hs : s.toCommandStorage = w.toCommandStorage) : (w.update i s).agent i = s := by
  rw [agent, update_cache_self, update_toCommandStorage, ← hs]
  rfl

@[simp] lemma update_agent : w.update i (w.agent i) = w := by
  simp [update, agent]

@[simp] lemma update_update {s' : CommandHandle h} :
    (w.update i s).update i s' = w.update i s' := by
  simp [update]

@[simp] lemma update_cmd (p : Ptr) : (w.update i s).cmd i p = s.asyncCommands.cmd p := by
  rw [cmd, update_cache_self]

@[simp] lemma setLock_agent (b : Bool) : (w.setLock i b).agent j = w.agent j := rfl

@[simp] lemma setLock_cache (b : Bool) : (w.setLock i b).cache = w.cache := rfl

@[simp] lemma setLock_locked_self (b : Bool) : (w.setLock i b).locked i = b := by
  simp [setLock]

end World

/-- The tasks, each with its agent and what is left of it to do. -/
inductive Task (n : ℕ) where
  /-- `save_command` -/
  | save (i : Fin n) (item : Command)
  | saveInStore (i : Fin n) (p : Ptr)
  /-- `get_all_command`, the loop with the keys of the result and what is still to mark -/
  | poll (i : Fin n) (dev : Device) (service : PTree)
  | mark (i : Fin n) (dev : Device) (service : PTree) (res : List Command.Key) (todo : List Ptr)
  | announce (i : Fin n) (dev : Device) (service : PTree) (res : List Command.Key) (p : Ptr)
      (todo : List Ptr)
  /-- The handler of a response -/
  | response (i : Fin n) (idCommand response : String) (dev : Device) (service : PTree)
  | responseFound (i : Fin n) (idCommand response : String) (dev : Device) (service : PTree)
      (command : String)
  | responseInStore (i : Fin n) (idCommand response : String) (dev : Device) (service : PTree)
      (command : String)
  | responseSend (i : Fin n) (response : String) (dev : Device) (service : PTree)
      (command : String)
  /-- `process_command_response` -/
  | callback (i : Fin n) (d : CommandHandle.CommandData) (resCode : ℤ) (respCmd : String)
  | callbackInStore (i : Fin n) (d : CommandHandle.CommandData) (resCode : ℤ) (respCmd : String)
  | callbackSend (i : Fin n) (d : CommandHandle.CommandData) (resCode : ℤ) (respCmd : String)
  | accepted (i : Fin n) (d : CommandHandle.CommandData) (updated : ℕ)
  | acceptedFound (i : Fin n) (d : CommandHandle.CommandData) (updated : ℕ) (pt : Option Ptr)
  | acceptedSend (i : Fin n) (d : CommandHandle.CommandData) (updated : ℕ)
  /-- `item_timeout`, with the lock from the second step on -/
  | timer (i : Fin n) (p : Ptr)
  | timerRead (i : Fin n) (p : Ptr) (service : PTree) (status : ℤ)
  | timerRemove (i : Fin n) (p : Ptr) (service : PTree) (status : ℤ)
  | timerInStore (i : Fin n) (p : Ptr) (service : PTree) (status : ℤ)
  | timerSend (i : Fin n) (p : Ptr) (service : PTree) (status : ℤ)
  | timerEnd (i : Fin n) (p : Ptr)
  | done

namespace World

variable {h : Hashing} {n : ℕ}

/-- An operation of the cache of agent `i`, which waits for the lock. -/
def withLock (w : World h n) (i : Fin n) (r : World h n × Task n) : Option (World h n × Task n) :=
  if w.locked i then none else some r

/-- The actions of the tasks. `getServiceByName` finds the service of a command, or throws. -/
def act (getServiceByName : String → String → Option PTree) :
    Program (World h n) (Task n) (Order Ptr String)
  | _, w, .save i item =>
      let (s, p) := (w.agent i).saveInCache item
      w.withLock i (w.update i s, .saveInStore i p)
  | _, w, .saveInStore i p => some (w.update i ((w.agent i).saveInStore p).1, .done)
  | o, w, .poll i dev service =>
      if (w.agent i).Stored then
        let (s, res) := (w.agent i).takeCommands o dev service
        w.withLock i
          (w.update i s, .mark i dev service (res.map fun p => (s.asyncCommands.cmd p).key) res)
      else some (w, .mark i dev service [] [])
  | _, _, .mark _ _ _ _ [] => none
  | _, w, .mark i dev service res (p :: todo) =>
      let item := w.cmd i p
      some (w.update i ((w.agent i).markDelivered item.id item.service item.servicePath).1,
        .announce i dev service res p todo)
  | _, w, .announce i dev service res p todo =>
      some (w.update i ((w.agent i).sendDelivered (w.cmd i p).name dev service),
        .mark i dev service res todo)
  | o, w, .response i idCommand response dev service =>
      w.withLock i <|
        match (w.agent i).getCommand o idCommand (service.get StoreTypes.service "")
          (service.get StoreTypes.servicePath "") with
        | (s, some p) =>
            (w.update i s,
              .responseFound i idCommand response dev service (s.asyncCommands.cmd p).name)
        | (s, none) => (w.update i s, .done)
  | o, w, .responseFound i idCommand response dev service command =>
      let s := (w.agent i).removeFromCache o idCommand (service.get StoreTypes.service "")
        (service.get StoreTypes.servicePath "")
      w.withLock i (w.update i s, .responseInStore i idCommand response dev service command)
  | _, w, .responseInStore i idCommand response dev service command =>
      let s := ((w.agent i).removeFromStore idCommand (service.get StoreTypes.service "")
        (service.get StoreTypes.servicePath "")).1
      some (w.update i s, .responseSend i response dev service command)
  | _, w, .responseSend i response dev service command =>
      some (w.update i ((w.agent i).responseCommand command response dev service), .done)
  | o, w, .callback i d resCode respCmd =>
      if resCode = 202 then
        let (s, updated) := (w.agent i).markAccepted d.commandId
        some (w.update i s, .accepted i d updated)
      else
        let s := (w.agent i).removeFromCache o d.commandId d.serviceName d.servicePath
        w.withLock i (w.update i s, .callbackInStore i d resCode respCmd)
  | _, w, .callbackInStore i d resCode respCmd =>
      let s := ((w.agent i).removeFromStore d.commandId d.serviceName d.servicePath).1
      some (w.update i s, .callbackSend i d resCode respCmd)
  | _, w, .callbackSend i d resCode respCmd =>
      if resCode = Types.responseCodeOk then
        some (w.update i ((w.agent i).sendExecuted d respCmd), .done)
      else some (w.update i ((w.agent i).sendError d respCmd), .done)
  | o, w, .accepted i d updated =>
      let (s, pt) := (w.agent i).getCommand o d.commandId d.serviceName d.servicePath
      w.withLock i (w.update i s, .acceptedFound i d updated pt)
  | _, w, .acceptedFound i d updated pt =>
      some (w.update i ((w.agent i).setStatus pt Types.delivered), .acceptedSend i d updated)
  | _, w, .acceptedSend i d updated =>
      if 0 < updated then
        some (w.update i ((w.agent i).sendDelivered d.commandName d.itemDev d.service), .done)
      else some (w, .done)
  | _, w, .timer i p =>
      let item := w.cmd i p
      w.withLock i <|
        match getServiceByName item.service item.servicePath with
        | some service => (w.setLock i true, .timerRead i p service item.status)
        | none => (w.setLock i true, .timerEnd i p)
  | _, w, .timerRead i p service status =>
      let item := w.cmd i p
      let itemBBDD := (w.agent i).getCommandFromMongo item.id item.service item.servicePath
      if CommandHandle.notAhead status itemBBDD then some (w, .timerRemove i p service status)
      else some (w, .timerEnd i p)
  | o, w, .timerRemove i p service status =>
      let item := w.cmd i p
      some (w.update i ((w.agent i).removeFromCache o item.id item.service item.servicePath),
        .timerInStore i p service status)
  | _, w, .timerInStore i p service status =>
      let item := w.cmd i p
      let r := (w.agent i).removeFromStore item.id item.service item.servicePath
      some (w.update i r.1, if 0 < r.2 then .timerSend i p service status else .timerEnd i p)
  | _, w, .timerSend i p service status =>
      some (w.update i ((w.agent i).sendExpired (w.cmd i p)
        (CommandHandle.timeoutMessage status) service), .timerEnd i p)
  | o, w, .timerEnd i p =>
      let c := (w.cache i).remove o (w.cmd i p)
      some ((w.update i { w.agent i with asyncCommands := c }).setLock i false, .done)
  | _, _, .done => none

/-! ### What an action leads to -/

section Cases

variable {G : String → String → Option PTree} {o : Order Ptr String} {w w' : World h n} {i : Fin n}
  {t' : Task n}

lemma withLock_eq_some {r x : World h n × Task n} :
    w.withLock i r = some x ↔ w.locked i = false ∧ r = x := by
  cases hw : w.locked i with
  | true => simp [withLock, hw]
  | false => simp [withLock, hw]

/-- A poll of a store takes the commands; any other ends at once. -/
lemma act_poll {dev : Device} {service : PTree}
    (hact : act G o w (.poll i dev service) = some (w', t')) :
    (w.agent i).Stored ∧ w' = w.update i ((w.agent i).takeCommands o dev service).1 ∧
      t' = .mark i dev service (((w.agent i).takeCommands o dev service).2.map fun p =>
        (((w.agent i).takeCommands o dev service).1.asyncCommands.cmd p).key)
        ((w.agent i).takeCommands o dev service).2 ∨
    w' = w ∧ t' = .mark i dev service [] [] := by
  simp only [act] at hact
  split at hact
  · next hs =>
      obtain ⟨-, heq⟩ := withLock_eq_some.mp hact
      obtain ⟨rfl, rfl⟩ := Prod.mk.inj heq
      exact .inl ⟨hs, rfl, rfl⟩
  · obtain ⟨rfl, rfl⟩ := Prod.mk.inj (Option.some.inj hact)
    exact .inr ⟨rfl, rfl⟩

/-- A response goes on only with a command. -/
lemma act_response {idCommand response : String} {dev : Device} {service : PTree}
    (hact : act G o w (.response i idCommand response dev service) = some (w', t')) :
    w' = w.update i ((w.agent i).getCommand o idCommand (service.get StoreTypes.service "")
      (service.get StoreTypes.servicePath "")).1 ∧
    (t' = .done ∨ ∃ command, t' = .responseFound i idCommand response dev service command) := by
  obtain ⟨-, heq⟩ := withLock_eq_some.mp hact
  split at heq
  · next s p hget =>
      obtain ⟨rfl, rfl⟩ := Prod.mk.inj heq
      exact ⟨by rw [hget], .inr ⟨_, rfl⟩⟩
  · next s hget =>
      obtain ⟨rfl, rfl⟩ := Prod.mk.inj heq
      exact ⟨by rw [hget], .inl rfl⟩

/-- The callback of a request marks an accepted command, and removes any other. -/
lemma act_callback {d : CommandHandle.CommandData} {resCode : ℤ} {respCmd : String}
    (hact : act G o w (.callback i d resCode respCmd) = some (w', t')) :
    (w' = w.update i ((w.agent i).markAccepted d.commandId).1 ∧ ∃ updated,
      t' = .accepted i d updated) ∨
    w' = w.update i ((w.agent i).removeFromCache o d.commandId d.serviceName d.servicePath) ∧
      t' = .callbackInStore i d resCode respCmd := by
  simp only [act] at hact
  split at hact
  · obtain ⟨rfl, rfl⟩ := Prod.mk.inj (Option.some.inj hact)
    exact .inl ⟨rfl, _, rfl⟩
  · obtain ⟨-, heq⟩ := withLock_eq_some.mp hact
    obtain ⟨rfl, rfl⟩ := Prod.mk.inj heq
    exact .inr ⟨rfl, rfl⟩

lemma act_callbackSend {d : CommandHandle.CommandData} {resCode : ℤ} {respCmd : String}
    (hact : act G o w (.callbackSend i d resCode respCmd) = some (w', t')) :
    (w' = w.update i ((w.agent i).sendExecuted d respCmd) ∨
      w' = w.update i ((w.agent i).sendError d respCmd)) ∧ t' = .done := by
  simp only [act] at hact
  split at hact
  · obtain ⟨rfl, rfl⟩ := Prod.mk.inj (Option.some.inj hact)
    exact ⟨.inl rfl, rfl⟩
  · obtain ⟨rfl, rfl⟩ := Prod.mk.inj (Option.some.inj hact)
    exact ⟨.inr rfl, rfl⟩

lemma act_acceptedSend {d : CommandHandle.CommandData} {updated : ℕ}
    (hact : act G o w (.acceptedSend i d updated) = some (w', t')) :
    (w' = w.update i ((w.agent i).sendDelivered d.commandName d.itemDev d.service) ∨ w' = w) ∧
      t' = .done := by
  simp only [act] at hact
  split at hact
  · obtain ⟨rfl, rfl⟩ := Prod.mk.inj (Option.some.inj hact)
    exact ⟨.inl rfl, rfl⟩
  · obtain ⟨rfl, rfl⟩ := Prod.mk.inj (Option.some.inj hact)
    exact ⟨.inr rfl, rfl⟩

/-- A timer takes the lock, and goes on only with a service. -/
lemma act_timer {p : Ptr} (hact : act G o w (.timer i p) = some (w', t')) :
    w' = w.setLock i true ∧
      ((∃ service status, t' = .timerRead i p service status) ∨ t' = .timerEnd i p) := by
  obtain ⟨-, heq⟩ := withLock_eq_some.mp hact
  split at heq
  · obtain ⟨rfl, rfl⟩ := Prod.mk.inj heq
    exact ⟨rfl, .inl ⟨_, _, rfl⟩⟩
  · obtain ⟨rfl, rfl⟩ := Prod.mk.inj heq
    exact ⟨rfl, .inr rfl⟩

/-- A timer goes on only if the store is not ahead of it. -/
lemma act_timerRead {p : Ptr} {service : PTree} {status : ℤ}
    (hact : act G o w (.timerRead i p service status) = some (w', t')) :
    w' = w ∧
      (CommandHandle.notAhead status ((w.agent i).getCommandFromMongo (w.cmd i p).id
          (w.cmd i p).service (w.cmd i p).servicePath) ∧ t' = .timerRemove i p service status ∨
        t' = .timerEnd i p) := by
  simp only [act] at hact
  split at hact
  · next ha =>
      obtain ⟨rfl, rfl⟩ := Prod.mk.inj (Option.some.inj hact)
      exact ⟨rfl, .inl ⟨ha, rfl⟩⟩
  · obtain ⟨rfl, rfl⟩ := Prod.mk.inj (Option.some.inj hact)
    exact ⟨rfl, .inr rfl⟩

end Cases

/-! ### Tasks that run alone -/

section Alone

variable {G : String → String → Option PTree} {o : Order Ptr String} {w : World h n} {i : Fin n}

lemma withLock_of_free {r : World h n × Task n} (hw : w.locked i = false) :
    w.withLock i r = some r := by
  simp [withLock, hw]

/-- A command is saved. -/
theorem run_saveCommand (hw : w.locked i = false) {commandName commandId : String}
    {timeout : ℤ} {commandToSend : PTree} {itemDev : Device} {entityType endpoint : String}
    {service : PTree} {sequence : String} {status : ℤ} (hid : commandId ≠ "") :
    Run (act G) (fun _ _ _ => True)
      ⟨w, [.save i (CommandHandle.newCommand commandName commandId timeout commandToSend itemDev
        entityType endpoint service sequence status)]⟩
      ⟨w.update i ((w.agent i).saveCommand commandName commandId timeout commandToSend itemDev
        entityType endpoint service sequence status).1, [.done]⟩ := by
  refine Run.alone (o := default) (withLock_of_free hw) (Run.alone (o := default) rfl ?_)
  rw [agent_update rfl, update_update, CommandHandle.saveCommand, if_neg hid]
  exact .refl

/-- The loop of a poll over the commands that are still to mark. -/
lemma run_mark (dev : Device) (service : PTree) (res : List Command.Key) (ps : List Ptr) :
    Run (act G) (fun _ _ _ => True) ⟨w, [.mark i dev service res ps]⟩
      ⟨w.update i (ps.foldl (fun s p => s.announceDelivered dev service p) (w.agent i)),
        [.mark i dev service res []]⟩ := by
  induction ps generalizing w with
  | nil =>
      rw [List.foldl_nil, update_agent]
  | cons p ps ih =>
      have hrest := ih (w := w.update i ((w.agent i).announceDelivered dev service p))
      rw [agent_update (by simp), update_update] at hrest
      refine Run.alone (o := default) rfl (Run.alone (o := default) rfl ?_)
      rw [agent_update (by simp), update_update, update_cmd,
        CommandHandle.markDelivered_asyncCommands]
      exact hrest

/-- A device polls. -/
theorem run_getAllCommand (hw : w.locked i = false) (dev : Device) (service : PTree) :
    Run (act G) (fun _ _ _ => True) ⟨w, [.poll i dev service]⟩
      ⟨w.update i ((w.agent i).getAllCommand o (some dev) service).1,
        [.mark i dev service (((w.agent i).getAllCommand o (some dev) service).2.map fun p =>
          (((w.agent i).getAllCommand o (some dev) service).1.asyncCommands.cmd p).key) []]⟩ := by
  by_cases hs : (w.agent i).Stored
  · have hall : (w.agent i).getAllCommand o (some dev) service =
        (((w.agent i).takeCommands o dev service).2.foldl
          (fun s p => s.announceDelivered dev service p)
          ((w.agent i).takeCommands o dev service).1,
          ((w.agent i).takeCommands o dev service).2) := by
      rw [CommandHandle.getAllCommand, if_pos hs]
    have hact : act G o w (.poll i dev service) = some
        (w.update i ((w.agent i).takeCommands o dev service).1,
          .mark i dev service (((w.agent i).takeCommands o dev service).2.map fun p =>
            (((w.agent i).takeCommands o dev service).1.asyncCommands.cmd p).key)
            ((w.agent i).takeCommands o dev service).2) := by
      simp only [act, if_pos hs, withLock_of_free hw]
    have hrest := run_mark (G := G) (i := i)
      (w := w.update i ((w.agent i).takeCommands o dev service).1) dev service
      (((w.agent i).takeCommands o dev service).2.map fun p =>
        (((w.agent i).takeCommands o dev service).1.asyncCommands.cmd p).key)
      ((w.agent i).takeCommands o dev service).2
    rw [agent_update rfl, update_update] at hrest
    simp only [hall, CommandHandle.foldl_announceDelivered_asyncCommands]
    exact Run.alone hact hrest
  · have hall : (w.agent i).getAllCommand o (some dev) service = (w.agent i, []) := by
      rw [CommandHandle.getAllCommand, if_neg hs]
    rw [hall, update_agent]
    exact Run.alone (o := o) (if_neg hs) .refl

/-- A device responds. -/
theorem run_respond (hw : w.locked i = false) (idCommand response : String) (dev : Device)
    (service : PTree) :
    Run (act G) (fun _ _ _ => True) ⟨w, [.response i idCommand response dev service]⟩
      ⟨w.update i ((w.agent i).respond o idCommand response dev service), [.done]⟩ := by
  rw [CommandHandle.respond]
  split
  · next s p hget =>
      have hs : s.toCommandStorage = w.toCommandStorage :=
        (congrArg (fun r => r.1.toCommandStorage) hget).symm
      obtain ⟨s₁, hs₁⟩ : ∃ s₁, s₁ = s.removeFromCache o idCommand
        (service.get StoreTypes.service "") (service.get StoreTypes.servicePath "") := ⟨_, rfl⟩
      obtain ⟨s₂, hs₂⟩ : ∃ s₂, s₂ = (s₁.removeFromStore idCommand
        (service.get StoreTypes.service "") (service.get StoreTypes.servicePath "")).1 := ⟨_, rfl⟩
      have hst₁ : s₁.toCommandStorage = w.toCommandStorage := hs₁ ▸ hs
      have hst₂ : s₂.toCommandStorage = w.toCommandStorage := by
        rw [hs₂, CommandHandle.removeFromStore_toCommandStorage, hst₁]
      have hresponse : act G o w (.response i idCommand response dev service) =
          some (w.update i s, .responseFound i idCommand response dev service
            (s.asyncCommands.cmd p).name) := by
        simp only [act, hget, withLock_of_free hw]
      have hfound : act G o (w.update i s) (.responseFound i idCommand response dev service
          (s.asyncCommands.cmd p).name) =
          some (w.update i s₁, .responseInStore i idCommand response dev service
            (s.asyncCommands.cmd p).name) := by
        simp only [act, agent_update hs, ← hs₁, update_update]
        exact withLock_of_free hw
      have hstore : act G o (w.update i s₁) (.responseInStore i idCommand response dev service
          (s.asyncCommands.cmd p).name) =
          some (w.update i s₂, .responseSend i response dev service
            (s.asyncCommands.cmd p).name) := by
        simp only [act, agent_update hst₁, ← hs₂, update_update]
      have hsend : act G o (w.update i s₂) (.responseSend i response dev service
          (s.asyncCommands.cmd p).name) =
          some (w.update i (s₂.responseCommand (s.asyncCommands.cmd p).name response dev service),
            .done) := by
        simp only [act, agent_update hst₂, update_update]
      rw [CommandHandle.removeCommand, ← hs₁, ← hs₂]
      exact Run.alone hresponse (Run.alone hfound (Run.alone hstore (Run.alone hsend .refl)))
  · next s hget =>
      have hact : act G o w (.response i idCommand response dev service) =
          some (w.update i s, .done) := by
        simp only [act, hget, withLock_of_free hw]
      exact Run.alone hact .refl

/-- The callback of a request to a device ends. -/
theorem run_processCommandResponse (hw : w.locked i = false) (d : CommandHandle.CommandData)
    (resCode : ℤ) (respCmd : String) :
    Run (act G) (fun _ _ _ => True) ⟨w, [.callback i d resCode respCmd]⟩
      ⟨w.update i ((w.agent i).processCommandResponse o d resCode respCmd), [.done]⟩ := by
  by_cases haccepted : resCode = 202
  · subst haccepted
    obtain ⟨s₁, updated, hupdated⟩ : ∃ s₁ updated,
      (w.agent i).markAccepted d.commandId = (s₁, updated) := ⟨_, _, rfl⟩
    obtain ⟨s₂, pt, hpt⟩ : ∃ s₂ pt, s₁.getCommand o d.commandId d.serviceName d.servicePath =
      (s₂, pt) := ⟨_, _, rfl⟩
    have hst₁ : s₁.toCommandStorage = w.toCommandStorage := by
      have hst := congrArg (fun r => r.1.toCommandStorage) hupdated
      simpa using hst.symm
    have hst₂ : s₂.toCommandStorage = w.toCommandStorage := by
      have := congrArg (fun r => r.1.toCommandStorage) hpt
      exact this.symm.trans hst₁
    have hcallback : act G o w (.callback i d 202 respCmd) =
        some (w.update i s₁, .accepted i d updated) := by
      simp only [act, if_pos, hupdated]
    have hfound : act G o (w.update i s₁) (.accepted i d updated) =
        some (w.update i s₂, .acceptedFound i d updated pt) := by
      simp only [act, agent_update hst₁, hpt, update_update]
      exact withLock_of_free hw
    have hstatus : act G o (w.update i s₂) (.acceptedFound i d updated pt) =
        some (w.update i (s₂.setStatus pt Types.delivered), .acceptedSend i d updated) := by
      simp only [act, agent_update hst₂, update_update]
    have hsend : act G o (w.update i (s₂.setStatus pt Types.delivered))
        (.acceptedSend i d updated) =
        some (w.update i ((w.agent i).processCommandResponse o d 202 respCmd), .done) := by
      have hst₃ : (s₂.setStatus pt Types.delivered).toCommandStorage = w.toCommandStorage := by
        simpa using hst₂
      have hne : (202 : ℤ) ≠ Types.responseCodeOk := by decide
      simp only [act, agent_update hst₃, update_update, CommandHandle.processCommandResponse,
        if_neg hne, hupdated, hpt, if_true]
      split <;> rfl
    exact Run.alone hcallback (Run.alone hfound (Run.alone hstatus (Run.alone hsend .refl)))
  · obtain ⟨s₁, hs₁⟩ : ∃ s₁, s₁ = (w.agent i).removeFromCache o d.commandId d.serviceName
      d.servicePath := ⟨_, rfl⟩
    obtain ⟨s₂, hs₂⟩ : ∃ s₂, s₂ = (s₁.removeFromStore d.commandId d.serviceName
      d.servicePath).1 := ⟨_, rfl⟩
    have hst₁ : s₁.toCommandStorage = w.toCommandStorage := hs₁ ▸ rfl
    have hst₂ : s₂.toCommandStorage = w.toCommandStorage := by
      rw [hs₂, CommandHandle.removeFromStore_toCommandStorage, hst₁]
    have hcallback : act G o w (.callback i d resCode respCmd) =
        some (w.update i s₁, .callbackInStore i d resCode respCmd) := by
      simp only [act, if_neg haccepted, ← hs₁]
      exact withLock_of_free hw
    have hstore : act G o (w.update i s₁) (.callbackInStore i d resCode respCmd) =
        some (w.update i s₂, .callbackSend i d resCode respCmd) := by
      simp only [act, agent_update hst₁, ← hs₂, update_update]
    have hsend : act G o (w.update i s₂) (.callbackSend i d resCode respCmd) =
        some (w.update i ((w.agent i).processCommandResponse o d resCode respCmd), .done) := by
      simp only [act, agent_update hst₂, update_update, CommandHandle.processCommandResponse,
        if_neg haccepted, CommandHandle.removeCommand, ← hs₁, ← hs₂]
      split <;> rfl
    exact Run.alone hcallback (Run.alone hstore (Run.alone hsend .refl))

/-- The lock is free again at the end of the callback of a timer. -/
lemma setLock_setLock (hw : w.locked i = false) (s : CommandHandle h) :
    (((w.setLock i true).update i s).setLock i false) = w.update i s := by
  have hfree : Function.update (Function.update w.locked i true) i false = w.locked := by
    rw [Function.update_idem, ← hw, Function.update_eq_self]
  simp only [setLock, update, hfree]

/-- The end of the callback of a timer, from what the callback has left. -/
lemma run_timerEnd {p : Ptr} {s : CommandHandle h} (hw : w.locked i = false)
    (hst : s.toCommandStorage = w.toCommandStorage) (htimeout : (w.agent i).timeoutF o G p = s) :
    Run (act G) (fun _ _ _ => True) ⟨(w.setLock i true).update i s, [.timerEnd i p]⟩
      ⟨w.update i ((w.agent i).itemTimeout o G p), [.done]⟩ := by
  have hact : act G o ((w.setLock i true).update i s) (.timerEnd i p) =
      some (w.update i ((w.agent i).itemTimeout o G p), .done) := by
    simp only [act, update_update, update_cmd, update_cache_self,
      agent_update (w := w.setLock i true) hst, setLock_setLock hw, CommandHandle.itemTimeout,
      htimeout]
  exact Run.alone hact .refl

/-- The end of the callback of a timer that has changed nothing. -/
lemma run_timerEnd_self {p : Ptr} (hw : w.locked i = false)
    (htimeout : (w.agent i).timeoutF o G p = w.agent i) :
    Run (act G) (fun _ _ _ => True) ⟨w.setLock i true, [.timerEnd i p]⟩
      ⟨w.update i ((w.agent i).itemTimeout o G p), [.done]⟩ := by
  have hkeep : (w.setLock i true).update i (w.agent i) = w.setLock i true := update_agent
  have hrest := run_timerEnd (s := w.agent i) hw rfl htimeout
  rwa [hkeep] at hrest

/-- The callback of a timer that the store is not ahead of, from the removal on. -/
lemma run_timerRemove {p : Ptr} {service : PTree} (hw : w.locked i = false)
    (hservice : G (w.cmd i p).service (w.cmd i p).servicePath = some service)
    (ha : CommandHandle.notAhead (w.cmd i p).status
      ((w.agent i).getCommandFromMongo (w.cmd i p).id (w.cmd i p).service
        (w.cmd i p).servicePath)) :
    Run (act G) (fun _ _ _ => True)
      ⟨w.setLock i true, [.timerRemove i p service (w.cmd i p).status]⟩
      ⟨w.update i ((w.agent i).itemTimeout o G p), [.done]⟩ := by
  obtain ⟨s₁, hs₁⟩ : ∃ s₁, s₁ = (w.agent i).removeFromCache o (w.cmd i p).id
    (w.cmd i p).service (w.cmd i p).servicePath := ⟨_, rfl⟩
  obtain ⟨s₂, c, hs₂⟩ : ∃ s₂ c, s₁.removeFromStore (w.cmd i p).id (w.cmd i p).service
    (w.cmd i p).servicePath = (s₂, c) := ⟨_, _, rfl⟩
  have hst₁ : s₁.toCommandStorage = w.toCommandStorage := hs₁ ▸ rfl
  have hst₂ : s₂.toCommandStorage = w.toCommandStorage := by
    have hst := congrArg (fun r => r.1.toCommandStorage) hs₂
    simpa [hst₁] using hst.symm
  have hcmd₁ : s₁.asyncCommands.cmd p = w.cmd i p := by
    rw [hs₁, CommandHandle.removeFromCache_cmd]
    rfl
  have hcmd₂ : s₂.asyncCommands.cmd p = w.cmd i p := by
    have hcmd := congrArg (fun r => r.1.asyncCommands.cmd p) hs₂
    simpa [hcmd₁] using hcmd.symm
  have hremoved : (w.agent i).removeCommand o (w.cmd i p).id (w.cmd i p).service
      (w.cmd i p).servicePath = (s₂, c) := by
    rw [CommandHandle.removeCommand, ← hs₁, hs₂]
  have htimeout := CommandHandle.timeoutF_of_notAhead hservice ha hremoved
  have hremove : act G o (w.setLock i true) (.timerRemove i p service (w.cmd i p).status) =
      some ((w.setLock i true).update i s₁, .timerInStore i p service (w.cmd i p).status) := by
    rw [hs₁]
    rfl
  have hstore : act G o ((w.setLock i true).update i s₁)
      (.timerInStore i p service (w.cmd i p).status) =
      some ((w.setLock i true).update i s₂,
        if 0 < c then .timerSend i p service (w.cmd i p).status else .timerEnd i p) := by
    simp only [act, update_cmd, hcmd₁, agent_update (w := w.setLock i true) hst₁, hs₂,
      update_update]
  refine Run.alone hremove (Run.alone hstore ?_)
  by_cases hc : 0 < c
  · rw [if_pos hc] at htimeout ⊢
    have hsend : act G o ((w.setLock i true).update i s₂)
        (.timerSend i p service (w.cmd i p).status) =
        some ((w.setLock i true).update i (s₂.sendExpired (w.cmd i p)
          (CommandHandle.timeoutMessage (w.cmd i p).status) service), .timerEnd i p) := by
      simp only [act, update_cmd, hcmd₂, agent_update (w := w.setLock i true) hst₂,
        update_update]
    exact Run.alone hsend (run_timerEnd hw hst₂ htimeout)
  · rw [if_neg hc] at htimeout ⊢
    exact run_timerEnd hw hst₂ htimeout

/-- A timer fires. -/
theorem run_itemTimeout (hw : w.locked i = false) (p : Ptr) :
    Run (act G) (fun _ _ _ => True) ⟨w, [.timer i p]⟩
      ⟨w.update i ((w.agent i).itemTimeout o G p), [.done]⟩ := by
  cases hservice : G (w.cmd i p).service (w.cmd i p).servicePath with
  | none =>
      have htimer : act G o w (.timer i p) = some (w.setLock i true, .timerEnd i p) := by
        simp only [act, hservice, withLock_of_free hw]
      exact Run.alone htimer (run_timerEnd_self hw (CommandHandle.timeoutF_of_none hservice))
  | some service =>
      have htimer : act G o w (.timer i p) =
          some (w.setLock i true, .timerRead i p service (w.cmd i p).status) := by
        simp only [act, hservice, withLock_of_free hw]
      refine Run.alone htimer ?_
      by_cases ha : CommandHandle.notAhead (w.cmd i p).status
        ((w.agent i).getCommandFromMongo (w.cmd i p).id (w.cmd i p).service
          (w.cmd i p).servicePath)
      · have hread : act G o (w.setLock i true) (.timerRead i p service (w.cmd i p).status) =
            some (w.setLock i true, .timerRemove i p service (w.cmd i p).status) :=
          if_pos ha
        exact Run.alone hread (run_timerRemove hw hservice ha)
      · have hread : act G o (w.setLock i true) (.timerRead i p service (w.cmd i p).status) =
            some (w.setLock i true, .timerEnd i p) :=
          if_neg ha
        exact Run.alone hread
          (run_timerEnd_self hw (CommandHandle.timeoutF_of_ahead hservice ha))

end Alone

end World

end IotAgent
