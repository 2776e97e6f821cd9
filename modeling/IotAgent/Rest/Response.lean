import IotAgent.Rest.CommandHandle

/-!
Responses of devices.

A device answers a command with the identifier of the command in its message. The handlers
of the plugins look the command up by this identifier, in the service and the service path of
the sender, remove it and send an update for the entity of the sender.

* `CommandHandle.respond`: what the handlers have in common;
* `Attributed`: a response removes only commands for the entity of the sender, and sends one
  update for that entity, or does nothing;
* `forall_attributed_iff`: whatever the order of the index, it does so exactly when every
  command that the identifier finds is for the entity of the sender.
-/

namespace IotAgent

open HashIndex Mongo

namespace CommandHandle

variable {h : Hashing} (s : CommandHandle h) (o : Order Ptr String)

/-- A response to the command `idCommand` from a device. -/
def respond (idCommand response : String) (dev : Device) (service : PTree) : CommandHandle h :=
  let srv := service.get StoreTypes.service ""
  let srvPath := service.get StoreTypes.servicePath ""
  match s.getCommand o idCommand srv srvPath with
  | (s, some commandPtr) =>
      let command := (s.asyncCommands.cmd commandPtr).name
      (s.removeCommand o idCommand srv srvPath).1.responseCommand command response dev service
  | (s, none) => s

/-- A command of the sender: the command `idCommand` for the entity of the device. -/
def IsOwn (idCommand : String) (dev : Device) (service : PTree) (c : Command) : Prop :=
  c.id = idCommand ∧ c.service = service.get StoreTypes.service "" ∧
  c.servicePath = service.get StoreTypes.servicePath "" ∧ c.entity = dev.getRealName service

instance (idCommand : String) (dev : Device) (service : PTree) (c : Command) :
    Decidable (IsOwn idCommand dev service c) :=
  inferInstanceAs (Decidable (_ ∧ _))

/-- The key of the look-up of a response. -/
def responseKey (idCommand : String) (service : PTree) : Command :=
  CommandCollection.keyOf idCommand (service.get StoreTypes.service "")
    (service.get StoreTypes.servicePath "")

/-- The command is cached or stored. -/
def Known (c : Command) : Prop :=
  (∃ p ∈ s.asyncCommands.list, s.asyncCommands.cmd p = c) ∨
    ∃ doc ∈ s.table.docs, CommandCollection.bson2Obj doc = c

/-- From `s` to `s'` commands of the sender are removed, and one update is sent, for the
entity of the sender. -/
structure Executed (s s' : CommandHandle h) (idCommand : String) (dev : Device)
    (service : PTree) : Prop where
  known : ∃ c, s.Known c ∧ IsOwn idCommand dev service c
  cached : ∀ p ∈ s.asyncCommands.list, p ∉ s'.asyncCommands.list →
    s.asyncCommands.idKey p = (responseKey idCommand service).uniqueId →
    IsOwn idCommand dev service (s.asyncCommands.cmd p)
  stored : ∀ doc ∈ s.table.docs, doc ∉ s'.table.docs →
    IsOwn idCommand dev service (CommandCollection.bson2Obj doc)
  sent : ∃ u, s'.sent = s.sent ++ [u] ∧ u.firstValue = Types.executedMessage ∧
    u.element.id = dev.getRealName service

/-- A response is executed for the sender, or it changes nothing. -/
def Attributed (s s' : CommandHandle h) (idCommand : String) (dev : Device)
    (service : PTree) : Prop :=
  s' = s ∨ Executed s s' idCommand dev service

/-- Every command that the identifier finds is one of the sender: in the cache those under
the joined key, in the store those that the query of the key matches. -/
structure AllOwn (s : CommandHandle h) (idCommand : String) (dev : Device) (service : PTree) :
    Prop where
  cached : ∀ p ∈ s.asyncCommands.list,
    s.asyncCommands.idKey p = (responseKey idCommand service).uniqueId →
    IsOwn idCommand dev service (s.asyncCommands.cmd p)
  stored : s.Stored → ∀ doc ∈ s.table.docs,
    Matches (CommandCollection.obj2BSON (responseKey idCommand service)) doc →
    IsOwn idCommand dev service (CommandCollection.bson2Obj doc)

variable {s o} {idCommand response : String} {dev : Device} {service : PTree}

/-! ### What a response does -/

/-- The key finds a command, in the cache or behind it. -/
inductive Finds (s : CommandHandle h) (o : Order Ptr String) (key : Command) :
    CommandCache h → Prop where
  | hit {p : Ptr} (hp : o.find s.asyncCommands.idKey key.uniqueId s.asyncCommands.list = some p) :
      Finds s o key (s.asyncCommands.insert p)
  | miss {item : Command}
      (hnone : o.find s.asyncCommands.idKey key.uniqueId s.asyncCommands.list = none)
      (hget : s.getFunction.call key = some item) :
      Finds s o key (s.asyncCommands.insertNew item).1

variable (s o idCommand response dev service) in
/-- A response that finds a command removes and announces it; one that does not has no
effect. -/
lemma respond_cases :
    (∃ c command, Finds s o (responseKey idCommand service) c ∧
      s.respond o idCommand response dev service =
        (({ s with asyncCommands := c } : CommandHandle h).removeCommand o idCommand
          (service.get StoreTypes.service "")
          (service.get StoreTypes.servicePath "")).1.responseCommand command response dev
            service) ∨
    o.find s.asyncCommands.idKey (responseKey idCommand service).uniqueId
        s.asyncCommands.list = none ∧
      s.getFunction.call (responseKey idCommand service) = none ∧
      s.respond o idCommand response dev service = s := by
  cases hf : o.find s.asyncCommands.idKey (responseKey idCommand service).uniqueId
      s.asyncCommands.list with
  | some p =>
      refine .inl ⟨_, ((s.asyncCommands.insert p).cmd p).name, .hit hf, ?_⟩
      rw [respond, getCommand, CommandCache.getById]
      simp only [responseKey] at hf
      simp only [hf, CommandCache.readThrough]
  | none =>
      cases hget : s.getFunction.call (responseKey idCommand service) with
      | some item =>
          refine .inl ⟨_, ((s.asyncCommands.insertNew item).1.cmd s.asyncCommands.heap.next).name,
            .miss hf hget, ?_⟩
          rw [respond, getCommand, CommandCache.getById]
          simp only [responseKey] at hf hget
          simp only [hf, hget, CommandCache.readThrough]
          rw [CommandCache.insertNew_ptr]
      | none =>
          refine .inr ⟨rfl, rfl, ?_⟩
          rw [respond, getCommand, CommandCache.getById]
          simp only [responseKey] at hf hget
          simp only [hf, hget, CommandCache.readThrough]

/-- What a response that finds a command leaves in the store. -/
lemma respond_docs {c : CommandCache h} {command : String} :
    ((({ s with asyncCommands := c } : CommandHandle h).removeCommand o idCommand
      (service.get StoreTypes.service "")
      (service.get StoreTypes.servicePath "")).1.responseCommand command response dev
        service).table.docs =
      if s.Stored then s.table.docs.filter fun d =>
        ¬ Matches (CommandCollection.obj2BSON (responseKey idCommand service)) d
      else s.table.docs :=
  removeCommand_docs

variable (s o idCommand response dev service) in
/-- A response that finds a command announces it. -/
lemma respond_sent (c : CommandCache h) (command : String) :
    ∃ u, ((({ s with asyncCommands := c } : CommandHandle h).removeCommand o idCommand
      (service.get StoreTypes.service "")
      (service.get StoreTypes.servicePath "")).1.responseCommand command response dev
        service).sent = s.sent ++ [u] ∧
      u.firstValue = Types.executedMessage ∧ u.element.id = dev.getRealName service := by
  have hsent := responseCommand_sent (s := (({ s with asyncCommands := c } :
    CommandHandle h).removeCommand o idCommand (service.get StoreTypes.service "")
    (service.get StoreTypes.servicePath "")).1) command response dev service
  rwa [removeCommand_sent] at hsent

/-- A command that is found is known. -/
lemma exists_own_of_finds {c : CommandCache h}
    (hf : Finds s o (responseKey idCommand service) c) (hown : AllOwn s idCommand dev service) :
    ∃ c, s.Known c ∧ IsOwn idCommand dev service c := by
  cases hf with
  | @hit p hp =>
      have hmem := Order.mem_of_find hp
      exact ⟨_, .inl ⟨p, hmem, rfl⟩, hown.cached p hmem (Order.key_of_find hp)⟩
  | @miss item hnone hget =>
      rw [getFunction] at hget
      split at hget
      · next hs =>
          obtain ⟨doc, hdoc, rfl⟩ := Option.map_eq_some_iff.mp hget
          obtain ⟨hmem, hmatch⟩ := Table.findOne_eq_some hdoc
          exact ⟨_, .inr ⟨doc, hmem, rfl⟩, hown.stored hs doc hmem hmatch⟩
      · cases hget

/-- When everything that the identifier finds is the sender's, the response is attributed. -/
lemma attributed_of_allOwn (hown : AllOwn s idCommand dev service) :
    Attributed s (s.respond o idCommand response dev service) idCommand dev service := by
  obtain ⟨c, command, hf, hres⟩ | ⟨-, -, hres⟩ := respond_cases s o idCommand
    response dev service
  · refine .inr ⟨exists_own_of_finds hf hown, fun p hp _ hkey => hown.cached p hp hkey,
      fun doc hdoc hgone => ?_, hres ▸ respond_sent s o idCommand response dev service c command⟩
    rw [hres, respond_docs] at hgone
    split at hgone
    · next hs =>
        simp only [List.mem_filter, hdoc, true_and, decide_not, Bool.not_eq_true',
          decide_eq_false_iff_not, not_not] at hgone
        exact hown.stored hs doc hdoc hgone
    · exact absurd hdoc hgone
  · exact .inl hres

/-- What a response finds stays found until it is removed, under an order that favours it. -/
lemma gone_of_finds {c : CommandCache h} {p : Ptr} (hp : p ∈ s.asyncCommands.list)
    (hkey : s.asyncCommands.idKey p = (responseKey idCommand service).uniqueId)
    (hf : Finds s (Order.favour p) (responseKey idCommand service) c) :
    p ∉ (c.remove (Order.favour p) (responseKey idCommand service)).list := by
  have hfind := Order.find_favour (κ := String) hp hkey
  cases hf with
  | @hit q hq =>
      obtain rfl : p = q := Option.some.inj (hfind.symm.trans hq)
      have hperm : (s.asyncCommands.insert p).list.Perm s.asyncCommands.list :=
        CommandCache.insert_list_perm_of_mem hp
      have hkey' : (s.asyncCommands.insert p).idKey p =
          (responseKey idCommand service).uniqueId := by
        rw [CommandCache.idKey, CommandCache.insert_cmd]
        exact hkey
      rw [CommandCache.remove_list_of_find
        (Order.find_favour (hperm.mem_iff.mpr hp) hkey')]
      exact CommandCache.list_nodup.not_mem_erase
  | miss hnone hget =>
      rw [hfind] at hnone
      cases hnone

/-- A response that finds a command is not without effect. -/
lemma executed_of_finds {s' : CommandHandle h} {c : CommandCache h} {command : String}
    (hres : s' = (({ s with asyncCommands := c } : CommandHandle h).removeCommand o idCommand
      (service.get StoreTypes.service "")
      (service.get StoreTypes.servicePath "")).1.responseCommand command response dev service)
    (hattr : Attributed s s' idCommand dev service) : Executed s s' idCommand dev service := by
  refine hattr.resolve_left fun heq => ?_
  obtain ⟨u, hsent, -⟩ := respond_sent s o idCommand response dev service c command
  rw [← hres, heq] at hsent
  simpa using congrArg List.length hsent

variable (response) in
/-- **Attribution**: whatever the order of the index, a response is executed for the sender
or changes nothing exactly when everything that its identifier finds is the sender's. -/
theorem forall_attributed_iff :
    (∀ o, Attributed s (s.respond o idCommand response dev service) idCommand dev service) ↔
      AllOwn s idCommand dev service := by
  refine ⟨fun hall => ⟨fun p hp hkey => ?_, fun hs doc hdoc hmatch => ?_⟩,
    fun hown o => attributed_of_allOwn hown⟩
  · -- under the order that favours the command it is the one that is removed
    obtain ⟨c, command, hf, hres⟩ | ⟨hnone, -, -⟩ := respond_cases s (Order.favour p) idCommand
      response dev service
    · have hexec := executed_of_finds hres (hall (Order.favour p))
      refine hexec.cached p hp ?_ hkey
      have hgone := gone_of_finds hp hkey hf
      rw [hres]
      change p ∉ (CommandHandle.removeCommand _ _ _ _ _).1.asyncCommands.list
      rwa [removeCommand_asyncCommands]
    · rw [Order.find_favour hp hkey] at hnone
      cases hnone
  · obtain ⟨c, command, hf, hres⟩ | ⟨-, hget, -⟩ := respond_cases s Order.blocks idCommand
      response dev service
    · have hexec := executed_of_finds hres (hall Order.blocks)
      refine hexec.stored doc hdoc ?_
      rw [hres, respond_docs, if_pos hs]
      simp [hmatch]
    · have hnone : CommandCollection.findOne s.table (responseKey idCommand service) = none := by
        rwa [getFunction, if_pos hs] at hget
      exact absurd hmatch (Table.findOne_eq_none_iff.mp (Option.map_eq_none_iff.mp hnone) doc hdoc)

end CommandHandle

end IotAgent
