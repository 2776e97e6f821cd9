import IotAgent.Rest.Acceptance
import IotAgent.Rest.Copies

/-!
The updates that end a command.

A command ends with an update that says that it was executed, that it failed or that it
expired. The callback of a timer sends one only after it has removed the record of the
command, so the record is a token that is spent once. The side that has the response of the
device sends one in any case.

* `World.tokens`: the record that is there and the updates that have been sent;
* `expiresCopy_tokens`: no step of a timer lets the tokens and what it owes grow;
* `expired_length_le_one`: however many timers fire for copies of a command, in however many
  agents, one update is sent at most;
* `terminal_countP_le_one`: a response and timers send one terminal update at most in every
  run in which the response finds the record when it removes it, and
  `two_terminal_responseAndTimer` shows a run in which it does not.
-/

namespace IotAgent

open HashIndex Mongo Interleaving

/-- An update that ends a command. -/
def UpdateContext.IsTerminal (u : UpdateContext) : Prop :=
  u.firstValue = Types.executedMessage ∨ u.firstValue = Types.error ∨
    u.firstValue = Types.expiredReadMessage ∨ u.firstValue = Types.expiredDeliveryMessage

instance (u : UpdateContext) : Decidable u.IsTerminal :=
  inferInstanceAs (Decidable (_ ∨ _))

namespace World

variable {h : Hashing} {n : ℕ} {w w' : World h n} {i : Fin n} {s : CommandHandle h} {t t' : Task n}
  {G : String → String → Option PTree} {o : Order Ptr String} {k : Command.Key}
  {q : UpdateContext → Bool}

/-! ### Tokens -/

/-- Whether commands are stored. -/
abbrev Stored (w : World h n) : Prop :=
  w.storageType = StoreTypes.mongodb

/-- The query of a removal. -/
def keyQuery (k : Command.Key) : Doc :=
  CommandCollection.obj2BSON (CommandCollection.keyOf k.1 k.2.1 k.2.2)

/-- The store has a record that a removal of the command takes. -/
def Recorded (w : World h n) (k : Command.Key) : Prop :=
  ∃ doc ∈ w.table.docs, Matches (keyQuery k) doc

instance (w : World h n) (k : Command.Key) : Decidable (w.Recorded k) :=
  inferInstanceAs (Decidable (∃ doc ∈ _, _))

/-- The record of the command, and the updates of a kind that have been sent. -/
def tokens (w : World h n) (k : Command.Key) (q : UpdateContext → Bool) : ℕ :=
  (if w.Stored ∧ w.Recorded k then 1 else 0) + w.sent.countP q

lemma recorded_congr (htable : w'.table = w.table) : w'.Recorded k ↔ w.Recorded k := by
  rw [Recorded, Recorded, htable]

lemma stored_congr (hst : w'.storageType = w.storageType) : w'.Stored ↔ w.Stored := by
  rw [Stored, Stored, hst]

lemma tokens_of_eq (hst : w'.storageType = w.storageType) (htable : w'.table = w.table)
    (hsent : w'.sent = w.sent) : w'.tokens k q = w.tokens k q := by
  simp only [tokens, stored_congr hst, recorded_congr htable, hsent]

lemma tokens_send {u : UpdateContext} (hst : w'.storageType = w.storageType)
    (htable : w'.table = w.table) (hsent : w'.sent = w.sent ++ [u]) :
    w'.tokens k q = w.tokens k q + if q u then 1 else 0 := by
  simp only [tokens, stored_congr hst, recorded_congr htable, hsent, List.countP_append,
    List.countP_singleton]
  omega

lemma tokens_send_le {u : UpdateContext} (hst : w'.storageType = w.storageType)
    (htable : w'.table = w.table) (hsent : w'.sent = w.sent ++ [u]) :
    w'.tokens k q ≤ w.tokens k q + 1 := by
  rw [tokens_send hst htable hsent]
  split <;> omega

section Remove

variable {id service servicePath : String}

/-- After a removal no record is there. -/
lemma not_recorded_remove (hs : w.Stored) :
    ¬ (w.update i ((w.agent i).removeFromStore id service servicePath).1).Recorded
      (id, service, servicePath) := by
  have hagent : (w.agent i).Stored := hs
  have hdocs : ((w.agent i).removeFromStore id service servicePath).1.table.docs =
      w.table.docs.filter fun d => ¬ Matches (keyQuery (id, service, servicePath)) d := by
    rw [CommandHandle.removeFromStore, if_pos hagent]
    rfl
  rintro ⟨doc, hdoc, hmatch⟩
  rw [update_table, hdocs] at hdoc
  simpa [hmatch] using (List.mem_filter.mp hdoc).2

/-- A removal takes the record. -/
lemma tokens_remove_of_recorded (hs : w.Stored) (hr : w.Recorded (id, service, servicePath)) :
    (w.update i ((w.agent i).removeFromStore id service servicePath).1).tokens
      (id, service, servicePath) q + 1 = w.tokens (id, service, servicePath) q := by
  rw [tokens, tokens, if_neg fun hr' => not_recorded_remove hs hr'.2, if_pos ⟨hs, hr⟩,
    update_sent, CommandHandle.removeFromStore_sent, agent_sent]
  omega

lemma tokens_remove_le :
    (w.update i ((w.agent i).removeFromStore id service servicePath).1).tokens
      (id, service, servicePath) q ≤ w.tokens (id, service, servicePath) q := by
  by_cases hs : w.Stored
  · rw [tokens, tokens, if_neg fun hr' => not_recorded_remove hs hr'.2, update_sent,
      CommandHandle.removeFromStore_sent, agent_sent]
    omega
  · have hagent : ¬ (w.agent i).Stored := hs
    rw [CommandHandle.removeFromStore, if_neg hagent, update_agent]

/-- The number of removed records tells whether there was one. -/
lemma removeFromStore_pos_iff (hs : w.Stored) :
    0 < ((w.agent i).removeFromStore id service servicePath).2 ↔
      w.Recorded (id, service, servicePath) := by
  have hagent : (w.agent i).Stored := hs
  rw [CommandHandle.removeFromStore, if_pos hagent]
  exact Table.remove_pos_iff

end Remove

/-! ### Timers -/

/-- The callback of a timer, for a copy of the command. It removes the record over a store
only. -/
def ExpiresCopy (k : Command.Key) (w : World h n) : Task n → Prop
  | .timer i p | .timerRead i p _ _ | .timerEnd i p => w.IsCopy i p k
  | .timerRemove i p _ _ | .timerInStore i p _ _ | .timerSend i p _ _ =>
      w.IsCopy i p k ∧ w.Stored
  | .done => True
  | _ => False

/-- What a task is going to send once it has removed the record. A response is sent without
a look at the store, so without a store it is owed from the beginning. -/
def owed (storageType : String) : Task n → ℕ
  | .response .. | .responseFound .. | .responseInStore .. | .callback .. |
    .callbackInStore .. => if storageType = StoreTypes.mongodb then 0 else 1
  | .responseSend .. | .callbackSend .. | .timerSend .. => 1
  | _ => 0

lemma ExpiresCopy.mono (ht : ExpiresCopy k w t) (hw : w.Extends w') : ExpiresCopy k w' t := by
  cases t with
  | timer i p => exact IsCopy.mono ht hw
  | timerRead i p service status => exact IsCopy.mono ht hw
  | timerEnd i p => exact IsCopy.mono ht hw
  | timerRemove i p service status => exact ⟨ht.1.mono hw, hw.storageType.trans ht.2⟩
  | timerInStore i p service status => exact ⟨ht.1.mono hw, hw.storageType.trans ht.2⟩
  | timerSend i p service status => exact ⟨ht.1.mono hw, hw.storageType.trans ht.2⟩
  | done => trivial
  | _ => exact ht.elim

/-- The store is ahead of everything when it holds nothing. -/
lemma stored_of_notAhead {status : ℤ} {id service servicePath : String}
    (ha : CommandHandle.notAhead status
      ((w.agent i).getCommandFromMongo id service servicePath)) : w.Stored := by
  by_contra hs
  have hagent : ¬ (w.agent i).Stored := hs
  have hnone : (w.agent i).getCommandFromMongo id service servicePath = none := by
    rw [CommandHandle.getCommandFromMongo, CommandCache.getByIdFromMongo,
      CommandHandle.getFunction, if_neg hagent]
    rfl
  rw [hnone] at ha
  exact ha

/-- A timer goes on for the same copy. -/
lemma expiresCopy_act (ht : ExpiresCopy k w t) (hact : act G o w t = some (w', t')) :
    ExpiresCopy k w' t' := by
  have hw := act_extends hact
  cases t with
  | timer i p =>
      have hcopy : w'.IsCopy i p k := IsCopy.mono ht hw
      obtain ⟨-, ⟨service, status, rfl⟩ | rfl⟩ := act_timer hact
      · exact hcopy
      · exact hcopy
  | timerRead i p service status =>
      have hcopy : w'.IsCopy i p k := IsCopy.mono ht hw
      obtain ⟨-, ⟨ha, rfl⟩ | rfl⟩ := act_timerRead hact
      · exact ⟨hcopy, hw.storageType.trans (stored_of_notAhead ha)⟩
      · exact hcopy
  | timerRemove i p service status =>
      obtain ⟨-, rfl⟩ := Prod.mk.inj (Option.some.inj hact)
      exact ⟨ht.1.mono hw, hw.storageType.trans ht.2⟩
  | timerInStore i p service status =>
      have hcopy : w'.IsCopy i p k := ht.1.mono hw
      obtain ⟨-, rfl⟩ := Prod.mk.inj (Option.some.inj hact)
      split
      · exact ⟨hcopy, hw.storageType.trans ht.2⟩
      · exact hcopy
  | timerSend i p service status =>
      obtain ⟨-, rfl⟩ := Prod.mk.inj (Option.some.inj hact)
      exact ht.1.mono hw
  | timerEnd i p =>
      obtain ⟨-, rfl⟩ := Prod.mk.inj (Option.some.inj hact)
      trivial
  | done => cases hact
  | _ => exact ht.elim

/-- **One step of a timer**: it spends the record of the command on the update that it
owes. -/
lemma expiresCopy_tokens {st : String} (ht : ExpiresCopy k w t)
    (hact : act G o w t = some (w', t')) :
    w'.tokens k q + owed st t' ≤ w.tokens k q + owed st t := by
  cases t with
  | timer i p =>
      obtain ⟨rfl, ⟨service, status, rfl⟩ | rfl⟩ := act_timer hact
      · exact Nat.le_of_eq (tokens_of_eq rfl rfl rfl)
      · exact Nat.le_of_eq (tokens_of_eq rfl rfl rfl)
  | timerRead i p service status =>
      obtain ⟨rfl, ⟨-, rfl⟩ | rfl⟩ := act_timerRead hact
      · exact Nat.le_refl _
      · exact Nat.le_refl _
  | timerRemove i p service status =>
      obtain ⟨rfl, rfl⟩ := Prod.mk.inj (Option.some.inj hact)
      exact Nat.le_of_eq (tokens_of_eq rfl rfl rfl)
  | timerInStore i p service status =>
      obtain ⟨⟨-, rfl⟩, hs⟩ := ht
      obtain ⟨rfl, rfl⟩ := Prod.mk.inj (Option.some.inj hact)
      rw [Command.key]
      split
      · next hc =>
          exact Nat.le_of_eq (tokens_remove_of_recorded hs ((removeFromStore_pos_iff hs).mp hc))
      · exact tokens_remove_le
  | timerSend i p service status =>
      obtain ⟨rfl, rfl⟩ := Prod.mk.inj (Option.some.inj hact)
      exact tokens_send_le rfl rfl rfl
  | timerEnd i p =>
      obtain ⟨rfl, rfl⟩ := Prod.mk.inj (Option.some.inj hact)
      exact Nat.le_of_eq (tokens_of_eq rfl rfl rfl)
  | done => cases hact
  | _ => exact ht.elim

/-- Timers owe nothing before they start. -/
lemma sum_owed_timers {st : String} {ts : List (Task n)}
    (hts : ∀ t ∈ ts, ∃ i p, t = .timer i p ∧ w.IsCopy i p k) : (ts.map (owed st)).sum = 0 := by
  refine List.sum_eq_zero fun m hm => ?_
  obtain ⟨t, ht, rfl⟩ := List.mem_map.mp hm
  obtain ⟨i, p, rfl, -⟩ := hts t ht
  rfl

/-- At the beginning there is one token at most. -/
lemma tokens_le_one (hsent : w.sent.countP q = 0) : w.tokens k q ≤ 1 := by
  rw [tokens, hsent]
  split <;> omega

/-- **Expiry**: however many timers fire for copies of one command, in however many agents and
in whatever order of their steps, one update is sent at most. -/
theorem expired_length_le_one (G : String → String → Option PTree) (k : Command.Key)
    (c c' : Config (World h n) (Task n))
    (htimers : ∀ t ∈ c.tasks, ∃ i p, t = .timer i p ∧ c.shared.IsCopy i p k)
    (hsent : c.shared.sent = []) (hrun : Run (act G) (fun _ _ _ => True) c c') :
    c'.shared.sent.length ≤ 1 := by
  have hall : ∀ t ∈ c.tasks, ExpiresCopy k c.shared t := by
    intro t ht
    obtain ⟨i, p, rfl, hcopy⟩ := htimers t ht
    exact hcopy
  have hpot := Run.potential_le (P := ExpiresCopy k) (fun w => w.tokens k fun _ => true)
    (owed c.shared.storageType) (fun _ _ _ _ _ => expiresCopy_act)
    (fun _ _ _ _ _ _ _ hu hact => hu.mono (act_extends hact))
    (fun _ _ _ _ _ ht _ hact => expiresCopy_tokens ht hact) hall hrun
  have hstart : c.shared.tokens k (fun _ => true) ≤ 1 := tokens_le_one (by simp [hsent])
  have hlen : c'.shared.sent.length ≤ c'.shared.tokens k fun _ => true := by
    rw [tokens, List.countP_true]
    omega
  rw [potential, potential, sum_owed_timers htimers] at hpot
  omega

/-- A command that is stored, and of which both agents have a copy. -/
def pinged : Command :=
  { Command.ofStored "d1@ping" "ping" "service" "/" "1" "room1" "thing" "" 60 none [] with
    status := Types.readyForRead }

def copiedWorld : World ⟨fun n s => n + s.length, fun n => n⟩ 2 where
  storageType := StoreTypes.mongodb
  bbdd := "iot.COMMAND"
  text _ := ""
  cache _ := ((CommandCache.empty Types.maxSizeCache false).insertNew pinged).1
  locked _ := false
  table := ⟨[CommandCollection.obj2BSON pinged], by decide +kernel⟩
  sent := []

def itsService : PTree := [(StoreTypes.service, "service"), (StoreTypes.servicePath, "/")]

/-- A schedule of the tasks with these numbers. -/
def inOrder (is : List ℕ) : List (Order Ptr String × ℕ) :=
  is.map (Order.blocks, ·)

def agentA : Fin 2 := 0

def agentB : Fin 2 := 1

/-- The timers of two agents. -/
def twoTimers : Config (World ⟨fun n s => n + s.length, fun n => n⟩ 2) (Task 2) :=
  ⟨copiedWorld, [.timer agentA 0, .timer agentB 0]⟩

/-- Both have read the store before one of them removes the record. -/
def afterTwoTimers : Config (World ⟨fun n s => n + s.length, fun n => n⟩ 2) (Task 2) :=
  (exec (act fun _ _ => some itsService) (fun _ _ _ => True)
    (inOrder [0, 1, 0, 1, 0, 1, 0, 1, 0, 1, 0]) twoTimers).get (by decide +kernel)

theorem expired_twoTimers : afterTwoTimers.shared.sent.length ≤ 1 :=
  expired_length_le_one (fun _ _ => some itsService) pinged.key twoTimers afterTwoTimers
    (by
      intro t ht
      simp only [twoTimers, List.mem_cons, List.not_mem_nil, or_false] at ht
      rcases ht with rfl | rfl
      · exact ⟨agentA, 0, rfl, by decide +kernel⟩
      · exact ⟨agentB, 0, rfl, by decide +kernel⟩)
    rfl (run_of_exec (Option.some_get _).symm)

/-! ### Responses -/

/-- The handler of a response to the command, or the callback of its request. -/
def Answers (k : Command.Key) : Task n → Prop
  | .response _ idCommand _ _ service | .responseFound _ idCommand _ _ service _
  | .responseInStore _ idCommand _ _ service _ =>
      (idCommand, service.get StoreTypes.service "", service.get StoreTypes.servicePath "") = k
  | .callback _ d _ _ | .callbackInStore _ d _ _ =>
      (d.commandId, d.serviceName, d.servicePath) = k
  | .responseSend .. | .callbackSend .. | .accepted .. | .acceptedFound .. | .acceptedSend ..
  | .done => True
  | _ => False

/-- The step in which a response removes the record of its command. -/
def removesForResponse : Task n → Bool
  | .responseInStore .. | .callbackInStore .. => true
  | _ => false

/-- A response that removes the record of its command finds it. -/
def FindsRecord (k : Command.Key) : Guard (World h n) (Task n) (Order Ptr String) :=
  fun _ w t => removesForResponse t → w.Stored → w.Recorded k

instance (o : Order Ptr String) (w : World h n) (t : Task n) : Decidable (FindsRecord k o w t) :=
  inferInstanceAs (Decidable (_ → _ → _))

lemma answers_act (ht : Answers k t) (hact : act G o w t = some (w', t')) : Answers k t' := by
  cases t with
  | response i idCommand response dev service =>
      obtain ⟨-, rfl | ⟨command, rfl⟩⟩ := act_response hact
      · trivial
      · exact ht
  | responseFound i idCommand response dev service command =>
      obtain ⟨-, heq⟩ := withLock_eq_some.mp hact
      obtain ⟨-, rfl⟩ := Prod.mk.inj heq
      exact ht
  | responseInStore i idCommand response dev service command =>
      obtain ⟨-, rfl⟩ := Prod.mk.inj (Option.some.inj hact)
      trivial
  | responseSend i response dev service command =>
      obtain ⟨-, rfl⟩ := Prod.mk.inj (Option.some.inj hact)
      trivial
  | callback i d resCode respCmd =>
      obtain ⟨-, updated, rfl⟩ | ⟨-, rfl⟩ := act_callback hact
      · trivial
      · exact ht
  | callbackInStore i d resCode respCmd =>
      obtain ⟨-, rfl⟩ := Prod.mk.inj (Option.some.inj hact)
      trivial
  | callbackSend i d resCode respCmd =>
      obtain ⟨-, rfl⟩ := act_callbackSend hact
      trivial
  | accepted i d updated =>
      obtain ⟨-, heq⟩ := withLock_eq_some.mp hact
      obtain ⟨-, rfl⟩ := Prod.mk.inj heq
      trivial
  | acceptedFound i d updated pt =>
      obtain ⟨-, rfl⟩ := Prod.mk.inj (Option.some.inj hact)
      trivial
  | acceptedSend i d updated =>
      obtain ⟨-, rfl⟩ := act_acceptedSend hact
      trivial
  | done => cases hact
  | _ => exact ht.elim

/-- The mark of an accepted command leaves the record there. -/
lemma tokens_markAccepted (commandId : String) :
    (w.update i ((w.agent i).markAccepted commandId).1).tokens k q = w.tokens k q := by
  have hrec : (w.update i ((w.agent i).markAccepted commandId).1).Recorded k ↔ w.Recorded k := by
    by_cases hs : (w.agent i).Stored
    · rw [Recorded, update_table, CommandHandle.markAccepted_docs hs]
      exact exists_mem_modifyFirst
        (fun d => CommandCollection.matches_key_setStatus (.int Types.delivered)) _
    · rw [CommandHandle.markAccepted, if_neg hs, update_agent]
  simp only [tokens, hrec, stored_congr update_storageType, update_sent,
    CommandHandle.markAccepted_sent, agent_sent]

/-- The update of a delivery ends nothing. -/
lemma sendDelivered_sent (commandName : String) (dev : Device) (service : PTree) :
    ∃ u, (s.sendDelivered commandName dev service).sent = s.sent ++ [u] ∧ ¬ u.IsTerminal := by
  have hupdate : ∃ u, (s.sendDelivered commandName dev service).sent = s.sent ++ [u] ∧
      u.firstValue = if commandName ≠ "" then Types.deliveredMessage else "" :=
    CommandHandle.sendUpdateContext_sent (by decide) (by decide)
  obtain ⟨u, hsent, hfirst⟩ := hupdate
  refine ⟨u, hsent, ?_⟩
  rw [UpdateContext.IsTerminal, hfirst]
  split <;> decide

/-- **One step of a response**: with the record it takes the token for its update. -/
lemma answers_tokens (ht : Answers k t) (hok : FindsRecord k o w t)
    (hact : act G o w t = some (w', t')) :
    w'.tokens k (fun u => u.IsTerminal) + owed w.storageType t' ≤
      w.tokens k (fun u => u.IsTerminal) + owed w.storageType t := by
  cases t with
  | response i idCommand response dev service =>
      obtain ⟨rfl, rfl | ⟨command, rfl⟩⟩ := act_response hact
      · rw [tokens_of_eq rfl rfl rfl]
        exact Nat.add_le_add_left (Nat.zero_le _) _
      · rw [tokens_of_eq rfl rfl rfl]
        exact Nat.le_refl _
  | responseFound i idCommand response dev service command =>
      obtain ⟨-, heq⟩ := withLock_eq_some.mp hact
      obtain ⟨rfl, rfl⟩ := Prod.mk.inj heq
      rw [tokens_of_eq rfl rfl rfl]
      exact Nat.le_refl _
  | responseInStore i idCommand response dev service command =>
      obtain rfl := ht
      obtain ⟨rfl, rfl⟩ := Prod.mk.inj (Option.some.inj hact)
      simp only [owed]
      split
      · next hs => exact Nat.le_of_eq (tokens_remove_of_recorded hs (hok rfl hs))
      · exact Nat.add_le_add_right tokens_remove_le _
  | responseSend i response dev service command =>
      obtain ⟨rfl, rfl⟩ := Prod.mk.inj (Option.some.inj hact)
      exact tokens_send_le rfl rfl rfl
  | callback i d resCode respCmd =>
      obtain ⟨rfl, updated, rfl⟩ | ⟨rfl, rfl⟩ := act_callback hact
      · rw [tokens_markAccepted]
        exact Nat.add_le_add_left (Nat.zero_le _) _
      · rw [tokens_of_eq rfl rfl rfl]
        exact Nat.le_refl _
  | callbackInStore i d resCode respCmd =>
      obtain rfl := ht
      obtain ⟨rfl, rfl⟩ := Prod.mk.inj (Option.some.inj hact)
      simp only [owed]
      split
      · next hs => exact Nat.le_of_eq (tokens_remove_of_recorded hs (hok rfl hs))
      · exact Nat.add_le_add_right tokens_remove_le _
  | callbackSend i d resCode respCmd =>
      obtain ⟨rfl | rfl, rfl⟩ := act_callbackSend hact
      · obtain ⟨u, hsent⟩ := (w.agent i).sendExecuted_sent d respCmd
        exact tokens_send_le rfl CommandHandle.sendExecuted_table hsent
      · exact tokens_send_le rfl rfl rfl
  | accepted i d updated =>
      obtain ⟨-, heq⟩ := withLock_eq_some.mp hact
      obtain ⟨rfl, rfl⟩ := Prod.mk.inj heq
      exact Nat.le_of_eq (tokens_of_eq rfl rfl rfl)
  | acceptedFound i d updated pt =>
      obtain ⟨rfl, rfl⟩ := Prod.mk.inj (Option.some.inj hact)
      cases pt with
      | none => exact Nat.le_of_eq (tokens_of_eq rfl rfl rfl)
      | some p => exact Nat.le_of_eq (tokens_of_eq rfl rfl rfl)
  | acceptedSend i d updated =>
      obtain ⟨rfl | rfl, rfl⟩ := act_acceptedSend hact
      · obtain ⟨u, hsent, hu⟩ := sendDelivered_sent (s := w.agent i) d.commandName d.itemDev
          d.service
        have hworld : (w.update i ((w.agent i).sendDelivered d.commandName d.itemDev
            d.service)).sent = w.sent ++ [u] := hsent
        rw [tokens_send update_storageType rfl hworld]
        simp [hu, owed]
      · exact Nat.le_refl _
  | done => cases hact
  | _ => exact ht.elim

/-- The handler of a response to the command, or the callback of its request, before it
starts. -/
def IsResponseTo (k : Command.Key) : Task n → Prop
  | .response _ idCommand _ _ service =>
      (idCommand, service.get StoreTypes.service "", service.get StoreTypes.servicePath "") = k
  | .callback _ d _ _ => (d.commandId, d.serviceName, d.servicePath) = k
  | _ => False

lemma IsResponseTo.answers (ht : IsResponseTo k t) : Answers k t := by
  cases t with
  | response i idCommand response dev service => exact ht
  | callback i d resCode respCmd => exact ht
  | _ => exact ht.elim

lemma IsResponseTo.owed_eq {st : String} (ht : IsResponseTo k t) :
    owed st t = if st = StoreTypes.mongodb then 0 else 1 := by
  cases t with
  | response i idCommand response dev service => rfl
  | callback i d resCode respCmd => rfl
  | _ => exact ht.elim

/-- A response to a command, and timers for copies of it; nothing has ended the command. -/
structure ResponseAndTimers (k : Command.Key) (c : Config (World h n) (Task n)) : Prop where
  tasks : ∃ r timers, c.tasks = r :: timers ∧ IsResponseTo k r ∧
    ∀ t ∈ timers, ∃ i p, t = .timer i p ∧ c.shared.IsCopy i p k
  sent : c.shared.sent.countP (fun u => u.IsTerminal) = 0

/-- **Terminal updates**: in a run in which the response finds the record when it removes it,
one terminal update is sent at most. -/
theorem terminal_countP_le_one (G : String → String → Option PTree) (k : Command.Key)
    (c c' : Config (World h n) (Task n)) (hstart : ResponseAndTimers k c)
    (hrun : Run (act G) (FindsRecord k) c c') :
    c'.shared.sent.countP (fun u => u.IsTerminal) ≤ 1 := by
  obtain ⟨⟨r, timers, htasks, hr, htimers⟩, hsent⟩ := hstart
  obtain ⟨st, hst⟩ : ∃ st, c.shared.storageType = st := ⟨_, rfl⟩
  have hall : ∀ t ∈ c.tasks, c.shared.storageType = st ∧
      (ExpiresCopy k c.shared t ∨ Answers k t) := by
    intro t ht
    rw [htasks, List.mem_cons] at ht
    rcases ht with rfl | ht
    · exact ⟨hst, .inr hr.answers⟩
    · obtain ⟨i, p, rfl, hcopy⟩ := htimers t ht
      exact ⟨hst, .inl hcopy⟩
  have hpot := Run.potential_le
    (P := fun w t => w.storageType = st ∧ (ExpiresCopy k w t ∨ Answers k t))
    (fun w => w.tokens k fun u => u.IsTerminal) (owed st)
    (fun _ _ _ _ _ ht hact => ⟨(act_extends hact).storageType.trans ht.1,
      ht.2.imp (expiresCopy_act · hact) (answers_act · hact)⟩)
    (fun _ _ _ _ _ _ _ hu hact => ⟨(act_extends hact).storageType.trans hu.1,
      hu.2.imp_left (·.mono (act_extends hact))⟩)
    (fun _ _ _ _ _ ht hok hact => by
      obtain ⟨rfl, ht | ht⟩ := ht
      · exact expiresCopy_tokens ht hact
      · exact answers_tokens ht hok hact) hall hrun
  have hlen : c'.shared.sent.countP (fun u => u.IsTerminal) ≤
      c'.shared.tokens k fun u => u.IsTerminal := by
    rw [tokens]
    omega
  have hstart : (c.shared.tokens k fun u => u.IsTerminal) + owed st r ≤ 1 := by
    rw [tokens, hsent, hr.owed_eq]
    by_cases hs : st = StoreTypes.mongodb
    · rw [if_pos hs]
      split <;> omega
    · rw [if_neg hs, if_neg fun hstored => hs (hst.symm.trans hstored.1)]
  rw [potential, potential, htasks, List.map_cons, List.sum_cons, sum_owed_timers htimers] at hpot
  omega

/-- The device that the command is for. -/
def pingedDevice : Device :=
  { Device.ofName "d1" "service" with servicePath := "/", entityName := "room1" }

/-- The device responds while the timer of the command fires. -/
def responseAndTimer : Config (World ⟨fun n s => n + s.length, fun n => n⟩ 2) (Task 2) :=
  ⟨copiedWorld,
    [.response agentA "d1@ping" "d1@ping|done" pingedDevice itsService, .timer agentA 0]⟩

lemma responseAndTimers_responseAndTimer : ResponseAndTimers pinged.key responseAndTimer where
  tasks := by
    refine ⟨_, _, rfl, rfl, fun t ht => ?_⟩
    obtain rfl := List.mem_singleton.mp ht
    exact ⟨agentA, 0, rfl, by decide +kernel⟩
  sent := rfl

/-- The response comes before the timer. -/
def responseFirst : Config (World ⟨fun n s => n + s.length, fun n => n⟩ 2) (Task 2) :=
  (exec (act fun _ _ => some itsService) (FindsRecord pinged.key)
    (inOrder [0, 0, 0, 0, 1, 1, 1]) responseAndTimer).get (by decide +kernel)

theorem terminal_responseFirst :
    responseFirst.shared.sent.countP (fun u => u.IsTerminal) ≤ 1 :=
  terminal_countP_le_one (fun _ _ => some itsService) pinged.key responseAndTimer responseFirst
    responseAndTimers_responseAndTimer (run_of_exec (Option.some_get _).symm)

/-- The timer fires between the look-up of the response and its removal, and both report. -/
theorem two_terminal_responseAndTimer :
    ResponseAndTimers pinged.key responseAndTimer ∧
    ∃ c', Run (act fun _ _ => some itsService) (fun _ _ _ => True) responseAndTimer c' ∧
      c'.shared.sent.countP (fun u => u.IsTerminal) = 2 := by
  refine ⟨responseAndTimers_responseAndTimer,
    (exec (act fun _ _ => some itsService) (fun _ _ _ => True)
      (inOrder [0, 1, 1, 1, 1, 1, 1, 0, 0, 0]) responseAndTimer).get (by decide +kernel),
    run_of_exec (Option.some_get _).symm, by decide +kernel⟩

end World

end IotAgent
