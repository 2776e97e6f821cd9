import IotAgent.Rest.Response

/-!
The plugin for MQTT (`src/mqtt/IotaMqttServiceImpl.cc`).

The identifier of a command travels in the payload behind the text `cmdid|`, up to the next
hash sign or to the end.

* `extractCommandId`: the identifier in a payload, and the payload without it;
* `respondMqttCommand`, `processCommandResponse`: the handlers of a response;
* `extractCommandId_eq_some_iff`: the payloads that have an identifier, and which;
* `processCommandResponse_attributed_iff`: when the response in a payload goes to its sender.
-/

namespace IotAgent

open HashIndex

namespace MqttService

/-- The payload around the first `cmdid|`. -/
def splitAtId : List Char → Option (List Char × List Char)
  | 'c' :: 'm' :: 'd' :: 'i' :: 'd' :: '|' :: rest => some ([], rest)
  | c :: cs => (splitAtId cs).map fun r => (c :: r.1, r.2)
  | [] => none

/-- `extract_command_id`: the payload without the identifier, and the identifier. -/
def extractCommandId (payload : String) : Option (String × String) :=
  (splitAtId payload.toList).map fun (before, cmdId) =>
    (String.ofList (before ++ (cmdId.dropWhile (· ≠ '#')).tail),
      String.ofList (cmdId.takeWhile (· ≠ '#')))

variable {h : Hashing} (s : CommandHandle h) (o : Order Ptr String)

/-- `respond_mqtt_command`, from the look-up of the device on. -/
def respondMqttCommand (dev : Device) (service : PTree) (commandPayload commandId : String) :
    CommandHandle h :=
  s.respond o commandId commandPayload dev service

/-- `processCommandResponse`; a payload without an identifier is dropped. -/
def processCommandResponse (dev : Device) (service : PTree) (rawPayload : String) :
    CommandHandle h :=
  match extractCommandId rawPayload with
  | some (payload, cmdId) => respondMqttCommand s o dev service payload cmdId
  | none => s

/-! ### The identifier in a payload -/

/-- The text in front of an identifier. -/
def idMark : List Char := ['c', 'm', 'd', 'i', 'd', '|']

lemma splitAtId_mark (rest : List Char) : splitAtId (idMark ++ rest) = some ([], rest) := rfl

lemma splitAtId_cons {c : Char} {cs : List Char} (hc : ¬ idMark <+: c :: cs) :
    splitAtId (c :: cs) = (splitAtId cs).map fun r => (c :: r.1, r.2) := by
  rw [splitAtId]
  rintro rest rfl rfl
  exact hc ⟨rest, rfl⟩

/-- The mark does not begin in front of its first occurrence. -/
lemma not_idMark_begins {c : Char} {before after : List Char} (h : ¬ idMark <:+: c :: before) :
    ¬ idMark <+: c :: (before ++ (idMark ++ after)) := by
  intro hbegin
  by_cases hlen : idMark.length ≤ (c :: before).length
  · refine h (List.IsPrefix.isInfix ?_)
    rw [← List.cons_append] at hbegin
    exact List.prefix_of_prefix_length_le hbegin (List.prefix_append ..) hlen
  · -- the mark has no beginning that is an end of it
    match before, hlen with
    | [], _ | [_], _ | [_, _], _ | [_, _, _], _ | [_, _, _, _], _ => simp [idMark] at hbegin
    | _ :: _ :: _ :: _ :: _ :: _, hlen => simp [idMark] at hlen

/-- A payload is split at the first mark. -/
lemma splitAtId_eq_some_iff {cs before after : List Char} :
    splitAtId cs = some (before, after) ↔
      cs = before ++ (idMark ++ after) ∧ ¬ idMark <:+: before := by
  constructor
  · intro h
    induction cs generalizing before with
    | nil => cases h
    | cons c cs ih =>
        by_cases hmark : idMark <+: c :: cs
        · obtain ⟨rest, hrest⟩ := hmark
          rw [← hrest, splitAtId_mark] at h
          obtain ⟨rfl, rfl⟩ := Prod.mk.inj (Option.some.inj h)
          exact ⟨hrest.symm, by simp [idMark]⟩
        · rw [splitAtId_cons hmark] at h
          obtain ⟨⟨before', after'⟩, hsplit, heq⟩ := Option.map_eq_some_iff.mp h
          obtain ⟨rfl, rfl⟩ := Prod.mk.inj heq
          obtain ⟨rfl, hnot⟩ := ih hsplit
          refine ⟨rfl, fun hinfix => ?_⟩
          rcases List.infix_cons_iff.mp hinfix with hbegin | hinfix
          · exact hmark (hbegin.trans ⟨idMark ++ after', rfl⟩)
          · exact hnot hinfix
  · rintro ⟨rfl, hnot⟩
    induction before with
    | nil => exact splitAtId_mark after
    | cons c before ih =>
        have hbefore : ¬ idMark <:+: before := fun h => hnot (List.infix_cons h)
        rw [List.cons_append, splitAtId_cons (not_idMark_begins hnot), ih hbefore]
        rfl

/-- **The identifier in a payload** is what stands behind the first mark, up to the next hash sign
or to the end. It is taken out with the mark and the hash sign. -/
theorem extractCommandId_eq_some_iff {payload outPayload outId : String} :
    extractCommandId payload = some (outPayload, outId) ↔
      ∃ before after, payload.toList = before ++ (idMark ++ (outId.toList ++ after)) ∧
        ¬ idMark <:+: before ∧ '#' ∉ outId.toList ∧ (∀ c ∈ after.head?, c = '#') ∧
        outPayload.toList = before ++ after.tail := by
  rw [extractCommandId, Option.map_eq_some_iff]
  constructor
  · rintro ⟨⟨before, cmdId⟩, hsplit, heq⟩
    obtain ⟨rfl, rfl⟩ := Prod.mk.inj heq
    obtain ⟨hpayload, hnot⟩ := splitAtId_eq_some_iff.mp hsplit
    refine ⟨before, cmdId.dropWhile (· ≠ '#'), ?_, hnot, fun hmem => ?_, fun c hc => ?_, ?_⟩
    · rw [String.toList_ofList, List.takeWhile_append_dropWhile, hpayload]
    · rw [String.toList_ofList] at hmem
      simpa using List.mem_takeWhile_imp hmem
    · have hhead := List.head?_dropWhile_not (· ≠ '#') cmdId
      rw [Option.mem_def.mp hc] at hhead
      simpa using hhead
    · rw [String.toList_ofList]
  · rintro ⟨before, after, hpayload, hnot, hid, hhead, hout⟩
    refine ⟨(before, outId.toList ++ after), splitAtId_eq_some_iff.mpr ⟨hpayload, hnot⟩, ?_⟩
    have hall : ∀ c ∈ outId.toList, decide (c ≠ '#') = true := by
      intro c hc
      exact decide_eq_true fun e => hid (e ▸ hc)
    have htail : after.takeWhile (· ≠ '#') = [] ∧ after.dropWhile (· ≠ '#') = after := by
      cases after with
      | nil => exact ⟨rfl, rfl⟩
      | cons c after =>
          obtain rfl := hhead c rfl
          exact ⟨rfl, rfl⟩
    dsimp only
    rw [List.takeWhile_append_of_pos hall, List.dropWhile_append_of_pos hall, htail.1, htail.2,
      List.append_nil, ← hout, String.ofList_toList, String.ofList_toList]

example : extractCommandId "cmdid|2238#dev01@PING#param|value" =
    some ("dev01@PING#param|value", "2238") := by
  decide +kernel

/-- Without the mark there is none. -/
lemma extractCommandId_isSome_iff {payload : String} :
    (extractCommandId payload).isSome ↔ idMark <:+: payload.toList := by
  rw [extractCommandId, Option.isSome_map]
  induction payload.toList with
  | nil => exact iff_of_false (by simp [splitAtId]) (by simp [idMark])
  | cons c cs ih =>
      rw [List.infix_cons_iff]
      by_cases hmark : idMark <+: c :: cs
      · obtain ⟨rest, hrest⟩ := hmark
        rw [← hrest, splitAtId_mark]
        exact iff_of_true rfl (.inl (List.prefix_append ..))
      · rw [splitAtId_cons hmark, Option.isSome_map, ih, or_iff_right hmark]

/-! ### The response in a payload -/

/-- **The response in a payload** goes to its sender, whatever the order of the index, exactly when
the identifier finds commands for the entity of the sender only. -/
theorem processCommandResponse_attributed_iff {dev : Device} {service : PTree}
    {rawPayload payload cmdId : String}
    (hid : extractCommandId rawPayload = some (payload, cmdId)) :
    (∀ o, CommandHandle.Attributed s (processCommandResponse s o dev service rawPayload) cmdId dev
        service) ↔
      CommandHandle.AllOwn s cmdId dev service := by
  simp only [processCommandResponse, hid, respondMqttCommand]
  exact CommandHandle.forall_attributed_iff payload

/-- Without an identifier nothing happens. -/
lemma processCommandResponse_of_none {dev : Device} {service : PTree} {rawPayload : String}
    (hid : extractCommandId rawPayload = none) :
    processCommandResponse s o dev service rawPayload = s := by
  rw [processCommandResponse, hid]

end MqttService

end IotAgent
