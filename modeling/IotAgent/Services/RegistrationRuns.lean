import IotAgent.Lib.Runs
import IotAgent.Services.Unregister
import IotAgent.Util.HttpClient

/-!
Registrations of devices and what is noted of them (`src/rest/command_handle.cc`).

A handler registers its devices with the context broker in two loops, over the documents of
its services and the devices of each. What the broker answers is noted with the first stored
device of the name and the service.

* `RegisterResponse`, `getDurationSeconds`: the answer of the broker and its duration;
* `RegistrationLoops.turn`: one turn of the loops, of `send_register_device` and of
  `send_all_registrations_from_mongo`;
* `StoresOwn`: the documents hold what was answered for their own devices, and else what they
  held before;
* `storesOwn_iff`: they do throughout a run exactly when in every turn with an answer the
  first device of the name and the service is the device that the answer is for.
-/

namespace IotAgent

open Mongo DeviceCollection

/-! ### Answers of the broker -/

/-- The answer to a registration. -/
structure RegisterResponse where
  registrationId : String
  duration : String
  registrationId_ne : registrationId ≠ ""
  duration_ne : duration ≠ ""

namespace RegisterResponse

/-- The members with the answer. -/
def ofMembers (d : Json) : Except Stop RegisterResponse :=
  if hid : d.stringAt "registrationId" = "" then
    .error (.runtimeError "RegisterResponse: [registrationId]Missing field")
  else if hduration : d.stringAt "duration" = "" then
    .error (.runtimeError "RegisterResponse: [duration]Missing field")
  else .ok ⟨d.stringAt "registrationId", d.stringAt "duration", hid, hduration⟩

/-- The answer may stand in a member of its own. -/
def ofObject (d : Json) : Except Stop RegisterResponse :=
  match d.member "registerResponse" with
  | some (.object members) => ofMembers (.object members)
  | some _ => .error .assertion
  | none => ofMembers d

/-- The constructor from a text. -/
def ofText (lib : JsonLib) : String → Except Stop RegisterResponse :=
  Json.readText lib "RegisterResponse: " ofObject

end RegisterResponse

/-- `DEFAULT_REG_TIMEOUT`. -/
def defaultRegTimeout : ℤ := 1

/-- The text behind the first occurrence of a marker. -/
def Text.behind (marker : List Char) : List Char → Option (List Char)
  | [] => if marker.isEmpty then some [] else none
  | c :: cs =>
      if marker.isPrefixOf (c :: cs) then some ((c :: cs).drop marker.length)
      else behind marker cs

/-- The first of the units that occurs, with the text in front of it. -/
def countOf (units : List (Char × ℤ)) (saux : List Char) : Option (List Char × ℤ) :=
  units.findSome? fun unit =>
    if unit.1 ∈ saux then some (saux.takeWhile (· ≠ unit.1), unit.2) else none

/-- `get_duration_seconds`. -/
def getDurationSeconds (data : String) : ℤ :=
  let count :=
    match Text.behind ['P', 'T'] data.toList with
    | some saux => countOf [('H', 3600), ('M', 60), ('S', 1)] saux
    | none =>
        match Text.behind ['P'] data.toList with
        | some saux => countOf [('Y', 365 * 24 * 3600), ('M', 30 * 24 * 3600),
            ('W', 7 * 24 * 3600), ('D', 24 * 3600)] saux
        | none => none
  match count with
  | some (sresu, tseg) =>
      if 0 < Text.atoi sresu then (Text.atoi sresu * tseg).bmod (2 ^ 32) else defaultRegTimeout
  | none => defaultRegTimeout

/-! ### Requests -/

namespace CommandHandler

variable (h : CommandHandler)

/-- The registration of a device. -/
def contextRegistration (pt : PTree) (device : Device) : Ngsi.ContextRegistration where
  entities := ((⟨[], [], none⟩ : ContextRegistration).setEnvInfo pt (some device)).1.entities
  attributes := device.commands.map fun p =>
    { name := p.1
      type := if p.2 ≠ Types.status ∧ p.2 ≠ Types.info then Types.commandType else p.2
      isDomain := "false" }
  provider := h.myProvidingApp

end CommandHandler

/-- What the others answer in one turn: whether the update returns, whether the broker takes
back the old registration, and the text that it answers to the new one. `false` and `none`
stand for an exception. -/
structure RegistrationTurn where
  updateContext : Bool
  takesBack : Bool
  registers : Option String

/-- `send_register`, with the text that is answered. An old registration is taken back first. -/
def sendRegister (h : CommandHandler) (contextRegistrations : List Ngsi.ContextRegistration)
    (ptCb : PTree) (regId : String) (e : RegistrationTurn) : List BrokerRequest × Option String :=
  let request (duration registrationId : String) : BrokerRequest :=
    ⟨h.cbUrl ptCb, { contextRegistrations, duration, registrationId }⟩
  if regId ≠ "" then
    if e.takesBack then ([request "PT1S" regId, request "" ""], e.registers)
    else ([request "PT1S" regId], none)
  else ([request "" ""], e.registers)

/-! ### The loops -/

/-- A run of the loops: what the cursors on services and devices have left, the service and
the device at hand, and what was answered for which document. -/
structure RegistrationRun where
  devices : DeviceTable
  services : List Doc
  cursor : List Doc := []
  service : Doc := []
  servicePtree : PTree := []
  device : Device
  answered : List (Doc × RegisterResponse) := []
  regTimeout : ℤ
  updates : List UpdateContext := []
  requests : List BrokerRequest := []
  ended : Bool := false

/-- What the two functions do not share: what they make of a service, `none` for an exception;
the devices that they find for it; and what they do with a device before they register it,
which leaves the stored devices and the answers alone. -/
structure RegistrationLoops where
  enter : Doc → Option PTree
  find : RegistrationRun → List Doc
  ready : RegistrationRun → RegistrationTurn → RegistrationRun × Option PTree
  ready_devices : ∀ s e, (ready s e).1.devices = s.devices
  ready_answered : ∀ s e, (ready s e).1.answered = s.answered

namespace RegistrationRun

variable (h : CommandHandler) (J : JsonText) (lib : JsonLib) (s : RegistrationRun)

/-- What the answer is noted as. The other function notes the duration with its copy of the
device as well, which it reads no more. -/
def note (doc : Doc) (resp : RegisterResponse) : RegistrationRun :=
  { s with
    devices := AdminService.noteRegistration s.devices (bson2Obj J doc)
      (resp.registrationId, getDurationSeconds resp.duration)
    device := { s.device with registrationId := resp.registrationId }
    regTimeout := getDurationSeconds resp.duration
    answered := s.answered ++ [(doc, resp)] }

/-- The answer in a turn for a device: one without commands is not registered, nor has a
device that was read from the store any lazy attributes. -/
def responseTo (doc : Doc) (servicePtree : PTree) (e : RegistrationTurn) :
    List BrokerRequest × Option (Except Stop RegisterResponse) :=
  let dev := bson2Obj J doc
  let (requests, cbResponse) :=
    sendRegister h [h.contextRegistration servicePtree dev] servicePtree dev.registrationId e
  (requests, cbResponse.map (RegisterResponse.ofText lib))

/-- The registration of a device. -/
def register (doc : Doc) (servicePtree : PTree) (e : RegistrationTurn) : RegistrationRun :=
  if (bson2Obj J doc).commands = [] then s
  else
    let (requests, response) := responseTo h J lib doc servicePtree e
    let s := { s with requests := s.requests ++ requests }
    match response with
    | some (.ok resp) => s.note J doc resp
    | _ => { s with ended := true }

end RegistrationRun

namespace RegistrationLoops

variable (L : RegistrationLoops) (h : CommandHandler) (J : JsonText) (lib : JsonLib)

/-- One turn: the next device of the service, or the next service. -/
def turn (s : RegistrationRun) (e : RegistrationTurn) : RegistrationRun :=
  if s.ended then s
  else
    match s.cursor with
    | doc :: cursor =>
        match L.ready { s with cursor, device := bson2Obj J doc } e with
        | (s, some servicePtree) => s.register h J lib doc servicePtree e
        | (s, none) => { s with ended := true }
    | [] =>
        match s.services with
        | srv :: services =>
            match L.enter srv with
            | some servicePtree =>
                let s := { s with services, service := srv, servicePtree }
                { s with cursor := L.find s }
            | none => { s with services, ended := true }
        | [] => { s with ended := true }

/-- The loops of `send_register_device`. The services are those of the device that it is called
with, and the devices those that match the device at hand; with an update for each. -/
def sendRegisterDevice : RegistrationLoops where
  enter _ := some []
  find s := s.devices.find (obj2BSON J s.device)
  ready s e :=
    match h.getServiceByName (s.service.getStringField StoreTypes.service)
        (s.service.getStringField StoreTypes.servicePath) with
    | some servicePtree =>
        ({ s with
            updates := s.updates ++
              [⟨Types.statusOp, ({} : ContextElement).format servicePtree s.device⟩] },
          if e.updateContext then some servicePtree else none)
    | none => (s, none)
  ready_devices s e := by split <;> rfl
  ready_answered s e := by split <;> rfl

/-- `find_devices_with_commands`. -/
def findDevicesWithCommands (devices : DeviceTable) (srv servicePath protocol : String) :
    List Doc :=
  devices.docs.filter fun d =>
    Matches [(StoreTypes.service, .str srv), (StoreTypes.servicePath, .str servicePath),
      (StoreTypes.protocol, .str protocol)] d ∧ d.hasField StoreTypes.commands

/-- The loops of `send_all_registrations_from_mongo`, over all services of the resource and
their devices with commands. -/
def sendAllRegistrationsFromMongo (fillServiceWithBson : Doc → Option PTree)
    (protocol : String) : RegistrationLoops where
  enter := fillServiceWithBson
  find s := findDevicesWithCommands s.devices (s.service.getStringField StoreTypes.service)
    (s.service.getStringField StoreTypes.servicePath) protocol
  ready s _ := (s, some s.servicePtree)
  ready_devices _ _ := rfl
  ready_answered _ _ := rfl

/-- Before the first turn for a device. -/
def startDevice (services : ServiceTable) (devices : DeviceTable) (resource : String)
    (device : Device) (regTimeout : ℤ) : RegistrationRun where
  devices := devices
  services := services.find [(StoreTypes.service, .str device.service),
    (StoreTypes.servicePath, .str device.servicePath), (StoreTypes.resource, .str resource)]
  device := device
  regTimeout := regTimeout

/-- Before the first turn for all devices. -/
def startAll (services : ServiceTable) (devices : DeviceTable) (resource : String)
    (regTimeout : ℤ) : RegistrationRun where
  devices := devices
  services := services.find [(StoreTypes.resource, .str resource)]
  device := Device.ofName "" ""
  regTimeout := regTimeout

end RegistrationLoops

/-! ### Whose data is stored -/

/-- The fields of the unique index. -/
def deviceKey : List String :=
  [StoreTypes.deviceId, StoreTypes.service, StoreTypes.servicePath]

/-- The documents are of one device. -/
def SameDevice (d e : Doc) : Prop :=
  Mongo.keyOf deviceKey d = Mongo.keyOf deviceKey e

instance (d e : Doc) : Decidable (SameDevice d e) :=
  inferInstanceAs (Decidable (_ = _))

/-- What is noted of an answer. -/
def registrationData (resp : RegisterResponse) : Doc :=
  Doc.opt (resp.registrationId ≠ "") StoreTypes.registrationId (.str resp.registrationId) ++
    Doc.opt (getDurationSeconds resp.duration ≠ longMin) StoreTypes.durationCb
      (.int (getDurationSeconds resp.duration))

/-- A document with what was answered for its device. -/
def withAnswer (doc : Doc) (a : Doc × RegisterResponse) : Doc :=
  if SameDevice a.1 doc then doc.setAll (registrationData a.2) else doc

/-- The documents hold what they held before, but for what was answered for their devices. -/
def StoresOwn (docs : List Doc) (s : RegistrationRun) : Prop :=
  s.devices.docs = docs.map fun doc => s.answered.foldl withAnswer doc

instance (docs : List Doc) (s : RegistrationRun) : Decidable (StoresOwn docs s) :=
  inferInstanceAs (Decidable (_ = _))

/-- The query with which an answer is noted. -/
def noteQuery (dev : Device) : Doc :=
  Doc.opt (dev.name ≠ "") StoreTypes.deviceId (.str dev.name) ++
    Doc.opt (dev.service ≠ "") StoreTypes.service (.str dev.service)

/-- The first document of the name and the service of a device is its own; or a document where
that makes a difference has the data already. -/
def FirstIsOwn (J : JsonText) (devices : DeviceTable) (a : Doc × RegisterResponse) : Prop :=
  ∀ doc ∈ devices.docs,
    (devices.findOne (noteQuery (bson2Obj J a.1)) = some doc ↔ SameDevice a.1 doc) ∨
      Matches (registrationData a.2) doc

instance (J : JsonText) (devices : DeviceTable) (a : Doc × RegisterResponse) :
    Decidable (FirstIsOwn J devices a) :=
  inferInstanceAs (Decidable (∀ _ ∈ _, _))

namespace RegistrationLoops

variable (L : RegistrationLoops) (h : CommandHandler) (J : JsonText) (lib : JsonLib)

/-- The answer of the broker in a turn, with the document that it is for. -/
def answer (s : RegistrationRun) (e : RegistrationTurn) : Option (Doc × RegisterResponse) :=
  if s.ended then none
  else
    match s.cursor with
    | doc :: cursor =>
        match (L.ready { s with cursor, device := bson2Obj J doc } e).2 with
        | some servicePtree =>
            match (RegistrationRun.responseTo h J lib doc servicePtree e).2 with
            | some (.ok resp) => if (bson2Obj J doc).commands = [] then none else some (doc, resp)
            | _ => none
        | none => none
    | [] => none

/-- If there is an answer in a turn, the first document is the own one. -/
def NotesOwn (s : RegistrationRun) (e : RegistrationTurn) : Prop :=
  ∀ a ∈ L.answer h J lib s e, FirstIsOwn J s.devices a

instance (s : RegistrationRun) (e : RegistrationTurn) : Decidable (L.NotesOwn h J lib s e) :=
  inferInstanceAs (Decidable (∀ _ ∈ _, _))

end RegistrationLoops

/-! ### One note -/

lemma nodup_registrationData (resp : RegisterResponse) :
    ((registrationData resp).map Prod.fst).Nodup := by
  have hdistinct : [StoreTypes.registrationId, StoreTypes.durationCb].Nodup := by decide
  refine hdistinct.sublist ?_
  have hopt : ∀ (c : Prop) [Decidable c] (f : String) (v : Bson),
      List.Sublist ((Doc.opt c f v).map Prod.fst) [f] := by
    intro c _ f v
    rw [Doc.opt]
    split
    · exact List.Sublist.refl _
    · exact List.nil_sublist _
  rw [registrationData, List.map_append]
  exact (hopt _ _ _).append (hopt _ _ _)

lemma noteRegistration_docs (t : DeviceTable) (dev : Device) (resp : RegisterResponse) :
    (AdminService.noteRegistration t dev
        (resp.registrationId, getDurationSeconds resp.duration)).docs =
      modifyFirst (noteQuery dev) (·.setAll (registrationData resp)) t.docs :=
  AdminService.noteRegistration_docs t dev _

/-- When a note is stored with its own device only. -/
lemma noteRegistration_eq_map_iff {J : JsonText} {t : DeviceTable}
    {a : Doc × RegisterResponse} :
    (AdminService.noteRegistration t (bson2Obj J a.1)
        (a.2.registrationId, getDurationSeconds a.2.duration)).docs =
        t.docs.map (withAnswer · a) ↔ FirstIsOwn J t a := by
  rw [noteRegistration_docs, modifyFirst_eq_map (t.docs_nodup (List.mem_singleton_self deviceKey)),
    List.map_inj_left, FirstIsOwn]
  refine forall₂_congr fun doc _ => ?_
  have hself := @Doc.setAll_eq_self_iff doc (registrationData a.2) (nodup_registrationData a.2)
  rw [withAnswer, Matches, ← hself, Table.findOne]
  by_cases hfirst : t.docs.find? (fun d => Matches (noteQuery (bson2Obj J a.1)) d) = some doc <;>
    by_cases hown : SameDevice a.1 doc
  · simp [hfirst, hown]
  · simp [hfirst, hown]
  · simp [hfirst, hown, eq_comm]
  · simp [hfirst, hown]

/-! ### One turn -/

namespace RegistrationLoops

variable {L : RegistrationLoops} {h : CommandHandler} {J : JsonText} {lib : JsonLib}
  {s : RegistrationRun} {e : RegistrationTurn} {docs : List Doc}

/-- A registration notes the answer, if there is one, and nothing else. -/
lemma register_spec (doc : Doc) (servicePtree : PTree) :
    ((s.register h J lib doc servicePtree e).devices,
        (s.register h J lib doc servicePtree e).answered) =
      match (RegistrationRun.responseTo h J lib doc servicePtree e).2 with
      | some (.ok resp) =>
          if (bson2Obj J doc).commands = [] then (s.devices, s.answered)
          else (AdminService.noteRegistration s.devices (bson2Obj J doc)
            (resp.registrationId, getDurationSeconds resp.duration), s.answered ++ [(doc, resp)])
      | _ => (s.devices, s.answered) := by
  rw [RegistrationRun.register]
  by_cases hcommands : (bson2Obj J doc).commands = []
  · rw [if_pos hcommands]
    split
    · rw [if_pos hcommands]
    · rfl
  · rw [if_neg hcommands]
    dsimp only
    split
    · rw [if_neg hcommands]
      rfl
    · rfl

/-- A turn notes its answer. -/
lemma turn_spec :
    ((L.turn h J lib s e).devices, (L.turn h J lib s e).answered) =
      match L.answer h J lib s e with
      | some a => (AdminService.noteRegistration s.devices (bson2Obj J a.1)
          (a.2.registrationId, getDurationSeconds a.2.duration), s.answered ++ [a])
      | none => (s.devices, s.answered) := by
  rw [turn, answer]
  by_cases hended : s.ended = true
  · rw [if_pos hended, if_pos hended]
  rw [if_neg hended, if_neg hended]
  cases s.cursor with
  | nil =>
      dsimp only
      cases s.services with
      | nil => rfl
      | cons srv services =>
          dsimp only
          cases L.enter srv <;> rfl
  | cons doc cursor =>
      dsimp only
      have hdevices := L.ready_devices { s with cursor, device := bson2Obj J doc } e
      have hanswered := L.ready_answered { s with cursor, device := bson2Obj J doc } e
      cases hready : L.ready { s with cursor, device := bson2Obj J doc } e with
      | mk s' pt =>
          rw [hready] at hdevices hanswered
          cases pt with
          | none => exact congrArg₂ Prod.mk hdevices hanswered
          | some servicePtree =>
              dsimp only at hdevices hanswered ⊢
              rw [register_spec, hdevices, hanswered]
              cases (RegistrationRun.responseTo h J lib doc servicePtree e).2 with
              | none => rfl
              | some result =>
                  cases result with
                  | error stop => rfl
                  | ok resp =>
                      dsimp only
                      split <;> rfl

/-- **One turn** keeps the data with their own devices exactly when it notes the answer with
the device that it is for. -/
lemma storesOwn_turn_iff (hs : StoresOwn docs s) :
    StoresOwn docs (L.turn h J lib s e) ↔ L.NotesOwn h J lib s e := by
  have hspec := @turn_spec L h J lib s e
  rw [NotesOwn]
  cases ha : L.answer h J lib s e with
  | none =>
      rw [ha] at hspec
      obtain ⟨hdevices, hanswered⟩ := Prod.mk.inj hspec
      refine iff_of_true ?_ fun a hnone => by cases hnone
      rw [StoresOwn, hdevices, hanswered]
      exact hs
  | some a =>
      rw [ha] at hspec
      obtain ⟨hdevices, hanswered⟩ := Prod.mk.inj hspec
      have hmap : (docs.map fun doc => (s.answered ++ [a]).foldl withAnswer doc) =
          s.devices.docs.map (withAnswer · a) := by
        rw [StoresOwn] at hs
        rw [hs, List.map_map]
        exact List.map_congr_left fun doc _ => by rw [List.foldl_append]; rfl
      rw [StoresOwn, hdevices, hanswered, hmap, noteRegistration_eq_map_iff]
      simp

/-! ### Runs -/

/-- The data stay with their own devices throughout a run exactly when each turn notes its
answer with the device that it is for. -/
lemma storesOwn_run_iff (hstart : s.answered = []) (es : List RegistrationTurn) :
    (∀ n, StoresOwn s.devices.docs (Run.run (L.turn h J lib) s (es.take n))) ↔
      Run.Always (L.turn h J lib) (L.NotesOwn h J lib) s es := by
  refine Run.forall_run_iff (E := fun _ _ => True) (fun s' e hs' _ => storesOwn_turn_iff hs') ?_
    Run.always_true
  rw [StoresOwn, hstart]
  exact (List.map_id' _).symm

/-- **Registration data are stored with their own devices**, throughout a run for one device
or for all, exactly when every answer comes in a turn in which the first stored device of the
name and the service is the one that it is for. -/
theorem storesOwn_iff (h : CommandHandler) (J : JsonText) (lib : JsonLib)
    (services : ServiceTable) (devices : DeviceTable) (resource : String) (regTimeout : ℤ) :
    (∀ (device : Device) (es : List RegistrationTurn),
      (∀ n, StoresOwn devices.docs (Run.run ((sendRegisterDevice h J).turn h J lib)
          (startDevice services devices resource device regTimeout) (es.take n))) ↔
        Run.Always ((sendRegisterDevice h J).turn h J lib)
          ((sendRegisterDevice h J).NotesOwn h J lib)
          (startDevice services devices resource device regTimeout) es) ∧
      ∀ (fill : Doc → Option PTree) (protocol : String) (es : List RegistrationTurn),
        (∀ n, StoresOwn devices.docs
          (Run.run ((sendAllRegistrationsFromMongo fill protocol).turn h J lib)
            (startAll services devices resource regTimeout) (es.take n))) ↔
          Run.Always ((sendAllRegistrationsFromMongo fill protocol).turn h J lib)
            ((sendAllRegistrationsFromMongo fill protocol).NotesOwn h J lib)
            (startAll services devices resource regTimeout) es :=
  ⟨fun device es => @storesOwn_run_iff (sendRegisterDevice h J) h J lib
      (startDevice services devices resource device regTimeout) rfl es,
    fun fill protocol es => @storesOwn_run_iff (sendAllRegistrationsFromMongo fill protocol) h J lib
      (startAll services devices resource regTimeout) rfl es⟩

/-! ### Two service paths -/

/-- A device with a command, in a service path. -/
def lampIn (servicePath : String) : Doc :=
  [(StoreTypes.deviceId, .str "lamp"), (StoreTypes.service, .str "service"),
    (StoreTypes.servicePath, .str servicePath), (StoreTypes.protocol, .str "PDI-IoTA-UltraLight"),
    (StoreTypes.commands, .arr [.obj [(StoreTypes.name, .str "ping"),
      (StoreTypes.attributeValue, .str "")]])]

/-- The service of one of the paths. -/
def ownService : Doc :=
  [(StoreTypes.apikey, .str "key"), (StoreTypes.resource, .str "/iot/d"),
    (StoreTypes.service, .str "service"), (StoreTypes.servicePath, .str "/own")]

lemma unique_lampIn : Unique deviceIndexes [lampIn "/other", lampIn "/own"] := by
  decide

lemma unique_ownService : Unique serviceIndexes [ownService] :=
  fun _ _ => List.pairwise_singleton ..

/-- The context broker registers for a day. -/
def dayText : String := "\x7b\"duration\":\"PT24H\",\"registrationId\":\"r1\"\x7d"

def oneDay : JsonLib where
  parse text := if text = dayText then
      some (.object [("duration", .string "PT24H"), ("registrationId", .string "r1")])
    else none
  write _ := ""

/-- A handler that finds every service. -/
def anyService : CommandHandler where
  myProvidingApp := "http://127.0.0.1:8080"
  registerContextOperation := "/NGSI9/registerContext"
  getServiceByName _ _ := some []

/-- The service is entered, and its device registered. -/
def twoTurns : List RegistrationTurn :=
  [⟨true, true, none⟩, ⟨true, true, some dayText⟩]

/-- What is answered for the device of one service path is noted with that of the other. -/
theorem not_storesOwn_twoPaths :
    ¬∀ n, StoresOwn [lampIn "/other", lampIn "/own"]
      (Run.run ((sendRegisterDevice anyService ⟨fun _ => "", fun _ => none⟩).turn anyService
          ⟨fun _ => "", fun _ => none⟩ oneDay)
        (startDevice ⟨[ownService], unique_ownService⟩
          ⟨[lampIn "/other", lampIn "/own"], unique_lampIn⟩ "/iot/d"
          { Device.ofName "lamp" "service" with servicePath := "/own" } defaultRegTimeout)
        (twoTurns.take n)) :=
  fun hstored => absurd (hstored 2) (by decide +kernel)

end RegistrationLoops

end IotAgent
