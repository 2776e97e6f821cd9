import IotAgent.Services.AdminRequests
import IotAgent.Util.Cache

/-!
The devices of service paths that lose their services.

A deletion of services removes the devices of its service path with the last document. A
service path that stands for all has no devices of its own, and the caches of the handlers
are not told.

* `Emptied`: a deletion removes all documents of a service path;
* `LeavesNothing`: no device of such a service path is stored or got from a cache;
* `leavesNothing_iff`: that is so exactly when none was cached before, and under a service
  path that stands for all none was stored but those that the deletion removes.
-/

namespace IotAgent

open HashIndex Mongo CascadeDelete

namespace AgentAdmin

/-! ### Service paths -/

/-- A document of a service path. -/
def InPath (service servicePath : String) (doc : Doc) : Prop :=
  doc.getStringField StoreTypes.service = service ∧
    doc.getStringField StoreTypes.servicePath = servicePath

instance (service servicePath : String) (doc : Doc) : Decidable (InPath service servicePath doc) :=
  inferInstanceAs (Decidable (_ ∧ _))

/-- A device of a service path. -/
def DeviceInPath (service servicePath : String) (d : Device) : Prop :=
  d.service = service ∧ d.servicePath = servicePath

instance (service servicePath : String) (d : Device) :
    Decidable (DeviceInPath service servicePath d) :=
  inferInstanceAs (Decidable (_ ∧ _))

/-- The service path has a service. -/
def HasService (s : AdminState) (service servicePath : String) : Prop :=
  ∃ doc ∈ s.services.docs, InPath service servicePath doc

/-! ### What is got from a cache -/

variable {h : Hashing} {H : Type*} (J : JsonText) (o : Order Device String)
  (readsThrough : H → Bool)

/-- Some look-up in a cache ends with the device. -/
def Returned (c : Cache h) (fetch : DeviceGetFunction) (d : Device) : Prop :=
  ∃ key, (c.get fetch key).2 = some d ∨ (c.getByEntity o fetch key).2 = some d ∨
    (c.getByName o fetch key).2 = some d

/-- How a cache reads the table. -/
def fetchFrom (table : DeviceTable) (hd : H) : DeviceGetFunction :=
  if readsThrough hd then some fun key => DeviceCollection.findOne J table key else none

/-- Behind the deletion no device of a service path that it has emptied is stored, and none
is got from a cache. -/
def LeavesNothing (s : AdminState) (caches : H → Cache h) (r : DeleteService) : Prop :=
  let s' := (deleteServiceJson s r).1
  ∀ service servicePath, HasService s service servicePath → ¬HasService s' service servicePath →
    (∀ doc ∈ s'.devices.docs, ¬InPath service servicePath doc) ∧
      ∀ hd d, Returned o (caches hd) (fetchFrom J readsThrough s'.devices hd) d →
        ¬DeviceInPath service servicePath d

/-! ### What a deletion empties -/

/-- The deletion is accepted, and it removes all documents of a service path, of which there
are some. -/
structure Emptied (s : AdminState) (r : DeleteService) (service servicePath : String) : Prop where
  accepted : r.check = .ok ()
  some : HasService s service servicePath
  all : ∀ doc ∈ s.services.docs, InPath service servicePath doc → Matches r.objDelete doc

/-- All documents that a deletion counts are removed. -/
def RemovesAll (s : AdminState) (r : DeleteService) : Prop :=
  ∀ doc ∈ s.services.docs, Matches r.objCount doc → Matches r.objDelete doc

instance (s : AdminState) (r : DeleteService) : Decidable (RemovesAll s r) :=
  inferInstanceAs (Decidable (∀ _ ∈ _, _))

variable {J o readsThrough} {s : AdminState} {r : DeleteService} {caches : H → Cache h}
  {service servicePath : String}

/-! ### Look-ups -/

lemma returned_of_mem {c : Cache h} {fetch : DeviceGetFunction} {d : Device} (hd : d ∈ c.list) :
    Returned o c fetch d :=
  ⟨d, .inl (Cache.get_of_sameKey fetch hd ⟨rfl, rfl, rfl⟩)⟩

/-- What is got was cached or read from the table. -/
lemma mem_or_stored_of_returned {c : Cache h} {table : DeviceTable} {hd : H} {d : Device}
    (hret : Returned o c (fetchFrom J readsThrough table hd) d) :
    d ∈ c.list ∨ ∃ doc ∈ table.docs, DeviceCollection.bson2Obj J doc = d := by
  have hor : ∀ (found : Option Device) (key : Device), (∀ e ∈ found, e ∈ c.list) →
      (c.readThrough found (fetchFrom J readsThrough table hd) key).2 = some d →
        d ∈ c.list ∨ ∃ doc ∈ table.docs, DeviceCollection.bson2Obj J doc = d := by
    intro found key hfound hread
    rw [Cache.readThrough_snd] at hread
    rcases Option.or_eq_some_iff.mp hread with hcached | ⟨-, hfetch⟩
    · exact .inl (hfound d hcached)
    · rw [fetchFrom] at hfetch
      split at hfetch
      · obtain ⟨doc, hdoc, -, hread⟩ := DeviceCollection.findOne_eq_some J hfetch
        exact .inr ⟨doc, hdoc, hread⟩
      · cases hfetch
  obtain ⟨key, hget | hentity | hname⟩ := hret
  · exact hor _ key (fun e he => (BoundedSeq.mem_of_find he).1) hget
  · exact hor _ key (fun e he => Order.mem_of_find he) hentity
  · exact hor _ key (fun e he => Order.mem_of_find he) hname

/-! ### The deletion -/

lemma deleteServiceJson_of_error {e : IotaException} (hcheck : r.check = .error e) :
    (deleteServiceJson s r).1 = s := by
  rw [deleteServiceJson, hcheck]

lemma deleteServiceJson_services (hcheck : r.check = .ok ()) :
    (deleteServiceJson s r).1.services.docs =
      s.services.docs.filter fun doc => ¬Matches r.objDelete doc := by
  rw [deleteServiceJson, hcheck]
  rfl

/-- What is removed is counted. -/
lemma matches_objCount_of_objDelete (doc : Doc) (hdoc : Matches r.objDelete doc) :
    Matches r.objCount doc := by
  rw [DeleteService.objDelete, matches_append, matches_append, matches_append] at hdoc
  exact matches_append.mpr ⟨hdoc.1.1.1, hdoc.2⟩

/-- As many documents are removed as were counted exactly when all of them are removed. -/
lemma count_sub_removed_eq_zero_iff :
    (s.services.count r.objCount : ℤ) - (s.services.remove r.objDelete).2 = 0 ↔
      RemovesAll s r := by
  have hcount := @Table.count_remove _ s.services r.objDelete r.objCount
    matches_objCount_of_objDelete
  have hremoved : (s.services.remove r.objDelete).2 = s.services.count r.objDelete := rfl
  have hzero : (s.services.remove r.objDelete).1.count r.objCount = 0 ↔ RemovesAll s r := by
    rw [Table.count_eq_zero_iff, Table.docs_remove, RemovesAll]
    simp only [List.mem_filter, decide_eq_true_eq, and_imp]
    exact forall₂_congr fun doc _ => not_imp_not
  rw [← hzero, hremoved]
  omega

lemma deleteServiceJson_devices (hcheck : r.check = .ok ()) (hremove : r.removeDevices = true) :
    (∀ doc ∈ (deleteServiceJson s r).1.devices.docs, ¬InPath service servicePath doc) ↔
      ∀ doc ∈ s.devices.docs, InPath service servicePath doc →
        RemovesAll s r ∧ Matches r.objDevice doc := by
  have hdevices : (deleteServiceJson s r).1.devices =
      if (s.services.count r.objCount : ℤ) - (s.services.remove r.objDelete).2 = 0 ∧
        r.removeDevices = true then (s.devices.remove r.objDevice).1 else s.devices := by
    rw [deleteServiceJson, hcheck]
    rfl
  by_cases hall : RemovesAll s r
  · rw [hdevices, if_pos ⟨count_sub_removed_eq_zero_iff.mpr hall, hremove⟩, Table.docs_remove]
    simp only [List.mem_filter, decide_eq_true_eq, and_imp, hall, true_and]
    exact forall₂_congr fun doc _ => not_imp_not
  · rw [hdevices, if_neg fun hand => hall (count_sub_removed_eq_zero_iff.mp hand.1)]
    simp only [hall, false_and]

/-- The service paths that lose their services. -/
lemma emptied_iff :
    (HasService s service servicePath ∧
        ¬HasService (deleteServiceJson s r).1 service servicePath) ↔
      Emptied s r service servicePath := by
  cases hcheck : r.check with
  | error e =>
      rw [deleteServiceJson_of_error hcheck]
      refine iff_of_false (fun hand => hand.2 hand.1) fun hempty => ?_
      have := hempty.accepted
      rw [hcheck] at this
      cases this
  | ok u =>
      have hleft : ¬HasService (deleteServiceJson s r).1 service servicePath ↔
          ∀ doc ∈ s.services.docs, InPath service servicePath doc → Matches r.objDelete doc := by
        rw [HasService, deleteServiceJson_services hcheck]
        simp only [List.mem_filter, decide_eq_true_eq]
        grind
      rw [hleft]
      exact ⟨fun hand => ⟨hcheck, hand.1, hand.2⟩, fun hempty => ⟨hempty.some, hempty.all⟩⟩

/-! ### A service path of its own -/

/-- A deletion for one service path empties no other, and removes its devices. -/
lemma Emptied.removes (hempty : Emptied s r service servicePath) (hpath : ¬r.Wildcard) :
    ∀ doc ∈ s.devices.docs, InPath service servicePath doc →
      RemovesAll s r ∧ Matches r.objDevice doc := by
  obtain ⟨hid, hslash⟩ : r.id ≠ "" ∧ r.servicePath ≠ "" := by
    have hcheck := hempty.accepted
    rw [DeleteService.check] at hcheck
    split at hcheck
    · cases hcheck
    · next hid =>
        refine ⟨hid, fun hnil => ?_⟩
        rw [hnil, if_pos (by decide)] at hcheck
        cases hcheck
  have hcount : ∀ doc, Matches r.objCount doc ↔ InPath r.id r.servicePath doc := by
    intro doc
    rw [DeleteService.objCount, matches_append, matches_opt, imp_iff_right hpath, InPath,
      Doc.getStringField_eq_iff hid, Doc.getStringField_eq_iff hslash]
    simp [Matches, StoreTypes.serviceId, StoreTypes.service]
  obtain ⟨doc₀, hdoc₀, hin₀⟩ := hempty.some
  obtain ⟨hservice, hservicePath⟩ :=
    (hcount doc₀).mp (matches_objCount_of_objDelete doc₀ (hempty.all doc₀ hdoc₀ hin₀))
  obtain rfl : r.id = service := hservice.symm.trans hin₀.1
  obtain rfl : r.servicePath = servicePath := hservicePath.symm.trans hin₀.2
  intro doc hdoc hin
  refine ⟨fun srv hsrv hmatch => hempty.all srv hsrv ((hcount srv).mp hmatch), ?_⟩
  have hmatch := (hcount doc).mpr hin
  rw [DeleteService.objCount, matches_append, matches_opt, imp_iff_right hpath] at hmatch
  rw [DeleteService.objDevice, if_neg hpath]
  intro fv hfv
  rcases List.mem_cons.mp hfv with rfl | hfv
  · exact hmatch.1 _ (List.mem_singleton_self _)
  · obtain rfl := List.mem_singleton.mp hfv
    exact hmatch.2

/-! ### What is left behind -/

/-- **A cascading deletion leaves nothing behind** exactly when no cache has held a device of
a service path that it empties, and, under a service path that stands for all, no such device
was stored except those that it removes. -/
theorem leavesNothing_iff (J : JsonText) (o : Order Device String) (readsThrough : H → Bool)
    (s : AdminState) (caches : H → Cache h) (r : DeleteService)
    (hremove : r.removeDevices = true) :
    LeavesNothing J o readsThrough s caches r ↔
      ∀ service servicePath, Emptied s r service servicePath →
        (∀ hd, ∀ d ∈ (caches hd).list, ¬DeviceInPath service servicePath d) ∧
          (r.Wildcard → ∀ doc ∈ s.devices.docs, InPath service servicePath doc →
            RemovesAll s r ∧ Matches r.objDevice doc) := by
  rw [LeavesNothing]
  refine forall₂_congr fun service servicePath => ?_
  rw [← emptied_iff, and_imp]
  refine forall₂_congr fun hhas hleft => ?_
  have hempty := emptied_iff.mp ⟨hhas, hleft⟩
  rw [deleteServiceJson_devices hempty.accepted hremove]
  constructor
  · rintro ⟨hstored, hreturned⟩
    exact ⟨fun hd d hmem => hreturned hd d (returned_of_mem hmem), fun _ => hstored⟩
  · rintro ⟨hcached, hwildcard⟩
    have hstored : ∀ doc ∈ s.devices.docs, InPath service servicePath doc →
        RemovesAll s r ∧ Matches r.objDevice doc := by
      by_cases hpath : r.Wildcard
      · exact hwildcard hpath
      · exact hempty.removes hpath
    refine ⟨hstored, fun hd d hret hin => ?_⟩
    rcases mem_or_stored_of_returned hret with hmem | ⟨doc, hdoc, rfl⟩
    · exact hcached hd d hmem hin
    · exact (deleteServiceJson_devices hempty.accepted hremove).mpr hstored doc hdoc hin

/-! ### A service with one device -/

/-- A service with its service path. -/
def onlyService : Doc :=
  [(StoreTypes.apikey, .str "key"), (StoreTypes.resource, .str "/iot/d"),
    (StoreTypes.service, .str "service"), (StoreTypes.servicePath, .str "/")]

/-- A device of the service path. -/
def onlyDevice : Doc :=
  [(StoreTypes.deviceId, .str "d1"), (StoreTypes.service, .str "service"),
    (StoreTypes.servicePath, .str "/")]

lemma unique_onlyService : Unique serviceIndexes [onlyService] :=
  fun _ _ => List.pairwise_singleton ..

lemma unique_onlyDevice : Unique deviceIndexes [onlyDevice] :=
  fun _ _ => List.pairwise_singleton ..

/-- The service and the device are stored. -/
def onePath : AdminState :=
  ⟨⟨[onlyService], unique_onlyService⟩, ⟨[onlyDevice], unique_onlyDevice⟩, []⟩

/-- A deletion of the services of a service path together with the devices. -/
def cascading (servicePath : String) : DeleteService :=
  ⟨"service", servicePath, "", "", true⟩

/-- A cache before the first look-up, and behind one of the device. -/
def emptyCache : Cache ⟨fun n s => n + s.length, fun n => n⟩ :=
  Cache.empty Types.maxSizeCache false

def warmCache : Cache ⟨fun n s => n + s.length, fun n => n⟩ :=
  (emptyCache.get (fetchFrom ⟨fun _ => "", fun _ => none⟩ (fun _ => true) onePath.devices ())
    { Device.ofName "d1" "service" with servicePath := "/" }).1

lemma hasService_onePath : HasService onePath "service" "/" :=
  ⟨onlyService, List.mem_singleton_self _, by decide⟩

theorem leavesNothing_emptyCache :
    LeavesNothing ⟨fun _ => "", fun _ => none⟩ Order.blocks (fun _ => true) onePath
      (fun _ : Unit => emptyCache) (cascading "/") :=
  (leavesNothing_iff ⟨fun _ => "", fun _ => none⟩ Order.blocks (fun _ => true) onePath
    (fun _ : Unit => emptyCache) (cascading "/") rfl).mpr fun _ _ _ =>
      ⟨fun _ _ hd => absurd hd List.not_mem_nil, fun h => absurd h (by decide)⟩

/-- The cache still returns the device, and under the service path that stands for all it
stays stored as well. -/
theorem not_leavesNothing_warmCache :
    ¬LeavesNothing ⟨fun _ => "", fun _ => none⟩ Order.blocks (fun _ => true) onePath
        (fun _ : Unit => warmCache) (cascading "/") ∧
      ¬LeavesNothing ⟨fun _ => "", fun _ => none⟩ Order.blocks (fun _ => true) onePath
        (fun _ : Unit => emptyCache) (cascading "/*") := by
  constructor
  · intro hleaves
    obtain ⟨d, hd⟩ : ∃ d, warmCache.list = [d] ∧ DeviceInPath "service" "/" d :=
      ⟨DeviceCollection.bson2Obj ⟨fun _ => "", fun _ => none⟩ onlyDevice, by decide +kernel⟩
    refine (hleaves "service" "/" hasService_onePath ?_).2 () d (returned_of_mem ?_) hd.2
    · rintro ⟨doc, hdoc, -⟩
      have hnil : (deleteServiceJson onePath (cascading "/")).1.services.docs = [] := by
        decide +kernel
      rw [hnil] at hdoc
      cases hdoc
    · rw [hd.1]
      exact List.mem_singleton_self d
  · intro hleaves
    refine (hleaves "service" "/" hasService_onePath ?_).1 onlyDevice ?_ (by decide)
    · rintro ⟨doc, hdoc, -⟩
      have hnil : (deleteServiceJson onePath (cascading "/*")).1.services.docs = [] := by
        decide +kernel
      rw [hnil] at hdoc
      cases hdoc
    · have hdocs : (deleteServiceJson onePath (cascading "/*")).1.devices.docs =
          [onlyDevice] := by
        decide +kernel
      rw [hdocs]
      exact List.mem_singleton_self onlyDevice

end AgentAdmin

end IotAgent
