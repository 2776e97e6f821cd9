import IotAgent.Lib.Interleaving
import IotAgent.Util.DeviceCollection
import IotAgent.Util.ServiceCollection

/-!
The deletion of a service with its devices.

The documents of a service path may be several, one for each resource. A request removes
those of its resource, and the devices of the service path with the last of them. Which are
the last it learns from a count that it makes before the removal.

* `prog`: the actions of the requests and of the insertions of services;
* `Undisturbed`: the steps that a request in between does not lead astray;
* `gone_iff`: in runs of such steps the devices are gone exactly when no document is left;
* `devices_left_twoDeletes`: two requests that count before either removes leave the devices.
-/

namespace IotAgent

open Interleaving Mongo ServiceCollection

namespace CascadeDelete

/-! ### The requests -/

/-- The parameters of `delete_service_json`. -/
structure DeleteService where
  id : String
  servicePath : String
  apikey : String
  resource : String
  removeDevices : Bool
  deriving DecidableEq

namespace DeleteService

variable (r : DeleteService)

/-- A request without a service or with a service path that is none is refused. -/
def check : Except IotaException Unit :=
  if r.id = "" then
    .error {
      reason := Types.responseMessageBadRequest
      what := " service:" ++ r.id
      status := Types.responseCodeBadRequest }
  else if r.servicePath.toList.head? ≠ some '/' then
    .error {
      reason := Types.responseMessageBadRequest
      what := "service_path:" ++ r.servicePath
      status := Types.responseCodeBadRequest }
  else .ok ()

/-- Whether the service path stands for all. -/
def Wildcard : Prop :=
  r.servicePath = "/*" ∨ r.servicePath = "/#"

instance : Decidable r.Wildcard :=
  inferInstanceAs (Decidable (_ ∨ _))

/-- `obj_delete`, the documents that are removed. -/
def objDelete : Doc :=
  [(StoreTypes.serviceId, .str r.id)] ++
  Doc.opt (r.apikey ≠ "") StoreTypes.apikey (.str r.apikey) ++
  Doc.opt (r.resource ≠ "") StoreTypes.resource (.str r.resource) ++
  Doc.opt (¬ r.Wildcard) StoreTypes.servicePath (.str r.servicePath)

/-- `obj_count`, the documents that are counted. -/
def objCount : Doc :=
  [(StoreTypes.serviceId, .str r.id)] ++
  Doc.opt (¬ r.Wildcard) StoreTypes.servicePath (.str r.servicePath)

/-- `obj_device`, the devices that are removed. -/
def objDevice : Doc :=
  [(StoreTypes.serviceId, .str r.id),
    (StoreTypes.servicePath, .str (if r.Wildcard then "" else r.servicePath))]

end DeleteService

/-! ### The actions -/

/-- The two tables. -/
structure State where
  services : ServiceTable
  devices : DeviceTable

/-- A request before its count, behind it, and about to remove the devices; an insertion of
a document. -/
inductive Task where
  | deleteService (r : DeleteService)
  | counted (r : DeleteService) (numServices : ℤ)
  | removing (r : DeleteService)
  | answered
  | refused (e : IotaException)
  | insert (insObj : Doc)
  | inserted (accepted : Bool)
  deriving DecidableEq

/-- The actions, each one operation on a table. -/
def prog : Program State Task Unit := fun _ s t =>
  match t with
  | .deleteService r =>
      match r.check with
      | .error e => some (s, .refused e)
      | .ok () => some (s, .counted r (s.services.count r.objCount))
  | .counted r numServices =>
      let (services, numRemovedServices) := s.services.remove r.objDelete
      some ({ s with services },
        if numServices - numRemovedServices = 0 ∧ r.removeDevices then .removing r
        else .answered)
  | .removing r => some ({ s with devices := (s.devices.remove r.objDevice).1 }, .answered)
  | .insert insObj =>
      match s.services.insert insObj with
      | some services => some ({ s with services }, .inserted true)
      | none => some (s, .inserted false)
  | .answered | .refused _ | .inserted _ => none

/-- A request that has not been answered. -/
def Task.Pending : Task → Prop
  | .deleteService _ | .counted _ _ | .removing _ => True
  | _ => False

instance : DecidablePred Task.Pending := fun t => by
  cases t <;> unfold Task.Pending <;> infer_instance

/-! ### The service path of the requests -/

variable (id servicePath : String)

/-- A service path that a request can remove devices of. The caller refuses the ones that
stand for all. -/
structure Valid : Prop where
  id_ne : id ≠ ""
  slash : servicePath.toList.head? = some '/'
  not_all : servicePath ≠ "/*" ∧ servicePath ≠ "/#"

/-- A request for the service path, together with its devices. -/
structure DeleteService.For (r : DeleteService) : Prop where
  id_eq : r.id = id
  servicePath_eq : r.servicePath = servicePath
  removeDevices : r.removeDevices = true

/-- No document of the service path is left. -/
def NoService (s : State) : Prop :=
  s.services.count (inPath id servicePath) = 0

instance (s : State) : Decidable (NoService id servicePath s) :=
  inferInstanceAs (Decidable (_ = _))

/-- The devices of the service path have been removed. -/
def Gone (s : State) : Prop :=
  ∀ d ∈ s.devices.docs, ¬ Matches (inPath id servicePath) d

instance (s : State) : Decidable (Gone id servicePath s) :=
  inferInstanceAs (Decidable (∀ d ∈ s.devices.docs, _))

/-- What a task is about: the service path, and any insertion. -/
def Task.For : Task → Prop
  | .deleteService r | .counted r _ | .removing r => r.For id servicePath
  | _ => True

/-- Requests and insertions about to start, while the devices are there. -/
structure Init (c : Config State Task) : Prop where
  start : ∀ t ∈ c.tasks, (∃ r, t = .deleteService r ∧ r.For id servicePath) ∨
    ∃ insObj, t = .insert insObj
  request : ∃ r, .deleteService r ∈ c.tasks
  there : ¬ Gone id servicePath c.shared

/-- The steps that nothing in between leads astray: a removal is taken for that of the last
documents exactly when it is; the devices go while there is no document; and a document is
inserted while the devices are there. -/
def Undisturbed : Guard State Task Unit := fun _ s t =>
  match t with
  | .counted r numServices =>
      numServices = s.services.count r.objDelete ↔
        s.services.count (inPath id servicePath) = s.services.count r.objDelete
  | .removing _ => NoService id servicePath s
  | .insert insObj =>
      s.services.insert insObj = none ∨ ¬ Matches (inPath id servicePath) insObj ∨
        ¬ Gone id servicePath s
  | _ => True

section Proof

variable {id servicePath} {r : DeleteService} {s s' : State} {t t' : Task} {o : Unit}

/-! ### The queries of the service path -/

lemma DeleteService.For.not_wildcard (hr : r.For id servicePath) (hv : Valid id servicePath) :
    ¬ r.Wildcard := by
  rw [Wildcard, hr.servicePath_eq, not_or]
  exact hv.not_all

lemma DeleteService.For.check_eq (hr : r.For id servicePath) (hv : Valid id servicePath) :
    r.check = .ok () := by
  simp [check, hr.id_eq, hr.servicePath_eq, hv.id_ne, hv.slash]

lemma DeleteService.For.objCount_eq (hr : r.For id servicePath) (hv : Valid id servicePath) :
    r.objCount = inPath id servicePath := by
  simp [objCount, inPath, Doc.opt, hr.not_wildcard hv, hr.id_eq, hr.servicePath_eq,
    StoreTypes.serviceId, StoreTypes.service]

lemma DeleteService.For.objDevice_eq (hr : r.For id servicePath) (hv : Valid id servicePath) :
    r.objDevice = inPath id servicePath := by
  simp [objDevice, inPath, hr.not_wildcard hv, hr.id_eq, hr.servicePath_eq,
    StoreTypes.serviceId, StoreTypes.service]

/-- What a request removes is in the service path. -/
lemma DeleteService.For.matches_objDelete (hr : r.For id servicePath)
    (hv : Valid id servicePath) (d : Doc) (hd : Matches r.objDelete d) :
    Matches (inPath id servicePath) d := by
  rw [← hr.objCount_eq hv]
  rw [objDelete, matches_append, matches_append, matches_append] at hd
  exact matches_append.mpr ⟨hd.1.1.1, hd.2⟩

/-- What a request leaves and what it removes. -/
lemma DeleteService.For.count_remove (hr : r.For id servicePath) (hv : Valid id servicePath)
    (services : ServiceTable) :
    (services.remove r.objDelete).1.count (inPath id servicePath) +
      services.count r.objDelete = services.count (inPath id servicePath) :=
  Table.count_remove (hr.matches_objDelete hv)

/-! ### Every step -/

/-- The request of a task stays the same. -/
lemma for_of_prog (hact : prog o s t = some (s', t')) (ht : t.For id servicePath) :
    t'.For id servicePath := by
  cases t with
  | deleteService r =>
      simp only [prog] at hact
      split at hact
      · cases hact
        trivial
      · cases hact
        exact ht
  | counted r numServices =>
      simp only [prog, Option.some.injEq, Prod.mk.injEq] at hact
      obtain ⟨-, rfl⟩ := hact
      split
      · exact ht
      · trivial
  | removing r =>
      cases hact
      trivial
  | insert insObj =>
      simp only [prog] at hact
      split at hact <;> cases hact <;> trivial
  | answered => cases hact
  | refused e => cases hact
  | inserted accepted => cases hact

/-- The devices go with the last document, and without a document a request is pending as
long as they are there. -/
structure Inv (id servicePath : String) (c : Config State Task) : Prop where
  about : ∀ t ∈ c.tasks, t.For id servicePath
  noService : Gone id servicePath c.shared → NoService id servicePath c.shared
  pending : NoService id servicePath c.shared →
    Gone id servicePath c.shared ∨ ∃ t ∈ c.tasks, t.Pending

/-- After the removal of documents a request goes on to the devices exactly when no document
is left. -/
lemma removing_iff (hr : r.For id servicePath) (hv : Valid id servicePath) {numServices : ℤ}
    (hok : Undisturbed id servicePath o s (.counted r numServices)) :
    (numServices - (s.services.remove r.objDelete).2 = 0 ∧ r.removeDevices) ↔
      (s.services.remove r.objDelete).1.count (inPath id servicePath) = 0 := by
  have hcount := hr.count_remove hv s.services
  have hnum : (s.services.remove r.objDelete).2 = s.services.count r.objDelete := rfl
  simp only [Undisturbed] at hok
  rw [hnum, hr.removeDevices]
  simp only [and_true, sub_eq_zero, hok]
  omega

/-- The invariant behind one action. -/
lemma Inv.act (hv : Valid id servicePath) {tasks : List Task} {i : ℕ}
    (hc : Inv id servicePath ⟨s, tasks⟩) (hget : tasks[i]? = some t)
    (hok : Undisturbed id servicePath o s t) (hrun : prog o s t = some (s', t')) :
    (Gone id servicePath s' → NoService id servicePath s') ∧
      (NoService id servicePath s' →
        Gone id servicePath s' ∨ ∃ u ∈ tasks.set i t', u.Pending) := by
  have hself := mem_set_self t' hget
  have ht := hc.about t (List.mem_of_getElem? hget)
  cases t with
  | deleteService r =>
      simp only [prog, DeleteService.For.check_eq ht hv, Option.some.injEq,
        Prod.mk.injEq] at hrun
      obtain ⟨rfl, rfl⟩ := hrun
      exact ⟨hc.noService, fun _ => .inr ⟨_, hself, trivial⟩⟩
  | counted r numServices =>
      simp only [prog, Option.some.injEq, Prod.mk.injEq] at hrun
      obtain ⟨rfl, rfl⟩ := hrun
      have hcount := DeleteService.For.count_remove ht hv s.services
      refine ⟨fun hgone => ?_, fun hno => .inr ⟨_, hself, ?_⟩⟩
      · have hzero : s.services.count (inPath id servicePath) = 0 := hc.noService hgone
        simp only [NoService]
        omega
      · -- the last documents are removed, so the request goes on to the devices
        rw [if_pos ((removing_iff ht hv hok).mpr hno)]
        trivial
  | removing r =>
      cases hrun
      refine ⟨fun _ => hok, fun _ => .inl fun d hd => ?_⟩
      rw [Table.docs_remove, DeleteService.For.objDevice_eq ht hv, List.mem_filter] at hd
      simpa using hd.2
  | insert insObj =>
      have hpending : Gone id servicePath s ∨ (∃ u ∈ tasks, u.Pending) →
          Gone id servicePath s ∨ ∃ u ∈ tasks.set i t', u.Pending := by
        refine Or.imp_right ?_
        rintro ⟨u, hu, hpending⟩
        refine ⟨u, mem_set_of_ne t' hget hu ?_, hpending⟩
        rintro rfl
        exact hpending
      simp only [prog] at hrun
      split at hrun
      · next services hins =>
          cases hrun
          have hcount := Table.count_insert (q := inPath id servicePath) hins
          constructor
          · intro hgone
            rcases hok with hnone | hout | hthere
            · rw [hnone] at hins
              cases hins
            · have hzero : s.services.count (inPath id servicePath) = 0 := hc.noService hgone
              simp only [NoService, hcount, hzero, hout, if_false]
            · exact absurd hgone hthere
          · intro hno
            have hzero : s.services.count (inPath id servicePath) = 0 := by
              simp only [NoService, hcount] at hno
              omega
            exact hpending (hc.pending hzero)
      · cases hrun
        exact ⟨hc.noService, fun hno => hpending (hc.pending hno)⟩
  | answered => cases hrun
  | refused e => cases hrun
  | inserted accepted => cases hrun

lemma Inv.step (hv : Valid id servicePath) {c c' : Config State Task}
    (hc : Inv id servicePath c) (hs : Step prog (Undisturbed id servicePath) c c') :
    Inv id servicePath c' := by
  cases hs with
  | @act i o t t' s' hget hok hrun =>
      obtain ⟨hno, hpending⟩ := Inv.act hv hc hget hok hrun
      refine ⟨fun u hu => ?_, hno, hpending⟩
      rcases List.mem_or_eq_of_mem_set hu with hu | rfl
      · exact hc.about u hu
      · exact for_of_prog hrun (hc.about t (List.mem_of_getElem? hget))

lemma Inv.init {c : Config State Task} (hc : Init id servicePath c) : Inv id servicePath c where
  about := by
    intro t ht
    rcases hc.start t ht with ⟨r, rfl, hr⟩ | ⟨insObj, rfl⟩
    · exact hr
    · trivial
  noService := fun hgone => absurd hgone hc.there
  pending := by
    obtain ⟨r, hr⟩ := hc.request
    exact fun _ => .inr ⟨_, hr, trivial⟩

end Proof

/-- **The cascade**: in every run of undisturbed steps, once all requests are answered, the
devices of the service path are gone exactly when no document of it is left. -/
theorem gone_iff (id servicePath : String) (hv : Valid id servicePath)
    {c c' : Config State Task} (hc : Init id servicePath c)
    (hrun : Run prog (Undisturbed id servicePath) c c') (hall : ∀ t ∈ c'.tasks, ¬ t.Pending) :
    Gone id servicePath c'.shared ↔ NoService id servicePath c'.shared := by
  have hinv : Inv id servicePath c' :=
    Run.invariant (I := Inv id servicePath) (fun _ _ hi hs => Inv.step hv hi hs)
      (Inv.init hc) hrun
  refine ⟨hinv.noService, fun hno => ?_⟩
  rcases hinv.pending hno with hgone | ⟨t, ht, hpending⟩
  · exact hgone
  · exact absurd hpending (hall t ht)

/-! ### Two documents of one service path -/

/-- A document of a resource. -/
def ofResource (resource : String) : Doc :=
  [(StoreTypes.apikey, .str "key"), (StoreTypes.resource, .str resource),
    (StoreTypes.service, .str "service"), (StoreTypes.servicePath, .str "/")]

/-- The request for it. -/
def deleteResource (resource : String) : DeleteService where
  id := "service"
  servicePath := "/"
  apikey := ""
  resource := resource
  removeDevices := true

/-- A service path with two resources and a device, and a request for each resource. -/
def twoDeletes : Config State Task where
  shared := {
    services := ⟨[ofResource "/a", ofResource "/b"], by decide⟩
    devices := ⟨[[(StoreTypes.deviceId, .str "d1"), (StoreTypes.service, .str "service"),
      (StoreTypes.servicePath, .str "/")]], by decide⟩ }
  tasks := [.deleteService (deleteResource "/a"), .deleteService (deleteResource "/b")]

lemma valid_root : Valid "service" "/" where
  id_ne := by decide
  slash := rfl
  not_all := by decide

lemma init_twoDeletes : Init "service" "/" twoDeletes where
  start := by
    intro t ht
    simp only [twoDeletes, List.mem_cons, List.not_mem_nil, or_false] at ht
    rcases ht with rfl | rfl
    · exact .inl ⟨_, rfl, rfl, rfl, rfl⟩
    · exact .inl ⟨_, rfl, rfl, rfl, rfl⟩
  request := ⟨_, List.mem_cons_self⟩
  there := by decide +kernel

instance (id servicePath : String) (o : Unit) (s : State) (t : Task) :
    Decidable (Undisturbed id servicePath o s t) := by
  cases t <;> unfold Undisturbed <;> infer_instance

/-- One request after the other. -/
def oneByOne : Config State Task :=
  (exec prog (Undisturbed "service" "/") ([0, 0, 1, 1, 1].map fun i => ((), i))
    twoDeletes).get (by decide +kernel)

theorem gone_iff_oneByOne :
    (Gone "service" "/" oneByOne.shared ↔ NoService "service" "/" oneByOne.shared) ∧
      NoService "service" "/" oneByOne.shared :=
  ⟨gone_iff "service" "/" valid_root init_twoDeletes (run_of_exec (Option.some_get _).symm)
    (by decide +kernel), by decide +kernel⟩

/-- Both requests count before either removes: each expects a document of the other, and the
devices stay without a service. -/
theorem devices_left_twoDeletes :
    Valid "service" "/" ∧ Init "service" "/" twoDeletes ∧
    ∃ c', Run prog (fun _ _ _ => True) twoDeletes c' ∧ (∀ t ∈ c'.tasks, ¬ t.Pending) ∧
      NoService "service" "/" c'.shared ∧ ¬ Gone "service" "/" c'.shared := by
  refine ⟨valid_root, init_twoDeletes,
    (exec prog (fun _ _ _ => True) ([0, 1, 0, 1].map fun i => ((), i)) twoDeletes).get
      (by decide +kernel), run_of_exec (Option.some_get _).symm, ?_⟩
  decide +kernel

end CascadeDelete

end IotAgent
