import IotAgent.Mongo.Positional

/-!
The protocols of the manager (`src/util/protocol_collection.{h,cc}`), and the updates of
`post_protocol_json`.

A document of the collection is a protocol with the agents that are registered for it. An agent
is found by its identifier or by its URL.

* `ProtocolEndpoint`, `ProtocolDoc`, `ProtocolCollection`: the collection, unique in the
  protocol;
* `updateElement`: an update of the first agent that matches, by the positional operator;
* `addEndpoint`: the update that adds an agent, with an upsert;
* `endpointsOf`: the agents of a protocol; `endpointsOf_updateElement`,
  `endpointsOf_addEndpoint`: what the updates do to them.
-/

namespace IotAgent

open Mongo

/-- An agent of a protocol. -/
structure ProtocolEndpoint where
  endpoint : String
  resource : String
  identifier : String
  deriving DecidableEq

/-- A protocol with its agents. -/
structure ProtocolDoc where
  protocol : String
  description : String
  endpoints : List ProtocolEndpoint
  deriving DecidableEq

/-- The collection of protocols with its unique index. -/
structure ProtocolCollection where
  docs : List ProtocolDoc
  unique : (docs.map ProtocolDoc.protocol).Nodup

namespace ProtocolCollection

/-- The collection without a document. -/
def empty : ProtocolCollection :=
  ⟨[], List.nodup_nil⟩

/-- The documents that a query for a protocol with an element matches. -/
def MatchesElement (name : String) (q : ProtocolEndpoint → Prop) (d : ProtocolDoc) : Prop :=
  d.protocol = name ∧ ∃ e ∈ d.endpoints, q e

instance (name : String) (q : ProtocolEndpoint → Prop) [DecidablePred q] (d : ProtocolDoc) :
    Decidable (MatchesElement name q d) :=
  inferInstanceAs (Decidable (_ ∧ _))

variable (t : ProtocolCollection)

/-- An update of the first element that matches `q`, in the first document for the protocol that
has one. Without a match an upsert has nothing that the operator `$` stands for, and fails. -/
def updateElement (name : String) (q : ProtocolEndpoint → Prop) [DecidablePred q]
    (set : ProtocolEndpoint → ProtocolEndpoint) : Option ProtocolCollection :=
  if ∃ d ∈ t.docs, MatchesElement name q d then
    some
      { docs := setFirst (MatchesElement name q)
          (fun d => { d with endpoints := setFirst q set d.endpoints }) t.docs
        unique := nodup_map_setFirst t.unique fun _ => rfl }
  else none

/-- The agent is added to the protocol, which gets the description; the upsert makes a document
for a new protocol. -/
def addEndpoint (name description : String) (e : ProtocolEndpoint) : ProtocolCollection :=
  if h : ∃ d ∈ t.docs, d.protocol = name then
    { docs := setFirst (·.protocol = name)
        (fun d => { d with description, endpoints := addToSet e d.endpoints }) t.docs
      unique := nodup_map_setFirst t.unique fun _ => rfl }
  else
    { docs := t.docs ++ [⟨name, description, [e]⟩]
      unique := by
        rw [List.map_append, List.nodup_append]
        refine ⟨t.unique, List.nodup_singleton _, fun a ha b hb e => h ?_⟩
        obtain ⟨d, hd, rfl⟩ := List.mem_map.mp ha
        exact ⟨d, hd, e.trans (List.mem_singleton.mp hb)⟩ }

/-- The agents of a protocol. -/
def endpointsOf (name : String) : List ProtocolEndpoint :=
  ((t.docs.find? (·.protocol = name)).map ProtocolDoc.endpoints).getD []

variable {t} {name name' description : String} {d : ProtocolDoc}

lemma endpointsOf_of_mem (hd : d ∈ t.docs) : t.endpointsOf d.protocol = d.endpoints := by
  rw [endpointsOf, find?_key_eq t.unique hd]
  rfl

/-- An agent of a protocol stands in the document of the protocol. -/
lemma exists_mem_of_endpointsOf {e : ProtocolEndpoint} (he : e ∈ t.endpointsOf name) :
    ∃ d ∈ t.docs, d.protocol = name ∧ e ∈ d.endpoints := by
  rw [endpointsOf] at he
  cases hf : t.docs.find? (·.protocol = name) with
  | none =>
      rw [hf] at he
      cases he
  | some d =>
      rw [hf] at he
      exact ⟨d, List.mem_of_find?_eq_some hf, by simpa using List.find?_some hf, he⟩

/-- What holds of no agents and of the agents of every document holds of those of every
protocol. -/
lemma forall_endpointsOf_iff {P : List ProtocolEndpoint → Prop} (hnil : P []) :
    (∀ name, P (t.endpointsOf name)) ↔ ∀ d ∈ t.docs, P d.endpoints := by
  constructor
  · intro h d hd
    exact endpointsOf_of_mem hd ▸ h d.protocol
  · intro h name
    rw [endpointsOf]
    cases hf : t.docs.find? (·.protocol = name) with
    | none => exact hnil
    | some d => exact h d (List.mem_of_find?_eq_some hf)

section Element

variable {q : ProtocolEndpoint → Prop} [DecidablePred q]
  {set : ProtocolEndpoint → ProtocolEndpoint} {t' : ProtocolCollection}

omit [DecidablePred q] in
lemma exists_matchesElement_iff :
    (∃ d ∈ t.docs, MatchesElement name q d) ↔ ∃ e ∈ t.endpointsOf name, q e := by
  constructor
  · rintro ⟨d, hd, rfl, e, he, hq⟩
    exact ⟨e, endpointsOf_of_mem hd ▸ he, hq⟩
  · rintro ⟨e, he, hq⟩
    obtain ⟨d, hd, hname, hed⟩ := exists_mem_of_endpointsOf he
    exact ⟨d, hd, hname, e, hed, hq⟩

/-- There is a match exactly when an agent of the protocol satisfies the query. -/
lemma updateElement_eq_none_iff :
    t.updateElement name q set = none ↔ ∀ e ∈ t.endpointsOf name, ¬ q e := by
  rw [updateElement]
  split
  · next h =>
      obtain ⟨e, he, hq⟩ := exists_matchesElement_iff.mp h
      exact iff_of_false (fun e => by cases e) fun hnone => hnone e he hq
  · next h =>
      exact iff_of_true rfl fun e he hq => h (exists_matchesElement_iff.mpr ⟨e, he, hq⟩)

lemma exists_of_updateElement (h : t.updateElement name q set = some t') :
    ∃ e ∈ t.endpointsOf name, q e := by
  by_contra hno
  have hnone : t.updateElement name q set = none :=
    updateElement_eq_none_iff.mpr fun e he hq => hno ⟨e, he, hq⟩
  rw [h] at hnone
  cases hnone

/-- The first agent that satisfies the query is changed. -/
lemma endpointsOf_updateElement (h : t.updateElement name q set = some t') :
    t'.endpointsOf name' =
      if name' = name then setFirst q set (t.endpointsOf name) else t.endpointsOf name' := by
  rw [updateElement] at h
  split at h
  · next hex =>
      obtain ⟨d, hd, hmatch⟩ := hex
      obtain rfl := Option.some.inj h
      -- the protocol is unique, so the document that matches is the one of the protocol
      have hunique : ∀ x ∈ t.docs, MatchesElement name q x ↔ x = d := by
        intro x hx
        refine ⟨fun hxm => List.inj_on_of_nodup_map t.unique hx hd (hxm.1.trans hmatch.1.symm), ?_⟩
        rintro rfl
        exact hmatch
      have hfind := find?_setFirst (k := name')
        (f := fun d => { d with endpoints := setFirst q set d.endpoints })
        t.unique (fun _ => rfl) hd hunique
      refine (congrArg (fun r => (r.map ProtocolDoc.endpoints).getD []) hfind).trans ?_
      rw [hmatch.1]
      split
      · rw [← hmatch.1, endpointsOf_of_mem hd]
        rfl
      · rfl
  · cases h

end Element

/-- The agent is added to those of the protocol. -/
lemma endpointsOf_addEndpoint {e : ProtocolEndpoint} :
    (t.addEndpoint name description e).endpointsOf name' =
      if name' = name then addToSet e (t.endpointsOf name) else t.endpointsOf name' := by
  rw [addEndpoint]
  split
  · next hex =>
      obtain ⟨d, hd, rfl⟩ := hex
      have hunique : ∀ x ∈ t.docs, x.protocol = d.protocol ↔ x = d := fun x hx =>
        ⟨fun e => List.inj_on_of_nodup_map t.unique hx hd e, fun e => by rw [e]⟩
      have hfind := find?_setFirst (k := name')
        (f := fun d => { d with description, endpoints := addToSet e d.endpoints })
        t.unique (fun _ => rfl) hd hunique
      refine (congrArg (fun r => (r.map ProtocolDoc.endpoints).getD []) hfind).trans ?_
      split
      · rw [endpointsOf_of_mem hd]
        rfl
      · rfl
  · next hnew =>
      have hnone : t.docs.find? (·.protocol = name) = none := by
        rw [List.find?_eq_none]
        intro d hd e
        exact hnew ⟨d, hd, by simpa using e⟩
      rw [endpointsOf, List.find?_append]
      split
      · next hname =>
          subst hname
          rw [hnone, endpointsOf, hnone]
          simp [addToSet]
      · next hname =>
          rw [List.find?_cons_of_neg (by simpa using Ne.symm hname), List.find?_nil, Option.or_none,
            endpointsOf]

end ProtocolCollection

end IotAgent
