import IotAgent.Ngsi.EnvInfo

/-!
Where the attributes go that are added to an element.

`add_attribute` looks up the name of an attribute, and the names to which the mappings lead from
there; where they end without a mapping the attribute comes to the element.

* `Reaches`, `Lands`: the names that are looked up for an attribute, and where they end;
* `add_lands`: what one call adds;
* `Grows`: an element with more attributes, under the same mappings;
* `adds_named`, `length_adds_named`: the attributes of a name after several calls.
-/

namespace IotAgent

namespace EnvElement

/-! ### Where an attribute goes -/

/-- The mappings lead an attribute that is added to a name. -/
inductive Lands (mapping : String → Mapping) : FullAttribute → String → Prop
  | here {attr : FullAttribute} : attr.withDefaultType.isEmptyValue = false →
      mapping attr.name = .absent → Lands mapping attr attr.name
  | there {attr att : FullAttribute} {name : String} :
      attr.withDefaultType.isEmptyValue = false → mapping attr.name = .mapsTo att →
      Lands mapping (attr.withDefaultType.mapped att) name → Lands mapping attr name

/-- The names that are looked up when an attribute is added: its own, if it has a value, and
those to which the mappings lead from there. -/
inductive Reaches (mapping : String → Mapping) : FullAttribute → String → Prop
  | here {attr : FullAttribute} : attr.withDefaultType.isEmptyValue = false →
      Reaches mapping attr attr.name
  | there {attr att : FullAttribute} {name : String} :
      attr.withDefaultType.isEmptyValue = false → mapping attr.name = .mapsTo att →
      Reaches mapping (attr.withDefaultType.mapped att) name → Reaches mapping attr name

/-- An attribute that is in an element: it has a value, and its name no mapping. -/
def Settled (mapping : String → Mapping) (att : FullAttribute) : Prop :=
  att.isEmptyValue = false ∧ mapping att.name = .absent

lemma mapped_withMetadatas (attr att : FullAttribute) (l : List Attribute) :
    ∃ l', { attr with metadatas := l }.mapped att = { attr.mapped att with metadatas := l' } := by
  have hfresh : FullAttribute.fresh { attr with metadatas := l } att = attr.fresh att := by
    rw [FullAttribute.fresh, FullAttribute.fresh, FullAttribute.mappedType,
      FullAttribute.mappedType]
  have hhand : ∀ m, FullAttribute.handValue { attr with metadatas := l } m = attr.handValue m := by
    intro m
    rw [FullAttribute.handValue, FullAttribute.handValue]
  rw [FullAttribute.mapped, FullAttribute.mapped, hfresh, hhand]
  generalize attr.handValue (attr.fresh att) = m
  exact ⟨m.metadatas ++ l ++ att.metadatas, rfl⟩

lemma withDefaultType_withMetadatas (attr : FullAttribute) (l : List Attribute) :
    { attr with metadatas := l }.withDefaultType
      = { attr.withDefaultType with metadatas := l } := by
  rw [FullAttribute.withDefaultType, FullAttribute.withDefaultType]
  by_cases htype : attr.type = "" <;> simp [htype]

section Reaches

variable {mapping : String → Mapping} {attr : FullAttribute} {name : String}

/-- An attribute lands where the names end that are looked up for it. -/
lemma lands_iff :
    Lands mapping attr name ↔ Reaches mapping attr name ∧ mapping name = .absent := by
  constructor
  · intro h
    induction h with
    | here hvalue hmap => exact ⟨.here hvalue, hmap⟩
    | there hvalue hmap _ ih => exact ⟨.there hvalue hmap ih.1, ih.2⟩
  · rintro ⟨h, habsent⟩
    induction h with
    | here hvalue => exact .here hvalue habsent
    | there hvalue hmap _ ih => exact .there hvalue hmap (ih habsent)

/-- The names that are looked up do not depend on the metadata of the attribute. -/
lemma Reaches.withMetadatas (h : Reaches mapping attr name) (l : List Attribute) :
    Reaches mapping { attr with metadatas := l } name := by
  induction h generalizing l with
  | here hvalue =>
      exact .here (by rw [withDefaultType_withMetadatas]; exact hvalue)
  | there hvalue hmap _ ih =>
      refine .there (by rw [withDefaultType_withMetadatas]; exact hvalue) hmap ?_
      rw [withDefaultType_withMetadatas]
      obtain ⟨l', hmapped⟩ := mapped_withMetadatas _ _ l
      rw [hmapped]
      exact ih l'

lemma reaches_addMetadata_iff (metadata : Attribute) :
    Reaches mapping (attr.addMetadata metadata) name ↔ Reaches mapping attr name :=
  ⟨fun h => h.withMetadatas attr.metadatas, fun h => h.withMetadatas _⟩

lemma lands_addMetadata_iff (metadata : Attribute) :
    Lands mapping (attr.addMetadata metadata) name ↔ Lands mapping attr name := by
  rw [lands_iff, lands_iff, reaches_addMetadata_iff]

end Reaches

section Add

variable {lib : JsonLib} {e e' : EnvElement} {attr : FullAttribute} {n : ℕ}

lemma lands_iff_of_absent (hvalue : attr.withDefaultType.isEmptyValue = false)
    (hm : e.mapping lib attr.name = .absent) (name : String) :
    Lands (e.mapping lib) attr name ↔ name = attr.name := by
  constructor
  · intro h
    cases h with
    | here => rfl
    | there _ hmap =>
        rw [hm] at hmap
        cases hmap
  · rintro rfl
    exact .here hvalue hm

lemma lands_iff_of_mapsTo {att : FullAttribute}
    (hvalue : attr.withDefaultType.isEmptyValue = false)
    (hm : e.mapping lib attr.name = .mapsTo att) (name : String) :
    Lands (e.mapping lib) attr name ↔
      Lands (e.mapping lib) (attr.withDefaultType.mapped att) name := by
  constructor
  · intro h
    cases h with
    | here _ hmap =>
        rw [hm] at hmap
        cases hmap
    | there _ hmap h =>
        rw [hm, Mapping.mapsTo.injEq] at hmap
        rwa [hmap]
  · exact .there hvalue hm

/-- An attribute that is added comes to the element under the name where it lands, if there
is one. -/
lemma addAttribute_lands (hok : addAttribute lib e n attr = some (.ok e')) :
    (e' = e ∧ ∀ name, ¬ Lands (e.mapping lib) attr name) ∨
    ∃ att, e' = e.push att ∧ Settled (e.mapping lib) att ∧
      ∀ name, Lands (e.mapping lib) attr name ↔ name = att.name := by
  induction n generalizing attr with
  | zero => cases hok
  | succ n ih =>
      rw [addAttribute] at hok
      cases hvalue : attr.withDefaultType.isEmptyValue with
      | true =>
          rw [if_pos hvalue] at hok
          cases hok
          refine .inl ⟨rfl, fun name h => ?_⟩
          cases h with
          | here hne | there hne =>
              rw [hvalue] at hne
              cases hne
      | false =>
          rw [if_neg (by simp [hvalue]), withDefaultType_name] at hok
          cases hm : e.mapping lib attr.name with
          | absent =>
              rw [hm] at hok
              cases hok
              refine .inr ⟨attr.withDefaultType, rfl, ⟨hvalue, ?_⟩, fun name => ?_⟩
              · rw [withDefaultType_name, hm]
              · rw [withDefaultType_name, lands_iff_of_absent hvalue hm]
          | unreadable =>
              rw [hm] at hok
              cases hok
              refine .inl ⟨rfl, fun name h => ?_⟩
              cases h with
              | here _ hmap | there _ hmap =>
                  rw [hm] at hmap
                  cases hmap
          | failure failure =>
              rw [hm] at hok
              cases hok
          | mapsTo att =>
              rw [hm] at hok
              simp only [lands_iff_of_mapsTo hvalue hm]
              exact ih hok

lemma add_lands (hadd : e.add lib attr = .ok e') :
    (e' = e ∧ ∀ name, ¬ Lands (e.mapping lib) attr name) ∨
    ∃ att, e' = e.push att ∧ Settled (e.mapping lib) att ∧
      ∀ name, Lands (e.mapping lib) attr name ↔ name = att.name := by
  obtain ⟨n, hn⟩ := add_eq_ok_iff.mp hadd
  exact addAttribute_lands hn

/-- An attribute with a value whose name has no mapping is added as it is. -/
lemma add_of_settled (h : Settled (e.mapping lib) attr.withDefaultType) :
    e.add lib attr = .ok (e.push attr.withDefaultType) := by
  rw [add_eq_ok_iff]
  refine ⟨1, ?_⟩
  rw [addAttribute, if_neg (by simp [h.1]), h.2]

end Add

/-! ### Growing elements -/

/-- The attributes of a name. -/
def named (e : EnvElement) (name : String) : List FullAttribute :=
  e.attributes.filter fun att => att.name = name

/-- An element under the same mappings with more attributes, which are settled. -/
def Grows (lib : JsonLib) (e e' : EnvElement) : Prop :=
  SameInfo e e' ∧ ∃ l, e'.attributes = e.attributes ++ l ∧
    ∀ att ∈ l, Settled (e.mapping lib) att

section Grows

variable {lib : JsonLib} {e e' e'' : EnvElement} {attr : FullAttribute}

lemma Grows.refl (e : EnvElement) : Grows lib e e :=
  ⟨⟨rfl, rfl⟩, [], by simp, by simp⟩

lemma Grows.trans (h : Grows lib e e') (h' : Grows lib e' e'') : Grows lib e e'' := by
  obtain ⟨hsame, l, hl, hset⟩ := h
  obtain ⟨hsame', l', hl', hset'⟩ := h'
  refine ⟨hsame.trans hsame', l ++ l', by rw [hl', hl, List.append_assoc], fun att hatt => ?_⟩
  rw [hsame.mapping] at hset'
  exact (List.mem_append.mp hatt).elim (hset att) (hset' att)

/-- A loop whose steps let the element grow lets it grow. -/
lemma foldlM_grows {α : Type} {f : EnvElement → α → Except Stop EnvElement}
    (hf : ∀ e a e', f e a = .ok e' → Grows lib e e') {l : List α}
    (hl : l.foldlM f e = .ok e') : Grows lib e e' :=
  Attempts.foldlM_induction (P := Grows lib e)
    (fun s a s' hs hstep => hs.trans (hf s a s' hstep)) (Grows.refl e) hl

lemma add_grows (hadd : e.add lib attr = .ok e') : Grows lib e e' := by
  rcases add_lands hadd with ⟨rfl, -⟩ | ⟨att, rfl, hset, -⟩
  · exact Grows.refl e'
  · exact ⟨⟨rfl, rfl⟩, [att], rfl, by simpa using hset⟩

lemma addStatic_grows {timestamp text : String}
    (hadd : addStatic lib timestamp e text = .ok e') : Grows lib e e' := by
  rw [addStatic] at hadd
  split at hadd
  · cases hadd
    exact Grows.refl e
  · split at hadd
    · cases hadd
    · exact add_grows hadd

lemma addServiceStatic_grows {timestamp : String} {v : ServiceStatic}
    (hadd : addServiceStatic lib timestamp e v = .ok e') : Grows lib e e' := by
  rw [addServiceStatic] at hadd
  split at hadd
  · exact addStatic_grows hadd
  · cases hadd
    exact Grows.refl e

/-- The attributes of a name are more in an element that grew. -/
lemma Grows.named (h : Grows lib e e') (name : String) :
    ∃ l, e'.named name = e.named name ++ l := by
  obtain ⟨-, l, hl, -⟩ := h
  exact ⟨l.filter fun att => att.name = name, by rw [EnvElement.named, hl, List.filter_append]; rfl⟩

lemma Grows.length_le (h : Grows lib e e') (name : String) :
    (e.named name).length ≤ (e'.named name).length := by
  obtain ⟨l, hl⟩ := h.named name
  rw [hl, List.length_append]
  exact Nat.le_add_right _ _

/-- Attributes that land nowhere under a name leave those of this name. -/
lemma adds_named {attrs : List FullAttribute} {name : String}
    (hnot : ∀ attr ∈ attrs, ¬ Lands (e.mapping lib) attr name)
    (hadds : attrs.foldlM (add lib) e = .ok e') : e'.named name = e.named name := by
  induction attrs generalizing e with
  | nil =>
      cases hadds
      rfl
  | cons attr attrs ih =>
      rw [List.foldlM_cons] at hadds
      obtain ⟨e₁, hadd, hadds⟩ := Attempts.bind_eq_ok_iff.mp hadds
      have hmap : e₁.mapping lib = e.mapping lib := (add_grows hadd).1.mapping
      rw [ih (fun a ha => by rw [hmap]; exact hnot a (List.mem_cons_of_mem _ ha)) hadds]
      rcases add_lands hadd with ⟨rfl, -⟩ | ⟨att, rfl, -, hlands⟩
      · rfl
      · have hne : att.name ≠ name := fun heq =>
          hnot attr List.mem_cons_self ((hlands name).mpr heq.symm)
        simp [EnvElement.named, push, hne]

/-- One that lands there makes one more. -/
lemma length_adds_named {attrs : List FullAttribute} {name : String}
    (hlands : ∃ attr ∈ attrs, Lands (e.mapping lib) attr name)
    (hadds : attrs.foldlM (add lib) e = .ok e') :
    (e.named name).length + 1 ≤ (e'.named name).length := by
  induction attrs generalizing e with
  | nil => simp at hlands
  | cons attr attrs ih =>
      rw [List.foldlM_cons] at hadds
      obtain ⟨e₁, hadd, hadds⟩ := Attempts.bind_eq_ok_iff.mp hadds
      have hmap : e₁.mapping lib = e.mapping lib := (add_grows hadd).1.mapping
      by_cases hlater : ∃ a ∈ attrs, Lands (e₁.mapping lib) a name
      · exact (Nat.add_le_add_right ((add_grows hadd).length_le name) 1).trans (ih hlater hadds)
      · have hfirst : Lands (e.mapping lib) attr name := by
          obtain ⟨a, ha, hl⟩ := hlands
          rcases List.mem_cons.mp ha with rfl | ha
          · exact hl
          · exact absurd ⟨a, ha, by rwa [hmap]⟩ hlater
        refine le_trans ?_ ((foldlM_grows (fun _ _ _ => add_grows) hadds).length_le name)
        rcases add_lands hadd with ⟨-, hno⟩ | ⟨att, rfl, -, hname⟩
        · exact absurd hfirst (hno name)
        · have heq : att.name = name := ((hname name).mp hfirst).symm
          simp [EnvElement.named, push, heq]

end Grows

end EnvElement

end IotAgent
