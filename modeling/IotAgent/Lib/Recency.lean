import Mathlib.Data.Finset.Card
import Mathlib.Data.List.Nodup
import IotAgent.Lib.BoundedSeq

/-!
Bounded sets that forget the least recently used element.

Every element has a key, and the set holds one element of a key at most. Each use of a key
is stamped with the time, until the key is removed. When a new element comes into a full set,
the elements with the smallest stamp leave it; a set that does not forget takes nothing then.

* `use`, `keep`, `drop`: an element is inserted or fetched, and a key is removed;
* `Answers`, `Runs`: a request and what the set answers to it, and sequences of these;
* `Represents`: a list holds the elements of the set, the most recently used first, and no
  key that was used since is missing from it;
* `Represents.use_held`, `Represents.use_room`, `Represents.use_full`: the list after a use;
* `Represents.insert`: insertion into a bounded sequence represents a use;
* `Lists`: a list holds the elements of the set, whether the set forgets or not;
* `Lists.insert`, `Lists.erase`: insertion into a bounded sequence, and removal.
-/

/-- A set of elements, and the times at which keys were last used: zero for a key that was
not used since it was removed. -/
structure Recency (α κ : Type*) where
  held : Finset α
  lastUse : κ → ℕ
  now : ℕ

namespace Recency

variable {α κ : Type*} [DecidableEq α] (key : α → κ)

/-- Nothing is held, nothing was used. -/
def empty : Recency α κ :=
  ⟨∅, fun _ => 0, 0⟩

/-- The elements whose last use is not the oldest. -/
def evict (s : Recency α κ) : Finset α :=
  s.held.filter fun x => ∃ y ∈ s.held, s.lastUse (key y) < s.lastUse (key x)

section Events

variable [DecidableEq κ]

/-- An element is inserted or fetched: the one that is held with its key is used, or it
comes in itself. -/
def use (capacity : ℕ) (x : α) (s : Recency α κ) : Recency α κ where
  held :=
    if ∃ y ∈ s.held, key y = key x then s.held
    else insert x (if s.held.card < capacity then s.held else s.evict key)
  lastUse := fun k => if k = key x then s.now + 1 else s.lastUse k
  now := s.now + 1

/-- A set that does not forget: it takes an element as long as there is room and none of its
key is held. -/
def keep (capacity : ℕ) (x : α) (s : Recency α κ) : Recency α κ where
  __ := s
  held := if (∃ y ∈ s.held, key y = key x) ∨ capacity ≤ s.held.card then s.held
    else insert x s.held

/-- An element is inserted or fetched, in a set that forgets or in one that does not. -/
def enter (capacity : ℕ) (lru : Bool) (x : α) (s : Recency α κ) : Recency α κ :=
  if lru then s.use key capacity x else s.keep key capacity x

/-- A key is removed. -/
def drop (k : κ) (s : Recency α κ) : Recency α κ where
  __ := s
  held := s.held.filter fun x => key x ≠ k
  lastUse := fun k' => if k' = k then 0 else s.lastUse k'

end Events

/-! ### Requests and answers -/

/-- An element comes in, an element that meets a condition is fetched, a key is removed. -/
inductive Request (α κ : Type*) where
  | insert (x : α)
  | fetch (wanted : α → Prop)
  | remove (k : κ)

/-- What a set answers. A fetch finds an element that is held and wanted, and finds none only
if there is none; what it finds is used. -/
inductive Answers [DecidableEq κ] (capacity : ℕ) (lru : Bool) :
    Recency α κ → Request α κ → Option α → Recency α κ → Prop where
  | insert {s : Recency α κ} {x : α} :
      Answers capacity lru s (.insert x) none (s.enter key capacity lru x)
  | found {s : Recency α κ} {wanted : α → Prop} {x : α} (hx : x ∈ s.held) (hw : wanted x) :
      Answers capacity lru s (.fetch wanted) (some x) (s.enter key capacity lru x)
  | missed {s : Recency α κ} {wanted : α → Prop} (hnone : ∀ x ∈ s.held, ¬ wanted x) :
      Answers capacity lru s (.fetch wanted) none s
  | remove {s : Recency α κ} {k : κ} :
      Answers capacity lru s (.remove k) none (s.drop key k)

/-- A sequence of requests with the answers to them. -/
inductive Runs [DecidableEq κ] (capacity : ℕ) (lru : Bool) :
    Recency α κ → List (Request α κ × Option α) → Recency α κ → Prop where
  | nil {s : Recency α κ} : Runs capacity lru s [] s
  | cons {s s' s'' : Recency α κ} {r : Request α κ} {answer : Option α}
      {trace : List (Request α κ × Option α)} (hfirst : Answers key capacity lru s r answer s')
      (hrest : Runs capacity lru s' trace s'') :
      Runs capacity lru s ((r, answer) :: trace) s''

/-- In a list of elements of different keys an element is all that there is of its key. -/
lemma erase_eq_filter {key : α → κ} [DecidableEq κ] {l : List α} {x : α}
    (hl : (l.map key).Nodup) (hx : x ∈ l) : l.erase x = l.filter fun z => key z ≠ key x := by
  rw [hl.of_map.erase_eq_filter]
  refine List.filter_congr fun z hz => ?_
  have hiff : z = x ↔ key z = key x :=
    ⟨congrArg key, fun h => List.inj_on_of_nodup_map hl hz hx h⟩
  rw [Bool.eq_iff_iff]
  simp [hiff]

/-- The list of the elements held, the most recently used first: what is not in it was
removed, or last used before everything in it. -/
structure Represents (s : Recency α κ) (l : List α) : Prop where
  nodup : (l.map key).Nodup
  held : l.toFinset = s.held
  order : l.Pairwise fun x y => s.lastUse (key y) < s.lastUse (key x)
  recent : ∀ k, 0 < s.lastUse k → (∀ x ∈ l, key x ≠ k) → ∀ x ∈ l, s.lastUse k < s.lastUse (key x)
  now : ∀ k, s.lastUse k ≤ s.now

namespace Represents

variable {key} {s : Recency α κ} {l : List α} {x y : α} {capacity : ℕ}

lemma empty : Represents key Recency.empty [] :=
  ⟨List.nodup_nil, rfl, List.Pairwise.nil, by simp, fun _ => Nat.le_refl 0⟩

lemma mem_held (hs : Represents key s l) : x ∈ s.held ↔ x ∈ l := by
  rw [← hs.held, List.mem_toFinset]

lemma card_held (hs : Represents key s l) : s.held.card = l.length := by
  rw [← hs.held, List.toFinset_card_of_nodup hs.nodup.of_map]

/-- Two elements of one key are one. -/
lemma eq_of_key (hs : Represents key s l) (hx : x ∈ l) (hy : y ∈ l) (hxy : key x = key y) :
    x = y :=
  List.inj_on_of_nodup_map hs.nodup hx hy hxy

/-- The oldest element is the last of the list. -/
lemma evict_eq {z : α} (hs : Represents key s (l ++ [z])) : s.evict key = l.toFinset := by
  obtain ⟨-, -, hlast⟩ := List.pairwise_append.mp hs.order
  have hnd : (l ++ [z]).Nodup := hs.nodup.of_map
  ext a
  rw [evict, Finset.mem_filter, hs.mem_held, List.mem_toFinset]
  constructor
  · rintro ⟨ha, b, hb, hba⟩
    rcases List.mem_append.mp ha with ha | ha
    · exact ha
    · -- nothing is older than the last element
      rw [List.mem_singleton] at ha
      subst ha
      rcases List.mem_append.mp (hs.mem_held.mp hb) with hb | hb
      · exact absurd (hlast b hb a (by simp)) (Nat.not_lt_of_gt hba)
      · rw [List.mem_singleton.mp hb] at hba
        exact absurd hba (Nat.lt_irrefl _)
  · intro ha
    exact ⟨List.mem_append_left _ ha, z, hs.mem_held.mpr (by simp), hlast a ha z (by simp)⟩

variable [DecidableEq κ]

/-- Stamps of other keys stay. -/
lemma lastUse_use (s : Recency α κ) {k : κ} (hne : k ≠ key x) :
    (s.use key capacity x).lastUse k = s.lastUse k :=
  if_neg hne

lemma lastUse_use_self (s : Recency α κ) : (s.use key capacity x).lastUse (key x) = s.now + 1 :=
  if_pos rfl

/-- An element in front with the stamp of now, before elements of other keys in order. What
is left out is older than them. -/
lemma cons_use {m : List α} (hy : key y = key x) (hm : ∀ z ∈ m, key z ≠ key x)
    (hsub : m.Sublist l) (hout : ∀ w ∈ l, key w ≠ key x → w ∉ m →
      ∀ z ∈ m, s.lastUse (key w) < s.lastUse (key z))
    (hs : Represents key s l) (hheld : (y :: m).toFinset = (s.use key capacity x).held) :
    Represents key (s.use key capacity x) (y :: m) := by
  have hstamp : ∀ z ∈ m, (s.use key capacity x).lastUse (key z) = s.lastUse (key z) :=
    fun z hz => lastUse_use s (hm z hz)
  have hfront : (s.use key capacity x).lastUse (key y) = s.now + 1 := hy ▸ lastUse_use_self s
  refine ⟨?_, hheld, ?_, ?_, ?_⟩
  · rw [List.map_cons, List.nodup_cons]
    refine ⟨?_, hs.nodup.sublist (hsub.map key)⟩
    rw [List.mem_map]
    rintro ⟨z, hz, hzy⟩
    exact hm z hz (hzy.trans hy)
  · refine List.pairwise_cons.mpr ⟨fun z hz => ?_, ?_⟩
    · have := hs.now (key z)
      rw [hstamp z hz, hfront]
      omega
    · refine (hs.order.sublist hsub).imp_of_mem ?_
      intro a b ha hb hab
      rwa [hstamp a ha, hstamp b hb]
  · intro k hk habsent z hz
    have hkx : k ≠ key x := fun heq => habsent y (List.mem_cons_self ..) (hy.trans heq.symm)
    rw [lastUse_use s hkx] at hk ⊢
    rcases List.mem_cons.mp hz with rfl | hz
    · have := hs.now k
      rw [hfront]
      omega
    · rw [hstamp z hz]
      by_cases hkl : ∀ w ∈ l, key w ≠ k
      · exact hs.recent k hk hkl z (hsub.subset hz)
      · push Not at hkl
        obtain ⟨w, hw, rfl⟩ := hkl
        exact hout w hw hkx (fun hwm => habsent w (List.mem_cons_of_mem _ hwm) rfl) z hz
  · intro k
    by_cases hkx : k = key x
    · rw [hkx, lastUse_use_self]
      exact Nat.le_refl _
    · rw [lastUse_use s hkx]
      exact (hs.now k).trans (Nat.le_succ _)

/-- A held element comes to the front. -/
lemma use_held (hs : Represents key s l) (hy : y ∈ l) (hyx : key y = key x) :
    Represents key (s.use key capacity x) (y :: l.erase y) := by
  have hnd : l.Nodup := hs.nodup.of_map
  refine cons_use hyx (fun z hz hzx => ?_) List.erase_sublist (fun w hw hwx hout => ?_) hs ?_
  · obtain ⟨hne, hz⟩ := hnd.mem_erase_iff.mp hz
    exact hne (hs.eq_of_key hz hy (hzx.trans hyx.symm))
  · have hne : w ≠ y := fun heq => hwx (heq ▸ hyx)
    exact absurd (hnd.mem_erase_iff.mpr ⟨hne, hw⟩) hout
  · have hex : ∃ z ∈ s.held, key z = key x := ⟨y, hs.mem_held.mpr hy, hyx⟩
    have hperm := (List.perm_cons_erase hy).symm
    rw [use, if_pos hex, ← hs.held, List.toFinset_eq_of_perm _ _ hperm]

/-- A new element comes to the front when there is room. -/
lemma use_room (hs : Represents key s l) (hx : ∀ z ∈ l, key z ≠ key x)
    (hroom : l.length < capacity) : Represents key (s.use key capacity x) (x :: l) := by
  refine cons_use rfl hx (List.Sublist.refl l) (fun w hw _ hout => absurd hw hout) hs ?_
  have hnot : ¬ ∃ z ∈ s.held, key z = key x := by
    rintro ⟨z, hz, hzx⟩
    exact hx z (hs.mem_held.mp hz) hzx
  rw [use, if_neg hnot, if_pos (hs.card_held ▸ hroom), List.toFinset_cons, hs.held]

/-- A new element comes to the front of a full list, and the last element leaves. -/
lemma use_full {z : α} (hs : Represents key s (l ++ [z])) (hx : ∀ w ∈ l ++ [z], key w ≠ key x)
    (hfull : (l ++ [z]).length = capacity) : Represents key (s.use key capacity x) (x :: l) := by
  obtain ⟨-, -, hlast⟩ := List.pairwise_append.mp hs.order
  refine cons_use rfl (fun w hw => hx w (List.mem_append_left _ hw))
    (List.sublist_append_left l [z]) (fun w hw _ hout a ha => ?_) hs ?_
  · have hwz := (List.mem_append.mp hw).resolve_left hout
    exact hlast a ha w hwz
  have hnot : ¬ ∃ w ∈ s.held, key w = key x := by
    rintro ⟨w, hw, hwx⟩
    exact hx w (hs.mem_held.mp hw) hwx
  have hcard : ¬ s.held.card < capacity := by
    rw [hs.card_held, hfull]
    exact Nat.lt_irrefl _
  rw [use, if_neg hnot, if_neg hcard, List.toFinset_cons, hs.evict_eq]

omit [DecidableEq α] in
/-- The stamps of other keys survive a removal. -/
lemma lastUse_drop (s : Recency α κ) {k k' : κ} (hne : k' ≠ k) :
    (s.drop key k).lastUse k' = s.lastUse k' :=
  if_neg hne

omit [DecidableEq α] in
lemma lastUse_drop_le (s : Recency α κ) (k k' : κ) : (s.drop key k).lastUse k' ≤ s.lastUse k' := by
  show (if k' = k then 0 else s.lastUse k') ≤ _
  split
  · exact Nat.zero_le _
  · exact Nat.le_refl _

omit [DecidableEq α] in
lemma ne_of_lastUse_drop_pos {k k' : κ} (hpos : 0 < (s.drop key k).lastUse k') : k' ≠ k := by
  rintro rfl
  exact absurd (if_pos rfl) (Nat.ne_of_gt hpos)

/-- Removal of a key takes the elements of the key from the list. -/
lemma drop_filter (hs : Represents key s l) (k : κ) :
    Represents key (s.drop key k) (l.filter fun z => key z ≠ k) := by
  have hsub : (l.filter fun z => key z ≠ k).Sublist l := List.filter_sublist
  have hkey : ∀ z ∈ l.filter fun z => key z ≠ k, key z ≠ k := fun z hz => by
    simpa using (List.mem_filter.mp hz).2
  refine ⟨hs.nodup.sublist (hsub.map key), ?_, ?_, ?_, fun k' => ?_⟩
  · ext z
    rw [drop, Finset.mem_filter, hs.mem_held, List.mem_toFinset, List.mem_filter]
    simp
  · refine (hs.order.sublist hsub).imp_of_mem ?_
    intro a b ha hb hab
    rwa [lastUse_drop s (hkey a ha), lastUse_drop s (hkey b hb)]
  · intro k' hpos habsent z hz
    have hne := ne_of_lastUse_drop_pos hpos
    rw [lastUse_drop s hne] at hpos ⊢
    rw [lastUse_drop s (hkey z hz)]
    refine hs.recent k' hpos (fun w hw hwk => ?_) z (hsub.subset hz)
    exact habsent w (List.mem_filter.mpr ⟨hw, by simpa [hwk] using hne⟩) hwk
  · exact (lastUse_drop_le s k k').trans (hs.now k')

/-- A removed element is removed from the list. -/
lemma erase (hs : Represents key s l) (hx : x ∈ l) :
    Represents key (s.drop key (key x)) (l.erase x) :=
  erase_eq_filter hs.nodup hx ▸ hs.drop_filter (key x)

/-- A key that is not there leaves the list. -/
lemma drop_absent (hs : Represents key s l) {k : κ} (hk : ∀ z ∈ l, key z ≠ k) :
    Represents key (s.drop key k) l := by
  have heq : l.filter (fun z => key z ≠ k) = l :=
    List.filter_eq_self.mpr fun z hz => by simpa using hk z hz
  exact heq ▸ hs.drop_filter k

/-- **Insertion into a bounded sequence is a use**, if its index compares the keys. -/
theorem insert {R : α → α → Prop} [DecidableRel R] (hs : Represents key s l)
    (hR : ∀ z ∈ l, R z x ↔ key z = key x) (hcap : 1 ≤ capacity) (hlen : l.length ≤ capacity) :
    Represents key (s.use key capacity x) (BoundedSeq.insert R capacity true x l) := by
  rw [BoundedSeq.insert, if_pos rfl]
  cases hf : BoundedSeq.find R x l with
  | some y =>
      obtain ⟨hy, hyx⟩ := BoundedSeq.mem_of_find hf
      exact hs.use_held hy ((hR y hy).mp hyx)
  | none =>
      have hx : ∀ z ∈ l, key z ≠ key x := fun z hz hzx =>
        BoundedSeq.find_eq_none_iff.mp hf z hz ((hR z hz).mpr hzx)
      dsimp only
      split
      · next hover =>
          rw [List.length_cons] at hover
          rcases List.eq_nil_or_concat l with rfl | ⟨init, z, rfl⟩
          · simp only [List.length_nil] at hover
            omega
          · rw [List.concat_eq_append] at hs hx hover hlen ⊢
            rw [← List.cons_append, List.dropLast_concat]
            exact hs.use_full hx (by omega)
      · next hover =>
          rw [List.length_cons] at hover
          exact hs.use_room hx (by omega)

end Represents

/-! ### Sets that forget and sets that do not -/

/-- The list of the elements held, the most recently used first in a set that forgets. -/
structure Lists (lru : Bool) (s : Recency α κ) (l : List α) : Prop where
  nodup : (l.map key).Nodup
  held : l.toFinset = s.held
  recency : lru = true → Represents key s l

namespace Lists

variable {key} {lru : Bool} {s : Recency α κ} {l : List α} {x : α} {capacity : ℕ}

lemma empty : Lists key lru Recency.empty [] :=
  ⟨List.nodup_nil, rfl, fun _ => Represents.empty⟩

lemma of_represents (hs : Represents key s l) : Lists key lru s l :=
  ⟨hs.nodup, hs.held, fun _ => hs⟩

lemma mem_held (hs : Lists key lru s l) : x ∈ s.held ↔ x ∈ l := by
  rw [← hs.held, List.mem_toFinset]

lemma card_held (hs : Lists key lru s l) : s.held.card = l.length := by
  rw [← hs.held, List.toFinset_card_of_nodup hs.nodup.of_map]

variable [DecidableEq κ]

/-- A set that does not forget, with an element of the key or without room. -/
lemma keep_eq_held (hs : Lists key false s l)
    (hnot : (∃ y ∈ l, key y = key x) ∨ capacity ≤ l.length) :
    (s.keep key capacity x).held = s.held := by
  refine if_pos ?_
  simpa only [hs.mem_held, hs.card_held] using hnot

/-- **Insertion into a bounded sequence**, if its index compares the keys. -/
theorem insert {R : α → α → Prop} [DecidableRel R] (hs : Lists key lru s l)
    (hR : ∀ z ∈ l, R z x ↔ key z = key x) (hcap : 1 ≤ capacity) (hlen : l.length ≤ capacity) :
    Lists key lru (s.enter key capacity lru x) (BoundedSeq.insert R capacity lru x l) := by
  cases lru with
  | true =>
      rw [enter, if_pos rfl]
      exact of_represents ((hs.recency rfl).insert hR hcap hlen)
  | false =>
      rw [enter, if_neg Bool.false_ne_true]
      cases hf : BoundedSeq.find R x l with
      | some y =>
          obtain ⟨hy, hyx⟩ := BoundedSeq.mem_of_find hf
          have hperm : (BoundedSeq.insert R capacity false x l).Perm l :=
            BoundedSeq.insert_perm_of_find hf
          refine ⟨(hperm.map key).nodup_iff.mpr hs.nodup, ?_, fun h => (by cases h)⟩
          rw [List.toFinset_eq_of_perm _ _ hperm, hs.held,
            hs.keep_eq_held (.inl ⟨y, hy, (hR y hy).mp hyx⟩)]
      | none =>
          have hx : ∀ z ∈ l, key z ≠ key x := fun z hz hzx =>
            BoundedSeq.find_eq_none_iff.mp hf z hz ((hR z hz).mpr hzx)
          by_cases hfull : capacity ≤ l.length
          · rw [BoundedSeq.insert_of_full hfull]
            refine ⟨hs.nodup, ?_, fun h => (by cases h)⟩
            rw [hs.held, hs.keep_eq_held (.inr hfull)]
          · have hperm : (BoundedSeq.insert R capacity false x l).Perm (x :: l) :=
              BoundedSeq.insert_perm_cons hf (Nat.not_le.mp hfull)
            refine ⟨(hperm.map key).nodup_iff.mpr ?_, ?_, fun h => (by cases h)⟩
            · rw [List.map_cons, List.nodup_cons, List.mem_map]
              exact ⟨fun ⟨z, hz, hzx⟩ => hx z hz hzx, hs.nodup⟩
            · have hnot : ¬ ((∃ y ∈ s.held, key y = key x) ∨ capacity ≤ s.held.card) := by
                rw [hs.card_held]
                rintro (⟨y, hy, hyx⟩ | hle)
                · exact hx y (hs.mem_held.mp hy) hyx
                · exact hfull hle
              rw [keep, if_neg hnot, List.toFinset_eq_of_perm _ _ hperm, List.toFinset_cons,
                hs.held]

/-- The elements of a key are removed. -/
lemma held_drop (hs : Lists key lru s l) (k : κ) :
    (l.filter fun z => key z ≠ k).toFinset = (s.drop key k).held := by
  ext z
  rw [drop, Finset.mem_filter, hs.mem_held, List.mem_toFinset, List.mem_filter]
  simp

/-- A removed element is removed from the list. -/
lemma erase (hs : Lists key lru s l) (hx : x ∈ l) :
    Lists key lru (s.drop key (key x)) (l.erase x) := by
  refine ⟨hs.nodup.sublist (List.erase_sublist.map key), ?_, fun h => (hs.recency h).erase hx⟩
  rw [← hs.held_drop, erase_eq_filter hs.nodup hx]

/-- A key that is not there leaves the list. -/
lemma drop_absent (hs : Lists key lru s l) {k : κ} (hk : ∀ z ∈ l, key z ≠ k) :
    Lists key lru (s.drop key k) l := by
  have heq : l.filter (fun z => key z ≠ k) = l :=
    List.filter_eq_self.mpr fun z hz => by simpa using hk z hz
  refine ⟨hs.nodup, ?_, fun h => (hs.recency h).drop_absent hk⟩
  rw [← hs.held_drop, heq]

end Lists

end Recency
