import IotAgent.Lib.JsonValues
import Mathlib.Algebra.Order.Ring.Int
import Mathlib.Data.List.Chain
import Mathlib.Data.List.Perm.Basic

/-!
How the tokens of a JSON value are nested.

A token that opens adds to the depth and one that closes takes from it, braces with a weight of
their own. Within a value the depth is positive, so a value ends where its depth is zero again,
and an array in a value may be made longer at its front without a change anywhere else.

* `depth`, `Balanced`, `Nested`: the depth of tokens, and that of all their beginnings;
* `balanced_tokens`, `nested_tokens`, `depth_array_pos`: the depth within values and arrays;
* `Nested.append_inj`: where a nested piece ends;
* `Follows`, `isChain_tokens`: which tokens stand one behind the other;
* `exists_member_of_lbracket`, `exists_member_of_insert`: the member that an opening bracket
  belongs to, and what becomes of it with more tokens behind the bracket;
* `tokens_perm`: the tokens of an object whose members change places.
-/

open JsonLexer

namespace JsonValue

variable {β : ℤ} {t t' : Token} {l l' p s : List Token} {v v' : JsonValue}
  {vs ws : List JsonValue} {ms ms' : List (List ℕ × JsonValue)}

/-! ### The depth of tokens -/

/-- What a token adds to the depth, with a weight for braces. -/
def weight (β : ℤ) : Token → ℤ
  | .lbracket => 1
  | .rbracket => -1
  | .lbrace => β
  | .rbrace => -β
  | .colon | .comma | .string _ | .number _ | .word _ => 0

def depth (β : ℤ) (l : List Token) : ℤ := (l.map (weight β)).sum

@[simp] lemma depth_nil : depth β [] = 0 := rfl

@[simp] lemma depth_cons : depth β (t :: l) = weight β t + depth β l := by
  rw [depth, List.map_cons, List.sum_cons, depth]

@[simp] lemma depth_append : depth β (l ++ l') = depth β l + depth β l' := by
  rw [depth, List.map_append, List.sum_append, depth, depth]

/-- All that is opened is closed, and nothing before it was opened. -/
def Balanced (β : ℤ) (l : List Token) : Prop :=
  depth β l = 0 ∧ ∀ p s, l = p ++ s → 0 ≤ depth β p

lemma Balanced.nil : Balanced β [] := by
  refine ⟨rfl, fun p s h => ?_⟩
  rw [(List.append_eq_nil_iff.mp h.symm).1, depth_nil]

lemma Balanced.append (h : Balanced β l) (h' : Balanced β l') : Balanced β (l ++ l') := by
  refine ⟨by rw [depth_append, h.1, h'.1, add_zero], fun p s hs => ?_⟩
  obtain ⟨a, hp, ha⟩ | ⟨a, hl, -⟩ := List.append_eq_append_iff.mp hs
  · rw [hp, depth_append, h.1, zero_add]
    exact h'.2 a s ha
  · exact h.2 p a hl

lemma Balanced.cons (ht : weight β t = 0) (h : Balanced β l) : Balanced β (t :: l) := by
  refine ⟨by rw [depth_cons, ht, h.1, add_zero], fun p s hs => ?_⟩
  cases p with
  | nil => exact le_of_eq depth_nil.symm
  | cons t' p =>
      obtain ⟨rfl, hl⟩ := List.cons.inj hs
      rw [depth_cons, ht, zero_add]
      exact h.2 p s hl

/-- Within two tokens that open and close the depth is that of the first one, or greater. -/
lemma Balanced.le_depth (h : Balanced β l) (hs : t :: (l ++ [t']) = p ++ s) (hp : p ≠ [])
    (hne : s ≠ []) : weight β t ≤ depth β p := by
  cases p with
  | nil => exact absurd rfl hp
  | cons t₁ p =>
      obtain ⟨rfl, hl⟩ := List.cons.inj hs
      rw [depth_cons, le_add_iff_nonneg_right]
      obtain ⟨a, hp, ha⟩ | ⟨a, hl, -⟩ := List.append_eq_append_iff.mp hl
      · cases a with
        | nil => rw [hp, List.append_nil, h.1]
        | cons t₂ a =>
            refine absurd ?_ hne
            exact (List.append_eq_nil_iff.mp (List.cons.inj ha).2.symm).2
      · exact h.2 p a hl

lemma Balanced.wrap (h : Balanced β l) (ht : 0 ≤ weight β t)
    (htt : weight β t + weight β t' = 0) : Balanced β (t :: (l ++ [t'])) := by
  have hsum : depth β (t :: (l ++ [t'])) = 0 := by simp [h.1, htt]
  refine ⟨hsum, fun p s hs => ?_⟩
  by_cases hp : p = []
  · rw [hp, depth_nil]
  by_cases hne : s = []
  · rw [hne, List.append_nil] at hs
    rw [← hs, hsum]
  · exact ht.trans (h.le_depth hs hp hne)

/-! ### The depth within values -/

/-- The items of an array with the commas between them. -/
def itemsTokens : List JsonValue → List Token
  | [] => []
  | v :: vs => v.tokens ++ restItems vs

/-- The members of an object with the commas between them. -/
def membersTokens : List (List ℕ × JsonValue) → List Token
  | [] => []
  | (k, v) :: ms => .string k :: .colon :: (v.tokens ++ restMembers ms)

lemma tokens_array (vs : List JsonValue) :
    (array vs).tokens = .lbracket :: (itemsTokens vs ++ [.rbracket]) := by
  match vs with
  | [] => rw [tokens, itemsTokens, List.nil_append]
  | v :: vs => rw [tokens, itemsTokens, List.append_assoc]

lemma tokens_object_eq (ms : List (List ℕ × JsonValue)) :
    (object ms).tokens = .lbrace :: (membersTokens ms ++ [.rbrace]) := by
  match ms with
  | [] => rw [tokens, membersTokens, List.nil_append]
  | (k, v) :: ms =>
      rw [tokens, membersTokens]
      simp only [List.cons_append, List.append_assoc]

mutual

/-- The tokens of a value are balanced. The induction is on the value, its items and its
members. -/
theorem balanced_tokens (hβ : 0 ≤ β) (v : JsonValue) : Balanced β v.tokens := by
  match v with
  | word w =>
      rw [tokens]
      exact .cons rfl .nil
  | number text =>
      rw [tokens]
      exact .cons rfl .nil
  | string units =>
      rw [tokens]
      exact .cons rfl .nil
  | array [] =>
      rw [tokens_array]
      exact Balanced.nil.wrap zero_le_one rfl
  | array (v :: vs) =>
      rw [tokens_array]
      exact ((balanced_tokens hβ v).append (balanced_restItems hβ vs)).wrap zero_le_one rfl
  | object [] =>
      rw [tokens_object_eq]
      exact Balanced.nil.wrap hβ (add_neg_cancel β)
  | object ((k, v) :: ms) =>
      rw [tokens_object_eq]
      exact (((balanced_tokens hβ v).append (balanced_restMembers hβ ms)).cons rfl).cons rfl |>.wrap
        hβ (add_neg_cancel β)

theorem balanced_restItems (hβ : 0 ≤ β) (vs : List JsonValue) : Balanced β (restItems vs) := by
  match vs with
  | [] => exact .nil
  | v :: vs =>
      rw [restItems]
      exact ((balanced_tokens hβ v).append (balanced_restItems hβ vs)).cons rfl

theorem balanced_restMembers (hβ : 0 ≤ β) (ms : List (List ℕ × JsonValue)) :
    Balanced β (restMembers ms) := by
  match ms with
  | [] => exact .nil
  | (k, v) :: ms =>
      rw [restMembers]
      exact ((balanced_tokens hβ v).append (balanced_restMembers hβ ms)).cons rfl |>.cons rfl
        |>.cons rfl

end

lemma balanced_itemsTokens (hβ : 0 ≤ β) (vs : List JsonValue) : Balanced β (itemsTokens vs) := by
  match vs with
  | [] => exact .nil
  | v :: vs => exact (balanced_tokens hβ v).append (balanced_restItems hβ vs)

lemma balanced_membersTokens (hβ : 0 ≤ β) (ms : List (List ℕ × JsonValue)) :
    Balanced β (membersTokens ms) := by
  match ms with
  | [] => exact .nil
  | (k, v) :: ms =>
      exact ((balanced_tokens hβ v).append (balanced_restMembers hβ ms)).cons rfl |>.cons rfl

/-- Within an array the depth is positive, whatever braces count. -/
lemma depth_array_pos (hβ : 0 ≤ β) (hs : (array vs).tokens = p ++ s) (hp : p ≠ [])
    (hne : s ≠ []) : 0 < depth β p := by
  rw [tokens_array] at hs
  exact zero_lt_one.trans_le ((balanced_itemsTokens hβ vs).le_depth hs hp hne)

/-! ### Where a value ends -/

/-- The depth is zero at the end, and positive before it. -/
structure Nested (l : List Token) : Prop where
  ne_nil : l ≠ []
  depth_eq : depth 1 l = 0
  depth_pos : ∀ p s, l = p ++ s → p ≠ [] → s ≠ [] → 0 < depth 1 p

lemma nested_tokens (v : JsonValue) : Nested v.tokens := by
  refine ⟨?_, (balanced_tokens zero_le_one v).1, fun p s hs hp hne => ?_⟩
  · obtain ⟨t, ts, hv, -⟩ := tokens_eq_cons v
    rw [hv]
    exact List.cons_ne_nil t ts
  · have hone : ∀ t : Token, [t] ≠ p ++ s := by
      intro t ht
      have hlen := congrArg List.length ht
      rw [List.length_append, List.length_singleton] at hlen
      have := List.length_pos_of_ne_nil hp
      have := List.length_pos_of_ne_nil hne
      omega
    match v with
    | word _ | number _ | string _ =>
        rw [tokens] at hs
        exact absurd hs (hone _)
    | array vs => exact depth_array_pos zero_le_one hs hp hne
    | object ms =>
        rw [tokens_object_eq] at hs
        exact zero_lt_one.trans_le ((balanced_membersTokens zero_le_one ms).le_depth hs hp hne)

/-- A nested piece does not begin with another one. -/
lemma Nested.append_inj {a b r r' : List Token} (ha : Nested a) (hb : Nested b)
    (h : a ++ r = b ++ r') : a = b ∧ r = r' := by
  obtain ⟨c, rfl, hr⟩ | ⟨c, rfl, hr⟩ := List.append_eq_append_iff.mp h
  · by_cases hc : c = []
    · subst hc
      exact ⟨(List.append_nil a).symm, hr⟩
    · exact absurd ha.depth_eq (hb.depth_pos a c rfl ha.ne_nil hc).ne'
  · by_cases hc : c = []
    · subst hc
      exact ⟨List.append_nil b, hr.symm⟩
    · exact absurd hb.depth_eq (ha.depth_pos b c rfl hb.ne_nil hc).ne'

/-- Within an array that is opened in a nested piece there is room for balanced tokens. -/
lemma Nested.insert {a b w : List Token} (h : Nested (a ++ .lbracket :: b)) (hw : Balanced 1 w) :
    Nested (a ++ .lbracket :: (w ++ b)) := by
  have hb : b ≠ [] := by
    rintro rfl
    have hsum := h.depth_eq
    by_cases ha : a = []
    · subst ha
      cases hsum
    · have hpos := h.depth_pos a [.lbracket] rfl ha (List.cons_ne_nil _ _)
      rw [depth_append, depth_cons, depth_nil, weight] at hsum
      omega
  have hopen : 0 < depth 1 (a ++ [.lbracket]) :=
    h.depth_pos _ b (by rw [List.append_assoc, List.singleton_append]) (by simp) hb
  refine ⟨by simp, ?_, fun p s hs hp hne => ?_⟩
  · have hsum := h.depth_eq
    simpa [hw.1] using hsum
  have hsplit : (a ++ [.lbracket]) ++ (w ++ b) = p ++ s := by
    rw [← hs, List.append_assoc, List.singleton_append]
  obtain ⟨c, hpc, hc⟩ | ⟨c, hac, -⟩ := List.append_eq_append_iff.mp hsplit
  · obtain ⟨d, rfl, hd⟩ | ⟨d, hwd, -⟩ := List.append_eq_append_iff.mp hc
    · -- the beginning ends behind the new tokens, as one of the old piece does
      have hold := h.depth_pos (a ++ [.lbracket] ++ d) s
        (by rw [hd]; simp) (by simp) hne
      rw [hpc, depth_append, @depth_append _ w, hw.1, zero_add, ← depth_append]
      exact hold
    · rw [hpc, depth_append]
      exact lt_add_of_pos_of_le hopen (hw.2 c d hwd)
  · refine h.depth_pos p (c ++ b) ?_ hp ?_
    · rw [← List.append_assoc, ← hac, List.append_assoc, List.singleton_append]
    · simp [hb]

/-! ### Tokens one behind the other -/

/-- The token may stand behind the other one. -/
def Follows : Token → Token → Prop
  | .lbracket, t => Opens t ∨ t = .rbracket
  | .comma, t | .colon, t => Opens t
  | .lbrace, t => (∃ k, t = .string k) ∨ t = .rbrace
  | .string _, t => t = .colon ∨ t = .comma ∨ t = .rbrace ∨ t = .rbracket
  | .rbrace, t | .rbracket, t | .number _, t | .word _, t =>
      t = .comma ∨ t = .rbrace ∨ t = .rbracket

/-- The tokens may stand one behind the other, and behind a value. -/
def Continues (r : List Token) : Prop :=
  r.IsChain Follows ∧ ∀ t ∈ r.head?, t = .comma ∨ t = .rbrace ∨ t = .rbracket

lemma Continues.nil : Continues [] := ⟨.nil, fun _ h => by cases h⟩

lemma Continues.cons {r : List Token} (ht : t = .comma ∨ t = .rbrace ∨ t = .rbracket)
    (hr : (t :: r).IsChain Follows) : Continues (t :: r) :=
  ⟨hr, fun _ h => by rwa [← Option.some.inj h]⟩

/-- A token that closes stands before all that may stand behind a value. -/
lemma Continues.close {r : List Token} (h : Continues r) (ht : t = .rbrace ∨ t = .rbracket) :
    Continues (t :: r) := by
  refine .cons (.inr ht) (List.isChain_cons.mpr ⟨fun t' ht' => ?_, h.1⟩)
  have hnext := h.2 t' ht'
  rcases ht with rfl | rfl <;> exact hnext

/-- A value stands behind a token that values may follow. -/
lemma isChain_cons_tokens {r : List Token} (v : JsonValue) (ht : ∀ t', Opens t' → Follows t t')
    (hv : (v.tokens ++ r).IsChain Follows) : (t :: (v.tokens ++ r)).IsChain Follows := by
  refine List.isChain_cons.mpr ⟨fun t' ht' => ?_, hv⟩
  obtain ⟨t₁, ts, htokens, hopens⟩ := tokens_eq_cons v
  rw [htokens, List.cons_append, List.head?_cons] at ht'
  rw [← Option.some.inj ht']
  exact ht t₁ hopens

mutual

theorem isChain_tokens_append (v : JsonValue) {r : List Token} (hr : Continues r) :
    (v.tokens ++ r).IsChain Follows := by
  match v with
  | word w =>
      rw [tokens, List.singleton_append]
      exact List.isChain_cons.mpr ⟨hr.2, hr.1⟩
  | number text =>
      rw [tokens, List.singleton_append]
      exact List.isChain_cons.mpr ⟨hr.2, hr.1⟩
  | string units =>
      rw [tokens, List.singleton_append]
      exact List.isChain_cons.mpr ⟨fun t ht => .inr (hr.2 t ht), hr.1⟩
  | array [] =>
      rw [tokens]
      exact List.isChain_cons_cons.mpr ⟨.inr rfl, (hr.close (.inr rfl)).1⟩
  | array (v :: vs) =>
      rw [tokens]
      simp only [List.cons_append, List.append_assoc]
      exact isChain_cons_tokens v (fun _ h => .inl h) (isChain_tokens_append v
        (continues_restItems vs (hr.close (.inr rfl))))
  | object [] =>
      rw [tokens]
      exact List.isChain_cons_cons.mpr ⟨.inr rfl, (hr.close (.inl rfl)).1⟩
  | object ((k, v) :: ms) =>
      rw [tokens]
      simp only [List.cons_append, List.append_assoc]
      refine List.isChain_cons_cons.mpr ⟨.inl ⟨k, rfl⟩, List.isChain_cons_cons.mpr ⟨.inl rfl, ?_⟩⟩
      exact isChain_cons_tokens v (fun _ h => h) (isChain_tokens_append v
        (continues_restMembers ms (hr.close (.inl rfl))))

theorem continues_restItems (vs : List JsonValue) {r : List Token} (hr : Continues r) :
    Continues (restItems vs ++ r) := by
  match vs with
  | [] => exact hr
  | v :: vs =>
      rw [restItems, List.cons_append, List.append_assoc]
      exact .cons (.inl rfl) (isChain_cons_tokens v (fun _ h => h)
        (isChain_tokens_append v (continues_restItems vs hr)))

theorem continues_restMembers (ms : List (List ℕ × JsonValue)) {r : List Token}
    (hr : Continues r) : Continues (restMembers ms ++ r) := by
  match ms with
  | [] => exact hr
  | (k, v) :: ms =>
      rw [restMembers]
      simp only [List.cons_append, List.append_assoc]
      refine .cons (.inl rfl) (List.isChain_cons_cons.mpr
        ⟨trivial, List.isChain_cons_cons.mpr ⟨.inl rfl, ?_⟩⟩)
      exact isChain_cons_tokens v (fun _ h => h)
        (isChain_tokens_append v (continues_restMembers ms hr))

end

/-- The tokens of a value may stand one behind the other. -/
theorem isChain_tokens (v : JsonValue) : v.tokens.IsChain Follows := by
  have hchain := isChain_tokens_append v .nil
  rwa [List.append_nil] at hchain

/-! ### Items -/

/-- Items behind items, with a comma where there are both. -/
lemma itemsTokens_append (hvs : vs ≠ []) (hws : ws ≠ []) :
    itemsTokens (vs ++ ws) = itemsTokens vs ++ .comma :: itemsTokens ws := by
  have hrest : ∀ vs ws : List JsonValue, restItems (vs ++ ws) = restItems vs ++ restItems ws := by
    intro vs ws
    induction vs with
    | nil => rfl
    | cons v vs ih => rw [List.cons_append, restItems, restItems, ih]; simp
  obtain ⟨v, vs, rfl⟩ := List.exists_cons_of_ne_nil hvs
  obtain ⟨w, ws, rfl⟩ := List.exists_cons_of_ne_nil hws
  rw [List.cons_append, itemsTokens, itemsTokens, itemsTokens, hrest, restItems,
    List.append_assoc]

/-! ### The member that a bracket belongs to -/

/-- An opening bracket behind the first member stands in the value of a member. -/
lemma exists_rest_of_lbracket (h : p ++ .lbracket :: s = restMembers ms ++ [.rbrace]) :
    ∃ pre k v post a b, ms = pre ++ (k, v) :: post ∧
      p = restMembers pre ++ (.comma :: .string k :: .colon :: a) ∧
      v.tokens = a ++ .lbracket :: b ∧ s = b ++ (restMembers post ++ [.rbrace]) := by
  induction ms generalizing p with
  | nil =>
      match p with
      | [] => cases h
      | [_] | _ :: _ :: _ => simp [restMembers] at h
  | cons m ms ih =>
      obtain ⟨k, v⟩ := m
      rw [restMembers] at h
      match p with
      | [] | [_] | [_, _] => simp at h
      | t₁ :: t₂ :: t₃ :: p =>
          simp only [List.cons_append, List.append_assoc, List.cons.injEq] at h
          obtain ⟨rfl, rfl, rfl, h⟩ := h
          obtain ⟨c, hc, hrest⟩ | ⟨c, rfl, hrest⟩ := List.append_eq_append_iff.mp h
          · cases c with
            | nil =>
                obtain ⟨pre, k', v', post, a, b, rfl, hp, -⟩ := ih (p := []) hrest
                cases pre <;> simp [restMembers] at hp
            | cons t c =>
                obtain ⟨rfl, rfl⟩ := List.cons.inj hrest
                exact ⟨[], k, v, ms, p, c, rfl, rfl, hc, rfl⟩
          · obtain ⟨pre, k', v', post, a, b, rfl, rfl, hv, hs⟩ := ih hrest.symm
            refine ⟨(k, v) :: pre, k', v', post, a, b, rfl, ?_, hv, hs⟩
            rw [restMembers]
            simp only [List.cons_append, List.append_assoc]

/-- **The member that an opening bracket belongs to**: it stands in the value of one. -/
theorem exists_member_of_lbracket (h : p ++ .lbracket :: s = (object ms).tokens) :
    ∃ pre k v post a b, ms = pre ++ (k, v) :: post ∧ p = tokensBefore pre k ++ a ∧
      v.tokens = a ++ .lbracket :: b ∧ s = b ++ (restMembers post ++ [.rbrace]) := by
  rw [tokens_object_eq] at h
  cases p with
  | nil => cases h
  | cons t p =>
      obtain ⟨rfl, htail⟩ := List.cons.inj h
      have hcomma : (Token.comma :: p) ++ .lbracket :: s = restMembers ms ++ [.rbrace] := by
        cases ms with
        | nil =>
            cases p with
            | nil => cases htail
            | cons t' p => cases p <;> cases (List.cons.inj htail).2
        | cons member ms => exact congrArg (Token.comma :: ·) htail
      obtain ⟨pre, k, v, post, a, b, rfl, hp, hv, hs⟩ := exists_rest_of_lbracket hcomma
      refine ⟨pre, k, v, post, a, b, rfl, ?_, hv, hs⟩
      rw [tokensBefore]
      cases pre with
      | nil => rw [(List.cons.inj hp).2]; rfl
      | cons member pre =>
          rw [restMembers, List.cons_append] at hp
          rw [if_neg (List.cons_ne_nil _ _), openTokens, (List.cons.inj hp).2]
          simp only [List.cons_append, List.append_assoc, List.nil_append]

/-- **Balanced tokens behind an opening bracket** change the member that the bracket belongs to,
and no other. -/
theorem exists_member_of_insert {w : List Token} (hw : Balanced 1 w)
    (h : p ++ .lbracket :: s = (object ms).tokens)
    (h' : p ++ .lbracket :: (w ++ s) = (object ms').tokens) :
    ∃ pre k v v' post a b, ms = pre ++ (k, v) :: post ∧ ms' = pre ++ (k, v') :: post ∧
      p = tokensBefore pre k ++ a ∧ v.tokens = a ++ .lbracket :: b ∧
      v'.tokens = a ++ .lbracket :: (w ++ b) := by
  obtain ⟨pre, k, v, post, a, b, rfl, rfl, hv, rfl⟩ := exists_member_of_lbracket h
  rw [List.append_assoc] at h'
  obtain ⟨v', tail, rfl, hrest⟩ := tokensBefore_append_iff.mp h'
  have hinsert : Nested (a ++ .lbracket :: (w ++ b)) :=
    (hv ▸ nested_tokens v).insert hw
  have hsplit : (a ++ .lbracket :: (w ++ b)) ++ (restMembers post ++ [.rbrace])
      = v'.tokens ++ (restMembers tail ++ [.rbrace]) := by
    rw [← hrest]
    simp only [List.append_assoc, List.cons_append]
  obtain ⟨hv', hpost⟩ := hinsert.append_inj (nested_tokens v') hsplit
  obtain ⟨rfl, -⟩ := restMembers_append_inj post tail hpost
  exact ⟨pre, k, v, v', post, a, b, rfl, rfl, rfl, hv, hv'.symm⟩

/-! ### Members that change places -/

lemma restMembers_perm (h : ms.Perm ms') : (restMembers ms).Perm (restMembers ms') := by
  induction h with
  | nil => exact .refl _
  | cons m _ ih =>
      obtain ⟨k, v⟩ := m
      rw [restMembers, restMembers]
      exact (((ih.append_left v.tokens).cons _).cons _).cons _
  | swap m m' ms =>
      obtain ⟨k, v⟩ := m
      obtain ⟨k', v'⟩ := m'
      have hsplit : ∀ ms : List (List ℕ × JsonValue), ∀ k v, restMembers ((k, v) :: ms)
          = (.comma :: .string k :: .colon :: v.tokens) ++ restMembers ms := fun _ _ _ => rfl
      rw [hsplit, hsplit, hsplit, hsplit, ← List.append_assoc, ← List.append_assoc]
      exact List.perm_append_comm.append_right _
  | trans _ _ ih ih' => exact ih.trans ih'

/-- Members that change places do so with their tokens. -/
theorem tokens_perm (h : ms.Perm ms') : (object ms).tokens.Perm (object ms').tokens := by
  have hcomma : ∀ ms : List (List ℕ × JsonValue), ms ≠ [] →
      (.comma :: membersTokens ms) = restMembers ms := by
    intro ms hne
    match ms with
    | [] => exact absurd rfl hne
    | (k, v) :: ms => rfl
  rw [tokens_object_eq, tokens_object_eq]
  by_cases hms : ms = []
  · subst hms
    rw [h.nil_eq]
  · have hms' : ms' ≠ [] := fun hnil => hms (by subst hnil; exact h.eq_nil)
    have hinner : (membersTokens ms).Perm (membersTokens ms') := by
      refine List.Perm.cons_inv (a := Token.comma) ?_
      rw [hcomma ms hms, hcomma ms' hms']
      exact restMembers_perm h
    exact (hinner.append_right _).cons _

end JsonValue
