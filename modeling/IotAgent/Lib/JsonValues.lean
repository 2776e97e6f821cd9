import IotAgent.Lib.JsonLexer

/-!
The values that a JSON text is written for.

A text is a text of a value if its tokens are those of the value. The tokens of a value say
what the value is, whatever stands behind them, so no text is one of two values.

* `JsonValue.tokens`: the tokens of a value;
* `JsonValue.tokens_append_inj`: they determine it;
* `JsonValue.tokensBefore_append_iff`: what members are behind the first ones of an object;
* `JsonValue.Reads`: a text of a value.
-/

open JsonLexer

/-- JSON values. The members of an object are kept in their order and may share names. -/
inductive JsonValue where
  | word (w : Word)
  | number (text : List Char)
  | string (units : List ℕ)
  | array (items : List JsonValue)
  | object (members : List (List ℕ × JsonValue))

namespace JsonValue

/-! ### The tokens of a value -/

mutual

/-- The tokens of a value. -/
def tokens : JsonValue → List Token
  | word w => [.word w]
  | number text => [.number text]
  | string units => [.string units]
  | array [] => [.lbracket, .rbracket]
  | array (v :: vs) => .lbracket :: (v.tokens ++ (restItems vs ++ [.rbracket]))
  | object [] => [.lbrace, .rbrace]
  | object ((k, v) :: ms) =>
      .lbrace :: .string k :: .colon :: (v.tokens ++ (restMembers ms ++ [.rbrace]))

/-- The items behind the first one. -/
def restItems : List JsonValue → List Token
  | [] => []
  | v :: vs => .comma :: (v.tokens ++ restItems vs)

/-- The members behind the first one. -/
def restMembers : List (List ℕ × JsonValue) → List Token
  | [] => []
  | (k, v) :: ms => .comma :: .string k :: .colon :: (v.tokens ++ restMembers ms)

end

/-- The tokens that a value may start with. -/
def Opens : Token → Prop
  | .lbrace | .lbracket | .string _ | .number _ | .word _ => True
  | .rbrace | .rbracket | .colon | .comma => False

lemma tokens_eq_cons (v : JsonValue) : ∃ t ts, v.tokens = t :: ts ∧ Opens t := by
  match v with
  | word w => exact ⟨.word w, [], by rw [tokens], trivial⟩
  | number text => exact ⟨.number text, [], by rw [tokens], trivial⟩
  | string units => exact ⟨.string units, [], by rw [tokens], trivial⟩
  | array [] => exact ⟨.lbracket, _, by rw [tokens], trivial⟩
  | array (v :: vs) => exact ⟨.lbracket, _, by rw [tokens], trivial⟩
  | object [] => exact ⟨.lbrace, _, by rw [tokens], trivial⟩
  | object ((k, v) :: ms) => exact ⟨.lbrace, _, by rw [tokens], trivial⟩

/-- No value starts with a token that closes or separates. -/
lemma tokens_append_ne_cons (v : JsonValue) {t : Token} (ht : ¬Opens t) (l l' : List Token) :
    v.tokens ++ l ≠ t :: l' := by
  obtain ⟨t', ts, hv, hopens⟩ := tokens_eq_cons v
  rw [hv, List.cons_append]
  intro h
  rw [(List.cons.inj h).1] at hopens
  exact ht hopens

/-! ### One value for the tokens -/

mutual

/-- **The tokens of a value determine it**, whatever stands behind them. The induction is on the
value, its items and its members. -/
theorem tokens_append_inj (v v' : JsonValue) {l l' : List Token}
    (h : v.tokens ++ l = v'.tokens ++ l') : v = v' ∧ l = l' := by
  match v with
  | word w =>
      match v' with
      | word w' => simpa [tokens] using h
      | number _ | string _ | array [] | array (_ :: _) | object [] | object (_ :: _) =>
          simp [tokens] at h
  | number text =>
      match v' with
      | number text' => simpa [tokens] using h
      | word _ | string _ | array [] | array (_ :: _) | object [] | object (_ :: _) =>
          simp [tokens] at h
  | string units =>
      match v' with
      | string units' => simpa [tokens] using h
      | word _ | number _ | array [] | array (_ :: _) | object [] | object (_ :: _) =>
          simp [tokens] at h
  | array [] =>
      match v' with
      | array [] => simpa [tokens] using h
      | array (v' :: vs') =>
          rw [tokens, tokens] at h
          simp only [List.cons_append, List.append_assoc, List.cons.injEq, true_and] at h
          exact absurd h.symm (tokens_append_ne_cons v' id _ _)
      | word _ | number _ | string _ | object [] | object (_ :: _) => simp [tokens] at h
  | array (v :: vs) =>
      match v' with
      | array [] =>
          rw [tokens, tokens] at h
          simp only [List.cons_append, List.append_assoc, List.cons.injEq, true_and] at h
          exact absurd h (tokens_append_ne_cons v id _ _)
      | array (v' :: vs') =>
          rw [tokens, tokens] at h
          simp only [List.cons_append, List.append_assoc, List.cons.injEq, true_and] at h
          obtain ⟨hv, hrest⟩ := tokens_append_inj v v' h
          obtain ⟨hvs, hl⟩ := restItems_append_inj vs vs' hrest
          exact ⟨by rw [hv, hvs], hl⟩
      | word _ | number _ | string _ | object [] | object (_ :: _) => simp [tokens] at h
  | object [] =>
      match v' with
      | object [] => simpa [tokens] using h
      | word _ | number _ | string _ | array [] | array (_ :: _) | object (_ :: _) =>
          simp [tokens] at h
  | object ((k, v) :: ms) =>
      match v' with
      | object ((k', v') :: ms') =>
          rw [tokens, tokens] at h
          simp only [List.cons_append, List.append_assoc, List.cons.injEq, true_and,
            Token.string.injEq] at h
          obtain ⟨hk, hvalue⟩ := h
          obtain ⟨hv, hrest⟩ := tokens_append_inj v v' hvalue
          obtain ⟨hms, hl⟩ := restMembers_append_inj ms ms' hrest
          exact ⟨by rw [hk, hv, hms], hl⟩
      | word _ | number _ | string _ | array [] | array (_ :: _) | object [] =>
          simp [tokens] at h

theorem restItems_append_inj (vs vs' : List JsonValue) {l l' : List Token}
    (h : restItems vs ++ .rbracket :: l = restItems vs' ++ .rbracket :: l') :
    vs = vs' ∧ l = l' := by
  match vs with
  | [] =>
      match vs' with
      | [] => simpa [restItems] using h
      | _ :: _ => simp [restItems] at h
  | v :: vs =>
      match vs' with
      | [] => simp [restItems] at h
      | v' :: vs' =>
          rw [restItems, restItems] at h
          simp only [List.cons_append, List.append_assoc, List.cons.injEq, true_and] at h
          obtain ⟨hv, hrest⟩ := tokens_append_inj v v' h
          obtain ⟨hvs, hl⟩ := restItems_append_inj vs vs' hrest
          exact ⟨by rw [hv, hvs], hl⟩

theorem restMembers_append_inj (ms ms' : List (List ℕ × JsonValue)) {l l' : List Token}
    (h : restMembers ms ++ .rbrace :: l = restMembers ms' ++ .rbrace :: l') :
    ms = ms' ∧ l = l' := by
  match ms with
  | [] =>
      match ms' with
      | [] => simpa [restMembers] using h
      | _ :: _ => simp [restMembers] at h
  | (k, v) :: ms =>
      match ms' with
      | [] => simp [restMembers] at h
      | (k', v') :: ms' =>
          rw [restMembers, restMembers] at h
          simp only [List.cons_append, List.append_assoc, List.cons.injEq, true_and,
            Token.string.injEq] at h
          obtain ⟨hk, hvalue⟩ := h
          obtain ⟨hv, hrest⟩ := tokens_append_inj v v' hvalue
          obtain ⟨hms, hl⟩ := restMembers_append_inj ms ms' hrest
          exact ⟨by rw [hk, hv, hms], hl⟩

end

/-! ### The members of an object -/

variable {ms ms' : List (List ℕ × JsonValue)} {k : List ℕ} {v v' : JsonValue}

lemma restMembers_append (ms ms' : List (List ℕ × JsonValue)) :
    restMembers (ms ++ ms') = restMembers ms ++ restMembers ms' := by
  induction ms with
  | nil => rfl
  | cons m ms ih =>
      obtain ⟨k, v⟩ := m
      rw [List.cons_append, restMembers, restMembers, ih]
      simp only [List.cons_append, List.append_assoc]

/-- The tokens of an object but for its closing brace. -/
def openTokens : List (List ℕ × JsonValue) → List Token
  | [] => [.lbrace]
  | (k, v) :: ms => .lbrace :: .string k :: .colon :: (v.tokens ++ restMembers ms)

lemma tokens_object (ms : List (List ℕ × JsonValue)) :
    (object ms).tokens = openTokens ms ++ [.rbrace] := by
  match ms with
  | [] => rw [tokens, openTokens, List.cons_append, List.nil_append]
  | (k, v) :: ms =>
      rw [tokens, openTokens]
      simp only [List.cons_append, List.append_assoc]

/-- The tokens of an object up to the value of the member behind the given ones. -/
def tokensBefore (ms : List (List ℕ × JsonValue)) (k : List ℕ) : List Token :=
  if ms = [] then [.lbrace, .string k, .colon] else openTokens ms ++ [.comma, .string k, .colon]

/-- What stands behind the first members, here without the first one. -/
lemma restMembers_prefix_iff {l : List Token} :
    restMembers ms ++ (.comma :: .string k :: .colon :: l) = restMembers ms' ++ [.rbrace] ↔
      ∃ v tail, ms' = ms ++ (k, v) :: tail ∧ l = v.tokens ++ (restMembers tail ++ [.rbrace]) := by
  constructor
  · intro h
    induction ms generalizing ms' with
    | nil =>
        match ms' with
        | [] => simp [restMembers] at h
        | (k', v') :: tail =>
            rw [restMembers, restMembers] at h
            simp only [List.nil_append, List.cons_append, List.append_assoc, List.cons.injEq,
              true_and, Token.string.injEq] at h
            obtain ⟨rfl, rfl⟩ := h
            exact ⟨v', tail, rfl, rfl⟩
    | cons m ms ih =>
        obtain ⟨k₁, v₁⟩ := m
        match ms' with
        | [] => simp [restMembers] at h
        | (k', v') :: ms' =>
            rw [restMembers, restMembers] at h
            simp only [List.cons_append, List.append_assoc, List.cons.injEq, true_and,
              Token.string.injEq] at h
            obtain ⟨rfl, hvalue⟩ := h
            obtain ⟨rfl, hrest⟩ := tokens_append_inj v₁ v' hvalue
            obtain ⟨v, tail, rfl, hl⟩ := ih hrest
            exact ⟨v, tail, rfl, hl⟩
  · rintro ⟨v, tail, rfl, rfl⟩
    rw [restMembers_append, restMembers]
    simp only [List.cons_append, List.append_assoc]

/-- **An object that starts with members and a name** has them, a value of the name, and what
comes behind. -/
theorem tokensBefore_append_iff {l : List Token} :
    tokensBefore ms k ++ l = (object ms').tokens ↔
      ∃ v tail, ms' = ms ++ (k, v) :: tail ∧ l = v.tokens ++ (restMembers tail ++ [.rbrace]) := by
  rw [tokensBefore, tokens_object]
  match ms, ms' with
  | [], [] => simp [openTokens]
  | [], (k', v') :: tail =>
      simp only [openTokens, List.nil_append, List.cons_append, List.append_assoc,
        List.cons.injEq, true_and, Token.string.injEq, if_true, Prod.mk.injEq]
      constructor
      · rintro ⟨rfl, rfl⟩
        exact ⟨v', tail, ⟨⟨rfl, rfl⟩, rfl⟩, rfl⟩
      · rintro ⟨v, tail', ⟨⟨rfl, rfl⟩, rfl⟩, rfl⟩
        exact ⟨rfl, rfl⟩
  | (k₁, v₁) :: ms, [] => simp [openTokens]
  | (k₁, v₁) :: ms, (k', v') :: ms' =>
      have hne : (k₁, v₁) :: ms ≠ [] := List.cons_ne_nil _ _
      simp only [if_neg hne, openTokens, List.nil_append, List.cons_append, List.append_assoc,
        List.cons.injEq, true_and, Token.string.injEq, Prod.mk.injEq]
      constructor
      · rintro ⟨rfl, hvalue⟩
        obtain ⟨rfl, hrest⟩ := tokens_append_inj v₁ v' hvalue
        obtain ⟨v, tail, rfl, hl⟩ := restMembers_prefix_iff.mp hrest
        exact ⟨v, tail, ⟨⟨rfl, rfl⟩, rfl⟩, hl⟩
      · rintro ⟨v, tail, ⟨⟨rfl, rfl⟩, rfl⟩, hl⟩
        refine ⟨rfl, ?_⟩
        rw [restMembers_prefix_iff.mpr ⟨v, tail, rfl, hl⟩]

/-- Behind the opening brace there is no comma. -/
lemma openTokens_nil_append_ne (l : List Token) :
    openTokens [] ++ .comma :: l ≠ (object ms').tokens := by
  rw [tokens_object]
  match ms' with
  | [] => simp [openTokens]
  | (k, v) :: ms' => simp [openTokens]

/-! ### Texts -/

/-- A text of a value. -/
def Reads (cs : List Char) (v : JsonValue) : Prop :=
  lex cs = some v.tokens

/-- No text is one of two values. -/
lemma Reads.inj {cs : List Char} (h : Reads cs v) (h' : Reads cs v') : v = v' := by
  have htokens : v.tokens = v'.tokens := Option.some.inj (h.symm.trans h')
  exact (tokens_append_inj v v' (congrArg (· ++ []) htokens)).1

/-- A text of a value, without its line breaks, before punctuation. -/
lemma Reads.lexFrom_erase_iff {cs t : List Char} {c : Char} {tok : Token} {ts : List Token}
    (h : Reads cs v) (hc : punctuation c = some tok) :
    lexFrom (.between false) (erase cs ++ c :: t) = some (v.tokens ++ tok :: ts) ↔
      lexFrom (.between false) t = some ts := by
  have hassoc : v.tokens ++ tok :: ts = (v.tokens ++ [tok]) ++ ts := by
    rw [List.append_assoc, List.singleton_append]
  rw [lexFrom_erase h hc, hassoc, map_append_eq_some_iff]

end JsonValue
