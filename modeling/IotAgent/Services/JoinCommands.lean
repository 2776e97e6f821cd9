import IotAgent.Lib.FirstOccurrence
import IotAgent.Lib.JsonCuts
import IotAgent.Lib.JsonNesting

/-!
The text of a device with the commands of its protocol (`AdminService::joinCommands` of
`src/services/admin_service.cc`).

Two JSON texts are put together by their letters: the list of commands is cut out of the one at
its first closing bracket, and put into the other at the first place where `"commands"` stands,
whatever stands there.

* `joinCommands`: the text;
* `IsCommandList`, `HasCommands`, `Merges`: the list of a protocol, the commands of a device, and
  the object that the text should be of;
* `plugin_cut`, `device_cut`: how the parts are read;
* `Joinable`: the first bracket closes the list, and the first `"commands"` is the name of a list
  that is not empty, of no other than the device;
* `merges_iff_joinable`: the text is of the object for these texts, and for no others.
-/

namespace IotAgent

namespace JoinCommands

open JsonLexer JsonValue FirstOccurrence

/-! ### The text -/

/-- `"commands"`, with its quotes. -/
def commandsMark : List Char := quoted "commands".toList

/-- `find_last_of`, for one letter. -/
def findLast (c : Char) (s : List Char) : Option ℕ :=
  (find [c] s.reverse).map fun i => s.length - 1 - i

/-- `substr(ini + 1, fin - ini - 1)`. The length is unsigned, so it takes in all the rest where
`fin` is before `ini`. -/
def substrBetween (s : List Char) (ini fin : ℕ) : List Char :=
  if ini < fin then (s.drop (ini + 1)).take (fin - ini - 1) else s.drop (ini + 1)

/-- `resobj2`: what is between the first brace and the end of the commands, without their
closing bracket, or between the braces if there are no commands. -/
def resobj2 (obj2 : List Char) : List Char :=
  let commanditini2 := find ['\x7b'] obj2
  let commanditfin2 := match find commandsMark obj2 with
    | some commandit2 => findFrom [']'] commandit2 obj2
    | none => findLast '\x7d' obj2
  match commanditini2, commanditfin2 with
  | some ini, some fin => substrBetween obj2 ini fin
  | _, _ => []

/-- A part with a comma behind it, unless there is none. -/
def withComma (part : List Char) : List Char :=
  if part = [] then [] else part ++ [',']

/-- `joinCommands`. Where the device has the word and no opening bracket behind it, the result
is empty. -/
def joinCommands (obj1 obj2 : List Char) : List Char :=
  match find commandsMark obj1 with
  | some commandit =>
      match findFrom ['['] commandit obj1 with
      | some commanditf =>
          obj1.take commandit ++ withComma (resobj2 obj2) ++ obj1.drop (commanditf + 1)
      | none => []
  | none =>
      let part := if (find commandsMark obj2).isSome then resobj2 obj2 ++ [']'] else resobj2 obj2
      -- the position behind none is the first one
      '\x7b' :: withComma part ++
        obj1.drop (match find ['\x7b'] obj1 with | some i => i + 1 | none => 0)

/-! ### The object that it should be of -/

/-- The name of the commands. -/
def commandsName : List ℕ := units "commands".toList

/-- A text of a list of commands, as a protocol has it: an object with no other member, whose
name is written as it is. -/
structure IsCommandList (obj2 : List Char) (commands : List JsonValue) : Prop where
  reads : Reads obj2 (.object [(commandsName, .array commands)])
  literal : ∃ a b, obj2 = a ++ (commandsMark ++ b) ∧ lex a = some [.lbrace]

/-- The device has these commands of its own, or none and no member for them. -/
def HasCommands (members : List (List ℕ × JsonValue)) (own : List JsonValue) : Prop :=
  members.filter (·.1 = commandsName) = [] ∧ own = [] ∨
    members.filter (·.1 = commandsName) = [(commandsName, .array own)]

/-- A text of the device with the commands of the protocol and then its own, and with its other
members as they are. -/
def Merges (members : List (List ℕ × JsonValue)) (commands own : List JsonValue)
    (text : List Char) : Prop :=
  ∃ merged, Reads text (.object merged) ∧
    merged.Perm ((commandsName, .array (commands ++ own)) ::
      members.filter (·.1 ≠ commandsName))

/-- Behind the first closing bracket after the name there is only the closing brace. -/
def FirstBracketCloses (obj2 : List Char) : Prop :=
  ∃ commandit2 fin, find commandsMark obj2 = some commandit2 ∧
    findFrom [']'] commandit2 obj2 = some fin ∧ lex (obj2.drop (fin + 1)) = some [.rbrace]

/-- The first closing bracket is that of the list. A device without the word has members, and
none for commands; in one with it, the word is first the name of its commands, and neither these
nor those of the protocol are none. -/
def Joinable (obj1 obj2 : List Char) (members : List (List ℕ × JsonValue))
    (commands own : List JsonValue) : Prop :=
  FirstBracketCloses obj2 ∧
    match find commandsMark obj1 with
    | none => members ≠ [] ∧ members.filter (·.1 = commandsName) = []
    | some commandit => commands ≠ [] ∧ own ≠ [] ∧
        ∃ pre post l, members = pre ++ (commandsName, .array own) :: post ∧
          lex (obj1.take commandit) = some l ∧
          l ++ [.string commandsName, .colon] = tokensBefore pre commandsName

/-! ### The word -/

lemma plain_commands : ∀ c ∈ "commands".toList, JsonLexer.Plain c :=
  List.forall_iff_forall_mem.mp (by decide)

/-- No token begins with the first letter of the word. -/
lemma stepBetween_commands :
    ∀ c ∈ "commands".toList.head?, ∀ b, stepBetween b c = none := by
  have hhead : "commands".toList.head? = some 'c' := by decide
  rw [hhead]
  rintro c ⟨⟩
  decide

lemma notMem_commandsMark {c : Char} (hc : c ∈ marks) : c ∉ commandsMark := by
  have hall : ∀ c ∈ marks, c ∉ commandsMark := List.forall_iff_forall_mem.mp (by decide)
  exact hall c hc

/-! ### How the list of commands is cut -/

lemma notMem_of_blank {cs : List Char} {c : Char} (h : Blank cs) (hc : isSpace c = false) :
    c ∉ cs := fun hmem => by
  rw [h c hmem] at hc
  cases hc

/-- How the part of a list of commands behind the name is read: it ends before the bracket that
closes the list, before one of an array in the list, or in a string. -/
inductive PluginCut (obj2 : List Char) (commands : List JsonValue) (b : List Char) : Prop
  | closed (hcloses : FirstBracketCloses obj2)
      (hb : lex b = some (.colon :: .lbracket :: itemsTokens commands))
  | nested (hcloses : ¬ FirstBracketCloses obj2) (p : List Token)
      (hb : lex b = some (.colon :: p)) (hdepth : ∀ β, 0 ≤ β → 2 ≤ depth β p)
  | inString (hcloses : ¬ FirstBracketCloses obj2) (read : List ℕ) (l : List Token)
      (hb : run (.between false) b = some (.text read, l))
      (hdepth : ∀ β, 0 ≤ β → 1 ≤ depth β l)

variable {obj1 obj2 a b c x y z : List Char} {commands own : List JsonValue}
  {members : List (List ℕ × JsonValue)}

/-- The texts of a list that is cut at its first closing bracket. -/
lemma resobj2_eq {ws : List Char} (hws : Blank ws) (ha : Blank a) (hb : ']' ∉ b)
    (hobj2 : obj2 = (ws ++ '\x7b' :: a) ++ (commandsMark ++ (b ++ ']' :: c))) :
    (find commandsMark obj2).isSome = true ∧ resobj2 obj2 = a ++ (commandsMark ++ b) ∧
      (FirstBracketCloses obj2 ↔ lex c = some [.rbrace]) := by
  have hbrace : obj2 = ws ++ '\x7b' :: ((a ++ (commandsMark ++ b)) ++ ']' :: c) := by
    rw [hobj2]
    simp only [List.append_assoc, List.cons_append]
  have hbracket : obj2 = (ws ++ '\x7b' :: a) ++ ((commandsMark ++ b) ++ ']' :: c) := by
    rw [hobj2, List.append_assoc commandsMark]
  have hquote : '"' ∉ ws ++ '\x7b' :: a := by
    rw [List.mem_append, List.mem_cons, not_or, not_or]
    exact ⟨notMem_of_blank hws rfl, by decide, notMem_of_blank ha rfl⟩
  have hit : find commandsMark obj2 = some (ws ++ '\x7b' :: a).length := by
    rw [hobj2]
    exact find_of_notMem hquote ("commands".toList ++ ['"']) (b ++ ']' :: c)
  have hini : find ['\x7b'] obj2 = some ws.length := by
    rw [hbrace]
    exact find_element (notMem_of_blank hws rfl) _
  have hfin : findFrom [']'] (ws ++ '\x7b' :: a).length obj2
      = some ((commandsMark ++ b).length + (ws ++ '\x7b' :: a).length) := by
    rw [hbracket]
    refine findFrom_element _ ?_ c
    rw [List.mem_append, not_or]
    exact ⟨notMem_commandsMark (by decide), hb⟩
  have hbehind : obj2.drop ((commandsMark ++ b).length + (ws ++ '\x7b' :: a).length + 1) = c := by
    rw [hbracket]
    exact drop_behind_from _ _ _ _
  refine ⟨by rw [hit]; rfl, ?_, ?_⟩
  · have hlen : (commandsMark ++ b).length + (ws ++ '\x7b' :: a).length
        = ws.length + 1 + (a ++ (commandsMark ++ b)).length := by
      simp only [List.length_append, List.length_cons]
      omega
    have hdrop : obj2.drop (ws.length + 1) = (a ++ (commandsMark ++ b)) ++ ']' :: c := by
      rw [hbrace]
      exact drop_behind _ _ _
    rw [resobj2, hini, hit]
    simp only [hfin]
    rw [substrBetween, if_pos (by omega), hdrop, hlen, Nat.add_assoc, Nat.add_sub_cancel_left,
      Nat.add_sub_cancel_left, List.take_left]
  · constructor
    · rintro ⟨it, fin, hit', hfin', hlex⟩
      obtain rfl := Option.some.inj (hit.symm.trans hit')
      obtain rfl := Option.some.inj (hfin.symm.trans hfin')
      rwa [hbehind] at hlex
    · intro hlex
      exact ⟨_, _, hit, hfin, by rwa [hbehind]⟩

/-- Tokens up to one that is not the last belong to the list. -/
lemma cut_at_token {q rest : List Token} {tok : Token} (hcolon : tok ≠ .colon)
    (hopen : tok ≠ .lbracket) (hbrace : tok ≠ .rbrace)
    (h : q ++ tok :: rest = .colon :: ((array commands).tokens ++ [.rbrace])) :
    ∃ p s, q = .colon :: p ∧ p ≠ [] ∧ (array commands).tokens = p ++ tok :: s ∧
      rest = s ++ [.rbrace] := by
  cases q with
  | nil => exact absurd (List.cons.inj h).1 hcolon
  | cons t p =>
      obtain ⟨rfl, hp⟩ := List.cons.inj h
      have hne : p ≠ [] := by
        rintro rfl
        rw [tokens_array] at hp
        exact hopen (List.cons.inj hp).1
      obtain ⟨s, hs, hrest⟩ | ⟨s, hs, hrest⟩ := List.append_eq_append_iff.mp hp
      · cases s with
        | nil => exact absurd (List.cons.inj hrest).1 hbrace
        | cons t s =>
            obtain ⟨rfl, htail⟩ := List.cons.inj hrest
            exact ⟨p, s, rfl, hne, hs, htail⟩
      · cases s with
        | nil => exact absurd (List.cons.inj hrest).1.symm hbrace
        | cons t s => cases s <;> cases (List.cons.inj hrest).2

/-- **How a list is cut** at its first closing bracket, and how its part behind the name is
read. -/
theorem plugin_cut (h : IsCommandList obj2 commands) :
    ∃ a b, Blank a ∧ (find commandsMark obj2).isSome = true ∧
      resobj2 obj2 = a ++ (commandsMark ++ b) ∧ PluginCut obj2 commands b := by
  obtain ⟨start, rest, rfl, hstart⟩ := h.literal
  obtain ⟨ws, a, rfl, hws, ha⟩ := lexFrom_punctuation (d := '\x7b') rfl hstart
  have hread : (lex rest).map (([.lbrace] ++ [Token.string commandsName]) ++ ·)
      = some (object [(commandsName, .array commands)]).tokens :=
    (lexFrom_quoted plain_commands hstart (fun _ h => absurd h List.not_mem_nil) rest).symm.trans
      h.reads
  rw [tokens, restMembers, List.nil_append] at hread
  have hrest : lex rest = some (.colon :: ((array commands).tokens ++ [.rbrace])) :=
    map_append_eq_some_iff.mp hread
  have hmem : ']' ∈ rest := mem_of_punctuation_mem (d := ']') rfl hrest (by
    rw [tokens_array]
    simp)
  obtain ⟨b, c, rfl, hb⟩ := List.eq_append_cons_of_mem hmem
  obtain ⟨hsome, hres, hcloses⟩ := resobj2_eq hws (blank_of_lexFrom ha) hb rfl
  refine ⟨a, b, blank_of_lexFrom ha, hsome, hres, ?_⟩
  obtain ⟨m, l, l', hrun, hbehind, hsplit⟩ := lexFrom_append_eq_some hrest
  obtain ⟨m₂, l₂, l₂', hstep, hc, rfl⟩ := lexFrom_cons_eq_some hbehind
  obtain ⟨read, rfl, hr⟩ | ⟨l₃, hended, hr⟩ := step_punctuation_cases (c := ']') rfl hstep
  · -- the bracket stands in a string, and what is behind it is no end of a text between tokens
    obtain ⟨rfl, rfl⟩ := Prod.mk.inj hr
    obtain ⟨-, us, -, ts', -, -, rfl, -⟩ := lexFrom_text hc
    obtain ⟨p, s, rfl, hne, hs, -⟩ := cut_at_token (by simp) (by simp) (by simp) hsplit.symm
    refine .inString (fun h => ?_) read _ hrun (fun β hβ => ?_)
    · rw [lexFrom_text_of_between (hcloses.mp h)] at hc
      cases hc
    · rw [depth_cons, weight, zero_add]
      exact depth_array_pos hβ hs hne (List.cons_ne_nil _ _)
  · obtain ⟨rfl, rfl⟩ := Prod.mk.inj hr
    have hlex : lex b = some (l ++ l₃) := by
      rw [lex, lexFrom_eq_run, hrun, Option.bind_some, hended]
      rfl
    have htokens : (l ++ l₃) ++ .rbracket :: l₂'
        = .colon :: ((array commands).tokens ++ [.rbrace]) := by
      rw [hsplit]
      simp only [List.append_assoc, List.singleton_append]
    obtain ⟨p, s, hp, hne, hs, rfl⟩ := cut_at_token (by simp) (by simp) (by simp) htokens
    rw [hp] at hlex
    by_cases hnil : s = []
    · subst hnil
      rw [tokens_array, ← List.cons_append] at hs
      rw [← List.append_cancel_right hs] at hlex
      exact .closed (hcloses.mpr hc) hlex
    · refine .nested (fun h => hnil ?_) p hlex (fun β hβ => ?_)
      · exact List.append_cancel_right (Option.some.inj (hc.symm.trans (hcloses.mp h)))
      · have hpos := depth_array_pos hβ (p := p ++ [.rbracket]) (s := s)
          (by rw [hs, List.append_assoc, List.singleton_append]) (by simp) hnil
        rw [depth_append, depth_cons, depth_nil, weight] at hpos
        omega

/-! ### Members that have the commands in front -/

/-- The commands of an object in which they are once. -/
lemma HasCommands.perm {merged : List (List ℕ × JsonValue)}
    (h : merged.Perm ((commandsName, .array (commands ++ own)) ::
      members.filter (·.1 ≠ commandsName))) :
    merged.filter (·.1 = commandsName) = [(commandsName, .array (commands ++ own))] := by
  have hfilter := h.filter fun m => m.1 = commandsName
  have hnone : (members.filter (·.1 ≠ commandsName)).filter (·.1 = commandsName) = [] := by
    rw [List.filter_eq_nil_iff]
    intro m hm
    simpa using List.of_mem_filter hm
  rw [List.filter_cons_of_pos (by simp), hnone] at hfilter
  exact List.perm_singleton.mp hfilter

/-- The commands of the device are those of its one member for them. -/
lemma HasCommands.split (h : HasCommands members own)
    (hne : members.filter (·.1 = commandsName) ≠ []) :
    members.Perm ((commandsName, .array own) :: members.filter (·.1 ≠ commandsName)) := by
  obtain ⟨hnil, -⟩ | hone := h
  · exact absurd hnil hne
  · have hperm := List.filter_append_perm (fun m => decide (m.1 = commandsName)) members
    rw [hone] at hperm
    simpa using hperm.symm

lemma HasCommands.eq_nil (h : HasCommands members own)
    (hnil : members.filter (·.1 = commandsName) = []) : own = [] := by
  obtain ⟨-, hown⟩ | hone := h
  · exact hown
  · rw [hone] at hnil
    cases hnil

/-- Without commands all members are others. -/
lemma filter_ne_of_nil (hnil : members.filter (·.1 = commandsName) = []) :
    members.filter (·.1 ≠ commandsName) = members := by
  rw [List.filter_eq_self]
  intro m hm
  simpa using List.filter_eq_nil_iff.mp hnil m hm

/-- A device without commands, with those of the protocol in front. -/
lemma merges_front_iff {text : List Char} (hown : HasCommands members own)
    (hlex : lex text = some (tokensBefore [] commandsName ++
      ((array commands).tokens ++ .comma :: (membersTokens members ++ [.rbrace])))) :
    Merges members commands own text ↔
      members ≠ [] ∧ members.filter (·.1 = commandsName) = [] := by
  constructor
  · rintro ⟨merged, hreads, hperm⟩
    obtain ⟨v, tail, rfl, hrest⟩ :=
      tokensBefore_append_iff.mp (Option.some.inj (hlex.symm.trans hreads))
    obtain ⟨rfl, htokens⟩ := tokens_append_inj (array commands) v hrest
    have hone := HasCommands.perm hperm
    rw [List.nil_append, List.filter_cons_of_pos (by simp)] at hone
    have hne : members ≠ [] := by
      rintro rfl
      match tail with
      | [] => cases htokens
      | (k, v) :: tail => cases (List.cons.inj htokens).2
    have htail : members = tail := by
      obtain ⟨⟨k, v⟩, ms, rfl⟩ := List.exists_cons_of_ne_nil hne
      exact (restMembers_append_inj ((k, v) :: ms) tail htokens).1
    rw [htail]
    exact ⟨htail ▸ hne, (List.cons.inj hone).2⟩
  · rintro ⟨hne, hnil⟩
    refine ⟨(commandsName, .array commands) :: members, ?_, ?_⟩
    · rw [Reads, hlex]
      refine congrArg some (tokensBefore_append_iff.mpr ⟨_, members, rfl, ?_⟩)
      obtain ⟨⟨k, v⟩, ms, rfl⟩ := List.exists_cons_of_ne_nil hne
      rfl
    · rw [filter_ne_of_nil hnil, hown.eq_nil hnil, List.append_nil]

/-! ### Where the commands went -/

lemma length_object_le (ms : List (List ℕ × JsonValue)) :
    (object ms).tokens.length ≤ (restMembers ms).length + 2 := by
  cases ms with
  | nil => simp [tokens]
  | cons member ms =>
      rw [tokens, restMembers]
      simp only [List.length_cons, List.length_append, List.length_nil]
      omega

/-- The tokens of the items of two lists, but for a comma between them. -/
lemma count_itemsTokens_append {tok : Token} (htok : tok ≠ .comma) (vs ws : List JsonValue) :
    (itemsTokens (vs ++ ws)).count tok
      = (itemsTokens vs).count tok + (itemsTokens ws).count tok := by
  by_cases hvs : vs = []
  · rw [hvs, List.nil_append, itemsTokens, List.count_nil, Nat.zero_add]
  by_cases hws : ws = []
  · rw [hws, List.append_nil, itemsTokens, List.count_nil, Nat.add_zero]
  · rw [itemsTokens_append hvs hws, List.count_append, List.count_cons_of_ne htok.symm]

lemma length_itemsTokens_append (vs ws : List JsonValue) :
    (itemsTokens (vs ++ ws)).length = (itemsTokens vs).length + (itemsTokens ws).length +
      if vs = [] ∨ ws = [] then 0 else 1 := by
  by_cases hvs : vs = []
  · simp [hvs, itemsTokens]
  by_cases hws : ws = []
  · simp [hws, itemsTokens]
  · rw [itemsTokens_append hvs hws, List.length_append, List.length_cons,
      if_neg (by simp [hvs, hws])]
    omega

/-- The tokens of the device up to the bracket at which it was cut, and of a text with the list
of commands in their place. If the text is of the object that it should be of, the device has
commands, and one token is left out. -/
lemma length_between {merged : List (List ℕ × JsonValue)} {l Y Z : List Token} {k : List ℕ}
    (hown : HasCommands members own)
    (hdev : (object members).tokens = l ++ .string k :: (Y ++ .lbracket :: Z))
    (hmerged : (object merged).tokens =
      l ++ .string k :: .colon :: .lbracket :: (itemsTokens commands ++ .comma :: Z))
    (hperm : merged.Perm ((commandsName, .array (commands ++ own)) ::
      members.filter (·.1 ≠ commandsName))) :
    members.filter (·.1 = commandsName) ≠ [] ∧
      Y.length + (if commands = [] ∨ own = [] then 0 else 1) = 2 ∧
      Y.count .colon = 1 := by
  have htokens := tokens_perm hperm
  have hlength := htokens.length_eq
  have hcolons := htokens.count_eq .colon
  have hne : members.filter (·.1 = commandsName) ≠ [] := by
    intro hnil
    -- the text has fewer tokens than the device with one more member
    have hle := length_object_le members
    rw [filter_ne_of_nil hnil, hown.eq_nil hnil, List.append_nil, hmerged, tokens, tokens_array]
      at hlength
    rw [hdev] at hle
    simp only [List.length_cons, List.length_append, List.length_nil] at hlength hle
    omega
  have hold := tokens_perm (hown.split hne)
  have holdLength := hold.length_eq
  have holdColons := hold.count_eq .colon
  rw [hdev, tokens, tokens_array] at holdLength holdColons
  rw [hmerged, tokens, tokens_array] at hlength hcolons
  refine ⟨hne, ?_, ?_⟩
  · simp only [List.length_cons, List.length_append, List.length_nil,
      length_itemsTokens_append] at hlength holdLength
    omega
  · simp [count_itemsTokens_append] at hcolons holdColons
    omega

/-- Two tokens between a string and an opening bracket: one of them would be a colon. -/
lemma follows_contra {t u : Token} {units : List ℕ} (ht : Follows (.string units) t)
    (hu : Follows t u) (hopen : Follows u .lbracket) (hne : u ≠ .lbracket)
    (hcolon : [t, u].count .colon = 1) : False := by
  have hcomma : u = .colon ∨ u = .comma := by
    cases u <;> simp_all [Follows, Opens]
  have hbefore : t = .colon ∨ t = .comma ∨ t = .rbrace ∨ t = .rbracket := ht
  rcases hbefore with rfl | rfl | rfl | rfl <;> rcases hcomma with rfl | rfl <;>
    simp_all [Follows, Opens]

lemma eq_of_append_cons_eq_singleton {α : Type} {p q : List α} {x y : α}
    (h : p ++ x :: q = [y]) : x = y := by
  cases p with
  | nil => exact (List.cons.inj h).1
  | cons z p => cases p <;> cases (List.cons.inj h).2

/-- Items that are put behind a bracket of an array come to its front only behind the first
one. -/
lemma front_of_insert {a b : List Token} (hcommands : commands ≠ []) (hown : own ≠ [])
    (h : (array own).tokens = a ++ .lbracket :: b)
    (h' : (array (commands ++ own)).tokens =
      a ++ .lbracket :: ((itemsTokens commands ++ [.comma]) ++ b)) : a = [] := by
  rw [tokens_array] at h
  rw [tokens_array, itemsTokens_append hcommands hown] at h'
  cases a with
  | nil => rfl
  | cons t a =>
      -- behind another one the new items would end with a bracket and with a comma
      have hb : itemsTokens own ++ [.rbracket] = a ++ .lbracket :: b := (List.cons.inj h).2
      have hb' : (itemsTokens commands ++ .comma :: itemsTokens own) ++ [.rbracket]
          = a ++ .lbracket :: ((itemsTokens commands ++ [.comma]) ++ b) := (List.cons.inj h').2
      have hsplit : ((itemsTokens commands ++ .comma :: a) ++ [.lbracket]) ++ b
          = ((a ++ .lbracket :: itemsTokens commands) ++ [.comma]) ++ b := by
        calc ((itemsTokens commands ++ .comma :: a) ++ [.lbracket]) ++ b
            = itemsTokens commands ++ .comma :: (a ++ .lbracket :: b) := by simp
          _ = (itemsTokens commands ++ .comma :: itemsTokens own) ++ [.rbracket] := by
              rw [← hb]
              simp
          _ = ((a ++ .lbracket :: itemsTokens commands) ++ [.comma]) ++ b := by
              rw [hb']
              simp
      cases (List.append_inj' (List.append_cancel_right hsplit) rfl).2

/-- The one token that is left out is a colon, and there are commands on both sides. -/
lemma eq_colon_between {merged : List (List ℕ × JsonValue)} {l Y Z : List Token} {k : List ℕ}
    (hown : HasCommands members own)
    (hdev : (object members).tokens = l ++ .string k :: (Y ++ .lbracket :: Z))
    (hY : .lbracket ∉ Y)
    (hmerged : (object merged).tokens =
      l ++ .string k :: .colon :: .lbracket :: (itemsTokens commands ++ .comma :: Z))
    (hperm : merged.Perm ((commandsName, .array (commands ++ own)) ::
      members.filter (·.1 ≠ commandsName))) :
    commands ≠ [] ∧ own ≠ [] ∧ Y = [.colon] := by
  obtain ⟨-, hlength, hcolon⟩ := length_between hown hdev hmerged hperm
  have hchain : (Token.string k :: (Y ++ .lbracket :: Z)).IsChain Follows := by
    have hall := isChain_tokens (object members)
    rw [hdev] at hall
    exact (List.isChain_append.mp hall).2.1
  have hboth : ¬ (commands = [] ∨ own = []) := by
    intro hnil
    rw [if_pos hnil] at hlength
    obtain ⟨t, u, rfl⟩ := List.length_eq_two.mp hlength
    obtain ⟨ht, hchain⟩ := List.isChain_cons_cons.mp hchain
    obtain ⟨hu, hchain⟩ := List.isChain_cons_cons.mp hchain
    obtain ⟨hopen, -⟩ := List.isChain_cons_cons.mp hchain
    refine follows_contra ht hu hopen (fun h => hY ?_) hcolon
    rw [h]
    simp
  rw [if_neg hboth] at hlength
  obtain ⟨hcommands, hownNe⟩ := not_or.mp hboth
  obtain ⟨t, rfl⟩ := List.length_eq_one_iff.mp (Nat.succ_injective hlength)
  obtain rfl : t = .colon := by simpa [List.count_singleton] using hcolon
  exact ⟨hcommands, hownNe, rfl⟩

/-- **The place that is found by the tokens.** If the text is of the object that it should be of,
the device was cut behind the name of its commands, and neither they nor those of the protocol
are none. -/
theorem named_of_tokens {merged : List (List ℕ × JsonValue)} {l Y Z : List Token} {k : List ℕ}
    (hown : HasCommands members own)
    (hdev : (object members).tokens = l ++ .string k :: (Y ++ .lbracket :: Z))
    (hY : .lbracket ∉ Y)
    (hmerged : (object merged).tokens =
      l ++ .string k :: .colon :: .lbracket :: (itemsTokens commands ++ .comma :: Z))
    (hperm : merged.Perm ((commandsName, .array (commands ++ own)) ::
      members.filter (·.1 ≠ commandsName))) :
    commands ≠ [] ∧ own ≠ [] ∧ ∃ pre post, members = pre ++ (commandsName, .array own) :: post ∧
      l ++ [.string k, .colon] = tokensBefore pre commandsName := by
  obtain ⟨hne, -⟩ := length_between hown hdev hmerged hperm
  obtain ⟨hcommands, hownNe, rfl⟩ := eq_colon_between hown hdev hY hmerged hperm
  refine ⟨hcommands, hownNe, ?_⟩
  have hw : Balanced 1 (itemsTokens commands ++ [Token.comma]) :=
    (balanced_itemsTokens zero_le_one commands).append (.cons rfl .nil)
  obtain ⟨pre, name, v, v', post, a, b, rfl, rfl, hp, hv, hv'⟩ :=
    exists_member_of_insert (p := l ++ [.string k, .colon]) (s := Z) hw
      (by rw [hdev]; simp) (by rw [hmerged]; simp)
  have hold : (pre ++ (name, v) :: post).filter (·.1 = commandsName)
      = [(commandsName, .array own)] := hown.resolve_left fun h => hne h.1
  have hnew := HasCommands.perm hperm
  rw [List.filter_append] at hold hnew
  by_cases hname : name = commandsName
  · subst hname
    rw [List.filter_cons_of_pos (by simp)] at hold hnew
    obtain rfl : v = .array own := (Prod.mk.inj (eq_of_append_cons_eq_singleton hold)).2
    obtain rfl : v' = .array (commands ++ own) :=
      (Prod.mk.inj (eq_of_append_cons_eq_singleton hnew)).2
    have ha := front_of_insert hcommands hownNe hv hv'
    refine ⟨pre, post, rfl, ?_⟩
    rw [ha, List.append_nil] at hp
    exact hp
  · -- another member was changed, so the commands would be those of the device
    rw [List.filter_cons_of_neg (by simpa using hname)] at hold hnew
    have hsame : own = commands ++ own := by
      have := hold.symm.trans hnew
      simpa using this
    exact absurd (by simpa using hsame) hcommands

/-! ### A device without the word -/

lemma joinCommands_of_none {ws : List Char} (hnone : find commandsMark (ws ++ '\x7b' :: c) = none)
    (hws : Blank ws) (hsome : (find commandsMark obj2).isSome = true) :
    joinCommands (ws ++ '\x7b' :: c) obj2 = '\x7b' :: (resobj2 obj2 ++ ']' :: ',' :: c) := by
  have hini : find ['\x7b'] (ws ++ '\x7b' :: c) = some ws.length :=
    find_element (notMem_of_blank hws rfl) c
  rw [joinCommands, hnone]
  simp only [hsome, hini, if_true, drop_behind]
  rw [withComma, if_neg (by simp)]
  simp

/-- The text of a device without the word is of the object that it should be of if the list is
cut at its end and the device has members and no commands. -/
theorem merges_iff_of_none (hlist : IsCommandList obj2 commands)
    (hdev : Reads obj1 (.object members)) (hown : HasCommands members own)
    (hnone : find commandsMark obj1 = none) :
    Merges members commands own (joinCommands obj1 obj2) ↔
      FirstBracketCloses obj2 ∧ members ≠ [] ∧ members.filter (·.1 = commandsName) = [] := by
  obtain ⟨a, b, ha, hsome, hres, hcut⟩ := plugin_cut hlist
  rw [Reads, tokens_object_eq] at hdev
  obtain ⟨ws, c, rfl, hws, hc⟩ := lexFrom_punctuation (d := '\x7b') rfl hdev
  have hbrace : lexFrom (.between false) ['\x7b'] = some [.lbrace] := rfl
  have htext : joinCommands (ws ++ '\x7b' :: c) obj2
      = ['\x7b'] ++ (a ++ (commandsMark ++ (b ++ ']' :: ',' :: c))) := by
    rw [joinCommands_of_none hnone hws hsome, hres]
    simp
  have hlex : lex (joinCommands (ws ++ '\x7b' :: c) obj2)
      = (lexFrom (.between false) (b ++ ']' :: ',' :: c)).map
          (([.lbrace] ++ [.string commandsName]) ++ ·) := by
    rw [htext]
    exact lexFrom_quoted plain_commands hbrace ha _
  have hcomma : lexFrom (.between false) (',' :: c)
      = some (.comma :: (membersTokens members ++ [.rbrace])) := by
    have hstep : step (.between false) ',' = some (.between false, [.comma]) := rfl
    rw [lexFrom_cons_of_step hstep, hc]
    rfl
  cases hcut with
  | closed hcloses hb =>
      rw [lexFrom_append_punctuation hb (c := ']') rfl, hcomma] at hlex
      rw [and_iff_right hcloses]
      refine merges_front_iff hown (hlex.trans ?_)
      rw [tokensBefore, if_pos rfl, tokens_array]
      simp
  | nested hcloses p hb hdepth =>
      refine iff_of_false ?_ (fun h => hcloses h.1)
      rintro ⟨merged, hreads, -⟩
      rw [lexFrom_append_punctuation hb (c := ']') rfl, hcomma] at hlex
      have htokens := Option.some.inj (hreads.symm.trans hlex)
      have hsum := (balanced_tokens zero_le_one (object merged)).1
      have hmembers := (balanced_membersTokens zero_le_one members).1
      have htwo := hdepth 1 zero_le_one
      rw [htokens] at hsum
      simp only [depth_append, depth_cons, depth_nil, weight, hmembers] at hsum
      omega
  | inString hcloses read l hb hdepth =>
      refine iff_of_false ?_ (fun h => hcloses h.1)
      rintro ⟨merged, hreads, -⟩
      have hstep : step (.between false) ']' = some (.between false, [.rbracket]) := rfl
      have hbehind : lexFrom (.between false) (']' :: ',' :: c)
          = some (.rbracket :: .comma :: (membersTokens members ++ [.rbrace])) := by
        rw [lexFrom_cons_of_step hstep, hcomma]
        rfl
      rw [lexFrom_append_of_run hb, lexFrom_text_of_between hbehind] at hlex
      cases hlex.symm.trans hreads

/-! ### A device with the word -/

lemma joinCommands_of_some (obj2 : List Char)
    (hsome : find commandsMark (x ++ (commandsMark ++ y)) = some x.length)
    (hres : resobj2 obj2 ≠ []) :
    ('[' ∉ y → joinCommands (x ++ (commandsMark ++ y)) obj2 = []) ∧
      ∀ y₁ z, y = y₁ ++ '[' :: z → '[' ∉ y₁ →
        joinCommands (x ++ (commandsMark ++ y)) obj2 = x ++ (resobj2 obj2 ++ ',' :: z) := by
  have hmark : ∀ y, '[' ∉ y → '[' ∉ commandsMark ++ y := fun y hy => by
    rw [List.mem_append, not_or]
    exact ⟨notMem_commandsMark (by decide), hy⟩
  constructor
  · intro hy
    rw [joinCommands, hsome]
    simp only [findFrom_eq_none x (hmark y hy)]
  · rintro y₁ z rfl hy₁
    have hsplit : x ++ (commandsMark ++ (y₁ ++ '[' :: z))
        = x ++ ((commandsMark ++ y₁) ++ '[' :: z) := by
      rw [List.append_assoc commandsMark]
    rw [joinCommands, hsome, hsplit]
    simp only [findFrom_element x (hmark y₁ hy₁), drop_behind_from, List.take_left]
    rw [withComma, if_neg hres]
    simp only [List.append_assoc, List.singleton_append]

/-- The text behind the name of the commands. -/
lemma lex_behind_name {pre post : List (List ℕ × JsonValue)} {l : List Token}
    (hread : Reads (x ++ (commandsMark ++ y))
      (.object (pre ++ (commandsName, .array own) :: post)))
    (hx : lex x = some l) (hname : l ++ [.string commandsName, .colon] =
      tokensBefore pre commandsName) :
    lex y = some (.colon :: ((array own).tokens ++ (restMembers post ++ [.rbrace]))) := by
  have htokens : (object (pre ++ (commandsName, .array own) :: post)).tokens
      = (l ++ [.string commandsName]) ++
        (.colon :: ((array own).tokens ++ (restMembers post ++ [.rbrace]))) := by
    rw [← tokensBefore_append_iff.mpr ⟨array own, post, rfl, rfl⟩, ← hname]
    simp
  have hlex : lex (x ++ (commandsMark ++ y))
      = (lex y).map ((l ++ [.string commandsName]) ++ ·) :=
    lexFrom_quoted plain_commands hx (fun _ h => absurd h List.not_mem_nil) y
  rw [Reads, hlex, htokens] at hread
  exact map_append_eq_some_iff.mp hread

/-- Where the word is the name of the commands, the list is put in front of them. -/
lemma merges_of_named {pre post : List (List ℕ × JsonValue)} {l : List Token}
    (hlist : IsCommandList obj2 commands) (hcloses : FirstBracketCloses obj2)
    (hcommands : commands ≠ []) (hownNe : own ≠ [])
    (hread : Reads (x ++ (commandsMark ++ y))
      (.object (pre ++ (commandsName, .array own) :: post)))
    (hown : HasCommands (pre ++ (commandsName, .array own) :: post) own)
    (hsome : find commandsMark (x ++ (commandsMark ++ y)) = some x.length)
    (hx : lex x = some l) (hname : l ++ [.string commandsName, .colon] =
      tokensBefore pre commandsName) :
    Merges (pre ++ (commandsName, .array own) :: post) commands own
      (joinCommands (x ++ (commandsMark ++ y)) obj2) := by
  obtain ⟨a, b, ha, -, hres, hcut⟩ := plugin_cut hlist
  have hb : lex b = some (.colon :: .lbracket :: itemsTokens commands) := by
    cases hcut with
    | closed _ hb => exact hb
    | nested hnot _ _ _ => exact absurd hcloses hnot
    | inString hnot _ _ _ _ => exact absurd hcloses hnot
  have hy := lex_behind_name hread hx hname
  obtain ⟨w₁, y', rfl, hw₁, hy'⟩ := lexFrom_punctuation (d := ':') rfl hy
  rw [tokens_array, List.cons_append] at hy'
  obtain ⟨w₂, z, rfl, hw₂, hz⟩ := lexFrom_punctuation (d := '[') rfl hy'
  have hbracket : '[' ∉ w₁ ++ ':' :: w₂ := by
    rw [List.mem_append, List.mem_cons, not_or, not_or]
    exact ⟨notMem_of_blank hw₁ rfl, by decide, notMem_of_blank hw₂ rfl⟩
  have htext := (joinCommands_of_some obj2 hsome (by rw [hres]; simp [commandsMark,
    quoted])).2 (w₁ ++ ':' :: w₂) z (by simp) hbracket
  have hlex : lex (joinCommands (x ++ (commandsMark ++ (w₁ ++ ':' :: (w₂ ++ '[' :: z)))) obj2)
      = (lexFrom (.between false) (b ++ ',' :: z)).map ((l ++ [.string commandsName]) ++ ·) := by
    rw [htext, hres, List.append_assoc, List.append_assoc]
    exact lexFrom_quoted plain_commands hx ha (b ++ ',' :: z)
  rw [lexFrom_append_punctuation hb (c := ',') rfl, hz] at hlex
  refine ⟨pre ++ (commandsName, .array (commands ++ own)) :: post, ?_, ?_⟩
  · rw [Reads, hlex, ← tokensBefore_append_iff.mpr ⟨_, post, rfl, rfl⟩, ← hname, tokens_array,
      itemsTokens_append hcommands hownNe]
    simp
  · have hne : (pre ++ (commandsName, .array own) :: post).filter (·.1 = commandsName) ≠ [] :=
      List.ne_nil_of_mem (List.mem_filter.mpr
        ⟨List.mem_append_right pre List.mem_cons_self, by simp⟩)
    have hothers := (List.perm_middle.symm.trans (hown.split hne)).cons_inv
    exact List.perm_middle.trans (hothers.cons _)

/-- A device that is cut behind the word: before an opening bracket between its tokens, or before
one in a string. -/
lemma device_cut {ts : List Token} (hy : lex (y ++ '[' :: z) = some ts) (hbracket : '[' ∉ y) :
    (∃ Y Z, lex y = some Y ∧ lex z = some Z ∧ ts = Y ++ .lbracket :: Z ∧ .lbracket ∉ Y) ∨
      ∃ read read' l Z, run (.between false) y = some (.text read, l) ∧
        lexFrom (.text read') z = some Z ∧ ts = l ++ Z ∧ .lbracket ∉ l := by
  obtain ⟨m, l, l', hrun, hbehind, rfl⟩ := lexFrom_append_eq_some hy
  obtain ⟨m₂, l₂, Z, hstep, hz, rfl⟩ := lexFrom_cons_eq_some hbehind
  have hl : .lbracket ∉ l := punctuation_notMem_run (d := '[') rfl hrun hbracket
  obtain ⟨read, rfl, hr⟩ | ⟨l₃, hended, hr⟩ := step_punctuation_cases (c := '[') rfl hstep
  · obtain ⟨rfl, rfl⟩ := Prod.mk.inj hr
    exact .inr ⟨read, _, l, Z, hrun, hz, rfl, hl⟩
  · obtain ⟨rfl, rfl⟩ := Prod.mk.inj hr
    have hl₃ : .lbracket ∉ l₃ := punctuation_notMem_ended (d := '[') rfl hended
    refine .inl ⟨l ++ l₃, Z, ?_, hz, by simp, by simp [hl, hl₃]⟩
    rw [lex, lexFrom_eq_run, hrun, Option.bind_some, hended]
    rfl

/-- Without opening brackets the depth of brackets does not grow. -/
lemma depth_le_zero {l : List Token} (h : .lbracket ∉ l) : depth 0 l ≤ 0 := by
  induction l with
  | nil => exact le_refl 0
  | cons t l ih =>
      obtain ⟨ht, hl⟩ := not_or.mp (List.mem_cons.not.mp h)
      have hrest := ih hl
      have hweight : weight 0 t ≤ 0 := by
        cases t with
        | lbracket => exact absurd rfl ht
        | rbracket => decide
        | lbrace | rbrace | colon | comma | string us | number text | word w => exact le_refl 0
      rw [depth_cons]
      omega

/-- Both cut between two tokens: what is behind the cuts has the same tokens. -/
lemma cut_outside {q ts ts' : List Token} (hb : lex b = some q)
    (hy : lex (y ++ '[' :: z) = some ts) (hbracket : '[' ∉ y)
    (h : lex (b ++ ',' :: z) = some ts') :
    ∃ Y Z, ts = Y ++ .lbracket :: Z ∧ .lbracket ∉ Y ∧ ts' = q ++ .comma :: Z := by
  rw [lex, lexFrom_append_punctuation hb (c := ',') rfl] at h
  obtain ⟨Z', hZ', rfl⟩ := Option.map_eq_some_iff.mp h
  obtain ⟨Y, Z, -, hZ, rfl, hY⟩ | ⟨read, read', l, Z, -, hZ, -, -⟩ := device_cut hy hbracket
  · obtain rfl := Option.some.inj (hZ.symm.trans hZ')
    exact ⟨Y, Z, rfl, hY, by simp⟩
  · rw [lexFrom_text_of_between hZ'] at hZ
    cases hZ

/-- The list cut in a string: what is behind the cuts is the end of a string in both. -/
lemma cut_inString {l ts ts' : List Token} {read : List ℕ}
    (hb : run (.between false) b = some (.text read, l))
    (hy : lex (y ++ '[' :: z) = some ts) (hbracket : '[' ∉ y)
    (h : lex (b ++ ',' :: z) = some ts') :
    ∃ Y us us' rest, ts = Y ++ .string us :: rest ∧ .lbracket ∉ Y ∧
      ts' = l ++ .string us' :: rest := by
  rw [lex, lexFrom_append_of_run hb] at h
  obtain ⟨t', ht', rfl⟩ := Option.map_eq_some_iff.mp h
  obtain ⟨m, l₁, Z', hstep, hZ', rfl⟩ := lexFrom_cons_eq_some ht'
  obtain ⟨rfl, rfl⟩ := Prod.mk.inj (Option.some.inj hstep)
  obtain ⟨Y, Z, -, hZ, -, -⟩ | ⟨read₁, read₂, Y, Z, -, hZ, rfl, hY⟩ := device_cut hy hbracket
  · rw [lexFrom_text_of_between hZ] at hZ'
    cases hZ'
  · have halike : Alike (.text read₂) (.text (read ++ unitsOf ',')) := trivial
    obtain ⟨us, us', rest, rfl, rfl⟩ := lexFrom_alike halike hZ hZ'
    exact ⟨Y, us, us', rest, rfl, hY, rfl⟩

lemma tokensBefore_eq_append (pre : List (List ℕ × JsonValue)) (k : List ℕ) :
    ∃ l, tokensBefore pre k = l ++ [.string k, .colon] := by
  rw [tokensBefore]
  split
  · exact ⟨[.lbrace], rfl⟩
  · exact ⟨openTokens pre ++ [.comma], by simp⟩

/-- **What the text shows of the device**: if it is of the object that it should be of, the list
was cut at its end, and the word is the name of the commands. -/
theorem named_of_merges (hlist : IsCommandList obj2 commands)
    (hread : Reads (x ++ (commandsMark ++ y)) (.object members)) (hown : HasCommands members own)
    (hsome : find commandsMark (x ++ (commandsMark ++ y)) = some x.length)
    (h : Merges members commands own (joinCommands (x ++ (commandsMark ++ y)) obj2)) :
    FirstBracketCloses obj2 ∧ commands ≠ [] ∧ own ≠ [] ∧
      ∃ pre post l, members = pre ++ (commandsName, .array own) :: post ∧ lex x = some l ∧
        l ++ [.string commandsName, .colon] = tokensBefore pre commandsName := by
  obtain ⟨a, b, ha, -, hres, hcut⟩ := plugin_cut hlist
  obtain ⟨merged, hmerged, hperm⟩ := h
  obtain ⟨hempty, htext⟩ := joinCommands_of_some obj2 hsome
    (by rw [hres]; simp [commandsMark, quoted])
  by_cases hy : '[' ∈ y
  · obtain ⟨y, z, rfl, hbracket⟩ := List.eq_append_cons_of_mem hy
    rw [Reads, htext y z rfl hbracket, hres, List.append_assoc, List.append_assoc] at hmerged
    obtain ⟨l, k, ts, hts, hdev, hx, hjoin⟩ :=
      lexFrom_name plain_commands stepBetween_commands (by decide) hread
    obtain ⟨t', ht', htokens⟩ := hjoin a (b ++ ',' :: z) _ ha hmerged
    have hsum : depth 0 (object merged).tokens = 0 := (balanced_tokens le_rfl _).1
    have hsumDev : depth 0 (object members).tokens = 0 := (balanced_tokens le_rfl _).1
    cases hcut with
    | closed hcloses hb =>
        obtain ⟨Y, Z, rfl, hY, rfl⟩ := cut_outside hb hts hbracket ht'
        obtain ⟨hcommands, hownNe, pre, post, rfl, hname⟩ :=
          named_of_tokens hown hdev hY htokens hperm
        obtain ⟨l', hbefore⟩ := tokensBefore_eq_append pre commandsName
        have hk : k = commandsName := by
          have hlast := (List.append_inj' (hname.trans hbefore) rfl).2
          simpa using hlast
        subst hk
        exact ⟨hcloses, hcommands, hownNe, pre, post, l, rfl, hx rfl, hname⟩
    | nested hcloses p hb hdepth =>
        -- more brackets are opened in the list than the one that the device lost
        obtain ⟨Y, Z, rfl, hY, rfl⟩ := cut_outside hb hts hbracket ht'
        have htwo := hdepth 0 le_rfl
        have hzero := depth_le_zero hY
        rw [htokens] at hsum
        rw [hdev] at hsumDev
        simp only [depth_append, depth_cons, weight] at hsum hsumDev
        omega
    | inString hcloses read q hb hdepth =>
        obtain ⟨Y, us, us', rest, rfl, hY, rfl⟩ := cut_inString hb hts hbracket ht'
        have hone := hdepth 0 le_rfl
        have hzero := depth_le_zero hY
        rw [htokens] at hsum
        rw [hdev] at hsumDev
        simp only [depth_append, depth_cons, weight] at hsum hsumDev
        omega
  · rw [Reads, hempty hy, tokens_object_eq] at hmerged
    cases hmerged

/-! ### When the text is of the object -/

/-- The text of a device and a list of commands is of the device with the list in front of its
commands if the first closing bracket is that of the list, and the device either has members and
the word nowhere, or has it first as the name of its commands, with commands on both sides. -/
theorem merges_iff_joinable (hlist : IsCommandList obj2 commands)
    (hdev : Reads obj1 (.object members)) (hown : HasCommands members own) :
    Merges members commands own (joinCommands obj1 obj2) ↔
      Joinable obj1 obj2 members commands own := by
  rw [Joinable]
  cases hfind : find commandsMark obj1 with
  | none => exact merges_iff_of_none hlist hdev hown hfind
  | some commandit =>
      obtain ⟨x, y, rfl, rfl, -⟩ := find_eq_some hfind
      simp only [List.take_left]
      constructor
      · intro h
        obtain ⟨hcloses, hcommands, hownNe, pre, post, l, hms, hx, hname⟩ :=
          named_of_merges hlist hdev hown hfind h
        exact ⟨hcloses, hcommands, hownNe, pre, post, l, hms, hx, hname⟩
      · rintro ⟨hcloses, hcommands, hownNe, pre, post, l, rfl, hx, hname⟩
        exact merges_of_named hlist hcloses hcommands hownNe hdev hown hfind hx hname

/-! ### Devices of one protocol -/

/-- The list of a protocol with one command. -/
def sampleList : List Char := "\x7b\"commands\": [\x7b\"name\": \"PING\"\x7d]\x7d".toList

/-- A command. -/
def sampleCommand (name : String) : JsonValue :=
  .object [(units "name".toList, .string (units name.toList))]

lemma isCommandList_sample : IsCommandList sampleList [sampleCommand "PING"] where
  reads := rfl
  literal := ⟨['\x7b'], ": [\x7b\"name\": \"PING\"\x7d]\x7d".toList, rfl, rfl⟩

/-- The name of a device. -/
def sampleName (name : String) : List ℕ × JsonValue :=
  (units "device_id".toList, .string (units name.toList))

/-- A device with a command of its own. -/
def sampleDevice : List Char :=
  "\x7b\"device_id\": \"d1\", \"commands\": [\x7b\"name\": \"SET\"\x7d]\x7d".toList

/-- The command of the protocol stands before that of the device. -/
theorem merges_oneCommand :
    Merges [sampleName "d1", (commandsName, .array [sampleCommand "SET"])]
      [sampleCommand "PING"] [sampleCommand "SET"] (joinCommands sampleDevice sampleList) := by
  have hdev : Reads sampleDevice
      (.object [sampleName "d1", (commandsName, .array [sampleCommand "SET"])]) := rfl
  have hfind : find commandsMark sampleDevice = some 20 := by decide
  have hcloses : FirstBracketCloses sampleList := ⟨1, 30, by decide, by decide, by decide⟩
  refine (merges_iff_joinable isCommandList_sample hdev (.inr rfl)).mpr ⟨hcloses, ?_⟩
  rw [hfind]
  exact ⟨List.cons_ne_nil _ _, List.cons_ne_nil _ _, [sampleName "d1"], [], _, rfl, rfl, rfl⟩

/-- A device with an empty list is followed by a comma, and one of the name `commands` is cut
behind its name. -/
theorem not_merges_samples :
    ¬ Merges [sampleName "d1", (commandsName, .array [])] [sampleCommand "PING"] []
        (joinCommands "\x7b\"device_id\": \"d1\", \"commands\": []\x7d".toList sampleList) ∧
      ¬ Merges [sampleName "commands"] [sampleCommand "PING"] []
        (joinCommands "\x7b\"device_id\": \"commands\"\x7d".toList sampleList) := by
  refine ⟨fun h => ?_, fun h => ?_⟩
  · have hread : Reads ("\x7b\"device_id\": \"d1\", ".toList ++ (commandsMark ++ ": []\x7d".toList))
        (.object [sampleName "d1", (commandsName, .array [])]) := rfl
    have hnamed := named_of_merges isCommandList_sample hread (.inr rfl) (by decide) h
    exact hnamed.2.2.1 rfl
  · have hread : Reads ("\x7b\"device_id\": ".toList ++ (commandsMark ++ "\x7d".toList))
        (.object [sampleName "commands"]) := rfl
    have hnamed := named_of_merges isCommandList_sample hread (.inl ⟨rfl, rfl⟩) (by decide) h
    exact hnamed.2.2.1 rfl

end JoinCommands

end IotAgent
