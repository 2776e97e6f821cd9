import IotAgent.Util.Text
import IotAgent.Util.Types

/-!
JSON values as the agent reads them with rapidjson.

* `Json`: values; a number is kept as the text that the agent makes of it;
* `JsonParser`, `JsonLib`: how a text is parsed and written, a parameter throughout;
* `Json.getStrValue`: the text of a value (`src/util/json_util.cc`);
* `Json.same`: the comparison of values, which makes their equality decidable.
-/

namespace IotAgent

inductive Json where
  | null
  | bool (b : Bool)
  | number (text : String)
  | string (s : String)
  | array (items : List Json)
  | object (members : List (String × Json))

/-- The document of a text, `none` for a parse error. -/
abbrev JsonParser := String → Option Json

/-- The JSON library: how a text is parsed and how a value is written. -/
structure JsonLib where
  parse : JsonParser
  write : Json → String

namespace Json

mutual

/-- `get_str_value`. -/
def getStrValue : Json → String
  | bool b => if b then "1" else "0"
  | number text => text
  | string s => Text.cString s
  | array items => "|".intercalate (getStrValues items)
  | null | object _ => ""

/-- The texts of the items of an array. -/
def getStrValues : List Json → List String
  | [] => []
  | item :: items => getStrValue item :: getStrValues items

end

/-- The member of a name, the first of several. -/
def member (name : String) : Json → Option Json
  | object members => members.lookup name
  | _ => none

/-! ### Equality -/

mutual

/-- The comparison of two values. -/
def same : Json → Json → Bool
  | null, null => true
  | bool a, bool b => a == b
  | number a, number b => a == b
  | string a, string b => a == b
  | array as, array bs => sameItems as bs
  | object as, object bs => sameMembers as bs
  | _, _ => false

def sameItems : List Json → List Json → Bool
  | [], [] => true
  | a :: as, b :: bs => same a b && sameItems as bs
  | _, _ => false

def sameMembers : List (String × Json) → List (String × Json) → Bool
  | [], [] => true
  | (k, a) :: as, (l, b) :: bs => k == l && same a b && sameMembers as bs
  | _, _ => false

end

mutual

lemma same_iff (a b : Json) : same a b ↔ a = b := by
  cases a <;> cases b <;> simp [same, sameItems_iff, sameMembers_iff]

lemma sameItems_iff (as bs : List Json) : sameItems as bs ↔ as = bs := by
  cases as <;> cases bs <;> simp [sameItems, same_iff, sameItems_iff]

lemma sameMembers_iff (as bs : List (String × Json)) : sameMembers as bs ↔ as = bs := by
  rcases as with _ | ⟨⟨k, a⟩, as⟩ <;> rcases bs with _ | ⟨⟨l, b⟩, bs⟩ <;>
    simp [sameMembers, same_iff, sameMembers_iff]

end

instance : DecidableEq Json := fun a b => decidable_of_iff _ (same_iff a b)

end Json

end IotAgent
