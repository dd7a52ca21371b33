/-!
# JSON values

* `Json` — numbers written without fraction and exponent are kept exact, others as `Float`;
* `Json.field?` — the last member of a name wins;
* `Json.text?`, `Json.nat?`, `Json.items?` — readers for the shapes that data is stored in.
-/

namespace SiteHost

/-- A JSON value. The members of an object are kept as they came. -/
inductive Json where
  | null
  | bool (value : Bool)
  | int (value : Int)
  | float (value : Float)
  | text (value : String)
  | array (items : List Json)
  | object (members : List (String × Json))
  deriving Repr, Inhabited

namespace Json

/-- A text value. -/
def text? : Json → Option String
  | .text s => some s
  | _ => none

/-- A whole number that is not negative and at most `largest`. -/
def nat? (largest : Nat) : Json → Option Nat
  | .int n => if 0 ≤ n ∧ n.toNat ≤ largest then some n.toNat else none
  | _ => none

/-- A whole number of 64 bits. -/
def int64? : Json → Option Int64
  | .int n => if Int64.minValue.toInt ≤ n ∧ n ≤ Int64.maxValue.toInt then some (.ofInt n) else none
  | _ => none

/-- The items of an array. -/
def items? : Json → Option (List Json)
  | .array items => some items
  | _ => none

/-- The members of an object. -/
def members? : Json → Option (List (String × Json))
  | .object members => some members
  | _ => none

/-- The value of the last member of a name. -/
def field? (name : String) : Json → Option Json
  | .object members => (members.reverse.find? fun m => m.1 == name).map Prod.snd
  | _ => none

/-- Every item of an array of texts. -/
def texts? (j : Json) : Option (List String) := do (← j.items?).mapM text?

/-- Whether two members of an object have one name. -/
def repeatsName (members : List (String × Json)) : Bool :=
  match members with
  | [] => false
  | (name, _) :: rest => rest.any (fun m => m.1 == name) || repeatsName rest

end Json

end SiteHost
