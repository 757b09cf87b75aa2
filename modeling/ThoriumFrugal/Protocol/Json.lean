import ThoriumFrugal.Lib.Text

/-!
# JSON values of the mock's messages

The Python values that a JSON text denotes, the dictionary operations on them, and
`json.dumps(…, ensure_ascii=False, sort_keys=True)`. A float carries its exact value and
the text of its `repr`.
-/

namespace ThoriumFrugal.Protocol

open Lib

/-- The values that `json` reads and writes. -/
inductive Json
  | null
  | bool (b : Bool)
  | int (n : ℤ)
  | float (value : ℚ) (repr : String)
  | str (s : String)
  | arr (items : List Json)
  | obj (entries : List (String × Json))

namespace Json

/-- Induction over a value, through the items of lists and the values of objects. -/
@[elab_as_elim]
theorem induction {motive : Json → Prop} (null : motive .null) (bool : ∀ b, motive (.bool b))
    (int : ∀ n, motive (.int n)) (float : ∀ value repr, motive (.float value repr))
    (str : ∀ s, motive (.str s))
    (arr : ∀ items, (∀ item ∈ items, motive item) → motive (.arr items))
    (obj : ∀ entries, (∀ entry ∈ entries, motive entry.2) → motive (.obj entries))
    (v : Json) : motive v :=
  @Json.rec motive (fun items => ∀ item ∈ items, motive item)
    (fun entries => ∀ entry ∈ entries, motive entry.2) (fun entry => motive entry.2)
    null bool int float str arr obj
    (List.forall_mem_nil _) (fun _ _ hitem hitems => List.forall_mem_cons.mpr ⟨hitem, hitems⟩)
    (List.forall_mem_nil _) (fun _ _ hentry hrest => List.forall_mem_cons.mpr ⟨hentry, hrest⟩)
    (fun _ _ hvalue => hvalue) v

/-! ## Dictionaries -/

/-- `entries[key]`, none for a missing key. -/
def get? (entries : List (String × Json)) (key : String) : Option Json := entries.lookup key

/-- `key in entries`. -/
def hasKey (entries : List (String × Json)) (key : String) : Bool := (get? entries key).isSome

/-- `value == s` for a string `s`. -/
def isStr (value : Option Json) (s : String) : Bool :=
  match value with
  | some (.str t) => t = s
  | _ => false

/-- A value as a dictionary key: numbers and booleans of equal value are one key. -/
inductive Key
  | none
  | number (q : ℚ)
  | str (s : String)
deriving DecidableEq

/-- `hash(value)`; lists and dictionaries have none. -/
def toKey : Json → Option Key
  | .null => some .none
  | .bool b => some (.number (if b then 1 else 0))
  | .int n => some (.number n)
  | .float value _ => some (.number value)
  | .str s => some (.str s)
  | .arr _ => none
  | .obj _ => none

/-! ## Serialization -/

/-- A character inside a JSON string; only ASCII is ever escaped. -/
def escapeChar (c : Char) : Text :=
  if c = '"' then "\\\"".toList
  else if c = '\\' then "\\\\".toList
  else if c = '\n' then "\\n".toList
  else if c = '\r' then "\\r".toList
  else if c = '\t' then "\\t".toList
  else if c = '\x0c' then "\\f".toList
  else if c = '\x08' then "\\b".toList
  else if c.toNat < 32 then
    "\\u00".toList ++ [Nat.digitChar (c.toNat / 16), Nat.digitChar (c.toNat % 16)]
  else [c]

/-- A string between quotes, as `dumps` writes it with `ensure_ascii=False`. -/
def quote (s : String) : Text := '"' :: s.toList.flatMap escapeChar ++ ['"']

/-- The decimal text of an integer. CPython raises a `ValueError` from 4301 digits on; that limit of
the runtime is left out. -/
def dumpsInt (n : ℤ) : Text :=
  (if n < 0 then ['-'] else []) ++ Nat.toDigits 10 n.natAbs

/-- The entries of an object with the text of each value, in the order of their keys. -/
def sortEntries (entries : List (String × Text)) : List (String × Text) :=
  entries.insertionSort fun a b => a.1.toList ≤ b.1.toList

mutual

/-- `json.dumps(value, ensure_ascii=False, sort_keys=True)`. -/
def dumps : Json → Text
  | .null => "null".toList
  | .bool b => if b then "true".toList else "false".toList
  | .int n => dumpsInt n
  | .float _ repr => repr.toList
  | .str s => quote s
  | .arr items => '[' :: Text.join ", ".toList (dumpsItems items) ++ [']']
  | .obj entries =>
    '\x7b' :: Text.join ", ".toList ((sortEntries (dumpsEntries entries)).map fun (key, value) =>
      quote key ++ ": ".toList ++ value) ++ ['\x7d']

/-- The texts of the items of a list. -/
def dumpsItems : List Json → List Text
  | [] => []
  | item :: items => dumps item :: dumpsItems items

/-- The texts of the values of an object, with their keys. -/
def dumpsEntries : List (String × Json) → List (String × Text)
  | [] => []
  | (key, value) :: entries => (key, dumps value) :: dumpsEntries entries

end

/-- `len(text.encode('utf-8'))`. -/
def utf8Length (s : Text) : ℕ := (s.map Char.utf8Size).sum

end Json
end ThoriumFrugal.Protocol
