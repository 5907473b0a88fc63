import Mathlib.Tactic

/-!
# JSON documents and fallible readers

`Json` is a document as a parser hands it over.  A number written without a
fraction stays apart from one written with it, since readers tell the two types
apart, and `leaf` is a part that is carried through without being looked into.

A reader is a function into `Except`.  `bind_eq_ok` takes a chain of readers
apart, and `readEach_map` lifts the round trip of one item to that of a list.
-/

namespace CoreCycler
namespace Library

/-- A JSON document. -/
inductive Json (Leaf : Type)
  | null
  | bool (value : Bool)
  | int (value : Int)
  | float (value : ℚ)
  | str (text : String)
  | arr (items : List (Json Leaf))
  | obj (members : List (String × Json Leaf))
  | leaf (value : Leaf)

namespace Json

variable {Leaf : Type}

/-- The member under `key` of an object, `null` where the key is absent. -/
def member (members : List (String × Json Leaf)) (key : String) : Json Leaf :=
  (members.lookup key).getD .null

/-- The keys of an object are the expected ones, in any order. -/
def hasKeys (members : List (String × Json Leaf)) (expected : List String) : Bool :=
  let keys := members.map Prod.fst
  expected.all (· ∈ keys) && keys.all (· ∈ expected)

theorem hasKeys_of_map_eq {members : List (String × Json Leaf)} {expected : List String}
    (hkeys : members.map Prod.fst = expected) : hasKeys members expected = true := by
  have hself : expected.all (· ∈ expected) = true :=
    List.all_eq_true.mpr fun key hkey => decide_eq_true hkey
  show (expected.all (· ∈ members.map Prod.fst) &&
    (members.map Prod.fst).all (· ∈ expected)) = true
  rw [hkeys, hself]
  rfl

end Json

/-! ## Readers -/

section Readers

variable {ε α β : Type}

/-- A chain of readers succeeds when each of them does. -/
theorem bind_eq_ok {first : Except ε α} {next : α → Except ε β} {result : β} :
    (first >>= next) = .ok result ↔ ∃ value, first = .ok value ∧ next value = .ok result := by
  cases first with
  | error message =>
      constructor
      · intro hok
        cases hok
      · rintro ⟨value, hvalue, -⟩
        cases hvalue
  | ok value =>
      constructor
      · intro hok
        exact ⟨value, rfl, hok⟩
      · rintro ⟨other, hother, hok⟩
        cases hother
        exact hok

/-- Read a list item by item; each reader is told the item's position. -/
def readEach (read : Nat → α → Except ε β) : Nat → List α → Except ε (List β)
  | _, [] => .ok []
  | index, item :: rest => do
      let value ← read index item
      let values ← readEach read (index + 1) rest
      return value :: values

/-- **Round trip of a list.**  Items that are each read back as written are read
back as the list that was written. -/
theorem readEach_map {read : Nat → α → Except ε β} {write : β → α} {values : List β}
    (hread : ∀ index, ∀ value ∈ values, read index (write value) = .ok value) (index : Nat) :
    readEach read index (values.map write) = .ok values := by
  induction values generalizing index with
  | nil => rfl
  | cons value rest ih =>
      have hvalue := hread index value List.mem_cons_self
      have hrest := ih (fun index other hother =>
        hread index other (List.mem_cons_of_mem value hother)) (index + 1)
      show (read index (write value) >>= fun value =>
        readEach read (index + 1) (rest.map write) >>= fun values =>
          Except.ok (value :: values)) = .ok (value :: rest)
      rw [hvalue, hrest]
      rfl

end Readers

end Library
end CoreCycler
