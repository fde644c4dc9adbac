import StackMachine.Json

/-!
# Saved forms

A `Format` says how the values of a type are saved as JSON: `write` gives the saved form, and `read?`
recovers the value from it. A format may read more spellings than it writes.

Here are the formats for words, counts, names and sequences, and `fields?`, which finds the parts of a
record. The formats for the machine's own data are built from these.
-/

namespace StackMachine

/-- How the values of a type are saved. -/
structure Format (α : Type) where
  /-- The saved form of a value. -/
  write : α → Json
  /-- The value that a saved form stands for, if it is one. -/
  read? : Json → Option α

namespace Format

/-- A signed word is saved as an integer. -/
def word : Format Int64 where
  write w := .int w.toInt
  read?
    | .int value => Text.Decimal.word? value
    | _ => none

/-- An unsigned word is saved as an integer. -/
def count : Format UInt64 where
  write n := .int n.toNat
  read?
    | .int value => if 0 ≤ value ∧ value < UInt64.size then some (.ofNat value.toNat) else none
    | _ => none

/-- One of finitely many values is saved as its name. An object that has the name as its only key, with
no value, is read too. -/
def named {α : Type} (all : List α) (name : α → String) : Format α where
  write a := .str (name a)
  read?
    | .str word | .obj [(word, .null)] => all.find? (name · == word)
    | _ => none

/-- A list is saved as an array. -/
def list {α : Type} (item : Format α) : Format (List α) where
  write as := .arr (as.map item.write)
  read?
    | .arr items => items.mapM item.read?
    | _ => none

/-- A sequence of fixed length is saved as an array of this length. -/
def vector {α : Type} (n : Nat) (item : Format α) : Format (Vector α n) where
  write as := item.list.write as.toList
  read? saved :=
    item.list.read? saved |>.bind fun as =>
      if h : as.toArray.size = n then some ⟨as.toArray, h⟩ else none

/-- The value of the member with the given key, if there is exactly one. -/
def member? (members : List (String × Json)) (key : String) : Option Json :=
  match members.filter (·.1 == key) with
  | [(_, value)] => some value
  | _ => none

/-- The parts of a saved record with the given keys, in the order of the keys. An object may have its
members in any order, and others beside them; an array has the parts in order and nothing else. -/
def fields? (keys : List String) : Json → Option (List Json)
  | .obj members => keys.mapM (member? members)
  | .arr items => if items.length = keys.length then some items else none
  | _ => none

/-! ### Reading back -/

/-- A format is faithful if every value comes back from its saved form. -/
def Faithful {α : Type} (format : Format α) : Prop :=
  ∀ a, format.read? (format.write a) = some a

theorem word_faithful : word.Faithful :=
  Text.Decimal.word?_toInt

theorem count_faithful : count.Faithful := by
  intro n
  have h : n.toNat < UInt64.size := n.toNat_lt
  simp only [count]
  rw [if_pos ⟨by omega, by exact_mod_cast h⟩]
  simp

/-- Names that tell all values apart make a faithful format. -/
theorem named_faithful {α : Type} {all : List α} {name : α → String} (hall : ∀ a, a ∈ all)
    (hname : ∀ a b, name a = name b → a = b) : (named all name).Faithful := by
  intro a
  simp only [named]
  cases h : all.find? (name · == name a) with
  | none => simpa using List.find?_eq_none.1 h a (hall a)
  | some b =>
    have hb : name b = name a := by simpa using List.find?_some h
    rw [hname b a hb]

theorem list_faithful {α : Type} {item : Format α} (h : item.Faithful) : item.list.Faithful := by
  intro as
  induction as with
  | nil => rfl
  | cons a as ih =>
    simp only [list] at ih ⊢
    simp [h a, ih]

theorem vector_faithful {α : Type} {item : Format α} (h : item.Faithful) (n : Nat) :
    (item.vector n).Faithful := by
  rintro ⟨as, hn⟩
  simp [vector, list_faithful h as.toList, hn]

end Format

end StackMachine
