/-!
Bindings of names to what they stand for, seen through `get?`. Binding a name again replaces what it
stood for.
-/
namespace Abacus

structure Bindings (α : Type) where
  entries : List (String × α)

namespace Bindings

variable {α : Type}

def empty : Bindings α :=
  ⟨[]⟩

/-- What the first entry with the given name holds. -/
def findEntry (name : String) : List (String × α) → Option α
  | [] => none
  | (other, a) :: rest => if name = other then some a else findEntry name rest

/-- Puts an entry in the place of the first one with its name, or at the end. -/
def insertEntry (name : String) (a : α) : List (String × α) → List (String × α)
  | [] => [(name, a)]
  | (other, b) :: rest =>
    if name = other then (name, a) :: rest else (other, b) :: insertEntry name a rest

def get? (b : Bindings α) (name : String) : Option α :=
  findEntry name b.entries

def contains (b : Bindings α) (name : String) : Bool :=
  (b.get? name).isSome

def insert (b : Bindings α) (name : String) (a : α) : Bindings α :=
  ⟨insertEntry name a b.entries⟩

@[simp] theorem get?_empty (name : String) : (empty : Bindings α).get? name = none := rfl

theorem findEntry_insertEntry (name x : String) (a : α) (entries : List (String × α)) :
    findEntry x (insertEntry name a entries) =
      if x = name then some a else findEntry x entries := by
  induction entries with
  | nil => rfl
  | cons entry rest ih =>
    obtain ⟨other, b⟩ := entry
    by_cases hn : name = other
    · subst hn
      by_cases hx : x = name <;> simp [insertEntry, findEntry, hx]
    · by_cases ho : x = other
      · subst ho
        simp [insertEntry, findEntry, hn, Ne.symm hn]
      · simp [insertEntry, findEntry, hn, ho, ih]

theorem get?_insert (b : Bindings α) (name x : String) (a : α) :
    (b.insert name a).get? x = if x = name then some a else b.get? x :=
  findEntry_insertEntry name x a b.entries

@[simp] theorem get?_insert_self (b : Bindings α) (name : String) (a : α) :
    (b.insert name a).get? name = some a := by
  simp [get?_insert]

theorem get?_insert_of_ne (b : Bindings α) {name x : String} (a : α) (h : x ≠ name) :
    (b.insert name a).get? x = b.get? x := by
  simp [get?_insert, h]

end Bindings

end Abacus
