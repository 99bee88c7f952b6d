import Stencil.Text.Order

/-!
# Bindings

A finite map from names to values, kept as a list of entries in which `insert` leaves every name
once: a new name goes to the end, a known one keeps its place and gets the new value. The order
of the entries is never shown; what is listed is brought into the order of `Text.precedes`.
-/

namespace Stencil

abbrev Bindings (α : Type) := List (String × α)

namespace Bindings

variable {α β : Type}

def get? (b : Bindings α) (name : String) : Option α :=
  match b with
  | [] => none
  | (k, v) :: rest => if name = k then some v else get? rest name

def contains (b : Bindings α) (name : String) : Bool := (b.get? name).isSome

def insert (name : String) (value : α) : Bindings α → Bindings α
  | [] => [(name, value)]
  | (k, v) :: rest => if k = name then (k, value) :: rest else (k, v) :: insert name value rest

def erase (b : Bindings α) (name : String) : Bindings α := b.filter (·.1 ≠ name)

/-- The bindings made one after the other; the last one of a name wins. -/
def ofEntries (entries : List (String × α)) : Bindings α :=
  entries.foldl (fun b (name, value) => b.insert name value) []

def names (b : Bindings α) : List String := b.map Prod.fst

/-- The names in ascending order. -/
def orderedNames (b : Bindings α) : List String := Text.orderedSet b.names

@[simp] theorem get?_nil (name : String) : get? ([] : Bindings α) name = none := rfl

theorem get?_cons (k : String) (v : α) (rest : Bindings α) (name : String) :
    get? ((k, v) :: rest) name = if name = k then some v else get? rest name := rfl

theorem get?_cons_self (k : String) (v : α) (rest : Bindings α) :
    get? ((k, v) :: rest) k = some v := if_pos rfl

theorem eq_nil_of_get? {b : Bindings α} (h : ∀ name, b.get? name = none) : b = [] := by
  cases b with
  | nil => rfl
  | cons entry rest =>
    obtain ⟨k, v⟩ := entry
    have hfound := h k
    rw [get?_cons_self] at hfound
    cases hfound

theorem get?_insert (b : Bindings α) (k : String) (v : α) (name : String) :
    (b.insert k v).get? name = if name = k then some v else b.get? name := by
  induction b with
  | nil => rw [insert, get?_cons]
  | cons entry rest ih =>
    obtain ⟨k', v'⟩ := entry
    rw [insert]
    split
    · subst k'
      simp only [get?_cons]
      split <;> rfl
    · rw [get?_cons, get?_cons, ih]
      grind

theorem get?_erase (b : Bindings α) (k name : String) :
    (b.erase k).get? name = if name = k then none else b.get? name := by
  induction b with
  | nil => exact (ite_self none).symm
  | cons entry rest ih =>
    obtain ⟨k', v'⟩ := entry
    rw [erase, List.filter_cons]
    rw [erase] at ih
    split
    · rw [get?_cons, get?_cons, ih]
      grind
    · rw [ih, get?_cons]
      grind

end Bindings

end Stencil
