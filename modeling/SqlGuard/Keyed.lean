/-!
# Keyed lists

Values under distinct keys, in the order in which the keys were first added. Main statement:
`Keyed.isOrderedMap`, what is found after a value was put under a key, and in which order the keys
are.
-/

namespace SqlGuard

/-- What is relied on of a map that keeps its keys in the order in which they were first added: a
    value is found under the key it was put under, what is under other keys stays, and a key that
    is there keeps its place. -/
structure IsOrderedMap {μ α : Type} (find? : String → μ → Option α) (put : String → α → μ → μ)
    (keys : μ → List String) : Prop where
  find?_put_self : ∀ key a m, find? key (put key a m) = some a
  find?_put_of_ne : ∀ {key other}, other ≠ key → ∀ a m, find? other (put key a m) = find? other m
  keys_put : ∀ key a m, keys (put key a m) = if key ∈ keys m then keys m else keys m ++ [key]

/-- A list of values with distinct keys, in the order in which the keys were first added. -/
abbrev Keyed (α : Type) := List (String × α)

namespace Keyed

variable {α : Type}

/-- The value under a key. -/
def find? (key : String) : Keyed α → Option α
  | [] => none
  | (k, a) :: rest => if k = key then some a else find? key rest

/-- Puts a value under a key: in the place of the value that is there, or else at the end. -/
def put (key : String) (a : α) : Keyed α → Keyed α
  | [] => [(key, a)]
  | (k, b) :: rest => if k = key then (k, a) :: rest else (k, b) :: put key a rest

/-- The list without the value under a key. -/
def erase (key : String) : Keyed α → Keyed α
  | [] => []
  | (k, a) :: rest => if k = key then rest else (k, a) :: erase key rest

/-- The keys in order. -/
def keys (entries : Keyed α) : List String := entries.map (·.1)

/-- The values in order. -/
def values (entries : Keyed α) : List α := entries.map (·.2)

/-- Keyed lists are maps that keep the order of their keys. -/
theorem isOrderedMap : IsOrderedMap (@find? α) put keys where
  find?_put_self key a entries := by
    induction entries with
    | nil => simp [put, find?]
    | cons entry rest ih =>
      by_cases h : entry.1 = key <;> simp [put, find?, h, ih]
  find?_put_of_ne {key other} h a entries := by
    induction entries with
    | nil => simp [put, find?, h.symm]
    | cons entry rest ih =>
      by_cases hk : entry.1 = key
      · simp [put, find?, hk, h.symm]
      · by_cases ho : entry.1 = other
        · simp [put, find?, ho, h]
        · simp [put, find?, hk, ho, ih]
  keys_put key a entries := by
    induction entries with
    | nil => simp [put, keys]
    | cons entry rest ih =>
      by_cases h : entry.1 = key
      · simp [put, keys, h]
      · have hne : ¬ key = entry.1 := fun h' => h h'.symm
        simp only [keys] at ih
        by_cases hm : key ∈ rest.map (·.1) <;> simp_all [put, keys]

end Keyed

end SqlGuard
