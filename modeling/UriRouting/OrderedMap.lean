/-! # Maps in insertion order

A key keeps the place of its first entry; writing again changes the value only. -/

set_option autoImplicit false

namespace UriRouting

abbrev OrderedMap (α β : Type) := List (α × β)

namespace OrderedMap

variable {α β : Type} [DecidableEq α]

def get? (m : OrderedMap α β) (key : α) : Option β := m.lookup key

def contains (m : OrderedMap α β) (key : α) : Bool := m.any fun entry => entry.1 = key

def keys (m : OrderedMap α β) : List α := m.map Prod.fst

def put (m : OrderedMap α β) (key : α) (value : β) : OrderedMap α β :=
  match m with
  | [] => [(key, value)]
  | entry :: rest => if entry.1 = key then (key, value) :: rest else entry :: put rest key value

def erase (m : OrderedMap α β) (key : α) : OrderedMap α β := m.filter fun entry => entry.1 ≠ key

def overlay (m changes : OrderedMap α β) : OrderedMap α β :=
  changes.foldl (fun m entry => m.put entry.1 entry.2) m

def ofList (entries : List (α × β)) : OrderedMap α β := overlay [] entries

theorem get?_cons (entry : α × β) (m : OrderedMap α β) (key : α) :
    get? (entry :: m) key = if entry.1 = key then some entry.2 else get? m key := by
  obtain ⟨k, v⟩ := entry
  by_cases h : k = key
  · simp [get?, h]
  · simp [get?, List.lookup_cons, h, beq_false_of_ne (Ne.symm h)]

theorem get?_put_self (m : OrderedMap α β) (key : α) (value : β) :
    (m.put key value).get? key = some value := by
  induction m with
  | nil => simp [put, get?_cons]
  | cons entry rest ih =>
    rw [put]
    split <;> simp_all [get?_cons]

theorem get?_put_of_ne (m : OrderedMap α β) {key other : α} (value : β) (h : other ≠ key) :
    (m.put key value).get? other = m.get? other := by
  induction m with
  | nil => simp [put, get?_cons, Ne.symm h]
  | cons entry rest ih =>
    rw [put]
    split
    · simp_all [get?_cons, Ne.symm h]
    · simp [get?_cons, ih]

theorem mem_keys_put {m : OrderedMap α β} {key other : α} {value : β} :
    other ∈ (m.put key value).keys ↔ other = key ∨ other ∈ m.keys := by
  induction m with
  | nil => simp [put, keys]
  | cons entry rest ih =>
    rw [put]
    split
    · simp_all [keys]
    · simp only [keys, List.map_cons, List.mem_cons] at ih ⊢
      rw [ih]
      exact or_left_comm

end OrderedMap

end UriRouting
