/-
Ordered pairs: a mapping from texts that keeps the order in which its keys came.

Setting a key that is there keeps its place; a new key goes to the end.  The view
is `get?`, with one law for each operation.
-/

namespace WebForm.Pairs

/-- The value under a key. -/
def get? {α : Type} (pairs : List (String × α)) (key : String) : Option α :=
  match pairs with
  | [] => none
  | (k, v) :: rest => if k = key then some v else get? rest key

/-- Sets the value under a key: in its place if the key is there, else at the end. -/
def set {α : Type} (pairs : List (String × α)) (key : String) (value : α) : List (String × α) :=
  match pairs with
  | [] => [(key, value)]
  | (k, v) :: rest => if k = key then (k, value) :: rest else (k, v) :: set rest key value

/-- The keys in order. -/
def keys {α : Type} (pairs : List (String × α)) : List String := pairs.map (·.1)

/-- Sets every pair of a list in turn. -/
def setAll {α : Type} (pairs more : List (String × α)) : List (String × α) :=
  more.foldl (fun acc p => set acc p.1 p.2) pairs

/-- A key is there. -/
def has {α : Type} (pairs : List (String × α)) (key : String) : Bool := (get? pairs key).isSome

theorem get?_set {α : Type} (pairs : List (String × α)) (key other : String) (value : α) :
    get? (set pairs key value) other = if key = other then some value else get? pairs other := by
  induction pairs with
  | nil => simp [set, get?]
  | cons p rest ih =>
    obtain ⟨k, v⟩ := p
    simp only [set]
    by_cases h : k = key
    · subst h
      by_cases h' : k = other <;> simp [get?, h']
    · rw [if_neg h]
      by_cases h' : k = other
      · have : key ≠ other := fun e => h (h'.trans e.symm)
        simp [get?, h', this]
      · simp [get?, h', ih]

theorem get?_eq_none_iff {α : Type} (pairs : List (String × α)) (key : String) :
    get? pairs key = none ↔ key ∉ keys pairs := by
  induction pairs with
  | nil => simp [get?, keys]
  | cons p rest ih =>
    obtain ⟨k, v⟩ := p
    by_cases h : k = key
    · simp [get?, keys, h]
    · have h' : ¬key = k := fun e => h e.symm
      simp only [get?, if_neg h, keys, List.map_cons, List.mem_cons, h', false_or]
      exact ih

theorem keys_set {α : Type} (pairs : List (String × α)) (key : String) (value : α) :
    keys (set pairs key value) = if key ∈ keys pairs then keys pairs else keys pairs ++ [key] := by
  induction pairs with
  | nil => simp [set, keys]
  | cons p rest ih =>
    obtain ⟨k, v⟩ := p
    simp only [set]
    by_cases h : k = key
    · simp [keys, h]
    · have h' : ¬key = k := fun e => h e.symm
      unfold keys at ih ⊢
      rw [if_neg h, List.map_cons, List.map_cons, ih]
      simp only [List.mem_cons, h', false_or]
      split <;> simp

end WebForm.Pairs
