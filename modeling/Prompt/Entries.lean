/-!
Tables that keep their entries in order of insertion. Writing an existing key keeps its place; taking a
key out moves the last entry into the hole.
-/

namespace Prompt

abbrev Entries (α : Type) := List (String × α)

namespace Entries

variable {α : Type}

def get? (xs : Entries α) (key : String) : Option α :=
  match xs with
  | [] => none
  | (k, v) :: rest => if k = key then some v else get? rest key

def contains (xs : Entries α) (key : String) : Bool := (xs.get? key).isSome

def insert (xs : Entries α) (key : String) (value : α) : Entries α :=
  match xs with
  | [] => [(key, value)]
  | (k, v) :: rest => if k = key then (k, value) :: rest else (k, v) :: insert rest key value

def insertAll (xs ys : Entries α) : Entries α :=
  ys.foldl (fun acc e => acc.insert e.1 e.2) xs

/-- The table of a list of entries: of a repeated key the first place and the last value. -/
def ofList (ys : List (String × α)) : Entries α := insertAll [] ys

def lastFirst (xs : Entries α) : Entries α :=
  match xs.getLast? with
  | none => []
  | some last => last :: xs.dropLast

/-- Takes a key out; the last entry moves into its place. -/
def remove (xs : Entries α) (key : String) : Entries α :=
  match xs with
  | [] => []
  | (k, v) :: rest => if k = key then lastFirst rest else (k, v) :: remove rest key

def keys (xs : Entries α) : List String := xs.map Prod.fst

@[simp] theorem get?_nil (key : String) : get? ([] : Entries α) key = none := rfl

@[simp] theorem get?_insert_self (xs : Entries α) (key : String) (value : α) :
    (xs.insert key value).get? key = some value := by
  induction xs with
  | nil => simp [insert, get?]
  | cons e rest ih =>
      obtain ⟨k, v⟩ := e
      by_cases h : k = key <;> simp [insert, get?, h, ih]

theorem get?_insert_of_ne (xs : Entries α) {key other : String} (value : α) (h : key ≠ other) :
    (xs.insert key value).get? other = xs.get? other := by
  induction xs with
  | nil => simp [insert, get?, h]
  | cons e rest ih =>
      obtain ⟨k, v⟩ := e
      by_cases hk : k = key
      · subst hk; simp [insert, get?, h]
      · simp [insert, get?, hk, ih]

theorem keys_insert (xs : Entries α) (key : String) (value : α) :
    (xs.insert key value).keys = if key ∈ xs.keys then xs.keys else xs.keys ++ [key] := by
  induction xs with
  | nil => simp [insert, keys]
  | cons e rest ih =>
      obtain ⟨k, v⟩ := e
      by_cases h : k = key
      · simp [insert, keys, h]
      · have h' : key ≠ k := fun e => h e.symm
        simp only [keys] at ih
        simp only [insert, keys, h, if_false, List.map_cons, List.mem_cons, h', false_or]
        rw [ih]
        by_cases hm : key ∈ List.map Prod.fst rest <;> simp [hm]

end Entries

end Prompt
