import Mathlib.Data.List.Induction
import Mathlib.Data.List.Nodup
import Prompt.Entries
import Prompt.Proofs.Repeats

/-!
# Tables as functions from keys to values

What lookups and the list of keys see of a table after it has been written to, and of one that is made of
items that share keys (`keys_collect`, `get?_collect`).
-/

namespace Prompt.Entries

variable {α : Type}

theorem get?_insert (xs : Entries α) (key other : String) (value : α) :
    (xs.insert key value).get? other = if key = other then some value else xs.get? other := by
  by_cases same : key = other
  · subst same
    simp
  · simp [same, get?_insert_of_ne xs value same]

theorem contains_insert (xs : Entries α) (key other : String) (value : α) :
    (xs.insert key value).contains other = (decide (key = other) || xs.contains other) := by
  unfold contains
  rw [get?_insert]
  by_cases same : key = other <;> simp [same]

theorem mem_keys {xs : Entries α} {key : String} : key ∈ xs.keys ↔ xs.contains key = true := by
  induction xs with
  | nil => simp [keys, contains]
  | cons e rest ih =>
      obtain ⟨k, v⟩ := e
      by_cases same : k = key
      · simp [keys, contains, get?, same]
      · have other : key ≠ k := fun h => same h.symm
        simpa [keys, contains, get?, same, other] using ih

theorem keys_insert_of_not_contains {xs : Entries α} {key : String} (h : xs.contains key = false)
    (value : α) : (xs.insert key value).keys = xs.keys ++ [key] := by
  rw [keys_insert, if_neg (by rw [mem_keys, h]; simp)]

theorem nodup_keys_insert {xs : Entries α} (nodup : xs.keys.Nodup) (key : String) (value : α) :
    (xs.insert key value).keys.Nodup := by
  rw [keys_insert]
  split
  · exact nodup
  · next absent =>
      exact List.nodup_append.mpr ⟨nodup, List.nodup_singleton key,
        fun k member k' single => by
          rw [List.mem_singleton.mp single]
          exact fun same => absent (same ▸ member)⟩

theorem get?_map_pair (keys : List String) (f : String → α) (key : String) :
    get? (keys.map fun k => (k, f k)) key = if key ∈ keys then some (f key) else none := by
  induction keys with
  | nil => rfl
  | cons k keys ih =>
      by_cases same : k = key
      · simp [get?, same]
      · simp [get?, same, Ne.symm same, ih]

theorem get?_insertAll (xs : Entries α) {ys : Entries α} (nodup : ys.keys.Nodup) (key : String) :
    (xs.insertAll ys).get? key = (ys.get? key).or (xs.get? key) := by
  induction ys generalizing xs with
  | nil => rfl
  | cons e ys ih =>
      obtain ⟨k, v⟩ := e
      obtain ⟨fresh, nodup⟩ := List.nodup_cons.mp nodup
      change (insertAll (xs.insert k v) ys).get? key = _
      rw [ih _ nodup, get?_insert, get?]
      by_cases same : k = key
      · subst same
        have absent : get? ys k = none :=
          Option.not_isSome_iff_eq_none.mp fun present => fresh (mem_keys.mpr present)
        simp [absent]
      · simp [same]

/-- Keys may repeat where each has one value. -/
theorem get?_insertAll_map_pair (xs : Entries α) (keys : List String) (f : String → α) (key : String) :
    (xs.insertAll (keys.map fun k => (k, f k))).get? key =
      if key ∈ keys then some (f key) else xs.get? key := by
  induction keys generalizing xs with
  | nil => rfl
  | cons k keys ih =>
      change (insertAll (xs.insert k (f k)) (keys.map fun k => (k, f k))).get? key = _
      rw [ih, get?_insert]
      by_cases later : key ∈ keys
      · rw [if_pos later, if_pos (List.mem_cons_of_mem k later)]
      · by_cases same : k = key
        · simp [same]
        · simp [later, same, Ne.symm same]

theorem insert_of_not_contains {xs : Entries α} {key : String} (h : xs.contains key = false) (value : α) :
    xs.insert key value = xs ++ [(key, value)] := by
  induction xs with
  | nil => rfl
  | cons e rest ih =>
      obtain ⟨k, v⟩ := e
      by_cases same : k = key
      · simp [contains, get?, same] at h
      · rw [insert, if_neg same, ih (by simpa [contains, get?, same] using h), List.cons_append]

theorem insertAll_of_nodup {xs ys : Entries α} (nodup : (xs.keys ++ ys.keys).Nodup) :
    xs.insertAll ys = xs ++ ys := by
  induction ys generalizing xs with
  | nil => exact (List.append_nil xs).symm
  | cons e ys ih =>
      obtain ⟨k, v⟩ := e
      have fresh : xs.contains k = false := by
        rw [← Bool.not_eq_true, ← mem_keys]
        exact fun listed => (List.disjoint_of_nodup_append nodup) listed List.mem_cons_self
      change (xs.insert k v).insertAll ys = _
      rw [insert_of_not_contains fresh]
      have rest : (keys (xs ++ [(k, v)]) ++ keys ys).Nodup := by
        rwa [keys, List.map_append, List.append_assoc]
      rw [ih rest, List.append_assoc]
      rfl

theorem forall_mem_insert {p : String × α → Prop} {xs : Entries α} {key : String} {value : α}
    (all : ∀ e ∈ xs, p e) (new : p (key, value)) : ∀ e ∈ xs.insert key value, p e := by
  induction xs with
  | nil => simpa [insert] using new
  | cons e rest ih =>
      obtain ⟨k, v⟩ := e
      rw [List.forall_mem_cons] at all
      rw [insert]
      split
      · next same => exact List.forall_mem_cons.2 ⟨same ▸ new, all.2⟩
      · exact List.forall_mem_cons.2 ⟨all.1, ih all.2⟩

theorem forall_mem_ofList {p : String × α → Prop} {ys : List (String × α)} (all : ∀ e ∈ ys, p e) :
    ∀ e ∈ ofList ys, p e := by
  suffices general : ∀ {xs : Entries α}, (∀ e ∈ xs, p e) → ∀ e ∈ xs.insertAll ys, p e from
    general (List.forall_mem_nil _)
  induction ys with
  | nil => exact fun kept => kept
  | cons e ys ih =>
      rw [List.forall_mem_cons] at all
      exact fun kept => ih all.2 (forall_mem_insert kept all.1)

theorem nodup_keys_ofList (ys : List (String × α)) : (ofList ys).keys.Nodup := by
  suffices general : ∀ {xs : Entries α}, xs.keys.Nodup → (xs.insertAll ys).keys.Nodup from
    general List.nodup_nil
  induction ys with
  | nil => exact fun kept => kept
  | cons e ys ih => exact fun kept => ih (nodup_keys_insert kept e.1 e.2)

theorem get?_eq_some_iff {xs : Entries α} (once : xs.keys.Nodup) {key : String} {value : α} :
    xs.get? key = some value ↔ (key, value) ∈ xs := by
  induction xs with
  | nil => simp
  | cons e rest ih =>
      obtain ⟨k, v⟩ := e
      obtain ⟨fresh, once⟩ := List.nodup_cons.1 once
      rw [get?, List.mem_cons]
      by_cases same : k = key
      · subst same
        have absent : (k, value) ∉ rest := fun listed =>
          fresh (List.mem_map.2 ⟨(k, value), listed, rfl⟩)
        simp [absent, eq_comm]
      · have other : key ≠ k := fun same' => same same'.symm
        rw [if_neg same, ih once]
        simp [other]

theorem get?_append (xs ys : Entries α) (key : String) :
    get? (xs ++ ys) key = (xs.get? key).or (ys.get? key) := by
  induction xs with
  | nil => rfl
  | cons e xs ih =>
      obtain ⟨k, v⟩ := e
      by_cases same : k = key
      · simp [get?, same]
      · simp [get?, same, ih]

theorem keys_append (xs ys : Entries α) : keys (xs ++ ys) = xs.keys ++ ys.keys := List.map_append

theorem get?_filter {keep : String × α → Bool} {key : String} (kept : ∀ value, keep (key, value) = true)
    (xs : Entries α) : get? (xs.filter keep) key = xs.get? key := by
  induction xs with
  | nil => rfl
  | cons e xs ih =>
      obtain ⟨k, v⟩ := e
      by_cases same : k = key
      · subst same
        rw [List.filter_cons_of_pos (kept v), get?, get?, if_pos rfl, if_pos rfl]
      · rw [get?, if_neg same, List.filter_cons]
        split
        · rw [get?, if_neg same, ih]
        · exact ih

/-! ### An entry that may be missing -/

theorem get?_optional {β : Type} (o : Option β) (name key : String) (f : β → α) :
    get? (o.map fun b => (name, f b)).toList key = if name = key then o.map f else none := by
  cases o <;> simp [get?]

theorem keys_optional_sublist {β : Type} (o : Option β) (name : String) (f : β → α) :
    (keys (o.map fun b => (name, f b)).toList).Sublist [name] := by
  cases o <;> simp [keys]

theorem forall_mem_optional {β : Type} {p : String × α → Prop} {o : Option β} {name : String} {f : β → α} :
    (∀ e ∈ (o.map fun b => (name, f b)).toList, p e) ↔ ∀ b, o = some b → p (name, f b) := by
  cases o <;> simp

theorem ofList_of_nodup {ys : Entries α} (nodup : ys.keys.Nodup) : ofList ys = ys :=
  insertAll_of_nodup nodup

/-! ### Entries taken out -/

theorem perm_lastFirst (xs : Entries α) : (lastFirst xs).Perm xs := by
  rw [lastFirst]
  cases found : xs.getLast? with
  | none => rw [List.getLast?_eq_none_iff.1 found]
  | some last =>
      obtain ⟨front, rfl⟩ := List.getLast?_eq_some_iff.1 found
      rw [List.dropLast_concat]
      exact (List.perm_append_singleton last front).symm

theorem perm_remove {xs : Entries α} {key : String} {value : α} (found : xs.get? key = some value) :
    ((key, value) :: xs.remove key).Perm xs := by
  induction xs with
  | nil => cases found
  | cons e rest ih =>
      obtain ⟨k, v⟩ := e
      rw [get?] at found
      rw [remove]
      split at found
      · next same =>
          cases found
          rw [if_pos same, same]
          exact (perm_lastFirst rest).cons _
      · next other =>
          rw [if_neg other]
          exact (List.Perm.swap _ _ _).trans ((ih found).cons _)

theorem remove_of_missing {xs : Entries α} {key : String} (missing : xs.get? key = none) :
    xs.remove key = xs := by
  induction xs with
  | nil => rfl
  | cons e rest ih =>
      obtain ⟨k, v⟩ := e
      rw [get?] at missing
      split at missing
      · cases missing
      · next other => rw [remove, if_neg other, ih missing]

theorem get?_perm {xs ys : Entries α} (perm : xs.Perm ys) (once : xs.keys.Nodup) (key : String) :
    xs.get? key = ys.get? key := by
  have once' : ys.keys.Nodup := (perm.map Prod.fst).nodup_iff.1 once
  apply Option.ext
  intro value
  rw [get?_eq_some_iff once, get?_eq_some_iff once', perm.mem_iff]

theorem nodup_keys_remove {xs : Entries α} (once : xs.keys.Nodup) (key : String) :
    (xs.remove key).keys.Nodup := by
  cases found : xs.get? key with
  | none => rwa [remove_of_missing found]
  | some value =>
      have whole := ((perm_remove found).map Prod.fst).nodup_iff.2 once
      exact (List.nodup_cons.1 whole).2

theorem get?_remove_of_ne {xs : Entries α} (once : xs.keys.Nodup) {key other : String} (ne : key ≠ other) :
    (xs.remove key).get? other = xs.get? other := by
  cases found : xs.get? key with
  | none => rw [remove_of_missing found]
  | some value =>
      have whole := ((perm_remove found).map Prod.fst).nodup_iff.2 once
      rw [← get?_perm (perm_remove found) whole, get?, if_neg ne]

/-! ### Tables made of items -/

section Collect
variable {β : Type} (key : β → String) (update : Option α → β → α)

/-- Every item writes under its key what it makes of the value that is there. -/
def collect (xs : List β) : Entries α :=
  xs.foldl (fun es x => es.insert (key x) (update (es.get? (key x)) x)) []

theorem collect_append_singleton (xs : List β) (x : β) : collect key update (xs ++ [x]) =
    (collect key update xs).insert (key x) (update ((collect key update xs).get? (key x)) x) := by
  simp [collect]

/-- The keys stand in the order in which the items bring them up. -/
theorem keys_collect (xs : List β) : (collect key update xs).keys = (xs.map key).eraseDups := by
  induction xs using List.reverseRecOn with
  | nil => rfl
  | append_singleton xs x ih =>
      rw [collect_append_singleton, keys_insert, ih, List.map_append, List.map_singleton,
        eraseDups_append_singleton]
      simp only [List.mem_eraseDups]

/-- Under a key stands what the items of that key make, one after the other. -/
theorem get?_collect {value : List β → Option α} (none : value [] = none)
    (next : ∀ xs x, value (xs ++ [x]) = some (update (value xs) x)) (xs : List β) (name : String) :
    (collect key update xs).get? name = value (xs.filter fun x => key x == name) := by
  induction xs using List.reverseRecOn with
  | nil => exact none.symm
  | append_singleton xs x ih =>
      rw [collect_append_singleton, get?_insert, List.filter_append]
      by_cases same : key x = name
      · subst same
        rw [if_pos rfl, ih, ← next]
        simp
      · simp [same, ih]

end Collect

end Prompt.Entries
