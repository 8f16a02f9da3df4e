import Mathlib.Data.List.Induction
import Mathlib.Tactic.Common
import Prompt.Proofs.Table
import Prompt.Run.Load

/-!
# Any order of arrival

A load receives some of the fetches that end, in any order, until it is cut off. The fragments that it gathers
depend only on which fetches delivered what (`ofArrivals_received`).
-/

namespace Prompt

/-! ### Slots -/

namespace Slot

/-- The slot at that place has the name and holds the value. -/
def Bears (slots : List Slot) (place : Nat) (name : String) (value : Json) : Prop :=
  slots[place]? = some ⟨name, some value⟩

theorem Bears.lt {slots : List Slot} {place : Nat} {name : String} {value : Json}
    (bears : Bears slots place name value) : place < slots.length := by
  obtain ⟨less, -⟩ := List.getElem?_eq_some_iff.1 bears
  exact less

theorem bears_concat {slots : List Slot} {s : Slot} {place : Nat} {name : String} {value : Json} :
    Bears (slots ++ [s]) place name value ↔
      Bears slots place name value ∨ place = slots.length ∧ s = ⟨name, some value⟩ := by
  unfold Bears
  rcases Nat.lt_trichotomy place slots.length with less | rfl | greater
  · rw [List.getElem?_append_left less]
    simp [Nat.ne_of_lt less]
  · simp
  · have beyond : (slots ++ [s]).length ≤ place := by
      rw [List.length_append]
      exact greater
    rw [List.getElem?_eq_none beyond, List.getElem?_eq_none (Nat.le_of_lt greater)]
    simp [Nat.ne_of_gt greater]

theorem fragments_concat (slots : List Slot) (s : Slot) :
    fragments (slots ++ [s]) = match s.value? with
      | some value => (fragments slots).insert s.name value
      | none => fragments slots := by
  rw [fragments, List.filterMap_append, Entries.ofList, Entries.insertAll, List.foldl_append]
  cases found : s.value? <;> simp [found, fragments, Entries.ofList, Entries.insertAll]

theorem bears_concat_none {slots : List Slot} {n name : String} {place : Nat} {value : Json} :
    Bears (slots ++ [⟨n, none⟩]) place name value ↔ Bears slots place name value := by
  rw [bears_concat, or_iff_left]
  rintro ⟨-, ⟨⟩⟩

theorem bears_concat_of_ne {slots : List Slot} {n name : String} {w : Option Json} {place : Nat} {value : Json}
    (other : n ≠ name) : Bears (slots ++ [⟨n, w⟩]) place name value ↔ Bears slots place name value := by
  rw [bears_concat, or_iff_left]
  rintro ⟨-, ⟨⟩⟩
  exact other rfl

theorem get?_fragments {slots : List Slot} {name : String} {value : Json} :
    (fragments slots).get? name = some value ↔ ∃ place, Bears slots place name value ∧
      ∀ later value', place < later → ¬ Bears slots later name value' := by
  induction slots using List.reverseRecOn with
  | nil =>
      refine iff_of_false nofun ?_
      rintro ⟨place, bears, -⟩
      cases bears.lt
  | append_singleton slots s ih =>
      obtain ⟨n, _ | w⟩ := s
      · rw [fragments_concat, ih]
        simp only [bears_concat_none]
      · rw [fragments_concat, Entries.get?_insert]
        by_cases same : n = name
        · subst same
          have new {v : Json} (is : w = v) : Bears (slots ++ [⟨n, some w⟩]) slots.length n v :=
            bears_concat.2 (.inr ⟨rfl, is ▸ rfl⟩)
          rw [if_pos rfl]
          constructor
          · intro is
            refine ⟨slots.length, new (Option.some.inj is), fun later v less bears => ?_⟩
            have most := bears.lt
            rw [List.length_append, List.length_singleton] at most
            omega
          · rintro ⟨place, bears, last⟩
            rcases bears_concat.1 bears with old | ⟨-, same⟩
            · exact absurd (new rfl) (last slots.length w old.lt)
            · cases same
              rfl
        · rw [if_neg same, ih]
          simp only [bears_concat_of_ne same]

theorem mem_keys_fragments {slots : List Slot} {name : String} :
    name ∈ (fragments slots).keys ↔ ∃ place value, Bears slots place name value := by
  induction slots using List.reverseRecOn with
  | nil =>
      refine iff_of_false nofun ?_
      rintro ⟨place, value, bears⟩
      cases bears.lt
  | append_singleton slots s ih =>
      obtain ⟨n, _ | w⟩ := s
      · rw [fragments_concat, ih]
        simp only [bears_concat_none]
      · rw [fragments_concat, Entries.mem_keys, Entries.contains_insert, Bool.or_eq_true, ← Entries.mem_keys,
          ih, decide_eq_true_iff]
        by_cases same : n = name
        · subst same
          exact iff_of_true (.inl rfl) ⟨slots.length, w, bears_concat.2 (.inr ⟨rfl, rfl⟩)⟩
        · simp only [bears_concat_of_ne same, same, false_or]

/-- The names stand in the order of the first places that bear them. -/
theorem keys_fragments_pairwise (slots : List Slot) :
    (fragments slots).keys.Pairwise fun a b => ∃ place value, Bears slots place a value ∧
      ∀ place' value', Bears slots place' b value' → place < place' := by
  induction slots using List.reverseRecOn with
  | nil => exact List.Pairwise.nil
  | append_singleton slots s ih =>
      -- What is borne at the new place comes behind all that was borne before.
      have kept : (fragments slots).keys.Pairwise fun a b =>
          ∃ place value, Bears (slots ++ [s]) place a value ∧
            ∀ place' value', Bears (slots ++ [s]) place' b value' → place < place' := by
        refine ih.imp ?_
        rintro a b ⟨place, value, bears, first⟩
        refine ⟨place, value, bears_concat.2 (.inl bears), fun place' value' bears' => ?_⟩
        rcases bears_concat.1 bears' with old | ⟨rfl, -⟩
        · exact first place' value' old
        · exact bears.lt
      rw [fragments_concat]
      cases s.value? with
      | none => exact kept
      | some w =>
          dsimp only
          rw [Entries.keys_insert]
          split
          · exact kept
          · next fresh =>
              refine List.pairwise_append.2 ⟨kept, List.pairwise_singleton _ _, fun a listed b new => ?_⟩
              obtain ⟨place, value, bears⟩ := mem_keys_fragments.1 listed
              refine ⟨place, value, bears_concat.2 (.inl bears), fun place' value' bears' => ?_⟩
              rcases bears_concat.1 bears' with old | ⟨rfl, -⟩
              · rw [List.mem_singleton.1 new] at old
                exact absurd (mem_keys_fragments.2 ⟨place', value', old⟩) fresh
              · exact bears.lt

theorem ext_of_map_name {slots slots' : List Slot} (names : slots.map Slot.name = slots'.map Slot.name)
    (values : ∀ place : Nat, slots[place]?.bind Slot.value? = slots'[place]?.bind Slot.value?) :
    slots = slots' := by
  apply List.ext_getElem?
  intro place
  have name := congrArg (fun names => names[place]?) names
  have value := values place
  simp only [List.getElem?_map] at name
  cases found : slots[place]? with
  | none =>
      rw [found] at name
      exact (Option.map_eq_none_iff.1 name.symm).symm
  | some s =>
      rw [found] at name value
      obtain ⟨s', found', named⟩ := Option.map_eq_some_iff.1 name.symm
      rw [found'] at value ⊢
      obtain ⟨n, v⟩ := s
      cases named
      cases value
      rfl

/-! ### One arrival -/

theorem value?_eq_some {f : Fetched} {value : Json} : f.value? = some value ↔ f = .delivered value := by
  cases f <;> simp [Fetched.value?]

theorem names_receive (slots : List Slot) (a : Arrival) :
    (receive slots a).map Slot.name = slots.map Slot.name := by
  rw [receive]
  cases a.fetched.value? with
  | none => rfl
  | some value =>
      apply List.ext_getElem?
      intro i
      rw [List.getElem?_map, List.getElem?_map, List.getElem?_modify]
      cases slots[i]? with
      | none => rfl
      | some s => by_cases here : a.place = i <;> simp [here]

theorem value?_receive (slots : List Slot) (a : Arrival) (place : Nat) :
    (receive slots a)[place]?.bind Slot.value? =
      if a.place = place ∧ place < slots.length then a.fetched.value?.or (slots[place]?.bind Slot.value?)
      else slots[place]?.bind Slot.value? := by
  rw [receive]
  cases a.fetched.value? with
  | none => simp
  | some value =>
      dsimp only
      rw [List.getElem?_modify]
      by_cases here : a.place = place
      · by_cases less : place < slots.length
        · simp [here, less]
        · simp [less]
      · simp [here]

end Slot

/-! ### Loads -/

/-- A registered fetch, and how it ends if it ever does. -/
structure Fetch where
  name : String
  ending? : Option Fetched

/-- What may have arrived when a load is cut off: fetches that end, each of them once, in any order. -/
inductive Received (fetches : List Fetch) : List Arrival → Prop
  | start : Received fetches []
  | next {arrivals : List Arrival} {place : Nat} {f : Fetch} {ending : Fetched}
      (received : Received fetches arrivals) (registered : fetches[place]? = some f)
      (ends : f.ending? = some ending) (fresh : ∀ a ∈ arrivals, a.place ≠ place) :
      Received fetches (arrivals ++ [⟨place, ending⟩])

namespace Slot

def filled (names : List String) (arrivals : List Arrival) : List Slot :=
  arrivals.foldl receive (register names)

theorem filled_concat (names : List String) (arrivals : List Arrival) (a : Arrival) :
    filled names (arrivals ++ [a]) = receive (filled names arrivals) a := List.foldl_concat ..

theorem names_filled (names : List String) (arrivals : List Arrival) :
    (filled names arrivals).map Slot.name = names := by
  induction arrivals using List.reverseRecOn with
  | nil => simp [filled, register, Function.comp_def]
  | append_singleton arrivals a ih => rw [filled_concat, names_receive, ih]

theorem value?_filled {fetches : List Fetch} {arrivals : List Arrival}
    (received : Received fetches arrivals) (place : Nat) (value : Json) :
    (filled (fetches.map Fetch.name) arrivals)[place]?.bind Slot.value? = some value ↔
      ⟨place, .delivered value⟩ ∈ arrivals := by
  induction received generalizing value with
  | start =>
      refine iff_of_false ?_ List.not_mem_nil
      rw [filled, List.foldl_nil, register, List.getElem?_map]
      cases (fetches.map Fetch.name)[place]? <;> exact nofun
  | @next arrivals place' f ending received registered ends fresh ih =>
      rw [filled_concat, value?_receive, List.mem_append, List.mem_singleton]
      by_cases here : place' = place
      · subst here
        have room : place' < (filled (fetches.map Fetch.name) arrivals).length := by
          rw [← List.length_map Slot.name, names_filled, List.length_map]
          exact (List.getElem?_eq_some_iff.1 registered).1
        have empty : (filled (fetches.map Fetch.name) arrivals)[place']?.bind Slot.value? = none := by
          rw [Option.eq_none_iff_forall_ne_some]
          intro v held
          exact fresh _ ((ih v).1 held) rfl
        have missing : ⟨place', .delivered value⟩ ∉ arrivals := fun listed => fresh _ listed rfl
        rw [if_pos ⟨rfl, room⟩, empty, Option.or_none, value?_eq_some, or_iff_right missing, Arrival.mk.injEq,
          and_iff_right rfl, eq_comm]
      · have other : ¬ (⟨place, .delivered value⟩ : Arrival) = ⟨place', ending⟩ := by
          rintro ⟨⟩
          exact here rfl
        rw [if_neg fun both => here both.1, ih, or_iff_left other]

end Slot

/-- The fetch at that place has the name and has delivered the value. -/
def Brings (fetches : List Fetch) (arrivals : List Arrival) (place : Nat) (name : String) (value : Json) :
    Prop :=
  fetches[place]?.map Fetch.name = some name ∧ ⟨place, .delivered value⟩ ∈ arrivals

theorem bears_filled {fetches : List Fetch} {arrivals : List Arrival} (received : Received fetches arrivals)
    {place : Nat} {name : String} {value : Json} :
    Slot.Bears (Slot.filled (fetches.map Fetch.name) arrivals) place name value ↔
      Brings fetches arrivals place name value := by
  have named := congrArg (fun names => names[place]?) (Slot.names_filled (fetches.map Fetch.name) arrivals)
  simp only [List.getElem?_map] at named
  rw [Slot.Bears, Brings, ← named, ← Slot.value?_filled received]
  cases (Slot.filled (fetches.map Fetch.name) arrivals)[place]? with
  | none => simp
  | some s =>
      obtain ⟨n, w⟩ := s
      simp

/-- Only what was delivered makes a difference. -/
theorem filled_congr {fetches fetches' : List Fetch} {arrivals arrivals' : List Arrival}
    (received : Received fetches arrivals) (received' : Received fetches' arrivals')
    (names : fetches.map Fetch.name = fetches'.map Fetch.name)
    (same : ∀ place value, ⟨place, .delivered value⟩ ∈ arrivals ↔ ⟨place, .delivered value⟩ ∈ arrivals') :
    Slot.filled (fetches.map Fetch.name) arrivals = Slot.filled (fetches'.map Fetch.name) arrivals' := by
  apply Slot.ext_of_map_name
  · rw [Slot.names_filled, Slot.names_filled, names]
  intro place
  apply Option.ext
  intro value
  rw [Slot.value?_filled received, Slot.value?_filled received', same]

/-! ### Bags -/

namespace Loaded

/-- The fragments of a load before the subject is split off. -/
def gathered (names : List String) (arrivals : List Arrival) : Entries Json :=
  Slot.fragments (Slot.filled names arrivals)

/-- The fragments are the names that were delivered, each with the value of the last registered fetch that
delivered it, in the order of the first one. The order of arrival makes no difference, nor do fetches that
failed, broke or did not arrive. -/
theorem ofArrivals_received {fetches : List Fetch} {arrivals : List Arrival}
    (received : Received fetches arrivals) (subjectKey : String) :
    let bag := gathered (fetches.map Fetch.name) arrivals
    ofArrivals (fetches.map Fetch.name) arrivals subjectKey = ofFragments bag subjectKey ∧
      bag.keys.Nodup ∧
      (∀ name value, bag.get? name = some value ↔ ∃ place, Brings fetches arrivals place name value ∧
        ∀ later value', place < later → ¬ Brings fetches arrivals later name value') ∧
      (bag.keys.Pairwise fun a b => ∃ place value, Brings fetches arrivals place a value ∧
        ∀ place' value', Brings fetches arrivals place' b value' → place < place') ∧
      ∀ fetches' arrivals', Received fetches' arrivals' → fetches'.map Fetch.name = fetches.map Fetch.name →
        (∀ place value, ⟨place, .delivered value⟩ ∈ arrivals' ↔ ⟨place, .delivered value⟩ ∈ arrivals) →
        ofArrivals (fetches'.map Fetch.name) arrivals' subjectKey =
          ofArrivals (fetches.map Fetch.name) arrivals subjectKey := by
  intro bag
  refine ⟨rfl, Entries.nodup_keys_ofList _, fun name value => ?_, ?_, ?_⟩
  · simp only [bag, gathered, Slot.get?_fragments, bears_filled received]
  · simpa only [bag, gathered, bears_filled received] using
      Slot.keys_fragments_pairwise (Slot.filled (fetches.map Fetch.name) arrivals)
  · intro fetches' arrivals' received' names same
    have slots := filled_congr received' received names same
    exact congrArg (fun slots => ofFragments (Slot.fragments slots) subjectKey) slots

/-- Three fetches of one name, one that fails and one that hangs. -/
def repeated : List Fetch :=
  [⟨"caller", some (.delivered (.str "old"))⟩, ⟨"notes", some (.failed "gone")⟩,
    ⟨"caller", some (.delivered (.str "new"))⟩, ⟨"caller", some .broken⟩, ⟨"memories", none⟩]

theorem ofArrivals_received_repeated :
    let first : List Arrival := [⟨2, .delivered (.str "new")⟩, ⟨3, .broken⟩, ⟨0, .delivered (.str "old")⟩]
    let second : List Arrival :=
      [⟨1, .failed "gone"⟩, ⟨0, .delivered (.str "old")⟩, ⟨2, .delivered (.str "new")⟩]
    Received repeated first ∧ Received repeated second ∧
      (gathered (repeated.map Fetch.name) first).get? "caller" = some (.str "new") ∧
      ofArrivals (repeated.map Fetch.name) second "caller" =
        ofArrivals (repeated.map Fetch.name) first "caller" := by
  intro first second
  have received : Received repeated first :=
    .next (.next (.next .start rfl rfl nofun) rfl rfl (by simp)) rfl rfl (by simp)
  have received' : Received repeated second :=
    .next (.next (.next .start rfl rfl nofun) rfl rfl (by simp)) rfl rfl (by simp)
  obtain ⟨-, -, -, -, same⟩ := ofArrivals_received received "caller"
  refine ⟨received, received', rfl, same repeated second received' rfl fun place value => ?_⟩
  simp [first, second, or_comm]

end Loaded

end Prompt
